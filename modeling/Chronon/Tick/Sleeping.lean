import Chronon.Tick.Starvation
import Chronon.Tick.Traces

/-!
# When a tick sleeps

A tick that finds no due job sleeps until shortly before the next fire time, and a
tick that finds one yields or sleeps. The two queries behind this filter
differently: the due list leaves out completed run-once jobs and rows with a tick
claim, the minimum of the fire times does not; and whenever a job is due, the
minimum is so near that the tick yields. `tick_sleeps_iff` says exactly when a
tick that enqueues nothing sleeps.
-/

namespace Chronon
set_option autoImplicit false

open Concurrent Collections

/-- The duration of a sleep. -/
def sleptFor (e : LogEntry) : Option Int :=
  match e with
  | ⟨_, _, .sleep duration, _⟩ => some duration
  | _ => none

/-- A reading of the clock. -/
def readTime (e : LogEntry) : Option DateTime :=
  match e with
  | ⟨_, _, .utcNow, now⟩ => some now
  | _ => none

/-- The time at which due jobs were looked up. -/
def lookupTime (e : LogEntry) : Option DateTime :=
  match e with
  | ⟨_, s, .store (.findDueJobIdsInPartitions _ _ _), _⟩ => some s.clock
  | _ => none

/-- The sleeps between two worlds. -/
def World.sleeps (w w' : World) : List Int := (w.entriesSince w').filterMap sleptFor

/-- The task has slept for a positive time. -/
def World.slept (w w' : World) : Bool := (w.sleeps w').any (0 < ·)

/-- What the clock said when a tick began, and when it looked up its due jobs. -/
def World.tickTimes (w w' : World) : Option (DateTime × DateTime) :=
  ((w.entriesSince w').filterMap readTime).head?.bind fun now =>
    ((w.entriesSince w').filterMap lookupTime).head?.map fun lookup => (now, lookup)

/-- An enabled job of an owned partition that is not manual. -/
def scheduledIn (owned : List Nat) (row : Job) : Bool :=
  (row.enabled && row.scheduleKind != .manual) &&
    row.partitionHash.any fun h : Int => owned.any fun p => h == (p : Int)

/-- A run-once job that has run. -/
def completed (row : Job) : Bool := decide (row.scheduleKind = .runOnce) && row.runOnceCompletedAt.isSome

/-- The margin by which an idle tick wakes up early. -/
def wakeMargin : Int := milliseconds 21

/-- The fire time comes within the wake-up margin. -/
def wakesSoon (owned : List Nat) (now : DateTime) (row : Job) : Bool :=
  (scheduledIn owned row && !completed row) && row.nextRunAt.any fun t => decide (now < t) && decide (t < now + wakeMargin)

/-- Nothing is due, and no fire time comes before the margin is over. -/
def restful (owned : List Nat) (dueUntil now lookup : DateTime) (s : Store) : Bool :=
  s.jobs.rows.all fun row => !Store.isDue lookup owned dueUntil row &&
    (!scheduledIn owned row || row.nextRunAt.all fun t => decide (now + wakeMargin ≤ t))

/-- When the tick began, some job was about to fire. -/
def World.aboutToWake (w w' : World) (owned : List Nat) : Bool :=
  (w.tickTimes w').any fun times => w.store.jobs.rows.any (wakesSoon owned times.1)

/-- The tick found nothing to do now or soon. -/
def World.rested (w w' : World) (owned : List Nat) (draining : Bool) : Bool :=
  (w.tickTimes w').any fun times => restful owned (dueBy times.1 draining) times.1 times.2 w.store

/-! ## Tasks that do not sleep -/

/-- A task that never sleeps. -/
def Wakeful {α : Type} (m : Task α) : Prop :=
  Follows (fun (_ : Unit) op _ _ => ∀ duration, op ≠ .sleep duration) m () fun _ _ => True

section Wakeful

variable {around : Surroundings} {α β : Type} {m : Task α} {f : α → Task β} {w w' : World} {out : Option α}
  {host : Host} {instanceId jobId : String}

theorem Wakeful.ret (a : α) : Wakeful (.ret a : Task α) := trivial

theorem Wakeful.bind (first : Wakeful m) (rest : ∀ a, Wakeful (f a)) : Wakeful (m >>= f) :=
  Follows.bind first fun a _ _ => rest a

/-- A call that is not a sleep. -/
theorem Wakeful.call {op : Op} {k : Ans op → Task α} (awake : ∀ duration, op ≠ .sleep duration)
    (rest : ∀ r, Wakeful (k r)) : Wakeful (.call op k) :=
  fun r => ⟨(), awake, rest r⟩

theorem Wakeful.store {c : StoreCall} {k : Result c.Ret → Task α} (rest : ∀ r, Wakeful (k r)) :
    Wakeful (.call (.store c) k) := .call (by rintro duration ⟨⟩) rest

theorem giveUp_wakeful (jobId : String) : Wakeful (giveUp jobId) := .store fun _ => .ret _

theorem skipDueJob_wakeful (host : Host) (job : Job) (jobId : String) (now : DateTime) :
    Wakeful (skipDueJob host job jobId now) := by
  unfold skipDueJob
  split
  · exact .store fun _ => .store fun _ => .store fun _ => .ret _
  · exact .store fun _ => .store fun _ => .ret _

theorem createTickRun_wakeful (host : Host) (instanceId jobId : String) (job : Job) (now : DateTime) :
    Wakeful (createTickRun host instanceId jobId job now) := by
  refine .call (by rintro duration ⟨⟩) fun runId => .store fun created => ?_
  cases created with
  | error e =>
    change Wakeful (if job.scheduleKind = .runOnce then _ else _)
    split
    · exact .call (by rintro duration ⟨⟩) fun _ => .store fun _ => giveUp_wakeful jobId
    · exact giveUp_wakeful jobId
  | ok _ =>
    change Wakeful (if job.scheduleKind = .runOnce then _ else _)
    split
    · exact .call (by rintro duration ⟨⟩) fun _ => .store fun _ => .store fun _ => .ret _
    · exact .store fun _ => .ret _

theorem enqueueCounted_wakeful (host : Host) (instanceId jobId : String) (job : Job) (now : DateTime) (count : Int) :
    Wakeful (enqueueCounted host instanceId jobId job now count) := by
  unfold enqueueCounted
  split
  · exact giveUp_wakeful jobId
  · split
    · exact skipDueJob_wakeful host job jobId now
    · split
      · refine .store fun claimed => ?_
        rcases claimed with e | _ | _
        · exact giveUp_wakeful jobId
        · exact giveUp_wakeful jobId
        · exact createTickRun_wakeful host instanceId jobId job now
      · exact createTickRun_wakeful host instanceId jobId job now

theorem enqueueDueJob_wakeful (host : Host) (instanceId jobId : String) : Wakeful (enqueueDueJob host instanceId jobId) := by
  refine .call (by rintro duration ⟨⟩) fun now => .call (by rintro duration ⟨⟩) fun uuid => .store fun claimed => ?_
  rcases claimed with e | _ | _
  · exact .ret _
  · exact .ret _
  · refine .store fun found => ?_
    rcases found with e | _ | job
    · exact .ret _
    · exact giveUp_wakeful jobId
    · refine .store fun listing => ?_
      cases listing with
      | error e => exact enqueueCounted_wakeful host instanceId jobId job now _
      | ok runs => exact enqueueCounted_wakeful host instanceId jobId job now _

theorem enqueueAll_wakeful (host : Host) (instanceId : String) (ids : List String) :
    Wakeful (enqueueAll host instanceId ids) := by
  induction ids with
  | nil => exact .ret _
  | cons jobId rest ih =>
    exact (enqueueDueJob_wakeful host instanceId jobId).bind fun created => ih.bind fun enqueued => .ret _

/-- Such a task has not slept. -/
theorem Ends.sleeps (ends : Ends around m w out w') (awake : Wakeful m) : w.sleeps w' = [] := by
  induction m generalizing w with
  | ret a =>
    obtain ⟨-, rfl⟩ := ends
    rw [World.sleeps, World.entriesSince_self, List.filterMap_nil]
  | call op k ih =>
    cases op with
    | panic =>
      obtain ⟨-, rfl⟩ := ends
      rw [World.sleeps, World.entriesSince_self, List.filterMap_nil]
    | sleep duration =>
      obtain ⟨-, never, -⟩ := awake ()
      exact absurd rfl (never duration)
    | _ =>
      obtain ⟨r, t, calls, rest⟩ := ends
      obtain ⟨_, -, restAwake⟩ := awake r
      rw [World.sleeps, calls.entries rest, List.filterMap_cons]
      exact ih r rest restAwake

end Wakeful

/-! ## The two queries -/

section Queries

variable {s : Store} {owned : List Nat} {clock dueUntil now t : DateTime} {limit : Nat} {row : Job} {env : EnvVars}
  {ids : List String} {next : Result (Option DateTime)}

/-- The due list is empty when nothing is due. -/
theorem findDue_eq_nil_iff (owns : owned ≠ []) (positive : 0 < limit)
    (listed : s.findDueJobIdsInPartitions clock owned dueUntil limit = .ok ids) :
    ids = [] ↔ ∀ row ∈ s.jobs.rows, Store.isDue clock owned dueUntil row = false := by
  unfold Store.findDueJobIdsInPartitions at listed
  rw [if_neg (by simp [owns, positive.ne'])] at listed
  obtain rfl := Except.ok.inj listed
  have isNil {α : Type} (l : List α) : l.take limit = [] ↔ l = [] := by
    rw [List.take_eq_nil_iff, or_iff_right positive.ne']
  rw [List.map_eq_nil_iff, isNil, ← List.length_eq_zero_iff, List.length_insertionSort, List.length_eq_zero_iff,
    List.filter_eq_nil_iff]
  simp only [Bool.not_eq_true]

theorem findDue_isOk (s : Store) (clock : DateTime) (owned : List Nat) (dueUntil : DateTime) (limit : Nat) :
    ∃ ids, s.findDueJobIdsInPartitions clock owned dueUntil limit = .ok ids := by
  unfold Store.findDueJobIdsInPartitions
  split
  · exact ⟨_, rfl⟩
  · exact ⟨_, rfl⟩

theorem restful_iff {lookup : DateTime} : restful owned dueUntil now lookup s = true ↔
    (∀ row ∈ s.jobs.rows, Store.isDue lookup owned dueUntil row = false) ∧
      ∀ row ∈ s.jobs.rows, scheduledIn owned row = true → ∀ t, row.nextRunAt = some t → now + wakeMargin ≤ t := by
  simp only [restful, List.all_eq_true, Bool.and_eq_true, Bool.or_eq_true, Bool.not_eq_true', Option.all_eq_true,
    decide_eq_true_eq, forall_and, imp_iff_not_or (a := scheduledIn _ _ = true), Bool.not_eq_true]

theorem scheduledIn_of_isDue (due : Store.isDue clock owned dueUntil row = true) :
    scheduledIn owned row = true ∧ ∃ t, row.nextRunAt = some t ∧ t ≤ dueUntil := by
  simp only [Store.isDue, Store.scheduleDue, Bool.and_eq_true] at due
  obtain ⟨⟨⟨⟨kind, next⟩, -⟩, placed⟩, -⟩ := due
  obtain ⟨t, isNext, early⟩ := (Option.any_eq_true _ _).mp next
  refine ⟨?_, t, isNext, by simpa using early⟩
  rw [scheduledIn, placed, Bool.and_true, Bool.and_eq_true]
  exact kind

/-- The earliest fire time of the scheduled jobs, if there is one. -/
theorem minNext_cases (owns : owned ≠ []) (s : Store) :
    (s.minNextRunAtInPartitions owned = .ok none ∧
      ∀ row ∈ s.jobs.rows, scheduledIn owned row = true → row.nextRunAt = none) ∨
    ∃ t, s.minNextRunAtInPartitions owned = .ok (some t) ∧
      (∃ row ∈ s.jobs.rows, scheduledIn owned row = true ∧ row.nextRunAt = some t) ∧
      ∀ row ∈ s.jobs.rows, scheduledIn owned row = true → ∀ t', row.nextRunAt = some t' → t ≤ t' := by
  have isMin : s.minNextRunAtInPartitions owned =
      .ok ((s.jobs.rows.filter (scheduledIn owned)).filterMap (·.nextRunAt)).min? := by
    unfold Store.minNextRunAtInPartitions
    rw [if_neg (by simpa using owns)]
    rfl
  rw [isMin]
  have mem {t : DateTime} : t ∈ (s.jobs.rows.filter (scheduledIn owned)).filterMap (·.nextRunAt) ↔
      ∃ row ∈ s.jobs.rows, scheduledIn owned row = true ∧ row.nextRunAt = some t := by
    simp only [List.mem_filterMap, List.mem_filter, and_assoc]
  cases least : ((s.jobs.rows.filter (scheduledIn owned)).filterMap (·.nextRunAt)).min? with
  | none =>
    refine .inl ⟨rfl, fun row inside scheduled => Option.eq_none_iff_forall_not_mem.mpr fun t isNext => ?_⟩
    rw [List.min?_eq_none_iff] at least
    have none_ := mem.mpr ⟨row, inside, scheduled, isNext⟩
    rw [least] at none_
    cases none_
  | some t =>
    obtain ⟨listed, smallest⟩ := List.min?_eq_some_iff.mp least
    exact .inr ⟨t, rfl, mem.mp listed, fun row inside scheduled t' isNext =>
      smallest t' (mem.mpr ⟨row, inside, scheduled, isNext⟩)⟩

/-- A tick that finds a due job goes on draining. -/
theorem drains_of_due (owns : owned ≠ []) {draining : Bool} (inside : row ∈ s.jobs.rows)
    (due : Store.isDue clock owned (dueBy now draining) row = true) (n : Nat) :
    drainingAfter env now n (s.minNextRunAtInPartitions owned) = true := by
  obtain ⟨scheduled, t, isNext, early⟩ := scheduledIn_of_isDue due
  rcases minNext_cases owns s with ⟨-, none_⟩ | ⟨t', isMin, -, least⟩
  · rw [none_ row inside scheduled] at isNext
    cases isNext
  · have near : t' ≤ now + milliseconds 250 := by
      calc t' ≤ t := least row inside scheduled t isNext
        _ ≤ dueBy now draining := early
        _ ≤ now + milliseconds 250 := by
          unfold dueBy
          cases draining <;> simp [milliseconds]
    rw [isMin, drainingAfter, decide_eq_true near, Bool.or_true]

theorem le_numMilliseconds_iff {n d : Int} (positive : 0 < n) : n ≤ numMilliseconds d ↔ milliseconds n ≤ d := by
  unfold numMilliseconds milliseconds
  rcases le_total 0 d with ahead | past
  · rw [Int.tdiv_eq_ediv_of_nonneg ahead]
    omega
  · have small : Int.tdiv d 1000000 ≤ 0 := by
      rw [← neg_neg d, Int.neg_tdiv, Int.tdiv_eq_ediv_of_nonneg (by omega)]
      omega
    omega

/-- An idle tick sleeps exactly when no fire time comes before the margin is over. -/
theorem idleWait_pos_iff (owns : owned ≠ []) (env : EnvVars) (now : DateTime) (s : Store) :
    0 < idleWait env now (s.minNextRunAtInPartitions owned) ↔
      ∀ row ∈ s.jobs.rows, scheduledIn owned row = true → ∀ t, row.nextRunAt = some t → now + wakeMargin ≤ t := by
  rcases minNext_cases owns s with ⟨isMin, none_⟩ | ⟨t, isMin, ⟨row, inside, scheduled, isNext⟩, least⟩
  · have positive : 0 < tickIntervalMsFromEnv env := natFromEnv_pos _ (by decide)
    rw [isMin]
    refine iff_of_true ?_ fun row inside scheduled t isNext => ?_
    · simp only [idleWait, milliseconds]
      omega
    · rw [none_ row inside scheduled] at isNext
      cases isNext
  · have wakes : 0 < idleWait env now (.ok (some t)) ↔ now + wakeMargin ≤ t := by
      rw [wakeMargin, ← le_sub_iff_add_le', ← le_numMilliseconds_iff (by decide)]
      simp only [idleWait, milliseconds, seconds]
      omega
    rw [isMin, wakes]
    constructor
    · exact fun late row' inside' scheduled' t' isNext' => le_trans late (least row' inside' scheduled' t' isNext')
    · exact fun late => late row inside scheduled t isNext

end Queries

/-! ## One tick -/

section Tick

variable {host : Host} {instanceId : String} {draining draining' : Bool} {w w' : World} {result : TickResult}

/-- What a tick that is switched on reads, and how long it sleeps. -/
theorem runOneTick_sleeps (enabled : (host.env.disableCoordinator || host.env.interactive) = false)
    (owns : w.state.owned instanceId ≠ [])
    (ends : Ends .calm (runOneTick host instanceId draining) w (some (result, draining')) w') :
    ∃ now lookup ids, w.tickTimes w' = some (now, lookup) ∧
      w.store.findDueJobIdsInPartitions lookup (w.state.owned instanceId) (dueBy now draining)
        (tickBatchLimitFromEnv host.env) = .ok ids ∧
      w.sleeps w' = if ids = [] then
          [idleWait host.env now (w.store.minNextRunAtInPartitions (w.state.owned instanceId))]
        else if drainingAfter host.env now ids.length (w.store.minNextRunAtInPartitions (w.state.owned instanceId)) then []
        else [milliseconds (tickIntervalMsFromEnv host.env)] := by
  unfold runOneTick at ends
  rw [if_neg (by rw [enabled]; rintro ⟨⟩)] at ends
  obtain ⟨owned, w₁, asks, ends⟩ := ends
  have entries₁ := asks.entries ends
  obtain rfl := asks.ownedPartitions
  replace ends : Ends .calm (if (w.state.owned instanceId).isEmpty = true then _ else _) w₁ (some (result, draining')) w' :=
    ends
  rw [if_neg (by simpa using owns)] at ends
  obtain ⟨now, w₂, reads, ends⟩ := ends
  have entries₂ := reads.entries ends
  obtain ⟨found, w₃, lists, ends⟩ := ends
  rw [entries₂, lists.entries ends] at entries₁
  have same₂ : w₂.store = w.store := reads.utcNow.2.trans (asks.other (by rintro c ⟨⟩))
  have ran := lists.exec rfl
  simp only [StoreCall.exec, Prod.mk.injEq, same₂] at ran
  have same₃ : w₃.store = w.store := ran.2.symm
  obtain ⟨ids, isOk⟩ := findDue_isOk w.store w₂.clock (w.state.owned instanceId) (dueBy now draining)
    (tickBatchLimitFromEnv host.env)
  rw [show found = .ok ids from ran.1.symm.trans isOk] at ends
  obtain ⟨next, w₄, nexts, ends⟩ := ends
  have entries₃ := nexts.entries ends
  have isNext : next = w.store.minNextRunAtInPartitions (w.state.owned instanceId) := by
    have answered := nexts.exec rfl
    simp only [StoreCall.exec, Prod.mk.injEq, same₃] at answered
    exact answered.1.symm
  have sleeps : w.sleeps w' = w₄.sleeps w' := by
    rw [World.sleeps, entries₁, entries₃]
    rfl
  refine ⟨now, w₂.clock, ids, ?_, isOk, ?_⟩
  · rw [World.tickTimes, entries₁]
    rfl
  rw [sleeps, ← isNext]
  replace ends : Ends .calm (if ids.isEmpty = true then _ else _) w₄ (some (result, draining')) w' := ends
  by_cases nothing : ids = []
  · rw [if_pos (by rw [nothing]; rfl)] at ends
    obtain ⟨r, w₅, waits, ends⟩ := ends
    rw [if_pos nothing, World.sleeps, waits.entries ends]
    obtain ⟨-, rfl⟩ := ends
    rw [World.entriesSince_self]
    rfl
  · rw [if_neg (by simpa using nothing)] at ends
    rw [if_neg nothing]
    rcases Ends.bind ends with ⟨-, isNone⟩ | ⟨n, w₅, all, ends⟩
    · cases isNone
    have awake := all.sleeps (enqueueAll_wakeful host instanceId ids)
    have apart : w₄.sleeps w' = w₄.sleeps w₅ ++ w₅.sleeps w' := by
      rw [World.sleeps, all.entries ends, List.filterMap_append]
      rfl
    rw [apart, awake, List.nil_append]
    split at ends
    · rename_i drains
      obtain ⟨r, w₆, yields, ends⟩ := ends
      rw [if_pos drains, World.sleeps, yields.entries ends]
      obtain ⟨-, rfl⟩ := ends
      rw [World.entriesSince_self]
      rfl
    · rename_i rests
      obtain ⟨r, w₆, waits, ends⟩ := ends
      rw [if_neg rests, World.sleeps, waits.entries ends]
      obtain ⟨-, rfl⟩ := ends
      rw [World.entriesSince_self]
      rfl

/-- A tick that is switched on sleeps exactly when nothing is due and nothing comes up. -/
theorem slept_eq_rested (enabled : (host.env.disableCoordinator || host.env.interactive) = false)
    (owns : w.state.owned instanceId ≠ [])
    (ends : Ends .calm (runOneTick host instanceId draining) w (some (result, draining')) w') :
    w.slept w' = w.rested w' (w.state.owned instanceId) draining := by
  obtain ⟨now, lookup, ids, times, listed, sleeps⟩ := runOneTick_sleeps enabled owns ends
  have isNil := findDue_eq_nil_iff owns (tickBatchLimit_pos host.env) listed
  rw [World.rested, times, Option.any_some, Bool.eq_iff_iff, restful_iff, World.slept, sleeps]
  by_cases nothing : ids = []
  · rw [if_pos nothing, and_iff_right (isNil.mp nothing), ← idleWait_pos_iff owns host.env now w.store]
    simp
  · rw [if_neg nothing]
    have due : ∃ row ∈ w.store.jobs.rows, Store.isDue lookup (w.state.owned instanceId) (dueBy now draining) row = true := by
      by_contra none_
      push Not at none_
      exact nothing (isNil.mpr fun row inside => Bool.eq_false_iff.mpr (none_ row inside))
    obtain ⟨row, inside, isDue⟩ := due
    rw [if_pos (drains_of_due owns inside isDue ids.length)]
    refine iff_of_false (by rintro ⟨⟩) fun rests => ?_
    rw [rests.1 row inside] at isDue
    cases isDue

/-- A coordinator that is switched off sleeps half a minute. -/
theorem slept_of_disabled (disabled : (host.env.disableCoordinator || host.env.interactive) = true)
    (ends : Ends .calm (runOneTick host instanceId draining) w (some (result, draining')) w') : w.slept w' = true := by
  unfold runOneTick at ends
  rw [if_pos disabled] at ends
  obtain ⟨r, w₁, waits, ends⟩ := ends
  rw [World.slept, World.sleeps, waits.entries ends]
  obtain ⟨-, rfl⟩ := ends
  rw [World.entriesSince_self]
  rfl

end Tick

/-- **The tick loop does not spin**: a tick sleeps, or some job is about to fire, exactly when the coordinator is
switched off, or nothing is due and no fire time comes before the wake-up margin is over, or some job is about to
fire. -/
theorem tick_sleeps_iff {host : Host} {instanceId : String} {draining draining' : Bool} {w w' : World}
    {result : TickResult} (owns : w.state.owned instanceId ≠ [])
    (ends : Ends .calm (runOneTick host instanceId draining) w (some (result, draining')) w') :
    (w.slept w' = true ∨ w.aboutToWake w' (w.state.owned instanceId) = true) ↔
      (host.env.disableCoordinator || host.env.interactive) = true ∨
      w.rested w' (w.state.owned instanceId) draining = true ∨ w.aboutToWake w' (w.state.owned instanceId) = true := by
  cases enabled : host.env.disableCoordinator || host.env.interactive with
  | true => exact iff_of_true (.inl (slept_of_disabled enabled ends)) (.inl rfl)
  | false => rw [slept_eq_rested enabled owns ends, or_iff_right Bool.false_ne_true]

theorem exists_tick (draining : Bool) (w : World) (oracles : List Oracle) (test : TickResult → Bool → World → Bool)
    (played : (playAlone (fun _ => none) (runOneTick .simple "A" draining) w oracles).any (fun out =>
      out.1.any fun ended => test ended.1 ended.2 out.2) = true) :
    ∃ result draining' w', Ends .calm (runOneTick .simple "A" draining) w (some (result, draining')) w' ∧
      test result draining' w' = true := by
  obtain ⟨out, ends, passes⟩ := Ends.exists_of_play .calm le_refl _ played
  obtain ⟨⟨result, draining'⟩, rfl, passes⟩ := (Option.any_eq_true _ _).mp passes
  exact ⟨result, draining', _, ends, passes⟩

/-- A minute before its job is due, the coordinator sleeps. -/
theorem tick_sleeps_early : ∃ result draining' w',
    Ends .calm (runOneTick .simple "A" false) (.fresh (State.single minutelyJob 0)) (some (result, draining')) w' ∧
      ((World.fresh (State.single minutelyJob 0)).slept w' = true ∨
        (World.fresh (State.single minutelyJob 0)).aboutToWake w' [0] = true) := by
  obtain ⟨result, draining', w', ends, rests⟩ := exists_tick false (.fresh (State.single minutelyJob 0)) [] (fun _ _ w' =>
    (World.fresh (State.single minutelyJob 0)).rested w' [0] false) (by decide +kernel)
  exact ⟨result, draining', w', ends, (tick_sleeps_iff (by decide) ends).mpr (.inr (.inl rests))⟩

/-! ## Ticks that spin -/

/-- A run-once job that has run, with its fire time still in place. -/
def completedJob : Job := { dueOnceJob with runOnceCompletedAt := some (seconds 61) }

/-- A tick that enqueues nothing and returns without a sleep, although no job is about to fire. -/
def spins (w : World) (result : TickResult) (w' : World) : Bool :=
  result.enqueued == 0 && !(w.slept w' || w.aboutToWake w' (w.state.owned "A"))

/-- Two consecutive ticks of a coordinator with a partition that spin. -/
def SpinsTwice (w : World) : Prop :=
  w.state.owned "A" ≠ [] ∧ ∃ first second draining₁ draining₂ w₁ w₂,
    Ends .calm (runOneTick .simple "A" false) w (some (first, draining₁)) w₁ ∧ spins w first w₁ = true ∧
    Ends .calm (runOneTick .simple "A" draining₁) w₁ (some (second, draining₂)) w₂ ∧ spins w₁ second w₂ = true

theorem spinsTwice_of_play {w : World} (owns : w.state.owned "A" ≠ []) (oracles oracles' : List Oracle)
    (played : (playAlone (fun _ => none) (runOneTick .simple "A" false) w oracles).any (fun out => out.1.any fun ended =>
      spins w ended.1 out.2 && (playAlone (fun _ => none) (runOneTick .simple "A" ended.2) out.2 oracles').any (fun out' =>
        out'.1.any fun ended' => spins out.2 ended'.1 out'.2)) = true) : SpinsTwice w := by
  obtain ⟨first, draining₁, w₁, ends, passes⟩ := exists_tick false w oracles (fun result draining w₁ => spins w result w₁ &&
    (playAlone (fun _ => none) (runOneTick .simple "A" draining) w₁ oracles').any fun out' =>
      out'.1.any fun ended' => spins w₁ ended'.1 out'.2) played
  rw [Bool.and_eq_true] at passes
  obtain ⟨second, draining₂, w₂, ends', again⟩ := exists_tick draining₁ w₁ oracles' (fun result _ w₂ => spins w₁ result w₂)
    passes.2
  exact ⟨owns, first, second, draining₁, draining₂, w₁, w₂, ends, passes.1, ends', again⟩

/-- A job held back by its concurrency limit keeps the coordinator spinning, and so does a completed run-once job. -/
theorem ticks_spin : SpinsTwice (.fresh limitedState) ∧ SpinsTwice (.fresh (State.single completedJob (seconds 62))) :=
  ⟨spinsTwice_of_play (by decide) [.uuid "c1"] [.uuid "c2"] (by decide +kernel),
    spinsTwice_of_play (by decide) [] [] (by decide +kernel)⟩

end Chronon
