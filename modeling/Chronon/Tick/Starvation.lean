import Chronon.Collections.Sorting
import Chronon.Runs.Limit
import Chronon.Tick.Outcome

/-!
# Which due jobs get their turn

Consecutive ticks of one coordinator at a fixed time. The due list is sorted by
fire time and cut at the batch limit, and a job that is held back keeps its fire
time, so it comes first in every tick. A job waits behind the rows that sort
before it; those that fire leave, and those that are held back, or whose next fire
time comes before the waiting job's, stay. A runnable job gets its run exactly when
the rows that stay are fewer than the batch limit (`not_starved_iff`).
-/

namespace Chronon
set_option autoImplicit false

open Collections

/-- The place of a due job in the due lists of its coordinator: the time, the owned partitions, the iteration order
of the jobs, and the job with its fire time. -/
structure Place where
  clock : DateTime
  owned : List Nat
  order : List String
  jobId : String
  fire : DateTime

namespace Place

variable (p : Place)

/-- A job comes before this one in the iteration order. -/
def precedes (id : String) : Bool := (p.order.takeWhile (· ≠ p.jobId)).contains id

/-- A job with fire time `t` sorts before this one. -/
def sooner (id : String) (t : DateTime) : Bool := decide (t < p.fire) || (decide (t = p.fire) && p.precedes id)

/-- A due row that sorts before this job. -/
def ahead (row : Job) : Bool := Store.isDue p.clock p.owned p.fire row && row.nextRunAt.any (p.sooner row.jobId)

/-- Such a row that will still be one after its turn. -/
def stuck (host : Host) (instanceId : String) (s : Store) (row : Job) : Bool :=
  p.ahead row &&
    (heldBack instanceId s p.clock row || (postTickNextRunAt host row p.clock).any (p.sooner row.jobId))

def aheadAt (s : Store) (id : String) : Bool := (s.jobs.lookup id).any p.ahead

def stuckAt (host : Host) (instanceId : String) (s : Store) (id : String) : Bool :=
  (s.jobs.lookup id).any (p.stuck host instanceId s)

end Place

/-- The place of `target` for this coordinator. -/
def placeOf (instanceId : String) (target : Job) (w : World) : Place :=
  ⟨w.clock, w.state.owned instanceId, w.store.jobs.rows.map (·.jobId), target.jobId, target.nextRunAt.getD w.clock⟩

/-- The due jobs that stay ahead of `target`. -/
def stuckAhead (host : Host) (instanceId : String) (target : Job) (w : World) : List Job :=
  w.store.jobs.rows.filter ((placeOf instanceId target w).stuck host instanceId w.store)

/-- The time up to which a tick looks for due jobs. -/
def dueBy (clock : DateTime) (draining : Bool) : DateTime := clock + milliseconds (if draining then 50 else 0)

/-- The due jobs, without a limit. -/
def dueJobs (instanceId : String) (draining : Bool) (w : World) : List Job :=
  w.store.jobs.rows.filter (Store.isDue w.clock (w.state.owned instanceId) (dueBy w.clock draining))

/-- Consecutive ticks at a fixed time, with `draining` before and after. -/
inductive Ticks (host : Host) (instanceId : String) : Nat → Bool → World → Bool → World → Prop
  | none {draining : Bool} {w : World} : Ticks host instanceId 0 draining w draining w
  | tick {n : Nat} {draining draining₁ draining' : Bool} {w w₁ w' : World} {result : TickResult} :
      Ends .still (runOneTick host instanceId draining) w (some (result, draining₁)) w₁ →
      Ticks host instanceId n draining₁ w₁ draining' w' → Ticks host instanceId (n + 1) draining w draining' w'

/-- The job has got a run. -/
def GotRun (jobId : String) (w w' : World) : Prop :=
  ∃ run, run.jobId = some jobId ∧ w.run run.runId = none ∧ w'.run run.runId = some run

/-- Another instance has the run-once claim of the row. -/
def foreignClaim (instanceId : String) (now : DateTime) (row : Job) : Bool :=
  row.runOnceClaimedAt.isSome && row.runOnceClaimExpiresAt.any (· > now) && row.runOnceClaimedBy != some instanceId

/-- A due job that nothing keeps from running. -/
structure Runnable (instanceId : String) (draining : Bool) (target : Job) (w : World) : Prop where
  stored : w.job target.jobId = some target
  due : Store.isDue w.clock (w.state.owned instanceId) (dueBy w.clock draining) target = true
  room : ((activeRuns target.jobId w).length : Int) < target.concurrency
  gate : passesGate w.clock target = true
  unclaimed : target.scheduleKind = .runOnce → foreignClaim instanceId w.clock target = false

/-! ## Rows after their turn -/

section Rows

variable {p : Place} {host : Host} {instanceId : String} {row : Job} {completedAt stamp : DateTime}

theorem Place.fire_of_sooner {id : String} {t : DateTime} (sooner : p.sooner id t = true) : t ≤ p.fire := by
  simp only [Place.sooner, Bool.or_eq_true, Bool.and_eq_true, decide_eq_true_eq] at sooner
  rcases sooner with less | ⟨same, -⟩
  · exact le_of_lt less
  · exact le_of_eq same

theorem Place.due_of_ahead (isAhead : p.ahead row = true) : Store.isDue p.clock p.owned p.fire row = true := by
  rw [Place.ahead, Bool.and_eq_true] at isAhead
  exact isAhead.1

/-- A row that is given back keeps its place. -/
theorem Place.ahead_givenBack (isAhead : p.ahead row = true) : p.ahead (givenBack row stamp) = true := by
  simp only [Place.ahead, Store.isDue, Bool.and_eq_true] at isAhead ⊢
  exact ⟨⟨⟨isAhead.1.1.1, isAhead.1.1.2⟩, rfl⟩, isAhead.2⟩

/-- A row that fires goes to the place of its next fire time. -/
theorem Place.ahead_fired (isAhead : p.ahead row = true) :
    p.ahead (fired host row p.clock completedAt stamp) =
      (postTickNextRunAt host row p.clock).any (p.sooner row.jobId) := by
  have next : (fired host row p.clock completedAt stamp).nextRunAt = postTickNextRunAt host row p.clock := rfl
  have isId := fired_jobId host row p.clock completedAt stamp
  rw [Place.ahead, next, isId]
  by_cases early : (postTickNextRunAt host row p.clock).any (p.sooner row.jobId) = true
  · rw [early, Bool.and_true]
    obtain ⟨t, isNext, sooner⟩ := (Option.any_eq_true _ _).mp early
    have cron : row.scheduleKind = .cron := by
      by_contra other
      rw [postTickNextRunAt, if_neg other] at isNext
      cases isNext
    have unchanged : completedOnce row completedAt = row := by
      rw [completedOnce, if_neg (by rw [cron]; rintro ⟨⟩)]
    have due := Place.due_of_ahead isAhead
    simp only [Store.isDue, Store.scheduleDue, Bool.and_eq_true] at due
    simp only [Store.isDue, Store.scheduleDue, fired, unchanged, isNext, cron, Bool.and_eq_true]
    refine ⟨⟨⟨⟨⟨due.1.1.1.1.1, rfl⟩, ?_⟩, rfl⟩, due.1.2⟩, rfl⟩
    simpa using Place.fire_of_sooner sooner
  · rw [Bool.not_eq_true] at early
    rw [early, Bool.and_false]

theorem postTickNextRunAt_fired (now : DateTime) :
    postTickNextRunAt host (fired host row now completedAt stamp) now = postTickNextRunAt host row now := by
  simp only [fired, completedOnce]
  split
  · rename_i once
    simp only [postTickNextRunAt, once, reduceCtorEq, if_false]
  · rfl

end Rows

/-! ## What the turn of some jobs leaves alone -/

/-- Only the jobs `ids` have had their turn. -/
structure Touched (ids : List String) (s s' : Store) : Prop where
  order : s'.jobs.rows.map (·.jobId) = s.jobs.rows.map (·.jobId)
  rows : ∀ j, j ∉ ids → s'.jobs.lookup j = s.jobs.lookup j
  runs : ∀ j, j ∉ ids → s'.runs.rows.filter (fun run => run.jobId = some j) =
    s.runs.rows.filter (fun run => run.jobId = some j)
  kept : ∀ id run, s.runs.lookup id = some run → s'.runs.lookup id = some run

section Touched

variable {ids ids' : List String} {s s' s'' : Store} {host : Host} {instanceId : String} {w w' : World}

theorem Touched.refl (ids : List String) (s : Store) : Touched ids s s :=
  ⟨rfl, fun _ _ => rfl, fun _ _ => rfl, fun _ _ stored => stored⟩

theorem Touched.mono (touched : Touched ids s s') (more : ∀ j ∈ ids, j ∈ ids') : Touched ids' s s' :=
  ⟨touched.order, fun j outside => touched.rows j fun inside => outside (more j inside),
    fun j outside => touched.runs j fun inside => outside (more j inside), touched.kept⟩

theorem Touched.trans (first : Touched ids s s') (then_ : Touched ids s' s'') : Touched ids s s'' :=
  ⟨then_.order.trans first.order, fun j outside => (then_.rows j outside).trans (first.rows j outside),
    fun j outside => (then_.runs j outside).trans (first.runs j outside),
    fun id run stored => then_.kept id run (first.kept id run stored)⟩

/-- A stored row is replaced in place. -/
theorem touched_setJob {row old : Job} {jobId : String} (isJob : row.jobId = jobId)
    (stored : s.jobs.lookup jobId = some old) : Touched [jobId] s (s.setJob row) := by
  subst isJob
  constructor
  · have present : ∃ u ∈ s.jobs.rows, u.jobId = row.jobId :=
      ⟨old, Table.mem_of_lookup stored, Table.key_of_lookup stored⟩
    simp only [Store.setJob, Table.insert, Table.put]
    rw [if_pos present]
    exact Table.map_key_replace row s.jobs.rows
  · intro j outside
    rw [Store.lookup_setJob, if_neg fun same => outside (List.mem_singleton.mpr same.symm)]
  · exact fun _ _ => rfl
  · exact fun _ _ stored => stored

/-- A run is added to those of its job. -/
theorem touched_setRun {run : Run} {jobId : String} (isJob : run.jobId = some jobId)
    (new : s.runs.lookup run.runId = none) : Touched [jobId] s (s.setRun run) := by
  constructor
  · rfl
  · exact fun _ _ => rfl
  · intro j outside
    have absent : ¬ ∃ u ∈ s.runs.rows, u.runId = run.runId := by
      rintro ⟨u, inside, same⟩
      exact Table.lookup_eq_none.mp new u inside same
    have other : ¬ (decide (run.jobId = some j) = true) := by
      rw [isJob, decide_eq_true_eq, Option.some.injEq]
      rintro rfl
      exact outside (List.mem_singleton_self _)
    simp only [Store.setRun, Table.insert, Table.put]
    rw [if_neg absent]
    exact List.filter_cons_of_neg other
  · intro id old stored
    rw [Store.lookup_setRun, if_neg]
    · exact stored
    · rintro rfl
      rw [new] at stored
      cases stored

theorem Enqueued.touched {jobId : String} (enqueued : Enqueued host instanceId jobId w w') :
    Touched [jobId] w.store w'.store := by
  cases enqueued with
  | unclaimed _ after =>
    rw [after]
    exact .refl _ _
  | gaveBack row stamp stored _ _ after =>
    have key : row.jobId = jobId := Table.key_of_lookup stored
    have isJob : (givenBack row stamp).jobId = jobId := key
    rw [after]
    exact touched_setJob isJob stored
  | skipped row completedAt stamp stored _ _ _ after =>
    have isJob := (fired_jobId host row w.clock completedAt stamp).trans (Table.key_of_lookup stored)
    rw [after]
    exact touched_setJob isJob stored
  | created row completedAt stamp runId stored _ _ _ fresh after =>
    have isJob := (fired_jobId host row w.clock completedAt stamp).trans (Table.key_of_lookup stored)
    have isRun : (tickRun row runId (row.nextRunAt.getD w.clock)).jobId = some jobId :=
      congrArg some (Table.key_of_lookup stored)
    rw [after]
    exact (touched_setJob isJob stored).trans (touched_setRun isRun fresh)

/-- A job that has not had its turn is held back as before. -/
theorem Touched.heldBack (touched : Touched ids s s') {row : Job} (outside : row.jobId ∉ ids) (now : DateTime) :
    heldBack instanceId s' now row = heldBack instanceId s now row := by
  have counted : countedActive s' row.jobId = countedActive s row.jobId := by
    rw [countedActive, countedActive, Store.listRunsForJob, Store.listRunsForJob, touched.runs _ outside]
  rw [Chronon.heldBack, Chronon.heldBack, counted]

end Touched

/-! ## The turn of a job that is ahead -/

section Turn

variable {p : Place} {host : Host} {instanceId jobId : String} {w w' : World} {s s' : Store}

/-- The row of the job goes where `stuck` says, and stays there. -/
theorem Enqueued.moves (isClock : w.clock = p.clock) (enqueued : Enqueued host instanceId jobId w w') {row : Job}
    (stored : w.job jobId = some row) (isAhead : p.ahead row = true) :
    ∃ row', w'.job jobId = some row' ∧ p.ahead row' = p.stuck host instanceId w.store row ∧
      (p.stuck host instanceId w.store row = true → p.stuck host instanceId w'.store row' = true) := by
  have key : row.jobId = jobId := Table.key_of_lookup stored
  have fires (completedAt stamp : DateTime) (free : heldBack instanceId w.store w.clock row = false) :
      p.ahead (fired host row w.clock completedAt stamp) = p.stuck host instanceId w.store row ∧
        (p.stuck host instanceId w.store row = true →
          p.stuck host instanceId w'.store (fired host row w.clock completedAt stamp) = true) := by
    rw [isClock] at free ⊢
    have moves : p.ahead (fired host row p.clock completedAt stamp) = p.stuck host instanceId w.store row := by
      rw [Place.ahead_fired isAhead, Place.stuck, isAhead, free, Bool.true_and, Bool.false_or]
    refine ⟨moves, fun stuck => ?_⟩
    have again := stuck
    rw [Place.stuck, isAhead, free, Bool.true_and, Bool.false_or] at again
    rw [Place.stuck, moves, stuck, postTickNextRunAt_fired, fired_jobId, again, Bool.or_true, Bool.and_true]
  cases enqueued with
  | unclaimed busy _ =>
    have free := busy row stored
    rw [isClock, tickFree_of_isDue (Place.due_of_ahead isAhead)] at free
    cases free
  | gaveBack old stamp stored' _ back after =>
    rw [stored] at stored'
    obtain rfl := Option.some.inj stored'
    rw [isClock] at back
    have stuck : p.stuck host instanceId w.store row = true := by rw [Place.stuck, isAhead, back]; rfl
    have back' : heldBack instanceId w'.store p.clock (givenBack row stamp) = true := by
      rw [← back, after]
      rfl
    refine ⟨givenBack row stamp, ?_, ?_, fun _ => ?_⟩
    · rw [World.job, after, Store.lookup_setJob]
      exact if_pos key
    · rw [stuck, Place.ahead_givenBack isAhead]
    · rw [Place.stuck, Place.ahead_givenBack isAhead, back']
      rfl
  | skipped old completedAt stamp stored' _ free _ after =>
    rw [stored] at stored'
    obtain rfl := Option.some.inj stored'
    refine ⟨_, ?_, fires completedAt stamp free⟩
    rw [World.job, after, Store.lookup_setJob, fired_jobId]
    exact if_pos key
  | created old completedAt stamp runId stored' _ free _ _ after =>
    rw [stored] at stored'
    obtain rfl := Option.some.inj stored'
    refine ⟨_, ?_, fires completedAt stamp free⟩
    rw [World.job, after]
    exact (Store.lookup_setJob _ _ _).trans (by rw [fired_jobId, if_pos key])

/-- The rows ahead after the turn of one of them. -/
theorem Enqueued.turn (isClock : w.clock = p.clock) (enqueued : Enqueued host instanceId jobId w w')
    (isAhead : p.aheadAt w.store jobId = true) (j : String) :
    p.aheadAt w'.store j = (if j = jobId then p.stuckAt host instanceId w.store jobId else p.aheadAt w.store j) ∧
      p.stuckAt host instanceId w'.store j = p.stuckAt host instanceId w.store j := by
  obtain ⟨row, stored, isAhead⟩ := (Option.any_eq_true _ _).mp isAhead
  obtain ⟨row', stored', moves, stays⟩ := enqueued.moves isClock stored isAhead
  have touched := enqueued.touched
  by_cases own : j = jobId
  · subst own
    rw [if_pos rfl, Place.aheadAt, Place.stuckAt, Place.stuckAt, show w'.store.jobs.lookup j = some row' from stored',
      show w.store.jobs.lookup j = some row from stored, Option.any_some, Option.any_some, Option.any_some]
    refine ⟨moves, ?_⟩
    cases stuck : p.stuck host instanceId w.store row with
    | true => exact stays stuck
    | false => rw [Place.stuck, moves, stuck, Bool.false_and]
  · have outside : j ∉ [jobId] := fun inside => own (List.mem_singleton.mp inside)
    rw [if_neg own, Place.aheadAt, Place.aheadAt, Place.stuckAt, Place.stuckAt, touched.rows j outside]
    refine ⟨rfl, ?_⟩
    cases found : w.store.jobs.lookup j with
    | none => rfl
    | some other =>
      have key : other.jobId = j := Table.key_of_lookup found
      rw [Option.any_some, Option.any_some, Place.stuck, Place.stuck, touched.heldBack (by rwa [key])]

/-- The due list is worked through job by job. -/
theorem enqueueAll_cons {ids : List String} {n : Nat}
    (ends : Ends .still (enqueueAll host instanceId (jobId :: ids)) w (some n) w') :
    ∃ w₁ m, Enqueued host instanceId jobId w w₁ ∧ w₁.clock = w.clock ∧
      Ends .still (enqueueAll host instanceId ids) w₁ (some m) w' := by
  rcases Ends.bind ends with ⟨-, isNone⟩ | ⟨r, w₁, first, ends⟩
  · cases isNone
  · rcases Ends.bind ends with ⟨-, isNone⟩ | ⟨m, w₂, others, -, rfl⟩
    · cases isNone
    · exact ⟨w₁, m, enqueueDueJob_outcome (fun _ => rfl) first, first.still.1, others⟩

theorem enqueueAll_touched {ids : List String} {n : Nat}
    (ends : Ends .still (enqueueAll host instanceId ids) w (some n) w') : Touched ids w.store w'.store := by
  induction ids generalizing w n with
  | nil =>
    obtain ⟨-, rfl⟩ := ends
    exact .refl _ _
  | cons jobId ids ih =>
    obtain ⟨w₁, m, first, -, rest⟩ := enqueueAll_cons ends
    refine (first.touched.mono fun j inside => ?_).trans ((ih rest).mono fun j inside => ?_)
    · rw [List.mem_singleton.mp inside]
      exact List.mem_cons_self
    · exact List.mem_cons_of_mem _ inside

/-- The turns of several jobs that are ahead. -/
theorem enqueueAll_turns {ids : List String} {n : Nat} (isClock : w.clock = p.clock)
    (ends : Ends .still (enqueueAll host instanceId ids) w (some n) w') (distinct : ids.Nodup)
    (allAhead : ∀ id ∈ ids, p.aheadAt w.store id = true) (j : String) :
    p.aheadAt w'.store j = (if j ∈ ids then p.stuckAt host instanceId w.store j else p.aheadAt w.store j) ∧
      p.stuckAt host instanceId w'.store j = p.stuckAt host instanceId w.store j := by
  induction ids generalizing w n with
  | nil =>
    obtain ⟨-, rfl⟩ := ends
    exact ⟨(if_neg List.not_mem_nil).symm, rfl⟩
  | cons jobId ids ih =>
    obtain ⟨w₁, m, first, stands, rest⟩ := enqueueAll_cons ends
    rw [List.nodup_cons] at distinct
    have turn := first.turn isClock (allAhead jobId List.mem_cons_self)
    have allAhead₁ (id : String) (inside : id ∈ ids) : p.aheadAt w₁.store id = true := by
      have apart : id ≠ jobId := by
        rintro rfl
        exact distinct.1 inside
      rw [(turn id).1, if_neg apart]
      exact allAhead id (List.mem_cons_of_mem _ inside)
    obtain ⟨aheads, stucks⟩ := ih (stands.trans isClock) rest distinct.2 allAhead₁
    rw [aheads, stucks, (turn j).1, (turn j).2]
    refine ⟨?_, rfl⟩
    by_cases own : j = jobId
    · subst own
      rw [if_neg distinct.1, if_pos rfl, if_pos List.mem_cons_self]
    · simp only [List.mem_cons, own, false_or, if_false]

/-- A runnable job in the list gets its run. -/
theorem enqueueAll_serves {ids : List String} {n : Nat} {target : Job}
    (ends : Ends .still (enqueueAll host instanceId ids) w (some n) w') (inside : target.jobId ∈ ids)
    (stored : w.job target.jobId = some target) (free : tickFree w.clock target = true)
    (open_ : heldBack instanceId w.store w.clock target = false) (gate : passesGate w.clock target = true) :
    GotRun target.jobId w w' := by
  induction ids generalizing w n with
  | nil => cases inside
  | cons jobId ids ih =>
    obtain ⟨w₁, m, first, stands, rest⟩ := enqueueAll_cons ends
    have touched := enqueueAll_touched rest
    by_cases own : target.jobId = jobId
    · subst own
      cases first with
      | unclaimed busy _ =>
        rw [busy target stored] at free
        cases free
      | gaveBack row _ stored' _ back _ =>
        rw [stored] at stored'
        obtain rfl := Option.some.inj stored'
        rw [open_] at back
        cases back
      | skipped row _ _ stored' _ _ late _ =>
        rw [stored] at stored'
        obtain rfl := Option.some.inj stored'
        rw [gate] at late
        cases late
      | created row completedAt stamp runId stored' _ _ _ fresh after =>
        rw [stored] at stored'
        obtain rfl := Option.some.inj stored'
        refine ⟨tickRun target runId (target.nextRunAt.getD w.clock), rfl, fresh, touched.kept _ _ ?_⟩
        rw [after, Store.lookup_setRun]
        exact if_pos rfl
    · have outside : target.jobId ∉ [jobId] := fun single => own (List.mem_singleton.mp single)
      have kept := first.touched
      have stored₁ : w₁.job target.jobId = some target := (kept.rows _ outside).trans stored
      rw [← stands] at free open_ gate
      rw [← kept.heldBack outside] at open_
      obtain ⟨run, isJob, new, created⟩ := ih rest ((List.mem_cons.mp inside).resolve_left own) stored₁ free open_ gate
      refine ⟨run, isJob, ?_, created⟩
      by_contra old
      obtain ⟨before, isStored⟩ := Option.ne_none_iff_exists'.mp old
      have still := kept.kept _ _ isStored
      rw [show w₁.store.runs.lookup run.runId = none from new] at still
      cases still

end Turn

/-! ## The due list -/

section List

variable {p : Place} {s : Store} {target : Job} {dueUntil : DateTime} {limit : Nat}

/-- The due rows that the due list puts before the job. -/
theorem Place.sortsBefore_due (isFire : target.nextRunAt = some p.fire) (early : p.fire ≤ dueUntil) (row : Job) :
    (sortsBefore (fun job : Job => job.nextRunAt.getD dueUntil) (fun job => p.precedes job.jobId) target row &&
      Store.isDue p.clock p.owned dueUntil row) = p.ahead row := by
  cases next : row.nextRunAt with
  | none => simp [Place.ahead, Store.isDue, Store.scheduleDue, next]
  | some t =>
    have isSooner : sortsBefore (fun job : Job => job.nextRunAt.getD dueUntil) (fun job => p.precedes job.jobId) target
        row = p.sooner row.jobId t := by
      simp only [sortsBefore, next, isFire, Option.getD_some]
      rfl
    rw [isSooner, Place.ahead, next, Option.any_some, Bool.and_comm]
    cases sooner : p.sooner row.jobId t with
    | false => rw [Bool.and_false, Bool.and_false]
    | true =>
      have before := Place.fire_of_sooner sooner
      simp [Store.isDue, Store.scheduleDue, next, before, le_trans before early]

/-- The rows that precede the target are those before it in the table. -/
theorem Place.split_rows (isOrder : p.order = s.jobs.rows.map (·.jobId)) (isJob : p.jobId = target.jobId)
    (stored : s.jobs.lookup target.jobId = some target) :
    ∃ r₁ r₂, s.jobs.rows = r₁ ++ target :: r₂ ∧ (∀ row ∈ r₁, p.precedes row.jobId = true) ∧
      p.precedes target.jobId = false ∧ ∀ row ∈ r₂, p.precedes row.jobId = false := by
  obtain ⟨r₁, r₂, split, front, self, rest⟩ := split_comesBefore s.jobs.distinct (Table.mem_of_lookup stored)
  rw [← isOrder, ← isJob] at front self rest
  refine ⟨r₁, r₂, split, front, ?_, rest⟩
  rw [← isJob]
  exact self

/-- A due job has reached its fire time and is in an owned partition. -/
theorem Place.due_parts (isFire : target.nextRunAt = some p.fire)
    (due : Store.isDue p.clock p.owned dueUntil target = true) : p.fire ≤ dueUntil ∧ p.owned ≠ [] := by
  simp only [Store.isDue, Store.scheduleDue, Bool.and_eq_true, isFire, Option.any_some, decide_eq_true_eq] at due
  refine ⟨due.1.1.1.2, fun isNil => ?_⟩
  obtain ⟨hash, -, owned⟩ := (Option.any_eq_true _ _).mp due.1.2
  rw [isNil] at owned
  cases owned

/-- The due list holds the job while fewer rows than the limit are ahead of it, and is full of them otherwise. -/
theorem Place.dueList (isOrder : p.order = s.jobs.rows.map (·.jobId)) (isJob : p.jobId = target.jobId)
    (isFire : target.nextRunAt = some p.fire) (stored : s.jobs.lookup target.jobId = some target)
    (due : Store.isDue p.clock p.owned dueUntil target = true) (positive : 0 < limit) :
    p.aheadAt s target.jobId = false ∧ p.owned ≠ [] ∧
    ∃ ids, s.findDueJobIdsInPartitions p.clock p.owned dueUntil limit = .ok ids ∧
      ((s.jobs.rows.filter p.ahead).length < limit → target.jobId ∈ ids) ∧
      (limit ≤ (s.jobs.rows.filter p.ahead).length → ids.length = limit ∧ ∀ id ∈ ids, p.aheadAt s id = true) := by
  obtain ⟨r₁, r₂, split, front, self, rest⟩ := Place.split_rows isOrder isJob stored
  obtain ⟨early, owns⟩ := Place.due_parts isFire due
  have isDueList : s.jobs.rows.filter (Store.isDue p.clock p.owned dueUntil) =
      r₁.filter (Store.isDue p.clock p.owned dueUntil) ++ target :: r₂.filter (Store.isDue p.clock p.owned dueUntil) := by
    rw [split, List.filter_append, List.filter_cons_of_pos due]
  have isAhead : s.jobs.rows.filter p.ahead = (s.jobs.rows.filter (Store.isDue p.clock p.owned dueUntil)).filter
      (sortsBefore (fun job : Job => job.nextRunAt.getD dueUntil) (fun job => p.precedes job.jobId) target) := by
    rw [List.filter_filter]
    exact (List.filter_congr fun row _ => Place.sortsBefore_due isFire early row).symm
  rw [isDueList] at isAhead
  have earlier : ∀ row ∈ r₁.filter (Store.isDue p.clock p.owned dueUntil), p.precedes row.jobId = true :=
    fun row inside => front row (List.mem_of_mem_filter inside)
  have later : ∀ row ∈ r₂.filter (Store.isDue p.clock p.owned dueUntil), p.precedes row.jobId = false :=
    fun row inside => rest row (List.mem_of_mem_filter inside)
  refine ⟨?_, owns, ?_⟩
  · rw [Place.aheadAt, stored, Option.any_some, Place.ahead, isFire, Option.any_some, Place.sooner, self]
    simp
  · unfold Store.findDueJobIdsInPartitions
    rw [if_neg (by simp [owns, positive.ne']), isDueList]
    refine ⟨_, rfl, fun room => ?_, fun full => ?_⟩
    · rw [isAhead] at room
      exact List.mem_map_of_mem (mem_take_sorted earlier self later room)
    · rw [isAhead] at full
      obtain ⟨length, members⟩ := take_sorted_full earlier self later full
      refine ⟨by rw [List.length_map, length], fun id inside => ?_⟩
      obtain ⟨row, taken, rfl⟩ := List.mem_map.mp inside
      have isRow : row ∈ s.jobs.rows.filter p.ahead := by
        rw [isAhead, List.mem_filter]
        exact members row taken
      rw [List.mem_filter] at isRow
      rw [Place.aheadAt, Table.lookup_of_mem isRow.1, Option.any_some]
      exact isRow.2

end List

/-! ## One tick -/

section Tick

variable {host : Host} {instanceId : String} {draining draining' : Bool} {w w' : World} {result : TickResult}

/-- A coordinator that is switched off does nothing. -/
theorem runOneTick_disabled (disabled : (host.env.disableCoordinator || host.env.interactive) = true)
    (ends : Ends .still (runOneTick host instanceId draining) w (some (result, draining')) w') : w'.store = w.store := by
  unfold runOneTick at ends
  rw [if_pos disabled] at ends
  obtain ⟨r, w₁, sleeps, -, rfl⟩ := ends
  exact sleeps.other (by rintro c ⟨⟩)

/-- A tick that finds due jobs works through them. -/
theorem runOneTick_batch {ids : List String}
    (enabled : (host.env.disableCoordinator || host.env.interactive) = false)
    (ends : Ends .still (runOneTick host instanceId draining) w (some (result, draining')) w')
    (owns : w.state.owned instanceId ≠ [])
    (listed : w.store.findDueJobIdsInPartitions w.clock (w.state.owned instanceId) (dueBy w.clock draining)
      (tickBatchLimitFromEnv host.env) = .ok ids) (some_ : ids ≠ []) :
    ∃ v v' n next, v.store = w.store ∧ v.clock = w.clock ∧
      Ends .still (enqueueAll host instanceId ids) v (some n) v' ∧ w'.store = v'.store ∧
      draining' = drainingAfter host.env w.clock ids.length next := by
  unfold runOneTick at ends
  rw [if_neg (by rw [enabled]; rintro ⟨⟩)] at ends
  obtain ⟨owned, w₁, asks, ends⟩ := ends
  obtain rfl := asks.ownedPartitions
  replace ends : Ends .still (if (w.state.owned instanceId).isEmpty = true then _ else _) w₁ (some (result, draining')) w' :=
    ends
  rw [if_neg (by simpa using owns)] at ends
  obtain ⟨now, w₂, reads, found, w₃, lists, ends⟩ := ends
  have same₁ : w₁.store = w.store := asks.other (by rintro c ⟨⟩)
  have stands₁ : w.clock = w₁.clock := asks.passes
  obtain rfl : now = w.clock := reads.utcNow.1.trans stands₁.symm
  have same₂ : w₂.store = w.store := reads.utcNow.2.trans same₁
  have stands₂ : w.clock = w₂.clock := stands₁.trans reads.passes
  have ran := lists.exec rfl
  simp only [StoreCall.exec, Prod.mk.injEq] at ran
  rw [same₂, ← stands₂] at ran
  rw [show found = .ok ids from ran.1.symm.trans listed] at ends
  obtain ⟨next, w₄, nexts, ends⟩ := ends
  replace ends : Ends .still (if ids.isEmpty = true then _ else _) w₄ (some (result, draining')) w' := ends
  rw [if_neg (by simpa using some_)] at ends
  have same₄ : w₄.store = w.store := (nexts.reads rfl).trans ran.2.symm
  have stands₄ : w.clock = w₄.clock := (stands₂.trans lists.passes).trans nexts.passes
  rcases Ends.bind ends with ⟨-, isNone⟩ | ⟨n, w₅, all, ends⟩
  · cases isNone
  refine ⟨w₄, w₅, n, next, same₄, stands₄.symm, all, ?_, ?_⟩
  all_goals
    split at ends
    · obtain ⟨r, w₆, waits, isResult, rfl⟩ := ends
      cases isResult
      first | exact waits.other (by rintro c ⟨⟩) | rfl
    · obtain ⟨r, w₆, waits, isResult, rfl⟩ := ends
      cases isResult
      first | exact waits.other (by rintro c ⟨⟩) | rfl

end Tick

/-! ## A tick while the job waits -/

section Waiting

variable {host : Host} {instanceId : String} {draining draining' : Bool} {w w' : World} {target : Job}
  {result : TickResult}

/-- The jobs ahead of the target. -/
def aheadIds (p : Place) (s : Store) : Finset String := ((s.jobs.rows.map (·.jobId)).filter (p.aheadAt s)).toFinset

/-- Those that will stay. -/
def stuckIds (p : Place) (host : Host) (instanceId : String) (s : Store) : Finset String :=
  ((s.jobs.rows.map (·.jobId)).filter (p.stuckAt host instanceId s)).toFinset

theorem card_aheadIds (p : Place) (s : Store) : (aheadIds p s).card = (s.jobs.rows.filter p.ahead).length := by
  rw [aheadIds, List.toFinset_card_of_nodup (s.jobs.distinct.filter _)]
  exact (congrArg List.length (Table.filter_keys s.jobs p.ahead)).trans (List.length_map _)

theorem card_stuckIds (p : Place) (s : Store) :
    (stuckIds p host instanceId s).card = (s.jobs.rows.filter (p.stuck host instanceId s)).length := by
  rw [stuckIds, List.toFinset_card_of_nodup (s.jobs.distinct.filter _)]
  exact (congrArg List.length (Table.filter_keys s.jobs (p.stuck host instanceId s))).trans (List.length_map _)

theorem Place.ahead_of_stuckAt {p : Place} {s : Store} {id : String} (stuck : p.stuckAt host instanceId s id = true) :
    p.aheadAt s id = true := by
  obtain ⟨row, stored, isStuck⟩ := (Option.any_eq_true _ _).mp stuck
  rw [Place.stuck, Bool.and_eq_true] at isStuck
  exact (Option.any_eq_true _ _).mpr ⟨row, stored, isStuck.1⟩

theorem mem_order {s : Store} {id : String} {p : Place} (isAhead : p.aheadAt s id = true) :
    id ∈ s.jobs.rows.map (·.jobId) := by
  obtain ⟨row, stored, -⟩ := (Option.any_eq_true _ _).mp isAhead
  rw [← show row.jobId = id from Table.key_of_lookup stored]
  exact List.mem_map_of_mem (Table.mem_of_lookup stored)

/-- Some job leaves, unless all of the batch are stuck. -/
theorem card_aheadIds_lt {p : Place} {s s' : Store} {ids : List String} (distinct : ids.Nodup)
    (allAhead : ∀ id ∈ ids, p.aheadAt s id = true)
    (order : s'.jobs.rows.map (·.jobId) = s.jobs.rows.map (·.jobId))
    (turns : ∀ j, p.aheadAt s' j = if j ∈ ids then p.stuckAt host instanceId s j else p.aheadAt s j)
    (few : (stuckIds p host instanceId s).card < ids.length) : (aheadIds p s').card < (aheadIds p s).card := by
  obtain ⟨id, inside, free⟩ : ∃ id ∈ ids, p.stuckAt host instanceId s id = false := by
    by_contra all
    push Not at all
    have isSubset : ids.toFinset ⊆ stuckIds p host instanceId s := by
      intro id inside
      rw [List.mem_toFinset] at inside
      rw [stuckIds, List.mem_toFinset, List.mem_filter]
      exact ⟨mem_order (allAhead id inside), by simpa using all id inside⟩
    have large := Finset.card_le_card isSubset
    rw [List.toFinset_card_of_nodup distinct] at large
    omega
  refine Finset.card_lt_card ⟨fun j isAhead => ?_, fun back => ?_⟩
  · rw [aheadIds, List.mem_toFinset, List.mem_filter, order, turns] at isAhead
    rw [aheadIds, List.mem_toFinset, List.mem_filter]
    refine ⟨isAhead.1, ?_⟩
    have either := isAhead.2
    split at either
    · exact Place.ahead_of_stuckAt either
    · exact either
  · have isAhead : id ∈ aheadIds p s := by
      rw [aheadIds, List.mem_toFinset, List.mem_filter]
      exact ⟨mem_order (allAhead id inside), allAhead id inside⟩
    have stays := back isAhead
    rw [aheadIds, List.mem_toFinset, List.mem_filter, turns, if_pos inside, free] at stays
    cases stays.2

theorem isDue_mono {clock dueUntil later : DateTime} {owned : List Nat} {row : Job} (le : dueUntil ≤ later)
    (due : Store.isDue clock owned dueUntil row = true) : Store.isDue clock owned later row = true := by
  simp only [Store.isDue, Store.scheduleDue, Bool.and_eq_true] at due ⊢
  obtain ⟨⟨⟨⟨kind, next⟩, once⟩, placed⟩, free⟩ := due
  obtain ⟨t, isNext, early⟩ := (Option.any_eq_true _ _).mp next
  rw [decide_eq_true_eq] at early
  exact ⟨⟨⟨⟨kind, (Option.any_eq_true _ _).mpr ⟨t, isNext, decide_eq_true (le_trans early le)⟩⟩, once⟩, placed⟩, free⟩

theorem activeRuns_eq (j : String) (w : World) :
    activeRuns j w = (runsFor j w).filter (fun run => run.status.isActive) := by
  rw [activeRuns, runsFor, List.filter_filter]
  exact List.filter_congr fun run _ => Bool.and_comm _ _

/-- A tick that looks only at the latest runs does not count more than there are. -/
theorem countedActive_le (j : String) (w : World) : countedActive w.store j ≤ (activeRuns j w).length := by
  have sorted : (Store.latestFirst (runsFor j w)).Perm (runsFor j w) := List.perm_insertionSort _ _
  have taken := ((List.take_sublist 10000 (Store.latestFirst (runsFor j w))).filter fun run => run.status.isActive).length_le
  rw [(sorted.filter _).length_eq, ← activeRuns_eq] at taken
  exact Int.ofNat_le.mpr taken

section Runnable

variable (runnable : Runnable instanceId draining target w)
include runnable

theorem Runnable.fires : target.nextRunAt = some (placeOf instanceId target w).fire := by
  have due := Store.scheduleDue_of_isDue runnable.due
  simp only [Store.scheduleDue, Bool.and_eq_true] at due
  obtain ⟨t, isNext, -⟩ := (Option.any_eq_true _ _).mp due.1.2
  rw [placeOf, isNext]
  rfl

theorem Runnable.notHeldBack : heldBack instanceId w.store w.clock target = false := by
  have below : ¬ target.concurrency ≤ countedActive w.store target.jobId := by
    have counted := countedActive_le target.jobId w
    have room := runnable.room
    omega
  have due := Store.scheduleDue_of_isDue runnable.due
  simp only [Store.scheduleDue, Bool.and_eq_true, Bool.or_eq_true] at due
  have untaken (once : target.scheduleKind = .runOnce) : onceTaken instanceId w.clock target = false := by
    have uncompleted : target.runOnceCompletedAt.isSome = false := by
      rcases due.2 with other | open_
      · rw [once] at other
        cases other
      · rw [Option.isNone_iff_eq_none.mp open_]
        rfl
    rw [onceTaken, uncompleted, Bool.false_or]
    exact runnable.unclaimed once
  rw [heldBack, decide_eq_false below, Bool.false_or]
  by_cases once : target.scheduleKind = .runOnce
  · rw [untaken once, Bool.and_false]
  · rw [decide_eq_false once, Bool.and_false, Bool.false_and]

/-- A job that gets no turn can run in the next tick as well, which looks at least as far ahead. -/
theorem Runnable.kept {w' : World} (stored : w'.job target.jobId = w.job target.jobId)
    (runs : runsFor target.jobId w' = runsFor target.jobId w) (clock : w'.clock = w.clock)
    (owned : w'.state.owned = w.state.owned) : Runnable instanceId true target w' := by
  constructor
  · rw [stored]
    exact runnable.stored
  · rw [clock, owned]
    refine isDue_mono ?_ runnable.due
    cases draining <;> simp [dueBy, milliseconds]
  · rw [activeRuns_eq, runs, ← activeRuns_eq]
    exact runnable.room
  · rw [clock]
    exact runnable.gate
  · rw [clock]
    exact runnable.unclaimed

end Runnable

theorem tickBatchLimit_pos (env : EnvVars) : 0 < tickBatchLimitFromEnv env := natFromEnv_pos _ (by decide)

/-- While the due list is full of other jobs, the target waits, and the next tick looks as far ahead again. -/
theorem waiting_tick (fits : tickBatchLimitFromEnv host.env < 4294967296)
    (enabled : (host.env.disableCoordinator || host.env.interactive) = false)
    (runnable : Runnable instanceId draining target w)
    (full : tickBatchLimitFromEnv host.env ≤ (aheadIds (placeOf instanceId target w) w.store).card)
    (ends : Ends .still (runOneTick host instanceId draining) w (some (result, draining')) w') :
    Runnable instanceId draining' target w' ∧ placeOf instanceId target w' = placeOf instanceId target w ∧
      runsFor target.jobId w' = runsFor target.jobId w ∧
      stuckIds (placeOf instanceId target w) host instanceId w'.store =
        stuckIds (placeOf instanceId target w) host instanceId w.store ∧
      ((stuckIds (placeOf instanceId target w) host instanceId w.store).card < tickBatchLimitFromEnv host.env →
        (aheadIds (placeOf instanceId target w) w'.store).card < (aheadIds (placeOf instanceId target w) w.store).card) := by
  obtain ⟨notAhead, owns, ids, listed, -, isFull⟩ := Place.dueList (p := placeOf instanceId target w) rfl rfl runnable.fires
    runnable.stored runnable.due (tickBatchLimit_pos host.env)
  rw [card_aheadIds] at full
  obtain ⟨length, allAhead⟩ := isFull full
  have some_ : ids ≠ [] := by
    rintro rfl
    exact (tickBatchLimit_pos host.env).ne length
  obtain ⟨v, v', n, next, same, stands, all, same', isDraining⟩ := runOneTick_batch enabled ends owns listed some_
  have distinct := Store.findDue_nodup listed
  have touched := enqueueAll_touched all
  rw [← same] at allAhead
  have turns := enqueueAll_turns (p := placeOf instanceId target w) stands all distinct allAhead
  rw [same, ← same'] at touched
  simp only [same, ← same'] at turns
  have outside : target.jobId ∉ ids := by
    intro inside
    have isAhead := allAhead _ inside
    rw [same, notAhead] at isAhead
    cases isAhead
  have drains : draining' = true := by
    have enough : decide (min ids.length 4294967295 ≥ tickBatchLimitFromEnv host.env / 2) = true := by
      rw [decide_eq_true_eq, length]
      omega
    rw [isDraining]
    show (decide _ || _) = true
    rw [enough, Bool.true_or]
  obtain ⟨clock, owned⟩ := ends.still
  have isPlace : placeOf instanceId target w' = placeOf instanceId target w := by
    simp only [placeOf, clock, owned, touched.order]
  have runs : runsFor target.jobId w' = runsFor target.jobId w := touched.runs _ outside
  refine ⟨?_, isPlace, runs, ?_, ?_⟩
  · rw [drains]
    exact runnable.kept (touched.rows _ outside) runs clock owned
  · rw [stuckIds, stuckIds, touched.order]
    congr 1
    exact List.filter_congr fun j _ => (turns j).2
  · intro few
    rw [same] at allAhead
    exact card_aheadIds_lt distinct allAhead touched.order (fun j => (turns j).1) (by rwa [length])

/-- When fewer jobs than the limit are ahead, the target gets its run. -/
theorem serving_tick (enabled : (host.env.disableCoordinator || host.env.interactive) = false)
    (runnable : Runnable instanceId draining target w)
    (room : (aheadIds (placeOf instanceId target w) w.store).card < tickBatchLimitFromEnv host.env)
    (ends : Ends .still (runOneTick host instanceId draining) w (some (result, draining')) w') :
    GotRun target.jobId w w' := by
  obtain ⟨-, owns, ids, listed, isListed, -⟩ := Place.dueList (p := placeOf instanceId target w) rfl rfl runnable.fires
    runnable.stored runnable.due (tickBatchLimit_pos host.env)
  rw [card_aheadIds] at room
  have inside := isListed room
  obtain ⟨v, v', n, next, same, stands, all, same', -⟩ :=
    runOneTick_batch enabled ends owns listed (List.ne_nil_of_mem inside)
  have served := enqueueAll_serves all inside ((World.job_congr same _).trans runnable.stored)
    (by rw [stands]; exact tickFree_of_isDue runnable.due) (by rw [stands, same]; exact runnable.notHeldBack)
    (by rw [stands]; exact runnable.gate)
  obtain ⟨run, isJob, new, created⟩ := served
  refine ⟨run, isJob, ?_, ?_⟩
  · rw [← World.run_congr same]
    exact new
  · rw [World.run_congr same']
    exact created

/-- A stored run stays stored. -/
theorem runOneTick_run {id : String} {run : Run} {out : Option (TickResult × Bool)} (stored : w.run id = some run)
    (ends : Ends .still (runOneTick host instanceId draining) w out w') : w'.run id = some run := by
  refine runOneTick_keeps (I := fun s => s.runs.lookup id = some run) (fun _ => rfl)
    (fun _ _ same => le_of_eq same) ?_ ends (le_refl w.clock) stored
  intro v v' jobId _ isStored enqueued
  exact enqueued.touched.kept id run isStored

theorem Ticks.run {n : Nat} {id : String} {run : Run} (ticks : Ticks host instanceId n draining w draining' w')
    (stored : w.run id = some run) : w'.run id = some run := by
  induction ticks with
  | none => exact stored
  | tick first _ ih => exact ih (runOneTick_run stored first)

/-- Enough ticks serve a job with few stuck jobs ahead. -/
theorem Ticks.serve {n : Nat} (fits : tickBatchLimitFromEnv host.env < 4294967296)
    (enabled : (host.env.disableCoordinator || host.env.interactive) = false)
    (ticks : Ticks host instanceId n draining w draining' w') (runnable : Runnable instanceId draining target w)
    (few : (stuckIds (placeOf instanceId target w) host instanceId w.store).card < tickBatchLimitFromEnv host.env)
    (enough : (aheadIds (placeOf instanceId target w) w.store).card < n) : GotRun target.jobId w w' := by
  induction ticks with
  | none => omega
  | @tick n draining draining₁ draining' w w₁ w' result first rest ih =>
    by_cases room : (aheadIds (placeOf instanceId target w) w.store).card < tickBatchLimitFromEnv host.env
    · obtain ⟨run, isJob, new, created⟩ := serving_tick enabled runnable room first
      exact ⟨run, isJob, new, rest.run created⟩
    · rw [not_lt] at room
      obtain ⟨runnable₁, isPlace, runs, stuck, fewer⟩ := waiting_tick fits enabled runnable room first
      rw [isPlace, stuck] at ih
      have enough₁ := fewer few
      obtain ⟨run, isJob, new, created⟩ := ih runnable₁ few (by omega)
      refine ⟨run, isJob, ?_, created⟩
      by_contra old
      obtain ⟨before, isStored⟩ := Option.ne_none_iff_exists'.mp old
      have kept := runOneTick_run isStored first
      rw [new] at kept
      cases kept

/-- No number of ticks serves a job with a batch of stuck jobs ahead. -/
theorem Ticks.starve {n : Nat} (fits : tickBatchLimitFromEnv host.env < 4294967296)
    (enabled : (host.env.disableCoordinator || host.env.interactive) = false)
    (ticks : Ticks host instanceId n draining w draining' w') (runnable : Runnable instanceId draining target w)
    (many : tickBatchLimitFromEnv host.env ≤ (stuckIds (placeOf instanceId target w) host instanceId w.store).card) :
    runsFor target.jobId w' = runsFor target.jobId w := by
  induction ticks with
  | none => rfl
  | @tick n draining draining₁ draining' w w₁ w' result first rest ih =>
    have full : tickBatchLimitFromEnv host.env ≤ (aheadIds (placeOf instanceId target w) w.store).card := by
      refine le_trans many (Finset.card_le_card fun j isStuck => ?_)
      rw [stuckIds, List.mem_toFinset, List.mem_filter] at isStuck
      rw [aheadIds, List.mem_toFinset, List.mem_filter]
      exact ⟨isStuck.1, Place.ahead_of_stuckAt isStuck.2⟩
    obtain ⟨runnable₁, isPlace, runs, stuck, -⟩ := waiting_tick fits enabled runnable full first
    rw [isPlace, stuck] at ih
    exact (ih runnable₁ many).trans runs

theorem Ticks.idle {n : Nat} (disabled : (host.env.disableCoordinator || host.env.interactive) = true)
    (ticks : Ticks host instanceId n draining w draining' w') : w'.store = w.store := by
  induction ticks with
  | none => rfl
  | tick first _ ih => exact ih.trans (runOneTick_disabled disabled first)

/-- The target is due, and not ahead of itself. -/
theorem Runnable.card_aheadIds (runnable : Runnable instanceId draining target w) :
    (aheadIds (placeOf instanceId target w) w.store).card < (dueJobs instanceId draining w).length := by
  obtain ⟨notAhead, -⟩ := Place.dueList (p := placeOf instanceId target w) rfl rfl runnable.fires
    runnable.stored runnable.due Nat.one_pos
  rw [Place.aheadAt, show w.store.jobs.lookup target.jobId = some target from runnable.stored, Option.any_some] at notAhead
  have early : (placeOf instanceId target w).fire ≤ dueBy w.clock draining := by
    have due := Store.scheduleDue_of_isDue runnable.due
    simp only [Store.scheduleDue, runnable.fires, Option.any_some, Bool.and_eq_true, decide_eq_true_eq] at due
    exact due.1.2
  have isAhead : w.store.jobs.rows.filter (placeOf instanceId target w).ahead =
      (dueJobs instanceId draining w).filter (placeOf instanceId target w).ahead := by
    rw [dueJobs, List.filter_filter]
    refine List.filter_congr fun row _ => ?_
    cases ahead : (placeOf instanceId target w).ahead row with
    | false => rw [Bool.false_and]
    | true => exact (isDue_mono early (Place.due_of_ahead ahead)).symm
  rw [Chronon.card_aheadIds, isAhead, List.length_filter_lt_length_iff_exists]
  refine ⟨target, ?_, by rw [notAhead]; exact Bool.false_ne_true⟩
  rw [dueJobs, List.mem_filter]
  exact ⟨Table.mem_of_lookup runnable.stored, runnable.due⟩

/-- A job whose runs are the same has got none. -/
theorem not_gotRun {j : String} (runs : runsFor j w' = runsFor j w) : ¬ GotRun j w w' := by
  rintro ⟨run, isJob, new, created⟩
  have inside : run ∈ runsFor j w' := by
    rw [runsFor, List.mem_filter, decide_eq_true_eq]
    exact ⟨Table.mem_of_lookup created, isJob⟩
  rw [runs, runsFor, List.mem_filter] at inside
  have stored : w.run run.runId = some run := Table.lookup_of_mem inside.1
  rw [new] at stored
  cases stored

end Waiting

/-- **No due job is starved by blocked ones**, exactly while fewer of them than the batch limit stay ahead of it (and
the coordinator is not switched off). The limit is parsed as a `u32`. -/
theorem not_starved_iff {host : Host} {instanceId : String} {draining draining' : Bool} {w w' : World} {target : Job}
    (fits : tickBatchLimitFromEnv host.env < 4294967296) (runnable : Runnable instanceId draining target w)
    (ticks : Ticks host instanceId (dueJobs instanceId draining w).length draining w draining' w') :
    GotRun target.jobId w w' ↔ (host.env.disableCoordinator || host.env.interactive) = false ∧
      (stuckAhead host instanceId target w).length < tickBatchLimitFromEnv host.env := by
  rw [stuckAhead, ← card_stuckIds]
  cases enabled : host.env.disableCoordinator || host.env.interactive with
  | true =>
    have same := ticks.idle enabled
    refine iff_of_false (not_gotRun ?_) (by rintro ⟨⟨⟩, -⟩)
    rw [runsFor, runsFor, same]
  | false =>
    rw [and_iff_right rfl]
    constructor
    · intro served
      by_contra many
      exact not_gotRun (ticks.starve fits enabled runnable (not_lt.mp many)) served
    · intro few
      exact ticks.serve fits enabled runnable few runnable.card_aheadIds

/-- Play consecutive ticks, with the identifiers that each draws. -/
def playTicks (host : Host) (instanceId : String) : List (List Oracle) → Bool → World → Option (Bool × World)
  | [], draining, w => some (draining, w)
  | oracles :: rest, draining, w =>
    match playAlone (fun _ => none) (runOneTick host instanceId draining) w oracles with
    | some (some (_, draining₁), w₁) => playTicks host instanceId rest draining₁ w₁
    | _ => none

theorem Ticks.of_play {host : Host} {instanceId : String} {rounds : List (List Oracle)} {draining draining' : Bool}
    {w w' : World} (played : playTicks host instanceId rounds draining w = some (draining', w')) :
    Ticks host instanceId rounds.length draining w draining' w' := by
  induction rounds generalizing draining w with
  | nil =>
    cases played
    exact .none
  | cons oracles rest ih =>
    rw [playTicks] at played
    split at played
    · rename_i plays
      exact .tick (Ends.of_play (fun _ => rfl) plays) (ih played)
    · cases played

/-- A host that takes one job in each tick. -/
def singleHost : Host := { Host.simple with env := { EnvVars.unset with tickBatchLimit := some 1 } }

/-- A job that fires before the minutely one and allows `concurrency` runs. -/
def earlierJob (concurrency : Int) : Job :=
  { minutelyJob with jobId := "b", jobName := "backup", concurrency, nextRunAt := some (seconds 30) }

/-- Both jobs are due, and the earlier one has a run. -/
def twoDue (concurrency : Int) : World :=
  .fresh { State.single minutelyJob (seconds 60) with
    store := (((State.single minutelyJob (seconds 60)).store.setJob (earlierJob concurrency)).setRun
      (Run.forJob "r" "b" "noop" 0)) }

theorem exists_ticks (w : World) (rounds : List (List Oracle)) (test : World → Bool)
    (played : (playTicks singleHost "A" rounds false w).any (fun out => test out.2) = true) :
    ∃ draining w', Ticks singleHost "A" rounds.length false w draining w' ∧ test w' = true := by
  obtain ⟨⟨draining, w'⟩, plays, passes⟩ := (Option.any_eq_true _ _).mp played
  exact ⟨draining, w', .of_play plays, passes⟩

/-- The earlier job has room for another run: it fires first, and the minutely job in the second tick. -/
theorem not_starved_second : ∃ draining w', Ticks singleHost "A" 2 false (twoDue 2) draining w' ∧
    GotRun "j" (twoDue 2) w' := by
  obtain ⟨draining, w', ticks, -⟩ := exists_ticks (twoDue 2) [[.uuid "c1", .uuid "r1"], [.uuid "c2", .uuid "r2"]]
    (fun _ => true) (by decide +kernel)
  have runnable : Runnable "A" false minutelyJob (twoDue 2) := ⟨rfl, by decide, by decide, by decide, by rintro ⟨⟩⟩
  refine ⟨draining, w', ticks, (not_starved_iff (by decide) runnable ticks).mpr ⟨by decide, ?_⟩⟩
  decide +kernel

/-- The earlier job is at its limit: it is taken first in every tick. -/
theorem starved_by_blocked :
    ∃ draining w', Ticks singleHost "A" (dueJobs "A" false (twoDue 1)).length false (twoDue 1) draining w' ∧
      Runnable "A" false minutelyJob (twoDue 1) ∧ ¬ GotRun "j" (twoDue 1) w' := by
  obtain ⟨draining, w', ticks, unrun⟩ := exists_ticks (twoDue 1) [[.uuid "c1", .uuid "r1"], [.uuid "c2", .uuid "r2"]]
    (fun w' => (runsFor "j" w').isEmpty) (by decide +kernel)
  refine ⟨draining, w', ticks, ⟨rfl, by decide, by decide, by decide, by rintro ⟨⟩⟩, not_gotRun ?_⟩
  rw [List.isEmpty_iff.mp unrun]
  rfl

end Chronon
