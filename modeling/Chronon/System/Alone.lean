import Chronon.Concurrent.Sequential
import Chronon.System.Machine
import Mathlib.Data.Fintype.EquivFin

/-!
# A task that runs alone

One task of the system against a store that nobody else touches. Store calls can
be refused: they answer an error and change nothing. The clock moves between two
calls, so the reading a task takes first is the time it was started at.
-/

namespace Chronon
set_option autoImplicit false

open Concurrent

/-- What a task that runs alone still depends on: the store calls that are refused, and with which error, and
how the clock may move on after a call. -/
structure Surroundings where
  refuses : StoreCall → Option ChrononError
  passes : DateTime → DateTime → Prop

namespace Surroundings

/-- The calls that `refuses` names fail, and time goes on. -/
def failing (refuses : StoreCall → Option ChrononError) : Surroundings := ⟨refuses, (· ≤ ·)⟩

/-- No call fails, and time goes on. -/
def calm : Surroundings := failing fun _ => none

/-- No call fails, and time stands still. -/
def still : Surroundings := ⟨fun _ => none, Eq⟩

end Surroundings

variable {around : Surroundings} {w w' w'' : World} {α β : Type}

/-- What a call answers, with the state after it. -/
def Answered (around : Surroundings) (w : World) : (op : Op) → Ans op → State → Prop
  | .store c, r, state =>
    match around.refuses c with
    | some e => r = .error e ∧ state = w.state
    | none => c.exec w.clock w.store = (r, state.store) ∧ state = { w.state with store := state.store }
  | op, r, state => ∃ oracle, answer oracle w op = some (r, state)

/-- One call of the task: it is answered and recorded, and time passes. -/
def Alone (around : Surroundings) (w : World) (op : Op) (r : Ans op) (w' : World) : Prop :=
  ∃ state clock, Answered around w op r state ∧ around.passes w.clock clock ∧
    w' = ⟨{ state with clock }, ⟨0, w.state, op, r⟩ :: w.log⟩

/-- The task runs to its end or, without a result, to a panic. -/
def Ends (around : Surroundings) : Task α → World → Option α → World → Prop
  | .ret a, w, out, w' => out = some a ∧ w' = w
  | .call .panic _, w, out, w' => out = none ∧ w' = w
  | .call op k, w, out, w' => ∃ r t, Alone around w op r t ∧ Ends around (k r) t out w'

/-! ## What one call does -/

/-- A store call is refused, or it runs on the store at the current time. -/
theorem Alone.store {c : StoreCall} {r : Result c.Ret} (calls : Alone around w (.store c) r w') :
    (∃ e, around.refuses c = some e ∧ r = .error e ∧ w'.store = w.store) ∨
      (around.refuses c = none ∧ c.exec w.clock w.store = (r, w'.store)) := by
  obtain ⟨state, clock, answered, -, rfl⟩ := calls
  simp only [Answered] at answered
  split at answered
  · rename_i e refused
    obtain ⟨rfl, rfl⟩ := answered
    exact .inl ⟨e, refused, rfl, rfl⟩
  · rename_i accepted
    exact .inr ⟨accepted, answered.1⟩

/-- Where no call fails, it runs. -/
theorem Alone.exec {c : StoreCall} {r : Result c.Ret} (calls : Alone around w (.store c) r w')
    (accepted : around.refuses c = none) : c.exec w.clock w.store = (r, w'.store) := by
  rcases calls.store with ⟨e, refused, -⟩ | ⟨-, ran⟩
  · rw [accepted] at refused
    cases refused
  · exact ran

/-- Every other call leaves the store alone. -/
theorem Alone.other {op : Op} {r : Ans op} (calls : Alone around w op r w') (other : ∀ c, op ≠ .store c) :
    w'.store = w.store := by
  obtain ⟨state, clock, answered, -, rfl⟩ := calls
  cases op with
  | store c => exact absurd rfl (other c)
  | _ =>
    obtain ⟨oracle, answered⟩ := answered
    rw [answer_other answered other]
    rfl

theorem Alone.utcNow {now : DateTime} (calls : Alone around w .utcNow now w') : now = w.clock ∧ w'.store = w.store := by
  refine ⟨?_, calls.other (by rintro c ⟨⟩)⟩
  obtain ⟨state, clock, ⟨oracle, answered⟩, -⟩ := calls
  cases answered
  rfl

theorem Alone.ownedPartitions {instanceId : String} {owned : List Nat}
    (calls : Alone around w (.ownedPartitions instanceId) owned w') : owned = w.state.owned instanceId := by
  obtain ⟨state, clock, ⟨oracle, answered⟩, -⟩ := calls
  cases answered
  rfl

/-- A drawn identifier is new. -/
theorem Alone.newUuid {id : String} (calls : Alone around w .newUuid id w') :
    w.run id = none ∧ w.job id = none ∧ w'.store = w.store := by
  have same := calls.other (by rintro c ⟨⟩)
  obtain ⟨state, clock, ⟨oracle, answered⟩, -⟩ := calls
  obtain ⟨noRun, noJob, -⟩ := answer_newUuid answered
  exact ⟨noRun, noJob, same⟩

/-- Partitions are not reassigned. -/
theorem Alone.owned {op : Op} {r : Ans op} (calls : Alone around w op r w') : w'.state.owned = w.state.owned := by
  obtain ⟨state, clock, answered, -, rfl⟩ := calls
  cases op with
  | store c =>
    simp only [Answered] at answered
    split at answered
    · rw [answered.2]
    · rw [answered.2]
  | _ =>
    obtain ⟨oracle, answered⟩ := answered
    rw [answer_other answered (by rintro c ⟨⟩)]

/-- A store call that reads. -/
theorem Alone.reads {c : StoreCall} {r : Result c.Ret} (calls : Alone around w (.store c) r w')
    (reading : (c.exec w.clock w.store).2 = w.store) : w'.store = w.store := by
  rcases calls.store with ⟨-, -, -, same⟩ | ⟨-, ran⟩
  · exact same
  · rw [ran] at reading
    exact reading

theorem Alone.passes {op : Op} {r : Ans op} (calls : Alone around w op r w') : around.passes w.clock w'.clock := by
  obtain ⟨state, clock, -, passes, rfl⟩ := calls
  exact passes

theorem Alone.log {op : Op} {r : Ans op} (calls : Alone around w op r w') : w'.log = ⟨0, w.state, op, r⟩ :: w.log := by
  obtain ⟨state, clock, -, -, rfl⟩ := calls
  rfl

section Rows

variable {id : String}

theorem Alone.getJob {found : Result (Option Job)} (calls : Alone around w (.store (.getJob id)) found w')
    (accepted : around.refuses (.getJob id) = none) : found = .ok (w.job id) ∧ w'.store = w.store := by
  have ran := calls.exec accepted
  simp only [StoreCall.exec, Store.getJob, Prod.mk.injEq] at ran
  exact ⟨ran.1.symm, ran.2.symm⟩

theorem Alone.getRun {found : Result (Option Run)} (calls : Alone around w (.store (.getRun id)) found w')
    (accepted : around.refuses (.getRun id) = none) : found = .ok (w.run id) ∧ w'.store = w.store := by
  have ran := calls.exec accepted
  simp only [StoreCall.exec, Store.getRun, Prod.mk.injEq] at ran
  exact ⟨ran.1.symm, ran.2.symm⟩

/-- A stored run is replaced. -/
theorem Alone.updateRun {run old : Run} {r : Result Unit} (calls : Alone around w (.store (.updateRun run)) r w')
    (accepted : around.refuses (.updateRun run) = none) (stored : w.run run.runId = some old) :
    r = .ok () ∧ w'.store = w.store.setRun run := by
  rcases Store.updateRun_cases (calls.exec accepted) with ⟨missing, -⟩ | ⟨-, -, isOk, after⟩
  · rw [World.run, missing] at stored
    cases stored
  · exact ⟨isOk, after⟩

theorem Alone.createRun {run : Run} {r : Result Unit} (calls : Alone around w (.store (.createRun run)) r w')
    (accepted : around.refuses (.createRun run) = none) : r = .ok () ∧ w'.store = w.store.setRun run := by
  have ran := calls.exec accepted
  simp only [StoreCall.exec, Store.createRun, Prod.mk.injEq] at ran
  exact ⟨ran.1.symm, ran.2.symm⟩

theorem World.run_setRun {run : Run} (after : w'.store = w.store.setRun run) (id : String) :
    w'.run id = if run.runId = id then some run else w.run id := by
  rw [World.run, after]
  exact Store.lookup_setRun _ _ _

theorem World.job_congr (same : w'.store = w.store) (id : String) : w'.job id = w.job id := by
  rw [World.job, same]
  rfl

theorem World.run_congr (same : w'.store = w.store) (id : String) : w'.run id = w.run id := by
  rw [World.run, same]
  rfl

end Rows

/-! ## Sequencing -/

/-- The first part panics, or the second one starts where it ended. -/
theorem Ends.bind {m : Task α} {f : α → Task β} {out : Option β} (ends : Ends around (m >>= f) w out w'') :
    (Ends around m w none w'' ∧ out = none) ∨ ∃ a w', Ends around m w (some a) w' ∧ Ends around (f a) w' out w'' := by
  induction m generalizing w with
  | ret a => exact .inr ⟨a, w, ⟨rfl, rfl⟩, ends⟩
  | call op k ih =>
    cases op with
    | panic =>
      obtain ⟨isNone, rfl⟩ := ends
      exact .inl ⟨⟨rfl, rfl⟩, isNone⟩
    | _ =>
      obtain ⟨r, t, calls, rest⟩ := ends
      rcases ih r rest with ⟨panics, isNone⟩ | ⟨a, w', first, rest⟩
      · exact .inl ⟨⟨r, t, calls, panics⟩, isNone⟩
      · exact .inr ⟨a, w', ⟨r, t, calls, first⟩, rest⟩

/-- What every call keeps, the task keeps. -/
theorem Ends.keeps {I : World → Prop} (step : ∀ {v v' : World} {op : Op} {r : Ans op}, Alone around v op r v' → I v → I v')
    {m : Task α} {out : Option α} (ends : Ends around m w out w') (holds : I w) : I w' := by
  induction m generalizing w with
  | ret a =>
    obtain ⟨-, rfl⟩ := ends
    exact holds
  | call op k ih =>
    cases op with
    | panic =>
      obtain ⟨-, rfl⟩ := ends
      exact holds
    | _ =>
      obtain ⟨r, t, calls, rest⟩ := ends
      exact ih r rest (step calls holds)

/-- Time does not run backwards. -/
theorem Ends.later (forward : ∀ s t, around.passes s t → s ≤ t) {m : Task α} {out : Option α}
    (ends : Ends around m w out w') : w.clock ≤ w'.clock :=
  ends.keeps (I := fun v => w.clock ≤ v.clock) (fun calls early => le_trans early (forward _ _ calls.passes)) (le_refl _)

/-- What can happen where time stands still can happen. -/
theorem Ends.calm {m : Task α} {out : Option α} (ends : Ends .still m w out w') : Ends .calm m w out w' := by
  induction m generalizing w with
  | ret a => exact ends
  | call op k ih =>
    cases op with
    | panic => exact ends
    | _ =>
      obtain ⟨r, t, ⟨state, clock, answered, stands, after⟩, rest⟩ := ends
      exact ⟨r, t, ⟨state, clock, answered, le_of_eq stands, after⟩, ih r rest⟩

/-- Where time stands still, only the store changes. -/
theorem Ends.still {m : Task α} {out : Option α} (ends : Ends .still m w out w') :
    w'.clock = w.clock ∧ w'.state.owned = w.state.owned := by
  refine ends.keeps (I := fun v => v.clock = w.clock ∧ v.state.owned = w.state.owned) ?_ ⟨rfl, rfl⟩
  intro v v' op r calls same
  have stands : v.clock = v'.clock := calls.passes
  exact ⟨stands.symm.trans same.1, calls.owned.trans same.2⟩

/-! ## What a task has done -/

/-- The entries between two worlds, oldest first. -/
def World.entriesSince (w w' : World) : List LogEntry := (w'.log.take (w'.log.length - w.log.length)).reverse

theorem World.entriesSince_eq {more : List LogEntry} (isLog : w'.log = more ++ w.log) :
    w.entriesSince w' = more.reverse := by
  rw [World.entriesSince, isLog, List.length_append, Nat.add_sub_cancel, List.take_left]

/-- A task adds to the log. -/
theorem Ends.log {m : Task α} {out : Option α} (ends : Ends around m w out w') : ∃ more, w'.log = more ++ w.log := by
  refine ends.keeps (I := fun v => ∃ more, v.log = more ++ w.log) ?_ ⟨[], rfl⟩
  rintro v v' op r calls ⟨more, isLog⟩
  exact ⟨⟨0, v.state, op, r⟩ :: more, by rw [calls.log, isLog, List.cons_append]⟩

@[simp] theorem World.entriesSince_self (w : World) : w.entriesSince w = [] := @World.entriesSince_eq w w [] rfl

/-- The entries of a call, and of the rest. -/
theorem Alone.entries {op : Op} {r : Ans op} {m : Task α} {out : Option α} (calls : Alone around w op r w')
    (rest : Ends around m w' out w'') : w.entriesSince w'' = ⟨0, w.state, op, r⟩ :: w'.entriesSince w'' := by
  obtain ⟨more, isLog⟩ := rest.log
  have whole : w''.log = (more ++ [⟨0, w.state, op, r⟩]) ++ w.log := by
    rw [isLog, calls.log, List.append_assoc]
    rfl
  rw [World.entriesSince_eq whole, World.entriesSince_eq isLog, List.reverse_append]
  rfl

/-- The entries of two parts. -/
theorem Ends.entries {m : Task α} {m' : Task β} {out : Option α} {out' : Option β} (first : Ends around m w out w')
    (rest : Ends around m' w' out' w'') : w.entriesSince w'' = w.entriesSince w' ++ w'.entriesSince w'' := by
  obtain ⟨more, isLog⟩ := first.log
  obtain ⟨more', isLog'⟩ := rest.log
  have whole : w''.log = (more' ++ more) ++ w.log := by rw [isLog', isLog, List.append_assoc]
  rw [World.entriesSince_eq whole, World.entriesSince_eq isLog, World.entriesSince_eq isLog', List.reverse_append]

/-- The time an entry has read from the clock. -/
def clockReading (e : LogEntry) : Option DateTime :=
  match e with
  | ⟨_, _, .utcNow, now⟩ => some now
  | _ => none

/-- The identifier an entry has drawn. -/
def drawn (e : LogEntry) : Option String :=
  match e with
  | ⟨_, _, .newUuid, id⟩ => some id
  | _ => none

/-- The identifiers drawn between two worlds, oldest first. -/
def World.drawnSince (w w' : World) : List String :=
  (w'.log.take (w'.log.length - w.log.length)).reverse.filterMap drawn

/-- The first identifier drawn is drawn in the first calls that draw one. -/
theorem head?_drawnSince {m : Task α} {out : Option α} {recent : List LogEntry} {id : String}
    (isLog : w'.log = recent ++ w.log) (first : (recent.reverse.filterMap drawn).head? = some id)
    (ends : Ends around m w' out w'') : (w.drawnSince w'').head? = some id := by
  obtain ⟨more, isMore⟩ := ends.log
  have whole : w''.log = (more ++ recent) ++ w.log := by rw [isMore, isLog, List.append_assoc]
  have isDrawn : w.drawnSince w'' = (w.entriesSince w'').filterMap drawn := rfl
  rw [isDrawn, World.entriesSince_eq whole, List.reverse_append, List.filterMap_append, List.head?_append, first]
  rfl

/-! ## Every task has an end -/

/-- There is always an identifier left to draw. -/
theorem World.exists_unused (w : World) : ∃ id, w.unused id = true := by
  let taken := w.store.runs.rows.map (·.runId) ++ w.store.jobs.rows.map (·.jobId) ++ w.log.filterMap drawn
  obtain ⟨id, outside⟩ := Infinite.exists_notMem_finset taken.toFinset
  rw [List.mem_toFinset, List.mem_append, List.mem_append, not_or, not_or] at outside
  obtain ⟨⟨noRun, noJob⟩, undrawn⟩ := outside
  refine ⟨id, ?_⟩
  simp only [World.unused, Bool.and_eq_true, Option.isNone_iff_eq_none, Bool.not_eq_true', List.any_eq_false]
  refine ⟨⟨Collections.Table.lookup_eq_none.mpr ?_, Collections.Table.lookup_eq_none.mpr ?_⟩, fun e inside draws => ?_⟩
  · rintro run inside rfl
    exact noRun (List.mem_map_of_mem inside)
  · rintro job inside rfl
    exact noJob (List.mem_map_of_mem inside)
  · refine undrawn (List.mem_filterMap.mpr ⟨e, inside, ?_⟩)
    unfold Chronon.draws at draws
    split at draws
    · rw [beq_iff_eq] at draws
      exact congrArg some draws
    · cases draws

/-- Every call but `panic` is answered. -/
theorem Alone.exists (steady : ∀ t, around.passes t t) (w : World) (op : Op) (returns : op ≠ .panic) :
    ∃ r w', Alone around w op r w' := by
  suffices answers : ∃ r state, Answered around w op r state by
    obtain ⟨r, state, answered⟩ := answers
    exact ⟨r, _, state, w.clock, answered, steady _, rfl⟩
  cases op with
  | store c =>
    simp only [Answered]
    cases around.refuses c with
    | some e => exact ⟨_, _, rfl, rfl⟩
    | none => exact ⟨_, { w.state with store := (c.exec w.clock w.store).2 }, rfl, rfl⟩
  | utcNow => exact ⟨_, _, .quiet, rfl⟩
  | newUuid =>
    obtain ⟨id, unused⟩ := w.exists_unused
    exact ⟨id, w.state, .uuid id, if_pos unused⟩
  | sleep duration => exact ⟨_, _, .quiet, rfl⟩
  | yieldNow => exact ⟨_, _, .quiet, rfl⟩
  | ownedPartitions instanceId => exact ⟨_, _, .quiet, rfl⟩
  | executeScript timeoutMs request => exact ⟨_, _, .outcome (some .panicked), rfl⟩
  | panic => exact absurd rfl returns

theorem Ends.exists (steady : ∀ t, around.passes t t) (m : Task α) (w : World) : ∃ out w', Ends around m w out w' := by
  induction m generalizing w with
  | ret a => exact ⟨_, _, rfl, rfl⟩
  | call op k ih =>
    by_cases panics : op = .panic
    · subst panics
      exact ⟨_, _, rfl, rfl⟩
    · obtain ⟨r, t, calls⟩ := Alone.exists steady w op panics
      obtain ⟨out, w', rest⟩ := ih r t
      refine ⟨out, w', ?_⟩
      cases op with
      | panic => exact absurd rfl panics
      | _ => exact ⟨r, t, calls, rest⟩

/-- The world after a call that took no time. -/
def World.record (w : World) (op : Op) (r : Ans op) (store : Store) : World :=
  ⟨{ w.state with store }, ⟨0, w.state, op, r⟩ :: w.log⟩

section Steady

variable (steady : ∀ t, around.passes t t)
include steady

theorem Alone.of_exec {c : StoreCall} {r : Result c.Ret} {store : Store} (accepted : around.refuses c = none)
    (ran : c.exec w.clock w.store = (r, store)) : Alone around w (.store c) r (w.record (.store c) r store) := by
  refine ⟨{ w.state with store }, w.clock, ?_, steady _, rfl⟩
  simp only [Answered, accepted]
  exact ⟨ran, trivial⟩

theorem Alone.of_utcNow : Alone around w .utcNow w.clock (w.record .utcNow w.clock w.store) :=
  ⟨w.state, w.clock, ⟨.quiet, rfl⟩, steady _, rfl⟩

theorem Alone.of_uuid {id : String} (unused : w.unused id = true) :
    Alone around w .newUuid id (w.record .newUuid id w.store) :=
  ⟨w.state, w.clock, ⟨.uuid id, if_pos unused⟩, steady _, rfl⟩

end Steady

/-! ## The retry of a failed run -/

/-- Retries are not dated back. -/
theorem le_of_retryTime {policy : RetryPolicy} {failedAttempt : Int} {now scheduledFor : DateTime}
    (dated : retryTime policy failedAttempt now = some scheduledFor) : now ≤ scheduledFor := by
  rw [addDuration_eq_some dated]
  exact Int.le_add_of_nonneg_right (Int.mul_nonneg (le_max_right _ _) (by decide))

/-- Without a base delay there is none. -/
theorem retryTime_undelayed {policy : RetryPolicy} (base : policy.baseDelayMs = 0) (failedAttempt : Int) (now : DateTime) :
    retryTime policy failedAttempt now = addDuration now 0 := by
  have delay : policy.delayMsAfter failedAttempt = 0 := by
    simp [RetryPolicy.delayMsAfter, base]
  rw [retryTime, delay]
  rfl

/-- What the retry decision comes to: no retry, a panic over its time, or a `create_run`. -/
theorem retryFailed_cases {run : Run} {job : Job} {out : Option Unit} (ends : Ends around (retryFailed run job) w out w') :
    (job.retryPolicy.shouldRetry run.attempt = false ∧ out = some () ∧ w' = w) ∨
    (job.retryPolicy.shouldRetry run.attempt = true ∧ ∃ now, Alone around w .utcNow now w' ∧
      retryTime job.retryPolicy run.attempt now = none ∧ out = none) ∨
    (job.retryPolicy.shouldRetry run.attempt = true ∧ ∃ now w₁ scheduledFor runId w₂ r,
      Alone around w .utcNow now w₁ ∧ retryTime job.retryPolicy run.attempt now = some scheduledFor ∧
      Alone around w₁ .newUuid runId w₂ ∧
      Alone around w₂ (.store (.createRun (retryRun run runId scheduledFor))) r w' ∧ out = some ()) := by
  unfold retryFailed at ends
  split at ends
  · rename_i allowed
    obtain ⟨now, w₁, reads, rest⟩ := ends
    dsimp only [Prog.bind] at rest
    split at rest
    · rename_i undated
      obtain ⟨isNone, rfl⟩ := rest
      exact .inr (.inl ⟨allowed, now, reads, undated, isNone⟩)
    · rename_i scheduledFor dated
      obtain ⟨runId, w₂, draws, r, w₃, creates, returns, rfl⟩ := rest
      exact .inr (.inr ⟨allowed, now, w₁, scheduledFor, runId, w₂, r, reads, dated, draws, creates, returns⟩)
  · rename_i spent
    obtain ⟨returns, rfl⟩ := ends
    exact .inl ⟨Bool.eq_false_iff.mpr spent, returns, rfl⟩

/-- A retry that is allowed and can be dated can be inserted. -/
theorem retryFailed_inserts (steady : ∀ t, around.passes t t) {run : Run} {job : Job} {scheduledFor : DateTime}
    (accepts : ∀ retry, around.refuses (.createRun retry) = none)
    (allowed : job.retryPolicy.shouldRetry run.attempt = true)
    (dated : retryTime job.retryPolicy run.attempt w.clock = some scheduledFor) :
    ∃ runId w', Ends around (retryFailed run job) w (some ()) w' ∧ w.run runId = none ∧
      w'.store = w.store.setRun (retryRun run runId scheduledFor) := by
  let w₁ := w.record .utcNow w.clock w.store
  obtain ⟨runId, unused⟩ := w₁.exists_unused
  let w₂ := w₁.record .newUuid runId w.store
  let store := w.store.setRun (retryRun run runId scheduledFor)
  have draws : Alone around w₁ .newUuid runId w₂ := .of_uuid steady unused
  refine ⟨runId, w₂.record (.store (.createRun (retryRun run runId scheduledFor))) (.ok ()) store, ?_, draws.newUuid.1,
    rfl⟩
  unfold retryFailed
  rw [if_pos allowed]
  refine ⟨w.clock, w₁, .of_utcNow steady, ?_⟩
  dsimp only [Prog.bind]
  rw [dated]
  exact ⟨runId, w₂, draws, .ok (), _, .of_exec steady (accepts _) rfl, rfl, rfl⟩

/-! ## Playing a task -/

/-- The calls whose answer is not determined by the world. -/
def Op.isFree : Op → Bool
  | .newUuid | .executeScript _ _ => true
  | _ => false

/-- The answer of a call, with the state after it. -/
def answerAlone (refuses : StoreCall → Option ChrononError) (oracle : Oracle) (w : World) :
    (op : Op) → Option (Ans op × State)
  | .store c =>
    match refuses c with
    | some e => some (.error e, w.state)
    | none => answer oracle w (.store c)
  | op => answer oracle w op

/-- Run a task at a fixed time, with the given identifiers and script outcomes. -/
def playAlone (refuses : StoreCall → Option ChrononError) : Task α → World → List Oracle → Option (Option α × World)
  | .ret a, w, _ => some (some a, w)
  | .call .panic _, w, _ => some (none, w)
  | .call op k, w, oracles =>
    match answerAlone refuses (oracles.headD .quiet) w op with
    | some (r, state) =>
      playAlone refuses (k r) ⟨state, ⟨0, w.state, op, r⟩ :: w.log⟩ (if op.isFree then oracles.tail else oracles)
    | none => none

theorem Answered.of_answerAlone {oracle : Oracle} {op : Op} {r : Ans op} {state : State}
    (answered : answerAlone around.refuses oracle w op = some (r, state)) :
    Answered around w op r state ∧ state.clock = w.clock := by
  cases op with
  | store c =>
    simp only [answerAlone] at answered
    simp only [Answered]
    cases refused : around.refuses c with
    | some e =>
      rw [refused] at answered
      cases answered
      exact ⟨⟨rfl, rfl⟩, rfl⟩
    | none =>
      rw [refused] at answered
      cases answered
      exact ⟨⟨rfl, rfl⟩, rfl⟩
  | panic => cases answered
  | _ =>
    simp only [answerAlone] at answered
    refine ⟨⟨oracle, answered⟩, ?_⟩
    rw [answer_other answered (by rintro c ⟨⟩)]
    rfl

/-- A task that can be played ends so. -/
theorem Ends.of_play (steady : ∀ t, around.passes t t) {m : Task α} {oracles : List Oracle} {out : Option α}
    (played : playAlone around.refuses m w oracles = some (out, w')) : Ends around m w out w' := by
  induction m generalizing w oracles with
  | ret a =>
    cases played
    exact ⟨rfl, rfl⟩
  | call op k ih =>
    cases op with
    | panic =>
      cases played
      exact ⟨rfl, rfl⟩
    | _ =>
      rw [playAlone] at played
      split at played
      · rename_i r state answered
        obtain ⟨isAnswer, sameClock⟩ := Answered.of_answerAlone answered
        rw [show state = { state with clock := w.clock } by rw [← sameClock]] at played
        exact ⟨r, _, ⟨state, w.clock, isAnswer, steady _, rfl⟩, ih r played⟩
      · cases played
      · intro _ isPanic
        cases isPanic

/-- The world a task is played to. -/
def playedTo (refuses : StoreCall → Option ChrononError) (m : Task α) (w : World) (oracles : List Oracle) : World :=
  ((playAlone refuses m w oracles).map Prod.snd).getD w

/-- A task that can be played has an end that passes the test. -/
theorem Ends.exists_of_play (around : Surroundings) (steady : ∀ t, around.passes t t) {m : Task α} {w : World}
    {oracles : List Oracle} (test : Option α × World → Bool)
    (played : (playAlone around.refuses m w oracles).any test = true) :
    ∃ out, Ends around m w out (playedTo around.refuses m w oracles) ∧
      test (out, playedTo around.refuses m w oracles) = true := by
  obtain ⟨⟨out, w'⟩, plays, passes⟩ := (Option.any_eq_true _ _).mp played
  have isEnd : playedTo around.refuses m w oracles = w' := by
    rw [playedTo, plays]
    rfl
  rw [isEnd]
  exact ⟨out, .of_play steady plays, passes⟩

end Chronon
