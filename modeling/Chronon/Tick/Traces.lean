import Chronon.Tick.Outcome

/-!
# A tick that cannot enqueue

`enqueue_due_job` on a due job while any of its store calls fail. If a call up to
`create_run` fails, nothing should be left of the attempt: no run, no claim, and
the fire time in place.

Most branches give the tick claim back. A failed `get_job` returns at once with the
claim held, and a failed count of the active runs is taken for zero, so the
sequence goes on to the run or to the skipped fire time.
`leaves_no_trace_iff` says exactly when nothing is left.
-/

namespace Chronon
set_option autoImplicit false

open Concurrent

/-- The calls of `enqueue_due_job` that fail, and with which error. -/
structure TickFaults where
  claim : Option ChrononError
  getJob : Option ChrononError
  listRuns : Option ChrononError
  tryClaim : Option ChrononError
  createRun : Option ChrononError
  markCompleted : Option ChrononError
  persist : Option ChrononError
  releaseOnce : Option ChrononError
  releaseTick : Option ChrononError

/-- No method is called twice for one job. -/
def TickFaults.refuses (faults : TickFaults) : StoreCall → Option ChrononError
  | .claimJobForTick _ _ _ _ => faults.claim
  | .getJob _ => faults.getJob
  | .listRunsForJob _ _ => faults.listRuns
  | .tryClaimRunOnce _ _ _ _ => faults.tryClaim
  | .createRun _ => faults.createRun
  | .markRunOnceCompleted _ _ => faults.markCompleted
  | .persistPostTickJobState _ _ => faults.persist
  | .releaseRunOnceClaim _ _ _ => faults.releaseOnce
  | .releaseJobTickClaim _ => faults.releaseTick
  | _ => none

/-- The failures a coordinator has seen so far. -/
structure TickRecord where
  failed : Bool
  releaseFailed : Bool

/-- The calls up to `create_run` count as failures of the tick, the releases on their own. -/
def TickRecord.note (e : LogEntry) (record : TickRecord) : TickRecord :=
  match e with
  | ⟨_, _, .store (.claimJobForTick _ _ _ _), .error _⟩ | ⟨_, _, .store (.getJob _), .error _⟩
  | ⟨_, _, .store (.listRunsForJob _ _), .error _⟩ | ⟨_, _, .store (.tryClaimRunOnce _ _ _ _), .error _⟩
  | ⟨_, _, .store (.createRun _), .error _⟩ => { record with failed := true }
  | ⟨_, _, .store (.releaseRunOnceClaim _ _ _), .error _⟩
  | ⟨_, _, .store (.releaseJobTickClaim _), .error _⟩ => { record with releaseFailed := true }
  | _ => record

/-- What the task of this world has seen. -/
def tickRecord (w : World) : TickRecord := track TickRecord.note ⟨false, false⟩ 0 w.log

/-- Nobody has the run-once claim. -/
def Job.OnceClear (row : Job) : Prop :=
  row.runOnceClaimedAt = none ∧ row.runOnceClaimedBy = none ∧ row.runOnceClaimExpiresAt = none

/-- Nobody has the tick claim either. -/
def Job.Unclaimed (row : Job) : Prop := row.claimLeaseId = none ∧ row.claimLeaseUntil = none ∧ row.OnceClear

/-- The row is as good as untouched: unclaimed, with its fire time, and due again. -/
structure Job.Restored (row : Job) (owned : List Nat) (dueUntil clock : DateTime) (old : Job) : Prop where
  unclaimed : row.Unclaimed
  fireTime : row.nextRunAt = old.nextRunAt
  due : Store.isDue clock owned dueUntil row = true

/-- A failed tick leaves no run and, if its releases succeed, no trace in the row. -/
def LeavesNoTrace (owned : List Nat) (dueUntil : DateTime) (old : Job) (w w' : World) : Prop :=
  (tickRecord w').failed = true → (∀ id, w'.run id = w.run id) ∧
    ((tickRecord w').releaseFailed = false →
      ∃ row, w'.job old.jobId = some row ∧ row.Restored owned dueUntil w'.clock old)

/-- The active runs that the tick goes by. -/
def TickFaults.counted (faults : TickFaults) (s : Store) (jobId : String) : Int :=
  if faults.listRuns.isSome then 0 else countedActive s jobId

/-- Giving the tick claim back restores the row. -/
def TickFaults.Returns (faults : TickFaults) (row : Job) : Prop := faults.releaseTick.isSome = true ∨ row.OnceClear

/-- The failures of a tick at `now` that leave no trace, in the order of the calls. -/
def TickFaults.Traceless (faults : TickFaults) (host : Host) (instanceId : String) (now : DateTime) (s : Store)
    (row : Job) : Prop :=
  if faults.claim.isSome then row.Unclaimed
  else if faults.getJob.isSome then False
  else if row.concurrency ≤ faults.counted s row.jobId then faults.listRuns.isSome = true → faults.Returns row
  else if passesGate now row = false then
    faults.listRuns.isSome = true → faults.releaseTick.isSome = true ∨
      (row.OnceClear ∧ (row.scheduleKind = .runOnce → faults.markCompleted.isSome = true) ∧
        (faults.persist.isSome = true ∨ postTickNextRunAt host row now = row.nextRunAt))
  else if row.scheduleKind = .runOnce then
    if faults.tryClaim.isSome then faults.Returns row
    else if onceTaken instanceId now row then faults.listRuns.isSome = true → faults.Returns row
    else faults.listRuns.isSome = true → faults.createRun.isSome = true
  else if faults.createRun.isSome then faults.Returns row
  else faults.listRuns = none

/-! ## The calls -/

section Calls

variable {faults : TickFaults} {w w' : World} {base : Store} {row : Job} {id : String}

theorem tickRecord_step {op : Op} {r : Ans op} (calls : Alone (.failing faults.refuses) w op r w') :
    tickRecord w' = (tickRecord w).note ⟨0, w.state, op, r⟩ := by
  rw [tickRecord, calls.log]
  exact track_own rfl

/-- A call that changes in place the row stored last, unless it fails. -/
theorem mutates_or_fails {c : StoreCall} {r : Result c.Ret} {f : Job → Job} {stamp : DateTime}
    (calls : Alone (.failing faults.refuses) w (.store c) r w') (store : w.store = base.setJob row) (isRow : row.jobId = id)
    (isCall : (c.exec w.clock w.store).2 = (w.store.mutateJobAt id stamp f).2) (keeps : (f row).jobId = row.jobId) :
    (∃ e, faults.refuses c = some e ∧ r = .error e ∧ w'.store = base.setJob row) ∨
      (faults.refuses c = none ∧ w'.store = base.setJob { f row with updatedAt := stamp }) := by
  rcases calls.store with ⟨e, refused, isError, same⟩ | ⟨accepted, -⟩
  · exact .inl ⟨e, refused, isError, same.trans store⟩
  · exact .inr ⟨accepted, calls.mutate accepted store isRow isCall keeps⟩

/-- The row is stored, so a call that changes it in place succeeds when it runs. -/
theorem mutate_isOk {f : Job → Job} {stamp : DateTime} {r : Result Unit} {s' : Store}
    (ran : w.store.mutateJobAt id stamp f = (r, s')) (store : w.store = base.setJob row) (isRow : row.jobId = id) :
    r = .ok () := by
  have stored : w.store.jobs.lookup id = some row := by
    rw [← isRow]
    exact World.job_setJob store
  simp only [Store.mutateJobAt, stored, Prod.mk.injEq] at ran
  exact ran.1.symm

theorem releaseTick_or_fails {r : Result Unit}
    (calls : Alone (.failing faults.refuses) w (.store (.releaseJobTickClaim id)) r w')
    (store : w.store = base.setJob row) (isRow : row.jobId = id) :
    (faults.releaseTick.isSome = true ∧ w'.store = base.setJob row ∧
      tickRecord w' = { tickRecord w with releaseFailed := true }) ∨
    (faults.releaseTick = none ∧ w'.store = base.setJob (givenBack row w.clock) ∧ tickRecord w' = tickRecord w) := by
  have record := tickRecord_step calls
  rcases mutates_or_fails calls store isRow rfl rfl with ⟨e, refused, rfl, same⟩ | ⟨accepted, after⟩
  · exact .inl ⟨by rw [show faults.releaseTick = some e from refused]; rfl, same, record⟩
  · obtain rfl := mutate_isOk (calls.exec accepted) store isRow
    exact .inr ⟨accepted, after, record⟩

/-- The run-once claim that the tick has just taken is given back. -/
theorem releaseOnce_or_fails {claimedBy : String} {now : DateTime} {r : Result Unit}
    (calls : Alone (.failing faults.refuses) w (.store (.releaseRunOnceClaim id claimedBy now)) r w')
    (store : w.store = base.setJob row) (isRow : row.jobId = id) (own : row.runOnceClaimedBy = some claimedBy) :
    (w'.store = base.setJob row ∧ tickRecord w' = { tickRecord w with releaseFailed := true }) ∨
    (w'.store = base.setJob { row with
        runOnceClaimedAt := none
        runOnceClaimedBy := none
        runOnceClaimExpiresAt := none
        updatedAt := now } ∧ tickRecord w' = tickRecord w) := by
  have record := tickRecord_step calls
  have keeps : (if row.runOnceClaimedBy = some claimedBy then { row with
      runOnceClaimedAt := none
      runOnceClaimedBy := none
      runOnceClaimExpiresAt := none } else row).jobId = row.jobId := by rw [if_pos own]
  rcases mutates_or_fails calls store isRow rfl keeps with ⟨e, -, rfl, same⟩ | ⟨accepted, after⟩
  · exact .inl ⟨same, record⟩
  · obtain rfl := mutate_isOk (calls.exec accepted) store isRow
    rw [if_pos own] at after
    exact .inr ⟨after, record⟩

/-- A call that changes a job leaves the runs alone. -/
theorem mutate_runs {c : StoreCall} {r : Result c.Ret} {f : Job → Job} {stamp : DateTime}
    (calls : Alone (.failing faults.refuses) w (.store c) r w')
    (isCall : (c.exec w.clock w.store).2 = (w.store.mutateJobAt id stamp f).2) (runId : String) :
    w'.run runId = w.run runId := by
  rcases calls.store with ⟨-, -, -, same⟩ | ⟨-, ran⟩
  · exact World.run_congr same runId
  · rw [ran] at isCall
    replace isCall : w'.store = (w.store.mutateJobAt id stamp f).2 := isCall
    rw [World.run, isCall, Store.mutateJobAt]
    split <;> rfl

/-- The calls that are not counted leave the record as it is. -/
theorem tickRecord_mark {completedAt : DateTime} {r : Result Unit}
    (calls : Alone (.failing faults.refuses) w (.store (.markRunOnceCompleted id completedAt)) r w') :
    tickRecord w' = tickRecord w := by
  rw [tickRecord_step calls]
  cases r <;> rfl

theorem tickRecord_persist {next : Option DateTime} {r : Result Unit}
    (calls : Alone (.failing faults.refuses) w (.store (.persistPostTickJobState id next)) r w') :
    tickRecord w' = tickRecord w := by
  rw [tickRecord_step calls]
  cases r <;> rfl

end Calls

/-! ## When a row is restored -/

section Restored

variable {owned : List Nat} {dueUntil clock : DateTime} {row row' : Job} {st : State} {w' : World}

/-- A row without a tick claim is due by its schedule and its partition. -/
theorem isDue_unleased (row' : Job) (due : Store.isDue st.clock owned dueUntil row = true)
    (schedule : Store.scheduleDue dueUntil row' = true) (partition : row'.partitionHash = row.partitionHash)
    (unleased : row'.claimLeaseUntil = none) : Store.isDue clock owned dueUntil row' = true := by
  simp only [Store.isDue, Bool.and_eq_true] at due ⊢
  rw [partition, unleased]
  exact ⟨⟨schedule, due.1.2⟩, rfl⟩

/-- Given back, the row is restored unless it carries a run-once claim. -/
theorem restored_givenBack (due : Store.isDue st.clock owned dueUntil row = true) (stamp : DateTime) :
    (givenBack row stamp).Restored owned dueUntil clock row ↔ row.OnceClear := by
  constructor
  · exact fun restored => restored.unclaimed.2.2
  · intro once
    have schedule := Store.scheduleDue_of_isDue due
    replace schedule : Store.scheduleDue dueUntil (givenBack row stamp) = true := schedule
    exact ⟨⟨rfl, rfl, once⟩, rfl, isDue_unleased (givenBack row stamp) due schedule rfl rfl⟩

/-- A completed run-once job is not due. -/
theorem not_restored_of_completed (once : row'.scheduleKind = .runOnce)
    (completed : row'.runOnceCompletedAt.isSome = true) : ¬ row'.Restored owned dueUntil clock row := by
  intro restored
  have schedule := Store.scheduleDue_of_isDue restored.due
  simp only [Store.scheduleDue, once, bne_self_eq_false, Bool.false_or, Bool.and_eq_true, Option.isNone_iff_eq_none]
    at schedule
  rw [schedule.2] at completed
  cases completed

/-- A row that differs from a due one in its tick claim and its fire time. -/
theorem restored_moved {claimLeaseId : Option String} {claimLeaseUntil next : Option DateTime} {updatedAt : DateTime}
    (due : Store.isDue st.clock owned dueUntil row = true) (stamp : DateTime) :
    (givenBack { row with claimLeaseId, claimLeaseUntil, nextRunAt := next, updatedAt } stamp).Restored
      owned dueUntil clock row ↔ row.OnceClear ∧ next = row.nextRunAt := by
  constructor
  · exact fun restored => ⟨restored.unclaimed.2.2, restored.fireTime⟩
  · rintro ⟨once, rfl⟩
    exact (restored_givenBack due stamp).mpr once

/-- A due row is restored unless it carries a claim. -/
theorem restored_untouched (due : Store.isDue st.clock owned dueUntil row = true) :
    row.Restored owned dueUntil clock row ↔ row.Unclaimed := by
  constructor
  · exact Job.Restored.unclaimed
  · exact fun unclaimed =>
      ⟨unclaimed, rfl, isDue_unleased row due (Store.scheduleDue_of_isDue due) rfl unclaimed.2.1⟩

theorem noTrace_of_quiet {w : World} (quiet : (tickRecord w').failed = false) : LeavesNoTrace owned dueUntil row w w' := by
  intro failed
  rw [quiet] at failed
  cases failed

/-- A failed tick that created no run. -/
theorem noTrace_iff_restored {releaseFailed : Bool} (stored : w'.job row.jobId = some row')
    (runs : ∀ id, w'.run id = (World.fresh st).run id) (record : tickRecord w' = ⟨true, releaseFailed⟩) :
    LeavesNoTrace owned dueUntil row (.fresh st) w' ↔
      (releaseFailed = false → row'.Restored owned dueUntil w'.clock row) := by
  rw [LeavesNoTrace, record]
  constructor
  · intro noTrace released
    obtain ⟨other, isRow, restored⟩ := (noTrace rfl).2 released
    rw [stored] at isRow
    obtain rfl := Option.some.inj isRow
    exact restored
  · exact fun restored _ => ⟨runs, fun released => ⟨row', stored, restored released⟩⟩

/-- A failed tick that only changed the row. -/
theorem noTrace_iff {releaseFailed : Bool} (after : w'.store = st.store.setJob row') (ids : row'.jobId = row.jobId)
    (record : tickRecord w' = ⟨true, releaseFailed⟩) :
    LeavesNoTrace owned dueUntil row (.fresh st) w' ↔
      (releaseFailed = false → row'.Restored owned dueUntil w'.clock row) := by
  have stored : w'.job row.jobId = some row' := by
    rw [← ids]
    exact World.job_setJob after
  have runs (id : String) : w'.run id = (World.fresh st).run id := by
    rw [World.run, after]
    rfl
  exact noTrace_iff_restored stored runs record

/-- A failed tick that created a run. -/
theorem not_noTrace_of_created {run : Run} (stored : w'.run run.runId = some run)
    (new : (World.fresh st).run run.runId = none) (failed : (tickRecord w').failed = true) :
    ¬ LeavesNoTrace owned dueUntil row (.fresh st) w' := by
  intro noTrace
  rw [(noTrace failed).1, new] at stored
  cases stored

end Restored

/-! ## The branches -/

section Branches

variable {faults : TickFaults} {host : Host} {instanceId : String} {owned : List Nat} {dueUntil now : DateTime}
  {row held : Job} {st : State} {w w' : World} {out : Option (Result Bool)} {claimLeaseId : Option String}
  {claimLeaseUntil : Option DateTime} {updatedAt : DateTime}

/-- The tick claim is given back. -/
theorem giveUp_iff (due : Store.isDue st.clock owned dueUntil row = true)
    (isHeld : held = { row with claimLeaseId, claimLeaseUntil, updatedAt }) (store : w.store = st.store.setJob held)
    (record : tickRecord w = ⟨true, false⟩)
    (ends : Ends (.failing faults.refuses) (giveUp row.jobId) w out w') :
    LeavesNoTrace owned dueUntil row (.fresh st) w' ↔ faults.Returns row := by
  obtain ⟨r, w₁, releases, -, rfl⟩ := ends
  have ids : held.jobId = row.jobId := by rw [isHeld]
  rcases releaseTick_or_fails releases store ids with ⟨refused, after, record'⟩ | ⟨accepted, after, record'⟩
  · rw [record] at record'
    rw [noTrace_iff after ids record']
    exact iff_of_true (by rintro ⟨⟩) (.inl refused)
  · rw [record] at record'
    have back : givenBack held w.clock = givenBack row w.clock := by
      rw [isHeld]
      rfl
    rw [back] at after
    have sameId : (givenBack row w.clock).jobId = row.jobId := rfl
    rw [noTrace_iff after sameId record', restored_givenBack due]
    simp only [TickFaults.Returns, accepted, forall_const, Option.isSome_none, Bool.false_eq_true, false_or]

theorem giveUp_quiet (record : (tickRecord w).failed = false)
    (ends : Ends (.failing faults.refuses) (giveUp row.jobId) w out w') : (tickRecord w').failed = false := by
  obtain ⟨r, w₁, releases, -, rfl⟩ := ends
  rw [tickRecord_step releases]
  cases r with
  | error e => exact record
  | ok u => exact record

/-- `mark_run_once_completed` in `skip_due_job`: only of a run-once job, unless it fails. -/
theorem skip_marked {next : Option DateTime} (store : w.store = st.store.setJob held)
    (ends : Ends (.failing faults.refuses) (do
      if held.scheduleKind = .runOnce then
        let _ ← call (.markRunOnceCompleted held.jobId now)
      let _ ← call (.persistPostTickJobState held.jobId next)
      let _ ← call (.releaseJobTickClaim held.jobId)
      return .ok false) w out w') :
    ∃ marked w₁, w₁.store = st.store.setJob marked ∧ marked.jobId = held.jobId ∧ tickRecord w₁ = tickRecord w ∧
      Ends (.failing faults.refuses) (do
        let _ ← call (.persistPostTickJobState held.jobId next)
        let _ ← call (.releaseJobTickClaim held.jobId)
        return .ok false) w₁ out w' ∧
      ((held.scheduleKind = .runOnce ∧ faults.markCompleted = none ∧ marked.scheduleKind = .runOnce ∧
          marked.runOnceCompletedAt.isSome = true) ∨
        ((held.scheduleKind = .runOnce → faults.markCompleted.isSome = true) ∧ marked = held)) := by
  by_cases once : held.scheduleKind = .runOnce
  · rw [if_pos once] at ends
    obtain ⟨r, w₁, marks, rest⟩ := ends
    have record := tickRecord_mark marks
    rcases mutates_or_fails marks store rfl rfl rfl with ⟨e, refused, rfl, same⟩ | ⟨accepted, after⟩
    · exact ⟨held, w₁, same, rfl, record, rest, .inr ⟨fun _ => by rw [show faults.markCompleted = some e from refused]; rfl, rfl⟩⟩
    · exact ⟨_, w₁, after, rfl, record, rest, .inl ⟨once, accepted, once, rfl⟩⟩
  · rw [if_neg once] at ends
    exact ⟨held, w, store, rfl, rfl, ends, .inr ⟨fun isOnce => absurd isOnce once, rfl⟩⟩

/-- The fire time is skipped after a failure. -/
theorem skipDueJob_iff (due : Store.isDue st.clock owned dueUntil row = true)
    (isHeld : held = { row with claimLeaseId, claimLeaseUntil, updatedAt }) (store : w.store = st.store.setJob held)
    (record : tickRecord w = ⟨true, false⟩)
    (ends : Ends (.failing faults.refuses) (skipDueJob host held held.jobId now) w out w') :
    LeavesNoTrace owned dueUntil row (.fresh st) w' ↔ faults.releaseTick.isSome = true ∨
      (row.OnceClear ∧ (row.scheduleKind = .runOnce → faults.markCompleted.isSome = true) ∧
        (faults.persist.isSome = true ∨ postTickNextRunAt host row now = row.nextRunAt)) := by
  have kind : held.scheduleKind = row.scheduleKind := by rw [isHeld]
  have next : postTickNextRunAt host held now = postTickNextRunAt host row now := by rw [isHeld]; rfl
  obtain ⟨marked, w₁, store₁, ids₁, record₁, ends, completes⟩ := skip_marked store ends
  obtain ⟨r, w₂, persists, r₂, w₃, releases, -, rfl⟩ := ends
  have record₂ : tickRecord w₂ = ⟨true, false⟩ := (tickRecord_persist persists).trans (record₁.trans record)
  have ids : held.jobId = row.jobId := by rw [isHeld]
  obtain ⟨persisted, store₂, ids₂, isPersisted⟩ : ∃ persisted, w₂.store = st.store.setJob persisted ∧
      persisted.jobId = held.jobId ∧ ((faults.persist.isSome = true ∧ persisted = marked) ∨
        (faults.persist = none ∧ ∃ stamp, persisted = { marked with
          nextRunAt := postTickNextRunAt host held now
          claimLeaseId := none
          claimLeaseUntil := none
          updatedAt := stamp })) := by
    rcases mutates_or_fails persists store₁ ids₁ rfl rfl with ⟨e, refused, -, same⟩ | ⟨accepted, after⟩
    · exact ⟨marked, same, ids₁, .inl ⟨by rw [show faults.persist = some e from refused]; rfl, rfl⟩⟩
    · exact ⟨_, after, ids₁, .inr ⟨accepted, _, rfl⟩⟩
  rcases releaseTick_or_fails releases store₂ ids₂ with ⟨refused, after, record₃⟩ | ⟨accepted, after, record₃⟩
  · rw [record₂] at record₃
    rw [noTrace_iff after (ids₂.trans ids) record₃]
    exact iff_of_true (by rintro ⟨⟩) (.inl refused)
  · rw [record₂] at record₃
    have sameId : (givenBack persisted w₂.clock).jobId = row.jobId := ids₂.trans ids
    rw [noTrace_iff after sameId record₃, accepted]
    simp only [forall_const, Option.isSome_none, Bool.false_eq_true, false_or]
    rcases completes with ⟨once, marks, markedOnce, completed⟩ | ⟨unmarked, rfl⟩
    · refine iff_of_false (not_restored_of_completed ?_ ?_) (fun ⟨_, failed, _⟩ => ?_)
      · rcases isPersisted with ⟨-, rfl⟩ | ⟨-, stamp, rfl⟩ <;> exact markedOnce
      · rcases isPersisted with ⟨-, rfl⟩ | ⟨-, stamp, rfl⟩ <;> exact completed
      · rw [kind] at once
        rw [marks] at failed
        cases failed once
    · rw [kind] at unmarked
      rw [and_iff_right unmarked]
      rcases isPersisted with ⟨refused, rfl⟩ | ⟨accepted, stamp, rfl⟩
      · rw [isHeld, or_iff_left_of_imp fun _ => refused, and_iff_left refused]
        exact restored_givenBack due w₂.clock
      · rw [next, isHeld, restored_moved due, accepted]
        simp only [Option.isSome_none, Bool.false_eq_true, false_or]

theorem skipDueJob_quiet (record : (tickRecord w).failed = false) (store : w.store = st.store.setJob held)
    (ends : Ends (.failing faults.refuses) (skipDueJob host held held.jobId now) w out w') :
    (tickRecord w').failed = false := by
  obtain ⟨marked, w₁, -, -, record₁, ⟨r, w₂, persists, ends⟩, -⟩ := skip_marked store ends
  have record₂ : (tickRecord w₂).failed = false := by
    rw [tickRecord_persist persists, record₁]
    exact record
  exact giveUp_quiet record₂ ends

/-- `create_run` succeeds. -/
theorem createTickRun_created {jobId : String} {job : Job} {old : World} (accepted : faults.createRun = none)
    (runs : ∀ id, w.run id = old.run id)
    (ends : Ends (.failing faults.refuses) (createTickRun host instanceId jobId job now) w out w') :
    (tickRecord w').failed = (tickRecord w).failed ∧
      ∃ run, old.run run.runId = none ∧ w'.run run.runId = some run := by
  obtain ⟨runId, w₁, draws, r, w₂, creates, rest⟩ := ends
  obtain ⟨fresh, -, same⟩ := draws.newUuid
  obtain ⟨rfl, after⟩ := creates.createRun accepted
  have record₂ : tickRecord w₂ = tickRecord w := (tickRecord_step creates).trans (tickRecord_step draws)
  have isStored : w₂.run runId = some (tickRun job runId (job.nextRunAt.getD now)) :=
    (World.run_setRun after runId).trans (if_pos rfl)
  have new : old.run runId = none := (runs runId).symm.trans fresh
  refine ⟨?_, tickRun job runId (job.nextRunAt.getD now), new, ?_⟩
  all_goals
    replace rest : Ends (.failing faults.refuses) (if job.scheduleKind = .runOnce then _ else _) w₂ out w' := rest
    split at rest
  · obtain ⟨at', w₃, reads, r₃, w₄, marks, r₄, w₅, persists, -, rfl⟩ := rest
    rw [tickRecord_persist persists, tickRecord_mark marks, ← record₂]
    exact congrArg _ (tickRecord_step reads)
  · obtain ⟨r₄, w₅, persists, -, rfl⟩ := rest
    rw [tickRecord_persist persists, record₂]
  · obtain ⟨at', w₃, reads, r₃, w₄, marks, r₄, w₅, persists, -, rfl⟩ := rest
    rw [mutate_runs persists rfl, mutate_runs marks rfl, World.run_congr reads.utcNow.2]
    exact isStored
  · obtain ⟨r₄, w₅, persists, -, rfl⟩ := rest
    rw [mutate_runs persists rfl]
    exact isStored

/-- A run is created: nothing may have failed before. -/
theorem created_iff {jobId : String} {job : Job} (accepted : faults.createRun = none)
    (runs : ∀ id, w.run id = (World.fresh st).run id) (record : (tickRecord w).failed = faults.listRuns.isSome)
    (ends : Ends (.failing faults.refuses) (createTickRun host instanceId jobId job now) w out w') :
    LeavesNoTrace owned dueUntil row (.fresh st) w' ↔ faults.listRuns = none := by
  obtain ⟨same, run, new, stored⟩ := createTickRun_created accepted runs ends
  rw [record] at same
  cases counts : faults.listRuns with
  | some e =>
    rw [counts] at same
    exact iff_of_false (not_noTrace_of_created stored new same) (by rintro ⟨⟩)
  | none =>
    rw [counts] at same
    exact iff_of_true (noTrace_of_quiet same) rfl

/-- `create_run` fails for a job that is not run-once: the tick claim is given back. -/
theorem createTickRun_refused {job : Job} (due : Store.isDue st.clock owned dueUntil row = true)
    (isHeld : held = { row with claimLeaseId, claimLeaseUntil, updatedAt }) (store : w.store = st.store.setJob held)
    (recurring : job.scheduleKind ≠ .runOnce) (refused : faults.createRun.isSome = true)
    (record : (tickRecord w).releaseFailed = false)
    (ends : Ends (.failing faults.refuses) (createTickRun host instanceId row.jobId job now) w out w') :
    LeavesNoTrace owned dueUntil row (.fresh st) w' ↔ faults.Returns row := by
  obtain ⟨runId, w₁, draws, r, w₂, creates, rest⟩ := ends
  have record₂ := (tickRecord_step creates).trans (by rw [tickRecord_step draws])
  rcases creates.store with ⟨e, -, rfl, same⟩ | ⟨accepted, -⟩
  · replace rest : Ends (.failing faults.refuses) (if job.scheduleKind = .runOnce then _ else _) w₂ out w' := rest
    rw [if_neg recurring] at rest
    have store₂ : w₂.store = st.store.setJob held := by rw [same, draws.newUuid.2.2, store]
    have failed : tickRecord w₂ = ⟨true, false⟩ := by
      rw [record₂, ← record]
      rfl
    exact giveUp_iff due isHeld store₂ failed rest
  · rw [show faults.createRun = none from accepted] at refused
    cases refused

/-- `create_run` fails for a run-once job: both claims are given back. -/
theorem createTickRun_noTrace {job : Job} {claimedAt expiresAt : Option DateTime} (due : Store.isDue st.clock owned dueUntil row = true)
    (isHeld : held = { row with
      claimLeaseId
      claimLeaseUntil
      runOnceClaimedAt := claimedAt
      runOnceClaimedBy := some instanceId
      runOnceClaimExpiresAt := expiresAt
      updatedAt })
    (store : w.store = st.store.setJob held) (once : job.scheduleKind = .runOnce)
    (refused : faults.createRun.isSome = true) (record : (tickRecord w).releaseFailed = false)
    (ends : Ends (.failing faults.refuses) (createTickRun host instanceId row.jobId job now) w out w') :
    LeavesNoTrace owned dueUntil row (.fresh st) w' := by
  obtain ⟨runId, w₁, draws, r, w₂, creates, rest⟩ := ends
  have record₂ := (tickRecord_step creates).trans (by rw [tickRecord_step draws])
  rcases creates.store with ⟨e, -, rfl, same⟩ | ⟨accepted, -⟩
  · replace rest : Ends (.failing faults.refuses) (if job.scheduleKind = .runOnce then _ else _) w₂ out w' := rest
    rw [if_pos once] at rest
    obtain ⟨at', w₃, reads, r, w₄, releases, r', w₅, releases', -, rfl⟩ := rest
    have ids : held.jobId = row.jobId := by rw [isHeld]
    have store₃ : w₃.store = st.store.setJob held := by rw [reads.utcNow.2, same, draws.newUuid.2.2, store]
    have failed : tickRecord w₃ = ⟨true, false⟩ := by
      rw [tickRecord_step reads, record₂, ← record]
      rfl
    rcases releaseOnce_or_fails releases store₃ ids (by rw [isHeld]) with ⟨store₄, record₄⟩ | ⟨store₄, record₄⟩
    · rw [failed] at record₄
      rcases releaseTick_or_fails releases' store₄ ids with ⟨-, after, record₅⟩ | ⟨-, after, record₅⟩
      all_goals
        rw [record₄] at record₅
        exact (noTrace_iff after ids record₅).mpr (by rintro ⟨⟩)
    · rw [failed] at record₄
      rcases releaseTick_or_fails releases' store₄ ids with ⟨-, after, record₅⟩ | ⟨-, after, record₅⟩
      · rw [record₄] at record₅
        exact (noTrace_iff after ids record₅).mpr (by rintro ⟨⟩)
      · rw [record₄] at record₅
        refine (noTrace_iff after ids record₅).mpr fun _ => ?_
        rw [isHeld]
        have schedule := Store.scheduleDue_of_isDue due
        exact ⟨⟨rfl, rfl, rfl, rfl, rfl⟩, rfl, isDue_unleased _ due schedule rfl rfl⟩
  · rw [show faults.createRun = none from accepted] at refused
    cases refused

/-- A branch that is taken whether the runs were counted or not. -/
theorem noTrace_counted {condition : Prop}
    (failed : tickRecord w = ⟨true, false⟩ → (LeavesNoTrace owned dueUntil row (.fresh st) w' ↔ condition))
    (quiet : (tickRecord w).failed = false → (tickRecord w').failed = false)
    (record : tickRecord w = ⟨faults.listRuns.isSome, false⟩) :
    LeavesNoTrace owned dueUntil row (.fresh st) w' ↔ (faults.listRuns.isSome = true → condition) := by
  cases counts : faults.listRuns.isSome with
  | true =>
    rw [counts] at record
    rw [failed record, forall_prop_of_true rfl]
  | false =>
    rw [counts] at record
    exact iff_of_true (noTrace_of_quiet (quiet (by rw [record]))) (by rintro ⟨⟩)

/-- The run-once claim of a held row. -/
theorem tryClaim_cases {r : Result Bool} {ttl : Int}
    (calls : Alone (.failing faults.refuses) w (.store (.tryClaimRunOnce row.jobId instanceId now ttl)) r w')
    (isHeld : held = { row with claimLeaseId, claimLeaseUntil, updatedAt }) (store : w.store = st.store.setJob held) :
    (faults.tryClaim.isSome = true ∧ (∃ e, r = .error e) ∧ w'.store = st.store.setJob held ∧
      tickRecord w' = { tickRecord w with failed := true }) ∨
    (faults.tryClaim = none ∧ onceTaken instanceId now row = true ∧ r = .ok false ∧ w'.store = st.store.setJob held ∧
      tickRecord w' = tickRecord w) ∨
    (faults.tryClaim = none ∧ onceTaken instanceId now row = false ∧ r = .ok true ∧
      w'.store = st.store.setJob { row with
        claimLeaseId
        claimLeaseUntil
        runOnceClaimedAt := some now
        runOnceClaimedBy := some instanceId
        runOnceClaimExpiresAt := some (now + seconds ttl)
        updatedAt := now } ∧ tickRecord w' = tickRecord w) := by
  have ids : held.jobId = row.jobId := by rw [isHeld]
  have stored : w.job row.jobId = some held := by
    rw [← ids]
    exact World.job_setJob store
  have taken : onceTaken instanceId now held = onceTaken instanceId now row := by
    rw [isHeld]
    rfl
  have record := tickRecord_step calls
  rcases calls.store with ⟨e, refused, rfl, same⟩ | ⟨accepted, -⟩
  · exact .inl ⟨by rw [show faults.tryClaim = some e from refused]; rfl, ⟨e, rfl⟩, same.trans store, record⟩
  · rcases calls.tryClaimOnce accepted stored with ⟨rfl, same, busy⟩ | ⟨free, rfl, after⟩
    · rw [taken] at busy
      exact .inr (.inl ⟨accepted, busy, rfl, same.trans store, record⟩)
    · rw [taken] at free
      rw [store, Store.setJob_setJob st.store (by rw [isHeld])] at after
      refine .inr (.inr ⟨accepted, free, rfl, ?_, record⟩)
      rw [after, isHeld]

/-- Once the claim is held and the active runs are counted, or taken for zero. -/
theorem enqueueCounted_iff (due : Store.isDue st.clock owned dueUntil row = true)
    (isHeld : held = { row with claimLeaseId, claimLeaseUntil, updatedAt }) (store : w.store = st.store.setJob held)
    (record : tickRecord w = ⟨faults.listRuns.isSome, false⟩) (claimed : faults.claim = none)
    (read : faults.getJob = none)
    (ends : Ends (.failing faults.refuses)
      (enqueueCounted host instanceId row.jobId held now (faults.counted st.store row.jobId)) w out w') :
    LeavesNoTrace owned dueUntil row (.fresh st) w' ↔ faults.Traceless host instanceId now st.store row := by
  have gate : shouldEnqueueForMisfire (held.nextRunAt.getD now) now held.misfirePolicy = passesGate now row := by
    rw [isHeld]
    rfl
  have limit : held.concurrency = row.concurrency := by rw [isHeld]
  have kind : held.scheduleKind = row.scheduleKind := by rw [isHeld]
  have isJob : held.jobId = row.jobId := by rw [isHeld]
  have runs (id : String) : w.run id = (World.fresh st).run id := by
    rw [World.run, store]
    rfl
  unfold enqueueCounted at ends
  rw [gate, limit, kind] at ends
  simp only [TickFaults.Traceless, claimed, read, Option.isSome_none, Bool.false_eq_true, if_false]
  by_cases atLimit : row.concurrency ≤ faults.counted st.store row.jobId
  · rw [if_pos atLimit] at ends ⊢
    exact noTrace_counted (fun failed => giveUp_iff due isHeld store failed ends) (fun quiet => giveUp_quiet quiet ends)
      record
  rw [if_neg atLimit] at ends ⊢
  by_cases late : passesGate now row = false
  · rw [if_pos (by rw [late]; rfl)] at ends
    rw [if_pos late]
    rw [← isJob] at ends
    exact noTrace_counted (fun failed => skipDueJob_iff due isHeld store failed ends)
      (fun quiet => skipDueJob_quiet quiet store ends) record
  rw [if_neg late]
  rw [Bool.not_eq_false] at late
  rw [if_neg (by rw [late]; rintro ⟨⟩)] at ends
  by_cases once : row.scheduleKind = .runOnce
  · rw [if_pos once] at ends ⊢
    obtain ⟨r, w₁, claims, rest⟩ := ends
    rcases tryClaim_cases claims isHeld store with
      ⟨refused, ⟨e, rfl⟩, store₁, record₁⟩ | ⟨accepted, busy, rfl, store₁, record₁⟩ |
        ⟨accepted, free, rfl, store₁, record₁⟩
    · rw [if_pos refused]
      rw [record] at record₁
      exact giveUp_iff due isHeld store₁ record₁ rest
    · rw [accepted, if_neg (by rintro ⟨⟩), if_pos busy]
      rw [record] at record₁
      exact noTrace_counted (fun failed => giveUp_iff due isHeld store₁ failed rest) (fun quiet => giveUp_quiet quiet rest)
        record₁
    · rw [accepted, if_neg (by rintro ⟨⟩), if_neg (by rw [free]; rintro ⟨⟩)]
      rw [record] at record₁
      cases creates : faults.createRun with
      | some e =>
        refine iff_of_true ?_ (fun _ => rfl)
        exact createTickRun_noTrace due rfl store₁ (kind.trans once) (by rw [creates]; rfl) (by rw [record₁]) rest
      | none =>
        have runs₁ (id : String) : w₁.run id = (World.fresh st).run id := by
          rw [World.run, store₁]
          rfl
        rw [created_iff creates runs₁ (by rw [record₁]) rest]
        cases faults.listRuns with
        | some e => exact iff_of_false (by rintro ⟨⟩) (fun refused => by cases refused rfl)
        | none => exact iff_of_true rfl (by rintro ⟨⟩)
  · rw [if_neg once] at ends ⊢
    cases creates : faults.createRun with
    | some e =>
      rw [if_pos (by rfl)]
      exact createTickRun_refused due isHeld store (by rwa [kind]) (by rw [creates]; rfl) (by rw [record]) ends
    | none =>
      rw [if_neg (by rintro ⟨⟩)]
      exact created_iff creates runs (by rw [record]) ends

end Branches

/-- **A tick that cannot enqueue leaves no trace**, exactly under the failures that `Traceless` lists. -/
theorem leaves_no_trace_iff {faults : TickFaults} {host : Host} {instanceId : String} {owned : List Nat}
    {dueUntil : DateTime} {row : Job} {st : State} {out : Option (Result Bool)} {w' : World}
    (stored : (World.fresh st).job row.jobId = some row) (due : Store.isDue st.clock owned dueUntil row = true)
    (ends : Ends (.failing faults.refuses) (enqueueDueJob host instanceId row.jobId) (.fresh st) out w') :
    LeavesNoTrace owned dueUntil row (.fresh st) w' ↔ faults.Traceless host instanceId st.clock st.store row := by
  obtain ⟨now, w₁, reads, uuid, w₂, draws, r, w₃, claims, rest⟩ := ends
  obtain rfl : now = st.clock := reads.utcNow.1
  have same₂ : w₂.store = (World.fresh st).store := draws.newUuid.2.2.trans reads.utcNow.2
  have record₂ : tickRecord w₂ = ⟨false, false⟩ := by
    rw [tickRecord_step draws, tickRecord_step reads]
    rfl
  have record₃ := tickRecord_step claims
  rw [record₂] at record₃
  rcases claims.store with ⟨e, refused, rfl, same₃⟩ | ⟨accepted, -⟩
  · obtain ⟨-, rfl⟩ := rest
    have same : w'.store = (World.fresh st).store := same₃.trans same₂
    have isFault : faults.claim.isSome = true := by
      rw [show faults.claim = some e from refused]
      rfl
    rw [noTrace_iff_restored ((World.job_congr same _).trans stored) (World.run_congr same) record₃, TickFaults.Traceless,
      if_pos isFault, forall_prop_of_true rfl]
    exact restored_untouched due
  rcases claims.claimTick accepted with ⟨-, -, busy⟩ | ⟨row', stored', -, rfl, after⟩
  · have free := busy row ((World.job_congr same₂ _).trans stored)
    rw [tickFree_of_isDue due] at free
    cases free
  rw [World.job_congr same₂, stored] at stored'
  obtain rfl := Option.some.inj stored'
  rw [same₂] at after
  replace after : w₃.store = st.store.setJob _ := after
  generalize isHeld : { row with
    claimLeaseId := some (instanceId ++ ":" ++ uuid)
    claimLeaseUntil := some (st.clock + seconds (jobClaimLeaseTtlSecs host.env))
    updatedAt := st.clock } = held at after
  have ids : held.jobId = row.jobId := by rw [← isHeld]
  obtain ⟨found, w₄, gets, rest⟩ := rest
  have record₄ := tickRecord_step gets
  rw [record₃] at record₄
  have claimed : faults.claim = none := accepted
  rcases gets.store with ⟨e, refused, rfl, same₄⟩ | ⟨read, -⟩
  · obtain ⟨-, rfl⟩ := rest
    have isFault : faults.getJob.isSome = true := by
      rw [show faults.getJob = some e from refused]
      rfl
    rw [noTrace_iff (same₄.trans after) ids record₄]
    simp only [TickFaults.Traceless, claimed, isFault, Option.isSome_none, Bool.false_eq_true, if_false, if_true, iff_false]
    intro restored
    have unclaimed := (restored rfl).unclaimed.1
    rw [← isHeld] at unclaimed
    cases unclaimed
  obtain ⟨rfl, same₄⟩ := gets.getJob read
  have found : w₃.job row.jobId = some held := by
    rw [← ids]
    exact World.job_setJob after
  rw [found] at rest record₄
  obtain ⟨listing, w₅, lists, rest⟩ := rest
  have record₅ := tickRecord_step lists
  rw [record₄] at record₅
  rcases lists.store with ⟨e, refused, rfl, same₅⟩ | ⟨counts, -⟩
  · have uncounted : faults.listRuns.isSome = true := by
      rw [show faults.listRuns = some e from refused]
      rfl
    replace rest : Ends (.failing faults.refuses) (enqueueCounted host instanceId row.jobId held st.clock 0) w₅ out w' := rest
    rw [← show faults.counted st.store row.jobId = 0 from if_pos uncounted] at rest
    have store : w₅.store = st.store.setJob held := by rw [same₅, same₄, after]
    exact enqueueCounted_iff due isHeld.symm store (by rw [record₅, uncounted]; rfl) claimed read rest
  · obtain ⟨rfl, same₅⟩ := lists.listRuns counts
    have counted : faults.listRuns = none := counts
    replace rest : Ends (.failing faults.refuses)
      (enqueueCounted host instanceId row.jobId held st.clock (countedActive w₄.store row.jobId)) w₅ out w' := rest
    have isCount : countedActive w₄.store row.jobId = faults.counted st.store row.jobId := by
      rw [TickFaults.counted, counted, if_neg (by rintro ⟨⟩), same₄, after]
      rfl
    rw [isCount] at rest
    have store : w₅.store = st.store.setJob held := by rw [same₅, same₄, after]
    exact enqueueCounted_iff due isHeld.symm store (by rw [record₅, counted]; rfl) claimed read rest

/-- A due job at its limit: it allows one run and has one. -/
def limitedJob : Job := { minutelyJob with concurrency := 1 }

def limitedState : State := (State.single limitedJob (seconds 60)).withRun (Run.forJob "r" "j" "noop" 0)

/-- Nothing fails. -/
def TickFaults.none : TickFaults := ⟨.none, .none, .none, .none, .none, .none, .none, .none, .none⟩

theorem exists_enqueued (faults : TickFaults) (st : State) (test : World → Bool)
    (played : (playAlone faults.refuses (enqueueDueJob .simple "A" "j") (.fresh st) [.uuid "claim", .uuid "r2"]).any
      (fun out => test out.2) = true) :
    ∃ out w', Ends (.failing faults.refuses) (enqueueDueJob .simple "A" "j") (.fresh st) out w' ∧ test w' = true := by
  obtain ⟨out, ends, passes⟩ := Ends.exists_of_play (.failing faults.refuses) le_refl (fun out => test out.2) played
  exact ⟨out, _, ends, passes⟩

/-- `create_run` fails, and the job is due as before. -/
theorem leaves_no_trace_uncreated : ∃ w', (tickRecord w').failed = true ∧
    LeavesNoTrace [0] (seconds 60) minutelyJob (.fresh (State.single minutelyJob (seconds 60))) w' := by
  obtain ⟨out, w', ends, failed⟩ := exists_enqueued { TickFaults.none with createRun := some (.internal "down") }
    (State.single minutelyJob (seconds 60)) (fun w' => (tickRecord w').failed) (by decide +kernel)
  refine ⟨w', failed, (leaves_no_trace_iff rfl (by decide) ends).mpr ?_⟩
  have limit : ¬ minutelyJob.concurrency ≤ TickFaults.counted { TickFaults.none with createRun := some (.internal "down") }
      (State.single minutelyJob (seconds 60)).store minutelyJob.jobId := by decide
  have gate : ¬ passesGate (State.single minutelyJob (seconds 60)).clock minutelyJob = false := by decide
  rw [TickFaults.Traceless, if_neg (by decide), if_neg (by decide), if_neg limit, if_neg gate, if_neg (by decide),
    if_pos (by decide)]
  exact .inr ⟨rfl, rfl, rfl⟩

/-- A tick of a due job that leaves a trace. -/
def LeavesTrace (row : Job) (st : State) : Prop :=
  (World.fresh st).job row.jobId = some row ∧ Store.isDue st.clock [0] (seconds 60) row = true ∧
    ∃ faults out w', Ends (.failing (TickFaults.refuses faults)) (enqueueDueJob .simple "A" row.jobId) (.fresh st) out w' ∧
      ¬ LeavesNoTrace [0] (seconds 60) row (.fresh st) w'

/-- The active runs cannot be counted, and a run is created above the limit; or the job cannot be read, and the tick
claim is kept. -/
theorem created_above_limit :
    LeavesTrace limitedJob limitedState ∧ LeavesTrace minutelyJob (State.single minutelyJob (seconds 60)) := by
  refine ⟨⟨rfl, by decide, ?_⟩, ⟨rfl, by decide, ?_⟩⟩
  · obtain ⟨out, w', ends, passes⟩ := exists_enqueued { TickFaults.none with listRuns := some (.internal "down") }
      limitedState (fun w' => (tickRecord w').failed && (w'.run "r2").isSome) (by decide +kernel)
    rw [Bool.and_eq_true] at passes
    refine ⟨_, out, w', ends, fun noTrace => ?_⟩
    have created := passes.2
    rw [(noTrace passes.1).1 "r2"] at created
    exact absurd created (by decide)
  · obtain ⟨out, w', ends, passes⟩ := exists_enqueued { TickFaults.none with getJob := some (.internal "down") }
      (State.single minutelyJob (seconds 60)) (fun w' => ((tickRecord w').failed && !(tickRecord w').releaseFailed) &&
        (w'.job "j").any (·.claimLeaseId.isSome)) (by decide +kernel)
    simp only [Bool.and_eq_true, Bool.not_eq_true'] at passes
    refine ⟨_, out, w', ends, fun noTrace => ?_⟩
    obtain ⟨row, stored, restored⟩ := (noTrace passes.1.1).2 passes.1.2
    have kept := passes.2
    rw [show w'.job "j" = some row from stored, Option.any_some, restored.unclaimed.1] at kept
    cases kept

end Chronon
