import Chronon.Runs.Exclusive

/-!
# The shape of a run row

Which fields a run row has set is determined by its status. Rows are written
field by field (claims, renewals, reclaims) and as whole rows from copies taken
earlier (slots, event handlers, retries), so the shape is an invariant of the
stored rows and of every copy in a task's hands.

Everything that claims a run gives it a lease, so a run that is claimed or
running can be reclaimed. The exception is an executor event: `RunStarted`
accepts a queued run, which nobody has claimed, and stores it as running with
the lease of the copy it read, which is none.
-/

namespace Chronon
set_option autoImplicit false

open Concurrent

/-- What the status of a run row promises about its other fields. -/
structure Run.Shaped (run : Run) : Prop where
  queued : run.status = .queued →
    run.claimedBy = none ∧ run.claimLeaseUntil = none ∧ run.startedAt = none ∧ run.finishedAt = none
  claimed : run.status = .claimed →
    run.claimedBy.isSome = true ∧ run.claimLeaseUntil.isSome = true ∧ run.startedAt = none ∧ run.finishedAt = none
  running : run.status = .running → run.startedAt.isSome = true ∧ run.finishedAt = none
  finished : run.finishedAt.isSome = true ↔ run.status.isTerminal = true

namespace Run.Shaped

variable {run run' : Run}

/-- A run that is not over has no end. -/
theorem open_ (shaped : run.Shaped) (active : run.status.isTerminal = false) : run.finishedAt = none := by
  cases ended : run.finishedAt with
  | none => rfl
  | some t =>
    rw [shaped.finished.mp (by rw [ended]; rfl)] at active
    cases active

theorem of_unstarted (unstarted : run.Unstarted) : run.Shaped where
  queued _ := ⟨unstarted.claimedBy, unstarted.claimLeaseUntil, unstarted.startedAt, unstarted.finishedAt⟩
  claimed isClaimed := by rw [unstarted.status] at isClaimed; cases isClaimed
  running isRunning := by rw [unstarted.status] at isRunning; cases isRunning
  finished := by simp [unstarted.status, unstarted.finishedAt, RunStatus.isTerminal]

theorem of_started (started : run.Started run') (active : run.finishedAt = none) : run'.Shaped where
  queued isQueued := by rw [started.status] at isQueued; cases isQueued
  claimed isClaimed := by rw [started.status] at isClaimed; cases isClaimed
  running _ := ⟨started.startedAt, started.finishedAt.trans active⟩
  finished := by simp [started.status, started.finishedAt, active, RunStatus.isTerminal]

theorem of_finished (finished : run.Finished) : run.Shaped where
  queued isQueued := by have terminal := finished.status; rw [isQueued] at terminal; cases terminal
  claimed isClaimed := by have terminal := finished.status; rw [isClaimed] at terminal; cases terminal
  running isRunning := by have terminal := finished.status; rw [isRunning] at terminal; cases terminal
  finished := ⟨fun _ => finished.status, fun _ => finished.finishedAt⟩

/-- Claiming a queued run. -/
theorem claimedRun (shaped : run.Shaped) (queued : run.status = .queued) (workerId : String) (now : DateTime)
    (ttl : Int) : (Store.claimedRun run workerId now ttl).Shaped := by
  obtain ⟨-, -, unstarted, unfinished⟩ := shaped.queued queued
  refine ⟨fun isQueued => ?_, fun _ => ⟨rfl, rfl, unstarted, unfinished⟩, fun isRunning => ?_, ?_⟩
  · cases isQueued
  · cases isRunning
  · simp [Store.claimedRun, unfinished, RunStatus.isTerminal]

/-- Renewing the lease of a leased run. -/
theorem extended (shaped : run.Shaped) (active : Store.leased run = true) (until_ : DateTime) :
    { run with claimLeaseUntil := some until_ }.Shaped := by
  refine ⟨fun isQueued => ?_, fun isClaimed => ?_, shaped.running, shaped.finished⟩
  · have isQueued : run.status = .queued := isQueued
    rcases Store.status_of_leased active with status | status <;> rw [isQueued] at status <;> cases status
  · obtain ⟨claimed, -, unstarted, unfinished⟩ := shaped.claimed isClaimed
    exact ⟨claimed, rfl, unstarted, unfinished⟩

/-- Putting a run back into the queue. -/
theorem reclaimed (shaped : run.Shaped) (now : DateTime) : (Store.reclaimed now run).Shaped := by
  unfold Store.reclaimed
  split
  · rename_i expired
    simp only [Store.leaseExpired, Bool.and_eq_true] at expired
    have unfinished : run.finishedAt = none := by
      rcases Store.status_of_leased expired.1 with status | status
      · exact (shaped.claimed status).2.2.2
      · exact (shaped.running status).2
    exact of_unstarted ⟨rfl, rfl, rfl, rfl, unfinished⟩
  · exact shaped

end Run.Shaped

/-! ## Copies -/

/-- The copy of a run that a slot or an event handler works on. -/
def Phase.copyOf : Phase → Option (Option String × Run)
  | .copied worker run _ => some (worker, run)
  | _ => none

theorem Phase.copied_of_copyOf {φ : Phase} {worker : Option String} {run : Run}
    (isCopy : φ.copyOf = some (worker, run)) : ∃ job, φ = .copied worker run job := by
  unfold Phase.copyOf at isCopy
  split at isCopy <;> cases isCopy
  exact ⟨_, rfl⟩

/-- What holds of a copy: it has its shape, and that of a slot is leased. -/
structure CopyShaped (worker : Option String) (run : Run) : Prop where
  shaped : run.Shaped
  leased : worker.isSome = true → run.claimLeaseUntil.isSome = true ∧ run.finishedAt = none

/-- What a task asserts. -/
structure ShapeHolds (p : Nat) (φ : Phase) (w : World) : Prop where
  fresh : InsertsFresh p φ w
  copy : ∀ worker run, φ.copyOf = some (worker, run) → CopyShaped worker run

/-- All stored runs have their shape. -/
def RowsShaped (w : World) : Prop := ∀ id row, w.run id = some row → row.Shaped

theorem tickRun_unstarted (job : Job) (runId : String) (scheduledFor : DateTime) :
    (tickRun job runId scheduledFor).Unstarted := ⟨rfl, rfl, rfl, rfl, rfl⟩

theorem retryRun_unstarted (run : Run) (runId : String) (scheduledFor : DateTime) :
    (retryRun run runId scheduledFor).Unstarted := ⟨rfl, rfl, rfl, rfl, rfl⟩

section Step

variable {host : Host} {p q : Nat} {id : String} {oracle : Oracle} {w w' : World} {φ φ' : Phase} {op : Op} {r : Ans op}

/-- Every created run is unstarted. -/
theorem Move.creates_unstarted {run : Run} {r : Result Unit} (move : Move host φ (.store (.createRun run)) r φ') :
    run.Unstarted := by
  cases move with
  | silent quiet => exact quiet.elim
  | create | createFailed => exact tickRun_unstarted _ _ _
  | insertFirst _ _ unstarted => exact unstarted
  | retry => exact retryRun_unstarted _ _ _

/-- A copy that can be started has no end. -/
theorem CopyShaped.startable {worker : Option String} {run : Run} (copy : CopyShaped worker run)
    (waits : worker = none → run.status = .queued ∨ run.status = .claimed) : run.finishedAt = none := by
  cases worker with
  | some workerId => exact (copy.leased rfl).2
  | none =>
    rcases waits rfl with status | status
    · exact (copy.shaped.queued status).2.2.2
    · exact (copy.shaped.claimed status).2.2.2

/-- Every row written back has its shape. -/
theorem ShapeHolds.writes {run : Run} {r : Result Unit} (holds : ShapeHolds p φ w)
    (move : Move host φ (.store (.updateRun run)) r φ') : run.Shaped := by
  cases move with
  | silent quiet => exact quiet.elim
  | start waits _ started => exact .of_started started ((holds.copy _ _ rfl).startable waits)
  | startFailed waits _ started => exact .of_started started ((holds.copy _ _ rfl).startable waits)
  | finish _ _ finished => exact .of_finished finished
  | fail _ _ finished _ _ => exact .of_finished finished

/-- One call keeps the shape of the stored rows. -/
theorem RowsShaped.step (rows : RowsShaped w) (holds : ShapeHolds p φ w) (move : Move host φ op r φ')
    (ran : perform p oracle w op = some (r, w')) : RowsShaped w' := by
  intro id row after
  cases before : w.run id with
  | none =>
    cases perform_run_new ran before after with
    | create _ => exact .of_unstarted move.creates_unstarted
  | some old =>
    have shaped := rows id old before
    obtain ⟨row', after', rfl | wrote | ⟨_, _, _, _, -, free, rfl⟩ | ⟨_, _, active, rfl, -⟩ | ⟨now, -, rfl⟩⟩ :=
      perform_run_some ran before (holds.fresh.created move)
    all_goals rw [after'] at after; cases after
    · exact shaped
    · cases wrote with
      | update _ => exact holds.writes move
    · exact shaped.claimedRun (Store.queued_of_claimable free) _ _ _
    · exact shaped.extended active _
    · exact shaped.reclaimed now

/-- Copies are taken with their shape, and keep it. -/
theorem ShapeHolds.own (holds : ShapeHolds p φ w) (rows : RowsShaped w) (move : Move host φ op r φ')
    (ran : perform p oracle w op = some (r, w')) : ShapeHolds p φ' w' := by
  refine ⟨holds.fresh.own move ran, fun worker run isCopy => ?_⟩
  obtain ⟨job, rfl⟩ := Phase.copied_of_copyOf isCopy
  cases move.toCopy with
  | silent _ | readJob _ | readNoJob _ | execute => exact holds.copy _ _ rfl
  | take =>
    obtain ⟨old, stored, free, rfl, -⟩ := perform_take ran
    have queued := Store.queued_of_claimable free
    have shaped := rows _ old stored
    exact ⟨shaped.claimedRun queued _ _ _, fun _ => ⟨rfl, (shaped.queued queued).2.2.2⟩⟩
  | read => exact ⟨rows _ run (perform_getRun ran), fun slot => by cases slot⟩
  | start waits same started =>
    have copy := holds.copy _ _ rfl
    have unfinished := copy.startable waits
    refine ⟨.of_started started unfinished, fun slot => ⟨?_, started.finishedAt.trans unfinished⟩⟩
    rw [identity_claimLeaseUntil same]
    exact (copy.leased slot).1

theorem ShapeHolds.other (holds : ShapeHolds p φ w) (once : DrawnOnce w.log) (steps : FreshStep q w w') (apart : p ≠ q) :
    ShapeHolds p φ w' := ⟨holds.fresh.other once steps apart, holds.copy⟩

theorem ShapeHolds.start {proc : Proc} : ShapeHolds p proc.phase w :=
  ⟨.start, fun _ _ isCopy => by cases proc <;> cases isCopy⟩

end Step

/-- The rules behind the shape of run rows. -/
def shapeRules (host : Host) : Rules (system host) (protocol host) fun _ _ _ => True where
  inv w := DrawnOnce w.log ∧ RowsShaped w
  guar := FreshStep
  idle _ _ := True
  holds := ShapeHolds
  start _ _ _ := .start
  finish _ _ _ := trivial
  own inv holds move ran _ :=
    ⟨⟨inv.1.step ran, inv.2.step holds move ran⟩, ⟨_, _, _, ran, holds.fresh.created move⟩, holds.own inv.2 move ran⟩
  other apart inv _ steps holds := holds.other inv.1 steps apart
  otherIdle _ _ _ _ _ := trivial
  drift := by
    intro e w w' inv drifts _
    obtain ⟨-, -, runs, log⟩ := drift_cases drifts
    refine ⟨⟨by rw [log]; exact inv.1, fun id row stored => ?_⟩, fun p φ holds => ?_, fun _ _ => trivial⟩
    · exact inv.2 id row ((runs id).symm.trans stored)
    · exact ⟨holds.fresh.drift drifts, holds.copy⟩

/-- **Run rows have the shape their status promises**, in every run of any tasks, late writes and forged
executor events included. -/
theorem stored_runs_shaped (host : Host) {s : State} {c : SystemConfig}
    (initially : ∀ row ∈ s.store.runs.rows, row.Shaped)
    (reach : (system host).Reach (fun _ _ _ => True) (.idle (.fresh s)) c) {id : String} {row : Run}
    (stored : c.world.run id = some row) : row.Shaped := by
  have start : (shapeRules host).inv (.fresh s) :=
    ⟨.nil, fun id row stored => initially row (Collections.Table.mem_of_lookup stored)⟩
  exact ((shapeRules host).sound (protocol_governs host)
    (Rules.Standing.initial (shapeRules host) start fun _ => trivial) reach).inv.2 id row stored

/-- The lease of a slot expires while its script runs, the run is reclaimed and claimed again, and the first slot's
late write overtakes the second slot, whose own copy is still to be written. -/
theorem stored_runs_shaped_late :
    ∃ c, (system .simple).Reach (fun _ _ _ => True) (.idle (.fresh ((State.single minutelyJob 0).withRun queuedRun))) c ∧
      ∃ row, c.world.run "r" = some row ∧ row.status = .running ∧ row.Shaped := by
  obtain ⟨c, reach, ends⟩ := exists_run .simple (fun _ _ _ => True) ((State.single minutelyJob 0).withRun queuedRun)
    (startSlot 0 "a" ++ calls 0 3 ++ [.env (.advance (seconds 301)), .start 2 .reclaim] ++ calls 2 3 ++
      startSlot 1 "b" ++ runScript 0 (.ok ()) ++ calls 0 1 ++ calls 1 3)
    (fun c => (c.world.run "r").any (·.status == .running)) (by decide +kernel)
  obtain ⟨row, stored, running⟩ := (Option.any_eq_true _ _).mp ends
  refine ⟨c, reach, row, stored, beq_iff_eq.mp running, stored_runs_shaped .simple ?_ reach stored⟩
  intro row inside
  obtain rfl := List.mem_singleton.mp inside
  exact .of_unstarted ⟨rfl, rfl, rfl, rfl, rfl⟩

end Chronon
