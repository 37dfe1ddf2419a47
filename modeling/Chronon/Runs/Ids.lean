import Chronon.System.Conformance

/-!
# Run identifiers are fresh

Every run is inserted under an identifier that its task has drawn, nobody else
has drawn, and no row has. So `create_run`, which inserts unconditionally,
never replaces a row.
-/

namespace Chronon
set_option autoImplicit false

open Concurrent

/-- Task `p` drew `id`. -/
def Drew (p : Nat) (id : String) (log : Log) : Prop := ∃ e ∈ log, e.pid = p ∧ draws id e = true

/-- No identifier was drawn by two tasks. -/
def DrawnOnce (log : Log) : Prop := ∀ p q id, Drew p id log → Drew q id log → p = q

theorem DrawnOnce.nil : DrawnOnce [] := by
  rintro p q id ⟨e, inside, -⟩
  cases inside

/-- The identifier under which a task is about to insert a run. -/
def Phase.inserts : Phase → Option String
  | .creating _ _ _ runId | .inserting runId _ _ => some runId
  | _ => none

/-- A task that is about to insert a run drew its identifier, and no row has it. -/
def InsertsFresh (p : Nat) (φ : Phase) (w : World) : Prop :=
  ∀ id, φ.inserts = some id → Drew p id w.log ∧ w.run id = none

/-- One call by `q`, which inserts a run only under an identifier `q` drew and no row has. -/
structure FreshStep (q : Nat) (w w' : World) : Prop where
  stepped : ∃ oracle op r, perform q oracle w op = some (r, w') ∧
    ∀ run, op = .store (.createRun run) → Drew q run.runId w.log ∧ w.run run.runId = none

/-- Whoever creates a run was about to insert it. -/
theorem Move.of_createRun {host : Host} {φ φ' : Phase} {run : Run} {r : Result Unit}
    (move : Move host φ (.store (.createRun run)) r φ') : φ.inserts = some run.runId := by
  cases move with
  | silent quiet => exact quiet.elim
  | create => rfl
  | createFailed => rfl
  | insertFirst same _ _ => exact congrArg some same.symm
  | retry => rfl

section Step

variable {host : Host} {p q : Nat} {id : String} {oracle : Oracle} {w w' : World} {φ φ' : Phase} {op : Op} {r : Ans op}

/-- A drawn identifier is not that of a run, and nobody has drawn it. -/
theorem perform_uuid (ran : perform p oracle w .newUuid = some (id, w')) :
    w.run id = none ∧ ∀ q, ¬ Drew q id w.log := by
  obtain ⟨noRun, -, undrawn⟩ := answer_newUuid (perform_cases ran).1
  refine ⟨noRun, fun q drew => ?_⟩
  obtain ⟨e, inside, -, isDraw⟩ := drew
  exact undrawn e inside isDraw

theorem Drew.later (drew : Drew p id w.log) (ran : perform q oracle w op = some (r, w')) : Drew p id w'.log := by
  obtain ⟨e, inside, own, isDraw⟩ := drew
  rw [(perform_cases ran).2]
  exact ⟨e, List.mem_cons_of_mem _ inside, own, isDraw⟩

/-- What was drawn: before, or just now, and then nobody had. -/
theorem Drew.cases (drew : Drew p id w'.log) (ran : perform q oracle w op = some (r, w')) :
    Drew p id w.log ∨ (p = q ∧ w.run id = none ∧ ∀ p', ¬ Drew p' id w.log) := by
  obtain ⟨e, inside, own, isDraw⟩ := drew
  rw [(perform_cases ran).2, List.mem_cons] at inside
  rcases inside with rfl | before
  · refine .inr ⟨own.symm, ?_⟩
    cases op with
    | newUuid =>
      have same : r = id := beq_iff_eq.mp isDraw
      subst same
      exact perform_uuid ran
    | _ => cases isDraw
  · exact .inl ⟨e, before, own, isDraw⟩

theorem DrawnOnce.step (once : DrawnOnce w.log) (ran : perform p oracle w op = some (r, w')) : DrawnOnce w'.log := by
  intro a b id drewA drewB
  rcases drewA.cases ran with beforeA | ⟨rfl, -, nobody⟩
  · rcases drewB.cases ran with beforeB | ⟨-, -, nobody⟩
    · exact once a b id beforeA beforeB
    · exact absurd beforeA (nobody a)
  · rcases drewB.cases ran with beforeB | ⟨rfl, -, -⟩
    · exact absurd beforeB (nobody b)
    · rfl

/-- A row appears only by being created. -/
theorem perform_run_new {row : Run} (ran : perform q oracle w op = some (r, w')) (absent : w.run id = none)
    (present : w'.run id = some row) : RunWrote id op r (.create row) := by
  have step := perform_run ran id
  rw [absent, present] at step
  generalize change : runWrite id op r = write at step
  cases step with
  | create => exact runWrite_wrote change

theorem perform_run_none (ran : perform q oracle w op = some (r, w')) (absent : w.run id = none)
    (uncreated : ∀ run, op = .store (.createRun run) → run.runId ≠ id) : w'.run id = none := by
  cases present : w'.run id with
  | none => rfl
  | some row =>
    cases perform_run_new ran absent present with
    | create same => exact absurd same (uncreated row rfl)

theorem InsertsFresh.created (fresh : InsertsFresh p φ w) (move : Move host φ op r φ') :
    ∀ run, op = .store (.createRun run) → Drew p run.runId w.log ∧ w.run run.runId = none := by
  rintro run rfl
  exact fresh run.runId move.of_createRun

theorem InsertsFresh.own (fresh : InsertsFresh p φ w) (move : Move host φ op r φ')
    (ran : perform p oracle w op = some (r, w')) : InsertsFresh p φ' w' := by
  have drawn : ∀ {runId : String}, perform p oracle w .newUuid = some (runId, w') →
      Drew p runId w'.log ∧ w'.run runId = none := by
    intro runId ran
    have drew : Drew p runId w'.log := by
      rw [(perform_cases ran).2]
      exact ⟨_, List.mem_cons_self, rfl, beq_self_eq_true _⟩
    exact ⟨drew, perform_run_none ran (perform_uuid ran).1 fun run isCreate => by cases isCreate⟩
  intro id inserts
  cases move with
  | silent quiet =>
    obtain ⟨drew, absent⟩ := fresh id inserts
    refine ⟨drew.later ran, perform_run_none ran absent fun run isCreate => ?_⟩
    subst isCreate
    exact quiet.elim
  | draw | drawFirst | drawRetry => cases inserts; exact drawn ran
  | misfired | admitted | create | createFailed => split at inserts <;> cases inserts
  | checkName => split at inserts <;> cases inserts
  | _ => cases inserts

theorem InsertsFresh.other (fresh : InsertsFresh p φ w) (once : DrawnOnce w.log) (steps : FreshStep q w w')
    (apart : p ≠ q) : InsertsFresh p φ w' := by
  obtain ⟨oracle, op, r, ran, creates⟩ := steps.stepped
  intro id inserts
  obtain ⟨drew, absent⟩ := fresh id inserts
  refine ⟨drew.later ran, perform_run_none ran absent fun run isCreate same => ?_⟩
  subst same
  exact apart (once p q run.runId drew (creates run isCreate).1)

theorem InsertsFresh.drift {e : Env} (fresh : InsertsFresh p φ w) (drifts : Chronon.drift e w = some w') :
    InsertsFresh p φ w' := by
  obtain ⟨-, -, runs, log⟩ := drift_cases drifts
  intro id inserts
  rw [log, runs]
  exact fresh id inserts

theorem InsertsFresh.start {proc : Proc} : InsertsFresh p proc.phase w := by
  cases proc <;> exact fun _ none_ => by cases none_

/-- **A stored run is never created again.** What a call does to a stored run row. -/
theorem perform_run_some {row : Run} (ran : perform p oracle w op = some (r, w')) (stored : w.run id = some row)
    (creates : ∀ run, op = .store (.createRun run) → Drew p run.runId w.log ∧ w.run run.runId = none) :
    ∃ row', w'.run id = some row' ∧
      (row' = row ∨ RunWrote id op r (.update row') ∨
        (∃ poolId workerId now ttl, RunWrote id op r (.claim poolId workerId now ttl) ∧
          Store.claimable poolId now row = true ∧ row' = Store.claimedRun row workerId now ttl) ∨
        (∃ workerId until_, Store.leased row = true ∧ row' = { row with claimLeaseUntil := some until_ } ∧
          RunWrote id op r (.extend workerId until_)) ∨
        (∃ now, RunWrote id op r (.reclaim now) ∧ row' = Store.reclaimed now row)) := by
  have step := perform_run ran id
  rw [stored] at step
  generalize w'.run id = after at step ⊢
  generalize change : runWrite id op r = write at step
  cases step with
  | same => exact ⟨row, rfl, .inl rfl⟩
  | create same =>
    cases runWrite_wrote change
    have absent := (creates _ rfl).2
    rw [same, stored] at absent
    cases absent
  | update same => exact ⟨_, rfl, .inr (.inl (runWrite_wrote change))⟩
  | claim ok => exact ⟨_, rfl, .inr (.inr (.inl ⟨_, _, _, _, runWrite_wrote change, ok, rfl⟩))⟩
  | extend mine active => exact ⟨_, rfl, .inr (.inr (.inr (.inl ⟨_, _, active, rfl, runWrite_wrote change⟩)))⟩
  | reclaim => exact ⟨_, rfl, .inr (.inr (.inr (.inr ⟨_, runWrite_wrote change, rfl⟩)))⟩

/-- A claim hands out the stored row of a claimable run, marked as claimed. -/
theorem perform_take {poolId workerId : String} {now : DateTime} {ttl : Int} {run : Run}
    (ran : perform p oracle w (.store (.claimNextQueued poolId workerId now ttl)) = some (.ok (some run), w')) :
    ∃ old, w.run old.runId = some old ∧ Store.claimable poolId now old = true ∧
      run = Store.claimedRun old workerId now ttl ∧ w'.run run.runId = some run := by
  obtain ⟨none_, -⟩ | ⟨old, stored, free, isRun, after⟩ :=
    Store.claimNextQueued_cases (answer_store (perform_cases ran).1).1
  · cases none_
  · cases isRun
    have isStore : w'.store = w.store.setRun (Store.claimedRun old workerId now ttl) := after
    refine ⟨old, stored, free, rfl, ?_⟩
    rw [World.run, isStore, Store.lookup_setRun, if_pos rfl]

/-- A write that succeeds leaves its row. -/
theorem perform_updated {run : Run} (ran : perform p oracle w (.store (.updateRun run)) = some (.ok (), w')) :
    w'.run run.runId = some run := by
  obtain ⟨-, failed, -⟩ | ⟨_, -, -, after⟩ := Store.updateRun_cases (answer_store (perform_cases ran).1).1
  · cases failed
  · have isStore : w'.store = w.store.setRun run := after
    rw [World.run, isStore, Store.lookup_setRun, if_pos rfl]

/-- Writing a stored run succeeds. -/
theorem perform_update {run row : Run} {r : Result Unit}
    (ran : perform p oracle w (.store (.updateRun run)) = some (r, w')) (stored : w.run run.runId = some row) :
    r = .ok () ∧ w'.run run.runId = some run := by
  have stored : w.store.runs.lookup run.runId = some row := stored
  obtain ⟨missing, -, -⟩ | ⟨_, -, rfl, -⟩ := Store.updateRun_cases (answer_store (perform_cases ran).1).1
  · rw [stored] at missing
    cases missing
  · exact ⟨rfl, perform_updated ran⟩

end Step

end Chronon
