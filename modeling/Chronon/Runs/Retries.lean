import Chronon.Runs.Terminal

/-!
# A failed attempt is retried once

`finalize_failed_run` stores the failure and then inserts the retry under a
fresh identifier, so two finalizations of one run insert two retries. While no
`update_run` finds its run stored as failed, only one task ever stores the
failure of a run, and it owes at most one retry (`RetryTrace`). What follows for
the number of runs of a job is in `Chains.lean`.
-/

namespace Chronon
set_option autoImplicit false

open Concurrent

/-! ## Retries in the history -/

/-- The failed run a task stored last, if it has created no run since. -/
def owesAfter (e : LogEntry) (last : Option Run) : Option Run :=
  match e with
  | ⟨_, _, .store (.updateRun run), .ok ()⟩ => if run.status.isFailure then some run else none
  | ⟨_, _, .store (.createRun _), .ok ()⟩ => none
  | _ => last

def owes (p : Nat) (log : Log) : Option Run := track owesAfter none p log

/-- The retries of run `id`: what tasks that had just failed it created, first attempts aside. -/
def retriesOf (id : String) : Log → List Run
  | [] => []
  | e :: older =>
    match createdRun e with
    | some run =>
      if run.attempt ≠ 1 ∧ (owes e.pid older).any (·.runId == id) = true then run :: retriesOf id older
      else retriesOf id older
    | none => retriesOf id older

/-- The runs created for job `j`. -/
def createdFor (j : String) (log : Log) : List Run := (log.filterMap createdRun).filter (·.jobId == some j)

/-- The first attempts among them. -/
def firstAttempts (j : String) (log : Log) : List Run := (createdFor j log).filter (·.attempt == 1)

/-- Every call found a retry policy of `j` with at most `m` attempts. -/
def PolicyWithin (j : String) (m : Nat) (log : Log) : Prop :=
  ∀ e ∈ log, ∀ row ∈ e.found.store.jobs.lookup j, row.retryPolicy.maxAttempts ≤ m

/-! ## The setting -/

/-- A write does not find its run failed. -/
def FindsUnfailed (l : SystemLabel) (w : World) : Prop :=
  ∀ run ∈ updated l, ∀ row ∈ w.run run.runId, row.status.isFailure = false

instance (l : SystemLabel) (w : World) : Decidable (FindsUnfailed l w) :=
  inferInstanceAs (Decidable (∀ run ∈ updated l, _))

/-! ## One retry for each run -/

/-- Nobody owes a retry of run `id`. -/
def Unowed (id : String) (w : World) : Prop := ∀ p run, owes p w.log = some run → run.runId ≠ id

/-- The stored run has failed. -/
def StoredFailed (id : String) (w : World) : Prop := ∃ row, w.run id = some row ∧ row.status.isFailure = true

/-- Where the retry of run `id` stands. -/
inductive RetryTrace (id : String) (w : World) : Prop
  | unfailed : retriesOf id w.log = [] → Unowed id w → RetryTrace id w
  | owed (p : Nat) : retriesOf id w.log = [] → (∀ q run, owes q w.log = some run → run.runId = id → q = p) →
      StoredFailed id w → RetryTrace id w
  | settled : (retriesOf id w.log).length ≤ 1 → Unowed id w → StoredFailed id w → RetryTrace id w

theorem RetryTrace.atMostOne {id : String} {w : World} (trace : RetryTrace id w) : (retriesOf id w.log).length ≤ 1 := by
  cases trace with
  | unfailed none_ _ => rw [none_]; exact Nat.zero_le 1
  | owed _ none_ _ _ => rw [none_]; exact Nat.zero_le 1
  | settled one _ _ => exact one

/-- A task that owes a retry of run `id` is the only one, and it has not been created. -/
theorem RetryTrace.owing {id : String} {w : World} {p : Nat} {run : Run} (trace : RetryTrace id w)
    (mine : owes p w.log = some run) (onRun : run.runId = id) :
    retriesOf id w.log = [] ∧ (∀ q run', owes q w.log = some run' → run'.runId = id → q = p) ∧ StoredFailed id w := by
  cases trace with
  | unfailed _ nobody => exact absurd onRun (nobody p run mine)
  | settled _ nobody _ => exact absurd onRun (nobody p run mine)
  | owed p' none_ only failed =>
    obtain rfl := only p run mine onRun
    exact ⟨none_, only, failed⟩

section Step

variable {host : Host} {id : String} {p q : Nat} {oracle : Oracle} {w w' : World} {φ φ' : Phase} {op : Op} {r : Ans op}

theorem owes_other (ran : perform p oracle w op = some (r, w')) (apart : q ≠ p) : owes q w'.log = owes q w.log :=
  track_other_call ran (Ne.symm apart)

/-- A creation is a retry of run `id` only if its task owes one. -/
theorem retriesOf_create {run : Run} (ran : perform p oracle w (.store (.createRun run)) = some (.ok (), w')) :
    retriesOf id w'.log =
      if run.attempt ≠ 1 ∧ (owes p w.log).any (·.runId == id) = true then run :: retriesOf id w.log
      else retriesOf id w.log := by
  rw [(perform_cases ran).2]
  rfl

theorem retriesOf_same (ran : perform p oracle w op = some (r, w')) (none_ : createdRun ⟨p, w.state, op, r⟩ = none) :
    retriesOf id w'.log = retriesOf id w.log := by
  rw [(perform_cases ran).2, retriesOf, none_]

theorem StoredFailed.step (failed : StoredFailed id w) (ran : perform p oracle w op = some (r, w'))
    (creates : ∀ run, op = .store (.createRun run) → Drew p run.runId w.log ∧ w.run run.runId = none)
    (early : FindsUnfailed (.call p op r) w) : StoredFailed id w' := by
  obtain ⟨row, stored, failure⟩ := failed
  rcases terminal_kept ran stored (RunStatus.terminal_of_failure failure) creates with same | ⟨run, wrote, -⟩
  · exact ⟨row, same, failure⟩
  · cases wrote with
    | update onRun =>
      subst onRun
      rw [early run rfl row stored] at failure
      cases failure

/-- A step that creates no retry of run `id` and after which nobody owes one who did not before. -/
theorem RetryTrace.calm (trace : RetryTrace id w) (created : retriesOf id w'.log = retriesOf id w.log)
    (owing : ∀ q run, owes q w'.log = some run → run.runId = id → owes q w.log = some run)
    (stays : StoredFailed id w → StoredFailed id w') : RetryTrace id w' := by
  have unowed : Unowed id w → Unowed id w' := fun nobody q run mine onRun => nobody q run (owing q run mine onRun) onRun
  cases trace with
  | unfailed none_ nobody => exact .unfailed (created.trans none_) (unowed nobody)
  | owed p none_ only failed =>
    exact .owed p (created.trans none_) (fun q run mine onRun => only q run (owing q run mine onRun) onRun) (stays failed)
  | settled one nobody failed => exact .settled (by rw [created]; exact one) (unowed nobody) (stays failed)

/-- A task that stores the failure of a run is the first, and from then on owes its retry. -/
theorem RetryTrace.fail {run : Run} (trace : RetryTrace run.runId w)
    (ran : perform p oracle w (.store (.updateRun run)) = some (.ok (), w'))
    (early : ∀ row ∈ w.run run.runId, row.status.isFailure = false) (failure : run.status.isFailure = true) :
    RetryTrace run.runId w' := by
  have open_ : ¬ StoredFailed run.runId w := by
    rintro ⟨row, stored, failed⟩
    rw [early row stored] at failed
    cases failed
  cases trace with
  | owed _ _ _ failed => exact absurd failed open_
  | settled _ _ failed => exact absurd failed open_
  | unfailed none_ nobody =>
    refine .owed p ?_ (fun q run' mine onRun => ?_) ⟨run, perform_updated ran, failure⟩
    · rw [retriesOf_same ran rfl]
      exact none_
    · by_contra apart
      rw [owes_other ran apart] at mine
      exact nobody q run' mine onRun

/-- The retry a task owes is the first of its run. -/
theorem RetryTrace.create {run parent : Run} (trace : RetryTrace id w) (mine : owes p w.log = some parent)
    (onRun : parent.runId = id) (retry : run.attempt ≠ 1)
    (ran : perform p oracle w (.store (.createRun run)) = some (.ok (), w'))
    (stays : StoredFailed id w → StoredFailed id w') : RetryTrace id w' := by
  obtain ⟨none_, only, failed⟩ := trace.owing mine onRun
  refine .settled ?_ (fun q run' mine' onRun' => ?_) (stays failed)
  · rw [retriesOf_create ran, if_pos ⟨retry, by rw [mine]; exact beq_iff_eq.mpr onRun⟩, none_]
    exact Nat.le_refl 1
  · by_cases same : q = p
    · subst same
      rw [owes, track_own_call ran] at mine'
      cases mine'
    · rw [owes_other ran same] at mine'
      exact same (only q run' mine' onRun')

/-- One call keeps the retry of every run accounted for. -/
theorem RetryTrace.step (trace : RetryTrace id w) (ran : perform p oracle w op = some (r, w'))
    (creates : ∀ run, op = .store (.createRun run) → Drew p run.runId w.log ∧ w.run run.runId = none)
    (early : FindsUnfailed (.call p op r) w) : RetryTrace id w' := by
  have stays : StoredFailed id w → StoredFailed id w' := fun failed => failed.step ran creates early
  -- what a task owes changes by its own calls only
  have calm (created : retriesOf id w'.log = retriesOf id w.log)
      (mine : ∀ run, owesAfter ⟨p, w.state, op, r⟩ (owes p w.log) = some run → run.runId = id → owes p w.log = some run) :
      RetryTrace id w' := by
    refine trace.calm created (fun q run owing onRun => ?_) stays
    by_cases same : q = p
    · subst same
      rw [owes, track_own_call ran] at owing
      exact mine run owing onRun
    · rwa [owes_other ran same] at owing
  have other (none_ : createdRun ⟨p, w.state, op, r⟩ = none)
      (mine : owesAfter ⟨p, w.state, op, r⟩ (owes p w.log) = owes p w.log) : RetryTrace id w' :=
    calm (retriesOf_same ran none_) fun run owing _ => by rwa [mine] at owing
  cases op with
  | store c =>
    cases c with
    | updateRun run =>
      cases r with
      | error e => exact other rfl rfl
      | ok =>
        by_cases failure : run.status.isFailure = true
        · by_cases onRun : run.runId = id
          · subst onRun
            exact trace.fail ran (early run rfl) failure
          · refine calm (retriesOf_same ran rfl) fun run' owing onRun' => ?_
            simp only [owesAfter, failure, if_true, Option.some.injEq] at owing
            subst owing
            exact absurd onRun' onRun
        · refine calm (retriesOf_same ran rfl) fun run' owing _ => ?_
          simp [owesAfter, failure] at owing
    | createRun run =>
      cases r with
      | error e => exact other rfl rfl
      | ok =>
        by_cases retry : run.attempt ≠ 1 ∧ (owes p w.log).any (·.runId == id) = true
        · obtain ⟨parent, mine, onRun⟩ := (Option.any_eq_true _ _).mp retry.2
          exact trace.create mine (beq_iff_eq.mp onRun) retry.1 ran stays
        · exact calm (by rw [retriesOf_create ran, if_neg retry]) fun run' owing _ => by cases owing
    | _ => exact other rfl rfl
  | _ => exact other rfl rfl

theorem RetryTrace.drift {e : Env} (trace : RetryTrace id w) (drifts : Chronon.drift e w = some w') :
    RetryTrace id w' := by
  obtain ⟨-, -, runs, log⟩ := drift_cases drifts
  refine trace.calm (by rw [log]) (fun q run mine _ => by rwa [log] at mine) ?_
  rintro ⟨row, stored, failure⟩
  exact ⟨row, (runs id).trans stored, failure⟩

end Step

/-- The rules behind single retries. -/
def retryRules (host : Host) : Rules (system host) (protocol host) fun l w _ => FindsUnfailed l w where
  inv w := DrawnOnce w.log ∧ ∀ id, RetryTrace id w
  guar := FreshStep
  idle _ _ := True
  holds := InsertsFresh
  start _ _ _ := .start
  finish _ _ _ := trivial
  own := by
    intro p φ op r φ' oracle w w' inv fresh move ran early
    exact ⟨⟨inv.1.step ran, fun id => (inv.2 id).step ran (fresh.created move) early⟩,
      ⟨_, _, _, ran, fresh.created move⟩, fresh.own move ran⟩
  other apart inv _ steps fresh := fresh.other inv.1 steps apart
  otherIdle _ _ _ _ _ := trivial
  drift := by
    intro e w w' inv drifts _
    have log := (drift_cases drifts).2.2.2
    exact ⟨⟨by rw [log]; exact inv.1, fun id => (inv.2 id).drift drifts⟩, fun p φ fresh => fresh.drift drifts,
      fun _ _ => trivial⟩

end Chronon
