import Chronon.Runs.Retries
import Mathlib.Algebra.Order.BigOperators.Group.List
import Mathlib.Algebra.Order.Ring.Nat

/-!
# How many runs a job gets

Every run of a job starts a chain of retries, each of which follows an attempt
the policy allows. A created run that has not been retried reserves what its
chain may still grow by (`budget`); a retry is paid for by the reserve of the
run it retries, so created runs and reserves together stay within
`1 + max_attempts` for each first attempt (`Ledger`).
-/

namespace Chronon
set_option autoImplicit false

open Concurrent

/-- How far the chain of a run may still grow under a policy of `m` attempts. -/
def budget (m : Nat) (run : Run) : Nat := if 0 < run.attempt ∧ run.attempt ≤ m then m + 1 - run.attempt.toNat else 0

/-- What run `run` reserves: its budget until it is retried. -/
def reserved (m : Nat) (log : Log) (run : Run) : Nat := if retriesOf run.runId log = [] then budget m run else 0

/-- The reserves of the runs of job `j`. -/
def reserve (j : String) (m : Nat) (log : Log) : Nat := ((createdFor j log).map (reserved m log)).sum

/-- The runs of job `j` and what they reserve are paid for by its first attempts. -/
def Ledger (j : String) (m : Nat) (log : Log) : Prop :=
  (createdFor j log).length + reserve j m log ≤ (1 + m) * (firstAttempts j log).length

/-- A run of job `j` was created with the attempt it has. -/
def Born (j : String) (log : Log) (run : Run) : Prop :=
  run.jobId = some j → ∃ first ∈ createdFor j log, first.runId = run.runId ∧ first.attempt = run.attempt

/-- The copy of a run in a task's hands. -/
def Phase.hand : Phase → Option Run
  | .copied _ run _ | .retrying run _ | .inserting _ (some run) _ => some run
  | _ => none

/-- The failed run a task is going to retry. -/
def Phase.retryOf : Phase → Option Run
  | .retrying run _ | .inserting _ (some run) _ => some run
  | _ => none

/-- The moves to the retry of a failed run. -/
inductive ToRetry (host : Host) : Phase → (op : Op) → Ans op → Run → Prop
  | silent {φ : Phase} {op : Op} {r : Ans op} {run : Run} : Silent op → φ.retryOf = some run → ToRetry host φ op r run
  | draw {run : Run} {job : Job} {runId : String} : ToRetry host (.retrying run job) .newUuid runId run
  | fail {worker : Option String} {run run' : Run} {job : Job} : run'.identity = run.identity →
      run'.status.isFailure = true → job.retryPolicy.shouldRetry run'.attempt = true →
      ToRetry host (.copied worker run (some job)) (.store (.updateRun run')) (.ok ()) run'

theorem Move.toRetry {host : Host} {φ φ' : Phase} {op : Op} {r : Ans op} {run : Run} (move : Move host φ op r φ')
    (isParent : φ'.retryOf = some run) : ToRetry host φ op r run := by
  cases move with
  | silent quiet => exact .silent quiet isParent
  | drawRetry =>
    cases isParent
    exact .draw
  | fail _ same _ failure allowed =>
    cases isParent
    exact .fail same failure allowed
  | misfired | admitted | create | createFailed => split at isParent <;> cases isParent
  | checkName => split at isParent <;> cases isParent
  | _ => cases isParent

/-- A run is in a task's hands as a copy, or as the failed run it retries. -/
theorem Phase.hand_cases {φ : Phase} {run : Run} (hand : φ.hand = some run) :
    (∃ worker job, φ = .copied worker run job) ∨ φ.retryOf = some run := by
  unfold Phase.hand at hand
  split at hand <;> cases hand
  · exact .inl ⟨_, _, rfl⟩
  · exact .inr rfl
  · exact .inr rfl

theorem Phase.hand_of_retryOf {φ : Phase} {run : Run} (isParent : φ.retryOf = some run) : φ.hand = some run := by
  unfold Phase.retryOf at isParent
  split at isParent <;> cases isParent <;> rfl

structure ChainInv (j : String) (m : Nat) (w : World) : Prop where
  once : DrawnOnce w.log
  retried : ∀ id, RetryTrace id w
  stored : ∀ id row, w.run id = some row → Born j w.log row
  attempts : ∀ run ∈ createdFor j w.log, run.attempt ≤ 2147483647
  ledger : PolicyWithin j m w.log → Ledger j m w.log

/-- What a task asserts. -/
structure ChainHolds (j : String) (m p : Nat) (φ : Phase) (w : World) : Prop where
  fresh : InsertsFresh p φ w
  born : ∀ run, φ.hand = some run → Born j w.log run
  policy : ∀ worker run job, φ = .copied worker run (some job) → run.jobId ≠ none ∧
    (run.jobId = some j → PolicyWithin j m w.log → job.retryPolicy.maxAttempts ≤ m)
  owing : ∀ run, φ.retryOf = some run → owes p w.log = some run ∧ run.jobId ≠ none ∧
    (run.jobId = some j → PolicyWithin j m w.log → 0 < run.attempt ∧ run.attempt ≤ m)

/-! ## Budgets -/

theorem wrapI32_le (n : Int) : wrapI32 n ≤ 2147483647 := by
  unfold wrapI32
  omega

theorem budget_le (m : Nat) (run : Run) : budget m run ≤ m := by
  unfold budget
  split <;> omega

/-- The retry of an attempt within the policy has a smaller budget, and is no first attempt. -/
theorem budget_retry {m : Nat} {run : Run} (runId : String) (scheduledFor : DateTime)
    (within : 0 < run.attempt ∧ run.attempt ≤ m) (bounded : run.attempt ≤ 2147483647) :
    budget m (retryRun run runId scheduledFor) + 1 ≤ budget m run ∧ (retryRun run runId scheduledFor).attempt ≠ 1 := by
  have next : (retryRun run runId scheduledFor).attempt = wrapI32 (run.attempt + 1) := rfl
  simp only [budget, next, if_pos within, wrapI32]
  constructor
  · split <;> omega
  · omega

/-- What sums to less: every term, and one by `d`. -/
theorem sum_map_add_le {f g : Run → Nat} {d : Nat} {run : Run} {runs : List Run} (inside : run ∈ runs)
    (less : ∀ run, f run ≤ g run) (saved : f run + d ≤ g run) : (runs.map f).sum + d ≤ (runs.map g).sum := by
  obtain ⟨before, after, rfl⟩ := List.append_of_mem inside
  have left : (before.map f).sum ≤ (before.map g).sum := List.sum_le_sum fun run _ => less run
  have right : (after.map f).sum ≤ (after.map g).sum := List.sum_le_sum fun run _ => less run
  simp only [List.map_append, List.map_cons, List.sum_append, List.sum_cons]
  omega

section Step

variable {host : Host} {j : String} {m p q : Nat} {oracle : Oracle} {w w' : World} {φ φ' : Phase} {op : Op} {r : Ans op}

theorem PolicyWithin.before (within : PolicyWithin j m w'.log) (ran : perform p oracle w op = some (r, w')) :
    PolicyWithin j m w.log := by
  rw [(perform_cases ran).2] at within
  exact fun e inside => within e (List.mem_cons_of_mem _ inside)

theorem PolicyWithin.found {row : Job} (within : PolicyWithin j m w'.log) (ran : perform p oracle w op = some (r, w'))
    (stored : w.job j = some row) : row.retryPolicy.maxAttempts ≤ m := by
  rw [(perform_cases ran).2] at within
  exact within _ List.mem_cons_self row stored

/-- A call creates no run of job `j`, or one. -/
theorem createdFor_cases (j : String) (ran : perform p oracle w op = some (r, w')) :
    createdFor j w'.log = createdFor j w.log ∨
      ∃ run, op = .store (.createRun run) ∧ HEq r (Except.ok () : Result Unit) ∧ run.jobId = some j ∧
        createdFor j w'.log = run :: createdFor j w.log := by
  rw [(perform_cases ran).2, createdFor, createdFor]
  cases created : createdRun ⟨p, w.state, op, r⟩ with
  | none => exact .inl (by rw [List.filterMap_cons_none created])
  | some run =>
    obtain ⟨isCreate, ok⟩ := createdRun_eq_some created
    rw [List.filterMap_cons_some created]
    by_cases onJob : run.jobId = some j
    · exact .inr ⟨run, isCreate, ok, onJob, List.filter_cons_of_pos (by simpa using onJob)⟩
    · exact .inl (List.filter_cons_of_neg (by simpa using onJob))

/-- Created runs stay created. -/
theorem createdFor_subset (ran : perform p oracle w op = some (r, w')) {run : Run} (inside : run ∈ createdFor j w.log) :
    run ∈ createdFor j w'.log := by
  rcases createdFor_cases j ran with same | ⟨_, -, -, -, created⟩
  · rwa [same]
  · rw [created]
    exact List.mem_cons_of_mem _ inside

theorem createdFor_created {run : Run} (ran : perform p oracle w (.store (.createRun run)) = some (.ok (), w'))
    (onJob : run.jobId = some j) : run ∈ createdFor j w'.log := by
  rw [(perform_cases ran).2]
  exact List.mem_filter.mpr ⟨List.mem_filterMap.mpr ⟨_, List.mem_cons_self, rfl⟩, by simpa using onJob⟩

/-- A run is created as a first attempt, or as the retry of what its task has in hand. -/
theorem Move.created_cases {run : Run} {r : Result Unit} (move : Move host φ (.store (.createRun run)) r φ') :
    run.attempt = 1 ∨
      ∃ runId parent job scheduledFor, φ = .inserting runId (some parent) job ∧ run = retryRun parent runId scheduledFor := by
  cases move with
  | silent quiet => exact quiet.elim
  | create => exact .inl rfl
  | createFailed => exact .inl rfl
  | insertFirst _ first _ => exact .inl first
  | retry => exact .inr ⟨_, _, _, _, rfl, rfl⟩

/-- A task writes a run it has a copy of. -/
theorem Move.of_updateRun {run' : Run} {r : Result Unit} (move : Move host φ (.store (.updateRun run')) r φ') :
    ∃ worker run job, φ = .copied worker run job ∧ run'.identity = run.identity := by
  cases move with
  | silent quiet => exact quiet.elim
  | start _ same _ => exact ⟨_, _, _, rfl, same⟩
  | startFailed _ same _ => exact ⟨_, _, _, rfl, same⟩
  | finish _ same _ => exact ⟨_, _, _, rfl, same⟩
  | fail _ same _ _ _ => exact ⟨_, _, _, rfl, same⟩

/-! ## The ledger -/

theorem Born.same {log : Log} {run run' : Run} (born : Born j log run) (job : run'.jobId = run.jobId)
    (id : run'.runId = run.runId) (attempt : run'.attempt = run.attempt) : Born j log run' := by
  intro isJob
  rw [id, attempt]
  exact born (job ▸ isJob)

theorem Born.identity {log : Log} {run run' : Run} (born : Born j log run) (same : run'.identity = run.identity) :
    Born j log run' := born.same (identity_jobId same) (identity_runId same) (identity_attempt same)

theorem Born.later {run : Run} (born : Born j w.log run) (ran : perform p oracle w op = some (r, w')) :
    Born j w'.log run := by
  intro isJob
  obtain ⟨first, inside, same⟩ := born isJob
  exact ⟨first, createdFor_subset ran inside, same⟩

/-- Reserves only shrink. -/
theorem reserved_le (ran : perform p oracle w op = some (r, w')) (run : Run) :
    reserved m w'.log run ≤ reserved m w.log run := by
  cases created : createdRun ⟨p, w.state, op, r⟩ with
  | none => rw [reserved, retriesOf_same ran created, reserved]
  | some run' =>
    obtain ⟨rfl, ok⟩ := createdRun_eq_some created
    cases ok
    rw [reserved, retriesOf_create ran, reserved]
    split
    · rename_i retry; rw [if_neg (List.cons_ne_nil _ _)]; exact Nat.zero_le _
    · exact le_refl _

theorem reserved_le_budget (m : Nat) (log : Log) (run : Run) : reserved m log run ≤ budget m run := by
  unfold reserved
  split
  · exact le_refl _
  · exact Nat.zero_le _

/-- A call that creates no run of job `j` keeps its ledger. -/
theorem Ledger.unrelated (ledger : Ledger j m w.log) (ran : perform p oracle w op = some (r, w'))
    (same : createdFor j w'.log = createdFor j w.log) : Ledger j m w'.log := by
  have less : reserve j m w'.log ≤ reserve j m w.log := by
    rw [reserve, same]
    exact List.sum_le_sum fun run _ => reserved_le ran run
  rw [Ledger, firstAttempts, same]
  exact le_trans (Nat.add_le_add_left less _) ledger

/-- A first attempt pays for itself and for its chain. -/
theorem Ledger.first {run : Run} (ledger : Ledger j m w.log) (ran : perform p oracle w op = some (r, w'))
    (created : createdFor j w'.log = run :: createdFor j w.log) (first : run.attempt = 1) : Ledger j m w'.log := by
  have less : ((createdFor j w.log).map (reserved m w'.log)).sum ≤ reserve j m w.log :=
    List.sum_le_sum fun run _ => reserved_le ran run
  have own : reserved m w'.log run ≤ m := le_trans (reserved_le_budget m _ run) (budget_le m run)
  have counted : (firstAttempts j w'.log).length = (firstAttempts j w.log).length + 1 := by
    rw [firstAttempts, created, List.filter_cons_of_pos (by simpa using first), List.length_cons, firstAttempts]
  unfold Ledger at ledger ⊢
  rw [counted, reserve, created, List.length_cons, List.map_cons, List.sum_cons, Nat.mul_add]
  omega

/-- A retry is paid for by the reserve of the run it retries. -/
theorem Ledger.retry {run first : Run} (ledger : Ledger j m w.log) (ran : perform p oracle w op = some (r, w'))
    (created : createdFor j w'.log = run :: createdFor j w.log) (later : run.attempt ≠ 1)
    (inside : first ∈ createdFor j w.log) (unretried : retriesOf first.runId w.log = [])
    (retried : retriesOf first.runId w'.log ≠ []) (cheaper : budget m run + 1 ≤ budget m first) :
    Ledger j m w'.log := by
  have saved : reserved m w'.log first + budget m first ≤ reserved m w.log first := by
    rw [reserved, if_neg retried, reserved, if_pos unretried, Nat.zero_add]
  have less : ((createdFor j w.log).map (reserved m w'.log)).sum + budget m first ≤ reserve j m w.log :=
    sum_map_add_le inside (reserved_le ran) saved
  have own : reserved m w'.log run ≤ budget m run := reserved_le_budget m _ run
  have counted : firstAttempts j w'.log = firstAttempts j w.log := by
    rw [firstAttempts, created, List.filter_cons_of_neg (by simpa using later), firstAttempts]
  unfold Ledger at ledger ⊢
  rw [counted, reserve, created, List.length_cons, List.map_cons, List.sum_cons]
  omega

/-- What a task about to retry run `parent` of job `j` knows. -/
theorem ChainHolds.parent {parent : Run} (holds : ChainHolds j m p φ w) (inv : ChainInv j m w)
    (isParent : φ.retryOf = some parent) (onJob : parent.jobId.getD "" = j) (within : PolicyWithin j m w.log) :
    ∃ first ∈ createdFor j w.log, first.runId = parent.runId ∧ first.attempt = parent.attempt ∧
      (0 < parent.attempt ∧ parent.attempt ≤ m) ∧ parent.attempt ≤ 2147483647 := by
  obtain ⟨-, named, policy⟩ := holds.owing parent isParent
  have isJob : parent.jobId = some j := by
    cases job : parent.jobId with
    | none => exact absurd job named
    | some j' => rw [← onJob, job]; rfl
  have hand : φ.hand = some parent := by
    cases φ with
    | retrying => exact isParent
    | inserting _ retryOf _ => cases retryOf <;> exact isParent
    | _ => cases isParent
  obtain ⟨first, inside, sameId, sameAttempt⟩ := holds.born parent hand isJob
  exact ⟨first, inside, sameId, sameAttempt, policy isJob within, sameAttempt ▸ inv.attempts first inside⟩

theorem ChainInv.ledger_step (inv : ChainInv j m w) (holds : ChainHolds j m p φ w) (move : Move host φ op r φ')
    (ran : perform p oracle w op = some (r, w')) (within : PolicyWithin j m w'.log) : Ledger j m w'.log := by
  have ledger := inv.ledger (within.before ran)
  rcases createdFor_cases j ran with same | ⟨run, rfl, ok, onJob, created⟩
  · exact ledger.unrelated ran same
  · cases ok
    rcases move.created_cases with first | ⟨runId, parent, job, scheduledFor, rfl, rfl⟩
    · exact ledger.first ran created first
    · obtain ⟨first, inside, sameId, sameAttempt, allowed, bounded⟩ :=
        holds.parent inv rfl (Option.some.inj onJob) (within.before ran)
      obtain ⟨mine, -, -⟩ := holds.owing parent rfl
      obtain ⟨cheaper, later⟩ := budget_retry runId scheduledFor allowed bounded
      refine ledger.retry ran created later inside ?_ ?_ ?_
      · rw [sameId]
        exact ((inv.retried parent.runId).owing mine rfl).1
      · rw [retriesOf_create ran, if_pos ⟨later, by rw [mine, sameId]; exact beq_self_eq_true _⟩]
        exact List.cons_ne_nil _ _
      · simpa only [budget, sameAttempt] using cheaper

theorem ChainInv.attempts_step (inv : ChainInv j m w) (move : Move host φ op r φ')
    (ran : perform p oracle w op = some (r, w')) : ∀ run ∈ createdFor j w'.log, run.attempt ≤ 2147483647 := by
  rcases createdFor_cases j ran with same | ⟨run, rfl, ok, onJob, created⟩
  · rw [same]
    exact inv.attempts
  · rw [created, List.forall_mem_cons]
    refine ⟨?_, inv.attempts⟩
    rcases move.created_cases with first | ⟨runId, parent, job, scheduledFor, -, rfl⟩
    · rw [first]; decide
    · exact wrapI32_le _

/-- The rows of job `j` were all created. -/
theorem ChainInv.stored_step (inv : ChainInv j m w) (holds : ChainHolds j m p φ w) (move : Move host φ op r φ')
    (ran : perform p oracle w op = some (r, w')) (id : String) (row : Run) (after : w'.run id = some row) :
    Born j w'.log row := by
  cases before : w.run id with
  | none =>
    cases perform_run_new ran before after with
    | create _ =>
      intro onJob
      exact ⟨row, createdFor_created ran onJob, rfl, rfl⟩
  | some old =>
    have born := (inv.stored id old before).later ran
    obtain ⟨row', after', rfl | wrote | ⟨_, _, _, _, -, -, rfl⟩ | ⟨_, _, -, rfl, -⟩ | ⟨now, -, rfl⟩⟩ :=
      perform_run_some ran before (holds.fresh.created move)
    all_goals rw [after'] at after; cases after
    · exact born
    · cases wrote with
      | update _ =>
        obtain ⟨worker, run, job, rfl, same⟩ := move.of_updateRun
        exact ((holds.born run rfl).later ran).identity same
    · exact born.same rfl rfl rfl
    · exact born.same rfl rfl rfl
    · unfold Store.reclaimed
      split
      · exact born.same rfl rfl rfl
      · exact born

/-! ## The tasks -/

theorem owesAfter_silent {s : State} {last : Option Run} (quiet : Silent op) : owesAfter ⟨p, s, op, r⟩ last = last := by
  cases op with
  | store c => cases c <;> first | rfl | exact quiet.elim
  | _ => rfl

theorem ChainHolds.born_own (holds : ChainHolds j m p φ w) (inv : ChainInv j m w) (move : Move host φ op r φ')
    (ran : perform p oracle w op = some (r, w')) : ∀ run, φ'.hand = some run → Born j w'.log run := by
  intro run hand
  rcases Phase.hand_cases hand with ⟨worker, job, rfl⟩ | isParent
  · cases move.toCopy with
    | take =>
      obtain ⟨old, stored, -, rfl, -⟩ := perform_take ran
      exact ((inv.stored _ old stored).later ran).same rfl rfl rfl
    | read => exact (inv.stored _ run (perform_getRun ran)).later ran
    | silent _ | readJob _ | readNoJob _ | execute => exact (holds.born run rfl).later ran
    | start _ same _ => exact ((holds.born _ rfl).later ran).identity same
  · cases move.toRetry isParent with
    | silent _ isParent => exact (holds.born run (Phase.hand_of_retryOf isParent)).later ran
    | draw => exact (holds.born run rfl).later ran
    | fail same _ _ => exact ((holds.born _ rfl).later ran).identity same

theorem ChainHolds.policy_own {worker : Option String} {run : Run} {job : Job} (holds : ChainHolds j m p φ w)
    (copy : ToCopy host φ op r worker run (some job)) (ran : perform p oracle w op = some (r, w')) :
    run.jobId ≠ none ∧ (run.jobId = some j → PolicyWithin j m w'.log → job.retryPolicy.maxAttempts ≤ m) := by
  cases copy with
  | silent _ | execute =>
    obtain ⟨named, bound⟩ := holds.policy _ _ _ rfl
    exact ⟨named, fun onJob within => bound onJob (within.before ran)⟩
  | readJob isJob =>
    refine ⟨by rw [isJob]; exact Option.some_ne_none _, fun onJob within => within.found ran ?_⟩
    rw [isJob] at onJob
    exact Option.some.inj onJob ▸ perform_getJob ran
  | start _ same _ =>
    obtain ⟨named, bound⟩ := holds.policy _ _ _ rfl
    rw [identity_jobId same]
    exact ⟨named, fun onJob within => bound onJob (within.before ran)⟩

theorem ChainHolds.owing_own (holds : ChainHolds j m p φ w) (move : Move host φ op r φ')
    (ran : perform p oracle w op = some (r, w')) (run : Run) (isParent : φ'.retryOf = some run) :
    owes p w'.log = some run ∧ run.jobId ≠ none ∧
      (run.jobId = some j → PolicyWithin j m w'.log → 0 < run.attempt ∧ run.attempt ≤ m) := by
  have own : owes p w'.log = owesAfter ⟨p, w.state, op, r⟩ (owes p w.log) := track_own_call ran
  rw [own]
  cases move.toRetry isParent with
  | silent quiet isParent =>
    obtain ⟨mine, named, bound⟩ := holds.owing run isParent
    rw [owesAfter_silent quiet]
    exact ⟨mine, named, fun onJob within => bound onJob (within.before ran)⟩
  | draw =>
    obtain ⟨mine, named, bound⟩ := holds.owing run rfl
    exact ⟨mine, named, fun onJob within => bound onJob (within.before ran)⟩
  | fail same failure allowed =>
    obtain ⟨named, bound⟩ := holds.policy _ _ _ rfl
    rw [identity_jobId same]
    refine ⟨by simp [owesAfter, failure], named, fun onJob within => ?_⟩
    have most := bound onJob (within.before ran)
    simp only [RetryPolicy.shouldRetry, Bool.and_eq_true, decide_eq_true_eq] at allowed
    omega

theorem ChainHolds.own (holds : ChainHolds j m p φ w) (inv : ChainInv j m w) (move : Move host φ op r φ')
    (ran : perform p oracle w op = some (r, w')) : ChainHolds j m p φ' w' :=
  ⟨holds.fresh.own move ran, holds.born_own inv move ran,
    fun _ _ _ isCopy => holds.policy_own (isCopy ▸ move).toCopy ran, holds.owing_own move ran⟩

theorem ChainHolds.other (holds : ChainHolds j m p φ w) (inv : ChainInv j m w) (steps : FreshStep q w w') (apart : p ≠ q) :
    ChainHolds j m p φ w' := by
  obtain ⟨oracle, op, r, ran, -⟩ := steps.stepped
  refine ⟨holds.fresh.other inv.once steps apart, fun run hand => (holds.born run hand).later ran,
    fun worker run job isCopy => ?_, fun run isParent => ?_⟩
  · obtain ⟨named, bound⟩ := holds.policy worker run job isCopy
    exact ⟨named, fun onJob within => bound onJob (within.before ran)⟩
  · obtain ⟨mine, named, bound⟩ := holds.owing run isParent
    rw [owes_other ran apart]
    exact ⟨mine, named, fun onJob within => bound onJob (within.before ran)⟩

theorem ChainHolds.drift {e : Env} (holds : ChainHolds j m p φ w) (drifts : Chronon.drift e w = some w') :
    ChainHolds j m p φ w' := by
  have log := (drift_cases drifts).2.2.2
  refine ⟨holds.fresh.drift drifts, ?_, ?_, ?_⟩
  all_goals rw [log]
  · exact holds.born
  · exact holds.policy
  · exact holds.owing

theorem ChainHolds.start {proc : Proc} : ChainHolds j m p proc.phase w := by
  refine ⟨.start, ?_, ?_, ?_⟩
  all_goals cases proc <;> intros <;> rename_i absurd_ <;> cases absurd_

end Step

/-- The rules behind bounded chains. -/
def chainRules (host : Host) (j : String) (m : Nat) :
    Rules (system host) (protocol host) fun l w _ => FindsUnfailed l w where
  inv := ChainInv j m
  guar := FreshStep
  idle _ _ := True
  holds := ChainHolds j m
  start _ _ _ := .start
  finish _ _ _ := trivial
  own := by
    intro p φ op r φ' oracle w w' inv holds move ran early
    obtain ⟨⟨once, retried⟩, steps, -⟩ := (retryRules host).own ⟨inv.once, inv.retried⟩ holds.fresh move ran early
    exact ⟨⟨once, retried, inv.stored_step holds move ran, inv.attempts_step move ran,
      inv.ledger_step holds move ran⟩, steps, holds.own inv move ran⟩
  other apart inv _ steps holds := holds.other inv steps apart
  otherIdle _ _ _ _ _ := trivial
  drift := by
    intro e w w' inv drifts early
    obtain ⟨-, -, runs, log⟩ := drift_cases drifts
    obtain ⟨⟨once, retried⟩, -, -⟩ := (retryRules host).drift ⟨inv.once, inv.retried⟩ drifts early
    refine ⟨⟨once, retried, fun id row stored => ?_, ?_, ?_⟩, fun p φ holds => holds.drift drifts, fun _ _ => trivial⟩
    all_goals rw [log]
    · exact inv.stored id row ((runs id).symm.trans stored)
    · exact inv.attempts
    · exact inv.ledger

/-- **A failed attempt is retried once.** In every run of any tasks, whatever leases expire, in which no
`update_run` finds its run failed, every run has at most one retry, and a job whose policy never allows more than
`m` retries gets at most `1 + m` runs for each first attempt. -/
theorem failed_run_retried_once (host : Host) {s : State} {c : SystemConfig}
    (reach : (system host).Reach (fun l w _ => FindsUnfailed l w) (.idle (.fresh s)) c) :
    (∀ id, (retriesOf id c.world.log).length ≤ 1) ∧
      ∀ j m, (∀ row ∈ s.store.runs.rows, row.jobId ≠ some j) → PolicyWithin j m c.world.log →
        (createdFor j c.world.log).length ≤ (1 + m) * (firstAttempts j c.world.log).length := by
  have nobody : ∀ id, RetryTrace id (.fresh s) := fun id => .unfailed rfl fun p run mine => by cases mine
  constructor
  · intro id
    have start : (retryRules host).inv (.fresh s) := ⟨.nil, nobody⟩
    exact (((retryRules host).sound (protocol_governs host)
      (Rules.Standing.initial (retryRules host) start fun _ => trivial) reach).inv.2 id).atMostOne
  · intro j m none_ within
    have start : (chainRules host j m).inv (.fresh s) :=
      ⟨.nil, nobody, fun id row stored onJob => absurd onJob (none_ row (Collections.Table.mem_of_lookup stored)),
        fun run created => (by cases created), fun _ => Nat.zero_le _⟩
    have ledger := ((chainRules host j m).sound (protocol_governs host)
      (Rules.Standing.initial (chainRules host j m) start fun _ => trivial) reach).inv.ledger within
    exact le_trans (Nat.le_add_right _ _) ledger

instance (j : String) (m : Nat) (log : Log) : Decidable (PolicyWithin j m log) :=
  inferInstanceAs (Decidable (∀ e ∈ log, _))

/-- The minutely job with `m` retries, at its first fire. -/
def retriedAtFire (m : Nat) : State := .single (minutelyJob.setRetryPolicy ⟨m, 0, 1, 0⟩) (seconds 60)

/-- The script of slot `p` fails, and the slot finalizes the run with a retry under `runId`. -/
def failScript (p : Nat) (runId : String) : List SystemChoice :=
  runScript p (.error (.internal "boom")) ++ calls p 2 ++ draw p runId ++ calls p 1

/-- A run fails, its retry fails, and the policy is used up. -/
theorem failed_run_retried_once_chain :
    ∃ c, (system .simple).Reach (fun l w _ => FindsUnfailed l w) (.idle (.fresh (retriedAtFire 2))) c ∧
      (retriesOf "r" c.world.log).length = 1 ∧ (createdFor "j" c.world.log).length = 3 ∧
      (createdFor "j" c.world.log).length ≤ (1 + 2) * (firstAttempts "j" c.world.log).length := by
  obtain ⟨c, reach, ends⟩ := exists_run .simple (fun l w _ => FindsUnfailed l w) (retriedAtFire 2)
    (startTick 0 "c" false ++ claimNext 0 "t" ++ enqueueRest 0 "r" ++ startSlot 1 "a" ++ calls 1 3 ++ failScript 1 "r2" ++
      startSlot 1 "a" ++ calls 1 3 ++ failScript 1 "r3")
    (fun c => (retriesOf "r" c.world.log).length == 1 && (createdFor "j" c.world.log).length == 3 &&
      decide (PolicyWithin "j" 2 c.world.log)) (by decide +kernel)
  obtain ⟨counts, within⟩ := (Bool.and_eq_true _ _).mp ends
  obtain ⟨one, three⟩ := (Bool.and_eq_true _ _).mp counts
  exact ⟨c, reach, beq_iff_eq.mp one, beq_iff_eq.mp three,
    (failed_run_retried_once .simple reach).2 "j" 2 (fun row stored => (by cases stored)) (of_decide_eq_true within)⟩

/-- The lease of the first slot expires while its script runs; a second slot is given the run. Both scripts fail,
and both slots create a retry. -/
theorem failed_run_retried_twice :
    ∃ c, (system .simple).Reach (fun _ _ _ => True) (.idle (.fresh (retriedAtFire 1))) c ∧
      (retriesOf "r" c.world.log).length = 2 ∧ PolicyWithin "j" 1 c.world.log ∧
      ¬ (createdFor "j" c.world.log).length ≤ (1 + 1) * (firstAttempts "j" c.world.log).length := by
  obtain ⟨c, reach, ends⟩ := exists_run .simple (fun _ _ _ => True) (retriedAtFire 1)
    (startTick 0 "c" false ++ claimNext 0 "t" ++ enqueueRest 0 "r" ++ startSlot 1 "a" ++ calls 1 3 ++
      [.env (.advance (seconds 361)), .start 3 .reclaim] ++ calls 3 3 ++ startSlot 2 "b" ++ calls 2 3 ++
      failScript 2 "r2" ++ failScript 1 "r3")
    (fun c => (retriesOf "r" c.world.log).length == 2 && decide (PolicyWithin "j" 1 c.world.log) &&
      decide (¬ (createdFor "j" c.world.log).length ≤ (1 + 1) * (firstAttempts "j" c.world.log).length))
    (by decide +kernel)
  obtain ⟨counts, beyond⟩ := (Bool.and_eq_true _ _).mp ends
  obtain ⟨two, within⟩ := (Bool.and_eq_true _ _).mp counts
  exact ⟨c, reach, beq_iff_eq.mp two, of_decide_eq_true within, of_decide_eq_true beyond⟩

end Chronon
