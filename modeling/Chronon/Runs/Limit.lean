import Chronon.Runs.Work
import Chronon.Tick.Exclusive

/-!
# The concurrency limit of a job

A tick counts the active runs of its job and creates one more only below the
limit. Tick claims make this sequence exclusive, so ticks alone keep the limit.
A failed attempt, however, is stored as finished before its retry is inserted:
in between it is in nobody's count. The invariant therefore counts, besides the
active runs, the tasks that owe a retry and the tick that has been admitted but
has not created its run yet (`LimitInv.room`).

What breaks the sum is a listing made while retries are owed that no longer
fit, and an `update_run` that brings a finished run back or fails it a second
time.
-/

namespace Chronon
set_option autoImplicit false

open Concurrent

/-- What limits the runs of a job. -/
structure Limits where
  concurrency : Int
  retryPolicy : RetryPolicy

def Job.limits (job : Job) : Limits := ⟨job.concurrency, job.retryPolicy⟩

/-- An active run of job `j`. -/
def activeOf (j : String) (run : Run) : Bool := decide (run.jobId = some j) && run.status.isActive

/-- The active runs of job `j`. -/
def activeRuns (j : String) (w : World) : List Run := w.store.runs.rows.filter (activeOf j)

/-- All runs of job `j`. -/
def runsFor (j : String) (w : World) : List Run := w.store.runs.rows.filter fun run => run.jobId = some j

/-! ## Reservations in the history -/

/-- Whether a task owes a retry of a run of job `j` after one of its calls: it has stored a failure the policy
allows to retry, and has created no run since. -/
def owesRetryAfter (j : String) (limits : Limits) (e : LogEntry) (last : Bool) : Bool :=
  match e with
  | ⟨_, _, .store (.updateRun run), .ok ()⟩ =>
    run.jobId == some j && (run.status.isFailure && limits.retryPolicy.shouldRetry run.attempt)
  | ⟨_, _, .store (.createRun _), .ok ()⟩ => false
  | _ => last

/-- The tasks that owe a retry of a run of job `j`. -/
def retriesOwed (j : String) (limits : Limits) (log : Log) : Finset Nat :=
  holders (owesRetryAfter j limits) false id log

/-- Whether a task has counted fewer active runs of job `j` than its limit, and has neither created a run nor given
up its claim since. -/
def admittedAfter (j : String) (limits : Limits) (e : LogEntry) (last : Bool) : Bool :=
  match e with
  | ⟨_, _, .store (.listRunsForJob jobId _), r⟩ => jobId == j && decide (activeCount r < limits.concurrency)
  | ⟨_, _, .store (.createRun _), .ok ()⟩ => false
  | ⟨_, _, .store (.claimJobForTick _ _ _ _), .ok true⟩ => false
  | ⟨_, _, .store (.releaseJobTickClaim _), _⟩ => false
  | ⟨_, _, .store (.persistPostTickJobState _ _), _⟩ => false
  | _ => last

/-- The ticks that are admitted to create a run of job `j`. -/
def admittedTicks (j : String) (limits : Limits) (log : Log) : Finset Nat :=
  holders (admittedAfter j limits) false id log

/-! ## The setting -/

/-- Whether a step starts a `run_now`. -/
def startsRunNow : SystemLabel → Bool
  | .start _ (.runNow _ _ _) => true
  | _ => false

/-- The job a `list_runs_for_job` names. -/
def listedJob : SystemLabel → Option String
  | .call _ (.store (.listRunsForJob jobId _)) _ => some jobId
  | _ => none

/-- Steps in which job `j` is not upserted, no tick lease on it runs out, nobody starts a `run_now`, and a listing of
its runs is not cut off. -/
def LimitSetting (j : String) (l : SystemLabel) (w w' : World) : Prop :=
  NotUpserted j l ∧ LeasesHold j w' ∧ ReleasedInTime j l w ∧ startsRunNow l = false ∧ (runsFor j w).length < 10000

instance (j : String) (l : SystemLabel) (w w' : World) : Decidable (LimitSetting j l w w') :=
  inferInstanceAs (Decidable (_ ∧ _ ∧ _ ∧ _ ∧ _))

/-- An `update_run` that finds a finished run of job `j` neither starts it again nor fails it with a retry. -/
def LeavesFinished (j : String) (limits : Limits) (l : SystemLabel) (w : World) : Prop :=
  ∀ run ∈ updated l, ∀ row ∈ w.run run.runId, row.jobId = some j → row.status.isActive = false →
    run.status.isActive = false ∧ (run.status.isFailure && limits.retryPolicy.shouldRetry run.attempt) = false

instance (j : String) (limits : Limits) (l : SystemLabel) (w : World) : Decidable (LeavesFinished j limits l w) :=
  inferInstanceAs (Decidable (∀ run ∈ updated l, _))

/-- A listing that finds room for one more run of job `j` finds room for the retries that are owed as well. -/
def LeavesRoom (j : String) (limits : Limits) (l : SystemLabel) (w : World) : Prop :=
  listedJob l = some j → ((activeRuns j w).length : Int) < limits.concurrency →
    ((activeRuns j w).length + (retriesOwed j limits w.log).card : Int) < limits.concurrency

instance (j : String) (limits : Limits) (l : SystemLabel) (w : World) : Decidable (LeavesRoom j limits l w) :=
  inferInstanceAs (Decidable (_ → _))

/-- The condition under which the limit is kept. -/
def LimitCondition (j : String) (limits : Limits) (l : SystemLabel) (w : World) : Prop :=
  TrailingReleaseFree j l w ∧ LeavesFinished j limits l w ∧ LeavesRoom j limits l w

instance (j : String) (limits : Limits) (l : SystemLabel) (w : World) : Decidable (LimitCondition j limits l w) :=
  inferInstanceAs (Decidable (_ ∧ _ ∧ _))

/-! ## Active runs -/

/-- The identifiers of the active runs of job `j`. -/
def activeIds (j : String) (w : World) : Finset String := w.store.runs.keysWhere (activeOf j)

theorem mem_activeIds {j id : String} {w : World} :
    id ∈ activeIds j w ↔ ∃ row, w.run id = some row ∧ activeOf j row = true := Collections.Table.mem_keysWhere

theorem card_activeIds (j : String) (w : World) : (activeIds j w).card = (activeRuns j w).length :=
  Collections.Table.card_keysWhere _ _

theorem active_of_leased {run : Run} (leased : Store.leased run = true) : run.status.isActive = true := by
  rcases Store.status_of_leased leased with status | status <;> rw [status] <;> rfl

section Step

variable {host : Host} {s : State} {j id : String} {limits : Limits} {p q : Nat} {oracle : Oracle} {w w' : World}
  {φ φ' : Phase} {op : Op} {r : Ans op}

/-- A run that is active after a call was active before, unless the call created it or wrote it. -/
theorem activeIds_cases (ran : perform p oracle w op = some (r, w'))
    (creates : ∀ run, op = .store (.createRun run) → Drew p run.runId w.log ∧ w.run run.runId = none)
    (inside : id ∈ activeIds j w') :
    id ∈ activeIds j w ∨ ∃ run, activeOf j run = true ∧
      (RunWrote id op r (.create run) ∨ RunWrote id op r (.update run)) := by
  obtain ⟨row, after, active⟩ := mem_activeIds.mp inside
  have was : ∀ old, w.run id = some old → activeOf j old = true → id ∈ activeIds j w :=
    fun old stored wasActive => mem_activeIds.mpr ⟨old, stored, wasActive⟩
  cases before : w.run id with
  | none => exact .inr ⟨row, active, .inl (perform_run_new ran before after)⟩
  | some old =>
    have same : ∀ {status : RunStatus}, old.status = status → status.isActive = true → old.jobId = row.jobId →
        id ∈ activeIds j w := by
      intro status isStatus isActive onJob
      refine was old before ?_
      simp only [activeOf, Bool.and_eq_true] at active ⊢
      exact ⟨by rw [onJob]; exact active.1, by rw [isStatus]; exact isActive⟩
    obtain ⟨row', after', rfl | wrote | ⟨_, _, _, _, -, free, rfl⟩ | ⟨_, _, leased, rfl, -⟩ | ⟨now, -, rfl⟩⟩ :=
      perform_run_some ran before creates
    all_goals rw [after'] at after; cases after
    · exact .inl (was _ before active)
    · exact .inr ⟨row, active, .inr wrote⟩
    · exact .inl (same (Store.queued_of_claimable free) rfl rfl)
    · exact .inl (same rfl (active_of_leased leased) rfl)
    · unfold Store.reclaimed at active same
      split at active
      · rename_i expired
        rw [if_pos expired] at same
        simp only [Store.leaseExpired, Bool.and_eq_true] at expired
        exact .inl (same rfl (active_of_leased expired.1) rfl)
      · exact .inl (was old before active)

theorem activeIds_other (ran : perform p oracle w op = some (r, w'))
    (creates : ∀ run, op = .store (.createRun run) → Drew p run.runId w.log ∧ w.run run.runId = none)
    (uncreated : ∀ id run, ¬ RunWrote id op r (.create run)) (unwritten : ∀ id run, ¬ RunWrote id op r (.update run)) :
    activeIds j w' ⊆ activeIds j w := by
  intro id inside
  rcases activeIds_cases ran creates inside with before | ⟨run, -, created | wrote⟩
  · exact before
  · exact absurd created (uncreated id run)
  · exact absurd wrote (unwritten id run)

theorem activeIds_create {run : Run} (ran : perform p oracle w (.store (.createRun run)) = some (.ok (), w'))
    (creates : Drew p run.runId w.log ∧ w.run run.runId = none) :
    activeIds j w' ⊆ if run.jobId = some j then insert run.runId (activeIds j w) else activeIds j w := by
  intro id inside
  rcases activeIds_cases ran (fun run' same => by cases same; exact creates) inside with
    before | ⟨run', active, created | wrote⟩
  · split
    · exact Finset.mem_insert_of_mem before
    · exact before
  · cases created with
    | create isRun =>
      simp only [activeOf, Bool.and_eq_true, decide_eq_true_eq] at active
      rw [if_pos active.1, isRun]
      exact Finset.mem_insert_self _ _
  · cases wrote

/-- A written run is active if it was written so; the others are untouched. -/
theorem activeIds_update {run : Run} (ran : perform p oracle w (.store (.updateRun run)) = some (.ok (), w')) :
    activeIds j w' ⊆ if activeOf j run = true then insert run.runId (activeIds j w) else (activeIds j w).erase run.runId := by
  intro id inside
  by_cases isRun : run.runId = id
  · subst isRun
    obtain ⟨row, after, active⟩ := mem_activeIds.mp inside
    rw [perform_updated ran] at after
    cases after
    rw [if_pos active]
    exact Finset.mem_insert_self _ _
  · have before : id ∈ activeIds j w := by
      rcases activeIds_cases ran (fun run' same => by cases same) inside with before | ⟨run', -, created | wrote⟩
      · exact before
      · cases created
      · cases wrote with
        | update same => exact absurd same isRun
    split
    · exact Finset.mem_insert_of_mem before
    · exact Finset.mem_erase.mpr ⟨Ne.symm isRun, before⟩

/-- The count a tick takes is that of the active runs, when the listing is not cut off. -/
theorem activeCount_listed {r : Result (List Run)}
    (ran : perform p oracle w (.store (.listRunsForJob j 10000)) = some (r, w')) (few : (runsFor j w).length < 10000) :
    activeCount r = (activeRuns j w).length := by
  have executed := (answer_store (perform_cases ran).1).1
  simp only [StoreCall.exec, Store.listRunsForJob, Prod.mk.injEq] at executed
  obtain ⟨rfl, -⟩ := executed
  have sorted : (Store.latestFirst (runsFor j w)).Perm (runsFor j w) := List.perm_insertionSort _ _
  have whole : (Store.latestFirst (runsFor j w)).take 10000 = Store.latestFirst (runsFor j w) :=
    List.take_of_length_le (by rw [sorted.length_eq]; omega)
  have counted : ((Store.latestFirst (runsFor j w)).filter fun run => run.status.isActive).length =
      (activeRuns j w).length := by
    rw [(sorted.filter _).length_eq, runsFor, List.filter_filter, activeRuns]
    congr 1
    refine List.filter_congr fun run _ => ?_
    simp [activeOf, Bool.and_comm]
  have isListing : w.store.runs.rows.filter (fun run => decide (run.jobId = some j)) = runsFor j w := rfl
  simp only [activeCount, isListing, whole, counted]

/-! ## Reservations -/

theorem owesRetryAfter_silent {s : State} {last : Bool} (quiet : Silent op) :
    owesRetryAfter j limits ⟨p, s, op, r⟩ last = last := by
  cases op with
  | store c => cases c <;> first | rfl | exact quiet.elim
  | _ => rfl

theorem admittedAfter_silent {s : State} {last : Bool} (quiet : Silent op) :
    admittedAfter j limits ⟨p, s, op, r⟩ last = last := by
  cases op with
  | store c => cases c <;> first | rfl | exact quiet.elim
  | _ => rfl

theorem mem_retriesOwed {log : Log} :
    p ∈ retriesOwed j limits log ↔ track (owesRetryAfter j limits) false p log = true := mem_holders rfl

theorem mem_admittedTicks {log : Log} :
    p ∈ admittedTicks j limits log ↔ track (admittedAfter j limits) false p log = true := mem_holders rfl

/-- What the caller owes after its call. -/
theorem mem_retriesOwed_own (ran : perform p oracle w op = some (r, w')) :
    p ∈ retriesOwed j limits w'.log ↔
      owesRetryAfter j limits ⟨p, w.state, op, r⟩ (decide (p ∈ retriesOwed j limits w.log)) = true := by
  rw [mem_retriesOwed, track_own_call ran]
  simp only [mem_retriesOwed, Bool.decide_eq_true]

theorem mem_retriesOwed_other (ran : perform p oracle w op = some (r, w')) (other : q ≠ p) :
    q ∈ retriesOwed j limits w'.log ↔ q ∈ retriesOwed j limits w.log := by
  rw [mem_retriesOwed, mem_retriesOwed, track_other_call ran (Ne.symm other)]

/-- Whether the caller is admitted after its call. -/
theorem mem_admittedTicks_own (ran : perform p oracle w op = some (r, w')) :
    p ∈ admittedTicks j limits w'.log ↔
      admittedAfter j limits ⟨p, w.state, op, r⟩ (decide (p ∈ admittedTicks j limits w.log)) = true := by
  rw [mem_admittedTicks, track_own_call ran]
  simp only [mem_admittedTicks, Bool.decide_eq_true]

theorem mem_admittedTicks_other (ran : perform p oracle w op = some (r, w')) (other : q ≠ p) :
    q ∈ admittedTicks j limits w'.log ↔ q ∈ admittedTicks j limits w.log := by
  rw [mem_admittedTicks, mem_admittedTicks, track_other_call ran (Ne.symm other)]

/-- A call after which the caller owes nothing it did not owe before. -/
theorem retriesOwed_subset (ran : perform p oracle w op = some (r, w'))
    (less : ∀ last, owesRetryAfter j limits ⟨p, w.state, op, r⟩ last = true → last = true) :
    retriesOwed j limits w'.log ⊆ retriesOwed j limits w.log := by
  intro q inside
  by_cases own : q = p
  · subst own
    exact of_decide_eq_true (less _ ((mem_retriesOwed_own ran).mp inside))
  · exact (mem_retriesOwed_other ran own).mp inside

theorem admittedTicks_subset (ran : perform p oracle w op = some (r, w'))
    (less : ∀ last, admittedAfter j limits ⟨p, w.state, op, r⟩ last = true → last = true) :
    admittedTicks j limits w'.log ⊆ admittedTicks j limits w.log := by
  intro q inside
  by_cases own : q = p
  · subst own
    exact of_decide_eq_true (less _ ((mem_admittedTicks_own ran).mp inside))
  · exact (mem_admittedTicks_other ran own).mp inside

/-- A created run takes the caller's reservations. -/
theorem reservations_create (j : String) (limits : Limits) {run : Run}
    (ran : perform p oracle w (.store (.createRun run)) = some (.ok (), w')) :
    retriesOwed j limits w'.log = (retriesOwed j limits w.log).erase p ∧
      admittedTicks j limits w'.log = (admittedTicks j limits w.log).erase p := by
  constructor
  all_goals
    ext q
    rw [Finset.mem_erase]
    by_cases own : q = p
  · subst own
    rw [mem_retriesOwed_own ran]
    simp [owesRetryAfter]
  · rw [mem_retriesOwed_other ran own]
    simp [own]
  · subst own
    rw [mem_admittedTicks_own ran]
    simp [admittedAfter]
  · rw [mem_admittedTicks_other ran own]
    simp [own]

/-! ## The invariant -/

/-- The tick claim under which a task has been admitted. -/
def Phase.admits : Phase → Option TickClaim
  | .tryOnce _ k _ | .drawing _ k _ | .creating _ k _ _ => some k
  | _ => none

structure LimitInv (s : State) (j : String) (limits : Limits) (w : World) : Prop where
  work : WorkInv s w
  row : ∀ row, w.job j = some row → row.limits = limits ∧ HoldsAlone j w row
  one : ∀ p q k k', holding p w.log = some k → k.jobId = j → holding q w.log = some k' → k'.jobId = j → q = p
  leases : LeasesHold j w
  admitted : ∀ p ∈ admittedTicks j limits w.log, ∃ k, holding p w.log = some k ∧ k.jobId = j
  room : ((activeIds j w).card + (retriesOwed j limits w.log).card + (admittedTicks j limits w.log).card : Int) ≤
    limits.concurrency

/-- What a task asserts. -/
structure LimitHolds (s : State) (j : String) (limits : Limits) (p : Nat) (φ : Phase) (w : World) : Prop where
  work : WorkHolds s p φ w
  linked : Linked p φ w
  unordered : φ ≠ .ordering ∧ ∀ runId job, φ ≠ .inserting runId none job
  decides : ∀ k job, φ.copy = some (k, job) → k.jobId = j → job.limits = limits
  admitted : ∀ k, φ.admits = some k → k.jobId = j → p ∈ admittedTicks j limits w.log
  finalizes : ∀ worker run job, φ = .copied worker run (some job) → run.jobId = some j → job.limits = limits
  owing : ∀ run, φ.retryOf = some run → run.jobId = some j → p ∈ retriesOwed j limits w.log

/-! ## The claim -/

/-- Nothing but an upsert changes the limits of a job. -/
theorem onRow_limits {write : JobWrite} {row : Job} (stamp : DateTime) (allowed : write.Allowed row) :
    (write.onRow stamp row).limits = row.limits := by
  cases write with
  | put job => exact allowed.elim
  | drop => exact allowed.elim
  | releaseOnce claimedBy => simp only [JobWrite.onRow]; split <;> rfl
  | _ => rfl

/-- A call that does not claim job `j` makes nobody its holder. -/
theorem holding_kept (ran : perform p oracle w op = some (r, w'))
    (unclaimed : ∀ claimId now ttl, jobWrite j op r ≠ some (.claimTick claimId now ttl)) (q : Nat) (k : TickClaim)
    (after : holding q w'.log = some k) (onJob : k.jobId = j) : holding q w.log = some k := by
  rcases holding_cases ran after onJob with before | ⟨-, wrote⟩
  · exact before
  · exact absurd wrote (unclaimed _ _ _)

theorem LimitInv.one_kept (inv : LimitInv s j limits w) (ran : perform p oracle w op = some (r, w'))
    (unclaimed : ∀ claimId now ttl, jobWrite j op r ≠ some (.claimTick claimId now ttl)) :
    ∀ p q k k', holding p w'.log = some k → k.jobId = j → holding q w'.log = some k' → k'.jobId = j → q = p := by
  intro p q k k' mine onJob theirs onJob'
  exact inv.one p q k k' (holding_kept ran unclaimed p k mine onJob) onJob (holding_kept ran unclaimed q k' theirs onJob')
    onJob'

/-- While job `j` is stored, its claim is exclusive. -/
theorem LimitInv.row_stored {row : Job} (inv : LimitInv s j limits w) (linked : Linked p φ w)
    (move : Move host φ op r φ') (ran : perform p oracle w op = some (r, w')) (untouched : Untouched j (.call p op r))
    (free : TrailingReleaseFree j (.call p op r) w) (stored : w.job j = some row) :
    ∃ row', w'.job j = some row' ∧ row'.limits = limits ∧ HoldsAlone j w' row' := by
  obtain ⟨isLimits, alone⟩ := inv.row row stored
  obtain ⟨row', stored'⟩ := untouched.2.present ran stored
  refine ⟨row', stored', ?_, alone.move inv.leases linked move ran untouched free stored stored'⟩
  rcases untouched.job ran stored with ⟨-, same⟩ | ⟨write, stamp, -, allowed, changed⟩
  · rw [stored'] at same
    cases same
    exact isLimits
  · rw [stored'] at changed
    cases changed
    exact (onRow_limits stamp allowed).trans isLimits

/-- Once deleted, job `j` stays away and nobody claims it. -/
theorem job_absent (ran : perform p oracle w op = some (r, w')) (kept : NotUpserted j (.call p op r))
    (absent : w.job j = none) :
    w'.job j = none ∧ ∀ claimId now ttl, jobWrite j op r ≠ some (.claimTick claimId now ttl) := by
  have step := perform_job ran j
  rw [absent] at step
  generalize w'.job j = after at step
  generalize change : jobWrite j op r = write at step
  cases step with
  | same => exact ⟨rfl, fun _ _ _ none_ => by cases none_⟩
  | put same =>
    cases jobWrite_wrote change
    exact absurd same (kept _ rfl)
  | drop => exact ⟨rfl, fun _ _ _ none_ => by cases none_⟩

theorem LimitInv.row_step (inv : LimitInv s j limits w) (linked : Linked p φ w) (move : Move host φ op r φ')
    (ran : perform p oracle w op = some (r, w')) (kept : NotUpserted j (.call p op r))
    (free : TrailingReleaseFree j (.call p op r) w) :
    (∀ row, w'.job j = some row → row.limits = limits ∧ HoldsAlone j w' row) ∧
      ∀ p q k k', holding p w'.log = some k → k.jobId = j → holding q w'.log = some k' → k'.jobId = j → q = p := by
  cases stored : w.job j with
  | none =>
    obtain ⟨absent, unclaimed⟩ := job_absent ran kept stored
    exact ⟨fun row stored' => (by rw [absent] at stored'; cases stored'), inv.one_kept ran unclaimed⟩
  | some row =>
    by_cases gone : deleted (.call p op r) = some j
    · have isDelete : ∃ removed : Result Bool, op = .store (.deleteJob j) ∧ HEq r removed := by
        cases op with
        | store c => cases c <;> first | (cases gone; exact ⟨r, rfl, HEq.rfl⟩) | cases gone
        | _ => cases gone
      obtain ⟨removed, rfl, same⟩ := isDelete
      obtain rfl := eq_of_heq same
      have unclaimed : ∀ claimId now ttl,
          jobWrite j (.store (.deleteJob j)) r ≠ some (.claimTick claimId now ttl) := by
        intro claimId now ttl wrote
        cases jobWrite_wrote wrote
      have absent : w'.job j = none := by
        have step := perform_job ran j
        cases r with
        | error e => cases (perform_cases ran).1
        | ok removed =>
          simp only [jobWrite, StoreCall.writesTo, StoreCall.jobWrite, if_true] at step
          generalize w'.job j = after at step
          generalize w.job j = before at step
          cases step with
          | drop => rfl
          | write _ allowed => exact allowed.elim
      exact ⟨fun row stored' => (by rw [absent] at stored'; cases stored'), inv.one_kept ran unclaimed⟩
    · obtain ⟨row', stored', isLimits, alone⟩ := inv.row_stored linked move ran ⟨kept, gone⟩ free stored
      refine ⟨fun row found => ?_, fun p q k k' mine onJob theirs onJob' => ?_⟩
      · rw [stored'] at found
        cases found
        exact ⟨isLimits, alone⟩
      · exact (alone p k mine onJob).2.2 q k' theirs onJob'

/-! ## Admission -/

/-- A task that is admitted after a call was admitted before, or has just listed the runs of job `j`. -/
theorem admittedAfter_cases {s : State} {last : Bool} (after : admittedAfter j limits ⟨p, s, op, r⟩ last = true) :
    last = true ∨ ∃ limit, op = .store (.listRunsForJob j limit) := by
  unfold admittedAfter at after
  split at after
  · rename_i same
    cases same
    simp only [Bool.and_eq_true, beq_iff_eq] at after
    exact .inr ⟨_, by rw [after.1]⟩
  · cases after
  · cases after
  · cases after
  · cases after
  · exact .inl after

/-- It has not given up its tick claim. -/
theorem claimAfter_admitted {s : State} {last : Bool} {held : Option TickClaim}
    (after : admittedAfter j limits ⟨p, s, op, r⟩ last = true) : claimAfter ⟨p, s, op, r⟩ held = held := by
  unfold claimAfter
  split
  · rename_i same
    cases same
    cases after
  · rename_i same
    cases same
    cases after
  · rename_i same
    cases same
    cases after
  · rfl

/-- Only a tick that has loaded its job lists the runs of it. -/
theorem Move.of_listRuns {jobId : String} {limit : Nat} {r : Result (List Run)}
    (move : Move host φ (.store (.listRunsForJob jobId limit)) r φ') :
    ∃ b k job, φ = .loaded b k job ∧ k.jobId = jobId ∧ limit = 10000 := by
  cases move with
  | silent quiet => exact quiet.elim
  | atLimit => exact ⟨_, _, _, rfl, rfl, rfl⟩
  | misfired => exact ⟨_, _, _, rfl, rfl, rfl⟩
  | admitted => exact ⟨_, _, _, rfl, rfl, rfl⟩

theorem LimitInv.admitted_step (inv : LimitInv s j limits w) (linked : Linked p φ w) (move : Move host φ op r φ')
    (ran : perform p oracle w op = some (r, w')) :
    ∀ q ∈ admittedTicks j limits w'.log, ∃ k, holding q w'.log = some k ∧ k.jobId = j := by
  intro q inside
  by_cases own : q = p
  · subst own
    have after := (mem_admittedTicks_own ran).mp inside
    have held : holding q w'.log = holding q w.log := by
      rw [holding, track_own_call ran]
      exact claimAfter_admitted after
    rw [held]
    rcases admittedAfter_cases after with before | ⟨limit, rfl⟩
    · exact inv.admitted q (of_decide_eq_true before)
    · obtain ⟨b, k, job, rfl, onJob, -⟩ := move.of_listRuns
      exact ⟨k, linked.holds, onJob⟩
  · rw [holding, track_other_call ran (Ne.symm own)]
    exact inv.admitted q ((mem_admittedTicks_other ran own).mp inside)

/-! ## Room -/

theorem LimitInv.room_less (inv : LimitInv s j limits w) (active : activeIds j w' ⊆ activeIds j w)
    (owed : retriesOwed j limits w'.log ⊆ retriesOwed j limits w.log)
    (admitted : admittedTicks j limits w'.log ⊆ admittedTicks j limits w.log) :
    ((activeIds j w').card + (retriesOwed j limits w'.log).card + (admittedTicks j limits w'.log).card : Int) ≤
      limits.concurrency := by
  have room := inv.room
  have fewer := Finset.card_le_card active
  have fewerOwed := Finset.card_le_card owed
  have fewerAdmitted := Finset.card_le_card admitted
  omega

/-- A run of job `j` is created by an admitted tick or by a task that owes a retry, and takes its place. -/
theorem LimitInv.room_create {run : Run} (inv : LimitInv s j limits w) (holds : LimitHolds s j limits p φ w)
    {r : Result Unit} (move : Move host φ (.store (.createRun run)) r φ')
    (ran : perform p oracle w (.store (.createRun run)) = some (r, w')) :
    ((activeIds j w').card + (retriesOwed j limits w'.log).card + (admittedTicks j limits w'.log).card : Int) ≤
      limits.concurrency := by
  have fresh := holds.work.fresh.created move run rfl
  have paid : run.jobId = some j → p ∈ retriesOwed j limits w.log ∨ p ∈ admittedTicks j limits w.log := by
    intro onJob
    cases move with
    | silent quiet => exact quiet.elim
    | create | createFailed =>
      have isJob := (holds.linked.copies _ _ rfl).2
      exact .inr (holds.admitted _ rfl (isJob.symm.trans (Option.some.inj onJob)))
    | insertFirst => exact absurd rfl (holds.unordered.2 _ _)
    | retry =>
      rename_i parent _ _ _
      obtain ⟨-, named⟩ := holds.work.owing parent rfl
      obtain ⟨jobId, isJob⟩ := Option.ne_none_iff_exists'.mp named
      have same : parent.jobId.getD "" = j := Option.some.inj onJob
      rw [isJob, Option.getD_some] at same
      exact .inl (holds.owing parent rfl (isJob.trans (congrArg some same)))
  cases r with
  | error e => cases (perform_cases ran).1
  | ok =>
    have room := inv.room
    have active := activeIds_create (j := j) ran fresh
    obtain ⟨owed, admitted⟩ := reservations_create j limits ran
    rw [owed, admitted]
    have owedLess := Finset.card_erase_le (s := retriesOwed j limits w.log) (a := p)
    have admittedLess := Finset.card_erase_le (s := admittedTicks j limits w.log) (a := p)
    split at active
    · rename_i onJob
      have more := (Finset.card_le_card active).trans (Finset.card_insert_le _ _)
      rcases paid onJob with mine | mine
      · have less := Finset.card_erase_add_one mine
        omega
      · have less := Finset.card_erase_add_one mine
        omega
    · have same := Finset.card_le_card active
      omega

/-- Copies belong to the job of their stored row. -/
theorem LimitInv.sameJob {run row : Run} (inv : LimitInv s j limits w) (holds : LimitHolds s j limits p φ w)
    {r : Result Unit} (move : Move host φ (.store (.updateRun run)) r φ') (stored : w.run run.runId = some row) :
    row.jobId = run.jobId := by
  obtain ⟨worker, copy, job, rfl, same⟩ := move.of_updateRun
  obtain ⟨first, created, work⟩ := (holds.work.hand copy rfl).identity same
  obtain ⟨first', created', work'⟩ := inv.work.genuine stored
  have isRun : row.runId = run.runId := Collections.Table.key_of_lookup stored
  rw [isRun, created] at created'
  cases created'
  exact congrArg (·.payload.jobId) (work'.trans work.symm)

/-- An active run is written back, or ends: then its place goes to the retry that is owed from now on. -/
theorem LimitInv.room_update {run : Run} (inv : LimitInv s j limits w) (holds : LimitHolds s j limits p φ w)
    {r : Result Unit} (move : Move host φ (.store (.updateRun run)) r φ')
    (ran : perform p oracle w (.store (.updateRun run)) = some (r, w'))
    (leaves : LeavesFinished j limits (.call p (.store (.updateRun run)) r) w) :
    ((activeIds j w').card + (retriesOwed j limits w'.log).card + (admittedTicks j limits w'.log).card : Int) ≤
      limits.concurrency := by
  have admitted : admittedTicks j limits w'.log ⊆ admittedTicks j limits w.log :=
    admittedTicks_subset ran fun last still => still
  obtain ⟨-, failed, same⟩ | ⟨row, stored, rfl, -⟩ := Store.updateRun_cases (answer_store (perform_cases ran).1).1
  · subst failed
    refine inv.room_less (activeIds_other ran (fun run' same => by cases same) ?_ ?_) ?_ admitted
    · intro id run' created
      cases created
    · intro id run' wrote
      cases wrote
    · exact retriesOwed_subset ran fun last still => still
  · have stored : w.run run.runId = some row := stored
    have onJob := inv.sameJob holds move stored
    -- a write that starts the run, or fails it with a retry, has found it active
    have found : run.jobId = some j →
        (run.status.isActive = true ∨ (run.status.isFailure && limits.retryPolicy.shouldRetry run.attempt) = true) →
        run.runId ∈ activeIds j w := by
      intro isJob writes
      refine mem_activeIds.mpr ⟨row, stored, ?_⟩
      simp only [activeOf, Bool.and_eq_true, decide_eq_true_eq]
      refine ⟨onJob.trans isJob, ?_⟩
      by_contra finished
      obtain ⟨inactive, unretried⟩ := leaves run rfl row stored (onJob.trans isJob) (by simpa using finished)
      rcases writes with starts | retries
      · rw [inactive] at starts
        cases starts
      · rw [unretried] at retries
        cases retries
    have room := inv.room
    have active := activeIds_update (j := j) ran
    have fewerAdmitted := Finset.card_le_card admitted
    split at active
    · rename_i isActive
      simp only [activeOf, Bool.and_eq_true, decide_eq_true_eq] at isActive
      rw [Finset.insert_eq_of_mem (found isActive.1 (.inl isActive.2))] at active
      refine inv.room_less active (retriesOwed_subset ran fun last still => ?_) admitted
      have notFailed : run.status.isFailure = false := by
        have going := isActive.2
        cases status : run.status <;> rw [status] at going <;> first | rfl | cases going
      simp [owesRetryAfter, notFailed] at still
    · have erased := Finset.card_le_card active
      by_cases retries : run.jobId = some j ∧
          (run.status.isFailure && limits.retryPolicy.shouldRetry run.attempt) = true
      · have less := Finset.card_erase_add_one (found retries.1 (.inr retries.2))
        have owed : retriesOwed j limits w'.log ⊆ insert p (retriesOwed j limits w.log) := by
          intro q inside
          by_cases own : q = p
          · rw [own]
            exact Finset.mem_insert_self _ _
          · exact Finset.mem_insert_of_mem ((mem_retriesOwed_other ran own).mp inside)
        have more := (Finset.card_le_card owed).trans (Finset.card_insert_le _ _)
        omega
      · refine inv.room_less (active.trans (Finset.erase_subset _ _)) (retriesOwed_subset ran fun last still => ?_) admitted
        simp only [owesRetryAfter, Bool.and_eq_true, beq_iff_eq] at still retries
        exact absurd still retries

/-- A tick is admitted alone, and only when the owed retries leave room. -/
theorem LimitInv.room_list {jobId : String} {limit : Nat} (inv : LimitInv s j limits w)
    (holds : LimitHolds s j limits p φ w) {r : Result (List Run)}
    (move : Move host φ (.store (.listRunsForJob jobId limit)) r φ')
    (ran : perform p oracle w (.store (.listRunsForJob jobId limit)) = some (r, w'))
    (few : (runsFor j w).length < 10000)
    (roomy : LeavesRoom j limits (.call p (.store (.listRunsForJob jobId limit)) r) w) :
    ((activeIds j w').card + (retriesOwed j limits w'.log).card + (admittedTicks j limits w'.log).card : Int) ≤
      limits.concurrency := by
  have active : activeIds j w' ⊆ activeIds j w := by
    refine activeIds_other ran (fun run same => by cases same) ?_ ?_
    · intro id run created
      cases created
    · intro id run wrote
      cases wrote
  have owed : retriesOwed j limits w'.log ⊆ retriesOwed j limits w.log :=
    retriesOwed_subset ran fun last still => still
  obtain ⟨b, k, job, rfl, onJob, rfl⟩ := move.of_listRuns
  by_cases admits : jobId = j ∧ activeCount r < limits.concurrency
  · obtain ⟨rfl, below⟩ := admits
    have alone : admittedTicks jobId limits w'.log ⊆ {p} := by
      intro q inside
      rw [Finset.mem_singleton]
      by_contra own
      obtain ⟨k', theirs, onJob'⟩ := inv.admitted q ((mem_admittedTicks_other ran own).mp inside)
      exact own (inv.one p q k k' holds.linked.holds onJob theirs onJob')
    have one := Finset.card_le_card alone
    rw [Finset.card_singleton] at one
    rw [activeCount_listed ran few] at below
    have fits := roomy rfl below
    have fewer := Finset.card_le_card active
    have fewerOwed := Finset.card_le_card owed
    rw [card_activeIds jobId w] at fewer
    omega
  · refine inv.room_less active owed (admittedTicks_subset ran fun last still => ?_)
    simp only [admittedAfter, Bool.and_eq_true, beq_iff_eq, decide_eq_true_eq] at still
    exact absurd still admits

theorem LimitInv.room_step (inv : LimitInv s j limits w) (holds : LimitHolds s j limits p φ w)
    (move : Move host φ op r φ') (ran : perform p oracle w op = some (r, w')) (few : (runsFor j w).length < 10000)
    (leaves : LeavesFinished j limits (.call p op r) w) (roomy : LeavesRoom j limits (.call p op r) w) :
    ((activeIds j w').card + (retriesOwed j limits w'.log).card + (admittedTicks j limits w'.log).card : Int) ≤
      limits.concurrency := by
  have other (uncreated : ∀ id run, ¬ RunWrote id op r (.create run))
      (unwritten : ∀ id run, ¬ RunWrote id op r (.update run)) (unlisted : ∀ limit, op ≠ .store (.listRunsForJob j limit))
      (owes : ∀ last, owesRetryAfter j limits ⟨p, w.state, op, r⟩ last = last) :
      ((activeIds j w').card + (retriesOwed j limits w'.log).card + (admittedTicks j limits w'.log).card : Int) ≤
        limits.concurrency := by
    refine inv.room_less (activeIds_other ran (holds.work.fresh.created move) uncreated unwritten)
      (retriesOwed_subset ran fun last still => by rwa [owes] at still) (admittedTicks_subset ran fun last still => ?_)
    rcases admittedAfter_cases still with before | ⟨limit, isList⟩
    · exact before
    · exact absurd isList (unlisted limit)
  cases op with
  | store c =>
    cases c with
    | createRun run => exact inv.room_create holds move ran
    | updateRun run => exact inv.room_update holds move ran leaves
    | listRunsForJob jobId limit => exact inv.room_list holds move ran few roomy
    | _ =>
      exact other (fun _ _ created => by cases created) (fun _ _ wrote => by cases wrote)
        (fun _ isList => by cases isList) fun _ => rfl
  | _ =>
    exact other (fun _ _ created => by cases created) (fun _ _ wrote => by cases wrote)
      (fun _ isList => by cases isList) fun _ => rfl

/-! ## The tasks -/

theorem LimitHolds.decides_own (holds : LimitHolds s j limits p φ w) (inv : LimitInv s j limits w)
    (move : Move host φ op r φ') (ran : perform p oracle w op = some (r, w')) (k : TickClaim) (job : Job)
    (isCopy : φ'.copy = some (k, job)) (onJob : k.jobId = j) : job.limits = limits := by
  cases move with
  | silent _ => exact holds.decides k job isCopy onJob
  | load =>
    cases isCopy
    exact (inv.row job (onJob ▸ perform_getJob ran)).1
  | misfired | admitted | create => split at isCopy <;> exact holds.decides k job isCopy onJob
  | createFailed => split at isCopy <;> cases isCopy
  | checkName => split at isCopy <;> cases isCopy
  | _ => first | exact holds.decides k job isCopy onJob | cases isCopy

theorem LimitHolds.admitted_own (holds : LimitHolds s j limits p φ w) (move : Move host φ op r φ')
    (ran : perform p oracle w op = some (r, w')) (k : TickClaim) (admits : φ'.admits = some k) (onJob : k.jobId = j) :
    p ∈ admittedTicks j limits w'.log := by
  rw [mem_admittedTicks_own ran]
  cases move with
  | silent quiet =>
    rw [admittedAfter_silent quiet]
    exact decide_eq_true (holds.admitted k admits onJob)
  | admitted below _ =>
    rename_i b k' job r _
    have same : k' = k := by split at admits <;> exact Option.some.inj admits
    subst same
    have isLimits := holds.decides k' job rfl onJob
    have below : activeCount r < limits.concurrency := by rw [← isLimits]; exact below
    simp [admittedAfter, onJob, below]
  | once | draw =>
    cases admits
    exact decide_eq_true (holds.admitted k rfl onJob)
  | misfired | create | createFailed => split at admits <;> cases admits
  | checkName => split at admits <;> cases admits
  | _ => cases admits

theorem LimitHolds.finalizes_own {worker : Option String} {run : Run} {job : Job} (holds : LimitHolds s j limits p φ w)
    (inv : LimitInv s j limits w) (copy : ToCopy host φ op r worker run (some job))
    (ran : perform p oracle w op = some (r, w')) (onJob : run.jobId = some j) : job.limits = limits := by
  cases copy with
  | silent _ | execute => exact holds.finalizes _ run job rfl onJob
  | readJob isJob =>
    rw [isJob] at onJob
    cases onJob
    exact (inv.row job (perform_getJob ran)).1
  | start _ same _ =>
    rw [identity_jobId same] at onJob
    exact holds.finalizes _ _ job rfl onJob

theorem LimitHolds.owing_own (holds : LimitHolds s j limits p φ w) (move : Move host φ op r φ')
    (ran : perform p oracle w op = some (r, w')) (run : Run) (isParent : φ'.retryOf = some run)
    (onJob : run.jobId = some j) : p ∈ retriesOwed j limits w'.log := by
  rw [mem_retriesOwed_own ran]
  cases move.toRetry isParent with
  | silent quiet isParent =>
    rw [owesRetryAfter_silent quiet]
    exact decide_eq_true (holds.owing run isParent onJob)
  | draw => exact decide_eq_true (holds.owing run rfl onJob)
  | fail same failure allowed =>
    have isLimits := holds.finalizes _ _ _ rfl ((identity_jobId same).symm.trans onJob)
    rw [← isLimits]
    simp [owesRetryAfter, onJob, failure, Job.limits, allowed]

theorem LimitHolds.unordered_own (holds : LimitHolds s j limits p φ w) (move : Move host φ op r φ') :
    φ' ≠ .ordering ∧ ∀ runId job, φ' ≠ .inserting runId none job := by
  obtain ⟨idle, uninserting⟩ := holds.unordered
  cases move with
  | silent _ => exact ⟨idle, uninserting⟩
  | readJob => exact absurd rfl idle
  | drawFirst => exact absurd rfl idle
  | misfired | admitted | create | createFailed =>
    split <;> exact ⟨fun same => (by cases same), fun _ _ same => by cases same⟩
  | checkName => split <;> exact ⟨fun same => (by cases same), fun _ _ same => by cases same⟩
  | _ => exact ⟨fun same => (by cases same), fun _ _ same => by cases same⟩

theorem LimitHolds.own (holds : LimitHolds s j limits p φ w) (inv : LimitInv s j limits w) (move : Move host φ op r φ')
    (ran : perform p oracle w op = some (r, w')) : LimitHolds s j limits p φ' w' :=
  ⟨holds.work.own inv.work move ran, holds.linked.own move ran, holds.unordered_own move, holds.decides_own inv move ran,
    holds.admitted_own move ran, fun _ _ _ isCopy => holds.finalizes_own inv (isCopy ▸ move).toCopy ran,
    holds.owing_own move ran⟩

theorem LimitHolds.other (holds : LimitHolds s j limits p φ w) (inv : LimitInv s j limits w) (steps : FreshStep q w w')
    (apart : p ≠ q) : LimitHolds s j limits p φ w' := by
  obtain ⟨oracle, op, r, ran, -⟩ := steps.stepped
  refine ⟨holds.work.other inv.work steps apart, holds.linked.other ran apart, holds.unordered, holds.decides,
    fun k admits onJob => ?_, holds.finalizes, fun run isParent onJob => ?_⟩
  · exact (mem_admittedTicks_other ran apart).mpr (holds.admitted k admits onJob)
  · exact (mem_retriesOwed_other ran apart).mpr (holds.owing run isParent onJob)

theorem LimitHolds.start {proc : Proc} (idle : holding p w.log = none) (kept : startsRunNow (.start p proc) = false) :
    LimitHolds s j limits p proc.phase w := by
  refine ⟨.start, .start idle, ?_, ?_, ?_, ?_, ?_⟩
  · cases proc with
    | runNow _ _ _ => cases kept
    | _ => exact ⟨fun same => (by cases same), fun _ _ same => by cases same⟩
  · cases proc <;> exact fun _ _ isCopy => by cases isCopy
  · cases proc <;> exact fun _ admits => by cases admits
  · cases proc <;> exact fun _ _ _ isCopy => by cases isCopy
  · cases proc <;> exact fun _ isParent => by cases isParent

theorem LimitInv.drift {e : Env} (inv : LimitInv s j limits w) (drifts : Chronon.drift e w = some w')
    (leases : LeasesHold j w') (work : WorkInv s w') : LimitInv s j limits w' := by
  obtain ⟨-, jobs, runs, log⟩ := drift_cases drifts
  have active : activeIds j w' = activeIds j w := by
    ext id
    rw [mem_activeIds, mem_activeIds, runs]
  refine ⟨work, fun row stored => ?_, ?_, leases, ?_, ?_⟩
  · obtain ⟨isLimits, alone⟩ := inv.row row ((jobs j).symm.trans stored)
    exact ⟨isLimits, alone.same rfl rfl fun q k after _ => by rwa [log] at after⟩
  · rw [log]
    exact inv.one
  · rw [log]
    exact inv.admitted
  · rw [active, log]
    exact inv.room

end Step

/-- The rules behind the concurrency limit. -/
def limitRules (host : Host) (s : State) (j : String) (limits : Limits) :
    Rules (system host) (protocol host) fun l w w' => LimitSetting j l w w' ∧ LimitCondition j limits l w where
  inv := LimitInv s j limits
  guar := FreshStep
  idle p w := holding p w.log = none
  holds := LimitHolds s j limits
  start _ idle allowed := .start idle allowed.1.2.2.2.1
  finish _ ended holds := holds.linked.finish ended
  own := by
    intro p φ op r φ' oracle w w' inv holds move ran allowed
    obtain ⟨⟨kept, leases, -, -, few⟩, free, leaves, roomy⟩ := allowed
    obtain ⟨row, one⟩ := inv.row_step holds.linked move ran kept free
    exact ⟨⟨inv.work.step holds.work move ran, row, one, leases, inv.admitted_step holds.linked move ran,
      inv.room_step holds move ran few leaves roomy⟩, ⟨_, _, _, ran, holds.work.fresh.created move⟩,
      holds.own inv move ran⟩
  other apart inv _ steps holds := holds.other inv steps apart
  otherIdle apart _ _ := fun ⟨_, _, _, ran, _⟩ idle => by
    rw [holding, track_other_call ran (Ne.symm apart)]; exact idle
  drift := by
    intro e w w' inv drifts allowed
    obtain ⟨work, kept, -⟩ := (workRules host s).drift inv.work drifts trivial
    have log := (drift_cases drifts).2.2.2
    refine ⟨inv.drift drifts allowed.1.2.1 work, fun p φ holds => ?_, fun p idle => by rw [log]; exact idle⟩
    refine ⟨kept p φ holds.work, holds.linked.drift drifts, holds.unordered, holds.decides, ?_, holds.finalizes, ?_⟩
    · rw [log]
      exact holds.admitted
    · rw [log]
      exact holds.owing

/-- **Active runs stay within the concurrency limit** in every run in which no trailing release finds a claim, no
`update_run` starts or fails with a retry a run it finds finished, and no tick counts the runs of the job as below
the limit while the retries that are owed do not fit. -/
theorem active_runs_within_limit (host : Host) {s : State} {j : String} {job : Job} {c : SystemConfig}
    (stored : s.store.jobs.lookup j = some job) (initially : ((activeRuns j (.fresh s)).length : Int) ≤ job.concurrency)
    (reach : (system host).Reach (fun l w w' => LimitSetting j l w w' ∧ LimitCondition j job.limits l w)
      (.idle (.fresh s)) c) : ((activeRuns j c.world).length : Int) ≤ job.concurrency := by
  have none_ : retriesOwed j job.limits [] = ∅ ∧ admittedTicks j job.limits [] = ∅ := ⟨rfl, rfl⟩
  have start : LimitInv s j job.limits (.fresh s) := by
    refine ⟨?_, fun row found => ?_, fun p q k k' held => (by cases held), fun p k held => (by cases held),
      fun p inside => (by cases inside), ?_⟩
    · exact ⟨.nil, fun _ => rfl, fun _ inside => (by cases inside), fun _ _ inside => (by cases inside)⟩
    · have found : s.store.jobs.lookup j = some row := found
      rw [stored] at found
      cases found
      exact ⟨rfl, fun p k held => by cases held⟩
    · have isLimit : job.limits.concurrency = job.concurrency := rfl
      have empty : (World.fresh s).log = [] := rfl
      rw [empty, none_.1, none_.2, card_activeIds, isLimit]
      simpa using initially
  have room := ((limitRules host s j job.limits).sound (protocol_governs host)
    (Rules.Standing.initial (limitRules host s j job.limits) start fun _ => rfl) reach).inv.room
  rw [card_activeIds] at room
  have isLimit : job.limits.concurrency = job.concurrency := rfl
  omega

/-- The minutely job with one run at a time and one retry. -/
def loneJob : Job := { minutelyJob with concurrency := 1 }.setRetryPolicy ⟨1, 0, 1, 0⟩

/-- The run of `loneJob` fails and is retried; the tick after that counts the retry and creates nothing. -/
theorem active_runs_within_limit_retry :
    ∃ c, (system .simple).Reach (fun l w w' => LimitSetting "j" l w w' ∧ LimitCondition "j" loneJob.limits l w)
        (.idle (.fresh (.single loneJob (seconds 60)))) c ∧
      (activeRuns "j" c.world).length = 1 ∧ ((activeRuns "j" c.world).length : Int) ≤ loneJob.concurrency := by
  obtain ⟨c, reach, ends⟩ := exists_run .simple
    (fun l w w' => LimitSetting "j" l w w' ∧ LimitCondition "j" loneJob.limits l w) (.single loneJob (seconds 60))
    (startTick 0 "c" false ++ claimNext 0 "t" ++ enqueueRest 0 "r" ++ startSlot 1 "a" ++ calls 1 3 ++ failScript 1 "r2" ++
      [.env (.advance (seconds 120))] ++ startTick 0 "c" false ++ claimNext 0 "t2" ++ calls 0 3)
    (fun c => (activeRuns "j" c.world).length == 1) (by decide +kernel)
  exact ⟨c, reach, beq_iff_eq.mp ends, active_runs_within_limit .simple rfl (by decide) reach⟩

/-- A tick counts the runs of `loneJob` between the failure of one and the insertion of its retry: then two runs are
active. -/
theorem retry_beyond_limit :
    ∃ c, (system .simple).Reach (LimitSetting "j") (.idle (.fresh (.single loneJob (seconds 60)))) c ∧
      loneJob.concurrency = 1 ∧ ¬ ((activeRuns "j" c.world).length : Int) ≤ loneJob.concurrency := by
  obtain ⟨c, reach, ends⟩ := exists_run .simple (LimitSetting "j") (.single loneJob (seconds 60))
    (startTick 0 "c" false ++ claimNext 0 "t" ++ enqueueRest 0 "r" ++ startSlot 1 "a" ++ calls 1 3 ++
      runScript 1 (.error (.internal "boom")) ++ calls 1 1 ++
      [.env (.advance (seconds 120))] ++ startTick 0 "c" false ++ claimNext 0 "t2" ++ enqueueRest 0 "s" ++
      calls 1 1 ++ draw 1 "r2" ++ calls 1 1)
    (fun c => (activeRuns "j" c.world).length == 2) (by decide +kernel)
  refine ⟨c, reach, rfl, ?_⟩
  rw [beq_iff_eq.mp ends]
  decide

end Chronon
