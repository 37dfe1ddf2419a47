import Chronon.Mem.Calls
import Chronon.Sql.Store

/-!
# The two stores side by side

A claim or lease operation, with its execution in memory and in SQL. The maps
of the in-memory store are iterated in no particular order and SQL leaves the
order of equal rows open, so both sides are relations: an answer is possible if
some order gives it. The stores agree when the same answers are possible and
lead to the same rows.
-/

namespace Chronon.Sql
set_option autoImplicit false

open Collections Relational

/-- A job row without the time of its last change. -/
def unstamped (job : Job) : Job := { job with updatedAt := 0 }

/-- The two stores hold the same rows, up to `updated_at`. -/
structure Same (s : Store) (d : Db) : Prop where
  jobs : ∀ id, (s.jobs.lookup id).map unstamped = (d.jobs.lookup id).map unstamped
  runs : ∀ id, s.runs.lookup id = d.runs.lookup id
  leader : s.leader = d.leaders.lookup leaderRowId

/-- `s₀` is `s` with its maps in another iteration order. -/
def Reordered (s s₀ : Store) : Prop :=
  ∃ (jobs : Table Job.jobId) (runs : Table Run.runId),
    jobs.rows.Perm s.jobs.rows ∧ runs.rows.Perm s.runs.rows ∧ s₀ = { s with jobs, runs }

/-- The operations on claims and leases. -/
inductive ClaimCall where
  | findDueJobIdsInPartitions (ownedPartitions : List Nat) (dueUntil : DateTime) (limit : Nat)
  | minNextRunAtInPartitions (ownedPartitions : List Nat)
  | claimJobForTick (jobId claimId : String) (now : DateTime) (leaseTtlSecs : Int)
  | tryClaimRunOnce (jobId claimedBy : String) (now : DateTime) (claimTtlSecs : Int)
  | claimRunById (runId poolId workerId : String) (now : DateTime) (leaseTtlSecs : Int)
  | claimNextQueued (poolId workerId : String) (now : DateTime) (leaseTtlSecs : Int)
  | renewRunLease (runId workerId : String) (now : DateTime) (leaseTtlSecs : Int)
  | reclaimExpiredRunLeases (now : DateTime)
  | tryAcquireLeader (instanceId : String) (ttlSecs : Int)
  | renewLeaderLease (instanceId : String) (ttlSecs : Int)

namespace ClaimCall

/-- The method of `SchedulerStore`. -/
@[reducible] def call : ClaimCall → StoreCall
  | .findDueJobIdsInPartitions owned dueUntil limit => .findDueJobIdsInPartitions owned dueUntil limit
  | .minNextRunAtInPartitions owned => .minNextRunAtInPartitions owned
  | .claimJobForTick jobId claimId now ttl => .claimJobForTick jobId claimId now ttl
  | .tryClaimRunOnce jobId claimedBy now ttl => .tryClaimRunOnce jobId claimedBy now ttl
  | .claimRunById runId poolId workerId now ttl => .claimRunById runId poolId workerId now ttl
  | .claimNextQueued poolId workerId now ttl => .claimNextQueued poolId workerId now ttl
  | .renewRunLease runId workerId now ttl => .renewRunLease runId workerId now ttl
  | .reclaimExpiredRunLeases now => .reclaimExpiredRunLeases now
  | .tryAcquireLeader instanceId ttl => .tryAcquireLeader instanceId ttl
  | .renewLeaderLease instanceId ttl => .renewLeaderLease instanceId ttl

/-- The in-memory store may answer `r` and be left as `s'`. -/
def InMemory (c : ClaimCall) (clock : DateTime) (s : Store) (r : Result c.call.Ret) (s' : Store) : Prop :=
  ∃ s₀, Reordered s s₀ ∧ c.call.exec clock s₀ = (r, s')

/-- The SQL store may answer `r` and be left as `d'`. -/
def InSql (clock : DateTime) (d : Db) : (c : ClaimCall) → Result c.call.Ret → Db → Prop
  | .findDueJobIdsInPartitions owned dueUntil limit, r, d' =>
    d.FindDueJobIdsInPartitions clock owned dueUntil limit r ∧ d' = d
  | .minNextRunAtInPartitions owned, r, d' => d.minNextRunAtInPartitions owned = r ∧ d' = d
  | .claimJobForTick jobId claimId now ttl, r, d' => d.claimJobForTick jobId claimId now ttl = (r, d')
  | .tryClaimRunOnce jobId claimedBy now ttl, r, d' => d.tryClaimRunOnce jobId claimedBy now ttl = (r, d')
  | .claimRunById runId poolId workerId now ttl, r, d' => d.claimRunById runId poolId workerId now ttl = (r, d')
  | .claimNextQueued poolId workerId now ttl, r, d' => d.ClaimNextQueued poolId workerId now ttl r d'
  | .renewRunLease runId workerId now ttl, r, d' => d.renewRunLease runId workerId now ttl = (r, d')
  | .reclaimExpiredRunLeases now, r, d' => d.ReclaimExpiredRunLeases now r d'
  | .tryAcquireLeader instanceId ttl, r, d' => d.tryAcquireLeader clock instanceId ttl = (r, d')
  | .renewLeaderLease instanceId ttl, r, d' => d.renewLeaderLease clock instanceId ttl = (r, d')

/-- Two answers from the same rows that differ at most in the order of rows with equal times: the due lists
have the same fire times in order, the claimed runs the same `scheduled_for`, the reclaimed runs are the same set. -/
def Alike (s : Store) : (c : ClaimCall) → Result c.call.Ret → Result c.call.Ret → Prop
  | .findDueJobIdsInPartitions _ _ _, r, r' =>
    let times (ids : List String) : List (Option DateTime) := ids.map fun id => (s.jobs.lookup id).bind (·.nextRunAt)
    Except.map times r = Except.map times r'
  | .claimNextQueued _ _ _ _, r, r' =>
    let time (run : Option Run) : Option DateTime := run.map (·.scheduledFor)
    Except.map time r = Except.map time r'
  | .reclaimExpiredRunLeases _, r, r' => Except.map List.toFinset r = Except.map List.toFinset r'
  | .minNextRunAtInPartitions _, r, r' => r = r'
  | .claimJobForTick _ _ _ _, r, r' => r = r'
  | .tryClaimRunOnce _ _ _ _, r, r' => r = r'
  | .claimRunById _ _ _ _ _, r, r' => r = r'
  | .renewRunLease _ _ _ _, r, r' => r = r'
  | .tryAcquireLeader _ _, r, r' => r = r'
  | .renewLeaderLease _ _, r, r' => r = r'

end ClaimCall

/-- A job row as it is upserted, before anybody has claimed it. -/
structure Unclaimed (job : Job) : Prop where
  runOnceClaimedAt : job.runOnceClaimedAt = none
  runOnceClaimedBy : job.runOnceClaimedBy = none
  runOnceClaimExpiresAt : job.runOnceClaimExpiresAt = none
  claimLeaseId : job.claimLeaseId = none
  claimLeaseUntil : job.claimLeaseUntil = none

/-- What the operations make of jobs upserted without claim fields, whatever runs and leader there are. -/
inductive Reachable : Store → Prop where
  | start {s : Store} : (∀ job ∈ s.jobs.rows, Unclaimed job) → Reachable s
  | upsert {s s' : Store} {job : Job} {r : Result Unit} : Reachable s → Unclaimed job → s.upsertJob job = (r, s') →
      Reachable s'
  | call {s s' : Store} {c : ClaimCall} {clock : DateTime} {r : Result c.call.Ret} : Reachable s →
      c.InMemory clock s r s' → Reachable s'

/-- A run-once claim that was taken has an end. -/
def Ends (s : Store) : Prop :=
  ∀ id job, s.jobs.lookup id = some job → job.runOnceClaimedAt.isSome = true → job.runOnceClaimExpiresAt.isSome = true

/-! ## Orders -/

section Order

variable {s s₀ : Store} {d : Db}

theorem Reordered.refl (s : Store) : Reordered s s := ⟨s.jobs, s.runs, .refl _, .refl _, rfl⟩

theorem Reordered.job (other : Reordered s s₀) (id : String) : s₀.jobs.lookup id = s.jobs.lookup id := by
  obtain ⟨jobs, runs, same, -, rfl⟩ := other
  exact Table.lookup_congr id fun job _ => same.mem_iff

theorem Reordered.run (other : Reordered s s₀) (id : String) : s₀.runs.lookup id = s.runs.lookup id := by
  obtain ⟨jobs, runs, -, same, rfl⟩ := other
  exact Table.lookup_congr id fun run _ => same.mem_iff

theorem Reordered.leader (other : Reordered s s₀) : s₀.leader = s.leader := by
  obtain ⟨jobs, runs, -, -, rfl⟩ := other
  rfl

/-- The order of the maps does not matter for what they hold. -/
theorem Same.reordered (same : Same s d) (other : Reordered s s₀) : Same s₀ d where
  jobs id := by rw [other.job]; exact same.jobs id
  runs id := by rw [other.run]; exact same.runs id
  leader := by rw [other.leader]; exact same.leader

theorem Ends.reordered (ends : Ends s) (other : Reordered s s₀) : Ends s₀ := by
  intro id job found
  rw [other.job] at found
  exact ends id job found

/-- Any order of the job rows is that of some reordering. -/
theorem Reordered.of_jobs {rows : List Job} (same : rows.Perm s.jobs.rows) :
    ∃ s₀, Reordered s s₀ ∧ s₀.jobs.rows = rows :=
  ⟨{ s with jobs := ⟨rows, ((same.map _).nodup_iff).mpr s.jobs.distinct⟩ }, ⟨_, s.runs, same, .refl _, rfl⟩, rfl⟩

theorem Reordered.of_runs {rows : List Run} (same : rows.Perm s.runs.rows) :
    ∃ s₀, Reordered s s₀ ∧ s₀.runs.rows = rows :=
  ⟨{ s with runs := ⟨rows, ((same.map _).nodup_iff).mpr s.runs.distinct⟩ }, ⟨s.jobs, _, .refl _, same, rfl⟩, rfl⟩

theorem Same.jobRows (same : Same s d) : (s.jobs.rows.map unstamped).Perm (d.jobs.rows.map unstamped) :=
  perm_of_lookup (fun _ => rfl) same.jobs

theorem Same.runRows (same : Same s d) : s.runs.rows.Perm d.runs.rows := by
  have rows := perm_of_lookup (t := s.runs) (u := d.runs) (f := id) (fun _ => rfl) fun k => by rw [same.runs]
  simpa using rows

end Order

/-! ## Operations on one row -/

section Rows

variable {s : Store} {d : Db}

/-- A test that ignores `updated_at` tells the two stores' rows apart never. -/
theorem Same.any (same : Same s d) (id : String) {test : Job → Bool} (ignores : ∀ j, test (unstamped j) = test j) :
    (d.jobs.lookup id).any test = (s.jobs.lookup id).any test := by
  have through : ∀ row : Option Job, row.any test = (row.map unstamped).any test := by
    intro row
    cases row with
    | none => rfl
    | some job => exact (ignores job).symm
  rw [through, ← same.jobs, ← through]

/-- An `UPDATE` of the row `id`, and the same change of the row in memory, if the row passes the test. -/
theorem Same.updateJob (same : Same s d) {id : String} {condition : Job → Truth} {test : Job → Bool} {set : Job → Job}
    (named : ∀ j, (condition j).holds = (decide (j.jobId = id) && test j)) (ignores : ∀ j, test (unstamped j) = test j)
    (sets : ∀ j, unstamped (set (unstamped j)) = unstamped (set j))
    (keeps : ∀ j, (set j).jobId = j.jobId ∧ (set j).jobName = j.jobName) {row : Job} (found : s.jobs.lookup id = some row)
    (passes : test row = true) : Same (s.setJob (set row)) (d.updateJobs condition set keeps) where
  jobs k := by
    have isKey : (set row).jobId = id := (keeps row).1.trans (Table.key_of_lookup found)
    rw [Store.lookup_setJob, isKey, Db.updateJobs, lookup_update_key (fun j => (keeps j).1) named]
    split
    · obtain ⟨row', found', alike⟩ : ∃ row', d.jobs.lookup id = some row' ∧ unstamped row' = unstamped row := by
        have both := same.jobs id
        rw [found, Option.map_some, eq_comm, Option.map_eq_some_iff] at both
        exact both
      have passes' : test row' = true := by rw [← ignores, alike, ignores, passes]
      rw [found', Option.map_some, Option.map_some, Option.map_some, if_pos passes', ← sets row, ← sets row', alike]
    · exact same.jobs k
  runs := same.runs
  leader := same.leader

/-- No row passes the test: the update changes nothing. -/
theorem Same.updateNoJob (same : Same s d) {id : String} {condition : Job → Truth} {test : Job → Bool} {set : Job → Job}
    (named : ∀ j, (condition j).holds = (decide (j.jobId = id) && test j)) (ignores : ∀ j, test (unstamped j) = test j)
    (keeps : ∀ j, (set j).jobId = j.jobId ∧ (set j).jobName = j.jobName)
    (fails : (s.jobs.lookup id).any test = false) : Same s (d.updateJobs condition set keeps) where
  jobs k := by
    rw [Db.updateJobs, lookup_update_key (fun j => (keeps j).1) named]
    split
    · rename_i isKey
      subst isKey
      rw [same.jobs id]
      rw [← same.any id ignores] at fails
      cases found : d.jobs.lookup id with
      | none => rfl
      | some row =>
        rw [found, Option.any_some] at fails
        rw [Option.map_some, Option.map_some, fails]
        rfl
    · exact same.jobs k
  runs := same.runs
  leader := same.leader

/-- Two refusals are one test. -/
theorem ite_refused {α : Type} {a b test : Bool} (refused accepted : α) (passes : test = (!a && !b)) :
    (if a then refused else if b then refused else accepted) = if test then accepted else refused := by
  subst passes
  cases a <;> cases b <;> rfl

/-- Change the row `id` of the in-memory store if it passes a test, and say so. -/
def changeIf (s : Store) (id : String) (test : Job → Bool) (set : Job → Job) : Result Bool × Store :=
  match s.jobs.lookup id with
  | none => (.ok false, s)
  | some job => if test job then (.ok true, s.setJob (set job)) else (.ok false, s)

/-- The same with an `UPDATE` and the number of rows it affects. -/
theorem changeIf_agrees (same : Same s d) {id : String} {condition : Job → Truth} (test : Job → Bool) (set : Job → Job)
    (named : ∀ j, (condition j).holds = (decide (j.jobId = id) && test j)) (ignores : ∀ j, test (unstamped j) = test j)
    (sets : ∀ j, unstamped (set (unstamped j)) = unstamped (set j))
    (keeps : ∀ j, (set j).jobId = j.jobId ∧ (set j).jobName = j.jobName) :
    (changeIf s id test set).1 = .ok (affects d.jobs condition) ∧
      Same (changeIf s id test set).2 (d.updateJobs condition set keeps) := by
  rw [affects_key named, same.any id ignores, changeIf]
  cases found : s.jobs.lookup id with
  | none => exact ⟨rfl, same.updateNoJob named ignores keeps (by rw [found]; rfl)⟩
  | some job =>
    cases passes : test job with
    | true =>
      simp only [if_true, Option.any_some, passes, true_and]
      exact same.updateJob named ignores sets keeps found passes
    | false =>
      simp only [Bool.false_eq_true, if_false, Option.any_some, passes, true_and]
      exact same.updateNoJob named ignores keeps (by rw [found]; exact passes)

theorem claimJobForTick_agrees (same : Same s d) (jobId claimId : String) (now : DateTime) (ttl : Int) :
    (s.claimJobForTick jobId claimId now ttl).1 = (d.claimJobForTick jobId claimId now ttl).1 ∧
      Same (s.claimJobForTick jobId claimId now ttl).2 (d.claimJobForTick jobId claimId now ttl).2 := by
  let test (j : Job) : Bool := j.enabled && j.claimLeaseUntil.all (· < now)
  let set (j : Job) : Job := { j with
    claimLeaseId := some claimId, claimLeaseUntil := some (now + seconds ttl), updatedAt := now }
  have free : ∀ j : Job, j.claimLeaseUntil.any (· ≥ now) = !j.claimLeaseUntil.all (· < now) := by
    intro j
    cases j.claimLeaseUntil with
    | none => rfl
    | some u => simp [← decide_not]
  have memory : s.claimJobForTick jobId claimId now ttl = changeIf s jobId test set := by
    unfold Store.claimJobForTick changeIf
    cases s.jobs.lookup jobId with
    | none => rfl
    | some job => exact ite_refused _ _ (by simp only [test, free, Bool.not_not])
  rw [memory]
  refine changeIf_agrees same test set (fun j => ?_) (fun _ => rfl) (fun _ => rfl) fun _ => ⟨rfl, rfl⟩
  simp only [Truth.holds_and, Db.holds_jobIs, holds_compare, Option.any_some, Db.holds_tickFree, beq_true, test]

/-- The stores agree on rows whose claim, once taken, has an end: SQL refuses a claim without one, memory does not. -/
theorem tryClaimRunOnce_agrees (same : Same s d) (ends : Ends s) (jobId claimedBy : String) (now : DateTime) (ttl : Int) :
    (s.tryClaimRunOnce jobId claimedBy now ttl).1 = (d.tryClaimRunOnce jobId claimedBy now ttl).1 ∧
      Same (s.tryClaimRunOnce jobId claimedBy now ttl).2 (d.tryClaimRunOnce jobId claimedBy now ttl).2 := by
  let test (j : Job) : Bool := j.runOnceCompletedAt.isNone && (j.runOnceClaimedAt.isNone ||
    (j.runOnceClaimExpiresAt.any (fun e => decide (e ≤ now)) || j.runOnceClaimedBy.any (· == claimedBy)))
  let set (j : Job) : Job := { j with
    runOnceClaimedAt := some now
    runOnceClaimedBy := some claimedBy
    runOnceClaimExpiresAt := some (now + seconds ttl)
    updatedAt := now }
  have memory : s.tryClaimRunOnce jobId claimedBy now ttl = changeIf s jobId test set := by
    unfold Store.tryClaimRunOnce changeIf
    cases found : s.jobs.lookup jobId with
    | none => rfl
    | some job =>
      have ended := ends jobId job found
      have mine : job.runOnceClaimedBy.any (· == claimedBy) = !(job.runOnceClaimedBy != some claimedBy) := by
        cases job.runOnceClaimedBy <;> simp [bne]
      have refused : (job.runOnceClaimedAt.isSome && job.runOnceClaimExpiresAt.any (· > now) &&
          job.runOnceClaimedBy != some claimedBy) = !(job.runOnceClaimedAt.isNone ||
            (job.runOnceClaimExpiresAt.any (fun e => decide (e ≤ now)) || job.runOnceClaimedBy.any (· == claimedBy))) := by
        cases claimed : job.runOnceClaimedAt with
        | none => rfl
        | some at' =>
          rw [claimed] at ended
          obtain ⟨e, isEnd⟩ := Option.isSome_iff_exists.mp (ended rfl)
          simp [isEnd, mine, ← decide_not]
      refine ite_refused _ _ ?_
      rw [refused, Bool.not_not, Option.not_isSome]
  rw [memory]
  refine changeIf_agrees same test set (fun j => ?_) (fun _ => rfl) (fun _ => rfl) fun _ => ⟨rfl, rfl⟩
  simp only [Db.runOnceFree, Truth.holds_and, Truth.holds_or, Db.holds_jobIs, holds_compare, holds_isNull, test]

/-- Change the run `id` of the in-memory store if it passes a test. -/
def changeRunIf (s : Store) (id : String) (test : Run → Bool) (set : Run → Run) : Store :=
  match s.runs.lookup id with
  | none => s
  | some run => if test run then s.setRun (set run) else s

theorem changeRunIf_agrees (same : Same s d) {id : String} {condition : Run → Truth} (test : Run → Bool) (set : Run → Run)
    (named : ∀ r, (condition r).holds = (decide (r.runId = id) && test r)) (keeps : ∀ r, (set r).runId = r.runId) :
    Same (changeRunIf s id test set) (d.updateRuns condition set keeps) := by
  have rows : ∀ k, (changeRunIf s id test set).runs.lookup k = (d.updateRuns condition set keeps).runs.lookup k := by
    intro k
    rw [Db.updateRuns, lookup_update_key keeps named, ← same.runs, ← same.runs, changeRunIf]
    cases found : s.runs.lookup id with
    | none =>
      rw [Option.map_none]
      by_cases isKey : id = k
      · rw [if_pos isKey, ← isKey, found]
      · rw [if_neg isKey]
    | some run =>
      have isId := Table.key_of_lookup found
      by_cases passes : test run = true
      · simp only [passes, if_true, Option.map_some]
        rw [Store.lookup_setRun, keeps, isId]
      · simp only [passes, Bool.false_eq_true, if_false, Option.map_some]
        split
        · rename_i isKey
          rw [← isKey, found]
        · rfl
  have others : (changeRunIf s id test set).jobs = s.jobs ∧ (changeRunIf s id test set).leader = s.leader := by
    unfold changeRunIf
    split
    · exact ⟨rfl, rfl⟩
    · split <;> exact ⟨rfl, rfl⟩
  exact ⟨by rw [others.1]; exact same.jobs, rows, by rw [others.2]; exact same.leader⟩

theorem claimRunById_agrees (same : Same s d) (runId poolId workerId : String) (now : DateTime) (ttl : Int) :
    (s.claimRunById runId poolId workerId now ttl).1 = (d.claimRunById runId poolId workerId now ttl).1 ∧
      Same (s.claimRunById runId poolId workerId now ttl).2 (d.claimRunById runId poolId workerId now ttl).2 := by
  let set (r : Run) : Run := Store.claimedRun r workerId now ttl
  have named : ∀ r, ((Db.runIs runId r).and (Db.claimable poolId now r)).holds =
      (decide (r.runId = runId) && Store.claimable poolId now r) := by
    intro r
    rw [Truth.holds_and, Db.holds_runIs, Db.holds_claimable]
  have memory : s.claimRunById runId poolId workerId now ttl =
      (.ok (((s.runs.lookup runId).filter (Store.claimable poolId now)).map set),
        changeRunIf s runId (Store.claimable poolId now) set) := by
    unfold Store.claimRunById changeRunIf
    cases s.runs.lookup runId with
    | none => rfl
    | some run =>
      cases free : Store.claimable poolId now run with
      | true => simp only [free, if_true, Option.filter_some_pos free, Option.map_some, set]
      | false => simp only [free, Bool.false_eq_true, if_false, Option.filter_some_neg free, Option.map_none]
  rw [memory, same.runs]
  simp only [Db.claimRunById, List.head?_map, head_selected_key named, true_and, set]
  exact changeRunIf_agrees same _ set named fun _ => rfl

theorem renewRunLease_agrees (same : Same s d) (runId workerId : String) (now : DateTime) (ttl : Int) :
    (s.renewRunLease runId workerId now ttl).1 = (d.renewRunLease runId workerId now ttl).1 ∧
      Same (s.renewRunLease runId workerId now ttl).2 (d.renewRunLease runId workerId now ttl).2 := by
  let test (r : Run) : Bool := r.claimedBy.any (· == workerId) && Store.leased r
  let set (r : Run) : Run := { r with claimLeaseUntil := some (now + seconds ttl) }
  have named : ∀ r, ((Db.runIs runId r).and <| (compare r.claimedBy (· == workerId)).and (Db.leased r)).holds =
      (decide (r.runId = runId) && test r) := by
    intro r
    simp only [Truth.holds_and, Db.holds_runIs, holds_compare, Db.holds_leased, test]
  have mine : ∀ r : Run, r.claimedBy.any (· == workerId) = decide (r.claimedBy = some workerId) := by
    intro r
    cases r.claimedBy <;> simp [beq_eq_decide]
  have memory : s.renewRunLease runId workerId now ttl =
      (.ok ((s.runs.lookup runId).any test), changeRunIf s runId test set) := by
    unfold Store.renewRunLease changeRunIf
    cases s.runs.lookup runId with
    | none => rfl
    | some run =>
      by_cases holder : run.claimedBy = some workerId
      · by_cases active : Store.leased run = true <;> simp [test, set, mine, holder, active]
      · simp [test, mine, holder]
  rw [memory, same.runs]
  simp only [Db.renewRunLease, affects_key named, true_and]
  exact changeRunIf_agrees same test set named fun _ => rfl

theorem tryAcquireLeader_agrees (same : Same s d) (clock : DateTime) (instanceId : String) (ttl : Int) :
    (s.tryAcquireLeader clock instanceId ttl).1 = (d.tryAcquireLeader clock instanceId ttl).1 ∧
      Same (s.tryAcquireLeader clock instanceId ttl).2 (d.tryAcquireLeader clock instanceId ttl).2 := by
  let acquired : SchedulerLeader := ⟨leaderRowId, instanceId, clock + seconds ttl, clock⟩
  have taken : Same { s with leader := some acquired } { d with leaders := d.leaders.insert acquired } :=
    ⟨same.jobs, same.runs, (Table.lookup_insert_self d.leaders acquired).symm⟩
  unfold Store.tryAcquireLeader Db.tryAcquireLeader
  rw [same.leader]
  cases d.leaders.lookup leaderRowId with
  | none => exact ⟨rfl, taken⟩
  | some row =>
    simp only [Truth.holds_or, holds_compare, Option.any_some]
    by_cases live : row.leaderLeaseUntil > clock ∧ row.leaderInstanceId ≠ instanceId
    · have closed : (decide (row.leaderLeaseUntil ≤ clock) || row.leaderInstanceId == instanceId) = false := by
        simp [live.1, live.2]
      simp only [if_pos live, closed, Bool.false_eq_true, if_false]
      exact ⟨trivial, same⟩
    · have free : (decide (row.leaderLeaseUntil ≤ clock) || row.leaderInstanceId == instanceId) = true := by
        rw [Bool.or_eq_true, decide_eq_true_eq, beq_iff_eq]
        by_contra both
        rw [not_or, not_le] at both
        exact live both
      simp only [if_neg live, free, if_true]
      exact ⟨trivial, taken⟩

theorem renewLeaderLease_agrees (same : Same s d) (clock : DateTime) (instanceId : String) (ttl : Int) :
    (s.renewLeaderLease clock instanceId ttl).1 = (d.renewLeaderLease clock instanceId ttl).1 ∧
      Same (s.renewLeaderLease clock instanceId ttl).2 (d.renewLeaderLease clock instanceId ttl).2 := by
  let test (row : SchedulerLeader) : Bool := row.leaderInstanceId == instanceId
  let set (row : SchedulerLeader) : SchedulerLeader :=
    { row with leaderLeaseUntil := clock + seconds ttl, lastHeartbeatAt := clock }
  have named : ∀ row : SchedulerLeader, ((compare (some row.leaderId) (· == leaderRowId)).and
      (compare (some row.leaderInstanceId) (· == instanceId))).holds = (decide (row.leaderId = leaderRowId) && test row) := by
    intro row
    simp only [Truth.holds_and, holds_compare, Option.any_some, beq_eq_decide, test]
  have keeps : ∀ row : SchedulerLeader, (set row).leaderId = row.leaderId := fun _ => rfl
  have renewed : ((d.renewLeaderLease clock instanceId ttl).2).leaders.lookup leaderRowId =
      (d.leaders.lookup leaderRowId).map fun row => if test row then set row else row :=
    (lookup_update_key keeps named leaderRowId).trans (if_pos rfl)
  unfold Store.renewLeaderLease
  cases stored : s.leader with
  | none => exact ⟨rfl, same.jobs, same.runs, by rw [renewed, ← same.leader, stored]; rfl⟩
  | some row =>
    by_cases mine : row.leaderInstanceId = instanceId
    · simp only [mine, ne_eq, not_true_eq_false, if_false]
      refine ⟨rfl, same.jobs, same.runs, ?_⟩
      rw [renewed, ← same.leader, stored]
      simp [test, set, mine]
    · simp only [mine, ne_eq, not_false_eq_true, if_true]
      refine ⟨rfl, same.jobs, same.runs, ?_⟩
      rw [renewed, ← same.leader, stored]
      simp [test, mine]

theorem minNextRunAt_agrees (same : Same s d) (owned : List Nat) :
    s.minNextRunAtInPartitions owned = d.minNextRunAtInPartitions owned := by
  unfold Store.minNextRunAtInPartitions Db.minNextRunAtInPartitions
  split
  · rfl
  · let test (j : Job) : Bool := (j.enabled && j.scheduleKind != .manual) &&
      j.partitionHash.any fun h : Int => owned.any fun p => h == (p : Int)
    have times : ∀ rows : List Job, ((rows.filter test).map unstamped).filterMap (·.nextRunAt) =
        (rows.filter test).filterMap (·.nextRunAt) := by
      intro rows
      rw [List.filterMap_map]
      rfl
    have chosen : ∀ rows : List Job, (rows.filter fun j => ((Db.scheduled j).and (Db.partitionIn owned j)).holds).filterMap
        (·.nextRunAt) = (rows.filter test).filterMap (·.nextRunAt) := by
      intro rows
      rw [List.filterMap_filter, List.filterMap_filter]
      refine List.filterMap_congr fun j _ => ?_
      simp only [Db.scheduled, Db.partitionIn, Truth.holds_and, holds_compare, holds_isNotNull, Option.any_some, beq_true,
        test]
      cases next : j.nextRunAt with
      | none => simp
      | some t => simp only [Option.isSome_some, Bool.and_true]
    have ignores : ∀ j, test (unstamped j) = test j := fun _ => rfl
    have rows := (map_filter_perm ignores same.jobRows).filterMap (·.nextRunAt)
    rw [times, times] at rows
    rw [selected, chosen]
    exact congrArg Except.ok (min?_perm rows)

end Rows

end Chronon.Sql
