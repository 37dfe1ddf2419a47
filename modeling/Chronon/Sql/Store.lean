import Chronon.Mem.Claims
import Chronon.Relational.Statements
import Chronon.Sql.Runs

/-!
# `chronon-backend-sql-common/src/claims.rs`, `runs.rs`, `jobs.rs` and `coordinator.rs`

`SqlSchedulerStore` over the tables of jobs, runs, revisions and the leader. Each
`WHERE` clause is written as the statement has it, in three-valued logic, and
each statement is atomic. A row is the model it is converted from and to (the
JSON columns are encodings). The condition of `claim_run_by_id` and
`claim_next_queued` is shown to be the one of `Sql/Runs.lean`.

The database compares timestamps chronologically and at full precision.
-/

namespace Chronon.Sql
set_option autoImplicit false

open Collections Relational

/-- The tables. `job_name` is unique. -/
structure Db where
  jobs : Table Job.jobId
  runs : Rows
  revisions : Table JobRevision.revisionId
  leaders : Table SchedulerLeader.leaderId
  names : (jobs.rows.map Job.jobName).Nodup

namespace Db

/-- The tables as `ensure_schema` creates them. -/
def empty : Db := ⟨.empty, .empty, .empty, .empty, List.nodup_nil⟩

/-- An `UPDATE` of job columns other than the identifier and the name. -/
def updateJobs (d : Db) (condition : Job → Truth) (set : Job → Job)
    (keeps : ∀ j, (set j).jobId = j.jobId ∧ (set j).jobName = j.jobName) : Db :=
  { d with
    jobs := update d.jobs condition set fun j => (keeps j).1
    names := by
      have same : Job.jobName ∘ onRow condition set = Job.jobName := by
        funext j
        simp only [Function.comp_apply, onRow]
        split
        · exact (keeps j).2
        · rfl
      rw [update, Table.mapRows, List.map_map, same]
      exact d.names }

def updateRuns (d : Db) (condition : Run → Truth) (set : Run → Run) (keeps : ∀ r, (set r).runId = r.runId) : Db :=
  { d with runs := update d.runs condition set keeps }

/-- `job_id = ?`. -/
def jobIs (jobId : String) (j : Job) : Truth := compare (some j.jobId) (· == jobId)

/-- `run_id = ?`. -/
def runIs (runId : String) (r : Run) : Truth := compare (some r.runId) (· == runId)

/-! ## `jobs.rs` -/

/-- Another job has the name. -/
def nameHolder (d : Db) (job : Job) : Option Job :=
  d.jobs.rows.find? fun j => j.jobName = job.jobName ∧ j.jobId ≠ job.jobId

theorem names_insert {d : Db} {job : Job} (free : d.nameHolder job = none) :
    ((d.jobs.insert job).rows.map Job.jobName).Nodup := by
  have apart : ∀ j ∈ d.jobs.rows, j.jobId ≠ job.jobId → j.jobName ≠ job.jobName := by
    intro j inside other same
    have taken := List.find?_eq_none.mp free j inside
    simp [same, other] at taken
  have distinct : (d.jobs.insert job).rows.Nodup := List.Nodup.of_map _ (d.jobs.insert job).distinct
  refine List.Nodup.map_on ?_ distinct
  intro a insideA b insideB same
  rw [Table.insert, Table.mem_put] at insideA insideB
  rcases insideA with rfl | ⟨storedA, otherA⟩
  · rcases insideB with rfl | ⟨storedB, otherB⟩
    · rfl
    · exact absurd same.symm (apart b storedB otherB)
  · rcases insideB with rfl | ⟨storedB, otherB⟩
    · exact absurd same (apart a storedA otherA)
    · exact List.inj_on_of_nodup_map d.names storedA storedB same

/-- `upsert_job`: a unique violation can only come from the name. -/
def upsertJob (d : Db) (job : Job) : Result Unit × Db :=
  match free : d.nameHolder job with
  | some holder => (.error (.jobNameTaken job.jobName holder.jobId), d)
  | none => (.ok (), { d with jobs := d.jobs.insert job, names := names_insert free })

def getJob (d : Db) (jobId : String) : Result (Option Job) := .ok (d.jobs.lookup jobId)

def getJobByName (d : Db) (jobName : String) : Result (Option Job) :=
  .ok (d.jobs.rows.find? fun j => j.jobName = jobName)

/-- The two statements of `pause_job` and `resume_job`. -/
def setEnabled (d : Db) (clock : DateTime) (jobId : String) (enabled : Bool) : Result Unit × Db :=
  let d' := d.updateJobs (jobIs jobId) (fun j => { j with enabled, updatedAt := clock }) fun _ => ⟨rfl, rfl⟩
  match d'.jobs.lookup jobId with
  | none => (.error (.jobNotFound jobId), d')
  | some _ => (.ok (), d')

def pauseJob (d : Db) (clock : DateTime) (jobId : String) : Result Unit × Db := d.setEnabled clock jobId false

def resumeJob (d : Db) (clock : DateTime) (jobId : String) : Result Unit × Db := d.setEnabled clock jobId true

/-- `delete_job`. -/
def deleteJob (d : Db) (jobId : String) : Result Bool × Db :=
  match d.jobs.lookup jobId with
  | none => (.ok false, d)
  | some _ =>
    (.ok true, { d with
      revisions := ⟨d.revisions.rows.filter fun r => r.jobId ≠ jobId,
        (List.filter_sublist.map JobRevision.revisionId).nodup d.revisions.distinct⟩
      jobs := d.jobs.erase jobId
      names := (List.filter_sublist.map Job.jobName).nodup d.names })

/-! ## `claims.rs` -/

/-- The condition of `try_claim_run_once`. -/
def runOnceFree (jobId claimedBy : String) (now : DateTime) (j : Job) : Truth :=
  (jobIs jobId j).and <| (isNull j.runOnceCompletedAt).and <|
    (isNull j.runOnceClaimedAt).or <| (compare j.runOnceClaimExpiresAt fun e => decide (e ≤ now)).or <|
      compare j.runOnceClaimedBy (· == claimedBy)

def tryClaimRunOnce (d : Db) (jobId claimedBy : String) (now : DateTime) (claimTtlSecs : Int) : Result Bool × Db :=
  let free := runOnceFree jobId claimedBy now
  let set (j : Job) : Job := { j with
    runOnceClaimedAt := some now
    runOnceClaimedBy := some claimedBy
    runOnceClaimExpiresAt := some (now + seconds claimTtlSecs)
    updatedAt := now }
  (.ok (affects d.jobs free), d.updateJobs free set fun _ => ⟨rfl, rfl⟩)

/-- `mark_run_once_completed`. -/
def markRunOnceCompleted (d : Db) (jobId : String) (completedAt : DateTime) : Result Unit × Db :=
  let set (j : Job) : Job := { j with
    runOnceCompletedAt := some completedAt
    runOnceClaimedAt := none
    runOnceClaimedBy := none
    runOnceClaimExpiresAt := none
    updatedAt := completedAt }
  (.ok (), d.updateJobs (jobIs jobId) set fun _ => ⟨rfl, rfl⟩)

/-- `release_run_once_claim`. -/
def releaseRunOnceClaim (d : Db) (jobId claimedBy : String) (now : DateTime) : Result Unit × Db :=
  let condition (j : Job) : Truth := (jobIs jobId j).and (compare j.runOnceClaimedBy (· == claimedBy))
  let set (j : Job) : Job := { j with
    runOnceClaimedAt := none
    runOnceClaimedBy := none
    runOnceClaimExpiresAt := none
    updatedAt := now }
  (.ok (), d.updateJobs condition set fun _ => ⟨rfl, rfl⟩)

/-- `enabled = 1 AND schedule_kind != 'manual' AND next_run_at IS NOT NULL`. -/
def scheduled (j : Job) : Truth :=
  (compare (some j.enabled) (· == true)).and <| (compare (some j.scheduleKind) (· != .manual)).and <|
    isNotNull j.nextRunAt

/-- `partition_hash IN (...)`. -/
def partitionIn (ownedPartitions : List Nat) (j : Job) : Truth :=
  compare j.partitionHash fun h : Int => ownedPartitions.any fun p => h == (p : Int)

/-- `claim_lease_until IS NULL OR claim_lease_until < ?`. -/
def tickFree (now : DateTime) (j : Job) : Truth :=
  (isNull j.claimLeaseUntil).or (compare j.claimLeaseUntil fun u => decide (u < now))

/-- The condition of `find_due_job_ids_in_partitions`; `clock` is the `Utc::now()` it reads. -/
def due (clock : DateTime) (ownedPartitions : List Nat) (dueUntil : DateTime) (j : Job) : Truth :=
  (scheduled j).and <| (compare j.nextRunAt fun t => decide (t ≤ dueUntil)).and <|
    (partitionIn ownedPartitions j).and <| (tickFree clock j).and <|
      (compare (some j.scheduleKind) (· != .runOnce)).or (isNull j.runOnceCompletedAt)

/-- `find_due_job_ids_in_partitions` may return `r`. -/
def FindDueJobIdsInPartitions (d : Db) (clock : DateTime) (ownedPartitions : List Nat) (dueUntil : DateTime) (limit : Nat)
    (r : Result (List String)) : Prop :=
  if ownedPartitions.isEmpty || limit == 0 then r = .ok []
  else ∃ rows, Ordered Job.nextRunAt (selected d.jobs (due clock ownedPartitions dueUntil)) rows ∧
    r = .ok ((rows.take limit).map (·.jobId))

/-- `min_next_run_at_in_partitions`: `MIN` of no row is null. -/
def minNextRunAtInPartitions (d : Db) (ownedPartitions : List Nat) : Result (Option DateTime) :=
  if ownedPartitions.isEmpty then .ok none
  else .ok ((selected d.jobs fun j => (scheduled j).and (partitionIn ownedPartitions j)).filterMap (·.nextRunAt)).min?

/-- `claim_job_for_tick`. -/
def claimJobForTick (d : Db) (jobId claimId : String) (now : DateTime) (leaseTtlSecs : Int) : Result Bool × Db :=
  let condition (j : Job) : Truth := (jobIs jobId j).and <| (compare (some j.enabled) (· == true)).and (tickFree now j)
  let set (j : Job) : Job := { j with
    claimLeaseId := some claimId
    claimLeaseUntil := some (now + seconds leaseTtlSecs)
    updatedAt := now }
  (.ok (affects d.jobs condition), d.updateJobs condition set fun _ => ⟨rfl, rfl⟩)

/-- `release_job_tick_claim`. -/
def releaseJobTickClaim (d : Db) (clock : DateTime) (jobId : String) : Result Unit × Db :=
  (.ok (), d.updateJobs (jobIs jobId)
    (fun j => { j with claimLeaseId := none, claimLeaseUntil := none, updatedAt := clock }) fun _ => ⟨rfl, rfl⟩)

/-- `persist_post_tick_job_state`. -/
def persistPostTickJobState (d : Db) (clock : DateTime) (jobId : String) (nextRunAt : Option DateTime) :
    Result Unit × Db :=
  (.ok (), d.updateJobs (jobIs jobId)
    (fun j => { j with nextRunAt, claimLeaseId := none, claimLeaseUntil := none, updatedAt := clock }) fun _ => ⟨rfl, rfl⟩)

/-! ## `runs.rs` -/

def createRun (d : Db) (run : Run) : Result Unit × Db :=
  let (r, runs) := Sql.createRun d.runs run
  (r, { d with runs })

/-- `update_run`, with the read that finds a missing row. -/
def updateRun (d : Db) (run : Run) : Result Unit × Db :=
  let d' := d.updateRuns (runIs run.runId) (fun old => { run with runId := old.runId }) fun _ => rfl
  match d'.runs.lookup run.runId with
  | none => (.error (.runNotFound run.runId), d')
  | some _ => (.ok (), d')

/-- The condition `claim_run_by_id` and `claim_next_queued` share. -/
def claimable (poolId : String) (now : DateTime) (r : Run) : Truth :=
  (compare (some r.status) (· == .queued)).and <| (compare (some r.scheduledFor) fun t => decide (t ≤ now)).and <|
    ((isNull r.claimLeaseUntil).or (compare r.claimLeaseUntil fun u => decide (u ≤ now))).and <|
      (compare r.poolId (· == poolId)).or <|
        (compare (some poolId) (· == "general")).and ((isNull r.poolId).or (compare r.poolId (· == "general")))

/-- `claim_run_by_id`. -/
def claimRunById (d : Db) (runId poolId workerId : String) (now : DateTime) (leaseTtlSecs : Int) :
    Result (Option Run) × Db :=
  let condition (r : Run) : Truth := (runIs runId r).and (claimable poolId now r)
  let set (r : Run) : Run := Store.claimedRun r workerId now leaseTtlSecs
  (.ok ((selected d.runs condition).map set).head?, d.updateRuns condition set fun _ => rfl)

/-- `claim_next_queued` may return `r` and leave `d'`: the row of the subquery is updated and returned. -/
def ClaimNextQueued (d : Db) (poolId workerId : String) (now : DateTime) (leaseTtlSecs : Int) (r : Result (Option Run))
    (d' : Db) : Prop :=
  ∃ rows, Ordered (fun run => some run.scheduledFor) (selected d.runs (claimable poolId now)) rows ∧
    match rows.head? with
    | none => r = .ok none ∧ d' = d
    | some run =>
      r = .ok (some (Store.claimedRun run workerId now leaseTtlSecs)) ∧
        d' = d.updateRuns (runIs run.runId) (fun old => Store.claimedRun old workerId now leaseTtlSecs) fun _ => rfl

/-- `status IN ('claimed', 'running')`. -/
def leased (r : Run) : Truth := compare (some r.status) fun status => status == .claimed || status == .running

/-- `renew_run_lease`. -/
def renewRunLease (d : Db) (runId workerId : String) (now : DateTime) (leaseTtlSecs : Int) : Result Bool × Db :=
  let condition (r : Run) : Truth := (runIs runId r).and <| (compare r.claimedBy (· == workerId)).and (leased r)
  (.ok (affects d.runs condition),
    d.updateRuns condition (fun r => { r with claimLeaseUntil := some (now + seconds leaseTtlSecs) }) fun _ => rfl)

/-- The condition of `reclaim_expired_run_leases`. -/
def leaseExpired (now : DateTime) (r : Run) : Truth :=
  (leased r).and <| (isNotNull r.claimLeaseUntil).and (compare r.claimLeaseUntil fun u => decide (u ≤ now))

/-- `reclaim_expired_run_leases` may return `r` and leave `d'`. -/
def ReclaimExpiredRunLeases (d : Db) (now : DateTime) (r : Result (List String)) (d' : Db) : Prop :=
  (∃ rows : List Run, rows.Perm (selected d.runs (leaseExpired now)) ∧ r = .ok (rows.map (·.runId))) ∧
    d' = d.updateRuns (leaseExpired now)
      (fun run => { run with status := .queued, claimedBy := none, claimLeaseUntil := none, startedAt := none })
      fun _ => rfl

/-! ## `coordinator.rs` -/

/-- `try_acquire_leader`: an insert that updates the singleton row where it may. -/
def tryAcquireLeader (d : Db) (clock : DateTime) (instanceId : String) (ttlSecs : Int) : Result Bool × Db :=
  let acquired : SchedulerLeader := ⟨leaderRowId, instanceId, clock + seconds ttlSecs, clock⟩
  match d.leaders.lookup leaderRowId with
  | none => (.ok true, { d with leaders := d.leaders.insert acquired })
  | some row =>
    let free := (compare (some row.leaderLeaseUntil) fun u => decide (u ≤ acquired.lastHeartbeatAt)).or
      (compare (some row.leaderInstanceId) (· == acquired.leaderInstanceId))
    if free.holds then (.ok true, { d with leaders := d.leaders.insert acquired }) else (.ok false, d)

/-- `renew_leader_lease`. -/
def renewLeaderLease (d : Db) (clock : DateTime) (instanceId : String) (ttlSecs : Int) : Result Unit × Db :=
  let condition (row : SchedulerLeader) : Truth :=
    (compare (some row.leaderId) (· == leaderRowId)).and (compare (some row.leaderInstanceId) (· == instanceId))
  (.ok (), { d with
    leaders := update d.leaders condition
      (fun row => { row with leaderLeaseUntil := clock + seconds ttlSecs, lastHeartbeatAt := clock }) fun _ => rfl })

/-! ## The conditions -/

@[simp] theorem holds_jobIs (jobId : String) (j : Job) : (jobIs jobId j).holds = decide (j.jobId = jobId) := by
  simp only [jobIs, holds_compare, Option.any_some, beq_eq_decide]

@[simp] theorem holds_runIs (runId : String) (r : Run) : (runIs runId r).holds = decide (r.runId = runId) := by
  simp only [runIs, holds_compare, Option.any_some, beq_eq_decide]

@[simp] theorem holds_leased (r : Run) : (leased r).holds = Store.leased r := by
  simp only [leased, holds_compare, Option.any_some, Store.leased]

/-- A missing lease is free, as in memory. -/
theorem holds_claimable (poolId : String) (now : DateTime) (r : Run) :
    (claimable poolId now r).holds = Store.claimable poolId now r := by
  have lease : (r.claimLeaseUntil.isNone || r.claimLeaseUntil.any fun u => decide (u ≤ now)) =
      !r.claimLeaseUntil.any (fun u => decide (u > now)) := by
    cases r.claimLeaseUntil with
    | none => rfl
    | some u => simp [← decide_not]
  have pool : (r.poolId.any (· == poolId) || (poolId == "general" && (r.poolId.isNone || r.poolId.any (· == "general")))) =
      Store.poolOk poolId r := by
    unfold Store.poolOk
    cases r.poolId <;> simp
  simp only [claimable, Truth.holds_and, Truth.holds_or, holds_compare, holds_isNull, Option.any_some, lease, pool,
    Store.claimable, Bool.and_assoc]

theorem holds_leaseExpired (now : DateTime) (r : Run) : (leaseExpired now r).holds = Store.leaseExpired now r := by
  simp only [leaseExpired, Truth.holds_and, holds_leased, holds_isNotNull, holds_compare, Store.leaseExpired]
  cases r.claimLeaseUntil <;> simp

theorem holds_tickFree (now : DateTime) (j : Job) : (tickFree now j).holds = j.claimLeaseUntil.all (· < now) := by
  simp only [tickFree, Truth.holds_or, holds_isNull, holds_compare]
  cases j.claimLeaseUntil <;> simp

/-- The due condition is that of the in-memory store. -/
theorem holds_due (clock : DateTime) (owned : List Nat) (dueUntil : DateTime) (j : Job) :
    (due clock owned dueUntil j).holds = Store.isDue clock owned dueUntil j := by
  simp only [due, scheduled, partitionIn, Truth.holds_and, Truth.holds_or, holds_compare, holds_isNull, holds_isNotNull,
    Option.any_some, holds_tickFree, Store.isDue, Store.scheduleDue]
  cases j.nextRunAt with
  | none => simp
  | some t =>
    simp only [Option.isSome_some, Option.any_some, beq_true, Bool.and_true]
    ac_rfl

/-- The claims of `Sql/Runs.lean` are these statements. -/
theorem claimRunById_eq (d : Db) (runId poolId workerId : String) (now : DateTime) (ttl : Int) :
    d.claimRunById runId poolId workerId now ttl =
      (.ok (Sql.claimRunById d.runs runId poolId workerId now ttl).1,
        { d with runs := (Sql.claimRunById d.runs runId poolId workerId now ttl).2 }) := by
  have same : ∀ r : Run, ((runIs runId r).and (claimable poolId now r)).holds =
      (r.runId == runId && Store.claimable poolId now r) := by
    intro r
    rw [Truth.holds_and, holds_runIs, holds_claimable, beq_eq_decide]
  simp only [claimRunById, updateRuns, Sql.claimRunById, claimWhere, selected, update, same]
  have rows : onRow (fun r => (runIs runId r).and (claimable poolId now r)) (fun r => Store.claimedRun r workerId now ttl) =
      claimRow workerId now ttl fun run => run.runId == runId && Store.claimable poolId now run := by
    funext r
    simp only [onRow, claimRow, same]
  simp only [rows]

end Db

end Chronon.Sql
