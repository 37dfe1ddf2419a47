import Chronon.Mem.Claims
import Chronon.Mem.Runs

/-!
# `chronon-backend-mem/src/store/trait_impl.rs`

The `SchedulerStore` calls as data, with their answers and their execution on
the in-memory store. What a call does to a given job row or run row is said
once, by `JobWrite` and `RunWrite`: everything that is proved about rows goes
through `lookup_job_exec` and `lookup_run_exec`.
-/

namespace Chronon
set_option autoImplicit false

/-- The methods of `SchedulerStore`, with their arguments. TTLs are numbers of seconds with which
the end of a lease is within the range of `DateTime<Utc>`. -/
inductive StoreCall where
  | upsertJob (job : Job)
  | getJob (jobId : String)
  | getJobByName (jobName : String)
  | listJobs
  | listDueJobs (before : DateTime)
  | pauseJob (jobId : String)
  | resumeJob (jobId : String)
  | deleteJob (jobId : String)
  | createRun (run : Run)
  | updateRun (run : Run)
  | getRun (runId : String)
  | listRunsForJob (jobId : String) (limit : Nat)
  | listRunsFiltered (jobId : Option String) (status : Option RunStatus) (offset limit : Nat)
  | claimNextQueued (poolId workerId : String) (now : DateTime) (leaseTtlSecs : Int)
  | claimRunById (runId poolId workerId : String) (now : DateTime) (leaseTtlSecs : Int)
  | renewRunLease (runId workerId : String) (now : DateTime) (leaseTtlSecs : Int)
  | reclaimExpiredRunLeases (now : DateTime)
  | appendRevision (revision : JobRevision)
  | listRevisions (jobId : String)
  | upsertScript (script : Script)
  | getScript (scriptName : String)
  | tryClaimRunOnce (jobId claimedBy : String) (now : DateTime) (claimTtlSecs : Int)
  | markRunOnceCompleted (jobId : String) (completedAt : DateTime)
  | releaseRunOnceClaim (jobId claimedBy : String) (now : DateTime)
  | findDueJobIdsInPartitions (ownedPartitions : List Nat) (dueUntil : DateTime) (limit : Nat)
  | minNextRunAtInPartitions (ownedPartitions : List Nat)
  | claimJobForTick (jobId claimId : String) (now : DateTime) (leaseTtlSecs : Int)
  | releaseJobTickClaim (jobId : String)
  | persistPostTickJobState (jobId : String) (nextRunAt : Option DateTime)
  | tryAcquireLeader (instanceId : String) (ttlSecs : Int)
  | renewLeaderLease (instanceId : String) (ttlSecs : Int)
  | getLeader
  | upsertPartitionAssignment (assignment : PartitionAssignment)
  | listPartitionAssignments
  | registerWorker (worker : Worker)
  | heartbeatWorker (workerId : String) (at' : DateTime)

namespace StoreCall

/-- What a method returns inside `Result`. -/
@[reducible] def Ret : StoreCall → Type
  | .upsertJob _ | .pauseJob _ | .resumeJob _ | .createRun _ | .updateRun _ | .appendRevision _ | .upsertScript _
  | .markRunOnceCompleted _ _ | .releaseRunOnceClaim _ _ _ | .releaseJobTickClaim _ | .persistPostTickJobState _ _
  | .renewLeaderLease _ _ | .upsertPartitionAssignment _ | .registerWorker _ | .heartbeatWorker _ _ => Unit
  | .getJob _ | .getJobByName _ => Option Job
  | .listJobs | .listDueJobs _ => List Job
  | .deleteJob _ | .renewRunLease _ _ _ _ | .tryClaimRunOnce _ _ _ _ | .claimJobForTick _ _ _ _
  | .tryAcquireLeader _ _ => Bool
  | .getRun _ | .claimNextQueued _ _ _ _ | .claimRunById _ _ _ _ _ => Option Run
  | .listRunsForJob _ _ | .listRunsFiltered _ _ _ _ => List Run
  | .reclaimExpiredRunLeases _ | .findDueJobIdsInPartitions _ _ _ => List String
  | .listRevisions _ => List JobRevision
  | .getScript _ => Option Script
  | .minNextRunAtInPartitions _ => Option DateTime
  | .getLeader => Option SchedulerLeader
  | .listPartitionAssignments => List PartitionAssignment

/-- One atomic call at time `clock`. -/
def exec (clock : DateTime) (s : Store) : (c : StoreCall) → Result c.Ret × Store
  | .upsertJob job => s.upsertJob job
  | .getJob jobId => (s.getJob jobId, s)
  | .getJobByName jobName => (s.getJobByName jobName, s)
  | .listJobs => (s.listJobs, s)
  | .listDueJobs before => (s.listDueJobs before, s)
  | .pauseJob jobId => s.pauseJob clock jobId
  | .resumeJob jobId => s.resumeJob clock jobId
  | .deleteJob jobId => s.deleteJob jobId
  | .createRun run => s.createRun run
  | .updateRun run => s.updateRun run
  | .getRun runId => (s.getRun runId, s)
  | .listRunsForJob jobId limit => (s.listRunsForJob jobId limit, s)
  | .listRunsFiltered jobId status offset limit => (s.listRunsFiltered jobId status offset limit, s)
  | .claimNextQueued poolId workerId now ttl => s.claimNextQueued poolId workerId now ttl
  | .claimRunById runId poolId workerId now ttl => s.claimRunById runId poolId workerId now ttl
  | .renewRunLease runId workerId now ttl => s.renewRunLease runId workerId now ttl
  | .reclaimExpiredRunLeases now => s.reclaimExpiredRunLeases now
  | .appendRevision revision => s.appendRevision revision
  | .listRevisions jobId => (s.listRevisions jobId, s)
  | .upsertScript script => s.upsertScript script
  | .getScript scriptName => (s.getScript scriptName, s)
  | .tryClaimRunOnce jobId claimedBy now ttl => s.tryClaimRunOnce jobId claimedBy now ttl
  | .markRunOnceCompleted jobId completedAt => s.markRunOnceCompleted clock jobId completedAt
  | .releaseRunOnceClaim jobId claimedBy now => s.releaseRunOnceClaim jobId claimedBy now
  | .findDueJobIdsInPartitions owned dueUntil limit => (s.findDueJobIdsInPartitions clock owned dueUntil limit, s)
  | .minNextRunAtInPartitions owned => (s.minNextRunAtInPartitions owned, s)
  | .claimJobForTick jobId claimId now ttl => s.claimJobForTick jobId claimId now ttl
  | .releaseJobTickClaim jobId => s.releaseJobTickClaim clock jobId
  | .persistPostTickJobState jobId nextRunAt => s.persistPostTickJobState clock jobId nextRunAt
  | .tryAcquireLeader instanceId ttl => s.tryAcquireLeader clock instanceId ttl
  | .renewLeaderLease instanceId ttl => s.renewLeaderLease clock instanceId ttl
  | .getLeader => (s.getLeader, s)
  | .upsertPartitionAssignment assignment => s.upsertPartitionAssignment assignment
  | .listPartitionAssignments => (s.listPartitionAssignments, s)
  | .registerWorker worker => s.registerWorker worker
  | .heartbeatWorker workerId at' => s.heartbeatWorker workerId at'

end StoreCall

/-! ## Job rows -/

/-- The changes a call can make to one job row. -/
inductive JobWrite where
  | put (job : Job)
  | drop
  | enable (enabled : Bool)
  | claimOnce (claimedBy : String) (now : DateTime) (ttl : Int)
  | complete (completedAt : DateTime)
  | releaseOnce (claimedBy : String)
  | claimTick (claimId : String) (now : DateTime) (ttl : Int)
  | releaseTick
  | persist (nextRunAt : Option DateTime)

namespace JobWrite

/-- The row after the change, stamped with `updated_at`. -/
def onRow (stamp : DateTime) : JobWrite → Job → Job
  | .put job, _ => job
  | .drop, row => row
  | .enable enabled, row => { row with enabled, updatedAt := stamp }
  | .claimOnce claimedBy now ttl, row =>
    { row with
      runOnceClaimedAt := some now
      runOnceClaimedBy := some claimedBy
      runOnceClaimExpiresAt := some (now + seconds ttl)
      updatedAt := stamp }
  | .complete completedAt, row =>
    { row with
      runOnceCompletedAt := some completedAt
      runOnceClaimedAt := none
      runOnceClaimedBy := none
      runOnceClaimExpiresAt := none
      updatedAt := stamp }
  | .releaseOnce claimedBy, row =>
    if row.runOnceClaimedBy = some claimedBy then
      { row with
        runOnceClaimedAt := none
        runOnceClaimedBy := none
        runOnceClaimExpiresAt := none
        updatedAt := stamp }
    else { row with updatedAt := stamp }
  | .claimTick claimId now ttl, row =>
    { row with claimLeaseId := some claimId, claimLeaseUntil := some (now + seconds ttl), updatedAt := stamp }
  | .releaseTick, row => { row with claimLeaseId := none, claimLeaseUntil := none, updatedAt := stamp }
  | .persist nextRunAt, row =>
    { row with nextRunAt, claimLeaseId := none, claimLeaseUntil := none, updatedAt := stamp }

/-- What the row must satisfy for the change to go through. -/
def Allowed : JobWrite → Job → Prop
  | .put _, _ | .drop, _ => False
  | .claimOnce _ _ _, row => row.runOnceCompletedAt = none
  | .claimTick _ now _, row => row.enabled = true ∧ ∀ u, row.claimLeaseUntil = some u → u < now
  | _, _ => True

end JobWrite

/-- How a change takes the row `j` from before to after. -/
inductive JobStep (j : String) : Option JobWrite → Option Job → Option Job → Prop
  | same {row : Option Job} : JobStep j none row row
  | put {row : Option Job} {job : Job} : job.jobId = j → JobStep j (some (.put job)) row (some job)
  | drop {row : Option Job} : JobStep j (some .drop) row none
  | write {w : JobWrite} {row : Job} (stamp : DateTime) : w.Allowed row →
      JobStep j (some w) (some row) (some (w.onRow stamp row))

namespace StoreCall

/-- The job row an answered call has changed, and how. -/
def jobWrite : (c : StoreCall) → Result c.Ret → Option (String × JobWrite)
  | .upsertJob job, .ok () => some (job.jobId, .put job)
  | .deleteJob jobId, .ok _ => some (jobId, .drop)
  | .pauseJob jobId, .ok () => some (jobId, .enable false)
  | .resumeJob jobId, .ok () => some (jobId, .enable true)
  | .tryClaimRunOnce jobId claimedBy now ttl, .ok true => some (jobId, .claimOnce claimedBy now ttl)
  | .markRunOnceCompleted jobId completedAt, .ok () => some (jobId, .complete completedAt)
  | .releaseRunOnceClaim jobId claimedBy _, .ok () => some (jobId, .releaseOnce claimedBy)
  | .claimJobForTick jobId claimId now ttl, .ok true => some (jobId, .claimTick claimId now ttl)
  | .releaseJobTickClaim jobId, .ok () => some (jobId, .releaseTick)
  | .persistPostTickJobState jobId nextRunAt, .ok () => some (jobId, .persist nextRunAt)
  | _, _ => none

/-- The change to the row `j`. -/
def writesTo (c : StoreCall) (r : Result c.Ret) (j : String) : Option JobWrite :=
  match c.jobWrite r with
  | some (target, w) => if target = j then some w else none
  | none => none

end StoreCall

/-- Changing a stored row in place. -/
theorem JobStep.of_setJob {s : Store} {jobId j : String} {row row' : Job} {w : JobWrite} (stamp : DateTime)
    (found : s.jobs.lookup jobId = some row) (allowed : w.Allowed row) (after : row' = w.onRow stamp row)
    (keeps : row'.jobId = row.jobId) :
    JobStep j (if jobId = j then some w else none) (s.jobs.lookup j) ((s.setJob row').jobs.lookup j) := by
  have key : row'.jobId = jobId := keeps.trans (Collections.Table.key_of_lookup found)
  rw [Store.lookup_setJob, key]
  split
  · rename_i same
    subst same
    rw [found, after]
    exact .write stamp allowed
  · exact .same

theorem JobStep.of_mutateJobAt {s s' : Store} {jobId j : String} {now : DateTime} {f : Job → Job} {w : JobWrite}
    {r : Result Unit} (ran : s.mutateJobAt jobId now f = (r, s')) (allowed : ∀ row, w.Allowed row)
    (after : ∀ row, { f row with updatedAt := now } = w.onRow now row)
    (keeps : ∀ row, (f row).jobId = row.jobId) :
    JobStep j (match r with
      | .ok () => if jobId = j then some w else none
      | .error _ => none) (s.jobs.lookup j) (s'.jobs.lookup j) := by
  obtain ⟨missing, rfl, rfl⟩ | ⟨row, found, rfl, rfl⟩ := Store.mutateJobAt_cases ran
  · exact .same
  · exact .of_setJob now found (allowed row) (after row) (keeps row)

/-- **Job rows.** A call changes the row `j` as its `writesTo` says. -/
theorem StoreCall.lookup_job_exec {c : StoreCall} {clock : DateTime} {s s' : Store} {r : Result c.Ret}
    (ran : c.exec clock s = (r, s')) (j : String) :
    JobStep j (c.writesTo r j) (s.jobs.lookup j) (s'.jobs.lookup j) := by
  cases c with
  | upsertJob job =>
    rcases Store.writeJob_cases ran with ⟨⟨e, rfl⟩, rfl⟩ | ⟨rfl, -, rows⟩
    · exact .same
    · rw [rows j]
      simp only [writesTo, jobWrite]
      split
      · exact .put ‹_›
      · exact .same
  | deleteJob jobId =>
    obtain ⟨⟨removed, rfl⟩, -, others, gone⟩ := Store.deleteJob_cases ran
    simp only [writesTo, jobWrite]
    split
    · rename_i same
      subst same
      rw [gone]
      exact .drop
    · rename_i other
      rw [others j other]
      exact .same
  | tryClaimRunOnce jobId claimedBy now ttl =>
    obtain ⟨rfl, rfl⟩ | ⟨row, found, unfinished, rfl, rfl⟩ := Store.tryClaimRunOnce_cases ran
    · exact .same
    · exact .of_setJob now found unfinished rfl rfl
  | claimJobForTick jobId claimId now ttl =>
    obtain ⟨rfl, rfl⟩ | ⟨row, found, enabled, free, rfl, rfl⟩ := Store.claimJobForTick_cases ran
    · exact .same
    · exact .of_setJob now found ⟨enabled, free⟩ rfl rfl
  | pauseJob jobId =>
    have step := JobStep.of_mutateJobAt (j := j) (w := .enable false) ran (fun _ => trivial) (fun _ => rfl) fun _ => rfl
    cases r <;> exact step
  | resumeJob jobId =>
    have step := JobStep.of_mutateJobAt (j := j) (w := .enable true) ran (fun _ => trivial) (fun _ => rfl) fun _ => rfl
    cases r <;> exact step
  | markRunOnceCompleted jobId completedAt =>
    have step := JobStep.of_mutateJobAt (j := j) (w := .complete completedAt) ran (fun _ => trivial) (fun _ => rfl)
      fun _ => rfl
    cases r <;> exact step
  | releaseRunOnceClaim jobId claimedBy now =>
    have step := JobStep.of_mutateJobAt (j := j) (w := .releaseOnce claimedBy) ran (fun _ => trivial)
      (fun row => by simp only [JobWrite.onRow]; split <;> rfl) fun row => by split <;> rfl
    cases r <;> exact step
  | releaseJobTickClaim jobId =>
    have step := JobStep.of_mutateJobAt (j := j) (w := .releaseTick) ran (fun _ => trivial) (fun _ => rfl) fun _ => rfl
    cases r <;> exact step
  | persistPostTickJobState jobId nextRunAt =>
    have step := JobStep.of_mutateJobAt (j := j) (w := .persist nextRunAt) ran (fun _ => trivial) (fun _ => rfl)
      fun _ => rfl
    cases r <;> exact step
  | updateRun run => obtain ⟨-, -, rfl⟩ | ⟨_, -, -, rfl⟩ := Store.updateRun_cases ran <;> exact .same
  | claimNextQueued poolId workerId now ttl =>
    obtain ⟨-, rfl⟩ | ⟨_, -, -, -, rfl⟩ := Store.claimNextQueued_cases ran <;> exact .same
  | claimRunById runId poolId workerId now ttl =>
    obtain ⟨-, rfl⟩ | ⟨_, -, -, -, rfl⟩ := Store.claimRunById_cases ran <;> exact .same
  | renewRunLease runId workerId now ttl =>
    obtain ⟨-, rfl⟩ | ⟨_, -, -, -, -, rfl⟩ := Store.renewRunLease_cases ran <;> exact .same
  | tryAcquireLeader instanceId ttl =>
    rw [(Store.tryAcquireLeader_tables ran).jobs]
    exact .same
  | renewLeaderLease instanceId ttl =>
    rw [(Store.renewLeaderLease_tables ran).jobs]
    exact .same
  | heartbeatWorker workerId at' =>
    rw [(Store.heartbeatWorker_tables ran).jobs]
    exact .same
  | _ => cases ran; exact .same

/-! ## Run rows -/

/-- The changes a call can make to one run row. -/
inductive RunWrite where
  | create (run : Run)
  | update (run : Run)
  | claim (poolId workerId : String) (now : DateTime) (ttl : Int)
  | extend (workerId : String) (until_ : DateTime)
  | reclaim (now : DateTime)

/-- How a change takes the run row `r` from before to after. -/
inductive RunStep (r : String) : Option RunWrite → Option Run → Option Run → Prop
  | same {row : Option Run} : RunStep r none row row
  | create {row : Option Run} {run : Run} : run.runId = r → RunStep r (some (.create run)) row (some run)
  | update {row run : Run} : run.runId = r → RunStep r (some (.update run)) (some row) (some run)
  | claim {row : Run} {poolId workerId : String} {now : DateTime} {ttl : Int} :
      Store.claimable poolId now row = true →
      RunStep r (some (.claim poolId workerId now ttl)) (some row) (some (Store.claimedRun row workerId now ttl))
  | extend {row : Run} {workerId : String} {until_ : DateTime} :
      row.claimedBy = some workerId → Store.leased row = true →
      RunStep r (some (.extend workerId until_)) (some row) (some { row with claimLeaseUntil := some until_ })
  | reclaim {row : Option Run} {now : DateTime} :
      RunStep r (some (.reclaim now)) row (row.map (Store.reclaimed now))

namespace StoreCall

/-- The change an answered call has made to the run row `r`. -/
def runWrite : (c : StoreCall) → Result c.Ret → String → Option RunWrite
  | .createRun run, .ok (), r => if run.runId = r then some (.create run) else none
  | .updateRun run, .ok (), r => if run.runId = r then some (.update run) else none
  | .claimNextQueued poolId workerId now ttl, .ok (some run), r =>
    if run.runId = r then some (.claim poolId workerId now ttl) else none
  | .claimRunById _ poolId workerId now ttl, .ok (some run), r =>
    if run.runId = r then some (.claim poolId workerId now ttl) else none
  | .renewRunLease runId workerId now ttl, .ok true, r =>
    if runId = r then some (.extend workerId (now + seconds ttl)) else none
  | .reclaimExpiredRunLeases now, .ok _, _ => some (.reclaim now)
  | _, _, _ => none

end StoreCall

/-- Replacing the row of `run`. -/
theorem RunStep.of_setRun {s : Store} {run : Run} {r : String} {w : RunWrite}
    (step : run.runId = r → RunStep r (some w) (s.runs.lookup r) (some run)) :
    RunStep r (if run.runId = r then some w else none) (s.runs.lookup r) ((s.setRun run).runs.lookup r) := by
  rw [Store.lookup_setRun]
  split
  · exact step ‹_›
  · exact .same

/-- **Run rows.** A call changes the run row `r` as its `runWrite` says. -/
theorem StoreCall.lookup_run_exec {c : StoreCall} {clock : DateTime} {s s' : Store} {a : Result c.Ret}
    (ran : c.exec clock s = (a, s')) (r : String) :
    RunStep r (c.runWrite a r) (s.runs.lookup r) (s'.runs.lookup r) := by
  cases c with
  | createRun run => cases ran; exact .of_setRun .create
  | updateRun run =>
    obtain ⟨-, rfl, rfl⟩ | ⟨old, found, rfl, rfl⟩ := Store.updateRun_cases ran
    · exact .same
    · refine .of_setRun fun same => ?_
      subst same
      rw [found]
      exact .update rfl
  | claimNextQueued poolId workerId now ttl =>
    obtain ⟨rfl, rfl⟩ | ⟨old, found, ok, rfl, rfl⟩ := Store.claimNextQueued_cases ran
    · exact .same
    · refine .of_setRun fun same => ?_
      subst same
      rw [show (Store.claimedRun old workerId now ttl).runId = old.runId from rfl, found]
      exact .claim ok
  | claimRunById runId poolId workerId now ttl =>
    obtain ⟨rfl, rfl⟩ | ⟨old, found, ok, rfl, rfl⟩ := Store.claimRunById_cases ran
    · exact .same
    · refine .of_setRun fun same => ?_
      subst same
      rw [show (Store.claimedRun old workerId now ttl).runId = old.runId from rfl,
        Collections.Table.key_of_lookup found, found]
      exact .claim ok
  | renewRunLease runId workerId now ttl =>
    obtain ⟨rfl, rfl⟩ | ⟨old, found, mine, active, rfl, rfl⟩ := Store.renewRunLease_cases ran
    · exact .same
    · have key := Collections.Table.key_of_lookup found
      subst key
      let renewed : Run := { old with claimLeaseUntil := some (now + seconds ttl) }
      refine RunStep.of_setRun (s := s) (w := .extend workerId (now + seconds ttl)) fun (same : renewed.runId = r) => ?_
      subst same
      rw [show s.runs.lookup renewed.runId = some old from found]
      exact .extend mine active
  | reclaimExpiredRunLeases now =>
    have rows := Store.lookup_reclaim s now r
    rw [show s.reclaimExpiredRunLeases now = (a, s') from ran] at rows
    cases ran
    rw [rows]
    exact .reclaim
  | upsertJob job =>
    obtain ⟨-, rfl⟩ | ⟨-, runs, -⟩ := Store.writeJob_cases ran
    · exact .same
    · rw [runs]; exact .same
  | deleteJob jobId =>
    obtain ⟨-, runs, -, -⟩ := Store.deleteJob_cases ran
    rw [runs]
    exact .same
  | tryClaimRunOnce jobId claimedBy now ttl =>
    obtain ⟨-, rfl⟩ | ⟨_, -, -, -, rfl⟩ := Store.tryClaimRunOnce_cases ran <;> exact .same
  | claimJobForTick jobId claimId now ttl =>
    obtain ⟨-, rfl⟩ | ⟨_, -, -, -, -, rfl⟩ := Store.claimJobForTick_cases ran <;> exact .same
  | pauseJob _ | resumeJob _ | markRunOnceCompleted _ _ | releaseRunOnceClaim _ _ _ | releaseJobTickClaim _
  | persistPostTickJobState _ _ =>
    obtain ⟨-, -, rfl⟩ | ⟨_, -, -, rfl⟩ := Store.mutateJobAt_cases ran <;> exact .same
  | tryAcquireLeader instanceId ttl =>
    rw [(Store.tryAcquireLeader_tables ran).runs]
    exact .same
  | renewLeaderLease instanceId ttl =>
    rw [(Store.renewLeaderLease_tables ran).runs]
    exact .same
  | heartbeatWorker workerId at' =>
    rw [(Store.heartbeatWorker_tables ran).runs]
    exact .same
  | _ => cases ran; exact .same

end Chronon
