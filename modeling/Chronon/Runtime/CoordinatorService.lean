import Chronon.Scheduler.Host

/-!
# `chronon-runtime/src/coordinator_service.rs`

The job and run operations behind the API, as sequences of store calls.
-/

namespace Chronon.CoordinatorService
set_option autoImplicit false

/-- The partition of a job, computed once. -/
def withPartition (host : Host) (job : Job) : Job :=
  match job.partitionHash with
  | none => { job with partitionHash := some (partitionHashI64ForJobId host job.jobId) }
  | some _ => job

/-- `JobRevision::new`, which draws an identifier and reads the clock. -/
def newRevision (job : Job) (revisionNumber : Int) : Task JobRevision := do
  let revisionId ← newUuid
  let changedAt ← utcNow
  return ⟨revisionId, job.jobId, revisionNumber, changedAt, job.actorJson, job⟩

/-- `upsert_job` from `updated_at` on: the checks against the stored row, the
revision, and the write of the full row. -/
def storeJob (job : Job) : Task (Result Unit) := do
  let updatedAt ← utcNow
  let job := { job with updatedAt }
  match ← call (.getJob job.jobId) with
  | .error e => return .error e
  | .ok (some existing) =>
    if existing.scriptName ≠ job.scriptName then
      return .error (.scriptMismatch existing.scriptName job.scriptName job.jobName)
    else if existing.currentRevision ≠ job.currentRevision then
      let revision ← newRevision job job.currentRevision
      match ← call (.appendRevision revision) with
      | .error e => return .error e
      | .ok () => call (.upsertJob job)
    else call (.upsertJob job)
  | .ok none =>
    match ← call (.getJobByName job.jobName) with
    | .error e => return .error e
    | .ok (some holder) => return .error (.jobNameTaken job.jobName holder.jobId)
    | .ok none =>
      let revision ← newRevision job 1
      match ← call (.appendRevision revision) with
      | .error e => return .error e
      | .ok () => call (.upsertJob job)

/-- `CoordinatorService::upsert_job`. -/
def upsertJob (host : Host) (job : Job) : Task (Result Unit) := do
  let job := withPartition host job
  match job.scheduleKind, job.cronExpr with
  | .cron, some expr =>
    match CronExpr.parse host.cron expr job.timezone with
    | .error e => return .error e
    | .ok cron =>
      let now ← utcNow
      storeJob { job with nextRunAt := cron.nextAfter now }
  | _, _ => storeJob job

def deleteJob (jobId : String) : Task (Result Bool) := call (.deleteJob jobId)

def pauseJob (jobId : String) : Task (Result Unit) := call (.pauseJob jobId)

def resumeJob (jobId : String) : Task (Result Unit) := call (.resumeJob jobId)

/-- `get_job_by_name`: a failed lookup counts as no job. -/
def getJobByName (jobName : String) : Task (Option Job) := do
  match ← call (.getJobByName jobName) with
  | .ok job => return job
  | .error _ => return none

/-- `run_now_with_params_and_actor`. -/
def runNowWithParamsAndActor (jobId : String) (paramsOverride actorOverride : Option Json) : Task (Result String) := do
  match ← call (.getJob jobId) with
  | .error e => return .error e
  | .ok none => return .error (.jobNotFound jobId)
  | .ok (some job) =>
    let now ← utcNow
    let runId ← newUuid
    let run := { Run.forJob runId job.jobId job.scriptName now with
      actorJson := actorOverride.getD job.actorJson
      paramsJson := paramsOverride.getD job.paramsJson
      poolId := some (jobExecutionPoolId job) }
    match ← call (.createRun run) with
    | .error e => return .error e
    | .ok () => return .ok runId

/-- `run_now_with_params`. -/
def runNowWithParams (jobId : String) (paramsOverride : Option Json) : Task (Result String) :=
  runNowWithParamsAndActor jobId paramsOverride none

/-- `run_now`. -/
def runNow (jobId : String) : Task (Result String) := runNowWithParamsAndActor jobId none none

end Chronon.CoordinatorService
