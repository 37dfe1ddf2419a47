import Chronon.Scheduler.Host

/-!
# `chronon-scheduler/src/tick_loop.rs`

One coordinator tick: the due query, then for each due job the sequence from
`claim_job_for_tick` to `persist_post_tick_job_state`. Where the source only
logs a failed call, the answer is dropped. The body of `enqueue_due_job` is cut
where it awaits a decision: `enqueueClaimed` runs with the tick claim held,
`enqueueCounted` once the active runs are counted, `createTickRun` once the run
is going to be created.
-/

namespace Chronon
set_option autoImplicit false

/-- `count_active_runs`. -/
def countActiveRuns (jobId : String) : Task (Result Int) := do
  match ← call (.listRunsForJob jobId 10000) with
  | .error e => return .error e
  | .ok runs => return .ok ((runs.filter fun r => r.status.isActive).length : Int)

/-- `cron_next_run_at`. -/
def cronNextRunAt (host : Host) (job : Job) (after : DateTime) : Option DateTime :=
  match job.cronExpr with
  | none => none
  | some expr =>
    match CronExpr.parse host.cron expr job.timezone with
    | .ok cron => cron.nextAfter after
    | .error _ => none

/-- `should_enqueue_for_misfire`. -/
def shouldEnqueueForMisfire (scheduledFor now : DateTime) (policy : MisfirePolicy) : Bool :=
  if policy.maxMisfireWindowSecs = 0 then true
  else
    let latenessSecs := max 0 (numSeconds (now - scheduledFor))
    if latenessSecs = 0 then true
    else decide (latenessSecs ≤ policy.maxMisfireWindowSecs) && policy.runImmediately

/-- The fire time a tick stores after it handled `job` at `now`. -/
def postTickNextRunAt (host : Host) (job : Job) (now : DateTime) : Option DateTime :=
  if job.scheduleKind = .cron then cronNextRunAt host job now else none

/-- `skip_due_job`. -/
def skipDueJob (host : Host) (job : Job) (jobId : String) (now : DateTime) : Task (Result Bool) := do
  if job.scheduleKind = .runOnce then
    let _ ← call (.markRunOnceCompleted jobId now)
  let _ ← call (.persistPostTickJobState jobId (postTickNextRunAt host job now))
  let _ ← call (.releaseJobTickClaim jobId)
  return .ok false

/-- Give the tick claim back without a run. -/
def giveUp (jobId : String) : Task (Result Bool) := do
  let _ ← call (.releaseJobTickClaim jobId)
  return .ok false

/-- The run a tick creates. -/
def tickRun (job : Job) (runId : String) (scheduledFor : DateTime) : Run :=
  { Run.forJob runId job.jobId job.scriptName scheduledFor with
    actorJson := job.actorJson
    paramsJson := job.paramsJson
    poolId := some (jobExecutionPoolId job) }

/-- `enqueue_due_job` from `Run::for_job` on. -/
def createTickRun (host : Host) (instanceId jobId : String) (job : Job) (now : DateTime) : Task (Result Bool) := do
  let runId ← newUuid
  match ← call (.createRun (tickRun job runId (job.nextRunAt.getD now))) with
  | .error _ =>
    if job.scheduleKind = .runOnce then
      let at' ← utcNow
      let _ ← call (.releaseRunOnceClaim jobId instanceId at')
    giveUp jobId
  | .ok () =>
    if job.scheduleKind = .runOnce then
      let at' ← utcNow
      let _ ← call (.markRunOnceCompleted jobId at')
    let _ ← call (.persistPostTickJobState jobId (postTickNextRunAt host job now))
    return .ok true

/-- `enqueue_due_job` once the active runs are counted. -/
def enqueueCounted (host : Host) (instanceId jobId : String) (job : Job) (now : DateTime) (activeCount : Int) :
    Task (Result Bool) :=
  if activeCount ≥ job.concurrency then giveUp jobId
  else if !shouldEnqueueForMisfire (job.nextRunAt.getD now) now job.misfirePolicy then
    skipDueJob host job jobId now
  else if job.scheduleKind = .runOnce then do
    match ← call (.tryClaimRunOnce jobId instanceId now (jobClaimLeaseTtlSecs host.env)) with
    | .ok true => createTickRun host instanceId jobId job now
    | _ => giveUp jobId
  else createTickRun host instanceId jobId job now

/-- `enqueue_due_job` once the tick claim is held. -/
def enqueueClaimed (host : Host) (instanceId jobId : String) (now : DateTime) : Task (Result Bool) := do
  match ← call (.getJob jobId) with
  | .error e => return .error e
  | .ok none => giveUp jobId
  | .ok (some job) =>
    match ← countActiveRuns jobId with
    | .ok activeCount => enqueueCounted host instanceId jobId job now activeCount
    | .error _ => enqueueCounted host instanceId jobId job now 0

/-- `enqueue_due_job`. -/
def enqueueDueJob (host : Host) (instanceId jobId : String) : Task (Result Bool) := do
  let now ← utcNow
  let uuid ← newUuid
  match ← call (.claimJobForTick jobId (instanceId ++ ":" ++ uuid) now (jobClaimLeaseTtlSecs host.env)) with
  | .ok true => enqueueClaimed host instanceId jobId now
  | _ => return .ok false

/-- The loop over the due list; the result is `enqueued`. -/
def enqueueAll (host : Host) (instanceId : String) : List String → Task Nat
  | [] => return 0
  | jobId :: rest => do
    let created ← enqueueDueJob host instanceId jobId
    let enqueued ← enqueueAll host instanceId rest
    return match created with
      | .ok true => enqueued + 1
      | _ => enqueued

structure TickResult where
  enqueued : Nat
  dueCount : Nat
  deriving DecidableEq

/-- How long a tick with nothing due sleeps. -/
def idleWait (env : EnvVars) (now : DateTime) (next : Result (Option DateTime)) : Int :=
  match next with
  | .ok (some t) => min (milliseconds (max 0 (numMilliseconds (t - now) - 20))) (seconds 1)
  | _ => milliseconds (tickIntervalMsFromEnv env)

/-- `draining` after a tick that found due jobs. -/
def drainingAfter (env : EnvVars) (now : DateTime) (dueCount : Nat) (next : Result (Option DateTime)) : Bool :=
  let soon := match next with
    | .ok (some t) => decide (t ≤ now + milliseconds 250)
    | _ => false
  decide (min dueCount 4294967295 ≥ tickBatchLimitFromEnv env / 2) || soon

/-- `run_one_tick`; the second component is `draining` afterwards. -/
def runOneTick (host : Host) (instanceId : String) (draining : Bool) : Task (TickResult × Bool) := do
  if host.env.disableCoordinator || host.env.interactive then
    sleep (seconds 30)
    return (⟨0, 0⟩, draining)
  else
    let owned ← issue (.ownedPartitions instanceId)
    if owned.isEmpty then
      sleep (milliseconds 500)
      return (⟨0, 0⟩, draining)
    else
      let now ← utcNow
      let dueUntil := now + milliseconds (if draining then 50 else 0)
      match ← call (.findDueJobIdsInPartitions owned dueUntil (tickBatchLimitFromEnv host.env)) with
      | .error _ =>
        sleep (milliseconds (tickIntervalMsFromEnv host.env))
        return (⟨0, 0⟩, draining)
      | .ok ids =>
        let next ← call (.minNextRunAtInPartitions owned)
        if ids.isEmpty then
          sleep (idleWait host.env now next)
          return (⟨0, 0⟩, false)
        else
          let drains := drainingAfter host.env now ids.length next
          let enqueued ← enqueueAll host instanceId ids
          if drains then issue .yieldNow
          else sleep (milliseconds (tickIntervalMsFromEnv host.env))
          return (⟨enqueued, ids.length⟩, drains)

end Chronon
