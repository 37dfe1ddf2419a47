import Chronon.Scheduler.Host
import Chronon.Core.Redact

/-!
# `chronon-runtime/src/worker.rs`, `retry.rs`, `events.rs` and `reclaim.rs`

The parties that execute runs: one pass of a worker slot, the renewal task it
spawns, the reclaim loop and the executor event handler, and the finalization
of a failed run that slots and events share. A slot or loop that runs forever
is its pass started again and again; the abort of the renewal task when its
slot is done is left to the scheduler of the interleaving, which may stop
running it at any point.

The redaction of error texts can panic, and so can the sum that dates a retry;
a panic ends the task.
-/

namespace Chronon
set_option autoImplicit false

/-! ## `retry.rs` -/

/-- `str::contains`. -/
def containsText (text part : String) : Bool := (Text.findStr part.toList text.toList).isSome

/-- `CapturedLogs::ensure_stderr_message`. -/
def CapturedLogs.ensureStderrMessage (logs : CapturedLogs) (message : String) : CapturedLogs :=
  if message = "" then logs
  else
    match logs.stderrText with
    | some existing =>
      if existing ≠ "" then
        if containsText existing message then logs
        else { logs with stderrText := some (existing ++ "\n" ++ message) }
      else { logs with stderrText := some message }
    | none => { logs with stderrText := some message }

/-- The failed row `finalize_failed_run` writes. -/
def failedRun (run : Run) (status : RunStatus) (message : String) (logs : Option CapturedLogs) (now : DateTime) : Run :=
  let run := match status with
    | .timeout => run.timeout now message
    | _ => run.fail now message
  match logs with
  | some captured =>
    let captured := captured.ensureStderrMessage message
    { run with stdoutText := captured.stdoutText, stderrText := captured.stderrText }
  | none => { run with stderrText := some message }

/-- The retry of a failed run. -/
def retryRun (run : Run) (runId : String) (scheduledFor : DateTime) : Run :=
  { Run.forJob runId (run.jobId.getD "") run.scriptName scheduledFor with
    attempt := wrapI32 (run.attempt + 1)
    actorJson := run.actorJson
    paramsJson := run.paramsJson
    poolId := run.poolId
    placementJson := run.placementJson
    parentRunId := run.parentRunId
    rootRunId := run.rootRunId }

/-- `scheduled_for` of the retry; `none` is the panic of the sum. -/
def retryTime (policy : RetryPolicy) (failedAttempt : Int) (now : DateTime) : Option DateTime :=
  let delayMs := asI64 (policy.delayMsAfter failedAttempt)
  addDuration now (milliseconds (max delayMs 0))

/-- The retry decision after the terminal row is stored. -/
def retryFailed (run : Run) (job : Job) : Task Unit := do
  if job.retryPolicy.shouldRetry run.attempt then
    let now ← utcNow
    match retryTime job.retryPolicy run.attempt now with
    | none => panicked
    | some scheduledFor =>
      let runId ← newUuid
      let _ ← call (.createRun (retryRun run runId scheduledFor))

/-- `finalize_failed_run`. -/
def finalizeFailedRun (run : Run) (job : Job) (status : RunStatus) (error : String) (logs : Option CapturedLogs) :
    Task Unit :=
  match safeMessage error with
  | none => panicked
  | some message => do
    let now ← utcNow
    let run := failedRun run status message logs now
    match ← call (.updateRun run) with
    | .error _ => return ()
    | .ok () => retryFailed run job

/-! ## `worker.rs` -/

/-- `execute_script_catch_panic`, for the ways the spawned task can end. -/
def JoinOutcome.toOutcome : JoinOutcome → ExecuteScriptOutcome
  | .finished outcome => outcome
  | .panicked => ⟨.error (.internal "handler panicked"), .default⟩
  | .cancelled => ⟨.error (.internal "handler task cancelled"), .default⟩

/-- What the slot makes of the end of a script. -/
def statusResult (timeoutMs : Int) : Option JoinOutcome → Except (RunStatus × String) Unit × CapturedLogs
  | some ended =>
    let outcome := ended.toOutcome
    match outcome.result with
    | .ok () => (.ok (), outcome.logs)
    | .error e => (.error (.failed, e.toText), outcome.logs)
  | none => (.error (.timeout, "run exceeded timeout_ms=" ++ toString timeoutMs), .default)

/-- The successful row a slot writes. -/
def completedRun (run : Run) (now : DateTime) (durationMs : Int) (logs : CapturedLogs) : Run :=
  let run := { run.complete now with durationMs := some durationMs }
  { run with
    stdoutText := logs.stdoutText.or run.stdoutText
    stderrText := logs.stderrText.or run.stderrText }

/-- The slot's work on a run that is stored as running. -/
def executeRun (run : Run) (job : Job) : Task Unit := do
  let started ← utcNow
  let timeoutMs := job.timeoutMs.filter (0 < ·)
  let ended ← issue (.executeScript timeoutMs ⟨run.scriptName, run.actorJson, run.paramsJson, job.jobName, run.runId⟩)
  let finished ← utcNow
  let durationMs := numMilliseconds (finished - started)
  match statusResult (timeoutMs.getD 0) ended with
  | (.ok (), logs) =>
    let now ← utcNow
    let _ ← call (.updateRun (completedRun run now durationMs logs))
  | (.error (status, err), logs) =>
    finalizeFailedRun { run with durationMs := some durationMs } job status err (some logs)

/-- Fail the copy of a run that cannot be started. -/
def failUnstarted (run : Run) (reason : String) : Task Unit := do
  let at' ← utcNow
  let _ ← call (.updateRun (run.fail at' reason))

/-- `worker_slot` once a run is claimed. -/
def workClaimed (run : Run) : Task Unit :=
  match run.jobId with
  | none => failUnstarted run "missing job_id"
  | some jobId => do
    match ← call (.getJob jobId) with
    | .ok (some job) =>
      let at' ← utcNow
      match ← call (.updateRun (run.start at')) with
      | .error _ => return ()
      | .ok () => executeRun (run.start at') job
    | _ => failUnstarted run "job not found"

/-- One pass of the loop of `worker_slot`. -/
def workerSlot (host : Host) (pool workerId : String) : Task Unit := do
  if host.env.disableWorker || host.env.interactive then
    sleep (seconds 30)
  else
    let now ← utcNow
    match ← call (.claimNextQueued pool workerId now (runWorkerLeaseTtlSecs host.env)) with
    | .ok (some run) => workClaimed run
    | _ => sleep (milliseconds 50)

/-- One pass of the renewal task; its loop ends when this answers `false`. -/
def renewLease (host : Host) (runId workerId : String) : Task Bool := do
  sleep (seconds (runWorkerLeaseRenewSecs host.env))
  let now ← utcNow
  match ← call (.renewRunLease runId workerId now (runWorkerLeaseTtlSecs host.env)) with
  | .ok renewed => return renewed
  | .error _ => return false

/-! ## `reclaim.rs` -/

/-- One pass of `run_reclaim_loop`. -/
def reclaimOnce : Task Unit := do
  sleep (seconds 15)
  let now ← utcNow
  let _ ← call (.reclaimExpiredRunLeases now)

/-! ## `events.rs` -/

/-- `ExecutorEvent`. -/
inductive ExecutorEvent where
  | runStarted (runId : String)
  | runCompleted (runId : String) (durationMs : Int) (logs : CapturedLogs)
  | runFailed (runId error : String) (logs : CapturedLogs)

/-- `apply_logs`. -/
def applyLogs (run : Run) (logs : CapturedLogs) : Run :=
  { run with
    stdoutText := logs.stdoutText.or run.stdoutText
    stderrText := logs.stderrText.or run.stderrText }

/-- `RunFailed` on a run whose job is not stored. -/
def failWithoutJob (run : Run) (error : String) (logs : CapturedLogs) : Task Unit :=
  match safeMessage error with
  | none => panicked
  | some safe => do
    let now ← utcNow
    let _ ← call (.updateRun (applyLogs (run.fail now safe) (logs.ensureStderrMessage safe)))

/-- `RunFailed` on a running run. -/
def failRunning (run : Run) (error : String) (logs : CapturedLogs) : Task Unit :=
  match run.jobId with
  | some jobId => do
    match ← call (.getJob jobId) with
    | .ok (some job) => finalizeFailedRun run job .failed error (some logs)
    | _ => failWithoutJob run error logs
  | none => failWithoutJob run error logs

/-- `handle_executor_event`. -/
def handleExecutorEvent : ExecutorEvent → Task Unit
  | .runStarted runId => do
    match ← call (.getRun runId) with
    | .ok (some run) =>
      if run.status = .queued ∨ run.status = .claimed then
        let now ← utcNow
        let _ ← call (.updateRun { run with startedAt := some now, status := .running })
    | _ => return ()
  | .runCompleted runId durationMs logs => do
    match ← call (.getRun runId) with
    | .ok (some run) =>
      if run.status = .running then
        let now ← utcNow
        let _ ← call (.updateRun (applyLogs { run.complete now with durationMs := some durationMs } logs))
    | _ => return ()
  | .runFailed runId error logs => do
    match ← call (.getRun runId) with
    | .ok (some run) => if run.status = .running then failRunning run error logs
    | _ => return ()

end Chronon
