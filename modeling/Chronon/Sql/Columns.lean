import Chronon.Core.Job
import Chronon.Core.Run
import Chronon.Relational.Rows
import Chronon.Sql.Batch

/-!
# `chronon-backend-sql-common/src/row/`, and the statements that write its rows

The columns of the tables, the conversions between models and row structures, and
the `INSERT`, `UPDATE` and `SELECT` statements as their lists of columns,
placeholders and bound values. JSON is stored as text; the text of a value, what a
text decodes to and the driver's errors come from a `Driver`.
-/

namespace Chronon.Sql.Columns
set_option autoImplicit false

open Relational

/-- `serde_json::to_string` and `from_str`, the error of a `try_get` and that of a refused statement. -/
structure Driver where
  encode : Json → Result String
  decode : String → Result Json
  columnError : String → ChrononError
  violationError : Violation → ChrononError

/-- `bind_sql`: Postgres numbers the question marks from `n`. -/
def numbered : Nat → List Placeholder → List Placeholder
  | _, [] => []
  | n, .question :: rest => .dollar n :: numbered (n + 1) rest
  | n, .dollar k :: rest => .dollar k :: numbered n rest

/-- `bind_sql`. -/
def bindSql (dialect : SqlDialect) (placeholders : List Placeholder) : List Placeholder :=
  match dialect with
  | .sqlite => placeholders
  | .postgres => numbered 1 placeholders

/-- `?, ?, …`. -/
def questions (n : Nat) : List Placeholder := List.replicate n .question

/-! ## `schema.rs` -/

/-- `JOB_TABLE`. -/
def jobTable : TableDef where
  columns := [
    ⟨"job_id", .text, true⟩, ⟨"job_name", .text, true⟩, ⟨"script_name", .text, true⟩,
    ⟨"script_sig_hash", .text, true⟩, ⟨"enabled", .integer, true⟩, ⟨"schedule_kind", .text, true⟩,
    ⟨"cron_expr", .text, false⟩, ⟨"timezone", .text, false⟩, ⟨"run_once_at", .timestamptz, false⟩,
    ⟨"run_once_claimed_at", .timestamptz, false⟩, ⟨"run_once_claimed_by", .text, false⟩,
    ⟨"run_once_completed_at", .timestamptz, false⟩, ⟨"run_once_claim_expires_at", .timestamptz, false⟩,
    ⟨"partition_hash", .bigint, false⟩, ⟨"claim_lease_id", .text, false⟩, ⟨"claim_lease_until", .timestamptz, false⟩,
    ⟨"pool", .text, false⟩, ⟨"region", .text, false⟩, ⟨"placement_json", .text, false⟩, ⟨"actor_json", .text, true⟩,
    ⟨"params_json", .text, true⟩, ⟨"concurrency", .integer, true⟩, ⟨"timeout_ms", .bigint, false⟩,
    ⟨"retry_policy_json", .text, true⟩, ⟨"misfire_policy_json", .text, true⟩, ⟨"parent_limits_json", .text, false⟩,
    ⟨"next_run_at", .timestamptz, false⟩, ⟨"current_revision", .integer, true⟩, ⟨"updated_at", .timestamptz, true⟩,
    ⟨"created_at", .timestamptz, true⟩]
  key := "job_id"
  unique := ["job_name"]

/-- `RUN_TABLE`. -/
def runTable : TableDef where
  columns := [
    ⟨"run_id", .text, true⟩, ⟨"job_id", .text, false⟩, ⟨"script_name", .text, true⟩, ⟨"parent_run_id", .text, false⟩,
    ⟨"root_run_id", .text, false⟩, ⟨"child_index", .integer, false⟩, ⟨"scheduled_for", .timestamptz, true⟩,
    ⟨"started_at", .timestamptz, false⟩, ⟨"finished_at", .timestamptz, false⟩, ⟨"duration_ms", .bigint, false⟩,
    ⟨"status", .text, true⟩, ⟨"attempt", .integer, true⟩, ⟨"instance_id", .text, false⟩,
    ⟨"placement_json", .text, false⟩, ⟨"pool_id", .text, false⟩, ⟨"actor_json", .text, true⟩,
    ⟨"params_json", .text, true⟩, ⟨"stdout_text", .text, false⟩, ⟨"stderr_text", .text, false⟩,
    ⟨"error_json", .text, false⟩, ⟨"stats_json", .text, false⟩, ⟨"claimed_by", .text, false⟩,
    ⟨"claim_lease_until", .timestamptz, false⟩]
  key := "run_id"
  unique := []

/-- `REVISION_TABLE`. -/
def revisionTable : TableDef where
  columns := [
    ⟨"revision_id", .text, true⟩, ⟨"job_id", .text, true⟩, ⟨"revision_number", .integer, true⟩,
    ⟨"changed_at", .timestamptz, true⟩, ⟨"changed_by_actor_json", .text, true⟩, ⟨"snapshot_json", .text, true⟩]
  key := "revision_id"
  unique := []

/-! ## Values -/

/-- Binding an `Option`. -/
def orNull {α : Type} (f : α → Value) : Option α → Value
  | none => .null
  | some a => f a

def asText : Value → Option String
  | .text s => some s
  | _ => none

def asInt4 : Value → Option Int
  | .int4 n => some n
  | _ => none

def asInt8 : Value → Option Int
  | .int8 n => some n
  | _ => none

def asTime : Value → Option DateTime
  | .time t => some t
  | _ => none

/-- Only SQLite reads an integer as a `bool`. -/
def asBool (dialect : SqlDialect) : Value → Option Bool
  | .int4 n => if dialect = .sqlite then some (decide (n ≠ 0)) else none
  | _ => none

/-- Reading an `Option`. -/
def nullable {α : Type} (as : Value → Option α) : Value → Option (Option α)
  | .null => some none
  | v => (as v).map some

/-- A row of a `SELECT *`. -/
abbrev Selected := String → Option Value

namespace Driver

variable (driver : Driver)

/-- `try_get`. -/
def tryGet {α : Type} (as : Value → Option α) (row : Selected) (column : String) : Result α :=
  match (row column).bind as with
  | some a => .ok a
  | none => .error (driver.columnError column)

/-- `encode_json`. -/
def encodeJson (value : Json) : Result String := driver.encode value

/-- `encode_json_opt`. -/
def encodeJsonOpt : Option Json → Result (Option String)
  | none => .ok none
  | some v => do return some (← driver.encodeJson v)

/-- `decode_json`. -/
def decodeJson (raw : String) : Result Json := driver.decode raw

/-- `decode_json_opt`. -/
def decodeJsonOpt : Option String → Result (Option Json)
  | none => .ok none
  | some s => do return some (← driver.decode s)

/-- The reading of `enabled`: a `bool`, or else an integer. -/
def getEnabled (dialect : SqlDialect) (row : Selected) : Result Bool :=
  match driver.tryGet (asBool dialect) row "enabled" with
  | .ok b => .ok b
  | .error _ => do return decide ((← driver.tryGet asInt4 row "enabled") ≠ 0)

end Driver

/-- `schedule_kind_to_str`. -/
def scheduleKindToStr : ScheduleKind → String
  | .cron => "cron"
  | .runOnce => "run_once"
  | .manual => "manual"

/-- `parse_schedule_kind`. -/
def parseScheduleKind (s : String) : Result ScheduleKind :=
  if s = "cron" then .ok .cron
  else if s = "run_once" then .ok .runOnce
  else if s = "manual" then .ok .manual
  else .error (.storageError ("unknown schedule kind: " ++ s))

/-- `run_status_to_str`. -/
def runStatusToStr : RunStatus → String
  | .queued => "queued"
  | .claimed => "claimed"
  | .running => "running"
  | .success => "success"
  | .failed => "failed"
  | .canceled => "canceled"
  | .timeout => "timeout"

/-- `parse_run_status`. -/
def parseRunStatus (s : String) : Result RunStatus :=
  if s = "queued" then .ok .queued
  else if s = "claimed" then .ok .claimed
  else if s = "running" then .ok .running
  else if s = "success" then .ok .success
  else if s = "failed" then .ok .failed
  else if s = "canceled" then .ok .canceled
  else if s = "timeout" then .ok .timeout
  else .error (.storageError ("unknown run status: " ++ s))

/-- `JobRevision`, with its snapshot as the JSON value that it is in the source. -/
structure JobRevisionValue where
  revisionId : String
  jobId : String
  revisionNumber : Int
  changedAt : DateTime
  changedByActorJson : Json
  snapshotJson : Json

/-! ## `row/job.rs`, `row/run.rs` and `row/revision.rs` -/

/-- `JobRow`. -/
structure JobRow where
  jobId : String
  jobName : String
  scriptName : String
  scriptSigHash : String
  enabled : Bool
  scheduleKind : String
  cronExpr : Option String
  timezone : Option String
  runOnceAt : Option DateTime
  runOnceClaimedAt : Option DateTime
  runOnceClaimedBy : Option String
  runOnceCompletedAt : Option DateTime
  runOnceClaimExpiresAt : Option DateTime
  partitionHash : Option Int
  claimLeaseId : Option String
  claimLeaseUntil : Option DateTime
  pool : Option String
  region : Option String
  placementJson : Option String
  actorJson : String
  paramsJson : String
  concurrency : Int
  timeoutMs : Option Int
  retryPolicyJson : String
  misfirePolicyJson : String
  parentLimitsJson : Option String
  nextRunAt : Option DateTime
  currentRevision : Int
  updatedAt : DateTime
  createdAt : DateTime

/-- `JobRow::from_model`. -/
def JobRow.fromModel (driver : Driver) (job : Job) : Result JobRow := do
  return {
    jobId := job.jobId
    jobName := job.jobName
    scriptName := job.scriptName
    scriptSigHash := job.scriptSigHash
    enabled := job.enabled
    scheduleKind := scheduleKindToStr job.scheduleKind
    cronExpr := job.cronExpr
    timezone := job.timezone
    runOnceAt := job.runOnceAt
    runOnceClaimedAt := job.runOnceClaimedAt
    runOnceClaimedBy := job.runOnceClaimedBy
    runOnceCompletedAt := job.runOnceCompletedAt
    runOnceClaimExpiresAt := job.runOnceClaimExpiresAt
    partitionHash := job.partitionHash
    claimLeaseId := job.claimLeaseId
    claimLeaseUntil := job.claimLeaseUntil
    pool := job.pool
    region := job.region
    placementJson := ← driver.encodeJsonOpt job.placementJson
    actorJson := ← driver.encodeJson job.actorJson
    paramsJson := ← driver.encodeJson job.paramsJson
    concurrency := job.concurrency
    timeoutMs := job.timeoutMs
    retryPolicyJson := ← driver.encodeJson job.retryPolicyJson
    misfirePolicyJson := ← driver.encodeJson job.misfirePolicyJson
    parentLimitsJson := ← driver.encodeJsonOpt job.parentLimitsJson
    nextRunAt := job.nextRunAt
    currentRevision := job.currentRevision
    updatedAt := job.updatedAt
    createdAt := job.createdAt }

/-- `JobRow::to_model`. -/
def JobRow.toModel (driver : Driver) (row : JobRow) : Result Job := do
  return {
    jobId := row.jobId
    jobName := row.jobName
    scriptName := row.scriptName
    scriptSigHash := row.scriptSigHash
    enabled := row.enabled
    scheduleKind := ← parseScheduleKind row.scheduleKind
    cronExpr := row.cronExpr
    timezone := row.timezone
    runOnceAt := row.runOnceAt
    runOnceClaimedAt := row.runOnceClaimedAt
    runOnceClaimedBy := row.runOnceClaimedBy
    runOnceCompletedAt := row.runOnceCompletedAt
    runOnceClaimExpiresAt := row.runOnceClaimExpiresAt
    partitionHash := row.partitionHash
    claimLeaseId := row.claimLeaseId
    claimLeaseUntil := row.claimLeaseUntil
    pool := row.pool
    region := row.region
    placementJson := ← driver.decodeJsonOpt row.placementJson
    actorJson := ← driver.decodeJson row.actorJson
    paramsJson := ← driver.decodeJson row.paramsJson
    concurrency := row.concurrency
    timeoutMs := row.timeoutMs
    retryPolicyJson := ← driver.decodeJson row.retryPolicyJson
    misfirePolicyJson := ← driver.decodeJson row.misfirePolicyJson
    parentLimitsJson := ← driver.decodeJsonOpt row.parentLimitsJson
    nextRunAt := row.nextRunAt
    currentRevision := row.currentRevision
    updatedAt := row.updatedAt
    createdAt := row.createdAt }

/-- `row_to_job`. -/
def rowToJob (driver : Driver) (dialect : SqlDialect) (row : Selected) : Result Job := do
  let enabled ← driver.getEnabled dialect row
  let scheduleKind ← driver.tryGet asText row "schedule_kind"
  let decoded : JobRow := {
    jobId := ← driver.tryGet asText row "job_id"
    jobName := ← driver.tryGet asText row "job_name"
    scriptName := ← driver.tryGet asText row "script_name"
    scriptSigHash := ← driver.tryGet asText row "script_sig_hash"
    enabled
    scheduleKind
    cronExpr := ← driver.tryGet (nullable asText) row "cron_expr"
    timezone := ← driver.tryGet (nullable asText) row "timezone"
    runOnceAt := ← driver.tryGet (nullable asTime) row "run_once_at"
    runOnceClaimedAt := ← driver.tryGet (nullable asTime) row "run_once_claimed_at"
    runOnceClaimedBy := ← driver.tryGet (nullable asText) row "run_once_claimed_by"
    runOnceCompletedAt := ← driver.tryGet (nullable asTime) row "run_once_completed_at"
    runOnceClaimExpiresAt := ← driver.tryGet (nullable asTime) row "run_once_claim_expires_at"
    partitionHash := ← driver.tryGet (nullable asInt8) row "partition_hash"
    claimLeaseId := ← driver.tryGet (nullable asText) row "claim_lease_id"
    claimLeaseUntil := ← driver.tryGet (nullable asTime) row "claim_lease_until"
    pool := ← driver.tryGet (nullable asText) row "pool"
    region := ← driver.tryGet (nullable asText) row "region"
    placementJson := ← driver.tryGet (nullable asText) row "placement_json"
    actorJson := ← driver.tryGet asText row "actor_json"
    paramsJson := ← driver.tryGet asText row "params_json"
    concurrency := ← driver.tryGet asInt4 row "concurrency"
    timeoutMs := ← driver.tryGet (nullable asInt8) row "timeout_ms"
    retryPolicyJson := ← driver.tryGet asText row "retry_policy_json"
    misfirePolicyJson := ← driver.tryGet asText row "misfire_policy_json"
    parentLimitsJson := ← driver.tryGet (nullable asText) row "parent_limits_json"
    nextRunAt := ← driver.tryGet (nullable asTime) row "next_run_at"
    currentRevision := ← driver.tryGet asInt4 row "current_revision"
    updatedAt := ← driver.tryGet asTime row "updated_at"
    createdAt := ← driver.tryGet asTime row "created_at" }
  decoded.toModel driver

/-- `RunRow`. -/
structure RunRow where
  runId : String
  jobId : Option String
  scriptName : String
  parentRunId : Option String
  rootRunId : Option String
  childIndex : Option Int
  scheduledFor : DateTime
  startedAt : Option DateTime
  finishedAt : Option DateTime
  durationMs : Option Int
  status : String
  attempt : Int
  instanceId : Option String
  placementJson : Option String
  poolId : Option String
  actorJson : String
  paramsJson : String
  stdoutText : Option String
  stderrText : Option String
  errorJson : Option String
  statsJson : Option String
  claimedBy : Option String
  claimLeaseUntil : Option DateTime

/-- `RunRow::from_model`. -/
def RunRow.fromModel (driver : Driver) (run : Run) : Result RunRow := do
  return {
    runId := run.runId
    jobId := run.jobId
    scriptName := run.scriptName
    parentRunId := run.parentRunId
    rootRunId := run.rootRunId
    childIndex := run.childIndex
    scheduledFor := run.scheduledFor
    startedAt := run.startedAt
    finishedAt := run.finishedAt
    durationMs := run.durationMs
    status := runStatusToStr run.status
    attempt := run.attempt
    instanceId := run.instanceId
    placementJson := ← driver.encodeJsonOpt run.placementJson
    poolId := run.poolId
    actorJson := ← driver.encodeJson run.actorJson
    paramsJson := ← driver.encodeJson run.paramsJson
    stdoutText := run.stdoutText
    stderrText := run.stderrText
    errorJson := ← driver.encodeJsonOpt run.errorJson
    statsJson := ← driver.encodeJsonOpt run.statsJson
    claimedBy := run.claimedBy
    claimLeaseUntil := run.claimLeaseUntil }

/-- `RunRow::to_model`. -/
def RunRow.toModel (driver : Driver) (row : RunRow) : Result Run := do
  return {
    runId := row.runId
    jobId := row.jobId
    scriptName := row.scriptName
    parentRunId := row.parentRunId
    rootRunId := row.rootRunId
    childIndex := row.childIndex
    scheduledFor := row.scheduledFor
    startedAt := row.startedAt
    finishedAt := row.finishedAt
    durationMs := row.durationMs
    status := ← parseRunStatus row.status
    attempt := row.attempt
    instanceId := row.instanceId
    placementJson := ← driver.decodeJsonOpt row.placementJson
    poolId := row.poolId
    actorJson := ← driver.decodeJson row.actorJson
    paramsJson := ← driver.decodeJson row.paramsJson
    stdoutText := row.stdoutText
    stderrText := row.stderrText
    errorJson := ← driver.decodeJsonOpt row.errorJson
    statsJson := ← driver.decodeJsonOpt row.statsJson
    claimedBy := row.claimedBy
    claimLeaseUntil := row.claimLeaseUntil }

/-- `row_to_run`. -/
def rowToRun (driver : Driver) (row : Selected) : Result Run := do
  let status ← driver.tryGet asText row "status"
  let decoded : RunRow := {
    runId := ← driver.tryGet asText row "run_id"
    jobId := ← driver.tryGet (nullable asText) row "job_id"
    scriptName := ← driver.tryGet asText row "script_name"
    parentRunId := ← driver.tryGet (nullable asText) row "parent_run_id"
    rootRunId := ← driver.tryGet (nullable asText) row "root_run_id"
    childIndex := ← driver.tryGet (nullable asInt4) row "child_index"
    scheduledFor := ← driver.tryGet asTime row "scheduled_for"
    startedAt := ← driver.tryGet (nullable asTime) row "started_at"
    finishedAt := ← driver.tryGet (nullable asTime) row "finished_at"
    durationMs := ← driver.tryGet (nullable asInt8) row "duration_ms"
    status
    attempt := ← driver.tryGet asInt4 row "attempt"
    instanceId := ← driver.tryGet (nullable asText) row "instance_id"
    placementJson := ← driver.tryGet (nullable asText) row "placement_json"
    poolId := ← driver.tryGet (nullable asText) row "pool_id"
    actorJson := ← driver.tryGet asText row "actor_json"
    paramsJson := ← driver.tryGet asText row "params_json"
    stdoutText := ← driver.tryGet (nullable asText) row "stdout_text"
    stderrText := ← driver.tryGet (nullable asText) row "stderr_text"
    errorJson := ← driver.tryGet (nullable asText) row "error_json"
    statsJson := ← driver.tryGet (nullable asText) row "stats_json"
    claimedBy := ← driver.tryGet (nullable asText) row "claimed_by"
    claimLeaseUntil := ← driver.tryGet (nullable asTime) row "claim_lease_until" }
  decoded.toModel driver

/-- `JobRevisionRow`. -/
structure JobRevisionRow where
  revisionId : String
  jobId : String
  revisionNumber : Int
  changedAt : DateTime
  changedByActorJson : String
  snapshotJson : String

/-- `JobRevisionRow::from_model`. -/
def JobRevisionRow.fromModel (driver : Driver) (revision : JobRevisionValue) : Result JobRevisionRow := do
  return {
    revisionId := revision.revisionId
    jobId := revision.jobId
    revisionNumber := revision.revisionNumber
    changedAt := revision.changedAt
    changedByActorJson := ← driver.encodeJson revision.changedByActorJson
    snapshotJson := ← driver.encodeJson revision.snapshotJson }

/-- `JobRevisionRow::to_model`. -/
def JobRevisionRow.toModel (driver : Driver) (row : JobRevisionRow) : Result JobRevisionValue := do
  return {
    revisionId := row.revisionId
    jobId := row.jobId
    revisionNumber := row.revisionNumber
    changedAt := row.changedAt
    changedByActorJson := ← driver.decodeJson row.changedByActorJson
    snapshotJson := ← driver.decodeJson row.snapshotJson }

/-- The columns of the `INSERT` of `upsert_job`. -/
def jobColumns : List String := [
  "job_id", "job_name", "script_name", "script_sig_hash", "enabled", "schedule_kind", "cron_expr", "timezone",
  "run_once_at", "run_once_claimed_at", "run_once_claimed_by", "run_once_completed_at", "run_once_claim_expires_at",
  "partition_hash", "claim_lease_id", "claim_lease_until", "pool", "region", "placement_json", "actor_json",
  "params_json", "concurrency", "timeout_ms", "retry_policy_json", "misfire_policy_json", "parent_limits_json",
  "next_run_at", "current_revision", "updated_at", "created_at"]

/-- Its `DO UPDATE SET`: column and column of `excluded`. -/
def jobAssignments : List (String × String) := [
  ("job_name", "job_name"), ("script_name", "script_name"), ("script_sig_hash", "script_sig_hash"),
  ("enabled", "enabled"), ("schedule_kind", "schedule_kind"), ("cron_expr", "cron_expr"), ("timezone", "timezone"),
  ("run_once_at", "run_once_at"), ("run_once_claimed_at", "run_once_claimed_at"),
  ("run_once_claimed_by", "run_once_claimed_by"), ("run_once_completed_at", "run_once_completed_at"),
  ("run_once_claim_expires_at", "run_once_claim_expires_at"), ("partition_hash", "partition_hash"),
  ("claim_lease_id", "claim_lease_id"), ("claim_lease_until", "claim_lease_until"), ("pool", "pool"),
  ("region", "region"), ("placement_json", "placement_json"), ("actor_json", "actor_json"),
  ("params_json", "params_json"), ("concurrency", "concurrency"), ("timeout_ms", "timeout_ms"),
  ("retry_policy_json", "retry_policy_json"), ("misfire_policy_json", "misfire_policy_json"),
  ("parent_limits_json", "parent_limits_json"), ("next_run_at", "next_run_at"),
  ("current_revision", "current_revision"), ("updated_at", "updated_at"), ("created_at", "created_at")]

/-- Its bound values. -/
def JobRow.binds (row : JobRow) : List Value := [
  .text row.jobId, .text row.jobName, .text row.scriptName, .text row.scriptSigHash,
  .int4 (if row.enabled then 1 else 0), .text row.scheduleKind, orNull .text row.cronExpr, orNull .text row.timezone,
  orNull .time row.runOnceAt, orNull .time row.runOnceClaimedAt, orNull .text row.runOnceClaimedBy,
  orNull .time row.runOnceCompletedAt, orNull .time row.runOnceClaimExpiresAt, orNull .int8 row.partitionHash,
  orNull .text row.claimLeaseId, orNull .time row.claimLeaseUntil, orNull .text row.pool, orNull .text row.region,
  orNull .text row.placementJson, .text row.actorJson, .text row.paramsJson, .int4 row.concurrency,
  orNull .int8 row.timeoutMs, .text row.retryPolicyJson, .text row.misfirePolicyJson,
  orNull .text row.parentLimitsJson, orNull .time row.nextRunAt, .int4 row.currentRevision, .time row.updatedAt,
  .time row.createdAt]

/-- The columns of the `INSERT` of `create_run`. -/
def runColumns : List String := [
  "run_id", "job_id", "script_name", "parent_run_id", "root_run_id", "child_index", "scheduled_for", "started_at",
  "finished_at", "duration_ms", "status", "attempt", "instance_id", "placement_json", "pool_id", "actor_json",
  "params_json", "stdout_text", "stderr_text", "error_json", "stats_json", "claimed_by", "claim_lease_until"]

/-- Its bound values. -/
def RunRow.createBinds (row : RunRow) : List Value := [
  .text row.runId, orNull .text row.jobId, .text row.scriptName, orNull .text row.parentRunId,
  orNull .text row.rootRunId, orNull .int4 row.childIndex, .time row.scheduledFor, orNull .time row.startedAt,
  orNull .time row.finishedAt, orNull .int8 row.durationMs, .text row.status, .int4 row.attempt,
  orNull .text row.instanceId, orNull .text row.placementJson, orNull .text row.poolId, .text row.actorJson,
  .text row.paramsJson, orNull .text row.stdoutText, orNull .text row.stderrText, orNull .text row.errorJson,
  orNull .text row.statsJson, orNull .text row.claimedBy, orNull .time row.claimLeaseUntil]

/-- The columns that `update_run` sets. -/
def runUpdateColumns : List String := [
  "job_id", "script_name", "parent_run_id", "root_run_id", "child_index", "scheduled_for", "started_at",
  "finished_at", "duration_ms", "status", "attempt", "instance_id", "placement_json", "pool_id", "actor_json",
  "params_json", "stdout_text", "stderr_text", "error_json", "stats_json", "claimed_by", "claim_lease_until"]

/-- Its bound values, the one of the condition last. -/
def RunRow.updateBinds (row : RunRow) : List Value := [
  orNull .text row.jobId, .text row.scriptName, orNull .text row.parentRunId, orNull .text row.rootRunId,
  orNull .int4 row.childIndex, .time row.scheduledFor, orNull .time row.startedAt, orNull .time row.finishedAt,
  orNull .int8 row.durationMs, .text row.status, .int4 row.attempt, orNull .text row.instanceId,
  orNull .text row.placementJson, orNull .text row.poolId, .text row.actorJson, .text row.paramsJson,
  orNull .text row.stdoutText, orNull .text row.stderrText, orNull .text row.errorJson, orNull .text row.statsJson,
  orNull .text row.claimedBy, orNull .time row.claimLeaseUntil, .text row.runId]

/-- The columns of the `INSERT` of `append_revision`. -/
def revisionColumns : List String := [
  "revision_id", "job_id", "revision_number", "changed_at", "changed_by_actor_json", "snapshot_json"]

/-- Its bound values. -/
def JobRevisionRow.binds (row : JobRevisionRow) : List Value := [
  .text row.revisionId, .text row.jobId, .int4 row.revisionNumber, .time row.changedAt, .text row.changedByActorJson,
  .text row.snapshotJson]

/-- A message of a unique violation. -/
def mentionsUnique (message : String) : Bool :=
  ["UNIQUE", "unique", "duplicate"].any fun word => (Text.findStr word.toList message.toList).isSome

section Operations

variable (driver : Driver) (dialect : SqlDialect)

/-- `get_job`. -/
def getJob (jobId : String) (rows : List Row) : Result (Option Job) :=
  match TableDef.select "job_id" (.text jobId) rows with
  | none => .ok none
  | some row => do return some (← rowToJob driver dialect (jobTable.column row))

/-- `get_job_by_name`. -/
def getJobByName (jobName : String) (rows : List Row) : Result (Option Job) :=
  match TableDef.select "job_name" (.text jobName) rows with
  | none => .ok none
  | some row => do return some (← rowToJob driver dialect (jobTable.column row))

/-- The statement of `upsert_job`. -/
def insertJob : Insert := ⟨jobColumns, bindSql dialect (questions 30), some ("job_id", jobAssignments)⟩

/-- `upsert_job`. -/
def upsertJob (job : Job) (rows : List Row) : Result (List Row) := do
  let row ← JobRow.fromModel driver job
  match jobTable.insert (insertJob dialect) row.binds rows with
  | .ok rows' => return rows'
  | .error violation =>
    match driver.violationError violation with
    | .storageError message =>
      if mentionsUnique message then
        match ← getJobByName driver dialect job.jobName rows with
        | some existing =>
          if existing.jobId ≠ job.jobId then throw (.jobNameTaken job.jobName existing.jobId)
          else throw (.storageError message)
        | none => throw (.storageError message)
      else throw (.storageError message)
    | e => throw e

/-- The statement of `create_run`. -/
def insertRun : Insert := ⟨runColumns, bindSql dialect (questions 23), none⟩

/-- `create_run`. -/
def createRun (run : Run) (rows : List Row) : Result (List Row) := do
  let row ← RunRow.fromModel driver run
  match runTable.insert (insertRun dialect) row.createBinds rows with
  | .ok rows' => return rows'
  | .error violation =>
    match driver.violationError violation with
    | .storageError message =>
      if mentionsUnique message then throw (.storageError ("duplicate run_id: " ++ run.runId))
      else throw (.storageError message)
    | e => throw e

/-- `get_run`. -/
def getRun (runId : String) (rows : List Row) : Result (Option Run) :=
  match TableDef.select "run_id" (.text runId) rows with
  | none => .ok none
  | some row => do return some (← rowToRun driver (runTable.column row))

/-- The statement of `update_run`. -/
def setRun : Update := ⟨runUpdateColumns, "run_id", bindSql dialect (questions 23)⟩

/-- `update_run`. -/
def updateRun (run : Run) (rows : List Row) : Result (List Row) := do
  let row ← RunRow.fromModel driver run
  match runTable.update (setRun dialect) row.updateBinds rows with
  | .ok rows' =>
    match ← getRun driver run.runId rows' with
    | some _ => return rows'
    | none => throw (.runNotFound run.runId)
  | .error violation => throw (driver.violationError violation)

/-- The statement of `append_revision`. -/
def insertRevision : Insert := ⟨revisionColumns, bindSql dialect (questions 6), none⟩

/-- `append_revision`. -/
def appendRevision (revision : JobRevisionValue) (rows : List Row) : Result (List Row) := do
  let row ← JobRevisionRow.fromModel driver revision
  match revisionTable.insert (insertRevision dialect) row.binds rows with
  | .ok rows' => return rows'
  | .error violation => throw (driver.violationError violation)

end Operations

end Chronon.Sql.Columns
