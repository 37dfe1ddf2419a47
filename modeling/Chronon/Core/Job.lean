import Chronon.Core.Error

/-!
# `chronon-core/src/models/job.rs` and `revision.rs`

The job row with all its fields, the two policies it stores as JSON, and the
clamping applied to what arrives over HTTP. Functions that read the clock or
draw an identifier take the value as an argument; the callers read it with a
call of their own.
-/

namespace Chronon
set_option autoImplicit false

inductive ScheduleKind where
  | cron
  | runOnce
  | manual
  deriving DecidableEq

def maxJobConcurrency : Int := 1000
def maxTimeoutMs : Int := 86400000
def maxRetryAttempts : Nat := 100
def maxRetryDelayMs : Nat := 86400000

/-- Retry policy; `backoffMultiplier` is a finite `f64` and `maxAttempts` a `u32`. -/
structure RetryPolicy where
  maxAttempts : Nat
  baseDelayMs : Nat
  backoffMultiplier : ℚ
  maxDelayMs : Nat

namespace RetryPolicy

/-- `RetryPolicy::default`. -/
def default : RetryPolicy := ⟨0, 0, 1, 0⟩

/-- `serde_json::from_value`. -/
def ofJson (json : Json) : Option RetryPolicy := do
  match ← json.structFields ["max_attempts", "base_delay_ms", "backoff_multiplier", "max_delay_ms"] with
  | [a, b, m, d] =>
    return ⟨← a.asUnsigned 4294967295, ← b.asUnsigned 18446744073709551615, ← m.asF64,
      ← d.asUnsigned 18446744073709551615⟩
  | _ => none

/-- `serde_json::to_value`; the map of an object keeps its keys sorted. -/
def toJson (p : RetryPolicy) : Json :=
  .obj [("backoff_multiplier", .float p.backoffMultiplier), ("base_delay_ms", .posInt p.baseDelayMs),
    ("max_attempts", .posInt p.maxAttempts), ("max_delay_ms", .posInt p.maxDelayMs)]

/-- A positive `i32` is unchanged by `as u32`. -/
def shouldRetry (p : RetryPolicy) (attempt : Int) : Bool :=
  decide (0 < attempt) && decide (attempt ≤ p.maxAttempts)

/-- `delay_ms_after`, with the product of the two `f64` taken exactly. -/
def delayMsAfter (p : RetryPolicy) (failedAttempt : Int) : Nat :=
  let exp := (failedAttempt - 1).toNat
  let raw : ℚ := p.baseDelayMs * p.backoffMultiplier ^ exp
  let ms := if 0 < raw then min raw.floor.toNat 18446744073709551615 else 0
  if p.maxDelayMs = 0 then ms else min ms p.maxDelayMs

def clampSecurityBounds (p : RetryPolicy) : RetryPolicy where
  maxAttempts := min p.maxAttempts maxRetryAttempts
  baseDelayMs := min p.baseDelayMs maxRetryDelayMs
  maxDelayMs := if p.maxDelayMs ≠ 0 then min p.maxDelayMs maxRetryDelayMs else p.maxDelayMs
  backoffMultiplier := if p.backoffMultiplier < 1 then 1 else p.backoffMultiplier

end RetryPolicy

/-- Misfire policy; a window of `0` disables the gate. -/
structure MisfirePolicy where
  runImmediately : Bool
  maxMisfireWindowSecs : Nat

namespace MisfirePolicy

def default : MisfirePolicy := ⟨false, 0⟩

def ofJson (json : Json) : Option MisfirePolicy := do
  match ← json.structFields ["run_immediately", "max_misfire_window_secs"] with
  | [r, w] => return ⟨← r.asBool, ← w.asUnsigned 18446744073709551615⟩
  | _ => none

def toJson (p : MisfirePolicy) : Json :=
  .obj [("max_misfire_window_secs", .posInt p.maxMisfireWindowSecs), ("run_immediately", .bool p.runImmediately)]

end MisfirePolicy

structure Job where
  jobId : String
  jobName : String
  scriptName : String
  scriptSigHash : String
  enabled : Bool
  scheduleKind : ScheduleKind
  cronExpr : Option String
  timezone : Option String
  runOnceAt : Option DateTime
  runOnceClaimedAt : Option DateTime
  runOnceClaimedBy : Option String
  runOnceCompletedAt : Option DateTime
  runOnceClaimExpiresAt : Option DateTime
  partitionHash : Option Int
  claimLeaseId : Option String
  claimLeaseUntil : Option DateTime
  pool : Option String
  region : Option String
  placementJson : Option Json
  actorJson : Json
  paramsJson : Json
  concurrency : Int
  timeoutMs : Option Int
  retryPolicyJson : Json
  misfirePolicyJson : Json
  parentLimitsJson : Option Json
  nextRunAt : Option DateTime
  currentRevision : Int
  updatedAt : DateTime
  createdAt : DateTime

namespace Job

/-- `Job::new`, given the identifier and the clock reading it draws. -/
def new (jobId : String) (now : DateTime) (jobName scriptName : String) : Job where
  jobId
  jobName
  scriptName
  scriptSigHash := ""
  enabled := true
  scheduleKind := .cron
  cronExpr := none
  timezone := none
  runOnceAt := none
  runOnceClaimedAt := none
  runOnceClaimedBy := none
  runOnceCompletedAt := none
  runOnceClaimExpiresAt := none
  partitionHash := none
  claimLeaseId := none
  claimLeaseUntil := none
  pool := none
  region := none
  placementJson := none
  actorJson := .null
  paramsJson := .obj []
  concurrency := 1
  timeoutMs := none
  retryPolicyJson := RetryPolicy.default.toJson
  misfirePolicyJson := MisfirePolicy.default.toJson
  parentLimitsJson := none
  nextRunAt := none
  currentRevision := 1
  updatedAt := now
  createdAt := now

/-- Decoded from `retry_policy_json`, or the default on null or invalid JSON. -/
def retryPolicy (job : Job) : RetryPolicy := (RetryPolicy.ofJson job.retryPolicyJson).getD .default

def misfirePolicy (job : Job) : MisfirePolicy := (MisfirePolicy.ofJson job.misfirePolicyJson).getD .default

def setRetryPolicy (job : Job) (policy : RetryPolicy) : Job := { job with retryPolicyJson := policy.toJson }

def clampSecurityBounds (job : Job) : Job :=
  let job := { job with concurrency := max 1 (min job.concurrency maxJobConcurrency) }
  let job := match job.timeoutMs with
    | some ms => { job with timeoutMs := if ms ≤ 0 then none else some (min ms maxTimeoutMs) }
    | none => job
  job.setRetryPolicy job.retryPolicy.clampSecurityBounds

end Job

/-- A recorded configuration. The snapshot is the job itself in place of its
JSON encoding (`serde_json::to_value` of a job never fails). -/
structure JobRevision where
  revisionId : String
  jobId : String
  revisionNumber : Int
  changedAt : DateTime
  changedByActorJson : Json
  snapshotJson : Job

end Chronon
