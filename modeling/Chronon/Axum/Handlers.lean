import Chronon.Runtime.CoordinatorService
import Chronon.Core.Redact

/-!
# `chronon-axum/src/handlers.rs`: the job upsert

`POST /jobs/upsert` reads the job by name, edits its copy and hands it to
`CoordinatorService::upsert_job`. Admission (`RequireAdmin`) happens before the
handler and is not modelled. A response carries its timestamps as they are,
not as RFC 3339 text.
-/

namespace Chronon.Axum
set_option autoImplicit false

/-- The status codes the API uses. -/
inductive StatusCode where
  | ok
  | badRequest
  | notFound
  | conflict
  | internalServerError
  deriving DecidableEq

structure ApiResponse (α : Type) where
  success : Bool
  data : Option α
  error : Option String

/-- `ApiResponse::err`; `none` is a panic in the redaction of the text. -/
def ApiResponse.err {α : Type} (error : String) : Option (ApiResponse α) :=
  (safeMessage error).map fun text => ⟨false, none, some text⟩

def ApiResponse.okay {α : Type} (data : α) : ApiResponse α := ⟨true, some data, none⟩

/-- `chronon_status`. -/
def chrononStatus : ChrononError → StatusCode
  | .jobNotFound _ | .runNotFound _ => .notFound
  | .scriptNotFound _ | .invalidCron _ | .invalidTimezone _ | .paramError _ | .identity _ => .badRequest
  | .scriptMismatch _ _ _ | .jobNameTaken _ _ => .conflict
  | .storageError _ | .internal _ | .internalSource _ => .internalServerError

/-- Answer with an error envelope. -/
def respondErr {α : Type} (status : StatusCode) (error : String) : Task (StatusCode × ApiResponse α) :=
  match ApiResponse.err error with
  | some response => return (status, response)
  | none => panicked

/-- `chronon_err`. -/
def chrononErr {α : Type} (e : ChrononError) : Task (StatusCode × ApiResponse α) :=
  respondErr (chrononStatus e) e.toText

/-- `UpsertJobRequest`, after decoding. -/
structure UpsertJobRequest where
  jobName : String
  scriptName : String
  cronExpr : Option String
  timezone : Option String
  scheduleKind : ScheduleKind
  params : Json
  enabled : Bool
  concurrency : Int
  timeoutMs : Option Int
  actorJson : Option Json
  retryPolicy : Option Json
  misfirePolicy : Option Json
  pool : Option String

structure JobResponse where
  jobId : String
  jobName : String
  scriptName : String
  enabled : Bool
  scheduleKind : ScheduleKind
  cronExpr : Option String
  timezone : Option String
  nextRunAt : Option DateTime
  currentRevision : Int
  createdAt : DateTime
  updatedAt : DateTime
  pool : Option String

/-- `From<Job>`. -/
def JobResponse.ofJob (job : Job) : JobResponse :=
  ⟨job.jobId, job.jobName, job.scriptName, job.enabled, job.scheduleKind, job.cronExpr, job.timezone, job.nextRunAt,
    job.currentRevision, job.createdAt, job.updatedAt, job.pool⟩

/-- `MAX_POOL_CHARS`. -/
def maxPoolChars : Nat := 128

/-- `normalize_pool`. -/
def normalizePool (raw : String) : Except String (Option String) :=
  let pool := trim raw
  if pool = "" then .ok none
  else if Text.len pool.toList ≤ maxPoolChars ∧
      pool.toList.all (fun c => c.isAlphanum || c == '.' || c == '_' || c == '/' || c == '-') then .ok (some pool)
  else .error ("Invalid pool: use at most " ++ toString maxPoolChars ++ " characters from [A-Za-z0-9._/-]")

/-- `is_system_shaped_actor`. -/
def isSystemShapedActor (actor : Json) : Bool := (actor.get "System").isSome

/-- `is_service_user_shaped_actor`. -/
def isServiceUserShapedActor (actor : Json) : Bool := (actor.get "ServiceUser").isSome

/-- `default_http_enqueue_actor`. -/
def defaultHttpEnqueueActor : Json := .obj [("Service", .obj [("name", .str "chronon_api")])]

/-- `ChrononState::default_upsert_actor_json`, given the provider of the host. -/
def defaultUpsertActorJson (httpUpsertActor : Option (Unit → Json)) : Json :=
  match httpUpsertActor with
  | some provider => provider ()
  | none => defaultHttpEnqueueActor

/-- `RejectExternalPrivilegedActor::validate` for `EnqueueTrust::External`. -/
def validateExternalActor (actor : Json) : Result Unit :=
  if (actor.get "System").isSome || (actor.get "ServiceUser").isSome then
    .error (.paramError "external actor_json cannot use a System or ServiceUser actor")
  else .ok ()

/-- A present JSON value that is not null. -/
def given (value : Option Json) : Option Json := value.filter fun json => !json.isNull

/-- The copy of an existing job that the request edits. -/
def bumped (req : UpsertJobRequest) (existing : Job) : Job :=
  { existing with
    scriptName := req.scriptName
    currentRevision := min (existing.currentRevision + 1) 2147483647 }

/-- The fields every request sets. -/
def withFields (req : UpsertJobRequest) (job : Job) : Job :=
  { job with
    enabled := req.enabled
    scheduleKind := req.scheduleKind
    cronExpr := req.cronExpr
    timezone := req.timezone
    paramsJson := req.params
    concurrency := req.concurrency
    timeoutMs := req.timeoutMs }

/-- The actor, unless it is a privileged one. -/
def withActor (req : UpsertJobRequest) (job : Job) : Except (StatusCode × String) Job :=
  match given req.actorJson with
  | none => .ok job
  | some actor =>
    match validateExternalActor actor with
    | .error e => .error (chrononStatus e, e.toText)
    | .ok () => .ok { job with actorJson := actor }

def withPolicies (req : UpsertJobRequest) (job : Job) : Job :=
  { job with
    retryPolicyJson := (given req.retryPolicy).getD job.retryPolicyJson
    misfirePolicyJson := (given req.misfirePolicy).getD job.misfirePolicyJson }

def withPool (req : UpsertJobRequest) (job : Job) : Except (StatusCode × String) Job :=
  match req.pool with
  | none => .ok job
  | some raw =>
    match normalizePool raw with
    | .ok pool => .ok { job with pool }
    | .error message => .error (.badRequest, message)

/-- The edits of `upsert_job`, up to `clamp_security_bounds`. -/
def edited (req : UpsertJobRequest) (job : Job) : Except (StatusCode × String) Job := do
  let job ← withActor req (withFields req job)
  let job ← withPool req (withPolicies req job)
  return job.clampSecurityBounds

/-- The end of `upsert_job`: hand the edited job over and answer. -/
def submit (host : Host) (job : Job) : Task (StatusCode × ApiResponse JobResponse) := do
  match ← CoordinatorService.upsertJob host job with
  | .ok () => return (.ok, .okay (.ofJob job))
  | .error e => chrononErr e

/-- `upsert_job` on the copy it works with. -/
def upsertCopy (host : Host) (req : UpsertJobRequest) (copy : Job) : Task (StatusCode × ApiResponse JobResponse) :=
  match edited req copy with
  | .error (status, message) => respondErr status message
  | .ok job =>
    match job.scheduleKind, job.cronExpr with
    | .cron, some expr =>
      match CronExpr.parse host.cron expr job.timezone with
      | .ok cron => do
        let now ← utcNow
        submit host { job with nextRunAt := cron.nextAfter now }
      | .error e => respondErr .badRequest ("Invalid cron expression: " ++ e.toText)
    | _, _ => submit host job

/-- `upsert_job`. -/
def upsertJob (host : Host) (req : UpsertJobRequest) : Task (StatusCode × ApiResponse JobResponse) := do
  if host.registry.contains req.scriptName then
    match ← CoordinatorService.getJobByName req.jobName with
    | some existing => upsertCopy host req (bumped req existing)
    | none =>
      let now ← utcNow
      let jobId ← newUuid
      upsertCopy host req (Job.new jobId now req.jobName req.scriptName)
  else respondErr .badRequest ("Script '" ++ req.scriptName ++ "' not found")

/-- `run_now`. -/
def runNow (jobId : String) (params : Option Json) : Task (StatusCode × ApiResponse String) := do
  match ← CoordinatorService.runNowWithParams jobId params with
  | .ok runId => return (.ok, .okay runId)
  | .error e => chrononErr e

end Chronon.Axum
