import Chronon.Axum.Handlers

/-!
# `chronon-runtime/src/remote_client.rs`

The client's upsert and `run_now` against a host that runs the handlers. The
client's own request and envelope types have the fields of the server's, so the
server's are used for both. A request or a response that is lost on the way is
an error of the client and is not modelled.
-/

namespace Chronon

/-- `Display` of a status. -/
def Axum.StatusCode.toText : Axum.StatusCode → String
  | .ok => "200 OK"
  | .badRequest => "400 Bad Request"
  | .notFound => "404 Not Found"
  | .conflict => "409 Conflict"
  | .internalServerError => "500 Internal Server Error"

/-- `is_success`. -/
def Axum.StatusCode.isSuccess : Axum.StatusCode → Bool
  | .ok => true
  | _ => false

/-- The body as the host reads it: a JSON null in an `Option<Value>` is an absent value. -/
def Axum.UpsertJobRequest.received (req : Axum.UpsertJobRequest) : Axum.UpsertJobRequest :=
  { req with
    actorJson := Axum.given req.actorJson
    retryPolicy := Axum.given req.retryPolicy
    misfirePolicy := Axum.given req.misfirePolicy }

namespace RemoteCoordinatorClient
set_option autoImplicit false

/-- `parse_response`, on the decoded body. -/
def parseResponse {α : Type} (status : Axum.StatusCode) (body : Axum.ApiResponse α) : Result α :=
  if !status.isSuccess || !body.success then .error (.internal (body.error.getD ("HTTP " ++ status.toText)))
  else
    match body.data with
    | some data => .ok data
    | none => .error (.internal "remote empty data")

/-- The request built from a job. -/
def upsertRequest (job : Job) : Axum.UpsertJobRequest where
  jobName := job.jobName
  scriptName := job.scriptName
  cronExpr := job.cronExpr
  timezone := job.timezone
  scheduleKind := job.scheduleKind
  params := job.paramsJson
  enabled := job.enabled
  concurrency := job.concurrency
  timeoutMs := job.timeoutMs
  actorJson := some job.actorJson
  retryPolicy := some job.retryPolicyJson
  misfirePolicy := some job.misfirePolicyJson
  pool := some (job.pool.getD "")

/-- `upsert_job`. -/
def upsertJob (host : Host) (job : Job) : Task (Result Unit) := do
  let (status, body) ← Axum.upsertJob host (upsertRequest job).received
  match parseResponse status body with
  | .error e => return .error e
  | .ok _ => return .ok ()

/-- `run_now`. -/
def runNow (jobId : String) : Task (Result String) := do
  let (status, body) ← Axum.runNow jobId none
  return parseResponse status body

end RemoteCoordinatorClient

end Chronon
