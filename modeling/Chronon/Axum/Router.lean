import Chronon.Axum.Handlers
import Chronon.Executor.Registry

/-!
# `chronon-axum`: the routes, and who is let in

The other handlers of `handlers.rs` with their queries and responses from `dto.rs`,
`auth.rs`, `state.rs`, and the routes of `chronon_router`. `RequireAdmin` comes before
everything else a handler takes from its request. What `axum` itself makes of a query or
a body it cannot read is left open.
-/

namespace Chronon
set_option autoImplicit false

/-! ## The rest of `coordinator_service.rs` -/

namespace CoordinatorService

/-- `get_job`: a failed lookup counts as no job. -/
def getJob (jobId : String) : Task (Option Job) := do
  match ← call (.getJob jobId) with
  | .ok job => return job
  | .error _ => return none

def listJobs : Task (Result (List Job)) := call .listJobs

/-- `parse_run_status`. -/
def parseRunStatus (s : String) : Option RunStatus :=
  match s.map Char.toLower with
  | "queued" => some .queued
  | "claimed" => some .claimed
  | "running" => some .running
  | "success" => some .success
  | "failed" => some .failed
  | "canceled" => some .canceled
  | "timeout" => some .timeout
  | _ => none

def listRuns (jobId status : Option String) (offset limit : Nat) : Task (Result (List Run)) :=
  call (.listRunsFiltered jobId (status.bind parseRunStatus) offset limit)

def getRun (runId : String) : Task (Result (Option Run)) := call (.getRun runId)

def listRevisions (jobId : String) : Task (Result (List JobRevision)) := call (.listRevisions jobId)

end CoordinatorService

namespace Axum

/-! ## `dto.rs` -/

structure JobActionRequest where
  jobId : String
  params : Option Json

structure ListJobsQuery where
  jobName : Option String
  scriptName : Option String
  enabled : Option Bool
  scheduleKind : Option String
  offset : Option Nat
  limit : Option Nat

structure ListRunsQuery where
  jobId : Option String
  status : Option String
  offset : Option Nat
  limit : Option Nat

/-- `RunResponse`, with the status and the timestamps as they are. -/
structure RunResponse where
  runId : String
  jobId : Option String
  scriptName : String
  status : RunStatus
  scheduledFor : DateTime
  startedAt : Option DateTime
  finishedAt : Option DateTime
  durationMs : Option Int
  attempt : Int
  poolId : Option String
  claimedBy : Option String

/-- `From<Run>`. -/
def RunResponse.ofRun (run : Run) : RunResponse :=
  ⟨run.runId, run.jobId, run.scriptName, run.status, run.scheduledFor, run.startedAt, run.finishedAt, run.durationMs,
    run.attempt, run.poolId, run.claimedBy⟩

structure ScriptResponse where
  name : String
  signatureJson : String
  signatureHash : Nat

/-- An object of `GET /jobs/{id}/revisions`. -/
structure RevisionResponse where
  revisionId : String
  revisionNumber : Int
  changedAt : DateTime
  changedByActorJson : Json
  snapshotJson : Job

/-! ## `handlers.rs` -/

/-- `MAX_LIST_LIMIT`. -/
def maxListLimit : Nat := 1000

/-- `clamp_list_limit`. -/
def clampListLimit (limit : Option Nat) : Nat := min (limit.getD 100) maxListLimit

/-- How a query names the kinds of schedules. -/
def kindText : ScheduleKind → String
  | .cron => "cron"
  | .runOnce => "run_once"
  | .manual => "manual"

/-- The filters of `list_jobs`. -/
def ListJobsQuery.admits (query : ListJobsQuery) (job : Job) : Bool :=
  query.jobName.all (job.jobName = ·) && query.scriptName.all (job.scriptName = ·) && query.enabled.all (job.enabled = ·) &&
    query.scheduleKind.all (· = kindText job.scheduleKind)

/-- The page of a filtered list. -/
def jobPage (offset limit : Nat) (filtered : List Job) : List Job :=
  if offset ≥ filtered.length then []
  else (filtered.take (min (offset + limit) filtered.length)).drop offset

/-- `list_jobs`. -/
def listJobs (query : ListJobsQuery) : Task (StatusCode × ApiResponse (List JobResponse)) := do
  match ← CoordinatorService.listJobs with
  | .error e => chrononErr e
  | .ok jobs =>
    if query.scheduleKind.all (fun kind => kind = "cron" || kind = "run_once" || kind = "manual") then
      let filtered := jobPage (query.offset.getD 0) (clampListLimit query.limit) (jobs.filter query.admits)
      return (.ok, .okay (filtered.map .ofJob))
    else
      respondErr .badRequest
        ("invalid schedule_kind '" ++ query.scheduleKind.getD "" ++ "' (expected cron, run_once, or manual)")

/-- `get_job`. -/
def getJob (jobId : String) : Task (StatusCode × ApiResponse JobResponse) := do
  match ← CoordinatorService.getJob jobId with
  | some job => return (.ok, .okay (.ofJob job))
  | none => chrononErr (.jobNotFound jobId)

/-- `pause_job`. -/
def pauseJob (req : JobActionRequest) : Task (StatusCode × ApiResponse Unit) := do
  match ← CoordinatorService.pauseJob req.jobId with
  | .ok () => return (.ok, .okay ())
  | .error e => chrononErr e

/-- `resume_job`. -/
def resumeJob (req : JobActionRequest) : Task (StatusCode × ApiResponse Unit) := do
  match ← CoordinatorService.resumeJob req.jobId with
  | .ok () => return (.ok, .okay ())
  | .error e => chrononErr e

/-- `redact_revision_snapshot`, on the job in place of its encoding. -/
def redactRevisionSnapshot (snapshot : Job) : Job := { snapshot with actorJson := .null, paramsJson := .null }

/-- `get_job_revisions`. -/
def getJobRevisions (jobId : String) : Task (StatusCode × ApiResponse (List RevisionResponse)) := do
  match ← CoordinatorService.getJob jobId with
  | none => chrononErr (.jobNotFound jobId)
  | some _ =>
    match ← CoordinatorService.listRevisions jobId with
    | .ok revisions =>
      return (.ok, .okay (revisions.map fun r =>
        ⟨r.revisionId, r.revisionNumber, r.changedAt, .null, redactRevisionSnapshot r.snapshotJson⟩))
    | .error e => chrononErr e

/-- `list_runs`. -/
def listRuns (query : ListRunsQuery) : Task (StatusCode × ApiResponse (List RunResponse)) := do
  let offset := query.offset.getD 0
  let limit := clampListLimit query.limit
  match ← CoordinatorService.listRuns query.jobId query.status offset limit with
  | .ok runs => return (.ok, .okay (runs.map .ofRun))
  | .error e => chrononErr e

/-- `get_run`. -/
def getRun (runId : String) : Task (StatusCode × ApiResponse RunResponse) := do
  match ← CoordinatorService.getRun runId with
  | .ok (some run) => return (.ok, .okay (.ofRun run))
  | .ok none => chrononErr (.runNotFound runId)
  | .error e => chrononErr e

/-! ## `auth.rs` -/

/-- The parts of a request that a verifier sees; the values of headers are bytes. -/
structure Parts where
  method : String
  uri : String
  headers : List (String × List UInt8)

/-- `AdminAuth::authorize`, for verifiers that decide by the request alone: one with a state of its own (that counts
attempts, or asks a service) is not modelled. -/
abbrev AdminAuth := Parts → Except String Unit

/-- `HeaderValue::to_str`: visible ASCII and tabs only. -/
def headerToStr (value : List UInt8) : Option String :=
  if value.all fun b => (32 ≤ b.toNat && b.toNat < 127) || b.toNat == 9 then
    some (String.ofList (value.map fun b => Char.ofNat b.toNat))
  else none

def AllowAllAdminAuth : AdminAuth := fun _ => .ok ()

/-- `StaticTokenAdminAuth`. -/
def StaticTokenAdminAuth (token : String) : AdminAuth := fun parts =>
  match (parts.headers.lookup "x-chronon-admin-token").bind headerToStr with
  | some got => if got = token then .ok () else .error "missing or invalid x-chronon-admin-token"
  | none => .error "missing or invalid x-chronon-admin-token"

/-- `require_admin_auth_from_env`, given the value of the variable. -/
def requireAdminAuthFromEnv (value : Option String) : Bool :=
  match value with
  | some v =>
    let v := (trim v).map Char.toLower
    v == "1" || v == "true" || v == "yes"
  | none => false

/-! ## `state.rs` -/

variable {Ctx : Type}

/-- `ChrononState`. The host's list of scripts is that of the registry. -/
structure ChrononState (Ctx : Type) where
  host : Host
  registry : ScriptRegistry Ctx
  registered : host.registry = registry.names
  adminAuth : Option AdminAuth
  requireAdminAuth : Bool
  httpUpsertActor : Option (Unit → Json)

/-- `ChrononState::new`, given the environment variable. -/
def ChrononState.new (host : Host) (registry : ScriptRegistry Ctx) (registered : host.registry = registry.names)
    (env : Option String) : ChrononState Ctx where
  host
  registry
  registered
  adminAuth := none
  requireAdminAuth := requireAdminAuthFromEnv env
  httpUpsertActor := none

/-- `ChrononStateBuilder`: a state that has not been checked. -/
structure ChrononStateBuilder (Ctx : Type) where
  state : ChrononState Ctx

namespace ChrononStateBuilder

/-- `ChrononState::builder`. -/
def builder (host : Host) (registry : ScriptRegistry Ctx) (registered : host.registry = registry.names)
    (env : Option String) : ChrononStateBuilder Ctx := ⟨.new host registry registered env⟩

def adminAuth (b : ChrononStateBuilder Ctx) (auth : AdminAuth) : ChrononStateBuilder Ctx :=
  ⟨{ b.state with adminAuth := some auth }⟩

def requireAdminAuth (b : ChrononStateBuilder Ctx) (require : Bool) : ChrononStateBuilder Ctx :=
  ⟨{ b.state with requireAdminAuth := require }⟩

def httpUpsertActor (b : ChrononStateBuilder Ctx) (provider : Unit → Json) : ChrononStateBuilder Ctx :=
  ⟨{ b.state with httpUpsertActor := some provider }⟩

/-- `build`. -/
def build (b : ChrononStateBuilder Ctx) : Except ChrononError (ChrononState Ctx) :=
  if b.state.requireAdminAuth && b.state.adminAuth.isNone then
    .error (.internal "CHRONON_REQUIRE_ADMIN_AUTH is set but no AdminAuth verifier was configured")
  else .ok b.state

end ChrononStateBuilder

/-- `RequireAdmin::from_request_parts`; an error is the message of a 401. -/
def requireAdmin (state : ChrononState Ctx) (parts : Parts) : Except String Unit :=
  match state.adminAuth, state.requireAdminAuth with
  | some auth, _ => auth parts
  | none, true => .error "admin auth required but no AdminAuth verifier configured"
  | none, false => .ok ()

/-! ## `chronon_router` -/

/-- A query or body that `axum` could not read. -/
structure Rejection where
  status : Nat
  text : String

/-- The requests that have a route, with what `axum` reads from them. -/
inductive ApiRequest where
  | listJobs (query : Except Rejection ListJobsQuery)
  | upsertJob (req : Except Rejection UpsertJobRequest)
  | pauseJob (req : Except Rejection JobActionRequest)
  | resumeJob (req : Except Rejection JobActionRequest)
  | runNow (req : Except Rejection JobActionRequest)
  | getJob (jobId : String)
  | getJobRevisions (jobId : String)
  | listRuns (query : Except Rejection ListRunsQuery)
  | getRun (runId : String)
  | listScripts

/-- The status of a response. -/
inductive HttpStatus where
  | api (status : StatusCode)
  | unauthorized
  | rejected (status : Nat)
  deriving DecidableEq

/-- The bodies of the responses. -/
inductive Body where
  | jobs (response : ApiResponse (List JobResponse))
  | job (response : ApiResponse JobResponse)
  | done (response : ApiResponse Unit)
  | runId (response : ApiResponse String)
  | revisions (response : ApiResponse (List RevisionResponse))
  | runs (response : ApiResponse (List RunResponse))
  | run (response : ApiResponse RunResponse)
  | scripts (response : ApiResponse (List ScriptResponse))
  | unauthorized (error : String)
  | text (text : String)

structure Response where
  status : HttpStatus
  body : Body

/-- `list_scripts`. -/
def listScripts (state : ChrononState Ctx) : ApiResponse (List ScriptResponse) :=
  .okay (state.registry.list.map fun d => ⟨d.name, d.signatureJson, d.signatureHash⟩)

/-- `unauthorized`. -/
def unauthorized (message : String) : Response := ⟨.unauthorized, .unauthorized message⟩

/-- Answer with what a handler returns. -/
def answerWith {α : Type} (body : ApiResponse α → Body) (handler : Task (StatusCode × ApiResponse α)) : Task Response := do
  let response ← handler
  return ⟨.api response.1, body response.2⟩

/-- Go on with what has been read from the request. -/
def extracted {α : Type} (input : Except Rejection α) (handler : α → Task Response) : Task Response :=
  match input with
  | .error rejection => return ⟨.rejected rejection.status, .text rejection.text⟩
  | .ok a => handler a

/-- The handler of a route, once the request is let in. -/
def route (state : ChrononState Ctx) : ApiRequest → Task Response
  | .listJobs query => extracted query fun query => answerWith .jobs (listJobs query)
  | .upsertJob req => extracted req fun req => answerWith .job (upsertJob state.host req)
  | .pauseJob req => extracted req fun req => answerWith .done (pauseJob req)
  | .resumeJob req => extracted req fun req => answerWith .done (resumeJob req)
  | .runNow req => extracted req fun req => answerWith .runId (runNow req.jobId req.params)
  | .getJob jobId => answerWith .job (getJob jobId)
  | .getJobRevisions jobId => answerWith .revisions (getJobRevisions jobId)
  | .listRuns query => extracted query fun query => answerWith .runs (listRuns query)
  | .getRun runId => answerWith .run (getRun runId)
  | .listScripts => return ⟨.api .ok, .scripts (listScripts state)⟩

/-- `chronon_router`: every handler takes `RequireAdmin` first. -/
def chrononRouter (state : ChrononState Ctx) (parts : Parts) (request : ApiRequest) : Task Response :=
  match requireAdmin state parts with
  | .error message => return unauthorized message
  | .ok () => route state request

/-! ## Admission -/

/-- A state that has been built has a verifier where one is required. -/
theorem build_closed {b : ChrononStateBuilder Ctx} {state : ChrononState Ctx} (built : b.build = .ok state)
    (required : state.requireAdminAuth = true) : ∃ auth, state.adminAuth = some auth := by
  unfold ChrononStateBuilder.build at built
  split at built
  · cases built
  · rename_i checked
    have same : b.state = state := Except.ok.inj built
    rw [same, required, Bool.true_and, Option.isNone_iff_eq_none, ← ne_eq, Option.ne_none_iff_exists'] at checked
    exact checked

end Axum

end Chronon
