import Chronon.Runtime.Worker

/-!
# `chronon-executor/src/invoke.rs` and the end of `Executor::spawn_run`

How the outcome of a script is made from what its handler returned and what was
captured of its tracing output, and the event an executor sends for it.
Telemetry is left out.
-/

namespace Chronon
set_option autoImplicit false

/-- `PARAM_ERROR_HINTS`. -/
def paramErrorHints : List String :=
  ["missing field", "invalid type", "expected", "unknown field", "parameter error", "deserializing"]

/-- `is_likely_param_error`. -/
def isLikelyParamError (message : String) : Bool :=
  let lower := message.map Char.toLower
  paramErrorHints.any fun hint => containsText lower hint

/-- `map_invoke_error`. -/
def mapInvokeError : ChrononError → ChrononError
  | .internal message => if isLikelyParamError message then .paramError message else .internal message
  | err => err

/-- `invoke_inner`, given how the context build and the handler end. -/
def invokeInner (registry : List String) (scriptName : String) (context handler : Result Unit) : Result Unit :=
  if registry.contains scriptName then
    match context with
    | .error e => .error e
    | .ok () =>
      match handler with
      | .error e => .error (mapInvokeError e)
      | .ok () => .ok ()
  else .error (.scriptNotFound scriptName)

/-- `execute_script`, given the result of `invoke_inner` and the captured output. -/
def executeScript (result : Result Unit) (captured : CapturedLogs) : ExecuteScriptOutcome :=
  match result with
  | .error e => ⟨.error e, captured.ensureStderrMessage e.toText⟩
  | .ok () => ⟨.ok (), captured⟩

/-- The event `spawn_run` ends with. -/
def spawnRunEvent (runId : String) (durationMs : Int) (outcome : ExecuteScriptOutcome) : ExecutorEvent :=
  match outcome.result with
  | .ok () => .runCompleted runId durationMs outcome.logs
  | .error e => .runFailed runId e.toText outcome.logs

end Chronon
