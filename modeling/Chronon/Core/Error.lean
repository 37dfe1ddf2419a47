import Chronon.Core.Value

/-!
# `chronon-core/src/error.rs`

The error kinds with their `Display` texts. The `source` chains that
`StorageError` and `InternalSource` carry for logging are left out.
-/

namespace Chronon
set_option autoImplicit false

inductive ChrononError where
  | scriptNotFound (name : String)
  | jobNotFound (id : String)
  | runNotFound (id : String)
  | invalidCron (text : String)
  | invalidTimezone (name : String)
  | paramError (text : String)
  | scriptMismatch (expected actual jobName : String)
  | jobNameTaken (jobName existingJobId : String)
  | storageError (message : String)
  | identity (text : String)
  | internal (text : String)
  | internalSource (message : String)
  deriving DecidableEq

/-- `Display`. -/
def ChrononError.toText : ChrononError → String
  | .scriptNotFound name => "script not found: " ++ name
  | .jobNotFound id => "job not found: " ++ id
  | .runNotFound id => "run not found: " ++ id
  | .invalidCron text => "invalid cron expression: " ++ text
  | .invalidTimezone name => "invalid timezone: " ++ name
  | .paramError text => "parameter error: " ++ text
  | .scriptMismatch expected actual jobName =>
    "script mismatch for job '" ++ jobName ++ "': expected '" ++ expected ++ "', got '" ++ actual ++ "'"
  | .jobNameTaken jobName existingJobId =>
    "job name '" ++ jobName ++ "' is already used by job '" ++ existingJobId ++ "'"
  | .storageError message => "storage error: " ++ message
  | .identity text => "identity error: " ++ text
  | .internal text => "internal error: " ++ text
  | .internalSource message => "internal error: " ++ message

/-- `chronon_core::Result`. -/
abbrev Result (α : Type) := Except ChrononError α

end Chronon
