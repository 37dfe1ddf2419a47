import Chronon.Core.Error

/-!
# `chronon-core/src/models/run.rs`, and the smaller coordinator rows

The run row with its lifecycle functions, and the leader, partition, worker and
script rows the store keeps.
-/

namespace Chronon
set_option autoImplicit false

inductive RunStatus where
  | queued
  | claimed
  | running
  | success
  | failed
  | canceled
  | timeout
  deriving DecidableEq

namespace RunStatus

def isTerminal : RunStatus → Bool
  | .success | .failed | .canceled | .timeout => true
  | _ => false

def isActive : RunStatus → Bool
  | .queued | .claimed | .running => true
  | _ => false

end RunStatus

structure Run where
  runId : String
  jobId : Option String
  scriptName : String
  parentRunId : Option String
  rootRunId : Option String
  childIndex : Option Int
  scheduledFor : DateTime
  startedAt : Option DateTime
  finishedAt : Option DateTime
  durationMs : Option Int
  status : RunStatus
  attempt : Int
  instanceId : Option String
  placementJson : Option Json
  poolId : Option String
  actorJson : Json
  paramsJson : Json
  stdoutText : Option String
  stderrText : Option String
  errorJson : Option Json
  statsJson : Option Json
  claimedBy : Option String
  claimLeaseUntil : Option DateTime

namespace Run

/-- `Run::new`, given the identifier it draws. -/
def new (runId scriptName : String) (scheduledFor : DateTime) : Run where
  runId
  jobId := none
  scriptName
  parentRunId := none
  rootRunId := none
  childIndex := none
  scheduledFor
  startedAt := none
  finishedAt := none
  durationMs := none
  status := .queued
  attempt := 1
  instanceId := none
  placementJson := none
  poolId := none
  actorJson := .null
  paramsJson := .obj []
  stdoutText := none
  stderrText := none
  errorJson := none
  statsJson := none
  claimedBy := none
  claimLeaseUntil := none

/-- `Run::for_job`. -/
def forJob (runId jobId scriptName : String) (scheduledFor : DateTime) : Run :=
  { new runId scriptName scheduledFor with jobId := some jobId }

def start (run : Run) (now : DateTime) : Run := { run with startedAt := some now, status := .running }

/-- The part `complete`, `fail` and `timeout` share. -/
def finish (run : Run) (finished : DateTime) (status : RunStatus) : Run :=
  { run with
    finishedAt := some finished
    status
    durationMs := match run.startedAt with
      | some started => some (numMilliseconds (finished - started))
      | none => run.durationMs }

def complete (run : Run) (now : DateTime) : Run := run.finish now .success

def fail (run : Run) (now : DateTime) (error : String) : Run :=
  { run.finish now .failed with errorJson := some (.obj [("message", .str error)]) }

def timeout (run : Run) (now : DateTime) (error : String) : Run :=
  { run.finish now .timeout with errorJson := some (.obj [("message", .str error)]) }

end Run

structure SchedulerLeader where
  leaderId : String
  leaderInstanceId : String
  leaderLeaseUntil : DateTime
  lastHeartbeatAt : DateTime

structure PartitionAssignment where
  partitionId : String
  ownerInstanceId : String
  leaseUntil : DateTime
  updatedAt : DateTime

inductive WorkerStatus where
  | online
  | draining
  | offline
  deriving DecidableEq

structure Worker where
  workerId : String
  poolId : String
  cellId : Option String
  status : WorkerStatus
  lastHeartbeatAt : DateTime
  capacityJson : Option Json
  createdAt : DateTime
  updatedAt : DateTime

structure Script where
  scriptId : String
  scriptName : String
  signatureJson : Json
  signatureHash : String
  createdAt : DateTime

end Chronon
