import Chronon.Concurrent.Reporting
import Chronon.Executor.Invoke
import Chronon.System.Alone

/-!
# `Executor` and its event handler

`Executor::new` and `spawn_run` of `chronon-executor/src/lib.rs`, and
`spawn_event_handler` of `chronon-runtime/src/events.rs`. The tasks of an executor
hold a permit of `run_slots` while they run a script and report on the event
channel, and the handler persists what it receives, one event after another.
Nothing catches a panic of a script, of a context factory or of a telemetry sink:
the task unwinds, its permit is dropped, and no further event is sent for its run.

The executor keeps a sender and nothing closes `run_slots`, so the channel is
closed only by the end of the handler, which a panic in it brings about. In
`handled`, the events that have been persisted are recorded. While the handler is
at work on the store nobody else writes runs; everything else may change.
-/

namespace Chronon
set_option autoImplicit false

open Concurrent

/-- `executor_concurrency_from_env`. -/
def executorConcurrencyFromEnv (value : Option Nat) : Nat := natFromEnv value 4

/-- `event_channel_capacity_from_env`. -/
def eventChannelCapacityFromEnv (value : Option Nat) : Nat := natFromEnv value 1024

/-- What the task of `spawn_run` captures: the script of the job, the work and identity of the run. -/
def spawnRun (job : Job) (run : Run) : ExecuteScriptRequest where
  scriptName := job.scriptName
  actorJson := run.actorJson
  paramsJson := run.paramsJson
  jobName := job.jobName
  runId := run.runId

/-- How `execute_script` has come out, and the milliseconds it took. -/
structure Execution where
  durationMs : Int
  outcome : ExecuteScriptOutcome

/-- The outcomes `execute_script` can have with these scripts registered where it returns, by how the context is built,
how the handler ends, and what it prints. -/
def Executes (registry : List String) (request : ExecuteScriptRequest) (outcome : ExecuteScriptOutcome) : Prop :=
  ∃ context handler captured, outcome = executeScript (invokeInner registry request.scriptName context handler) captured

/-- The events of one task. -/
def lifecycle : Messages ExecuteScriptRequest Execution ExecutorEvent where
  announce request := .runStarted request.runId
  report request execution := spawnRunEvent request.runId execution.durationMs execution.outcome

abbrev Executor := Reporters ExecuteScriptRequest Execution ExecutorEvent

/-- `Executor::new`. -/
def Executor.new (maxInFlight : Nat) : Executor := .idle (max maxInFlight 1)

/-- The executor, the event its handler is at work on, the events that have been persisted, and the store. -/
structure Dispatch where
  executor : Executor
  handling : Option (Nat × ExecutorEvent)
  handled : List (Nat × ExecutorEvent)
  world : World

inductive DispatchAct where
  | spawn (job : Job) (run : Run)
  -- a task goes on, or unwinds
  | task (act : ReportAct ExecuteScriptRequest Execution)
  | receive
  | persist
  | other

/-- What a deployment with such an executor can do. -/
inductive Dispatch.Step (registry : List String) (capacity : Nat) : Dispatch → DispatchAct → Dispatch → Prop
  | spawn {d : Dispatch} {e : Executor} {job : Job} {run : Run} :
      d.executor.step lifecycle capacity (.spawn (spawnRun job run)) = some e →
      Step registry capacity d (.spawn job run) { d with executor := e }
  | task {d : Dispatch} {e : Executor} {act : ReportAct ExecuteScriptRequest Execution} :
      act.isTask = true → d.executor.step lifecycle capacity act = some e →
      (∀ i out, act = .finish i out → ∀ request stage, d.executor.tasks[i]? = some (request, stage) →
        Executes registry request out.outcome) →
      Step registry capacity d (.task act) { d with executor := e }
  | receive {d : Dispatch} {e : Executor} {m : Nat × ExecutorEvent} :
      d.handling = none → d.executor.queue.head? = some m → d.executor.step lifecycle capacity .take = some e →
      Step registry capacity d .receive { d with executor := e, handling := some m }
  | persist {d : Dispatch} {m : Nat × ExecutorEvent} {w : World} :
      d.handling = some m → Ends .calm (handleExecutorEvent m.2) d.world (some ()) w →
      Step registry capacity d .persist { d with handling := none, handled := d.handled ++ [m], world := w }
  | panic {d : Dispatch} {e : Executor} {m : Nat × ExecutorEvent} {w : World} :
      d.handling = some m → Ends .calm (handleExecutorEvent m.2) d.world none w →
      d.executor.step lifecycle capacity .close = some e →
      Step registry capacity d .persist { d with executor := e, handling := none, world := w }
  | other {d : Dispatch} {w : World} : w.store.runs = d.world.store.runs →
      Step registry capacity d .other { d with world := w }

/-- `Chronon::run` has spawned the handler. -/
def Dispatch.start (maxInFlight : Nat) (w : World) : Dispatch := ⟨.new maxInFlight, none, [], w⟩

/-- The histories of a deployment whose steps meet `P`, latest action first. -/
inductive Dispatches (P : Dispatch → DispatchAct → Prop) (registry : List String) (capacity : Nat) (d₀ : Dispatch) :
    List DispatchAct → Dispatch → Prop
  | refl : Dispatches P registry capacity d₀ [] d₀
  | step {acts : List DispatchAct} {d d' : Dispatch} {act : DispatchAct} : Dispatches P registry capacity d₀ acts d →
      d.Step registry capacity act d' → P d act → Dispatches P registry capacity d₀ (act :: acts) d'

end Chronon
