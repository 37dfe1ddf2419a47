import Chronon.Concurrent.Notify

/-!
# The loops of a deployment

`run_coordinator_loops`, `run_worker_loop`, and the loops they spawn, with
`Chronon::shutdown`. Of the work of an iteration only its start and its end
matter here; what the loops read at their heads (the leader flag, the environment
variables that disable the worker) and when timers and work are done is open.
-/

namespace Chronon
set_option autoImplicit false

open Concurrent

/-- What an iteration does. -/
inductive LoopWork where
  | stepOnce
  | runOneTick
  | heartbeatWorker
  | reclaimExpiredRunLeases
  | claimNextQueued
  deriving DecidableEq

namespace Loops

/-- `run_election_loop`: the step is taken in the branch of the interval. -/
def runElectionLoop : Loop LoopWork := .listening fun _ => .timer (some .stepOnce)

/-- `run_coordinator_tick_loop`, by `is_leader`: the tick of a leader is a branch itself, a standby sleeps. -/
def runCoordinatorTickLoop : Loop LoopWork :=
  .listening fun isLeader => if isLeader then .work .runOneTick else .timer none

/-- The loop of `run_worker_loop`. -/
def heartbeatLoop : Loop LoopWork := .listening fun _ => .timer (some .heartbeatWorker)

/-- `run_reclaim_loop`. -/
def runReclaimLoop : Loop LoopWork := .listening fun _ => .timer (some .reclaimExpiredRunLeases)

/-- `worker_slot`, by the variables that disable it: it is given no signal. -/
def workerSlot : Loop LoopWork := .deaf fun disabled => if disabled then none else some .claimNextQueued

end Loops

/-- The deployment shapes, a worker with its number of slots. -/
inductive LoopShape where
  | coordinatorOnly
  | worker (concurrency : Nat)

/-- The tasks that `Chronon::run` starts. -/
def LoopShape.loops : LoopShape → List (Loop LoopWork)
  | .coordinatorOnly => [Loops.runElectionLoop, Loops.runCoordinatorTickLoop]
  | .worker concurrency => List.replicate concurrency Loops.workerSlot ++ [Loops.runReclaimLoop, Loops.heartbeatLoop]

/-- **Shutdown is not lost** in a run in which each call finds every loop but the slots in its select, no timer or tick
is ready when a select that was woken is polled, and no slot comes to its loop head enabled once it was called. -/
theorem shutdown_not_lost (shape : LoopShape) {tasks : List (LoopTask LoopWork)}
    (run : LoopRun SignalHeard shape.loops tasks) : ∀ t ∈ tasks, t.further = [] :=
  fun t inside => (run.no_further t inside).nothing

/-- Every loop is in its select when `shutdown` is called, and the slot finds itself disabled afterwards. -/
def heardShutdown : List LoopAction :=
  [.move 0 (.enter false), .move 1 (.enter false), .move 2 (.enter false), .move 2 .elapse, .move 2 (.poll true),
    .move 2 .finish, .move 2 (.enter false), .notify, .move 1 (.poll false), .move 0 .finish, .move 2 (.poll true),
    .move 0 (.enter true), .move 0 .elapse]

/-- What the tasks have done since the call. -/
def sinceCall (tasks : List (LoopTask LoopWork)) : List (Since × List LoopWork) := tasks.map fun t => (t.since, t.further)

theorem exists_loop_run (shape : LoopShape) (P : List (LoopTask LoopWork) → LoopAction → Prop)
    [∀ tasks action, Decidable (P tasks action)] (actions : List LoopAction) (test : List (Since × List LoopWork) → Bool)
    (played : (playLoops P actions (shape.loops.map LoopTask.spawn)).any (fun tasks => test (sinceCall tasks)) = true) :
    ∃ tasks, LoopRun P shape.loops tasks ∧ test (sinceCall tasks) = true := by
  obtain ⟨tasks, isPlayed, passes⟩ := (Option.any_eq_true _ _).mp played
  exact ⟨tasks, LoopRun.start.of_play isPlayed, passes⟩

/-- Every loop has noticed the call, and none has gone on. -/
theorem shutdown_heard :
    ∃ tasks, LoopRun SignalHeard (LoopShape.worker 1).loops tasks ∧ (sinceCall tasks).map Prod.fst = [.arrived, .arrived, .arrived] ∧
      ∀ t ∈ tasks, t.further = [] := by
  obtain ⟨tasks, run, arrived⟩ := exists_loop_run (.worker 1) SignalHeard heardShutdown
    (fun since => since.map Prod.fst == [.arrived, .arrived, .arrived]) (by decide)
  exact ⟨tasks, run, beq_iff_eq.mp arrived, shutdown_not_lost (.worker 1) run⟩

/-- A standby coordinator is in the middle of an election step when `shutdown` is called, once. -/
def missedShutdown : List LoopAction :=
  [.move 0 (.enter false), .move 1 (.enter false), .move 0 .elapse, .move 0 (.poll true), .notify, .move 0 .finish,
    .move 0 (.enter false), .move 0 .elapse, .move 0 (.poll true)]

/-- It takes a further step. -/
theorem shutdown_missed :
    ∃ tasks, LoopRun (fun _ _ => True) LoopShape.coordinatorOnly.loops tasks ∧
      sinceCall tasks = [(.arrived, [.stepOnce]), (.arrived, [])] := by
  obtain ⟨tasks, run, further⟩ := exists_loop_run .coordinatorOnly (fun _ _ => True) missedShutdown
    (fun since => since == [(.arrived, [.stepOnce]), (.arrived, [])]) (by decide)
  exact ⟨tasks, run, beq_iff_eq.mp further⟩

end Chronon
