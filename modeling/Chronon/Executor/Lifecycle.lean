import Chronon.Executor.Dispatch

/-!
# The lifecycle of the runs handed to an executor

In every interleaving of the tasks of an executor, its event handler and whatever
else happens to the store: how many scripts run, which events arrive, that all of
it comes to an end, what is then stored, and what remains possible once the handler
has panicked.
-/

namespace Chronon
set_option autoImplicit false

open Concurrent

variable {P : Dispatch → DispatchAct → Prop} {registry : List String} {capacity maxInFlight : Nat} {w : World}
  {acts acts' : List DispatchAct} {d d' : Dispatch} {act : DispatchAct}

/-! ## Slots and the channel -/

/-- The tasks that hold a permit. -/
def Dispatch.inSlots (d : Dispatch) : Nat := d.executor.tasks.countP (·.2.holds)

/-- **Never more scripts than slots, never more events than the channel takes**: in every interleaving, the tasks in a
slot and the permits that are left are `max_in_flight` (or one), and the channel is within its capacity. A task that
unwinds gives its permit back as well. -/
theorem slots_never_exceeded (dispatches : Dispatches P registry capacity (.start maxInFlight w) acts d) :
    d.inSlots + d.executor.free = max maxInFlight 1 ∧ d.executor.queue.length ≤ capacity := by
  have total := dispatches.sound.executor.slots
  have within := dispatches.sound.executor.capacity
  rw [Dispatch.inSlots]
  omega

/-! ## Delivery -/

/-- **No event is lost, doubled or overtaken**: while the handler is there, the events of each task that have been
persisted, then the one the handler is at work on, then those in the channel, are the events the task has sent. -/
theorem events_delivered_in_order (dispatches : Dispatches P registry capacity (.start maxInFlight w) acts d)
    (alive : d.executor.closed = false) (i : Nat) (request : ExecuteScriptRequest) (stage : Stage Execution)
    (spawned : d.executor.tasks[i]? = some (request, stage)) :
    Reporters.ofTask i d.handled ++ Reporters.ofTask i d.handling.toList ++ Reporters.ofTask i d.executor.queue =
      stage.sent lifecycle request := by
  have sound := dispatches.sound
  rw [← sound.executor.delivered i request stage spawned alive, sound.taken alive, Reporters.ofTask_append,
    Reporters.ofTask_append]

/-! ## Every run comes to its end -/

namespace DispatchAct

def isSpawn : DispatchAct → Bool
  | .spawn _ _ => true
  | _ => false

/-- A step of a task or of the handler. -/
def isOwn : DispatchAct → Bool
  | .task _ | .receive | .persist => true
  | _ => false

end DispatchAct

/-- Every task is over, and every event has been handled. -/
structure Dispatch.Quiet (d : Dispatch) : Prop where
  ended : ∀ t ∈ d.executor.tasks, t.2.isOver = true
  queue : d.executor.queue = []
  handling : d.handling = none

/-- A bound on the steps that are left. -/
def Dispatch.work (d : Dispatch) : Nat := 2 * d.executor.work + d.handling.isSome.toNat

theorem Dispatch.work_step (steps : d.Step registry capacity act d') :
    d'.work + act.isOwn.toNat ≤ d.work + 12 * act.isSpawn.toNat := by
  cases steps with
  | spawn steps =>
    rcases Reporters.work_step steps with ⟨-, -, more⟩ | less <;>
      simp only [Dispatch.work, DispatchAct.isOwn, DispatchAct.isSpawn, Bool.toNat_true, Bool.toNat_false] <;> omega
  | task isTask steps _ =>
    rcases Reporters.work_step steps with ⟨_, rfl, -⟩ | less
    · cases isTask
    · simp only [Dispatch.work, DispatchAct.isOwn, DispatchAct.isSpawn, Bool.toNat_true, Bool.toNat_false]
      omega
  | receive idle first steps =>
    rcases Reporters.work_step steps with ⟨_, isSpawn, -⟩ | less
    · cases isSpawn
    · simp only [Dispatch.work, DispatchAct.isOwn, DispatchAct.isSpawn, idle, Option.isSome_some, Option.isSome_none,
        Bool.toNat_true, Bool.toNat_false]
      omega
  | persist busy ends =>
    simp only [Dispatch.work, DispatchAct.isOwn, DispatchAct.isSpawn, busy, Option.isSome_some, Option.isSome_none,
      Bool.toNat_true, Bool.toNat_false]
    omega
  | panic busy ends steps =>
    rcases Reporters.work_step steps with ⟨_, isSpawn, -⟩ | less
    · cases isSpawn
    · simp only [Dispatch.work, DispatchAct.isOwn, DispatchAct.isSpawn, busy, Option.isSome_some, Option.isSome_none,
        Bool.toNat_true, Bool.toNat_false]
      omega
  | other same =>
    simp only [Dispatch.work, DispatchAct.isOwn, DispatchAct.isSpawn, Bool.toNat_false]
    omega

theorem Dispatches.work {d₀ : Dispatch} (dispatches : Dispatches P registry capacity d₀ acts d) :
    d.work + acts.countP (·.isOwn) ≤ d₀.work + 12 * acts.countP (·.isSpawn) := by
  induction dispatches with
  | refl => simp
  | @step acts d d' act _ steps _ ih =>
    have less := Dispatch.work_step steps
    rw [List.countP_cons, List.countP_cons]
    cases own : act.isOwn <;> cases spawn : act.isSpawn <;>
      simp only [own, spawn, Bool.toNat_true, Bool.toNat_false, Bool.false_eq_true, if_true, if_false] at less ⊢ <;> omega

/-- A script comes out in some way. -/
theorem Executes.exists (registry : List String) (request : ExecuteScriptRequest) :
    ∃ outcome, Executes registry request outcome :=
  ⟨_, .ok (), .ok (), .default, rfl⟩

/-- Where the handler is at work, it goes on. -/
theorem Dispatch.Sound.exists_persist {slots : Nat} {m : Nat × ExecutorEvent} (sound : d.Sound slots capacity)
    (busy : d.handling = some m) : ∃ d', d.Step registry capacity .persist d' := by
  obtain ⟨out, w', ends⟩ : ∃ out w', Ends .calm (handleExecutorEvent m.2) d.world out w' := Ends.exists le_refl _ _
  cases out with
  | some value => exact ⟨_, .persist busy ends⟩
  | none =>
    have closes : d.executor.step lifecycle capacity .close = some { d.executor with queue := [], closed := true } := by
      simp only [Reporters.step, sound.alive busy, Bool.false_eq_true, if_false]
    exact ⟨_, .panic busy ends closes⟩

/-- **No deadlock**: as long as something is left to do, a task or the handler can go on. -/
theorem Dispatch.Sound.quiet_or_step (sound : d.Sound (max maxInFlight 1) capacity) (room : 0 < capacity) :
    d.Quiet ∨ ∃ act d', act.isOwn = true ∧ d.Step registry capacity act d' := by
  cases busy : d.handling with
  | some m =>
    obtain ⟨d', persists⟩ : ∃ d', d.Step registry capacity .persist d' := sound.exists_persist busy
    exact .inr ⟨_, d', rfl, persists⟩
  | none =>
    cases isQueue : d.executor.queue with
    | cons m rest =>
      have takes : d.executor.step lifecycle capacity .take =
          some { d.executor with queue := rest, taken := d.executor.taken ++ [m] } := by
        rw [Reporters.step, isQueue]
      exact .inr ⟨_, _, rfl, .receive busy (by rw [isQueue]; rfl) takes⟩
    | nil =>
      by_cases unfinished : ∃ t ∈ d.executor.tasks, t.2.isOver = false
      · obtain ⟨i, request, stage, found, goesOn⟩ :=
          Reporters.exists_step sound.executor (Nat.lt_of_lt_of_le Nat.one_pos (Nat.le_max_right ..)) room isQueue unfinished
        obtain ⟨outcome, executes⟩ := Executes.exists registry request
        obtain ⟨act, e, isAct, steps⟩ := goesOn ⟨0, outcome⟩
        refine .inr ⟨.task act, _, rfl, .task ?_ steps ?_⟩
        · cases stage <;> cases isAct <;> rfl
        · rintro j out rfl request' stage' found'
          cases stage <;> cases isAct
          rw [found] at found'
          cases found'
          exact executes
      · refine .inl ⟨fun t inside => ?_, isQueue, busy⟩
        rw [← Bool.not_eq_false]
        exact fun isLeft => unfinished ⟨t, inside, isLeft⟩

/-- **Every run comes to its end.** With `n` runs spawned, the tasks and the handler make at most `12 n + 2` steps
however they are interleaved, and until every task is over and every event is handled one of them can go on. -/
theorem dispatch_completes (dispatches : Dispatches P registry capacity (.start maxInFlight w) acts d) (room : 0 < capacity) :
    acts.countP (·.isOwn) ≤ 12 * acts.countP (·.isSpawn) + 2 ∧
      (d.Quiet ∨ ∃ act d', act.isOwn = true ∧ d.Step registry capacity act d') := by
  refine ⟨?_, dispatches.sound.quiet_or_step room⟩
  have bound := dispatches.work
  have start : (Dispatch.start maxInFlight w).work = 2 := rfl
  omega

/-! ## What is stored at the end -/

/-- Scripts have executed as they do. -/
def Dispatch.Executed (registry : List String) (d : Dispatch) : Prop :=
  ∀ (i : Nat) (request : ExecuteScriptRequest) (stage : Stage Execution), d.executor.tasks[i]? = some (request, stage) →
    ∀ execution, stage.outcome = some execution → Executes registry request execution.outcome

theorem Dispatch.Executed.step (executed : d.Executed registry) (steps : d.Step registry capacity act d') :
    d'.Executed registry := by
  cases steps with
  | spawn steps =>
    intro i request stage found execution isOutcome
    rcases Reporters.outcome_cases steps found isOutcome with ⟨old, before, isOld⟩ | ⟨isFinish, -⟩
    · exact executed i request old before execution isOld
    · cases isFinish
  | task isTask steps executes =>
    intro i request stage found execution isOutcome
    rcases Reporters.outcome_cases steps found isOutcome with ⟨old, before, isOld⟩ | ⟨isFinish, working⟩
    · exact executed i request old before execution isOld
    · exact executes i execution isFinish request _ working
  | receive idle first steps =>
    intro i request stage found execution isOutcome
    rcases Reporters.outcome_cases steps found isOutcome with ⟨old, before, isOld⟩ | ⟨isFinish, -⟩
    · exact executed i request old before execution isOld
    · cases isFinish
  | panic busy ends steps =>
    obtain ⟨-, tasks, -, -⟩ := Executor.close_step steps
    simpa only [Dispatch.Executed, tasks] using executed
  | _ => exact executed

theorem Dispatches.executed (dispatches : Dispatches P registry capacity (.start maxInFlight w) acts d) :
    d.Executed registry := by
  induction dispatches with
  | refl => exact nofun
  | step _ steps _ ih => exact ih.step steps

/-- A run that was handed out has a task. -/
theorem Dispatches.spawned (dispatches : Dispatches P registry capacity (.start maxInFlight w) acts d) {job : Job} {run : Run}
    (spawned : .spawn job run ∈ acts) : spawnRun job run ∈ d.executor.tasks.map Prod.fst := by
  induction dispatches with
  | refl => cases spawned
  | @step acts d d' act _ steps _ ih =>
    have kept (isOld : act ≠ .spawn job run) : spawnRun job run ∈ d.executor.tasks.map Prod.fst :=
      ih ((List.mem_cons.mp spawned).resolve_left (Ne.symm isOld))
    cases steps with
    | @spawn e job' run' steps =>
      cases steps
      rw [List.map_append, List.mem_append]
      rcases List.mem_cons.mp spawned with isNew | before
      · cases isNew
        exact .inr List.mem_cons_self
      · exact .inl (ih before)
    | task isTask steps _ =>
      rcases Reporters.step_cases steps with
        ⟨tag, rfl, -⟩ | ⟨i, request, old, new, messages, moved⟩ | ⟨rfl, -⟩ | ⟨rfl, -⟩
      · cases isTask
      · rw [moved.tags]
        exact kept (by rintro ⟨⟩)
      · cases isTask
      · cases isTask
    | receive idle first steps =>
      obtain ⟨rest, isQueue⟩ := List.head?_eq_some_iff.mp first
      rw [Reporters.step, isQueue] at steps
      cases steps
      exact kept (by rintro ⟨⟩)
    | panic busy ends steps =>
      obtain ⟨-, tasks, -, -⟩ := Executor.close_step steps
      simpa only [tasks] using kept (by rintro ⟨⟩)
    | _ => exact kept (by rintro ⟨⟩)

/-- The status an outcome is persisted with. -/
def ExecuteScriptOutcome.status (outcome : ExecuteScriptOutcome) : RunStatus :=
  match outcome.result with
  | .ok () => .success
  | .error _ => .failed

/-- When all events of a task that has ended are persisted, its run has the status of the outcome. -/
theorem status_of_ended {request : ExecuteScriptRequest} {execution : Execution} {status : RunStatus}
    (follows : statusAfter status (Stage.sent lifecycle request (.ended execution))) :
    status = execution.outcome.status := by
  cases result : execution.outcome.result with
  | ok _ =>
    have isSuccess : execution.outcome.status = .success := by simp only [ExecuteScriptOutcome.status, result]
    simp only [Stage.sent, lifecycle, spawnRunEvent, result] at follows
    rw [isSuccess]
    exact follows
  | error _ =>
    have isFailed : execution.outcome.status = .failed := by simp only [ExecuteScriptOutcome.status, result]
    simp only [Stage.sent, lifecycle, spawnRunEvent, result] at follows
    rw [isFailed]
    exact follows

/-- Where the handler has survived and nothing is left to do, the run of each task has the status of its outcome, or is
still stored as running if the task has unwound. -/
theorem Dispatch.Rows.settled {slots : Nat} (rows : d.Rows) (sound : d.Sound slots capacity)
    (alive : d.executor.closed = false) (quiet : d.Quiet) {request : ExecuteScriptRequest} {stage : Stage Execution}
    {i : Nat} (found : d.executor.tasks[i]? = some (request, stage)) :
    ∃ row, d.world.run request.runId = some row ∧
      ((∃ execution, stage = .ended execution ∧ row.status = execution.outcome.status) ∨
        (stage = .unwound ∧ row.status = .running)) := by
  obtain ⟨row, stored, follows⟩ := rows.follows alive i request stage found
  have handled : d.executor.taken ++ d.executor.queue = d.handled := by
    rw [sound.taken alive, quiet.queue, quiet.handling, Option.toList_none, List.append_nil, List.append_nil]
  have delivered := sound.executor.delivered i request stage found alive
  rw [handled] at delivered
  rw [delivered] at follows
  have isEnded := quiet.ended _ (List.mem_of_getElem? found)
  cases stage with
  | ended execution => exact ⟨row, stored, .inl ⟨execution, rfl, status_of_ended follows⟩⟩
  | unwound => exact ⟨row, stored, .inr ⟨rfl, follows⟩⟩
  | turnedAway => exact absurd found (sound.executor.admitted alive i request)
  | _ => cases isEnded

/-- What an executor whose handler is gone can still change. -/
theorem Dispatch.Sound.dead_step {slots : Nat} (sound : d.Sound slots capacity) (dead : d.executor.closed = true)
    (steps : d.Step registry capacity act d') :
    d'.executor.closed = true ∧ (∀ id, d'.world.run id = d.world.run id) ∧
      ∀ (i : Nat) (request : ExecuteScriptRequest) (stage : Stage Execution),
        d'.executor.tasks[i]? = some (request, stage) → stage.hasStarted = true →
        ∃ old, d.executor.tasks[i]? = some (request, old) ∧ old.hasStarted = true := by
  have idle := sound.closed dead
  cases steps with
  | spawn steps | task _ steps _ =>
    exact ⟨Reporters.closed_step steps dead, fun _ => rfl, fun _ _ _ found => Reporters.closed_starts_nothing steps dead found⟩
  | receive _ first steps =>
    rw [sound.executor.closed dead] at first
    cases first
  | persist busy _ | panic busy _ _ =>
    rw [idle] at busy
    cases busy
  | other same =>
    refine ⟨dead, fun id => ?_, fun _ _ stage found started => ⟨stage, found, started⟩⟩
    rw [World.run, same]
    rfl

/-- **A panic of the handler ends all work**: in whatever happens afterwards, no further script is started, and no stored
run changes; the runs that were executing stay as they were. -/
theorem nothing_after_panic (dispatches : Dispatches P registry capacity (.start maxInFlight w) acts d)
    (dead : d.executor.closed = true) (later : Dispatches P registry capacity d acts' d') :
    (∀ id, d'.world.run id = d.world.run id) ∧
      ∀ (i : Nat) (request : ExecuteScriptRequest) (stage : Stage Execution),
        d'.executor.tasks[i]? = some (request, stage) → stage.hasStarted = true →
        ∃ old, d.executor.tasks[i]? = some (request, old) ∧ old.hasStarted = true := by
  suffices all : d'.Sound (max maxInFlight 1) capacity ∧ d'.executor.closed = true ∧
      (∀ id, d'.world.run id = d.world.run id) ∧
      ∀ (i : Nat) (request : ExecuteScriptRequest) (stage : Stage Execution),
        d'.executor.tasks[i]? = some (request, stage) → stage.hasStarted = true →
        ∃ old, d.executor.tasks[i]? = some (request, old) ∧ old.hasStarted = true from all.2.2
  induction later with
  | refl => exact ⟨dispatches.sound, dead, fun _ => rfl, fun _ _ stage found started => ⟨stage, found, started⟩⟩
  | step _ steps _ ih =>
    obtain ⟨sound, isDead, rows, started⟩ := ih
    obtain ⟨isDead', rows', started'⟩ := sound.dead_step isDead steps
    refine ⟨sound.step steps, isDead', fun id => (rows' id).trans (rows id), fun i request stage found isStarted => ?_⟩
    obtain ⟨old, before, wasStarted⟩ := started' i request stage found isStarted
    exact started i request old before wasStarted

/-! ## Playing a deployment -/

/-- An action with everything it leaves open: how a script comes out, and what the store calls draw. -/
inductive DispatchChoice where
  | spawn (job : Job) (run : Run)
  | acquire (i : Nat)
  | announce (i : Nat)
  | finish (i : Nat) (durationMs : Int) (handler : Result Unit) (captured : CapturedLogs)
  | unwind (i : Nat)
  | report (i : Nat)
  | receive
  | persist (oracles : List Oracle)

/-- What a script comes out with when its context has been built. -/
def playedExecution (registry : List String) (d : Dispatch) (i : Nat) (durationMs : Int) (handler : Result Unit)
    (captured : CapturedLogs) : Execution :=
  let scriptName := ((d.executor.tasks[i]?).map (·.1.scriptName)).getD ""
  ⟨durationMs, executeScript (invokeInner registry scriptName (.ok ()) handler) captured⟩

def DispatchChoice.toAct (registry : List String) (d : Dispatch) : DispatchChoice → DispatchAct
  | .spawn job run => .spawn job run
  | .acquire i => .task (.acquire i)
  | .announce i => .task (.announce i)
  | .finish i durationMs handler captured => .task (.finish i (playedExecution registry d i durationMs handler captured))
  | .unwind i => .task (.unwind i)
  | .report i => .task (.report i)
  | .receive => .receive
  | .persist _ => .persist

/-- The deployment after an action. -/
def Dispatch.play (capacity : Nat) (d : Dispatch) (oracles : List Oracle) : DispatchAct → Option Dispatch
  | .spawn job run =>
    (d.executor.step lifecycle capacity (.spawn (spawnRun job run))).map fun e => { d with executor := e }
  | .task act => (d.executor.step lifecycle capacity act).map fun e => { d with executor := e }
  | .receive =>
    match d.handling, d.executor.queue.head? with
    | none, some m =>
      (d.executor.step lifecycle capacity .take).map fun e => { d with executor := e, handling := some m }
    | _, _ => none
  | .persist =>
    match d.handling with
    | some m =>
      match playAlone (fun _ => none) (handleExecutorEvent m.2) d.world oracles with
      | some (some (), w) => some { d with handling := none, handled := d.handled ++ [m], world := w }
      | some (none, w) =>
        (d.executor.step lifecycle capacity .close).map fun e => { d with executor := e, handling := none, world := w }
      | none => none
    | none => none
  | .other => none

def DispatchChoice.oracles : DispatchChoice → List Oracle
  | .persist oracles => oracles
  | _ => []

theorem DispatchChoice.step_of_play {choice : DispatchChoice}
    (played : d.play capacity choice.oracles (choice.toAct registry d) = some d') :
    d.Step registry capacity (choice.toAct registry d) d' := by
  have task {act : ReportAct ExecuteScriptRequest Execution} (isTask : act.isTask = true)
      (executes : ∀ i out, act = .finish i out → ∀ request stage, d.executor.tasks[i]? = some (request, stage) →
        Executes registry request out.outcome)
      (played : d.play capacity choice.oracles (.task act) = some d') : d.Step registry capacity (.task act) d' := by
    obtain ⟨e, steps, rfl⟩ := Option.map_eq_some_iff.mp played
    exact .task isTask steps executes
  cases choice with
  | spawn job run =>
    simp only [toAct, Dispatch.play] at played
    obtain ⟨e, steps, rfl⟩ := Option.map_eq_some_iff.mp played
    exact .spawn steps
  | acquire i | announce i | unwind i | report i => exact task rfl nofun played
  | finish i durationMs handler captured =>
    refine task rfl ?_ played
    rintro j out isFinish request stage found
    cases isFinish
    refine ⟨.ok (), handler, captured, ?_⟩
    simp only [playedExecution, found, Option.map_some, Option.getD_some]
  | receive =>
    simp only [toAct, Dispatch.play] at played
    split at played
    · rename_i idle first
      obtain ⟨e, steps, rfl⟩ := Option.map_eq_some_iff.mp played
      exact .receive idle first steps
    · cases played
  | persist oracles =>
    simp only [toAct, Dispatch.play] at played
    split at played
    · rename_i m busy
      split at played
      · rename_i w ends
        cases played
        exact .persist busy (Ends.of_play le_refl ends)
      · rename_i w ends
        obtain ⟨e, steps, rfl⟩ := Option.map_eq_some_iff.mp played
        exact .panic busy (Ends.of_play le_refl ends) steps
      · cases played
    · cases played

/-- Play a list of choices whose actions meet `P`. -/
def playDispatch (P : Dispatch → DispatchAct → Prop) [∀ d act, Decidable (P d act)] (registry : List String) (capacity : Nat) :
    List DispatchChoice → List DispatchAct × Dispatch → Option (List DispatchAct × Dispatch)
  | [], played => some played
  | choice :: rest, (acts, d) =>
    let act := choice.toAct registry d
    if P d act then
      match d.play capacity choice.oracles act with
      | some d' => playDispatch P registry capacity rest (act :: acts, d')
      | none => none
    else none

theorem Dispatches.of_play {d₀ : Dispatch} [∀ d act, Decidable (P d act)] {choices : List DispatchChoice}
    (before : Dispatches P registry capacity d₀ acts d)
    (played : playDispatch P registry capacity choices (acts, d) = some (acts', d')) :
    Dispatches P registry capacity d₀ acts' d' := by
  induction choices generalizing acts d with
  | nil =>
    cases played
    exact before
  | cons choice rest ih =>
    simp only [playDispatch] at played
    split at played
    · rename_i allowed
      split at played
      · rename_i next isNext
        exact ih (before.step (choice.step_of_play isNext) allowed) played
      · cases played
    · cases played

instance (d : Dispatch) (act : DispatchAct) : Decidable (HandedOnce d act) :=
  match act with
  | .spawn _ run => decidable_of_iff
      ((d.world.run run.runId).any (fun row => row.status = .queued ∨ row.status = .claimed) = true ∧
        ∀ t ∈ d.executor.tasks, t.1.runId ≠ run.runId)
      (by simp [HandedOnce, Option.any_eq_true])
  | .task _ | .receive | .persist | .other => .isTrue trivial

/-- What can be played, and passes a test. -/
theorem exists_dispatches (P : Dispatch → DispatchAct → Prop) [∀ d act, Decidable (P d act)] (registry : List String)
    (capacity : Nat) (d₀ : Dispatch) (choices : List DispatchChoice) (test : List DispatchAct → Dispatch → Bool)
    (played : (playDispatch P registry capacity choices ([], d₀)).any (fun last => test last.1 last.2) = true) :
    ∃ acts d, Dispatches P registry capacity d₀ acts d ∧ test acts d = true := by
  obtain ⟨⟨acts, d⟩, plays, passes⟩ := (Option.any_eq_true _ _).mp played
  exact ⟨acts, d, .of_play .refl plays, passes⟩

/-- A queued run of the minutely job. -/
def handedRun (runId : String) : Run := Run.forJob runId "j" "noop" 0

def twoQueued : World := .fresh (((State.single minutelyJob 0).withRun (handedRun "a")).withRun (handedRun "b"))

/-- The job under a script that nobody has registered. -/
def goneJob : Job := { minutelyJob with scriptName := "gone" }

/-- One slot and room for one event: the second run waits for the first to report. -/
def oneAfterTheOther : List DispatchChoice :=
  [.spawn minutelyJob (handedRun "a"), .spawn goneJob (handedRun "b"), .acquire 0, .announce 0, .receive,
    .finish 0 5 (.ok ()) .default, .report 0, .persist [], .acquire 1, .receive, .persist [], .announce 1, .receive,
    .finish 1 7 (.ok ()) .default, .persist [], .report 1, .receive, .persist []]

/-- The first run has reported while the handler is still at work on its start. -/
theorem slots_never_exceeded_reporting :
    ∃ acts d, Dispatches HandedOnce ["noop"] 1 (.start 0 twoQueued) acts d ∧ d.executor.queue.length = 1 ∧
      d.inSlots + d.executor.free = 1 ∧ d.executor.queue.length ≤ 1 := by
  obtain ⟨acts, d, dispatches, full⟩ := exists_dispatches HandedOnce ["noop"] 1 (.start 0 twoQueued)
    (oneAfterTheOther.take 7) (fun _ d => d.executor.queue.length == 1) (by decide +kernel)
  exact ⟨acts, d, dispatches, beq_iff_eq.mp full, slots_never_exceeded dispatches⟩

theorem events_delivered_in_order_reporting :
    ∃ acts d request stage, Dispatches HandedOnce ["noop"] 1 (.start 0 twoQueued) acts d ∧ d.handling.isSome = true ∧
      d.executor.tasks[0]? = some (request, stage) ∧
      Reporters.ofTask 0 d.handled ++ Reporters.ofTask 0 d.handling.toList ++ Reporters.ofTask 0 d.executor.queue =
        stage.sent lifecycle request := by
  obtain ⟨acts, d, dispatches, test⟩ := exists_dispatches HandedOnce ["noop"] 1 (.start 0 twoQueued)
    (oneAfterTheOther.take 7)
    (fun _ d => d.handling.isSome && (d.executor.closed == false) && (d.executor.tasks[0]?).isSome) (by decide +kernel)
  simp only [Bool.and_eq_true, beq_iff_eq, Option.isSome_iff_exists (x := d.executor.tasks[0]?)] at test
  obtain ⟨⟨busy, alive⟩, ⟨request, stage⟩, found⟩ := test
  exact ⟨acts, d, request, stage, dispatches, busy, found, events_delivered_in_order dispatches alive 0 request stage found⟩

/-- The channel of a deployment has room. -/
theorem eventChannelCapacityFromEnv_pos (value : Option Nat) : 0 < eventChannelCapacityFromEnv value :=
  natFromEnv_pos value (by decide)

/-- With the slots and the capacity of an environment that asks for one of each. -/
theorem dispatch_completes_both :
    ∃ acts d, Dispatches HandedOnce ["noop"] (eventChannelCapacityFromEnv (some 1))
        (.start (executorConcurrencyFromEnv (some 1)) twoQueued) acts d ∧ acts.countP (·.isSpawn) = 2 ∧
      acts.countP (·.isOwn) ≤ 12 * acts.countP (·.isSpawn) + 2 ∧
        (d.Quiet ∨ ∃ act d', act.isOwn = true ∧ d.Step ["noop"] (eventChannelCapacityFromEnv (some 1)) act d') := by
  obtain ⟨acts, d, dispatches, two⟩ := exists_dispatches HandedOnce ["noop"] (eventChannelCapacityFromEnv (some 1))
    (.start (executorConcurrencyFromEnv (some 1)) twoQueued) oneAfterTheOther
    (fun acts _ => acts.countP (·.isSpawn) == 2) (by decide +kernel)
  exact ⟨acts, d, dispatches, beq_iff_eq.mp two, dispatch_completes dispatches (eventChannelCapacityFromEnv_pos _)⟩

/-- The script fails with a text on which sanitizing panics; the second run is handed out afterwards. -/
theorem nothing_after_panic_sanitizing :
    ∃ acts d acts' d', Dispatches (fun _ _ => True) ["noop"] 1 (.start 0 twoQueued) acts d ∧
      Dispatches (fun _ _ => True) ["noop"] 1 d acts' d' ∧ acts'.length = 3 ∧
      (d'.world.run "a").any (·.status = .running) = true ∧ ∀ id, d'.world.run id = d.world.run id := by
  obtain ⟨acts, d, dispatches, test⟩ := exists_dispatches (fun _ _ => True) ["noop"] 1 (.start 0 twoQueued)
    [.spawn minutelyJob (handedRun "a"), .acquire 0, .announce 0, .receive, .persist [],
      .finish 0 1 (.error (.internal "é://")) .default, .report 0, .receive, .persist []]
    (fun _ d => d.executor.closed &&
      (playDispatch (fun _ _ => True) ["noop"] 1 [.spawn minutelyJob (handedRun "b"), .acquire 1, .announce 1] ([], d)).any
        fun last => last.1.length == 3 && (last.2.world.run "a").any (·.status = .running)) (by decide +kernel)
  rw [Bool.and_eq_true] at test
  obtain ⟨dead, goesOn⟩ := test
  obtain ⟨acts', d', later, test'⟩ := exists_dispatches (fun _ _ => True) ["noop"] 1 d
    [.spawn minutelyJob (handedRun "b"), .acquire 1, .announce 1]
    (fun acts d => acts.length == 3 && (d.world.run "a").any (·.status = .running)) goesOn
  rw [Bool.and_eq_true, beq_iff_eq] at test'
  exact ⟨acts, d, acts', d', dispatches, later, test'.1, test'.2, (nothing_after_panic dispatches dead later).1⟩

end Chronon
