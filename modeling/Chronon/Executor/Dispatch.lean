import Chronon.Executor.Spawn
import Chronon.Runs.Events

/-!
# What an executor and its event handler do together

The messages of a task are the events of its run, so the channel brings them to
the handler in their order (`Reporters.Sound`), and what the handler makes of each
of them is known (`event_effect`): the stored status of a run that was handed out
once follows the events that have been persisted for it.
-/

namespace Chronon
set_option autoImplicit false

open Concurrent

/-! ## What the handler makes of an event that is in order -/

section Handled

variable {w w₁ w' : World} {out : Option Unit} {id : String} {old : Run}

/-- Every handler first reads the run its event names. -/
theorem getRun_ends {f : Run → Task Unit} (stored : w.run id = some old)
    (ends : Ends .calm (do
      match ← call (.getRun id) with
      | .ok (some run) => f run
      | _ => return ()) w out w') : ∃ w₁, w₁.store = w.store ∧ Ends .calm (f old) w₁ out w' := by
  obtain ⟨r, w₁, reads, rest⟩ := ends
  obtain ⟨rfl, same⟩ := reads.getRun rfl
  rw [stored] at rest
  exact ⟨w₁, same, rest⟩

/-- The last call of a handler: the run it has read is replaced. -/
theorem updateRun_ends {new : Run} (stored : w.run id = some old) (same : w₁.store = w.store)
    (ends : Ends .calm (do let _ ← call (.updateRun new)) w₁ out w') (isRun : new.runId = old.runId) :
    out = some () ∧ w'.run id = some new := by
  have key : new.runId = id := isRun.trans (Collections.Table.key_of_lookup stored)
  obtain ⟨r, w₂, calls, rfl, rfl⟩ := ends
  obtain ⟨-, after⟩ := calls.updateRun rfl (by rw [World.run_congr same, key, stored])
  exact ⟨rfl, by rw [World.run_setRun after, if_pos key]⟩

theorem runStarted_ends (stored : w.run id = some old) (startable : old.status = .queued ∨ old.status = .claimed)
    (ends : Ends .calm (handleExecutorEvent (.runStarted id)) w out w') :
    out = some () ∧ ∃ new, w'.run id = some new ∧ new.status = .running := by
  obtain ⟨w₁, same, rest⟩ := getRun_ends stored ends
  rw [if_pos startable] at rest
  obtain ⟨now, w₂, clock, rest⟩ := rest
  obtain ⟨returns, after⟩ := updateRun_ends stored (clock.utcNow.2.trans same) rest rfl
  exact ⟨returns, _, after, rfl⟩

theorem runCompleted_ends {durationMs : Int} {logs : CapturedLogs} (stored : w.run id = some old)
    (running : old.status = .running) (ends : Ends .calm (handleExecutorEvent (.runCompleted id durationMs logs)) w out w') :
    out = some () ∧ ∃ new, w'.run id = some new ∧ new.status = .success := by
  obtain ⟨w₁, same, rest⟩ := getRun_ends stored ends
  rw [if_pos running] at rest
  obtain ⟨now, w₂, clock, rest⟩ := rest
  obtain ⟨returns, after⟩ := updateRun_ends stored (clock.utcNow.2.trans same) rest rfl
  exact ⟨returns, _, after, rfl⟩

/-- Where the handler survives the report of a failure, the run is stored as failed. -/
def FailureHandled (id : String) (out : Option Unit) (w' : World) : Prop :=
  out = none ∨ (out = some () ∧ ∃ new, w'.run id = some new ∧ new.status = .failed)

theorem failWithoutJob_ends {error : String} {logs : CapturedLogs} (stored : w.run id = some old)
    (same : w₁.store = w.store) (ends : Ends .calm (failWithoutJob old error logs) w₁ out w') :
    FailureHandled id out w' := by
  unfold failWithoutJob at ends
  split at ends
  · obtain ⟨rfl, rfl⟩ := ends
    exact .inl rfl
  · obtain ⟨now, w₂, clock, rest⟩ := ends
    obtain ⟨returns, after⟩ := updateRun_ends stored (clock.utcNow.2.trans same) rest rfl
    exact .inr ⟨returns, _, after, rfl⟩

/-- A retry is a run of its own. -/
theorem retryFailed_ends {job : Job} {new : Run} (failed : w.run id = some new) (status : new.status = .failed)
    (ends : Ends .calm (retryFailed new job) w out w') : FailureHandled id out w' := by
  rcases retryFailed_cases ends with ⟨-, returns, rfl⟩ | ⟨-, now, -, -, panics⟩ |
    ⟨-, now, w₁, scheduledFor, runId, w₂, r, reads, -, draws, creates, returns⟩
  · exact .inr ⟨returns, new, failed, status⟩
  · exact .inl panics
  · obtain ⟨-, after⟩ := creates.createRun rfl
    have same : w₂.store = w.store := draws.newUuid.2.2.trans reads.utcNow.2
    have fresh : w.run runId = none := by rw [← World.run_congr reads.utcNow.2]; exact draws.newUuid.1
    refine .inr ⟨returns, new, ?_, status⟩
    rw [World.run_setRun after, World.run_congr same, if_neg, failed]
    intro named
    change runId = id at named
    rw [named, failed] at fresh
    cases fresh

theorem finalizeFailedRun_ends {job : Job} {error : String} {logs : CapturedLogs} (stored : w.run id = some old)
    (same : w₁.store = w.store) (ends : Ends .calm (finalizeFailedRun old job .failed error (some logs)) w₁ out w') :
    FailureHandled id out w' := by
  have key : old.runId = id := Collections.Table.key_of_lookup stored
  unfold finalizeFailedRun at ends
  split at ends
  · obtain ⟨rfl, rfl⟩ := ends
    exact .inl rfl
  · rename_i message _
    obtain ⟨now, w₂, clock, r, w₃, updates, rest⟩ := ends
    generalize isNew : failedRun old .failed message (some logs) now = new at updates rest
    have ids : new.runId = id := by rw [← key, ← isNew]; rfl
    have status : new.status = .failed := by rw [← isNew]; rfl
    obtain ⟨rfl, after⟩ := updates.updateRun rfl (by rw [World.run_congr (clock.utcNow.2.trans same), ids, stored])
    have failed : w₃.run id = some new := by rw [World.run_setRun after, if_pos ids]
    exact retryFailed_ends failed status rest

theorem runFailed_ends {error : String} {logs : CapturedLogs} (stored : w.run id = some old) (running : old.status = .running)
    (ends : Ends .calm (handleExecutorEvent (.runFailed id error logs)) w out w') : FailureHandled id out w' := by
  obtain ⟨w₁, same, rest⟩ := getRun_ends stored ends
  rw [if_pos running] at rest
  unfold failRunning at rest
  split at rest
  · rename_i jobId isJob
    obtain ⟨found, w₂, reads, rest⟩ := rest
    obtain ⟨rfl, same₂⟩ := reads.getJob rfl
    cases hasJob : w₁.job jobId with
    | none =>
      rw [hasJob] at rest
      exact failWithoutJob_ends stored (same₂.trans same) rest
    | some job =>
      rw [hasJob] at rest
      exact finalizeFailedRun_ends stored (same₂.trans same) rest
  · exact failWithoutJob_ends stored same rest

/-- The other stored runs keep their rows. -/
theorem handled_elsewhere {e : ExecutorEvent} {row : Run} (ends : Ends .calm (handleExecutorEvent e) w out w')
    (stored : w.run id = some row) (other : e.runId ≠ id) : w'.run id = some row := by
  cases event_effect ends with
  | ignored same => rw [same, stored]
  | moved _ _ _ _ rows => rw [rows, if_neg other, stored]
  | retried _ _ retry _ _ _ fresh _ rows =>
    rw [rows, if_neg, if_neg other, stored]
    intro named
    rw [named, stored] at fresh
    cases fresh

end Handled

/-! ## Every step -/

/-- The executor keeps its books, and the handler takes its events from the channel one by one. -/
structure Dispatch.Sound (slots capacity : Nat) (d : Dispatch) : Prop where
  executor : d.executor.Sound lifecycle slots capacity
  taken : d.executor.closed = false → d.executor.taken = d.handled ++ d.handling.toList
  closed : d.executor.closed = true → d.handling = none
  handled : d.handled <+: d.executor.taken

variable {P : Dispatch → DispatchAct → Prop} {registry : List String} {capacity maxInFlight : Nat} {w : World}
  {acts : List DispatchAct} {d d' : Dispatch} {act : DispatchAct}

/-- An action of a task takes nothing from the channel and leaves it open. -/
theorem Executor.task_step {act : ReportAct ExecuteScriptRequest Execution} {e e' : Executor}
    (steps : e.step lifecycle capacity act = some e') (notTake : act ≠ .take) (notClose : act ≠ .close) :
    e'.taken = e.taken ∧ e'.closed = e.closed := by
  rcases Reporters.step_cases steps with
    ⟨tag, -, rfl⟩ | ⟨i, tag, old, new, messages, moved⟩ | ⟨isTake, -⟩ | ⟨isClose, -⟩
  · exact ⟨rfl, rfl⟩
  · exact ⟨moved.taken, moved.closed⟩
  · exact absurd isTake notTake
  · exact absurd isClose notClose

/-- The handler takes the first event of the channel, which is open. -/
theorem Executor.take_step {e e' : Executor} {slots : Nat} {m : Nat × ExecutorEvent} (sound : e.Sound lifecycle slots capacity)
    (first : e.queue.head? = some m) (steps : e.step lifecycle capacity .take = some e') :
    e.closed = false ∧ e'.closed = e.closed ∧ e'.tasks = e.tasks ∧ e'.taken = e.taken ++ [m] := by
  obtain ⟨rest, isQueue⟩ := List.head?_eq_some_iff.mp first
  rw [Reporters.step, isQueue] at steps
  cases steps
  refine ⟨?_, rfl, rfl, rfl⟩
  rw [← Bool.not_eq_true]
  intro isClosed
  rw [sound.closed isClosed] at isQueue
  cases isQueue

/-- The handler goes away. -/
theorem Executor.close_step {e e' : Executor} (steps : e.step lifecycle capacity .close = some e') :
    e.closed = false ∧ e'.tasks = e.tasks ∧ e'.taken = e.taken ∧ e'.closed = true := by
  simp only [Reporters.step] at steps
  split at steps
  · cases steps
  · rename_i isOpen
    cases steps
    exact ⟨by simpa using isOpen, rfl, rfl, rfl⟩

/-- While the handler is at work, the channel is open. -/
theorem Dispatch.Sound.alive {slots : Nat} {m : Nat × ExecutorEvent} (sound : d.Sound slots capacity)
    (busy : d.handling = some m) : d.executor.closed = false := by
  rw [← Bool.not_eq_true]
  intro isClosed
  rw [sound.closed isClosed] at busy
  cases busy

theorem Dispatch.Sound.step {slots : Nat} (sound : d.Sound slots capacity) (steps : d.Step registry capacity act d') :
    d'.Sound slots capacity := by
  have executor := sound.executor
  cases steps with
  | spawn steps =>
    obtain ⟨taken, closed⟩ := Executor.task_step steps nofun nofun
    exact ⟨executor.step steps, by simpa only [taken, closed] using sound.taken, by simpa only [closed] using sound.closed,
      by simpa only [taken] using sound.handled⟩
  | task isTask steps _ =>
    obtain ⟨taken, closed⟩ := Executor.task_step steps (by rintro rfl; cases isTask) (by rintro rfl; cases isTask)
    exact ⟨executor.step steps, by simpa only [taken, closed] using sound.taken, by simpa only [closed] using sound.closed,
      by simpa only [taken] using sound.handled⟩
  | @receive e m idle first steps =>
    obtain ⟨isOpen, closed, -, taken⟩ := Executor.take_step executor first steps
    have before := sound.taken isOpen
    rw [idle, Option.toList_none, List.append_nil] at before
    refine ⟨executor.step steps, fun _ => ?_, fun isClosed => ?_, ?_⟩
    · rw [taken, before]
      rfl
    · rw [closed, isOpen] at isClosed
      cases isClosed
    · rw [taken]
      exact sound.handled.trans (List.prefix_append _ _)
  | @persist m w busy ends =>
    have taken := sound.taken (sound.alive busy)
    rw [busy] at taken
    refine ⟨executor, fun _ => ?_, fun _ => rfl, ?_⟩
    · rw [taken, Option.toList_none, List.append_nil]
      rfl
    · rw [taken]
      rfl
  | panic busy ends steps =>
    obtain ⟨-, -, taken, closed⟩ := Executor.close_step steps
    refine ⟨executor.step steps, fun isOpen => ?_, fun _ => rfl, by simpa only [taken] using sound.handled⟩
    rw [closed] at isOpen
    cases isOpen
  | other same => exact ⟨executor, sound.taken, sound.closed, sound.handled⟩

theorem Dispatches.sound (dispatches : Dispatches P registry capacity (.start maxInFlight w) acts d) :
    d.Sound (max maxInFlight 1) capacity := by
  induction dispatches with
  | refl => exact ⟨Reporters.sound_idle _ _ _, fun _ => rfl, nofun, List.prefix_refl _⟩
  | step _ steps _ ih => exact ih.step steps

/-! ## The stored runs follow the events -/

/-- The statuses a run can have when these events of its task have been persisted. -/
def statusAfter (status : RunStatus) : List ExecutorEvent → Prop
  | [] => status = .queued ∨ status = .claimed
  | [_] => status = .running
  | _ :: .runCompleted _ _ _ :: _ => status = .success
  | _ => status = .failed

/-- A run is handed out once, while it is stored as queued or claimed. -/
def HandedOnce (d : Dispatch) : DispatchAct → Prop
  | .spawn _ run => (∃ row, d.world.run run.runId = some row ∧ (row.status = .queued ∨ row.status = .claimed)) ∧
      ∀ t ∈ d.executor.tasks, t.1.runId ≠ run.runId
  | _ => True

/-- Each task has a run of its own, whose row follows the events as long as the handler is there. -/
structure Dispatch.Rows (d : Dispatch) : Prop where
  apart : (d.executor.tasks.map (ExecuteScriptRequest.runId ∘ Prod.fst)).Nodup
  follows : d.executor.closed = false → ∀ (i : Nat) (request : ExecuteScriptRequest) (stage : Stage Execution),
    d.executor.tasks[i]? = some (request, stage) →
    ∃ row, d.world.run request.runId = some row ∧ statusAfter row.status (Reporters.ofTask i d.handled)

/-- A task sends that its run has started, and then how it has ended. -/
theorem next_event {request : ExecuteScriptRequest} {stage : Stage Execution} {before : List ExecutorEvent}
    {e : ExecutorEvent} (next : before ++ [e] <+: stage.sent lifecycle request) :
    (before = [] ∧ e = .runStarted request.runId) ∨
      ∃ execution : Execution, before = [.runStarted request.runId] ∧
        e = spawnRunEvent request.runId execution.durationMs execution.outcome := by
  have long : (before ++ [e]).length ≤ (stage.sent lifecycle request).length := next.length_le
  rw [List.length_append, List.length_singleton] at long
  cases stage with
  | working | reporting _ | unwound =>
    obtain rfl := List.length_eq_zero_iff.mp (Nat.le_zero.mp (Nat.le_of_succ_le_succ long))
    exact .inl ⟨rfl, (List.cons_prefix_cons.mp next).1⟩
  | ended execution =>
    cases before with
    | nil => exact .inl ⟨rfl, (List.cons_prefix_cons.mp next).1⟩
    | cons first rest =>
      obtain ⟨isFirst, next⟩ := List.cons_prefix_cons.mp next
      simp only [List.length_cons, Stage.sent, List.length_nil] at long
      obtain rfl := List.length_eq_zero_iff.mp (show rest.length = 0 by omega)
      exact .inr ⟨execution, by rw [isFirst]; rfl, (List.cons_prefix_cons.mp next).1⟩
  | _ => cases Nat.not_succ_le_zero _ long

/-- What the handler makes of the next event of a task. -/
theorem event_persisted {w' : World} {request : ExecuteScriptRequest} {stage : Stage Execution} {row : Run}
    {before : List ExecutorEvent} {e : ExecutorEvent} {out : Option Unit}
    (stored : w.run request.runId = some row) (status : statusAfter row.status before)
    (next : before ++ [e] <+: stage.sent lifecycle request) (ends : Ends .calm (handleExecutorEvent e) w out w') :
    e.runId = request.runId ∧ (out = none ∨
      (out = some () ∧ ∃ new, w'.run request.runId = some new ∧ statusAfter new.status (before ++ [e]))) := by
  rcases next_event next with ⟨rfl, rfl⟩ | ⟨execution, rfl, rfl⟩
  · obtain ⟨returns, new, after, running⟩ := runStarted_ends stored status ends
    exact ⟨rfl, .inr ⟨returns, new, after, running⟩⟩
  · unfold spawnRunEvent at ends ⊢
    cases isResult : execution.outcome.result with
    | ok value =>
      rw [isResult] at ends
      obtain ⟨returns, new, after, success⟩ := runCompleted_ends stored status ends
      exact ⟨rfl, .inr ⟨returns, new, after, success⟩⟩
    | error error =>
      rw [isResult] at ends
      rcases runFailed_ends stored status ends with panics | ⟨returns, new, after, failed⟩
      · exact ⟨rfl, .inl panics⟩
      · exact ⟨rfl, .inr ⟨returns, new, after, failed⟩⟩

section Rows

/-- Different tasks are at work on different runs. -/
theorem Dispatch.Rows.other {i j : Nat} {request request' : ExecuteScriptRequest} {stage stage' : Stage Execution}
    (rows : d.Rows) (found : d.executor.tasks[i]? = some (request, stage))
    (found' : d.executor.tasks[j]? = some (request', stage')) (other : i ≠ j) : request.runId ≠ request'.runId := by
  obtain ⟨inside, isTask⟩ := List.getElem?_eq_some_iff.mp found
  obtain ⟨inside', isTask'⟩ := List.getElem?_eq_some_iff.mp found'
  have bound : i < (d.executor.tasks.map (ExecuteScriptRequest.runId ∘ Prod.fst)).length := by rwa [List.length_map]
  have bound' : j < (d.executor.tasks.map (ExecuteScriptRequest.runId ∘ Prod.fst)).length := by rwa [List.length_map]
  intro same
  have sameEntry : (d.executor.tasks.map (ExecuteScriptRequest.runId ∘ Prod.fst))[i] =
      (d.executor.tasks.map (ExecuteScriptRequest.runId ∘ Prod.fst))[j] := by
    rw [List.getElem_map, List.getElem_map, isTask, isTask']
    exact same
  exact other (rows.apart.getElem_inj_iff.mp sameEntry)

/-- The handler at work on an event of task `i`: the row of that task follows, the others stay. -/
theorem Dispatch.Rows.of_handled {slots i : Nat} {e : ExecutorEvent} {out : Option Unit} {w' : World}
    (rows : d.Rows) (sound : d.Sound slots capacity) (alive : d.executor.closed = false)
    (busy : d.handling = some (i, e)) (ends : Ends .calm (handleExecutorEvent e) d.world out w') :
    out = none ∨
      (out = some () ∧ ∀ (j : Nat) (request : ExecuteScriptRequest) (stage : Stage Execution),
        d.executor.tasks[j]? = some (request, stage) → ∃ row, w'.run request.runId = some row ∧
          statusAfter row.status (Reporters.ofTask j (d.handled ++ [(i, e)]))) := by
  have taken := sound.taken alive
  rw [busy] at taken
  have isTask : i < d.executor.tasks.length :=
    sound.executor.senders (i, e) (List.mem_append_left _ (by rw [taken]; simp))
  obtain ⟨⟨request, stage⟩, found⟩ : ∃ t, d.executor.tasks[i]? = some t := ⟨_, List.getElem?_eq_getElem isTask⟩
  obtain ⟨row, stored, status⟩ := rows.follows alive i request stage found
  have own : Reporters.ofTask i (d.handled ++ [(i, e)]) = Reporters.ofTask i d.handled ++ [e] := by
    rw [Reporters.ofTask_append]
    exact congrArg _ (Reporters.ofTask_own i [e])
  have next := sound.executor.ordered i request stage found
  rw [taken, Option.toList_some, own] at next
  obtain ⟨isRun, panics | ⟨returns, new, after, status'⟩⟩ := event_persisted stored status next ends
  · exact .inl panics
  · refine .inr ⟨returns, fun j request' stage' found' => ?_⟩
    by_cases same : i = j
    · subst same
      rw [found] at found'
      cases found'
      rw [own]
      exact ⟨new, after, status'⟩
    · obtain ⟨row', stored', follows⟩ := rows.follows alive j request' stage' found'
      refine ⟨row', handled_elsewhere ends stored' ?_, ?_⟩
      · rw [isRun]
        exact rows.other found found' same
      · rw [Reporters.ofTask_append, show [(i, e)] = [e].map (i, ·) from rfl, Reporters.ofTask_other same, List.append_nil]
        exact follows

theorem Dispatch.Rows.spawn {slots : Nat} {request : ExecuteScriptRequest} {row : Run} (rows : d.Rows)
    (sound : d.Sound slots capacity) (stored : d.world.run request.runId = some row)
    (startable : row.status = .queued ∨ row.status = .claimed) (new : ∀ t ∈ d.executor.tasks, t.1.runId ≠ request.runId) :
    Dispatch.Rows { d with executor.tasks := d.executor.tasks ++ [(request, .waiting)] } := by
  refine ⟨?_, fun alive i request' stage found => ?_⟩
  · rw [List.map_append, List.nodup_append]
    refine ⟨rows.apart, List.nodup_singleton _, fun id inside id' isNew => ?_⟩
    obtain ⟨t, isTask, rfl⟩ := List.mem_map.mp inside
    rw [List.map_singleton, List.mem_singleton] at isNew
    rw [isNew]
    exact new t isTask
  · rcases Reporters.spawned_cases found with before | ⟨rfl, rfl, rfl⟩
    · exact rows.follows alive i request' stage before
    · refine ⟨row, stored, ?_⟩
      rw [Reporters.ofTask_eq_nil fun m isHandled => ?_]
      · exact startable
      · exact Nat.ne_of_lt (sound.executor.senders m (List.mem_append_left _ (sound.handled.subset isHandled)))

/-- A task that moves keeps its request. -/
theorem Dispatch.Rows.moved {e : Executor} {i : Nat} {request : ExecuteScriptRequest} {old new : Stage Execution}
    {act : ReportAct ExecuteScriptRequest Execution} {messages : List ExecutorEvent} (rows : d.Rows)
    (moved : Reporters.Moved lifecycle capacity d.executor e act i request old new messages) :
    Dispatch.Rows { d with executor := e } := by
  refine ⟨?_, fun alive j request' stage found => ?_⟩
  · rw [← List.map_map, moved.tags, List.map_map]
    exact rows.apart
  · rw [moved.get] at found
    have wasAlive : d.executor.closed = false := moved.closed.symm.trans alive
    split at found
    · rename_i same
      cases found
      subst same
      exact rows.follows wasAlive i request old moved.found
    · exact rows.follows wasAlive j request' stage found

theorem Dispatch.Rows.step {slots : Nat} (rows : d.Rows) (sound : d.Sound slots capacity) (once : HandedOnce d act)
    (steps : d.Step registry capacity act d') : d'.Rows := by
  cases steps with
  | spawn steps =>
    cases steps
    obtain ⟨⟨row, stored, startable⟩, new⟩ := once
    exact rows.spawn sound stored startable new
  | task isTask steps _ =>
    rcases Reporters.step_cases steps with
      ⟨tag, rfl, -⟩ | ⟨i, request, old, new, messages, moved⟩ | ⟨rfl, -⟩ | ⟨rfl, -⟩
    · cases isTask
    · exact rows.moved moved
    · cases isTask
    · cases isTask
  | receive idle first steps =>
    obtain ⟨-, closed, tasks, -⟩ := Executor.take_step sound.executor first steps
    exact ⟨by simpa only [tasks] using rows.apart, by simpa only [tasks, closed] using rows.follows⟩
  | persist busy ends =>
    rcases rows.of_handled sound (sound.alive busy) busy ends with panics | ⟨-, follows⟩
    · cases panics
    · exact ⟨rows.apart, fun _ => follows⟩
  | panic busy ends steps =>
    obtain ⟨-, tasks, -, dead⟩ := Executor.close_step steps
    refine ⟨by simpa only [tasks] using rows.apart, fun alive => ?_⟩
    rw [dead] at alive
    cases alive
  | other same =>
    refine ⟨rows.apart, fun alive i request stage found => ?_⟩
    obtain ⟨row, stored, follows⟩ := rows.follows alive i request stage found
    refine ⟨row, ?_, follows⟩
    rw [World.run, same]
    exact stored

end Rows

theorem Dispatches.rows (dispatches : Dispatches HandedOnce registry capacity (.start maxInFlight w) acts d) : d.Rows := by
  induction dispatches with
  | refl => exact ⟨List.nodup_nil, fun _ => nofun⟩
  | step before steps once ih => exact ih.step before.sound once steps

end Chronon
