import Chronon.System.Alone

/-!
# Executor events drive the run state machine

Events arrive from outside: any event may name any run, any number of times and
in any order. Each is handled to its end before the next one. `event_effect` says
once what an event can do to the runs; everything about sequences of events is
derived from it.
-/

namespace Chronon
set_option autoImplicit false

/-- The run an event names. -/
def ExecutorEvent.runId : ExecutorEvent → String
  | .runStarted runId | .runCompleted runId _ _ | .runFailed runId _ _ => runId

/-- The events that report a failure. -/
def ExecutorEvent.isFailure : ExecutorEvent → Bool
  | .runFailed _ _ _ => true
  | _ => false

/-- How an event may move a run. -/
inductive RunStatus.Moves : RunStatus → RunStatus → Prop
  | startQueued : Moves .queued .running
  | startClaimed : Moves .claimed .running
  | succeed : Moves .running .success
  | fail : Moves .running .failed

theorem RunStatus.Moves.active {old new : RunStatus} (moves : old.Moves new) : old.isTerminal = false := by
  cases moves <;> rfl

/-- A handled event, with the worlds before and after it. -/
structure HandledEvent where
  event : ExecutorEvent
  before : World
  after : World

namespace HandledEvent

/-- The run the event names, as it was stored before. -/
def target (h : HandledEvent) : Option Run := h.before.run h.event.runId

/-- The runs that have appeared. -/
def created (h : HandledEvent) : List Run := h.after.store.runs.rows.filter fun run => (h.before.run run.runId).isNone

/-- The event reports that the running run `old` has failed, and the policy of its job allows a retry. -/
structure Retries (h : HandledEvent) (old : Run) (job : Job) : Prop where
  reports : h.event.isFailure = true
  target : h.target = some old
  running : old.status = .running
  stored : ∃ jobId, old.jobId = some jobId ∧ h.before.job jobId = some job
  allowed : job.retryPolicy.shouldRetry old.attempt = true

/-- `run` is the retry of the run the event has failed. -/
def IsRetry (h : HandledEvent) (run : Run) : Prop :=
  ∃ old job, h.Retries old job ∧ run.attempt = old.attempt + 1 ∧
    ∃ new, h.after.run h.event.runId = some new ∧ new.status = .failed

/-- An attempt that is going to be retried has a successor in `i32`. -/
def HasSuccessor (h : HandledEvent) : Prop := ∀ old job, h.Retries old job → old.attempt < 2147483647

end HandledEvent

/-- Events handled one after another, latest first. In between, others may change everything but the runs. -/
inductive Handles (w : World) : List HandledEvent → World → Prop
  | start : Handles w [] w
  | event {history : List HandledEvent} {before after : World} {e : ExecutorEvent} {out : Option Unit} :
      Handles w history before → Ends .calm (handleExecutorEvent e) before out after →
      Handles w (⟨e, before, after⟩ :: history) after
  | other {history : List HandledEvent} {before after : World} :
      Handles w history before → after.store.runs = before.store.runs → Handles w history after

/-- The runs created by the events that name run `id`. -/
def retriesCaused (id : String) (history : List HandledEvent) : List Run :=
  (history.filter (·.event.runId == id)).flatMap HandledEvent.created

/-- The state machine of the runs. -/
structure DrivesRuns (w : World) (history : List HandledEvent) (w' : World) : Prop where
  moves : ∀ h ∈ history, ∀ id old, h.before.run id = some old →
    ∃ new, h.after.run id = some new ∧ (new.status = old.status ∨ old.status.Moves new.status)
  settled : ∀ id row, w.run id = some row → row.status.isTerminal = true → w'.run id = some row
  retriedOnce : ∀ id, (retriesCaused id history).length ≤ 1
  onlyRetries : ∀ h ∈ history, ∀ run ∈ h.created, h.IsRetry run

/-! ## What an event does -/

/-- Nothing, a move of the run it names, or a failure with its retry. -/
inductive EventEffect (e : ExecutorEvent) (w w' : World) : Prop
  | ignored : (∀ id, w'.run id = w.run id) → EventEffect e w w'
  | moved (old new : Run) : w.run e.runId = some old → old.status.Moves new.status →
      (∀ id, w'.run id = if e.runId = id then some new else w.run id) → EventEffect e w w'
  | retried (old new retry : Run) (job : Job) : HandledEvent.Retries ⟨e, w, w'⟩ old job → new.status = .failed →
      w.run retry.runId = none → retry.attempt = wrapI32 (old.attempt + 1) →
      (∀ id, w'.run id = if retry.runId = id then some retry else if e.runId = id then some new else w.run id) →
      EventEffect e w w'

section Effects

variable {e : ExecutorEvent} {w w' w₁ : World} {out : Option Unit}

/-- The last call of a handler: the run it has read is replaced. -/
theorem moved_of_update {old new : Run} (stored : w.run e.runId = some old) (same : w₁.store = w.store)
    (ends : Ends .calm (do let _ ← call (.updateRun new)) w₁ out w') (isRun : new.runId = old.runId)
    (moves : old.status.Moves new.status) : EventEffect e w w' := by
  have key : old.runId = e.runId := Collections.Table.key_of_lookup stored
  obtain ⟨r, w₂, calls, -, rfl⟩ := ends
  have found : w₁.run new.runId = some old := by rw [World.run_congr same, isRun, key, stored]
  obtain ⟨-, after⟩ := calls.updateRun rfl found
  refine .moved old new stored moves fun id => ?_
  rw [World.run_setRun after, isRun, key, World.run_congr same]

/-- `RunFailed` without a stored job. -/
theorem failWithoutJob_effect {old : Run} {error : String} {logs : CapturedLogs} (stored : w.run e.runId = some old)
    (running : old.status = .running) (same : w₁.store = w.store)
    (ends : Ends .calm (failWithoutJob old error logs) w₁ out w') : EventEffect e w w' := by
  unfold failWithoutJob at ends
  split at ends
  · obtain ⟨-, rfl⟩ := ends
    exact .ignored fun id => World.run_congr same id
  · obtain ⟨now, w₂, reads, rest⟩ := ends
    refine moved_of_update stored (reads.utcNow.2.trans same) rest rfl ?_
    rw [running]
    exact .fail

/-- `RunFailed` with the stored job. -/
theorem finalizeFailedRun_effect {old : Run} {job : Job} {error : String} {logs : CapturedLogs}
    (stored : w.run e.runId = some old) (running : old.status = .running) (same : w₁.store = w.store)
    (retries : job.retryPolicy.shouldRetry old.attempt = true → HandledEvent.Retries ⟨e, w, w'⟩ old job)
    (ends : Ends .calm (finalizeFailedRun old job .failed error (some logs)) w₁ out w') : EventEffect e w w' := by
  have key : old.runId = e.runId := Collections.Table.key_of_lookup stored
  unfold finalizeFailedRun at ends
  split at ends
  · obtain ⟨-, rfl⟩ := ends
    exact .ignored fun id => World.run_congr same id
  · rename_i message _
    obtain ⟨now, w₂, reads, r, w₃, updates, rest⟩ := ends
    have same₂ : w₂.store = w.store := reads.utcNow.2.trans same
    generalize isNew : failedRun old .failed message (some logs) now = new at updates rest
    have ids : new.runId = old.runId := by rw [← isNew]; rfl
    have status : new.status = .failed := by rw [← isNew]; rfl
    have attempt : new.attempt = old.attempt := by rw [← isNew]; rfl
    have found : w₂.run new.runId = some old := by rw [World.run_congr same₂, ids, key, stored]
    obtain ⟨rfl, after⟩ := updates.updateRun rfl found
    have failed (id : String) : w₃.run id = if e.runId = id then some new else w.run id := by
      rw [World.run_setRun after, ids, key, World.run_congr same₂]
    have moved (same₄ : w'.store = w₃.store) : EventEffect e w w' := by
      refine .moved old new stored ?_ fun id => by rw [World.run_congr same₄, failed]
      rw [running, status]
      exact .fail
    obtain ⟨-, -, rfl⟩ | ⟨-, now', reads', -⟩ |
      ⟨allowed, now', w₄, scheduledFor, runId, w₅, r, reads', -, draws, creates, -⟩ := retryFailed_cases rest
    · exact moved rfl
    · exact moved reads'.utcNow.2
    · rw [attempt] at allowed
      generalize isRetry : retryRun new runId scheduledFor = retry at creates
      have retryId : retry.runId = runId := by rw [← isRetry]; rfl
      have retryAttempt : retry.attempt = wrapI32 (new.attempt + 1) := by rw [← isRetry]; rfl
      obtain ⟨-, after'⟩ := creates.createRun rfl
      have same₅ : w₅.store = w₃.store := draws.newUuid.2.2.trans reads'.utcNow.2
      have fresh : w₃.run runId = none := by rw [← World.run_congr reads'.utcNow.2]; exact draws.newUuid.1
      refine .retried old new retry job (retries allowed) status ?_ ?_ fun id => ?_
      · rw [failed] at fresh
        rw [retryId]
        split at fresh
        · cases fresh
        · exact fresh
      · rw [retryAttempt, attempt]
      · rw [World.run_setRun after', World.run_congr same₅, failed]

/-- `RunFailed` on a running run. -/
theorem failRunning_effect {old : Run} {error : String} {logs : CapturedLogs} (reports : e.isFailure = true)
    (stored : w.run e.runId = some old) (running : old.status = .running) (same : w₁.store = w.store)
    (ends : Ends .calm (failRunning old error logs) w₁ out w') : EventEffect e w w' := by
  unfold failRunning at ends
  split at ends
  · rename_i jobId isJob
    obtain ⟨found, w₂, reads, rest⟩ := ends
    obtain ⟨rfl, same₂⟩ := reads.getJob rfl
    cases hasJob : w₁.job jobId with
    | none =>
      rw [hasJob] at rest
      exact failWithoutJob_effect stored running (same₂.trans same) rest
    | some job =>
      rw [hasJob] at rest
      rw [World.job_congr same] at hasJob
      refine finalizeFailedRun_effect stored running (same₂.trans same) (fun allowed => ?_) rest
      exact ⟨reports, stored, running, ⟨jobId, isJob, hasJob⟩, allowed⟩
  · exact failWithoutJob_effect stored running same ends

/-- Every handler first reads the run its event names. -/
theorem getRun_effect {runId : String} {f : Run → Task Unit} (isRun : e.runId = runId)
    (ends : Ends .calm (do
      match ← call (.getRun runId) with
      | .ok (some run) => f run
      | _ => return ()) w out w')
    (found : ∀ old w₁, w.run e.runId = some old → w₁.store = w.store → Ends .calm (f old) w₁ out w' → EventEffect e w w') :
    EventEffect e w w' := by
  obtain ⟨r, w₁, reads, rest⟩ := ends
  obtain ⟨rfl, same⟩ := reads.getRun rfl
  cases stored : w.run runId with
  | none =>
    rw [stored] at rest
    obtain ⟨-, rfl⟩ := rest
    exact .ignored fun id => World.run_congr same id
  | some old =>
    rw [stored] at rest
    exact found old w₁ (by rw [isRun, stored]) same rest

/-- **What an event does**, whatever it names. -/
theorem event_effect (ends : Ends .calm (handleExecutorEvent e) w out w') : EventEffect e w w' := by
  have ignored {w₁ : World} (same : w₁.store = w.store) (rest : Ends .calm (.ret ()) w₁ out w') : EventEffect e w w' := by
    obtain ⟨-, rfl⟩ := rest
    exact .ignored fun id => World.run_congr same id
  cases e with
  | runStarted runId =>
    refine getRun_effect rfl ends fun old w₁ stored same rest => ?_
    split at rest
    · rename_i startable
      obtain ⟨now, w₂, reads, rest⟩ := rest
      refine moved_of_update stored (reads.utcNow.2.trans same) rest rfl ?_
      rcases startable with queued | claimed
      · rw [queued]
        exact .startQueued
      · rw [claimed]
        exact .startClaimed
    · exact ignored same rest
  | runCompleted runId durationMs logs =>
    refine getRun_effect rfl ends fun old w₁ stored same rest => ?_
    split at rest
    · rename_i running
      obtain ⟨now, w₂, reads, rest⟩ := rest
      refine moved_of_update stored (reads.utcNow.2.trans same) rest rfl ?_
      rw [running]
      exact .succeed
    · exact ignored same rest
  | runFailed runId error logs =>
    refine getRun_effect rfl ends fun old w₁ stored same rest => ?_
    split at rest
    · rename_i running
      exact failRunning_effect rfl stored running same rest
    · exact ignored same rest

end Effects

/-! ## What one event keeps -/

section Kept

variable {h : HandledEvent}

theorem HandledEvent.mem_created {run : Run} :
    run ∈ h.created ↔ h.after.run run.runId = some run ∧ h.before.run run.runId = none := by
  simp only [created, List.mem_filter, Option.isNone_iff_eq_none]
  constructor
  · exact fun ⟨inside, new⟩ => ⟨Collections.Table.lookup_of_mem inside, new⟩
  · exact fun ⟨stored, new⟩ => ⟨Collections.Table.mem_of_lookup stored, new⟩

/-- A stored run keeps its row, or its status moves. -/
theorem EventEffect.row (effect : EventEffect h.event h.before h.after) {id : String} {old : Run}
    (stored : h.before.run id = some old) :
    h.after.run id = some old ∨ ∃ new, h.after.run id = some new ∧ old.status.Moves new.status := by
  cases effect with
  | ignored same => exact .inl ((same id).trans stored)
  | moved before new isTarget moves rows =>
    rw [rows id]
    split
    · rename_i named
      rw [named, stored] at isTarget
      cases isTarget
      exact .inr ⟨new, rfl, moves⟩
    · exact .inl stored
  | retried before new retry job retries failed fresh _ rows =>
    rw [rows id]
    split
    · rename_i named
      rw [named, stored] at fresh
      cases fresh
    · split
      · rename_i named
        have isTarget := retries.target
        rw [HandledEvent.target, named, stored] at isTarget
        cases isTarget
        refine .inr ⟨new, rfl, ?_⟩
        rw [retries.running, failed]
        exact .fail
      · exact .inl stored

/-- A stored run stays stored, and its status stays or moves. -/
theorem EventEffect.moves (effect : EventEffect h.event h.before h.after) (id : String) (old : Run)
    (stored : h.before.run id = some old) :
    ∃ new, h.after.run id = some new ∧ (new.status = old.status ∨ old.status.Moves new.status) := by
  rcases effect.row stored with same | ⟨new, after, moves⟩
  · exact ⟨old, same, .inl rfl⟩
  · exact ⟨new, after, .inr moves⟩

/-- A finished run keeps its row. -/
theorem EventEffect.settled (effect : EventEffect h.event h.before h.after) {id : String} {row : Run}
    (stored : h.before.run id = some row) (terminal : row.status.isTerminal = true) : h.after.run id = some row := by
  rcases effect.row stored with same | ⟨new, -, moves⟩
  · exact same
  · rw [moves.active] at terminal
    cases terminal

/-- No run appears, or the retry of a run that is stored as failed. -/
theorem EventEffect.created (effect : EventEffect h.event h.before h.after) :
    h.created = [] ∨ ∃ retry old job new, h.created = [retry] ∧ h.Retries old job ∧
      retry.attempt = wrapI32 (old.attempt + 1) ∧ h.after.run h.event.runId = some new ∧ new.status = .failed := by
  cases effect with
  | ignored same =>
    refine .inl (List.eq_nil_iff_forall_not_mem.mpr fun run inside => ?_)
    obtain ⟨stored, new⟩ := HandledEvent.mem_created.mp inside
    rw [same, new] at stored
    cases stored
  | moved before new isTarget moves rows =>
    refine .inl (List.eq_nil_iff_forall_not_mem.mpr fun run inside => ?_)
    obtain ⟨stored, absent⟩ := HandledEvent.mem_created.mp inside
    rw [rows] at stored
    split at stored
    · rename_i named
      rw [← named, isTarget] at absent
      cases absent
    · rw [absent] at stored
      cases stored
  | retried before new retry job retries failed fresh attempt rows =>
    have only (run : Run) : run ∈ h.created ↔ run ∈ [retry] := by
      rw [HandledEvent.mem_created, List.mem_singleton, rows]
      constructor
      · rintro ⟨stored, absent⟩
        split at stored
        · exact (Option.some.inj stored).symm
        · split at stored
          · rename_i named
            have isTarget := retries.target
            rw [HandledEvent.target, named, absent] at isTarget
            cases isTarget
          · rw [absent] at stored
            cases stored
      · rintro rfl
        exact ⟨if_pos rfl, fresh⟩
    have distinct : h.created.Nodup := (List.Nodup.of_map _ h.after.store.runs.distinct).filter _
    have isRetry : h.created = [retry] :=
      List.perm_singleton.mp ((List.perm_ext_iff_of_nodup distinct (List.nodup_singleton retry)).mpr only)
    refine .inr ⟨retry, before, job, new, isRetry, retries, attempt, ?_, failed⟩
    have isTarget := retries.target
    have apart : retry.runId ≠ h.event.runId := by
      intro same
      rw [HandledEvent.target, ← same, fresh] at isTarget
      cases isTarget
    rw [rows, if_neg apart, if_pos rfl]

/-- An attempt with a successor is followed by it. -/
theorem wrapI32_succ {attempt : Int} (positive : 0 < attempt) (small : attempt < 2147483647) :
    wrapI32 (attempt + 1) = attempt + 1 := by
  unfold wrapI32
  omega

theorem EventEffect.onlyRetries (effect : EventEffect h.event h.before h.after) (fits : h.HasSuccessor) :
    ∀ run ∈ h.created, h.IsRetry run := by
  intro run inside
  rcases effect.created with isNil | ⟨retry, old, job, new, isRetry, retries, attempt, stored, failed⟩
  · rw [isNil] at inside
    cases inside
  · rw [isRetry, List.mem_singleton] at inside
    subst inside
    have positive : 0 < old.attempt := by
      have allowed := retries.allowed
      simp only [RetryPolicy.shouldRetry, Bool.and_eq_true, decide_eq_true_eq] at allowed
      exact allowed.1
    refine ⟨old, job, retries, ?_, new, stored, failed⟩
    rw [attempt, wrapI32_succ positive (fits old job retries)]

end Kept

/-! ## Sequences of events -/

/-- A run that has caused a retry is stored as failed. -/
theorem failed_of_retried {w w' : World} {history : List HandledEvent} (handles : Handles w history w') (id : String) :
    (retriesCaused id history).length ≤ 1 ∧
      (retriesCaused id history ≠ [] → ∃ row, w'.run id = some row ∧ row.status = .failed) := by
  induction handles with
  | start => exact ⟨Nat.zero_le 1, fun retried => absurd rfl retried⟩
  | other _ same ih =>
    refine ⟨ih.1, fun retried => ?_⟩
    obtain ⟨row, stored, failed⟩ := ih.2 retried
    refine ⟨row, ?_, failed⟩
    rw [World.run, same]
    exact stored
  | @event history before after e out _ ends ih =>
    have effect := event_effect ends
    have kept (retried : retriesCaused id history ≠ []) : ∃ row, after.run id = some row ∧ row.status = .failed := by
      obtain ⟨row, stored, failed⟩ := ih.2 retried
      have settled : after.run id = some row :=
        EventEffect.settled (h := ⟨e, before, after⟩) effect stored (by rw [failed]; rfl)
      exact ⟨row, settled, failed⟩
    by_cases named : e.runId = id
    · have split : retriesCaused id (⟨e, before, after⟩ :: history) =
          HandledEvent.created ⟨e, before, after⟩ ++ retriesCaused id history := by
        simp [retriesCaused, named]
      rw [split]
      rcases EventEffect.created (h := ⟨e, before, after⟩) effect with
        isNil | ⟨retry, old, job, new, isRetry, retries, -, stored, failed⟩
      · rw [isNil]
        exact ⟨ih.1, kept⟩
      · have first : retriesCaused id history = [] := by
          by_contra retried
          obtain ⟨row, wasStored, wasFailed⟩ := ih.2 retried
          have isTarget := retries.target
          rw [HandledEvent.target, named, wasStored] at isTarget
          cases isTarget
          rw [retries.running] at wasFailed
          cases wasFailed
        rw [isRetry, first]
        refine ⟨le_refl 1, fun _ => ⟨new, ?_, failed⟩⟩
        rw [← named]
        exact stored
    · have same : retriesCaused id (⟨e, before, after⟩ :: history) = retriesCaused id history := by
        simp [retriesCaused, named]
      rw [same]
      exact ⟨ih.1, kept⟩

/-- Every event of a history has had one of the effects. -/
theorem Handles.effects {w w' : World} {history : List HandledEvent} (handles : Handles w history w') :
    ∀ h ∈ history, EventEffect h.event h.before h.after := by
  induction handles with
  | start => simp
  | other _ _ ih => exact ih
  | event _ ends ih =>
    rw [List.forall_mem_cons]
    exact ⟨event_effect ends, ih⟩

/-- **Executor events drive a correct run state machine.** From any runs and for every sequence of events: statuses
only move forward, finished runs keep their rows, a run causes at most one retry, and only retries appear,
as long as no attempt that is to be retried is the last `i32`. -/
theorem events_drive_runs {w w' : World} {history : List HandledEvent} (handles : Handles w history w')
    (fits : ∀ h ∈ history, h.HasSuccessor) : DrivesRuns w history w' := by
  refine ⟨fun h inside => (handles.effects h inside).moves, ?_, fun id => (failed_of_retried handles id).1,
    fun h inside => (handles.effects h inside).onlyRetries (fits h inside)⟩
  intro id row stored terminal
  induction handles with
  | start => exact stored
  | other _ same ih =>
    rw [World.run, same]
    exact ih fits
  | @event history before after e _ _ ends ih =>
    rw [List.forall_mem_cons] at fits
    exact EventEffect.settled (h := ⟨e, before, after⟩) (event_effect ends) (ih fits.2) terminal

/-- A failure that is reported of a running run can be followed by its retry, if the policy allows one, the error
text can be redacted and the time can be represented. -/
theorem runFailed_retried (w : World) (id jobId error message : String) (logs : CapturedLogs) (old : Run) (job : Job)
    (scheduledFor : DateTime) (stored : w.run id = some old) (running : old.status = .running)
    (isJob : old.jobId = some jobId) (hasJob : w.job jobId = some job) (safe : safeMessage error = some message)
    (allowed : job.retryPolicy.shouldRetry old.attempt = true)
    (dated : retryTime job.retryPolicy old.attempt w.clock = some scheduledFor) :
    ∃ w' retry, Ends .calm (handleExecutorEvent (.runFailed id error logs)) w (some ()) w' ∧
      w.run retry.runId = none ∧ w'.run retry.runId = some retry ∧ retry.attempt = wrapI32 (old.attempt + 1) := by
  have steady : ∀ t, Surroundings.calm.passes t t := le_refl
  have key : old.runId = id := Collections.Table.key_of_lookup stored
  let new := failedRun old .failed message (some logs) w.clock
  let w₁ := w.record (.store (.getRun id)) (.ok (some old)) w.store
  let w₂ := w₁.record (.store (.getJob jobId)) (.ok (some job)) w.store
  let w₃ := w₂.record .utcNow w.clock w.store
  let w₄ := w₃.record (.store (.updateRun new)) (.ok ()) (w.store.setRun new)
  have gets : Alone .calm w (.store (.getRun id)) (.ok (some old)) w₁ :=
    .of_exec steady rfl (by rw [StoreCall.exec, Store.getRun, show w.store.runs.lookup id = some old from stored])
  have reads : Alone .calm w₁ (.store (.getJob jobId)) (.ok (some job)) w₂ :=
    .of_exec steady rfl (by
      rw [StoreCall.exec, Store.getJob, show w₁.store.jobs.lookup jobId = some job from hasJob]
      rfl)
  have updates : Alone .calm w₃ (.store (.updateRun new)) (.ok ()) w₄ :=
    .of_exec steady rfl (by
      rw [StoreCall.exec, Store.updateRun, show w₃.store.runs.lookup new.runId = some old from key ▸ stored]
      rfl)
  obtain ⟨runId, w', inserts, fresh, after⟩ : ∃ runId w', Ends .calm (retryFailed new job) w₄ (some ()) w' ∧
      w₄.run runId = none ∧ w'.store = w₄.store.setRun (retryRun new runId scheduledFor) :=
    retryFailed_inserts steady (fun _ => rfl) allowed dated
  refine ⟨w', retryRun new runId scheduledFor, ?_, ?_, by rw [World.run_setRun after]; exact if_pos rfl, rfl⟩
  · refine ⟨_, w₁, gets, ?_⟩
    show Ends .calm (if old.status = .running then failRunning old error logs else pure ()) w₁ (some ()) w'
    rw [if_pos running, failRunning]
    simp only [isJob]
    refine ⟨_, w₂, reads, ?_⟩
    show Ends .calm (finalizeFailedRun old job .failed error (some logs)) w₂ (some ()) w'
    rw [finalizeFailedRun]
    simp only [safe]
    exact ⟨_, w₃, .of_utcNow steady, _, w₄, updates, inserts⟩
  · have before : w₄.run runId = if new.runId = runId then some new else w.run runId := World.run_setRun rfl runId
    rw [before] at fresh
    split at fresh
    · cases fresh
    · exact fresh

/-- A job whose runs may be retried `maxAttempts` times. -/
def retriedJob (maxAttempts : Nat) : Job :=
  { minutelyJob with retryPolicyJson := RetryPolicy.toJson { RetryPolicy.default with maxAttempts } }

/-- A running run of that job, at the given attempt. -/
def runningAttempt (attempt : Int) : Run :=
  { Run.forJob "r" "j" "noop" 0 with status := .running, attempt }

/-- The failure of that run is reported. -/
def failureEvent : ExecutorEvent := .runFailed "r" "boom" .default

def attemptWorld (maxAttempts : Nat) (attempt : Int) : World :=
  .fresh ((State.single (retriedJob maxAttempts) 0).withRun (runningAttempt attempt))

theorem exists_handled {w : World} {e : ExecutorEvent} {oracles : List Oracle} (test : World → Bool)
    (played : (playAlone (fun _ => none) (handleExecutorEvent e) w oracles).any (fun out => test out.2) = true) :
    ∃ w', Handles w [⟨e, w, w'⟩] w' ∧ test w' = true := by
  obtain ⟨out, ends, passes⟩ := Ends.exists_of_play .calm le_refl (fun out => test out.2) played
  exact ⟨_, .event .start ends, passes⟩

theorem attemptWorld_target {maxAttempts : Nat} {attempt : Int} {w' : World} {old : Run} {job : Job}
    (retries : HandledEvent.Retries ⟨failureEvent, attemptWorld maxAttempts attempt, w'⟩ old job) :
    old = runningAttempt attempt := (Option.some.inj retries.target).symm

/-- The first attempt fails and is retried. -/
theorem events_drive_runs_retry :
    ∃ w', DrivesRuns (attemptWorld 1 1) [⟨failureEvent, attemptWorld 1 1, w'⟩] w' ∧
      (w'.run "r2").any (·.attempt == 2) = true := by
  obtain ⟨w', handles, second⟩ := @exists_handled (attemptWorld 1 1) failureEvent [.uuid "r2"]
    (fun w' => (w'.run "r2").any (·.attempt == 2)) (by decide +kernel)
  refine ⟨w', events_drive_runs handles ?_, second⟩
  intro h inside old job retries
  rw [List.mem_singleton] at inside
  subst inside
  rw [attemptWorld_target retries]
  decide

/-- The retry of the last attempt in `i32` is not one greater. -/
theorem retry_attempt_wraps :
    ∃ history w', Handles (attemptWorld 4294967295 2147483647) history w' ∧
      ¬ DrivesRuns (attemptWorld 4294967295 2147483647) history w' := by
  have dated : retryTime (retriedJob 4294967295).retryPolicy 2147483647 0 = some 0 := by
    rw [retryTime_undelayed (by rfl)]
    decide
  obtain ⟨w', retry, ends, new, stored, attempt⟩ := runFailed_retried (attemptWorld 4294967295 2147483647) "r" "j" "boom" "boom"
    .default (runningAttempt 2147483647) (retriedJob 4294967295) 0 rfl rfl rfl rfl (by decide +kernel) (by decide +kernel) dated
  refine ⟨_, w', .event .start ends, fun drives => ?_⟩
  have inside : retry ∈ HandledEvent.created ⟨failureEvent, attemptWorld 4294967295 2147483647, w'⟩ := by
    rw [HandledEvent.mem_created]
    exact ⟨stored, new⟩
  obtain ⟨old, job, retries, next, -⟩ := drives.onlyRetries _ List.mem_cons_self retry inside
  rw [attemptWorld_target retries, attempt] at next
  cases next

end Chronon
