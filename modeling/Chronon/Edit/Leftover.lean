import Chronon.Edit.RunOnceDue
import Chronon.Edit.Schedule
import Chronon.Tick.Outcome

/-!
# Fire times of abandoned schedules

Accepted HTTP upserts and ticks, one after another. An upsert computes a fire
time only for a cron job with an expression and keeps the stored one otherwise,
so a fire time survives a change of the schedule to run-once, or to cron without
an expression. Where no upsert meets such a leftover, every fire time is one of
the stored schedule.
-/

namespace Chronon
set_option autoImplicit false

/-- The stored fire time of a job. -/
def World.fireTime (w : World) (j : String) : Option DateTime := (w.job j).bind Job.nextRunAt

/-- An accepted upsert, with its request and the job it stored, or a tick. -/
structure EditStep where
  before : World
  after : World
  upsert : Option (Axum.UpsertJobRequest × String)

/-- Accepted upserts and ticks one after another, latest first. -/
inductive Edits (host : Host) (w : World) : List EditStep → World → Prop
  | start : Edits host w [] w
  | upsert {history : List EditStep} {before after : World} {req : Axum.UpsertJobRequest}
      {response : Axum.ApiResponse Axum.JobResponse} {data : Axum.JobResponse} : Edits host w history before →
      Ends .calm (Axum.upsertJob host req) before (some (.ok, response)) after → response.data = some data →
      Edits host w (⟨before, after, some (req, data.jobId)⟩ :: history) after
  | tick {history : List EditStep} {before after : World} {instanceId : String} {draining : Bool}
      {out : Option (TickResult × Bool)} : Edits host w history before →
      Ends .calm (runOneTick host instanceId draining) before out after →
      Edits host w (⟨before, after, none⟩ :: history) after
  | drift {history : List EditStep} {before after : World} {e : Env} : Edits host w history before →
      drift e before = some after → Edits host w history after

/-- The start of the last step that upserted job `j` or changed its fire time. -/
def setSince (j : String) : List EditStep → Option DateTime
  | [] => none
  | step :: older =>
    if step.upsert.map Prod.snd = some j ∨ step.after.fireTime j ≠ step.before.fireTime j then some step.before.clock
    else setSince j older

/-- Some step set the fire time `t` while the job was a run-once job. -/
def SetForOnce (history : List EditStep) (j : String) (t : DateTime) : Prop :=
  ∃ step ∈ history, ∃ row, step.after.job j = some row ∧ row.scheduleKind = .runOnce ∧ row.nextRunAt = some t ∧
    step.before.fireTime j ≠ some t

/-- The fire time belongs to the stored schedule. -/
structure FiresCurrent (host : Host) (history : List EditStep) (j : String) (row : Job) : Prop where
  cron : row.scheduleKind = .cron → ∀ t, row.nextRunAt = some t →
    ∃ since instant, setSince j history = some since ∧ since ≤ instant ∧ cronNextRunAt host row instant = some t
  once : row.scheduleKind = .runOnce → ∀ t, row.nextRunAt = some t → SetForOnce history j t
  undue : row.scheduleKind = .cron → row.cronExpr = none → ∀ dueUntil, Store.scheduleDue dueUntil row = false

/-- An upsert that enables a job as run-once, or as cron without an expression, finds no fire time stored. -/
def EditStep.FindsNone (step : EditStep) : Prop :=
  ∀ req id row, step.upsert = some (req, id) → req.enabled = true →
    req.scheduleKind = .runOnce ∨ (req.scheduleKind = .cron ∧ req.cronExpr = none) →
    step.before.store.getJobByName req.jobName = .ok (some row) → row.nextRunAt = none

/-! ## The invariant -/

/-- What holds of a row that was created over HTTP. -/
structure ScheduledHere (host : Host) (history : List EditStep) (j : String) (row : Job) : Prop where
  cron : row.enabled = true → row.scheduleKind = .cron → ∀ t, row.nextRunAt = some t →
    ∃ since instant, setSince j history = some since ∧ since ≤ instant ∧ cronNextRunAt host row instant = some t
  once : row.enabled = true → row.scheduleKind = .runOnce → row.nextRunAt = none

/-- `row'` has the schedule of `row`, and its fire time or one computed at `start` or later. -/
structure Ticked (host : Host) (start : DateTime) (row row' : Job) : Prop where
  enabled : row'.enabled = row.enabled
  scheduleKind : row'.scheduleKind = row.scheduleKind
  cronExpr : row'.cronExpr = row.cronExpr
  timezone : row'.timezone = row.timezone
  nextRunAt : row'.nextRunAt = row.nextRunAt ∨ ∃ t, start ≤ t ∧ row'.nextRunAt = postTickNextRunAt host row t

section Tick

variable {host : Host} {start : DateTime} {base : Store} {instanceId jobId : String} {w w' : World} {row row' row'' : Job}

/-- Every stored row is a ticked row of `base`. -/
def TickedSince (host : Host) (start : DateTime) (base s : Store) : Prop :=
  ∀ j row', s.jobs.lookup j = some row' → ∃ row, base.jobs.lookup j = some row ∧ Ticked host start row row'

theorem Ticked.refl (row : Job) : Ticked host start row row := ⟨rfl, rfl, rfl, rfl, .inl rfl⟩

theorem postTickNextRunAt_congr {t : DateTime} (kind : row'.scheduleKind = row.scheduleKind)
    (expr : row'.cronExpr = row.cronExpr) (timezone : row'.timezone = row.timezone) :
    postTickNextRunAt host row' t = postTickNextRunAt host row t := by
  simp only [postTickNextRunAt, kind, cronNextRunAt_congr expr timezone]

theorem Ticked.givenBack (ticked : Ticked host start row row') (stamp : DateTime) :
    Ticked host start row (givenBack row' stamp) :=
  ⟨ticked.enabled, ticked.scheduleKind, ticked.cronExpr, ticked.timezone, ticked.nextRunAt⟩

theorem fired_schedule (host : Host) (row : Job) (now completedAt stamp : DateTime) :
    (fired host row now completedAt stamp).enabled = row.enabled ∧
      (fired host row now completedAt stamp).scheduleKind = row.scheduleKind ∧
      (fired host row now completedAt stamp).cronExpr = row.cronExpr ∧
      (fired host row now completedAt stamp).timezone = row.timezone := by
  simp only [fired, completedOnce]
  split <;> exact ⟨rfl, rfl, rfl, rfl⟩

theorem Ticked.fired {now : DateTime} (ticked : Ticked host start row row') (started : start ≤ now)
    (completedAt stamp : DateTime) : Ticked host start row (fired host row' now completedAt stamp) := by
  obtain ⟨enabled, kind, expr, timezone⟩ := fired_schedule host row' now completedAt stamp
  refine ⟨enabled.trans ticked.enabled, kind.trans ticked.scheduleKind, expr.trans ticked.cronExpr,
    timezone.trans ticked.timezone, .inr ⟨now, started, ?_⟩⟩
  exact postTickNextRunAt_congr ticked.scheduleKind ticked.cronExpr ticked.timezone

theorem TickedSince.enqueued (ticked : TickedSince host start base w.store) (started : start ≤ w.clock)
    (enqueued : Enqueued host instanceId jobId w w') : TickedSince host start base w'.store := by
  intro j row' stored'
  rcases enqueued.jobs with same | ⟨row, after, stored, rows, change⟩
  · exact ticked j row' ((same j).symm.trans stored')
  · rw [show w'.store.jobs.lookup j = w'.job j from rfl, rows j] at stored'
    split at stored'
    · rename_i named
      subst named
      cases stored'
      obtain ⟨first, inBase, was⟩ := ticked jobId row stored
      refine ⟨first, inBase, ?_⟩
      rcases change with ⟨stamp, rfl⟩ | ⟨completedAt, stamp, rfl⟩
      · exact was.givenBack stamp
      · exact was.fired started completedAt stamp
    · exact ticked j row' stored'

/-- What a tick does to the schedules. -/
theorem tick_ticked {draining : Bool} {out : Option (TickResult × Bool)}
    (ends : Ends .calm (runOneTick host instanceId draining) w out w') :
    TickedSince host w.clock w.store w'.store :=
  runOneTick_keeps (fun _ => rfl) forward_calm
    (fun _ _ _ started ticked enqueued => TickedSince.enqueued ticked started enqueued) ends (le_refl _)
    fun _ row stored => ⟨row, stored, .refl row⟩

end Tick

/-! ## Sequences of edits and ticks -/

section Sequence

variable {host : Host} {w w' : World} {history : List EditStep} {j : String} {row : Job}

theorem setSince_other {step : EditStep} (other : step.upsert.map Prod.snd ≠ some j)
    (same : step.after.fireTime j = step.before.fireTime j) : setSince j (step :: history) = setSince j history := by
  rw [setSince, if_neg]
  rintro (named | changed)
  · exact other named
  · exact changed same

/-- A row keeps its place in the invariant when only the history grows. -/
theorem ScheduledHere.later {row' : Job} {history' : List EditStep} (scheduled : ScheduledHere host history j row)
    (since : setSince j history' = setSince j history) (enabled : row'.enabled = row.enabled)
    (kind : row'.scheduleKind = row.scheduleKind) (expr : row'.cronExpr = row.cronExpr)
    (timezone : row'.timezone = row.timezone) (next : row'.nextRunAt = row.nextRunAt) : ScheduledHere host history' j row' := by
  refine ⟨fun isEnabled isCron t isNext => ?_, fun isEnabled isOnce => ?_⟩
  · obtain ⟨start, instant, isSince, started, fires⟩ :=
      scheduled.cron (enabled ▸ isEnabled) (kind ▸ isCron) t (next ▸ isNext)
    exact ⟨start, instant, since.trans isSince, started, (cronNextRunAt_congr expr timezone instant).trans fires⟩
  · rw [next]
    exact scheduled.once (enabled ▸ isEnabled) (kind ▸ isOnce)

/-- An accepted upsert that finds no leftover. -/
theorem ScheduledHere.upserted {before after : World} {req : Axum.UpsertJobRequest} {copy job : Job} {id : String}
    (copied : Copied req before copy) (edited : Edited req copy job)
    (submitted : Submitted host job row before.clock after.clock)
    (findsNone : EditStep.FindsNone ⟨before, after, some (req, id)⟩) :
    ScheduledHere host (⟨before, after, some (req, id)⟩ :: history) id row := by
  obtain ⟨enabled, kind, expr, timezone, -⟩ := submitted.fields
  have since : setSince id (⟨before, after, some (req, id)⟩ :: history) = some before.clock := if_pos (.inl rfl)
  have leftover (isEnabled : row.enabled = true)
      (unset : req.scheduleKind = .runOnce ∨ (req.scheduleKind = .cron ∧ req.cronExpr = none)) : row.nextRunAt = none := by
    have kept : row.nextRunAt = job.nextRunAt := by
      refine submitted.kept fun isCron => ?_
      rw [edited.scheduleKind] at isCron
      rcases unset with isOnce | ⟨-, isNone⟩
      · rw [isOnce] at isCron
        cases isCron
      · exact edited.cronExpr.trans isNone
    rw [kept, edited.nextRunAt]
    cases copied with
    | @existing old found _ =>
      have isNone : old.nextRunAt = none :=
        findsNone req id old rfl (by rw [← edited.enabled, ← enabled, isEnabled]) unset found
      exact isNone
    | new _ _ => rfl
  refine ⟨fun isEnabled isCron t isNext => ?_, fun isEnabled isOnce => ?_⟩
  · cases isExpr : job.cronExpr with
    | some expr' =>
      obtain ⟨instant, started, -, computed⟩ := submitted.computed expr' (kind ▸ isCron) isExpr
      refine ⟨before.clock, instant, since, started, ?_⟩
      rw [cronNextRunAt_congr expr timezone, ← computed, isNext]
    | none =>
      have isNone := leftover isEnabled (.inr ⟨by rw [← edited.scheduleKind, ← kind, isCron], edited.cronExpr.symm.trans isExpr⟩)
      rw [isNone] at isNext
      cases isNext
  · exact leftover isEnabled (.inl (by rw [← edited.scheduleKind, ← kind, isOnce]))

/-- A tick. -/
theorem ScheduledHere.ticked {before after : World} {row' : Job} (scheduled : ScheduledHere host history j row)
    (stored : before.job j = some row) (stored' : after.job j = some row') (ticked : Ticked host before.clock row row') :
    ScheduledHere host (⟨before, after, none⟩ :: history) j row' := by
  by_cases same : row'.nextRunAt = row.nextRunAt
  · refine scheduled.later (setSince_other (by rintro ⟨⟩) ?_) ticked.enabled ticked.scheduleKind ticked.cronExpr
      ticked.timezone same
    simp only [World.fireTime, stored, stored', Option.bind_some, same]
  · obtain ⟨instant, started, computed⟩ := ticked.nextRunAt.resolve_left same
    have since : setSince j (⟨before, after, none⟩ :: history) = some before.clock := by
      refine if_pos (.inr ?_)
      simpa only [World.fireTime, stored, stored', Option.bind_some] using same
    refine ⟨fun _ isCron t isNext => ⟨before.clock, instant, since, started, ?_⟩, fun isEnabled isOnce => ?_⟩
    · rw [ticked.scheduleKind] at isCron
      rw [cronNextRunAt_congr ticked.cronExpr ticked.timezone, ← isNext, computed, postTickNextRunAt, if_pos isCron]
    · rw [ticked.scheduleKind] at isOnce
      rw [computed, postTickNextRunAt, if_neg (by rw [isOnce]; rintro ⟨⟩)]

/-- The invariant holds of every job that was not there at the start. -/
theorem Edits.scheduledHere (edits : Edits host w history w') (finds : ∀ step ∈ history, step.FindsNone)
    (absent : w.job j = none) (stored : w'.job j = some row) : ScheduledHere host history j row := by
  induction edits generalizing row with
  | start =>
    rw [absent] at stored
    cases stored
  | drift _ drifts ih =>
    rw [(drift_cases drifts).2.1 j] at stored
    exact ih finds stored
  | @tick history before after _ _ _ _ ends ih =>
    rw [List.forall_mem_cons] at finds
    obtain ⟨old, wasStored, ticked⟩ := tick_ticked ends j row stored
    exact (ih finds.2 wasStored).ticked wasStored stored ticked
  | @upsert history before after req response data _ ends isData ih =>
    rw [List.forall_mem_cons] at finds
    obtain ⟨copy, job, written, copied, edited, stores, submitted, data', isData', isRow⟩ := httpUpsert_accepted ends
    obtain rfl : data = data' := Option.some.inj (isData.symm.trans isData')
    have rows := stores.jobs j
    rw [stored] at rows
    split at rows
    · rename_i named
      cases rows
      rw [← isRow] at named
      subst named
      exact ScheduledHere.upserted copied edited submitted finds.1
    · rename_i other
      refine (ih finds.2 rows.symm).later (setSince_other ?_ ?_) rfl rfl rfl rfl rfl
      · rw [← isRow] at other
        simpa using other
      · simp only [World.fireTime, stored, ← rows]

end Sequence

/-- **No fire time of an abandoned schedule survives** where no accepted upsert that enables a job as run-once, or as
cron without an expression, finds a fire time stored: in every sequence of accepted upserts and ticks, a job
created in it that is enabled and not manual has no fire time or one of its stored schedule. -/
theorem fires_current {host : Host} {w w' : World} {history : List EditStep} {j : String} {row : Job}
    (edits : Edits host w history w') (finds : ∀ step ∈ history, step.FindsNone) (absent : w.job j = none)
    (stored : w'.job j = some row) (enabled : row.enabled = true) : FiresCurrent host history j row := by
  have scheduled := edits.scheduledHere finds absent stored
  refine ⟨scheduled.cron enabled, fun isOnce t isNext => ?_, fun isCron isNone dueUntil => ?_⟩
  · rw [scheduled.once enabled isOnce] at isNext
    cases isNext
  · cases isNext : row.nextRunAt with
    | none => simp only [Store.scheduleDue, isNext, Option.any_none, Bool.and_false, Bool.false_and]
    | some t =>
      obtain ⟨_, instant, -, -, fires⟩ := scheduled.cron enabled isCron t isNext
      simp only [cronNextRunAt, isNone] at fires
      cases fires

/-- The same job as a cron job. -/
def minutelyRequest : Axum.UpsertJobRequest :=
  { importRequest with scheduleKind := .cron, cronExpr := some "* * * * *" }

/-- The cron job is created. -/
def minutelyWorld : World := requested .simple emptyWorld minutelyRequest [.uuid "j", .uuid "rev"]

theorem minutely_edits :
    Edits .simple emptyWorld [⟨emptyWorld, minutelyWorld, some (minutelyRequest, "j")⟩] minutelyWorld := by
  obtain ⟨response, data, ends, isData, isJob⟩ := exists_acceptedRequest .simple emptyWorld minutelyRequest
    [.uuid "j", .uuid "rev"] "j" (by decide +kernel)
  rw [← isJob]
  exact .upsert .start ends isData

/-- The fire time of a new cron job is computed when it is created. -/
theorem fires_current_minutely :
    ∃ history row, Edits .simple emptyWorld history minutelyWorld ∧ minutelyWorld.job "j" = some row ∧
      row.nextRunAt = some (seconds 120) ∧ FiresCurrent .simple history "j" row := by
  have found : (minutelyWorld.job "j").any (fun row => row.enabled && row.nextRunAt == some (seconds 120)) = true := by
    decide +kernel
  obtain ⟨row, stored, test⟩ := (Option.any_eq_true _ _).mp found
  rw [Bool.and_eq_true, beq_iff_eq] at test
  refine ⟨_, row, minutely_edits, stored, test.2, fires_current minutely_edits ?_ (by decide +kernel) stored test.1⟩
  intro step inside req id row isUpsert _ unset
  rw [List.mem_singleton] at inside
  subst inside
  cases isUpsert
  rcases unset with isOnce | ⟨-, isNone⟩
  · cases isOnce
  · cases isNone

/-- It is made a run-once job, and keeps the fire time of the cron schedule. -/
theorem fire_left_over :
    ∃ history w' row, Edits .simple emptyWorld history w' ∧ w'.job "j" = some row ∧ row.enabled = true ∧
      row.scheduleKind = .runOnce ∧ ¬ FiresCurrent .simple history "j" row := by
  obtain ⟨response, data, ends, isData, -⟩ := exists_acceptedRequest .simple minutelyWorld importRequest
    [.uuid "rev2"] "j" (by decide +kernel)
  have found : ((requested .simple minutelyWorld importRequest [.uuid "rev2"]).job "j").any (fun row =>
      row.enabled && (row.scheduleKind == .runOnce && row.nextRunAt == some (seconds 120))) = true := by decide +kernel
  have cronBefore : (minutelyWorld.job "j").all (fun row => row.scheduleKind == .cron) = true := by decide +kernel
  have firesBefore : minutelyWorld.fireTime "j" = some (seconds 120) := by decide +kernel
  obtain ⟨row, stored, test⟩ := (Option.any_eq_true _ _).mp found
  simp only [Bool.and_eq_true, beq_iff_eq] at test
  refine ⟨_, _, row, minutely_edits.upsert ends isData, stored, test.1, test.2.1, fun current => ?_⟩
  obtain ⟨step, inside, row', after, isOnce, -, changed⟩ := current.once test.2.1 _ test.2.2
  simp only [List.mem_cons, List.not_mem_nil, or_false] at inside
  rcases inside with rfl | rfl
  · exact changed firesBefore
  · rw [show minutelyWorld.job "j" = some row' from after] at cronBefore
    simp only [Option.all_some, isOnce] at cronBefore
    cases cronBefore

end Chronon
