import Chronon.Tick.Claims

/-!
# Ticks and schedule edits

An upsert stores a schedule together with the next fire it computed from it. A
tick stores the next fire of the schedule it loaded, several calls earlier. As
long as the schedule is the stored one when the tick writes, the stored fire
time belongs to the stored schedule.
-/

namespace Chronon
set_option autoImplicit false

open Concurrent

/-- The clock was read as `t`. -/
def ReadDuring (log : Log) (t : DateTime) : Prop := ∃ p s, ⟨p, s, .utcNow, t⟩ ∈ log

/-- The stored fire time of `j` is the next one of its stored schedule, after `t₀` or after a reading
made during the run. -/
def FireMatches (host : Host) (j : String) (t₀ : DateTime) (w : World) : Prop :=
  ∀ row, w.job j = some row → ∃ t, (t = t₀ ∨ ReadDuring w.log t) ∧ row.nextRunAt = cronNextRunAt host row t

/-! ## The setting -/

/-- Upserts keep `j` a cron job with an expression. -/
def UpsertsCron (j : String) (l : SystemLabel) : Prop :=
  ∀ job ∈ upserted l, job.jobId = j → job.scheduleKind = .cron ∧ job.cronExpr.isSome = true

instance (j : String) (l : SystemLabel) : Decidable (UpsertsCron j l) :=
  inferInstanceAs (Decidable (∀ job ∈ upserted l, _))

/-- A tick that stores the next fire of `j` finds the schedule it computed it from. -/
def PersistsCurrent (j : String) (l : SystemLabel) (w : World) : Prop :=
  ∀ p ∈ caller l, persisted l = some j → ∀ copy ∈ loaded p w.log, ∀ row ∈ w.job j,
    row.cronExpr = copy.cronExpr ∧ row.timezone = copy.timezone

instance (j : String) (l : SystemLabel) (w : World) : Decidable (PersistsCurrent j l w) :=
  inferInstanceAs (Decidable (∀ p ∈ caller l, _))

/-! ## The invariant -/

structure ScheduleInv (host : Host) (j : String) (t₀ : DateTime) (w : World) : Prop where
  cron : ∀ row, w.job j = some row → row.scheduleKind = .cron
  fire : FireMatches host j t₀ w

/-- What a task asserts: its readings are in the history, a row it is about to write has a fire time that
goes with its schedule, and the job it loaded is a cron job. -/
structure ScheduleHolds (host : Host) (j : String) (p : Nat) (φ : Phase) (w : World) : Prop where
  linked : Linked p φ w
  reads : ∀ t ∈ φ.reading, ReadDuring w.log t
  writes : ∀ copy job, φ = .writingJob copy job → ∃ t, ReadDuring w.log t ∧ ScheduledAt host job t
  cron : ∀ k job, φ.copy = some (k, job) → k.jobId = j → job.scheduleKind = .cron

theorem cronNextRunAt_congr {host : Host} {a b : Job} (expr : a.cronExpr = b.cronExpr) (tz : a.timezone = b.timezone)
    (t : DateTime) : cronNextRunAt host a t = cronNextRunAt host b t := by
  simp only [cronNextRunAt, expr, tz]

section Step

variable {host : Host} {j : String} {t₀ : DateTime} {p : Nat} {oracle : Oracle} {w w' : World} {φ φ' : Phase} {op : Op}
  {r : Ans op}

theorem ReadDuring.later {t : DateTime} (read : ReadDuring w.log t) (ran : perform p oracle w op = some (r, w')) :
    ReadDuring w'.log t := by
  obtain ⟨q, s, inside⟩ := read
  rw [(perform_cases ran).2]
  exact ⟨q, s, List.mem_cons_of_mem _ inside⟩

theorem ReadDuring.now {t : DateTime} (ran : perform p oracle w .utcNow = some (t, w')) : ReadDuring w'.log t := by
  rw [(perform_cases ran).2]
  exact ⟨p, w.state, List.mem_cons_self⟩

/-- A row written in place keeps its schedule, and its fire time unless it is the post-tick write. -/
theorem JobWrite.onRow_schedule {write : JobWrite} {row : Job} (allowed : write.Allowed row) (stamp : DateTime) :
    (write.onRow stamp row).scheduleKind = row.scheduleKind ∧ (write.onRow stamp row).cronExpr = row.cronExpr ∧
      (write.onRow stamp row).timezone = row.timezone ∧
      ((write.onRow stamp row).nextRunAt = row.nextRunAt ∨
        ∃ next, write = .persist next ∧ (write.onRow stamp row).nextRunAt = next) := by
  cases write with
  | put job => exact allowed.elim
  | drop => exact allowed.elim
  | persist next => exact ⟨rfl, rfl, rfl, .inr ⟨next, rfl, rfl⟩⟩
  | releaseOnce claimedBy => simp only [JobWrite.onRow]; split <;> exact ⟨rfl, rfl, rfl, .inl rfl⟩
  | _ => exact ⟨rfl, rfl, rfl, .inl rfl⟩

/-- A tick computes what it stores from the schedule it loaded. -/
theorem ScheduleHolds.persisted {next : Option DateTime} {row : Job} (holds : ScheduleHolds host j p φ w)
    (move : Move host φ op r φ') (wrote : Wrote j op r (.persist next)) (stored : w.job j = some row)
    (current : PersistsCurrent j (.call p op r) w) : ∃ t, ReadDuring w.log t ∧ next = cronNextRunAt host row t := by
  obtain ⟨b, k, job, onJob, rfl, phase⟩ := move.of_persist wrote
  have isCopy : φ.copy = some (k, job) ∧ k.now ∈ φ.reading := by
    rcases phase with ⟨rfl, -⟩ | ⟨rfl, -⟩ <;> exact ⟨rfl, rfl⟩
  have isLoaded := (holds.linked.copies k job isCopy.1).1
  have same : row.cronExpr = job.cronExpr ∧ row.timezone = job.timezone := by
    cases wrote
    exact current p rfl rfl job isLoaded row stored
  refine ⟨k.now, holds.reads k.now isCopy.2, ?_⟩
  rw [postTickNextRunAt, if_pos (holds.cron k job isCopy.1 onJob)]
  exact (cronNextRunAt_congr same.1 same.2 k.now).symm

/-- **One step keeps the fire time with the schedule.** -/
theorem ScheduleInv.step (inv : ScheduleInv host j t₀ w) (holds : ScheduleHolds host j p φ w)
    (move : Move host φ op r φ') (ran : perform p oracle w op = some (r, w')) (upserts : UpsertsCron j (.call p op r))
    (current : PersistsCurrent j (.call p op r) w) : ScheduleInv host j t₀ w' := by
  have rows : ∀ row', w'.job j = some row' → row'.scheduleKind = .cron ∧
      ∃ t, (t = t₀ ∨ ReadDuring w'.log t) ∧ row'.nextRunAt = cronNextRunAt host row' t := by
    intro row' stored'
    have step := perform_job ran j
    rw [stored'] at step
    generalize stored : w.job j = before at step
    generalize change : jobWrite j op r = write at step
    have kept : ∀ row, w.job j = some row → row'.cronExpr = row.cronExpr → row'.timezone = row.timezone →
        row'.nextRunAt = row.nextRunAt →
        ∃ t, (t = t₀ ∨ ReadDuring w'.log t) ∧ row'.nextRunAt = cronNextRunAt host row' t := by
      intro row stored expr tz next
      obtain ⟨t, read, fire⟩ := inv.fire row stored
      refine ⟨t, read.imp_right fun read => read.later ran, ?_⟩
      rw [next, fire]
      exact cronNextRunAt_congr expr.symm tz.symm t
    cases step with
    | same => exact ⟨inv.cron row' stored, kept row' stored rfl rfl rfl⟩
    | put same =>
      obtain ⟨copy, rfl, -⟩ := move.of_put (jobWrite_wrote change)
      obtain ⟨t, read, scheduled⟩ := holds.writes copy row' rfl
      cases jobWrite_wrote change
      obtain ⟨cron, isSome⟩ := upserts _ rfl same
      exact ⟨cron, t, .inr (read.later ran), scheduled cron isSome⟩
    | write stamp allowed =>
      rename_i write row
      obtain ⟨kind, expr, tz, next | ⟨next, rfl, isNext⟩⟩ := JobWrite.onRow_schedule allowed stamp
      · exact ⟨kind.trans (inv.cron row stored), kept row stored expr tz next⟩
      · obtain ⟨t, read, fire⟩ := holds.persisted move (jobWrite_wrote change) stored current
        refine ⟨kind.trans (inv.cron row stored), t, .inr (read.later ran), ?_⟩
        rw [isNext, fire]
        exact cronNextRunAt_congr expr.symm tz.symm t
  exact ⟨fun row' stored' => (rows row' stored').1, fun row' stored' => (rows row' stored').2⟩

theorem ScheduleHolds.reads_step (holds : ScheduleHolds host j p φ w) (move : Move host φ op r φ')
    (ran : perform p oracle w op = some (r, w')) : ∀ t ∈ φ'.reading, ReadDuring w'.log t := by
  intro t read
  rcases move.reading_cases t read with before | reading
  · exact (holds.reads t before).later ran
  · cases reading
    exact .now ran

theorem ScheduleHolds.writes_step (holds : ScheduleHolds host j p φ w) (move : Move host φ op r φ')
    (ran : perform p oracle w op = some (r, w')) :
    ∀ copy job, φ' = .writingJob copy job → ∃ t, ReadDuring w'.log t ∧ ScheduledAt host job t := by
  intro copy job isPhase
  have later : ∀ copy job, φ = .writingJob copy job → ∃ t, ReadDuring w'.log t ∧ ScheduledAt host job t := by
    intro copy job isPhase
    obtain ⟨t, read, scheduled⟩ := holds.writes copy job isPhase
    exact ⟨t, read.later ran, scheduled⟩
  cases move with
  | silent _ => exact later copy job isPhase
  | schedule scheduled _ => cases isPhase; exact ⟨_, .now ran, scheduled⟩
  | stamp =>
    cases isPhase
    obtain ⟨t, read, scheduled⟩ := later _ _ rfl
    exact ⟨t, read, scheduled⟩
  | checkStored => exact later copy job isPhase
  | checkName =>
    split at isPhase
    · cases isPhase; exact later _ _ rfl
    · cases isPhase
  | misfired | admitted | create | createFailed => split at isPhase <;> cases isPhase
  | _ => cases isPhase

theorem ScheduleHolds.cron_step (inv : ScheduleInv host j t₀ w) (holds : ScheduleHolds host j p φ w)
    (move : Move host φ op r φ') (ran : perform p oracle w op = some (r, w')) :
    ∀ k job, φ'.copy = some (k, job) → k.jobId = j → job.scheduleKind = .cron := by
  have cron := holds.cron
  intro k job isCopy onJob
  cases move with
  | load =>
    cases isCopy
    exact inv.cron job (onJob ▸ perform_getJob ran)
  | misfired | admitted | create => split at isCopy <;> exact cron k job isCopy onJob
  | createFailed => cases (perform_cases ran).1
  | checkName => split at isCopy <;> cases isCopy
  | silent _ => exact cron k job isCopy onJob
  | _ => first | exact cron k job isCopy onJob | cases isCopy

end Step

/-- The rules behind the agreement of schedule and fire time. -/
def scheduleRules (host : Host) (j : String) (t₀ : DateTime) :
    Rules (system host) (protocol host) fun l w _ => UpsertsCron j l ∧ PersistsCurrent j l w where
  inv := ScheduleInv host j t₀
  guar q w w' := ∃ oracle op r, perform q oracle w op = some (r, w')
  idle p w := holding p w.log = none
  holds := ScheduleHolds host j
  start := by
    intro p proc w _ idle _
    refine ⟨.start idle, ?_, ?_, ?_⟩
    · cases proc <;> exact fun t none_ => by cases none_
    · cases proc <;> exact fun copy job none_ => by cases none_
    · cases proc <;> exact fun k job none_ => by cases none_
  finish _ ended holds := holds.linked.finish ended
  own inv holds move ran allowed :=
    ⟨inv.step holds move ran allowed.1 allowed.2, ⟨_, _, _, ran⟩, holds.linked.own move ran, holds.reads_step move ran,
      holds.writes_step move ran, holds.cron_step inv move ran⟩
  other := by
    rintro p q φ w w' apart _ _ ⟨_, _, _, ran⟩ holds
    refine ⟨holds.linked.other ran apart, fun t read => (holds.reads t read).later ran, ?_, holds.cron⟩
    intro copy job isPhase
    obtain ⟨t, read, scheduled⟩ := holds.writes copy job isPhase
    exact ⟨t, read.later ran, scheduled⟩
  otherIdle apart _ _ := fun ⟨_, _, _, ran⟩ idle => by
    rw [holding, track_other_call ran (Ne.symm apart)]; exact idle
  drift := by
    intro e w w' inv drifts _
    obtain ⟨-, jobs, -, log⟩ := drift_cases drifts
    refine ⟨⟨by rw [jobs]; exact inv.cron, ?_⟩, fun p φ holds => ?_, fun p idle => by rw [log]; exact idle⟩
    · rw [FireMatches, jobs, log]
      exact inv.fire
    · exact ⟨holds.linked.drift drifts, by rw [log]; exact holds.reads, by rw [log]; exact holds.writes, holds.cron⟩

/-- **The stored fire time belongs to the stored schedule**, in every state of every run in which each tick
stores a fire of the schedule that it finds. -/
theorem fire_matches_schedule (host : Host) (j : String) (t₀ : DateTime) {s : State} {row : Job} {c : SystemConfig}
    (stored : s.store.jobs.lookup j = some row) (cron : row.scheduleKind = .cron)
    (fire : row.nextRunAt = cronNextRunAt host row t₀)
    (reach : (system host).Reach (fun l w _ => UpsertsCron j l ∧ PersistsCurrent j l w) (.idle (.fresh s)) c) :
    FireMatches host j t₀ c.world := by
  have only : ∀ row', (World.fresh s).job j = some row' → row' = row := by
    intro row' stored'
    have stored' : s.store.jobs.lookup j = some row' := stored'
    rw [stored] at stored'
    exact (Option.some.inj stored').symm
  have start : ScheduleInv host j t₀ (.fresh s) := by
    refine ⟨fun row' stored' => ?_, fun row' stored' => ⟨t₀, .inl rfl, ?_⟩⟩
    · rw [only row' stored']; exact cron
    · rw [only row' stored']; exact fire
  exact ((scheduleRules host j t₀).sound (protocol_governs host)
    (Rules.Standing.initial (scheduleRules host j t₀) start fun _ => rfl) reach).inv.fire

/-- The same job, to fire every hour. -/
def hourlyJob : Job := { minutelyJob with cronExpr := some "0 * * * *" }

/-- The schedule is edited while a coordinator waits for the job it listed, and the tick stores the next fire of
the new one. -/
theorem fire_matches_schedule_edited :
    ∃ c, (system .simple).Reach (fun l w _ => UpsertsCron "j" l ∧ PersistsCurrent "j" l w)
        (.idle (.fresh (.single minutelyJob (seconds 60)))) c ∧
      ((c.world.job "j").any fun row => row.cronExpr == some "0 * * * *") = true ∧
      FireMatches .simple "j" 0 c.world := by
  obtain ⟨c, reach, edited⟩ := exists_run .simple (fun l w _ => UpsertsCron "j" l ∧ PersistsCurrent "j" l w)
    (.single minutelyJob (seconds 60))
    (startTick 0 "a" false ++ [.start 1 (.upsert hourlyJob)] ++ calls 1 4 ++ claimNext 0 "u0" ++ enqueueRest 0 "r0")
    (fun c => (c.world.job "j").any fun row => row.cronExpr == some "0 * * * *") (by decide +kernel)
  exact ⟨c, reach, edited, fire_matches_schedule .simple "j" 0 rfl rfl rfl reach⟩

/-- The schedule is edited after a coordinator loaded the job. Both are done, and the row that fires every
hour is to fire at the next minute. -/
theorem fire_outlives_schedule :
    ∃ c, (system .simple).Reach (fun l _ _ => UpsertsCron "j" l) (.idle (.fresh (.single minutelyJob (seconds 60)))) c ∧
      (c.finished 0 && c.finished 1) = true ∧ ¬ FireMatches .simple "j" 0 c.world := by
  obtain ⟨c, reach, lost⟩ := exists_run .simple (fun l _ _ => UpsertsCron "j" l) (.single minutelyJob (seconds 60))
    (startTick 0 "a" false ++ claimNext 0 "u0" ++ calls 0 1 ++ [.start 1 (.upsert hourlyJob)] ++ calls 1 4 ++
      calls 0 1 ++ draw 0 "r0" ++ calls 0 3)
    (fun c => c.finished 0 && c.finished 1 && (c.world.job "j").any fun row =>
      row.cronExpr == some "0 * * * *" && row.timezone == none && row.nextRunAt == some (seconds 120)) (by decide +kernel)
  obtain ⟨done, lost⟩ := (Bool.and_eq_true _ _).mp lost
  refine ⟨c, reach, done, fun matches_ => ?_⟩
  simp only [Bool.and_eq_true, Option.any_eq_true, beq_iff_eq] at lost
  obtain ⟨row, stored, ⟨expr, tz⟩, next⟩ := lost
  obtain ⟨t, -, fire⟩ := matches_ row stored
  have hourly : cronNextRunAt .simple row t = some ((t / seconds 3600 + 1) * seconds 3600) := by
    rw [cronNextRunAt, expr, tz]
    rfl
  rw [next, hourly, Option.some.injEq] at fire
  simp only [seconds] at fire
  omega

end Chronon
