import Chronon.Runs.Events

/-!
# Why a slot fails a run

One claimed run, worked on by its slot to the end, with any of the slot's store
calls failing. What the slot saw (the answer to `get_job`, failed calls, the end
of the script) is read off its calls; what it did is read off the rows.

The slot takes every answer of `get_job` but a job for a missing job, and it stops
after a terminal row that could not be stored, or a retry that could not be dated
or inserted. `fails_for_reason_iff` says exactly when none of this shows.
-/

namespace Chronon
set_option autoImplicit false

open Concurrent

/-- The calls of a slot that fail, and with which error. -/
structure SlotFaults where
  getJob : Option ChrononError
  startRun : Option ChrononError
  finishRun : Option ChrononError
  createRun : Option ChrononError

/-- The slot stores the run twice: as running, and when it is done. -/
def SlotFaults.refuses (faults : SlotFaults) : StoreCall → Option ChrononError
  | .getJob _ => faults.getJob
  | .updateRun run => if run.status = .running then faults.startRun else faults.finishRun
  | .createRun _ => faults.createRun
  | _ => none

/-- What a slot has seen so far. -/
structure SlotRecord where
  jobMissing : Bool
  storeFailed : Bool
  scriptEnd : Option (Option JoinOutcome)

/-- Take a call into account. -/
def SlotRecord.note (e : LogEntry) (record : SlotRecord) : SlotRecord :=
  match e with
  | ⟨_, _, .store (.getJob _), .ok none⟩ => { record with jobMissing := true }
  | ⟨_, _, .store _, .error _⟩ => { record with storeFailed := true }
  | ⟨_, _, .executeScript _ _, ended⟩ => { record with scriptEnd := some ended }
  | _ => record

/-- What the task of this world has seen. -/
def slotRecord (w : World) : SlotRecord := track SlotRecord.note ⟨false, false, none⟩ 0 w.log

/-- The clock as the task of this world has read it last. -/
def lastReading (w : World) : Option DateTime := (w.log.filterMap clockReading).head?

/-- The script returned an error or panicked, or its time was over. -/
def endedInFailure : Option JoinOutcome → Bool
  | none => true
  | some (.finished outcome) => match outcome.result with
    | .ok () => false
    | .error _ => true
  | some .panicked => true
  | some .cancelled => false

/-- The text of a failed script, as `finalize_failed_run` gets it. -/
def failureText (job : Job) (ended : Option JoinOutcome) : Option String :=
  match (statusResult ((job.timeoutMs.filter (0 < ·)).getD 0) ended).1 with
  | .ok () => none
  | .error (_, err) => some err

/-- `claim_next_queued` has just answered this run. -/
def JustClaimed (run : Run) (s : Store) : Prop :=
  ∃ before pool workerId now ttl, Store.claimNextQueued before pool workerId now ttl = (.ok (some run), s)

/-- A retry of the run is inserted. -/
def FollowedByRetry (run : Run) (s : State) (w' : World) : Prop :=
  ∃ retry, (World.fresh s).run retry.runId = none ∧ w'.run retry.runId = some retry ∧ retry.jobId = run.jobId ∧
    retry.status = .queued ∧ retry.attempt = wrapI32 (run.attempt + 1)

/-- The statuses a slot fails a run with. -/
def Run.Failed (run : Run) : Prop := run.status = .failed ∨ run.status = .timeout

/-- The run is failed only for a real reason. -/
structure FailsForReason (run : Run) (s : State) (w' : World) : Prop where
  reasons : ∀ row, w'.run run.runId = some row → row.Failed →
    run.jobId = none ∨ (slotRecord w').jobMissing = true ∨
      ∃ ended, (slotRecord w').scriptEnd = some ended ∧ endedInFailure ended = true
  errors : (slotRecord w').storeFailed = true → ∃ row, w'.run run.runId = some row ∧ row.status.isTerminal = false ∧
    ∃ expiry, row.claimLeaseUntil = some expiry ∧ ∀ now, expiry ≤ now → (Store.reclaimed now row).status = .queued
  retries : ∀ jobId job ended, run.jobId = some jobId → (World.fresh s).job jobId = some job →
    (slotRecord w').scriptEnd = some ended → endedInFailure ended = true →
    job.retryPolicy.shouldRetry run.attempt = true → FollowedByRetry run s w'

/-- The script is started: the job is read and the run is stored as running. -/
structure Starts (faults : SlotFaults) (run : Run) (s : State) (job : Job) : Prop where
  stored : ∃ jobId, run.jobId = some jobId ∧ (World.fresh s).job jobId = some job
  read : faults.getJob = none
  started : faults.startRun = none

/-- The failures that the slot gets over, for a script that ends so and a retry decided at this time. -/
structure Tolerated (faults : SlotFaults) (run : Run) (s : State) (script : Option JoinOutcome) (now : DateTime) :
    Prop where
  lookup : run.jobId.isSome = true → faults.getJob.isSome = true → faults.finishRun.isSome = true
  cancelled : ∀ job, Starts faults run s job → script = some .cancelled → faults.finishRun.isSome = true
  retry : ∀ job err, Starts faults run s job → endedInFailure script = true → failureText job script = some err →
    job.retryPolicy.shouldRetry run.attempt = true →
    (safeMessage err).isSome = true ∧ faults.finishRun = none ∧
      (retryTime job.retryPolicy run.attempt now).isSome = true ∧ faults.createRun = none

/-! ## The claimed run -/

section Claimed

variable {run : Run}

theorem JustClaimed.cases {s : Store} (claims : JustClaimed run s) :
    s.runs.lookup run.runId = some run ∧ run.status = .claimed ∧ ∃ expiry, run.claimLeaseUntil = some expiry := by
  obtain ⟨before, pool, workerId, now, ttl, ran⟩ := claims
  rcases Store.claimNextQueued_cases ran with ⟨isNone, -⟩ | ⟨old, -, -, isRun, rfl⟩
  · cases isNone
  · obtain rfl := Option.some.inj (Except.ok.inj isRun)
    exact ⟨by rw [Store.lookup_setRun, if_pos rfl], rfl, _, rfl⟩

/-- A leased row goes back to the queue when its lease is over. -/
theorem reclaimed_queued {row : Run} {expiry now : DateTime} (active : Store.leased row = true)
    (lease : row.claimLeaseUntil = some expiry) (passed : expiry ≤ now) : (Store.reclaimed now row).status = .queued := by
  have expired : Store.leaseExpired now row = true := by
    simp only [Store.leaseExpired, active, lease, Option.any_some, Bool.true_and, decide_eq_true_eq]
    exact passed
  rw [Store.reclaimed, if_pos expired]

theorem Run.Failed.terminal (failed : run.Failed) : run.status.isTerminal = true := by
  rcases failed with failed | timeout
  · rw [failed]
    rfl
  · rw [timeout]
    rfl

theorem Run.Failed.not_running (failed : run.Failed) : run.status ≠ .running := by
  intro running
  have terminal := failed.terminal
  rw [running] at terminal
  cases terminal

end Claimed

/-! ## What the slot does -/

section Slot

variable {faults : SlotFaults} {run : Run} {job : Job} {w w' : World} {out : Option Unit}

theorem slotRecord_step {op : Op} {r : Ans op} (calls : Alone (.failing faults.refuses) w op r w') :
    slotRecord w' = (slotRecord w).note ⟨0, w.state, op, r⟩ := by
  rw [slotRecord, calls.log]
  exact track_own rfl

theorem slotRecord_utcNow {now : DateTime} (calls : Alone (.failing faults.refuses) w .utcNow now w') :
    slotRecord w' = slotRecord w := slotRecord_step calls

theorem lastReading_step {op : Op} {r : Ans op} (calls : Alone (.failing faults.refuses) w op r w') :
    lastReading w' = (clockReading ⟨0, w.state, op, r⟩).or (lastReading w) := by
  rw [lastReading, calls.log, List.filterMap_cons]
  cases clockReading ⟨0, w.state, op, r⟩ <;> rfl

/-- A stored run is replaced, unless the call fails. -/
theorem updates_or_fails {old new : Run} {r : Result Unit}
    (calls : Alone (.failing faults.refuses) w (.store (.updateRun new)) r w') (stored : w.run new.runId = some old) :
    (∃ e, faults.refuses (.updateRun new) = some e ∧ r = .error e ∧ w'.store = w.store ∧
      slotRecord w' = { slotRecord w with storeFailed := true }) ∨
    (faults.refuses (.updateRun new) = none ∧ r = .ok () ∧ w'.store = w.store.setRun new ∧
      slotRecord w' = slotRecord w) := by
  have record := slotRecord_step calls
  rcases calls.store with ⟨e, refused, rfl, same⟩ | ⟨accepted, -⟩
  · exact .inl ⟨e, refused, rfl, same, record⟩
  · obtain ⟨rfl, after⟩ := calls.updateRun accepted stored
    exact .inr ⟨accepted, rfl, after, record⟩

/-- The row that ends a run is stored, or the run keeps the row it has. -/
inductive Finished (faults : SlotFaults) (new : Run) (w w' : World) : Prop
  | unstored : faults.finishRun.isSome = true → w'.store = w.store →
      slotRecord w' = { slotRecord w with storeFailed := true } → Finished faults new w w'
  | stored : faults.finishRun = none → w'.store = w.store.setRun new → slotRecord w' = slotRecord w →
      Finished faults new w w'

theorem finished_of_update {old new : Run} {r : Result Unit}
    (calls : Alone (.failing faults.refuses) w (.store (.updateRun new)) r w') (stored : w.run new.runId = some old)
    (ended : new.status ≠ .running) : Finished faults new w w' := by
  have isFinish : faults.refuses (.updateRun new) = faults.finishRun := if_neg ended
  rcases updates_or_fails calls stored with ⟨e, refused, -, same, record⟩ | ⟨accepted, -, after, record⟩
  · exact .unstored (by rw [← isFinish, refused]; rfl) same record
  · exact .stored (isFinish.symm.trans accepted) after record

/-- A run that cannot be started. -/
theorem failUnstarted_finished {reason : String} (stored : w.run run.runId = some run)
    (ends : Ends (.failing faults.refuses) (failUnstarted run reason) w out w') :
    ∃ at', Finished faults (run.fail at' reason) w w' := by
  obtain ⟨at', w₁, reads, r, w₂, updates, -, rfl⟩ := ends
  obtain ⟨-, same⟩ := reads.utcNow
  have found : w₁.run (run.fail at' reason).runId = some run := (World.run_congr same _).trans stored
  refine ⟨at', ?_⟩
  rcases finished_of_update updates found (by rintro ⟨⟩) with ⟨refused, kept, record⟩ | ⟨accepted, after, record⟩
  · exact .unstored refused (kept.trans same) (record.trans (by rw [slotRecord_utcNow reads]))
  · exact .stored accepted (after.trans (by rw [same])) (record.trans (slotRecord_utcNow reads))

/-- `finalize_failed_run` on a stored run. -/
inductive Finalized (faults : SlotFaults) (run : Run) (job : Job) (err : String) (w w' : World) : Prop
  | panicked : safeMessage err = none → w'.store = w.store → slotRecord w' = slotRecord w →
      Finalized faults run job err w w'
  | unstored : faults.finishRun.isSome = true → w'.store = w.store →
      slotRecord w' = { slotRecord w with storeFailed := true } → Finalized faults run job err w w'
  | exhausted (failed : Run) : job.retryPolicy.shouldRetry run.attempt = false → faults.finishRun = none →
      failed.runId = run.runId → failed.Failed → w'.store = w.store.setRun failed →
      slotRecord w' = slotRecord w → Finalized faults run job err w w'
  | lost (failed : Run) : job.retryPolicy.shouldRetry run.attempt = true → faults.finishRun = none →
      faults.createRun.isSome = true → failed.runId = run.runId → failed.Failed →
      w'.store = w.store.setRun failed → slotRecord w' = { slotRecord w with storeFailed := true } →
      Finalized faults run job err w w'
  | undated (failed : Run) (now : DateTime) : job.retryPolicy.shouldRetry run.attempt = true → faults.finishRun = none →
      lastReading w' = some now → retryTime job.retryPolicy run.attempt now = none → failed.runId = run.runId →
      failed.Failed → w'.store = w.store.setRun failed → slotRecord w' = slotRecord w → Finalized faults run job err w w'
  | retried (failed retry : Run) (now : DateTime) : (safeMessage err).isSome = true → faults.finishRun = none →
      lastReading w' = some now → (retryTime job.retryPolicy run.attempt now).isSome = true → faults.createRun = none →
      failed.runId = run.runId → failed.Failed → w.run retry.runId = none →
      retry.jobId = some (run.jobId.getD "") → retry.status = .queued → retry.attempt = wrapI32 (run.attempt + 1) →
      w'.store = (w.store.setRun failed).setRun retry → slotRecord w' = slotRecord w → Finalized faults run job err w w'

/-- The retry decision about a failed run that is stored. -/
inductive Decided (faults : SlotFaults) (failed : Run) (job : Job) (w w' : World) : Prop
  | exhausted : job.retryPolicy.shouldRetry failed.attempt = false → w'.store = w.store →
      slotRecord w' = slotRecord w → Decided faults failed job w w'
  | lost : job.retryPolicy.shouldRetry failed.attempt = true → faults.createRun.isSome = true → w'.store = w.store →
      slotRecord w' = { slotRecord w with storeFailed := true } → Decided faults failed job w w'
  | undated (now : DateTime) : job.retryPolicy.shouldRetry failed.attempt = true → lastReading w' = some now →
      retryTime job.retryPolicy failed.attempt now = none → w'.store = w.store → slotRecord w' = slotRecord w →
      Decided faults failed job w w'
  | created (runId : String) (now scheduledFor : DateTime) : lastReading w' = some now →
      retryTime job.retryPolicy failed.attempt now = some scheduledFor → faults.createRun = none → w.run runId = none →
      w'.store = w.store.setRun (retryRun failed runId scheduledFor) → slotRecord w' = slotRecord w →
      Decided faults failed job w w'

theorem retryFailed_decided {failed : Run} (ends : Ends (.failing faults.refuses) (retryFailed failed job) w out w') :
    Decided faults failed job w w' := by
  rcases retryFailed_cases ends with ⟨spent, -, rfl⟩ | ⟨allowed, now, reads, undated, -⟩ |
    ⟨allowed, now, w₁, scheduledFor, runId, w₂, r, reads, dated, draws, creates, -⟩
  · exact .exhausted spent rfl rfl
  · exact .undated now allowed (lastReading_step reads) undated reads.utcNow.2 (slotRecord_utcNow reads)
  · obtain ⟨-, same₁⟩ := reads.utcNow
    obtain ⟨fresh, -, same₂⟩ := draws.newUuid
    have record₂ : slotRecord w₂ = slotRecord w := (slotRecord_step draws).trans (slotRecord_utcNow reads)
    have record' := slotRecord_step creates
    have reading : lastReading w' = some now :=
      (lastReading_step creates).trans ((lastReading_step draws).trans (lastReading_step reads))
    rcases creates.store with ⟨e, refused, rfl, kept⟩ | ⟨created, -⟩
    · exact .lost allowed (by rw [show faults.createRun = some e from refused]; rfl) (kept.trans (same₂.trans same₁))
        (record'.trans (by rw [record₂]; rfl))
    · obtain ⟨rfl, after⟩ := creates.createRun created
      rw [World.run_congr same₁] at fresh
      exact .created runId now scheduledFor reading dated created fresh (after.trans (by rw [same₂, same₁]))
        (record'.trans record₂)

theorem finalizeFailedRun_finalized {old : Run} {status : RunStatus} {err : String} {logs : Option CapturedLogs}
    (stored : w.run run.runId = some old)
    (ends : Ends (.failing faults.refuses) (finalizeFailedRun run job status err logs) w out w') :
    Finalized faults run job err w w' := by
  unfold finalizeFailedRun at ends
  split at ends
  · rename_i panics
    obtain ⟨-, rfl⟩ := ends
    exact .panicked panics rfl rfl
  · rename_i message safe
    obtain ⟨now, w₁, reads, r, w₂, updates, rest⟩ := ends
    obtain ⟨-, same⟩ := reads.utcNow
    have record := slotRecord_utcNow reads
    generalize isFailed : failedRun run status message logs now = failed at updates rest
    have ids : failed.runId = run.runId := by rw [← isFailed]; cases status <;> cases logs <;> rfl
    have attempt : failed.attempt = run.attempt := by rw [← isFailed]; cases status <;> cases logs <;> rfl
    have jobs : failed.jobId = run.jobId := by rw [← isFailed]; cases status <;> cases logs <;> rfl
    have closed : failed.Failed := by
      rw [← isFailed]
      cases status <;> cases logs <;> first | exact .inl rfl | exact .inr rfl
    have isFinish : faults.refuses (.updateRun failed) = faults.finishRun := if_neg closed.not_running
    have found : w₁.run failed.runId = some old := by rw [World.run_congr same, ids, stored]
    rcases updates_or_fails updates found with ⟨e, refused, rfl, kept, record₂⟩ | ⟨accepted, rfl, after, record₂⟩
    · obtain ⟨-, rfl⟩ := rest
      exact .unstored (by rw [← isFinish, refused]; rfl) (kept.trans same) (by rw [record₂, record])
    · rw [isFinish] at accepted
      rw [same] at after
      rw [record] at record₂
      cases retryFailed_decided rest with
      | exhausted spent same' record' =>
        rw [attempt] at spent
        exact .exhausted failed spent accepted ids closed (same'.trans after) (record'.trans record₂)
      | lost allowed refused same' record' =>
        rw [attempt] at allowed
        exact .lost failed allowed accepted refused ids closed (same'.trans after) (by rw [record', record₂])
      | undated now allowed reading undated same' record' =>
        rw [attempt] at allowed undated
        exact .undated failed now allowed accepted reading undated ids closed (same'.trans after) (record'.trans record₂)
      | created runId now scheduledFor reading dated created fresh after' record' =>
        rw [attempt] at dated
        have new : w.run runId = none := by
          rw [World.run_setRun after] at fresh
          split at fresh
          · cases fresh
          · exact fresh
        refine .retried failed _ now (by rw [safe]; rfl) accepted reading (by rw [dated]; rfl) created ids closed new ?_ rfl ?_
          (by rw [after', after]) (record'.trans record₂)
        · rw [← jobs]
          rfl
        · rw [← attempt]
          rfl

end Slot

/-! ## When the failures are tolerated -/

section Tolerated

variable {faults : SlotFaults} {run : Run} {s : State} {script : Option JoinOutcome} {now : DateTime}
  {job : Job}

theorem Starts.unique {other : Job} (starts : Starts faults run s job) (again : Starts faults run s other) : other = job := by
  obtain ⟨jobId, isJob, stored⟩ := starts.stored
  obtain ⟨jobId', isJob', stored'⟩ := again.stored
  rw [isJob] at isJob'
  obtain rfl := Option.some.inj isJob'
  rw [stored] at stored'
  exact (Option.some.inj stored').symm

theorem tolerated_unstarted (unstarted : ∀ job, ¬ Starts faults run s job) :
    Tolerated faults run s script now ↔
      (run.jobId.isSome = true → faults.getJob.isSome = true → faults.finishRun.isSome = true) := by
  constructor
  · exact Tolerated.lookup
  · exact fun lookup =>
      ⟨lookup, fun job starts => absurd starts (unstarted job), fun job _ starts => absurd starts (unstarted job)⟩

theorem tolerated_started {err : String} (starts : Starts faults run s job) (text : failureText job script = some err) :
    Tolerated faults run s script now ↔ (script = some .cancelled → faults.finishRun.isSome = true) ∧
      (endedInFailure script = true → job.retryPolicy.shouldRetry run.attempt = true →
        (safeMessage err).isSome = true ∧ faults.finishRun = none ∧
          (retryTime job.retryPolicy run.attempt now).isSome = true ∧ faults.createRun = none) := by
  constructor
  · exact fun tolerated => ⟨tolerated.cancelled job starts, fun fails => tolerated.retry job err starts fails text⟩
  · rintro ⟨cancelled, retry⟩
    refine ⟨fun _ failed => ?_, fun _ _ => cancelled, fun other err' again fails text' => ?_⟩
    · rw [starts.read] at failed
      cases failed
    · obtain rfl := starts.unique again
      rw [text] at text'
      obtain rfl := Option.some.inj text'
      exact retry fails

/-- A script fails for one of the real reasons, or its task is cancelled. -/
theorem failed_or_cancelled {err : String} (text : failureText job script = some err) :
    endedInFailure script = true ∨ script = some .cancelled := by
  cases script with
  | none => exact .inl rfl
  | some ended =>
    cases ended with
    | finished outcome =>
      left
      simp only [failureText, statusResult, JoinOutcome.toOutcome] at text
      simp only [endedInFailure]
      split
      · rename_i isOk
        rw [isOk] at text
        cases text
      · rfl
    | panicked => exact .inl rfl
    | cancelled => exact .inr rfl

theorem not_failed_of_success (text : failureText job script = none) : endedInFailure script = false := by
  cases script with
  | none => cases text
  | some ended =>
    cases ended with
    | finished outcome =>
      simp only [failureText, statusResult, JoinOutcome.toOutcome] at text
      simp only [endedInFailure]
      split
      · rfl
      · rename_i isError
        rw [isError] at text
        cases text
    | panicked => cases text
    | cancelled => cases text

/-- The text of a cancelled task can be stored. -/
theorem cancelled_safe {err : String} (text : failureText job (some .cancelled) = some err) :
    (safeMessage err).isSome = true := by
  cases text
  decide +kernel

end Tolerated

/-! ## What the run ends as -/

section Ends

variable {faults : SlotFaults} {run row : Run} {s : State} {w w' : World}

/-- A run that keeps its lease has not been failed. -/
theorem FailsForReason.of_leased {expiry : DateTime} (kept : w'.run run.runId = some row)
    (active : Store.leased row = true) (lease : row.claimLeaseUntil = some expiry)
    (retries : ∀ jobId job ended, run.jobId = some jobId → (World.fresh s).job jobId = some job →
      (slotRecord w').scriptEnd = some ended → endedInFailure ended = true →
      job.retryPolicy.shouldRetry run.attempt = true → FollowedByRetry run s w') : FailsForReason run s w' := by
  have open_ : row.status.isTerminal = false := by
    rcases Store.status_of_leased active with claimed | running
    · rw [claimed]
      rfl
    · rw [running]
      rfl
  refine ⟨fun other stored failed => ?_, fun _ => ⟨row, kept, open_, expiry, lease, fun now passed => ?_⟩, retries⟩
  · rw [kept] at stored
    obtain rfl := Option.some.inj stored
    rw [failed.terminal] at open_
    cases open_
  · exact reclaimed_queued active lease passed

/-- A run that is over, for a real reason and without a failed call. -/
theorem FailsForReason.of_terminal (reason : run.jobId = none ∨ (slotRecord w').jobMissing = true ∨
      ∃ ended, (slotRecord w').scriptEnd = some ended ∧ endedInFailure ended = true)
    (quiet : (slotRecord w').storeFailed = false)
    (retries : ∀ jobId job ended, run.jobId = some jobId → (World.fresh s).job jobId = some job →
      (slotRecord w').scriptEnd = some ended → endedInFailure ended = true →
      job.retryPolicy.shouldRetry run.attempt = true → FollowedByRetry run s w') : FailsForReason run s w' := by
  refine ⟨fun _ _ _ => reason, fun failed => ?_, retries⟩
  rw [quiet] at failed
  cases failed

/-- A failed call does not go with a finished run. -/
theorem FailsForReason.quiet_of_terminal (holds : FailsForReason run s w') (stored : w'.run run.runId = some row)
    (terminal : row.status.isTerminal = true) : (slotRecord w').storeFailed = false := by
  by_contra failed
  rw [Bool.not_eq_false] at failed
  obtain ⟨other, stored', open_, -⟩ := holds.errors failed
  rw [stored] at stored'
  obtain rfl := Option.some.inj stored'
  rw [terminal] at open_
  cases open_

/-- Where no run appears there is no retry. -/
theorem not_followed (claimed : (World.fresh s).run run.runId = some run)
    (rows : ∀ id, id ≠ run.runId → w'.run id = (World.fresh s).run id) : ¬ FollowedByRetry run s w' := by
  rintro ⟨retry, new, stored, -⟩
  by_cases own : retry.runId = run.runId
  · rw [own, claimed] at new
    cases new
  · rw [rows _ own, new] at stored
    cases stored

/-- A run that is failed without being started. -/
theorem unstarted_iff {new : Run} (finished : Finished faults new w w') (claims : JustClaimed run s.store)
    (same : w.store = s.store) (ids : new.runId = run.runId) (failed : new.status = .failed)
    (noScript : (slotRecord w).scriptEnd = none) :
    FailsForReason run s w' ↔ faults.finishRun.isSome = true ∨
      ((slotRecord w).storeFailed = false ∧ (run.jobId = none ∨ (slotRecord w).jobMissing = true)) := by
  obtain ⟨stored, claimed, expiry, lease⟩ := claims.cases
  have noRetry (record : (slotRecord w').scriptEnd = (slotRecord w).scriptEnd) (ended : Option JoinOutcome) :
      (slotRecord w').scriptEnd ≠ some ended := by
    rw [record, noScript]
    rintro ⟨⟩
  cases finished with
  | unstored refused kept record =>
    have kept' : w'.run run.runId = some run := by
      rw [World.run, kept, same]
      exact stored
    refine iff_of_true ?_ (.inl refused)
    exact .of_leased kept' (by simp [Store.leased, claimed]) lease
      fun _ _ ended _ _ isEnd => absurd isEnd (noRetry (by rw [record]) ended)
  | stored accepted after record =>
    have closed : w'.run run.runId = some new := by rw [World.run_setRun after, if_pos ids]
    rw [accepted]
    constructor
    · intro holds
      refine .inr ⟨?_, ?_⟩
      · rw [← record]
        exact holds.quiet_of_terminal closed (by rw [failed]; rfl)
      · rcases holds.reasons new closed (.inl failed) with noJob | missing | ⟨ended, isEnd, -⟩
        · exact .inl noJob
        · rw [record] at missing
          exact .inr missing
        · exact absurd isEnd (noRetry (by rw [record]) ended)
    · rintro (refused | ⟨quiet, reason⟩)
      · cases refused
      · refine .of_terminal ?_ (by rw [record, quiet]) fun _ _ ended _ _ isEnd =>
          absurd isEnd (noRetry (by rw [record]) ended)
        rw [record]
        exact reason.imp id .inl

end Ends

section Started

variable {faults : SlotFaults} {run started : Run} {s : State} {w w' : World} {job : Job} {script : Option JoinOutcome}
  {now : DateTime}

/-- A run that keeps its lease after a failed script lacks its retry. -/
theorem leased_iff {expiry : DateTime} (starts : Starts faults run s job)
    (stored : (World.fresh s).run run.runId = some run)
    (kept : ∀ id, w'.run id = if run.runId = id then some started else (World.fresh s).run id)
    (active : Store.leased started = true) (lease : started.claimLeaseUntil = some expiry)
    (record : (slotRecord w').scriptEnd = some script) :
    FailsForReason run s w' ↔ ¬ (endedInFailure script = true ∧ job.retryPolicy.shouldRetry run.attempt = true) := by
  have unfollowed : ¬ FollowedByRetry run s w' := not_followed stored fun id other => by rw [kept, if_neg other.symm]
  constructor
  · rintro holds ⟨fails, allowed⟩
    obtain ⟨jobId, isJob, hasJob⟩ := starts.stored
    exact unfollowed (holds.retries jobId job script isJob hasJob record fails allowed)
  · intro unfailed
    refine .of_leased (by rw [kept, if_pos rfl]) active lease fun jobId other ended isJob hasJob isEnd fails allowed => ?_
    obtain rfl := starts.unique ⟨⟨jobId, isJob, hasJob⟩, starts.read, starts.started⟩
    rw [record] at isEnd
    obtain rfl := Option.some.inj isEnd
    exact absurd ⟨fails, allowed⟩ unfailed

/-- A run that is failed after its script must have been failed for it. -/
theorem FailsForReason.failedEnd {failed : Run} (holds : FailsForReason run s w') (starts : Starts faults run s job)
    (own : w'.run run.runId = some failed) (closed : failed.Failed)
    (record : slotRecord w' = ⟨false, false, some script⟩) : endedInFailure script = true := by
  obtain ⟨jobId, isJob, -⟩ := starts.stored
  rcases holds.reasons failed own closed with noJob | missing | ⟨ended, isEnd, fails⟩
  · rw [isJob] at noJob
    cases noJob
  · rw [record] at missing
    cases missing
  · rw [record] at isEnd
    obtain rfl := Option.some.inj isEnd
    exact fails

/-- A run that is failed and has the retry it may have. -/
theorem ended_iff {failed : Run} (starts : Starts faults run s job) (own : w'.run run.runId = some failed)
    (closed : failed.Failed) (record : slotRecord w' = ⟨false, false, some script⟩)
    (retried : job.retryPolicy.shouldRetry run.attempt = true → FollowedByRetry run s w') :
    FailsForReason run s w' ↔ endedInFailure script = true := by
  constructor
  · exact fun holds => holds.failedEnd starts own closed record
  · intro fails
    refine .of_terminal (.inr (.inr ⟨script, by rw [record], fails⟩)) (by rw [record])
      fun jobId other ended isJob hasJob isEnd _ allowed => ?_
    obtain rfl := starts.unique ⟨⟨jobId, isJob, hasJob⟩, starts.read, starts.started⟩
    exact retried allowed

/-- A run whose failure and retry are stored. -/
theorem followed_by_retry {failed retry : Run} (starts : Starts faults run s job)
    (before : ∀ id, w.run id = if run.runId = id then some started else (World.fresh s).run id)
    (isFailed : failed.runId = run.runId) (new : w.run retry.runId = none)
    (isJob : retry.jobId = some (run.jobId.getD "")) (queued : retry.status = .queued)
    (attempt : retry.attempt = wrapI32 (run.attempt + 1))
    (after : w'.store = (w.store.setRun failed).setRun retry) :
    w'.run run.runId = some failed ∧ FollowedByRetry run s w' := by
  have apart : run.runId ≠ retry.runId := by
    intro same
    rw [before, if_pos same] at new
    cases new
  have rows (id : String) : w'.run id = if retry.runId = id then some retry else if run.runId = id then some failed else
      w.run id := by
    rw [World.run, after, Store.lookup_setRun, Store.lookup_setRun, isFailed]
    rfl
  rw [before, if_neg apart] at new
  obtain ⟨jobId, hasId, -⟩ := starts.stored
  refine ⟨by rw [rows, if_neg apart.symm, if_pos rfl], retry, new, by rw [rows, if_pos rfl], ?_, queued, attempt⟩
  rw [isJob, hasId]
  rfl

/-- A run whose script fails. -/
theorem failed_iff {err : String} {copy : Run} {expiry : DateTime} (starts : Starts faults run s job)
    (stored : (World.fresh s).run run.runId = some run) (text : failureText job script = some err)
    (finalized : Finalized faults copy job err w w')
    (before : ∀ id, w.run id = if run.runId = id then some started else (World.fresh s).run id)
    (record : slotRecord w = ⟨false, false, some script⟩) (active : Store.leased started = true)
    (lease : started.claimLeaseUntil = some expiry) (sameId : copy.runId = run.runId) (sameJob : copy.jobId = run.jobId)
    (sameAttempt : copy.attempt = run.attempt) (clocked : ∀ reading, lastReading w' = some reading → reading = now) :
    FailsForReason run s w' ↔ Tolerated faults run s script now := by
  rw [tolerated_started starts text]
  have fails_of (accepted : faults.finishRun = none)
      (cancelled : script = some .cancelled → faults.finishRun.isSome = true) : endedInFailure script = true := by
    rcases failed_or_cancelled text with fails | isCancelled
    · exact fails
    · have refused := cancelled isCancelled
      rw [accepted] at refused
      cases refused
  have kept (same : w'.store = w.store) (id : String) :
      w'.run id = if run.runId = id then some started else (World.fresh s).run id := by
    rw [World.run_congr same, before]
  cases finalized with
  | panicked panics same record' =>
    rw [leased_iff starts stored (kept same) active lease (by rw [record', record])]
    constructor
    · refine fun unfailed => ⟨?_, fun fails allowed => absurd ⟨fails, allowed⟩ unfailed⟩
      rintro rfl
      have safe := cancelled_safe text
      rw [panics] at safe
      cases safe
    · rintro tolerated ⟨fails, allowed⟩
      have safe := (tolerated.2 fails allowed).1
      rw [panics] at safe
      cases safe
  | unstored refused same record' =>
    rw [leased_iff starts stored (kept same) active lease (by rw [record', record])]
    constructor
    · exact fun unfailed => ⟨fun _ => refused, fun fails allowed => absurd ⟨fails, allowed⟩ unfailed⟩
    · rintro tolerated ⟨fails, allowed⟩
      rw [(tolerated.2 fails allowed).2.1] at refused
      cases refused
  | exhausted failed spent accepted isFailed closed after record' =>
    rw [sameAttempt] at spent
    have refused (allowed : job.retryPolicy.shouldRetry run.attempt = true) : False := by
      rw [spent] at allowed
      cases allowed
    rw [ended_iff starts (by rw [World.run_setRun after, if_pos (isFailed.trans sameId)]) closed (by rw [record', record])
      fun allowed => (refused allowed).elim]
    constructor
    · refine fun fails => ⟨?_, fun _ allowed => (refused allowed).elim⟩
      rintro rfl
      cases fails
    · exact fun tolerated => fails_of accepted tolerated.1
  | lost failed allowed accepted refused isFailed closed after record' =>
    have own : w'.run run.runId = some failed := by rw [World.run_setRun after, if_pos (isFailed.trans sameId)]
    refine iff_of_false (fun holds => ?_) (fun tolerated => ?_)
    · have quiet := holds.quiet_of_terminal own closed.terminal
      rw [record'] at quiet
      cases quiet
    · rw [sameAttempt] at allowed
      rw [(tolerated.2 (fails_of accepted tolerated.1) allowed).2.2.2] at refused
      cases refused
  | undated failed reading allowed accepted isReading undated isFailed closed after record' =>
    have own : w'.run run.runId = some failed := by rw [World.run_setRun after, if_pos (isFailed.trans sameId)]
    obtain rfl := clocked reading isReading
    rw [sameAttempt] at allowed undated
    have unfollowed : ¬ FollowedByRetry run s w' := not_followed stored fun id other => by
      rw [World.run_setRun after, if_neg (by rw [isFailed, sameId]; exact other.symm), before, if_neg other.symm]
    refine iff_of_false (fun holds => ?_) (fun tolerated => ?_)
    · obtain ⟨jobId, isJob, hasJob⟩ := starts.stored
      have fails : endedInFailure script = true := holds.failedEnd starts own closed (record'.trans record)
      exact unfollowed (holds.retries jobId job script isJob hasJob (by rw [record', record]) fails allowed)
    · have dated := (tolerated.2 (fails_of accepted tolerated.1) allowed).2.2.1
      rw [undated] at dated
      cases dated
  | retried failed retry reading safe accepted isReading dated created isFailed closed new isJob queued attempt after record' =>
    rw [sameJob] at isJob
    rw [sameAttempt] at attempt dated
    obtain rfl := clocked reading isReading
    obtain ⟨own, followed⟩ := followed_by_retry starts before (isFailed.trans sameId) new isJob queued attempt after
    rw [ended_iff starts own closed (by rw [record', record]) fun _ => followed]
    constructor
    · refine fun fails => ⟨?_, fun _ _ => ⟨safe, accepted, dated, created⟩⟩
      rintro rfl
      cases fails
    · exact fun tolerated => fails_of accepted tolerated.1

theorem Finished.scriptEnd {new : Run} (finished : Finished faults new w w') :
    (slotRecord w').scriptEnd = (slotRecord w).scriptEnd := by
  cases finished with
  | unstored _ _ record | stored _ _ record => rw [record]

theorem Finalized.scriptEnd {copy : Run} {err : String} (finalized : Finalized faults copy job err w w') :
    (slotRecord w').scriptEnd = (slotRecord w).scriptEnd := by
  cases finalized <;> rename_i record <;> rw [record]

/-- A run whose script succeeds. -/
theorem succeeded_iff {new : Run} {expiry : DateTime} (starts : Starts faults run s job)
    (text : failureText job script = none) (finished : Finished faults new w w')
    (before : ∀ id, w.run id = if run.runId = id then some started else (World.fresh s).run id)
    (record : slotRecord w = ⟨false, false, some script⟩) (active : Store.leased started = true)
    (lease : started.claimLeaseUntil = some expiry) (ids : new.runId = run.runId) (success : new.status = .success) :
    FailsForReason run s w' ↔ Tolerated faults run s script now := by
  have unfailed := not_failed_of_success text
  have tolerated : Tolerated faults run s script now := by
    refine ⟨fun _ failed => ?_, fun other again isCancelled => ?_, fun _ _ _ fails => ?_⟩
    · rw [starts.read] at failed
      cases failed
    · rw [isCancelled] at text
      cases text
    · rw [unfailed] at fails
      cases fails
  refine iff_of_true ?_ tolerated
  have noRetry (ended : Option JoinOutcome) (isEnd : (slotRecord w').scriptEnd = some ended)
      (fails : endedInFailure ended = true) : False := by
    rw [finished.scriptEnd, record] at isEnd
    obtain rfl := Option.some.inj isEnd
    rw [unfailed] at fails
    cases fails
  cases finished with
  | unstored refused same record' =>
    have own : w'.run run.runId = some started := by rw [World.run_congr same, before, if_pos rfl]
    exact .of_leased own active lease fun _ _ ended _ _ isEnd fails _ => (noRetry ended isEnd fails).elim
  | stored accepted after record' =>
    have own : w'.run run.runId = some new := by rw [World.run_setRun after, if_pos ids]
    refine ⟨fun row stored' failed => ?_, fun failed => ?_, fun _ _ ended _ _ isEnd fails _ =>
      (noRetry ended isEnd fails).elim⟩
    · rw [own] at stored'
      obtain rfl := Option.some.inj stored'
      rcases failed with failed | timeout
      · rw [success] at failed
        cases failed
      · rw [success] at timeout
        cases timeout
    · rw [record', record] at failed
      cases failed

/-- A run that is stored as running. -/
theorem executeRun_iff {at' : DateTime} {out : Option Unit} (starts : Starts faults run s job)
    (claims : JustClaimed run s.store) (store : w.store = s.store.setRun (run.start at'))
    (record : slotRecord w = ⟨false, false, none⟩)
    (scripted : ∀ ended, (slotRecord w').scriptEnd = some ended → ended = script)
    (clocked : ∀ reading, lastReading w' = some reading → reading = now)
    (ends : Ends (.failing faults.refuses) (executeRun (run.start at') job) w out w') :
    FailsForReason run s w' ↔ Tolerated faults run s script now := by
  obtain ⟨stored, -, expiry, lease⟩ := claims.cases
  obtain ⟨begun, w₁, reads, ended, w₂, executes, done, w₃, reads₂, rest⟩ := ends
  have same : w₃.store = w.store :=
    reads₂.utcNow.2.trans ((executes.other (by rintro c ⟨⟩)).trans reads.utcNow.2)
  have record₃ : slotRecord w₃ = ⟨false, false, some ended⟩ := by
    rw [slotRecord_utcNow reads₂, slotRecord_step executes, slotRecord_utcNow reads, record]
    rfl
  have before (id : String) : w₃.run id = if run.runId = id then some (run.start at') else (World.fresh s).run id := by
    rw [World.run, same, store, Store.lookup_setRun]
    rfl
  dsimp only [Prog.bind] at rest
  cases result : statusResult ((job.timeoutMs.filter (0 < ·)).getD 0) ended with
  | mk status logs =>
    rw [result] at rest
    cases status with
    | ok _ =>
      obtain ⟨now, w₄, reads₃, r, w₅, updates, -, rfl⟩ := rest
      have same₃ := reads₃.utcNow.2
      have finished := finished_of_update updates
        (by rw [World.run_congr same₃]; exact (before run.runId).trans (if_pos rfl)) (by rintro ⟨⟩)
      have record₄ : slotRecord w₄ = ⟨false, false, some ended⟩ := (slotRecord_utcNow reads₃).trans record₃
      obtain rfl := scripted ended (by rw [finished.scriptEnd, record₄])
      exact succeeded_iff starts (by rw [failureText, result]) finished
        (fun id => (World.run_congr same₃ id).trans (before id)) record₄ rfl lease rfl rfl
    | error failure =>
      obtain ⟨status, err⟩ := failure
      replace rest : Ends (.failing faults.refuses) (finalizeFailedRun
        { run.start at' with durationMs := some (numMilliseconds (done - begun)) } job status err (some logs)) w₃ out w' := rest
      have running : w₃.run { run.start at' with durationMs := some (numMilliseconds (done - begun)) }.runId =
        some (run.start at') := (before run.runId).trans (if_pos rfl)
      have finalized := finalizeFailedRun_finalized running rest
      obtain rfl := scripted ended (by rw [finalized.scriptEnd, record₃])
      exact failed_iff starts stored (by rw [failureText, result]) finalized before record₃ rfl lease rfl rfl rfl clocked

end Started

/-- **A run is failed only for a real reason**, exactly when the failures of the store are tolerated: `get_job` fails
only together with the write that follows it, the failure of a cancelled script is not stored, and a failed
script that may be retried has a text that can be redacted, has a retry whose time can be represented, and meets no
failing call. The script ends with `script`, and the last time the slot reads the clock, which is where it decides on the
retry, it is `now`. -/
theorem fails_for_reason_iff {faults : SlotFaults} {run : Run} {s : State} {script : Option JoinOutcome} {now : DateTime}
    {out : Option Unit} {w' : World} (claims : JustClaimed run s.store)
    (ends : Ends (.failing faults.refuses) (workClaimed run) (.fresh s) out w')
    (scripted : ∀ ended, (slotRecord w').scriptEnd = some ended → ended = script)
    (clocked : ∀ reading, lastReading w' = some reading → reading = now) :
    FailsForReason run s w' ↔ Tolerated faults run s script now := by
  obtain ⟨stored, claimed, expiry, lease⟩ := claims.cases
  replace stored : (World.fresh s).run run.runId = some run := stored
  unfold workClaimed at ends
  cases isJob : run.jobId with
  | none =>
    rw [isJob] at ends
    obtain ⟨at', finished⟩ := failUnstarted_finished stored ends
    have unstarted (job : Job) : ¬ Starts faults run s job := by
      rintro ⟨⟨jobId, hasJob, -⟩, -⟩
      rw [isJob] at hasJob
      cases hasJob
    rw [unstarted_iff finished claims rfl rfl rfl rfl, tolerated_unstarted unstarted, isJob]
    exact iff_of_true (.inr ⟨rfl, .inl rfl⟩) (by rintro ⟨⟩)
  | some jobId =>
    rw [isJob] at ends
    obtain ⟨found, w₁, gets, rest⟩ := ends
    have record := slotRecord_step gets
    rcases gets.store with ⟨e, refused, rfl, same⟩ | ⟨accepted, -⟩
    · obtain ⟨at', finished⟩ := failUnstarted_finished ((World.run_congr same _).trans stored) rest
      have failed : faults.getJob = some e := refused
      have unstarted (job : Job) : ¬ Starts faults run s job := by
        rintro ⟨-, read, -⟩
        rw [failed] at read
        cases read
      rw [unstarted_iff finished claims same rfl rfl (by rw [record]; rfl), tolerated_unstarted unstarted, record, isJob,
        failed]
      constructor
      · rintro (unstored | ⟨quiet, -⟩) _ _
        · exact unstored
        · cases quiet
      · exact fun lookup => .inl (lookup rfl rfl)
    · obtain ⟨rfl, same⟩ := gets.getJob accepted
      have read : faults.getJob = none := accepted
      cases hasJob : (World.fresh s).job jobId with
      | none =>
        rw [hasJob] at rest record
        obtain ⟨at', finished⟩ := failUnstarted_finished ((World.run_congr same _).trans stored) rest
        have unstarted (job : Job) : ¬ Starts faults run s job := by
          rintro ⟨⟨jobId', isJob', hasJob'⟩, -⟩
          rw [isJob] at isJob'
          obtain rfl := Option.some.inj isJob'
          rw [hasJob] at hasJob'
          cases hasJob'
        rw [unstarted_iff finished claims same rfl rfl (by rw [record]; rfl), tolerated_unstarted unstarted, record, read]
        exact iff_of_true (.inr ⟨rfl, .inr rfl⟩) (by rintro - ⟨⟩)
      | some job =>
        rw [hasJob] at rest record
        obtain ⟨at', w₂, reads, r, w₃, updates, rest⟩ := rest
        have same₂ : w₂.store = (World.fresh s).store := reads.utcNow.2.trans same
        have record₂ : slotRecord w₂ = ⟨false, false, none⟩ := (slotRecord_utcNow reads).trans record
        rcases updates_or_fails updates ((World.run_congr same₂ _).trans stored) with
          ⟨e, refused, rfl, kept, record₃⟩ | ⟨started, rfl, after, record₃⟩
        · obtain ⟨-, rfl⟩ := rest
          have unstarted (job : Job) : ¬ Starts faults run s job := by
            rintro ⟨-, -, started⟩
            rw [show faults.startRun = some e from refused] at started
            cases started
          rw [tolerated_unstarted unstarted, read]
          refine iff_of_true ?_ (by rintro - ⟨⟩)
          have own : w'.run run.runId = some run := by
            rw [World.run_congr kept, World.run_congr same₂]
            exact stored
          refine .of_leased own (by simp [Store.leased, claimed]) lease fun _ _ ended _ _ isEnd => ?_
          rw [record₃, record₂] at isEnd
          cases isEnd
        · have starts : Starts faults run s job := ⟨⟨jobId, isJob, hasJob⟩, read, started⟩
          rw [same₂] at after
          exact executeRun_iff starts claims after (record₃.trans record₂) scripted clocked rest

/-- A queued run of a job that may be retried, -/
def queuedState : State := (State.single (retriedJob 1) 0).withRun (Run.forJob "r" "j" "noop" 0)

/-- and the run as a slot has claimed it. -/
def slotRun : Run := Store.claimedRun (Run.forJob "r" "j" "noop" 0) "w" 0 60

def slotState : State := { queuedState with store := (queuedState.store.claimNextQueued "general" "w" 0 60).2 }

theorem slotRun_claimed : JustClaimed slotRun slotState.store := ⟨queuedState.store, "general", "w", 0, 60, rfl⟩

theorem exists_worked (faults : SlotFaults) (oracles : List Oracle) (test : World → Bool)
    (played : (playAlone faults.refuses (workClaimed slotRun) (.fresh slotState) oracles).any
      (fun out => test out.2) = true) :
    ∃ out w', Ends (.failing faults.refuses) (workClaimed slotRun) (.fresh slotState) out w' ∧ test w' = true := by
  obtain ⟨out, ends, passes⟩ :=
    Ends.exists_of_play (.failing faults.refuses) le_refl (fun out => test out.2) played
  exact ⟨out, _, ends, passes⟩

def JoinOutcome.isPanic : JoinOutcome → Bool
  | .panicked => true
  | _ => false

/-- The script panics, nothing else fails, and the run is retried. -/
theorem fails_for_reason_retry : ∃ w', FailsForReason slotRun slotState w' ∧ (w'.run "r2").isSome = true := by
  obtain ⟨out, w', ends, passes⟩ := exists_worked ⟨none, none, none, none⟩ [.outcome (some .panicked), .uuid "r2"]
    (fun w' => (w'.run "r2").isSome && (slotRecord w').scriptEnd.any (·.any JoinOutcome.isPanic) &&
      lastReading w' == some 0) (by decide +kernel)
  rw [Bool.and_eq_true, Bool.and_eq_true, beq_iff_eq] at passes
  obtain ⟨⟨retried, panicked⟩, reading⟩ := passes
  have scripted (ended : Option JoinOutcome) (isEnd : (slotRecord w').scriptEnd = some ended) :
      ended = some .panicked := by
    have panics := panicked
    rw [isEnd, Option.any_some] at panics
    obtain ⟨how, rfl, isPanic⟩ := (Option.any_eq_true _ _).mp panics
    cases how with
    | panicked => rfl
    | _ => cases isPanic
  have clocked (other : DateTime) (isReading : lastReading w' = some other) : other = 0 :=
    Option.some.inj (isReading.symm.trans reading)
  refine ⟨w', (fails_for_reason_iff slotRun_claimed ends scripted clocked).mpr ?_, retried⟩
  refine ⟨by rintro - ⟨⟩, by rintro _ _ ⟨⟩, fun job err starts _ text _ => ⟨?_, rfl, ?_, rfl⟩⟩
  · cases text
    decide +kernel
  · obtain ⟨jobId, isJob, stored⟩ := starts.stored
    cases isJob
    cases stored
    decide +kernel

/-- The store cannot be read, and the run is failed because its job is missing. -/
theorem failed_by_unread_job : ∃ faults out w', JustClaimed slotRun slotState.store ∧
    Ends (.failing (SlotFaults.refuses faults)) (workClaimed slotRun) (.fresh slotState) out w' ∧
      ¬ FailsForReason slotRun slotState w' := by
  obtain ⟨out, w', ends, passes⟩ := exists_worked ⟨some (.internal "down"), none, none, none⟩ []
    (fun w' => (w'.run "r").any (·.status == .failed) && (slotRecord w').storeFailed) (by decide +kernel)
  rw [Bool.and_eq_true] at passes
  obtain ⟨row, stored, failed⟩ := (Option.any_eq_true _ _).mp passes.1
  refine ⟨_, out, w', slotRun_claimed, ends, fun holds => ?_⟩
  have closed : row.status.isTerminal = true := by
    rw [beq_iff_eq.mp failed]
    rfl
  have quiet := holds.quiet_of_terminal stored closed
  rw [passes.2] at quiet
  cases quiet

end Chronon
