import Chronon.System.Alone

/-!
# Accepted upserts

What an upsert that is accepted has stored, when nobody interferes and no call
fails: in process (`upsertJob_accepted`) and over HTTP (`httpUpsert_accepted`).
In both cases one row is written, and its fire time is computed anew only for a
cron job with an expression.
-/

namespace Chronon
set_option autoImplicit false

/-- `row` is written, no other job and no run changes. -/
structure Stores (row : Job) (w w' : World) : Prop where
  jobs : ∀ id, w'.job id = if row.jobId = id then some row else w.job id
  runs : w'.store.runs = w.store.runs

/-- What `CoordinatorService::upsert_job` stores for `job` between two instants. -/
structure Submitted (host : Host) (job row : Job) (start finish : DateTime) : Prop where
  copy : row = { CoordinatorService.withPartition host job with nextRunAt := row.nextRunAt, updatedAt := row.updatedAt }
  computed : ∀ expr, job.scheduleKind = .cron → job.cronExpr = some expr →
    ∃ t, start ≤ t ∧ t ≤ finish ∧ row.nextRunAt = cronNextRunAt host job t
  kept : (job.scheduleKind = .cron → job.cronExpr = none) → row.nextRunAt = job.nextRunAt

/-- `revision` records `row` under `number`. -/
structure Records (row : Job) (number : Int) (revision : JobRevision) : Prop where
  jobId : revision.jobId = row.jobId
  revisionNumber : revision.revisionNumber = number
  snapshotJson : revision.snapshotJson = row

/-- What `upsert_job` does with the stamped row, by what it finds stored: what it answers and leaves. -/
inductive Upserts (s : Store) (row : Job) : Result Unit → Store → Prop
  | mismatch {existing : Job} : s.jobs.lookup row.jobId = some existing → existing.scriptName ≠ row.scriptName →
      Upserts s row (.error (.scriptMismatch existing.scriptName row.scriptName row.jobName)) s
  | kept {existing : Job} {r : Result Unit} {s' : Store} : s.jobs.lookup row.jobId = some existing →
      existing.scriptName = row.scriptName → existing.currentRevision = row.currentRevision →
      s.writeJob row = (r, s') → Upserts s row r s'
  | revised {existing : Job} {revision : JobRevision} {r : Result Unit} {s' : Store} :
      s.jobs.lookup row.jobId = some existing → existing.scriptName = row.scriptName →
      existing.currentRevision ≠ row.currentRevision → Records row row.currentRevision revision →
      (s.appendRevision revision).2.writeJob row = (r, s') → Upserts s row r s'
  | taken {holder : Job} : s.jobs.lookup row.jobId = none → s.getJobByName row.jobName = .ok (some holder) →
      Upserts s row (.error (.jobNameTaken row.jobName holder.jobId)) s
  | first {revision : JobRevision} {r : Result Unit} {s' : Store} : s.jobs.lookup row.jobId = none →
      s.getJobByName row.jobName = .ok none → Records row 1 revision →
      (s.appendRevision revision).2.writeJob row = (r, s') → Upserts s row r s'

/-- The copy an HTTP upsert works with. -/
inductive Copied (req : Axum.UpsertJobRequest) (w : World) : Job → Prop
  | existing {row : Job} : w.store.getJobByName req.jobName = .ok (some row) → w.job row.jobId = some row →
      Copied req w (Axum.bumped req row)
  | new {jobId : String} {now : DateTime} : w.store.getJobByName req.jobName = .ok none → w.job jobId = none →
      Copied req w (Job.new jobId now req.jobName req.scriptName)

/-- The same with the identifier of a new job: the first one drawn. -/
inductive CopiedFrom (req : Axum.UpsertJobRequest) (w w' : World) : Job → Prop
  | existing {row : Job} : w.store.getJobByName req.jobName = .ok (some row) → w.job row.jobId = some row →
      CopiedFrom req w w' (Axum.bumped req row)
  | new {jobId : String} {now : DateTime} : w.store.getJobByName req.jobName = .ok none → w.job jobId = none →
      (w.drawnSince w').head? = some jobId → CopiedFrom req w w' (Job.new jobId now req.jobName req.scriptName)

theorem CopiedFrom.copied {req : Axum.UpsertJobRequest} {w w' : World} {copy : Job} (copied : CopiedFrom req w w' copy) :
    Copied req w copy := by
  cases copied with
  | existing found stored => exact .existing found stored
  | new free absent _ => exact .new free absent

/-- What the edits of a request leave as it was in the copy, and what they set. -/
structure Edited (req : Axum.UpsertJobRequest) (copy job : Job) : Prop where
  jobId : job.jobId = copy.jobId
  partitionHash : job.partitionHash = copy.partitionHash
  claimLeaseUntil : job.claimLeaseUntil = copy.claimLeaseUntil
  runOnceCompletedAt : job.runOnceCompletedAt = copy.runOnceCompletedAt
  nextRunAt : job.nextRunAt = copy.nextRunAt
  enabled : job.enabled = req.enabled
  scheduleKind : job.scheduleKind = req.scheduleKind
  cronExpr : job.cronExpr = req.cronExpr
  timezone : job.timezone = req.timezone
  paramsJson : job.paramsJson = req.params
  actorJson : job.actorJson = (Axum.given req.actorJson).getD copy.actorJson
  validated : ∀ actor, Axum.given req.actorJson = some actor → Axum.validateExternalActor actor = .ok ()

/-- The schedule of a job parses, where it has a cron expression. -/
def ScheduleParses (host : Host) (job : Job) : Prop :=
  ∀ expr, job.scheduleKind = .cron → job.cronExpr = some expr →
    ∃ cron, CronExpr.parse host.cron expr job.timezone = .ok cron

/-- An accepted HTTP upsert: the edited copy, the row submitted for it, and the way it was written. -/
structure Accepts (host : Host) (req : Axum.UpsertJobRequest) (copy job row : Job) (w w' : World) : Prop where
  edits : Axum.edited req copy = .ok job
  parses : ScheduleParses host job
  submitted : Submitted host job row w.clock w'.clock
  upserts : Upserts w.store row (.ok ()) w'.store

section Accepted

variable {host : Host} {w w₁ w' : World} {job row : Job}

theorem Submitted.since {start start' finish : DateTime} (submitted : Submitted host job row start finish)
    (later : start' ≤ start) : Submitted host job row start' finish := by
  refine ⟨submitted.copy, fun expr isCron isExpr => ?_, submitted.kept⟩
  obtain ⟨t, started, finished, next⟩ := submitted.computed expr isCron isExpr
  exact ⟨t, le_trans later started, finished, next⟩

theorem forward_calm (s t : DateTime) (passes : Surroundings.calm.passes s t) : s ≤ t := passes

theorem getJobByName_cases (s : Store) (name : String) :
    s.getJobByName name = .ok none ∨ ∃ row, s.getJobByName name = .ok (some row) ∧ s.jobs.lookup row.jobId = some row := by
  unfold Store.getJobByName Store.getJob
  split
  · rename_i jobId _
    cases stored : s.jobs.lookup jobId with
    | none => exact .inl rfl
    | some row => exact .inr ⟨row, rfl, by rw [Collections.Table.key_of_lookup stored, stored]⟩
  · exact .inl rfl

/-- The last call of an upsert. -/
theorem Ends.write {row : Job} {out : Option (Result Unit)} (ends : Ends .calm (call (.upsertJob row)) w out w') :
    ∃ r, out = some r ∧ w.store.writeJob row = (r, w'.store) := by
  obtain ⟨r, w₁, writes, rfl, rfl⟩ := ends
  exact ⟨r, rfl, writes.exec rfl⟩

/-- A revision is appended, then the row is written. -/
theorem Ends.reviseAndWrite {row : Job} {number : Int} {out : Option (Result Unit)}
    (ends : Ends .calm (do
      let revision ← CoordinatorService.newRevision row number
      match ← call (.appendRevision revision) with
      | .error e => return .error e
      | .ok () => call (.upsertJob row)) w out w') :
    ∃ revision r, out = some r ∧ Records row number revision ∧
      (w.store.appendRevision revision).2.writeJob row = (r, w'.store) := by
  obtain ⟨revisionId, w₁, draws, changedAt, w₂, reads, r, w₃, appends, rest⟩ := ends
  have before : w₂.store = w.store := reads.utcNow.2.trans draws.newUuid.2.2
  have ran := appends.exec rfl
  simp only [StoreCall.exec, Store.appendRevision, Prod.mk.injEq] at ran
  obtain ⟨rfl, after⟩ := ran
  obtain ⟨r, rfl, writes⟩ := Ends.write rest
  refine ⟨⟨revisionId, row.jobId, number, changedAt, row.actorJson, row⟩, r, rfl, ⟨rfl, rfl, rfl⟩, ?_⟩
  rw [← writes, ← after, ← before]
  rfl

/-- What `upsert_job` does once the schedule is computed. -/
theorem storeJob_upserts {r : Result Unit} (ends : Ends .calm (CoordinatorService.storeJob job) w (some r) w') :
    Upserts w.store { job with updatedAt := w.clock } r w'.store := by
  obtain ⟨updatedAt, w₁, reads, rest⟩ := ends
  obtain ⟨rfl, same₁⟩ := reads.utcNow
  dsimp only [Concurrent.Prog.bind] at rest
  obtain ⟨found, w₂, gets, rest⟩ := rest
  obtain ⟨rfl, same₂⟩ := gets.getJob rfl
  have same : w₂.store = w.store := same₂.trans same₁
  have rows : w₁.job job.jobId = w.store.jobs.lookup job.jobId := World.job_congr same₁ _
  cases stored : w₁.job job.jobId with
  | some existing =>
    rw [stored] at rest rows
    replace rest : Ends .calm (if existing.scriptName ≠ job.scriptName then _ else _ : Task (Result Unit)) w₂
      (some r) w' := rest
    split at rest
    · rename_i other
      obtain ⟨isError, rfl⟩ := rest
      cases isError
      rw [same]
      exact .mismatch rows.symm other
    · rename_i script
      split at rest
      · rename_i differs
        obtain ⟨revision, _, isAnswer, records, writes⟩ := Ends.reviseAndWrite rest
        cases isAnswer
        rw [same] at writes
        exact .revised rows.symm (not_not.mp script) differs records writes
      · rename_i unchanged
        obtain ⟨_, isAnswer, writes⟩ := Ends.write rest
        cases isAnswer
        rw [same] at writes
        exact .kept rows.symm (not_not.mp script) (not_not.mp unchanged) writes
  | none =>
    rw [stored] at rest rows
    obtain ⟨holder, w₃, names, rest⟩ := rest
    have same₃ : w₃.store = w.store := (names.reads rfl).trans same
    have ran := names.exec rfl
    simp only [StoreCall.exec, Prod.mk.injEq] at ran
    rw [same] at ran
    cases holder with
    | error e =>
      rcases getJobByName_cases w.store job.jobName with missing | ⟨row, held, -⟩
      · rw [missing] at ran
        cases ran.1
      · rw [held] at ran
        cases ran.1
    | ok holder =>
      cases holder with
      | some other =>
        obtain ⟨isError, rfl⟩ := rest
        cases isError
        rw [same₃]
        exact .taken rows.symm ran.1
      | none =>
        obtain ⟨revision, _, isAnswer, records, writes⟩ := Ends.reviseAndWrite rest
        cases isAnswer
        rw [same₃] at writes
        exact .first rows.symm ran.1 records writes

/-- An accepted row is written to the jobs as they were, whatever was recorded first. -/
theorem Upserts.written {s s' : Store} (upserts : Upserts s row (.ok ()) s') :
    ∃ t : Store, t.jobs = s.jobs ∧ t.jobsByName = s.jobsByName ∧ t.runs = s.runs ∧ t.writeJob row = (.ok (), s') := by
  cases upserts with
  | kept _ _ _ writes => exact ⟨s, rfl, rfl, rfl, writes⟩
  | revised _ _ _ _ writes => exact ⟨(s.appendRevision _).2, rfl, rfl, rfl, writes⟩
  | first _ _ _ writes => exact ⟨(s.appendRevision _).2, rfl, rfl, rfl, writes⟩

theorem Upserts.stores (upserts : Upserts w.store row (.ok ()) w'.store) : Stores row w w' := by
  obtain ⟨t, jobs, -, runs, writes⟩ := upserts.written
  rcases Store.writeJob_cases writes with ⟨⟨e, isError⟩, -⟩ | ⟨-, sameRuns, rows⟩
  · cases isError
  · refine ⟨fun id => ?_, sameRuns.trans runs⟩
    rw [World.job, rows id, jobs]
    rfl

/-- Only the partition is filled in. -/
theorem withPartition_fields (host : Host) (job : Job) :
    CoordinatorService.withPartition host job =
      { job with partitionHash := (CoordinatorService.withPartition host job).partitionHash } := by
  unfold CoordinatorService.withPartition
  split <;> rfl

/-- **`upsert_job`.** A schedule that does not parse is refused before anything is read; otherwise the job goes
through the checks against the store, with its partition, its fire time and its stamp. -/
theorem upsertJob_upserts {r : Result Unit} (ends : Ends .calm (CoordinatorService.upsertJob host job) w (some r) w') :
    (¬ ScheduleParses host job ∧ (∃ e, r = .error e) ∧ w'.store = w.store) ∨
      ∃ row, ScheduleParses host job ∧ Submitted host job row w.clock w'.clock ∧ Upserts w.store row r w'.store := by
  have parts := withPartition_fields host job
  have later := ends.later forward_calm
  unfold CoordinatorService.upsertJob at ends
  dsimp only at ends
  rw [parts] at ends
  split at ends
  · rename_i expr isCron isExpr
    dsimp only at isCron isExpr ends
    split at ends
    · rename_i e failed
      obtain ⟨isAnswer, rfl⟩ := ends
      cases isAnswer
      refine .inl ⟨fun parses => ?_, ⟨e, rfl⟩, rfl⟩
      obtain ⟨cron, parsed⟩ := parses expr isCron isExpr
      rw [failed] at parsed
      cases parsed
    · rename_i cron parsed
      obtain ⟨now, w₁, reads, ends⟩ := ends
      obtain ⟨rfl, same⟩ := reads.utcNow
      have upserts := storeJob_upserts ends
      rw [same] at upserts
      refine .inr ⟨_, fun expr' _ isExpr' => ?_, ⟨?_, fun _ _ _ => ⟨w.clock, le_refl _, later, ?_⟩, ?_⟩, upserts⟩
      · rw [isExpr] at isExpr'
        cases isExpr'
        exact ⟨cron, parsed⟩
      · rw [parts]
      · simp only [cronNextRunAt, isExpr, parsed]
      · intro unset
        rw [unset isCron] at isExpr
        cases isExpr
  · rename_i other
    refine .inr ⟨_, fun expr' isCron isExpr => (other expr' isCron isExpr).elim,
      ⟨?_, fun expr' isCron isExpr => (other expr' isCron isExpr).elim, ?_⟩, storeJob_upserts ends⟩
    · rw [parts]
    · exact fun _ => rfl

/-- **In process.** The job is stored as submitted, with its partition. -/
theorem upsertJob_accepted (ends : Ends .calm (CoordinatorService.upsertJob host job) w (some (.ok ())) w') :
    ∃ row, Stores row w w' ∧ Submitted host job row w.clock w'.clock := by
  obtain ⟨-, ⟨_, isError⟩, -⟩ | ⟨row, -, submitted, upserts⟩ := upsertJob_upserts ends
  · cases isError
  · exact ⟨row, upserts.stores, submitted⟩

theorem respondErr_status {α : Type} {status status' : Axum.StatusCode} {error : String} {response : Axum.ApiResponse α}
    (ends : Ends .calm (Axum.respondErr status error) w (some (status', response)) w') : status' = status := by
  unfold Axum.respondErr at ends
  split at ends
  · obtain ⟨isAnswer, -⟩ := ends
    cases isAnswer
    rfl
  · obtain ⟨isNone, -⟩ := ends
    cases isNone

theorem chrononStatus_ne_ok (e : ChrononError) : Axum.chrononStatus e ≠ .ok := by
  cases e <;> rintro ⟨⟩

theorem withActor_cases (req : Axum.UpsertJobRequest) (job : Job) :
    (∃ failure, Axum.withActor req job = .error failure ∧ failure.1 ≠ .ok) ∨
      (Axum.withActor req job = .ok { job with actorJson := (Axum.given req.actorJson).getD job.actorJson } ∧
        ∀ actor, Axum.given req.actorJson = some actor → Axum.validateExternalActor actor = .ok ()) := by
  unfold Axum.withActor
  cases Axum.given req.actorJson with
  | none => exact .inr ⟨rfl, by rintro _ ⟨⟩⟩
  | some actor =>
    cases valid : Axum.validateExternalActor actor with
    | error e => exact .inl ⟨(Axum.chrononStatus e, e.toText), by simp only [valid], chrononStatus_ne_ok e⟩
    | ok _ =>
      refine .inr ⟨by simp only [valid, Option.getD_some], ?_⟩
      rintro _ ⟨⟩
      exact valid

theorem withPool_cases (req : Axum.UpsertJobRequest) (job : Job) :
    (∃ failure, Axum.withPool req job = .error failure ∧ failure.1 ≠ .ok) ∨
      ∃ pool, Axum.withPool req job = .ok { job with pool } := by
  unfold Axum.withPool
  split
  · exact .inr ⟨job.pool, rfl⟩
  · split
    · exact .inr ⟨_, rfl⟩
    · exact .inl ⟨_, rfl, by rintro ⟨⟩⟩

/-- An edit is turned down with an error status, or it sets what the request says. -/
theorem edited_cases (req : Axum.UpsertJobRequest) (copy : Job) :
    (∃ failure, Axum.edited req copy = .error failure ∧ failure.1 ≠ .ok) ∨
      ∃ job, Axum.edited req copy = .ok job ∧ Edited req copy job := by
  simp only [Axum.edited, bind, Except.bind, pure, Except.pure]
  rcases withActor_cases req (Axum.withFields req copy) with ⟨failure, failed, status⟩ | ⟨acted, valid⟩
  · exact .inl ⟨failure, by rw [failed], status⟩
  · rw [acted]
    dsimp only
    rcases withPool_cases req (Axum.withPolicies req
      { Axum.withFields req copy with actorJson := (Axum.given req.actorJson).getD (Axum.withFields req copy).actorJson })
      with ⟨failure, failed, status⟩ | ⟨pool, pooled⟩
    · exact .inl ⟨failure, by rw [failed], status⟩
    · rw [pooled]
      refine .inr ⟨_, rfl, ?_⟩
      unfold Job.clampSecurityBounds
      simp only [Job.setRetryPolicy]
      split <;> exact ⟨rfl, rfl, rfl, rfl, rfl, rfl, rfl, rfl, rfl, rfl, rfl, valid⟩

theorem Edited.of_edits {req : Axum.UpsertJobRequest} {copy : Job} (edits : Axum.edited req copy = .ok job) :
    Edited req copy job := by
  rcases edited_cases req copy with ⟨_, failed, -⟩ | ⟨job', edits', edited⟩
  · rw [failed] at edits
    cases edits
  · rw [edits'] at edits
    cases edits
    exact edited

/-- Only an accepted job is answered with success. -/
theorem submit_accepted {response : Axum.ApiResponse Axum.JobResponse}
    (ends : Ends .calm (Axum.submit host job) w (some (.ok, response)) w') :
    ∃ row, ScheduleParses host job ∧ Submitted host job row w.clock w'.clock ∧ Upserts w.store row (.ok ()) w'.store ∧
      response = .okay (Axum.JobResponse.ofJob job) := by
  rcases Ends.bind ends with ⟨-, isNone⟩ | ⟨r, w₁, upserts, rest⟩
  · cases isNone
  · cases r with
    | error e => exact absurd (respondErr_status rest).symm (chrononStatus_ne_ok e)
    | ok _ =>
      obtain ⟨isAnswer, rfl⟩ := rest
      cases isAnswer
      obtain ⟨-, ⟨_, isError⟩, -⟩ | ⟨row, parses, submitted, stored⟩ := upsertJob_upserts upserts
      · cases isError
      · exact ⟨row, parses, submitted, stored, rfl⟩

theorem Submitted.jobId {start finish : DateTime} (submitted : Submitted host job row start finish) :
    row.jobId = job.jobId := by
  rw [submitted.copy, withPartition_fields]

/-- The schedule and the actor are stored as submitted. -/
theorem Submitted.fields {start finish : DateTime} (submitted : Submitted host job row start finish) :
    row.enabled = job.enabled ∧ row.scheduleKind = job.scheduleKind ∧ row.cronExpr = job.cronExpr ∧
      row.timezone = job.timezone ∧ row.actorJson = job.actorJson := by
  rw [submitted.copy, withPartition_fields]
  exact ⟨rfl, rfl, rfl, rfl, rfl⟩

theorem upsertCopy_accepted {req : Axum.UpsertJobRequest} {copy : Job} {response : Axum.ApiResponse Axum.JobResponse}
    (ends : Ends .calm (Axum.upsertCopy host req copy) w (some (.ok, response)) w') :
    ∃ job row, Accepts host req copy job row w w' ∧ ∃ data, response = .okay data ∧ data.jobId = row.jobId := by
  unfold Axum.upsertCopy at ends
  rcases edited_cases req copy with ⟨⟨status, message⟩, failed, notOk⟩ | ⟨job, edits, -⟩
  · rw [failed] at ends
    exact absurd (respondErr_status ends).symm notOk
  · rw [edits] at ends
    dsimp only at ends
    split at ends
    · rename_i expr isCron isExpr
      split at ends
      · rename_i cron parsed
        obtain ⟨now, w₁, reads, ends⟩ := ends
        obtain ⟨row, parses, submitted, upserts, data⟩ := submit_accepted ends
        rw [reads.utcNow.2] at upserts
        refine ⟨job, row, ⟨edits, parses, ⟨?_, (submitted.since reads.passes).computed, ?_⟩, upserts⟩, _, data,
          submitted.jobId.symm⟩
        · rw [submitted.copy, withPartition_fields, withPartition_fields host job]
          unfold CoordinatorService.withPartition
          dsimp only
          split <;> rfl
        · intro unset
          rw [unset isCron] at isExpr
          cases isExpr
      · exact absurd (respondErr_status ends) (by rintro ⟨⟩)
    · obtain ⟨row, parses, submitted, upserts, data⟩ := submit_accepted ends
      exact ⟨job, row, ⟨edits, parses, submitted, upserts⟩, _, data, submitted.jobId.symm⟩

/-- What the handler has read before it edits its copy. -/
theorem Accepts.since {req : Axum.UpsertJobRequest} {copy : Job} (accepts : Accepts host req copy job row w₁ w')
    (same : w₁.store = w.store) (later : w.clock ≤ w₁.clock) : Accepts host req copy job row w w' :=
  ⟨accepts.edits, accepts.parses, accepts.submitted.since later, same ▸ accepts.upserts⟩

/-- **Over HTTP, step by step.** The job of that name, or a new one under the first identifier drawn, is edited and
submitted. -/
theorem httpUpsert_accepts {req : Axum.UpsertJobRequest} {response : Axum.ApiResponse Axum.JobResponse}
    (ends : Ends .calm (Axum.upsertJob host req) w (some (.ok, response)) w') :
    host.registry.contains req.scriptName = true ∧ ∃ copy job row, CopiedFrom req w w' copy ∧
      Accepts host req copy job row w w' ∧ ∃ data, response = .okay data ∧ data.jobId = row.jobId := by
  unfold Axum.upsertJob at ends
  split at ends
  · rename_i registered
    refine ⟨registered, ?_⟩
    obtain ⟨found, w₁, names, rest⟩ := ends
    have ran := names.exec rfl
    simp only [StoreCall.exec, Prod.mk.injEq] at ran
    obtain ⟨isFound, same⟩ := ran
    rcases getJobByName_cases w.store req.jobName with missing | ⟨row, stored, key⟩
    · rw [missing] at isFound
      subst isFound
      obtain ⟨now, w₂, reads, jobId, w₃, draws, rest⟩ := rest
      have same₂ : w₂.store = w.store := reads.utcNow.2.trans same.symm
      obtain ⟨job, row, accepts, data⟩ := upsertCopy_accepted rest
      refine ⟨_, job, row, .new missing ?_ ?_, accepts.since (draws.newUuid.2.2.trans same₂) ?_, data⟩
      · rw [← World.job_congr same₂]
        exact draws.newUuid.2.1
      · have isLog : w₃.log = [⟨0, w₂.state, .newUuid, jobId⟩, ⟨0, w₁.state, .utcNow, now⟩,
            ⟨0, w.state, .store (.getJobByName req.jobName), .ok none⟩] ++ w.log := by
          rw [draws.log, reads.log, names.log]
          rfl
        exact head?_drawnSince isLog rfl rest
      · exact le_trans names.passes (le_trans reads.passes draws.passes)
    · rw [stored] at isFound
      subst isFound
      obtain ⟨job, row', accepts, data⟩ := upsertCopy_accepted rest
      exact ⟨_, job, row', .existing stored key, accepts.since same.symm names.passes, data⟩
  · exact absurd (respondErr_status ends) (by rintro ⟨⟩)

/-- **Over HTTP.** The copy is edited and submitted. -/
theorem httpUpsert_accepted {req : Axum.UpsertJobRequest} {response : Axum.ApiResponse Axum.JobResponse}
    (ends : Ends .calm (Axum.upsertJob host req) w (some (.ok, response)) w') :
    ∃ copy job row, Copied req w copy ∧ Edited req copy job ∧ Stores row w w' ∧
      Submitted host job row w.clock w'.clock ∧ ∃ data, response.data = some data ∧ data.jobId = row.jobId := by
  obtain ⟨-, copy, job, row, copied, accepts, data, rfl, isRow⟩ := httpUpsert_accepts ends
  exact ⟨copy, job, row, copied.copied, .of_edits accepts.edits, accepts.upserts.stores, accepts.submitted, data, rfl,
    isRow⟩

end Accepted

end Chronon
