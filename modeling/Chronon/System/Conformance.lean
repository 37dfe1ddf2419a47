import Chronon.System.Protocol

/-!
# The programs follow the protocol

One lemma for each program, from the phase it starts in to the phases it ends
in, and together `protocol_governs`.
-/

namespace Chronon
set_option autoImplicit false

open Concurrent

variable {host : Host}

/-- A call whose answer is not kept. -/
theorem Follows.silent {α : Type} {op : Op} {f : Ans op → Task α} {φ : Phase} {Q : α → Phase → Prop}
    (quiet : Silent op) (rest : ∀ r, Follows (Move host) (f r) φ Q) : Follows (Move host) (issue op >>= f) φ Q :=
  fun r => ⟨φ, .silent quiet, rest r⟩

/-- A call, answer by answer. -/
theorem Follows.issue {α : Type} {op : Op} {f : Ans op → Task α} {φ : Phase} {Q : α → Phase → Prop}
    (answers : ∀ r, ∃ φ', Move host φ op r φ' ∧ Follows (Move host) (f r) φ' Q) :
    Follows (Move host) (issue op >>= f) φ Q := answers

theorem Phase.ended_quiet : Phase.ended .quiet := ⟨rfl, fun _ found => by cases found⟩

theorem Phase.ended_ticked : Phase.ended .ticked := ⟨rfl, fun _ found => by cases found⟩

theorem Phase.ended_ordering : Phase.ended .ordering := ⟨rfl, fun _ found => by cases found⟩

theorem Phase.ended_listed (instanceId : String) (dueUntil : DateTime) :
    Phase.ended (.listed ⟨instanceId, dueUntil, []⟩) := ⟨rfl, fun _ found => by cases found; rfl⟩

theorem Phase.ended_editing (copy : Option Job) : Phase.ended (.editing copy) := ⟨rfl, fun _ found => by cases found⟩

theorem Phase.ended_writingJob (copy : Option Job) (job : Job) : Phase.ended (.writingJob copy job) :=
  ⟨rfl, fun _ found => by cases found⟩

theorem Phase.ended_copied (run : Run) (job : Option Job) : Phase.ended (.copied none run job) :=
  ⟨rfl, fun _ found => by cases found⟩

/-! ## A tick -/

theorem giveUp_follows (b : Batch) (k : TickClaim) :
    Follows (Move host) (giveUp k.jobId) (.releasing b k) fun _ φ => φ = .listed b :=
  fun _ => ⟨_, .release, rfl⟩

theorem skipDueJob_follows (b : Batch) (k : TickClaim) (job : Job) :
    Follows (Move host) (skipDueJob host job k.jobId k.now)
      (if job.scheduleKind = .runOnce then .skipMark b k job else .skipPersist b k job) fun _ φ => φ = .listed b := by
  have rest : Follows (Move host)
      (do let _ ← call (.persistPostTickJobState k.jobId (postTickNextRunAt host job k.now))
          let _ ← call (.releaseJobTickClaim k.jobId)
          return .ok false : Task (Result Bool)) (.skipPersist b k job) fun _ φ => φ = .listed b :=
    fun _ => ⟨_, .skipPersist, fun _ => ⟨_, .skipRelease, rfl⟩⟩
  unfold skipDueJob
  split
  · exact fun _ => ⟨_, .skipMark, rest⟩
  · exact rest

theorem createTickRun_follows (b : Batch) (k : TickClaim) (job : Job) :
    Follows (Move host) (createTickRun host b.instanceId k.jobId job k.now) (.drawing b k job)
      fun _ φ => φ = .listed b := by
  intro runId
  refine ⟨_, .draw, fun r => ?_⟩
  cases r with
  | error e =>
    refine ⟨_, .createFailed, ?_⟩
    split
    · exact fun _ => ⟨_, .silent trivial, fun _ => ⟨_, .undo, giveUp_follows b k⟩⟩
    · exact giveUp_follows b k
  | ok =>
    refine ⟨_, .create, ?_⟩
    split
    · exact fun _ => ⟨_, .silent trivial, fun _ => ⟨_, .mark, fun _ => ⟨_, .persist, rfl⟩⟩⟩
    · exact fun _ => ⟨_, .persist, rfl⟩

theorem enqueueCounted_follows (b : Batch) (k : TickClaim) (job : Job) (listing : Result (List Run)) :
    ∃ φ, Move host (.loaded b k job) (.store (.listRunsForJob k.jobId 10000)) listing φ ∧
      Follows (Move host) (enqueueCounted host b.instanceId k.jobId job k.now (activeCount listing)) φ
        fun _ φ => φ = .listed b := by
  unfold enqueueCounted
  by_cases full : activeCount listing ≥ job.concurrency
  · rw [if_pos full]
    exact ⟨_, .atLimit full, giveUp_follows b k⟩
  · rw [if_neg full]
    have room : activeCount listing < job.concurrency := lt_of_not_ge full
    cases timely : shouldEnqueueForMisfire (job.nextRunAt.getD k.now) k.now job.misfirePolicy with
    | false => exact ⟨_, .misfired room timely, skipDueJob_follows b k job⟩
    | true =>
      refine ⟨_, .admitted room timely, ?_⟩
      simp only [Bool.not_true, Bool.false_eq_true, if_false]
      split
      · intro r
        match r with
        | .ok true => exact ⟨_, .once, createTickRun_follows b k job⟩
        | .ok false => exact ⟨_, .onceRefused (by simp), giveUp_follows b k⟩
        | .error e => exact ⟨_, .onceRefused (by simp), giveUp_follows b k⟩
      · exact createTickRun_follows b k job

theorem enqueueClaimed_follows (b : Batch) (k : TickClaim) :
    Follows (Move host) (enqueueClaimed host b.instanceId k.jobId k.now) (.claimed b k) fun _ φ => φ = .listed b := by
  intro r
  match r with
  | .error e => exact ⟨_, .loadFailed, rfl⟩
  | .ok none => exact ⟨_, .loadMissing, giveUp_follows b k⟩
  | .ok (some job) =>
    refine ⟨_, .load, fun listing => ?_⟩
    cases listing with
    | error e => exact enqueueCounted_follows b k job (.error e)
    | ok runs => exact enqueueCounted_follows b k job (.ok runs)

theorem enqueueDueJob_follows {b : Batch} {jobId : String} {rest : List String} (next : b.ids = jobId :: rest) :
    Follows (Move host) (enqueueDueJob host b.instanceId jobId) (.listed b)
      fun _ φ => φ = .listed { b with ids := rest } := by
  intro now
  refine ⟨_, .openJob, fun uuid => ⟨_, .name, fun r => ?_⟩⟩
  match r with
  | .ok true =>
    exact ⟨_, .claim next, enqueueClaimed_follows { b with ids := rest }
      ⟨jobId, b.instanceId ++ ":" ++ uuid, now, jobClaimLeaseTtlSecs host.env⟩⟩
  | .ok false => exact ⟨_, .claimRefused next (by simp), rfl⟩
  | .error e => exact ⟨_, .claimRefused next (by simp), rfl⟩

theorem enqueueAll_follows (b : Batch) :
    Follows (Move host) (enqueueAll host b.instanceId b.ids) (.listed b) fun _ φ => φ = .listed { b with ids := [] } := by
  obtain ⟨instanceId, dueUntil, ids⟩ := b
  induction ids with
  | nil => rfl
  | cons jobId rest ih =>
    refine (enqueueDueJob_follows (b := ⟨instanceId, dueUntil, jobId :: rest⟩) rfl).bind ?_
    rintro _ _ rfl
    refine ih.bind ?_
    rintro _ _ rfl
    rfl

theorem runOneTick_follows (instanceId : String) (draining : Bool) :
    Follows (Move host) (runOneTick host instanceId draining) (.ticking instanceId) fun _ φ => φ.ended := by
  unfold runOneTick
  split
  · exact fun _ => ⟨_, .silent trivial, rfl, fun _ found => by cases found⟩
  · refine Follows.issue fun owned => ?_
    split
    · rename_i empty
      rw [List.isEmpty_iff] at empty
      subst empty
      exact ⟨_, .ownNone, fun _ => ⟨_, .silent trivial, Phase.ended_ticked⟩⟩
    · rename_i some_
      refine ⟨_, .own (by rwa [List.isEmpty_iff] at some_), ?_⟩
      refine Follows.issue fun now => ⟨_, .openTick, Follows.issue fun r => ?_⟩
      cases r with
      | error e => exact ⟨_, .listFailed, fun _ => ⟨_, .silent trivial, Phase.ended_ticked⟩⟩
      | ok ids =>
        refine ⟨_, .list, Follows.silent trivial fun next => ?_⟩
        split
        · rename_i empty
          rw [List.isEmpty_iff] at empty
          subst empty
          exact fun _ => ⟨_, .silent trivial, Phase.ended_listed _ _⟩
        · refine (enqueueAll_follows ⟨instanceId, _, ids⟩).bind ?_
          rintro _ _ rfl
          split <;> exact fun _ => ⟨_, .silent trivial, Phase.ended_listed _ _⟩

/-! ## Job operations -/

theorem newRevision_follows (copy : Option Job) (job : Job) (number : Int) :
    Follows (Move host) (CoordinatorService.newRevision job number) (.writingJob copy job)
      fun _ φ => φ = .writingJob copy job :=
  fun _ => ⟨_, .silent trivial, fun _ => ⟨_, .silent trivial, rfl⟩⟩

theorem appendRevision_follows (copy : Option Job) (job : Job) (revision : JobRevision) :
    Follows (Move host)
      (do match ← call (.appendRevision revision) with
          | .error e => return .error e
          | .ok () => call (.upsertJob job) : Task (Result Unit)) (.writingJob copy job) fun _ φ => φ.ended := by
  refine Follows.issue fun r => ⟨_, .silent trivial, ?_⟩
  cases r with
  | error e => exact Phase.ended_writingJob copy job
  | ok => exact fun _ => ⟨_, .write, Phase.ended_quiet⟩

theorem storeJob_follows {φ : Phase} (copy : Option Job) (job : Job)
    (stamps : ∀ t, Move host φ .utcNow t (.writingJob copy { job with updatedAt := t })) :
    Follows (Move host) (CoordinatorService.storeJob job) φ fun _ φ => φ.ended := by
  refine Follows.issue fun updatedAt => ⟨_, stamps updatedAt, Follows.issue fun r => ⟨_, .checkStored, ?_⟩⟩
  match r with
  | .error e => exact Phase.ended_writingJob copy _
  | .ok (some existing) =>
    simp only
    split
    · exact Phase.ended_writingJob copy _
    · split
      · refine (newRevision_follows copy _ _).bind ?_
        rintro revision _ rfl
        exact appendRevision_follows copy _ revision
      · exact fun _ => ⟨_, .write, Phase.ended_quiet⟩
  | .ok none =>
    refine Follows.issue fun holder => ⟨_, .checkName, ?_⟩
    match holder with
    | .error e => exact Phase.ended_quiet
    | .ok (some _) => exact Phase.ended_quiet
    | .ok none =>
      refine (newRevision_follows none _ _).bind ?_
      rintro revision _ rfl
      exact appendRevision_follows none _ revision

/-- An upsert of a job that keeps the owned fields of `copy`. -/
theorem upsertJob_follows (copy : Option Job) (job : Job) (kept : ∀ old, copy = some old → CarriesOver job old) :
    Follows (Move host) (CoordinatorService.upsertJob host job) (.editing copy) fun _ φ => φ.ended := by
  have kept' : ∀ old, copy = some old → CarriesOver (CoordinatorService.withPartition host job) old := by
    intro old same
    obtain ⟨owned, next⟩ := kept old same
    unfold CoordinatorService.withPartition
    split <;> exact ⟨⟨owned.1, owned.2, owned.3, owned.4, owned.5, owned.6, owned.7⟩, next⟩
  unfold CoordinatorService.upsertJob
  generalize CoordinatorService.withPartition host job = job' at kept'
  simp only
  split
  · rename_i expr isCron isExpr
    cases parsed : CronExpr.parse host.cron expr job'.timezone with
    | error e => exact Phase.ended_editing copy
    | ok cron =>
      refine Follows.issue fun now => ⟨_, .schedule ?_ ?_, storeJob_follows copy _ fun _ => .stamp⟩
      · intro _ _
        simp only [cronNextRunAt, isExpr, parsed]
      · intro old same
        obtain ⟨owned, -⟩ := kept' old same
        exact ⟨⟨owned.1, owned.2, owned.3, owned.4, owned.5, owned.6, owned.7⟩,
          fun once => by rw [isCron] at once; cases once⟩
  · rename_i other
    refine storeJob_follows copy _ fun t => .schedule ?_ ?_
    · intro isCron isExpr
      obtain ⟨expr, found⟩ := Option.isSome_iff_exists.mp isExpr
      exact absurd found (other expr isCron)
    · intro old same
      obtain ⟨owned, next⟩ := kept' old same
      exact ⟨⟨owned.1, owned.2, owned.3, owned.4, owned.5, owned.6, owned.7⟩, next⟩

theorem panicked_follows {α : Type} {φ : Phase} {Q : α → Phase → Prop} :
    Follows (Move host) (panicked : Task α) φ Q := fun never => nomatch never

theorem respondErr_follows {α : Type} {φ : Phase} (status : Axum.StatusCode) (error : String) (ended : φ.ended) :
    Follows (Move host) (Axum.respondErr status error : Task (Axum.StatusCode × Axum.ApiResponse α)) φ
      fun _ φ => φ.ended := by
  unfold Axum.respondErr
  split
  · exact ended
  · exact panicked_follows

theorem submit_follows (copy : Option Job) (job : Job) (kept : ∀ old, copy = some old → CarriesOver job old) :
    Follows (Move host) (Axum.submit host job) (.editing copy) fun _ φ => φ.ended := by
  refine (upsertJob_follows copy job kept).bind fun r φ ended => ?_
  cases r with
  | ok => exact ended
  | error e => exact respondErr_follows _ _ ended

/-- The edits of a request leave the coordinators' fields and the fire time as they were read. -/
theorem edited_keeps {req : Axum.UpsertJobRequest} {copy job : Job} (edits : Axum.edited req copy = .ok job) :
    SameOwned job copy ∧ job.nextRunAt = copy.nextRunAt := by
  have actor : ∀ {before after : Job}, Axum.withActor req before = .ok after →
      ∃ actorJson, after = { before with actorJson } := by
    intro before after chosen
    unfold Axum.withActor at chosen
    split at chosen
    · cases chosen; exact ⟨_, rfl⟩
    · split at chosen
      · cases chosen
      · cases chosen; exact ⟨_, rfl⟩
  have pool : ∀ {before after : Job}, Axum.withPool req before = .ok after → ∃ pool, after = { before with pool } := by
    intro before after chosen
    unfold Axum.withPool at chosen
    split at chosen
    · cases chosen; exact ⟨_, rfl⟩
    · split at chosen
      · cases chosen; exact ⟨_, rfl⟩
      · cases chosen
  simp only [Axum.edited, bind, Except.bind, pure, Except.pure] at edits
  split at edits
  · cases edits
  · rename_i acted actedOk
    split at edits
    · cases edits
    · rename_i pooled pooledOk
      obtain ⟨_, rfl⟩ := actor actedOk
      obtain ⟨_, rfl⟩ := pool pooledOk
      cases edits
      unfold Job.clampSecurityBounds
      simp only [Job.setRetryPolicy]
      split <;> exact ⟨⟨rfl, rfl, rfl, rfl, rfl, rfl, rfl⟩, rfl⟩

theorem upsertCopy_follows (req : Axum.UpsertJobRequest) (copy : Option Job) (job : Job)
    (kept : ∀ old, copy = some old → SameOwned job old ∧ job.nextRunAt = old.nextRunAt) :
    Follows (Move host) (Axum.upsertCopy host req job) (.editing copy) fun _ φ => φ.ended := by
  unfold Axum.upsertCopy
  split
  · exact respondErr_follows _ _ (Phase.ended_editing copy)
  · rename_i edit edits
    obtain ⟨same, next⟩ := edited_keeps edits
    have kept' : ∀ old, copy = some old → CarriesOver edit old := by
      intro old isCopy
      obtain ⟨all, next'⟩ := kept old isCopy
      exact ⟨⟨same.1.trans all.1, same.2.trans all.2, same.3.trans all.3, same.4.trans all.4,
        same.5.trans all.5, same.6.trans all.6, same.7.trans all.7⟩, fun _ => next.trans next'⟩
    split
    · rename_i expr isCron isExpr
      split
      · refine Follows.silent trivial fun now => submit_follows copy _ fun old isCopy => ?_
        obtain ⟨all, -⟩ := kept' old isCopy
        exact ⟨⟨all.1, all.2, all.3, all.4, all.5, all.6, all.7⟩, fun once => by rw [isCron] at once; cases once⟩
      · exact respondErr_follows _ _ (Phase.ended_editing copy)
    · exact submit_follows copy _ kept'

theorem httpUpsert_follows (req : Axum.UpsertJobRequest) :
    Follows (Move host) (Axum.upsertJob host req) .naming fun _ φ => φ.ended := by
  have fresh : Follows (Move host)
      (do let now ← utcNow
          let jobId ← newUuid
          Axum.upsertCopy host req (Job.new jobId now req.jobName req.scriptName))
      (.editing none) fun _ φ => φ.ended :=
    Follows.silent trivial fun now => Follows.silent trivial fun jobId =>
      upsertCopy_follows req none _ fun old none_ => by cases none_
  unfold Axum.upsertJob
  split
  · intro r
    refine ⟨_, .lookUp, ?_⟩
    match r with
    | .ok (some existing) =>
      refine upsertCopy_follows req (some existing) (Axum.bumped req existing) fun old same => ?_
      cases same
      exact ⟨⟨rfl, rfl, rfl, rfl, rfl, rfl, rfl⟩, rfl⟩
    | .ok none => exact fresh
    | .error e => exact fresh
  · exact respondErr_follows _ _ ⟨rfl, fun _ found => by cases found⟩

theorem runNow_follows (jobId : String) (params actor : Option Json) :
    Follows (Move host) (CoordinatorService.runNowWithParamsAndActor jobId params actor) .ordering
      fun _ φ => φ.ended := by
  refine Follows.issue fun r => ⟨_, .readJob, ?_⟩
  match r with
  | .error e => exact Phase.ended_ordering
  | .ok none => exact Phase.ended_ordering
  | .ok (some job) =>
    refine Follows.silent trivial fun now => Follows.issue fun runId => ⟨_, .drawFirst, Follows.issue fun created => ?_⟩
    refine ⟨_, .insertFirst rfl rfl ⟨rfl, rfl, rfl, rfl, rfl⟩, ?_⟩
    cases created <;> exact Phase.ended_quiet

/-! ## Run operations -/

theorem retryFailed_follows (run : Run) (job : Job) (allowed : job.retryPolicy.shouldRetry run.attempt = true) :
    Follows (Move host) (retryFailed run job) (.retrying run job) fun _ φ => φ.ended := by
  unfold retryFailed
  rw [if_pos allowed]
  refine Follows.silent trivial fun now => ?_
  split
  · exact panicked_follows
  · exact Follows.issue fun runId => ⟨_, .drawRetry, fun _ => ⟨_, .retry, Phase.ended_quiet⟩⟩

theorem failedRun_identity (run : Run) (status : RunStatus) (message : String) (logs : Option CapturedLogs)
    (now : DateTime) : (failedRun run status message logs now).identity = run.identity := by
  unfold failedRun
  cases logs <;> cases status <;> rfl

theorem failedRun_failure (run : Run) (status : RunStatus) (message : String) (logs : Option CapturedLogs)
    (now : DateTime) : (failedRun run status message logs now).status.isFailure = true := by
  unfold failedRun
  cases logs <;> cases status <;> rfl

theorem failedRun_finished (run : Run) (status : RunStatus) (message : String) (logs : Option CapturedLogs)
    (now : DateTime) : (failedRun run status message logs now).Finished := by
  unfold failedRun
  cases logs <;> cases status <;> exact ⟨rfl, rfl⟩

/-- Finalization of a copy that was not terminal, whatever else of it was set in between. -/
theorem finalizeFailedRun_follows (worker : Option String) (seen run : Run) (job : Job) (status : RunStatus)
    (error : String) (logs : Option CapturedLogs) (active : worker = none → seen.status.isTerminal = false)
    (same : run.identity = seen.identity) :
    Follows (Move host) (finalizeFailedRun run job status error logs) (.copied worker seen (some job))
      fun _ φ => φ.ended := by
  unfold finalizeFailedRun
  split
  · exact panicked_follows
  · rename_i message safe
    refine Follows.silent trivial fun now => ?_
    have identity := (failedRun_identity run status message logs now).trans same
    have failure := failedRun_failure run status message logs now
    have finished := failedRun_finished run status message logs now
    generalize failedRun run status message logs now = failed at identity failure finished
    refine Follows.issue fun r => ?_
    cases r with
    | error e => exact ⟨_, .finish active identity finished, Phase.ended_quiet⟩
    | ok =>
      by_cases allowed : job.retryPolicy.shouldRetry failed.attempt = true
      · exact ⟨_, .fail active identity finished failure allowed, retryFailed_follows failed job allowed⟩
      · refine ⟨_, .finish active identity finished, ?_⟩
        simp only [retryFailed, if_neg allowed]
        exact Phase.ended_quiet

theorem executeRun_follows (workerId : String) (run : Run) (job : Job) :
    Follows (Move host) (executeRun run job) (.copied (some workerId) run (some job)) fun _ φ => φ.ended := by
  have slot : some workerId = none → run.status.isTerminal = false := fun none_ => by cases none_
  unfold executeRun
  refine Follows.silent trivial fun started => Follows.issue fun ended => ⟨_, .execute, ?_⟩
  refine Follows.silent trivial fun finished => ?_
  simp only
  split
  · exact Follows.silent trivial fun now => Follows.issue fun r => ⟨_, .finish slot rfl ⟨rfl, rfl⟩, Phase.ended_quiet⟩
  · exact finalizeFailedRun_follows _ _ _ _ _ _ _ slot rfl

theorem failUnstarted_follows (workerId : String) (run : Run) (job : Option Job) (reason : String) :
    Follows (Move host) (failUnstarted run reason) (.copied (some workerId) run job) fun _ φ => φ.ended :=
  Follows.silent trivial fun _ _ => ⟨_, .finish (fun none_ => by cases none_) rfl ⟨rfl, rfl⟩, Phase.ended_quiet⟩

theorem workClaimed_follows (workerId : String) (run : Run) :
    Follows (Move host) (workClaimed run) (.copied (some workerId) run none) fun _ φ => φ.ended := by
  have slot : some workerId = none → run.status = .queued ∨ run.status = .claimed := fun none_ => by cases none_
  unfold workClaimed
  split
  · exact failUnstarted_follows workerId run none _
  · rename_i jobId isJob
    refine Follows.issue fun r => ⟨_, .readJobOf isJob, ?_⟩
    match r with
    | .error e => exact failUnstarted_follows workerId run none _
    | .ok none => exact failUnstarted_follows workerId run none _
    | .ok (some job) =>
      refine Follows.silent trivial fun at' => Follows.issue fun r => ?_
      cases r with
      | error e => exact ⟨_, .startFailed slot rfl ⟨rfl, rfl, rfl⟩, Phase.ended_quiet⟩
      | ok => exact ⟨_, .start slot rfl ⟨rfl, rfl, rfl⟩, executeRun_follows workerId (run.start at') job⟩

theorem workerSlot_follows (pool workerId : String) :
    Follows (Move host) (workerSlot host pool workerId) (.slotIdle workerId) fun _ φ => φ.ended := by
  have idle : Phase.ended (.slotIdle workerId) := ⟨rfl, fun _ found => by cases found⟩
  unfold workerSlot
  split
  · exact fun _ => ⟨_, .silent trivial, idle⟩
  · refine Follows.issue fun now => ⟨_, .openSlot, Follows.issue fun r => ?_⟩
    match r with
    | .ok (some run) => exact ⟨_, .take, workClaimed_follows workerId run⟩
    | .ok none => exact ⟨_, .takeNone (by simp), fun _ => ⟨_, .silent trivial, Phase.ended_quiet⟩⟩
    | .error e => exact ⟨_, .takeNone (by simp), fun _ => ⟨_, .silent trivial, Phase.ended_quiet⟩⟩

theorem renewLease_follows (runId workerId : String) :
    Follows (Move host) (renewLease host runId workerId) .quiet fun _ φ => φ.ended := by
  refine Follows.silent trivial fun _ => Follows.silent trivial fun now => Follows.silent trivial fun r => ?_
  cases r <;> exact Phase.ended_quiet

theorem reclaimOnce_follows : Follows (Move host) reclaimOnce .quiet fun _ φ => φ.ended :=
  Follows.silent trivial fun _ => Follows.issue fun _ => ⟨_, .openReclaim, fun _ => ⟨_, .reclaim, Phase.ended_quiet⟩⟩

theorem failWithoutJob_follows (run : Run) (error : String) (logs : CapturedLogs)
    (active : run.status.isTerminal = false) :
    Follows (Move host) (failWithoutJob run error logs) (.copied none run none) fun _ φ => φ.ended := by
  unfold failWithoutJob
  split
  · exact panicked_follows
  · exact Follows.silent trivial fun now _ => ⟨_, .finish (fun _ => active) rfl ⟨rfl, rfl⟩, Phase.ended_quiet⟩

theorem failRunning_follows (run : Run) (error : String) (logs : CapturedLogs)
    (active : run.status.isTerminal = false) :
    Follows (Move host) (failRunning run error logs) (.copied none run none) fun _ φ => φ.ended := by
  unfold failRunning
  split
  · rename_i jobId isJob
    refine Follows.issue fun r => ⟨_, .readJobOf isJob, ?_⟩
    match r with
    | .error e => exact failWithoutJob_follows run error logs active
    | .ok none => exact failWithoutJob_follows run error logs active
    | .ok (some job) => exact finalizeFailedRun_follows none run run job _ _ _ (fun _ => active) rfl
  · exact failWithoutJob_follows run error logs active

/-- An event first reads the run; what it does with the copy is checked per event. -/
theorem getRun_follows {α : Type} {runId : String} {f : Result (Option Run) → Task α}
    (missing : Follows (Move host) (f (.ok none)) .quiet fun _ φ => φ.ended)
    (failed : ∀ e, Follows (Move host) (f (.error e)) .quiet fun _ φ => φ.ended)
    (found : ∀ run, Follows (Move host) (f (.ok (some run))) (.copied none run none) fun _ φ => φ.ended) :
    Follows (Move host) (call (.getRun runId) >>= f) .quiet fun _ φ => φ.ended := by
  refine Follows.issue fun r => ?_
  match r with
  | .ok (some run) => exact ⟨_, .read, found run⟩
  | .ok none => exact ⟨_, .readNone (by simp), missing⟩
  | .error e => exact ⟨_, .readNone (by simp), failed e⟩

theorem handleExecutorEvent_follows (e : ExecutorEvent) :
    Follows (Move host) (handleExecutorEvent e) .quiet fun _ φ => φ.ended := by
  cases e with
  | runStarted runId =>
    refine getRun_follows Phase.ended_quiet (fun _ => Phase.ended_quiet) fun run => ?_
    simp only
    split
    · rename_i waiting
      refine Follows.silent trivial fun now => Follows.issue fun r => ?_
      cases r with
      | error e => exact ⟨_, .startFailed (fun _ => waiting) rfl ⟨rfl, rfl, rfl⟩, Phase.ended_quiet⟩
      | ok => exact ⟨_, .start (fun _ => waiting) rfl ⟨rfl, rfl, rfl⟩, Phase.ended_copied _ _⟩
    · exact Phase.ended_copied _ _
  | runCompleted runId durationMs logs =>
    refine getRun_follows Phase.ended_quiet (fun _ => Phase.ended_quiet) fun run => ?_
    simp only
    split
    · rename_i running
      have active : run.status.isTerminal = false := by rw [running]; rfl
      exact Follows.silent trivial fun now _ => ⟨_, .finish (fun _ => active) rfl ⟨rfl, rfl⟩, Phase.ended_quiet⟩
    · exact Phase.ended_copied _ _
  | runFailed runId error logs =>
    refine getRun_follows Phase.ended_quiet (fun _ => Phase.ended_quiet) fun run => ?_
    simp only
    split
    · rename_i running
      exact failRunning_follows run error logs (by rw [running]; rfl)
    · exact Phase.ended_copied _ _

/-- **Conformance.** Every task of the system follows the protocol. -/
theorem protocol_governs (host : Host) : (protocol host).Governs (system host) := by
  intro proc
  cases proc with
  | tick instanceId draining => exact (runOneTick_follows instanceId draining).done
  | pause jobId => exact fun _ => ⟨_, .pause, Phase.ended_quiet⟩
  | resume jobId => exact fun _ => ⟨_, .resume, Phase.ended_quiet⟩
  | delete jobId => exact fun _ => ⟨_, .delete, Phase.ended_quiet⟩
  | upsert job => exact (upsertJob_follows none job fun _ none_ => by cases none_).done
  | httpUpsert req => exact (httpUpsert_follows req).done
  | runNow jobId params actor => exact (runNow_follows jobId params actor).done
  | slot pool workerId => exact workerSlot_follows pool workerId
  | renew runId workerId => exact (renewLease_follows runId workerId).done
  | reclaim => exact reclaimOnce_follows
  | event e => exact handleExecutorEvent_follows e

end Chronon
