import Chronon.Edit.RunOnceDue
import Chronon.Edit.Schedule
import Chronon.Runtime.RemoteClient

/-!
# Remote upserts

The remote client sends a job's fields, not the job: the handler edits its own
copy, the stored row of that name or a new one. What the request has no field
for, and what it sends as null, is the copy's.
-/

namespace Chronon
set_option autoImplicit false

/-- A pool trimmed, with an empty one as none. -/
def trimmedPool (pool : Option String) : Option String :=
  if trim (pool.getD "") = "" then none else some (trim (pool.getD ""))

/-- The row stored for a remote upsert agrees with the row of a local one. -/
structure AgreesWith (row localRow : Job) : Prop where
  jobId : row.jobId = localRow.jobId
  enabled : row.enabled = localRow.enabled
  scheduleKind : row.scheduleKind = localRow.scheduleKind
  cronExpr : row.cronExpr = localRow.cronExpr
  timezone : row.timezone = localRow.timezone
  runOnceAt : row.runOnceAt = localRow.runOnceAt
  nextRunAt : row.nextRunAt.isSome = localRow.nextRunAt.isSome
  pool : row.pool = trimmedPool localRow.pool
  region : row.region = localRow.region
  placementJson : row.placementJson = localRow.placementJson
  actorJson : row.actorJson = localRow.actorJson
  paramsJson : row.paramsJson = localRow.paramsJson
  concurrency : row.concurrency = localRow.concurrency
  timeoutMs : row.timeoutMs = localRow.timeoutMs
  retryPolicyJson : row.retryPolicyJson = localRow.retryPolicyJson
  misfirePolicyJson : row.misfirePolicyJson = localRow.misfirePolicyJson

/-- The upsert of `job` between two worlds had the effect of a local one: the row now stored under the name agrees with
what `CoordinatorService::upsert_job` stores for the clamped job, and `run_now` finds the job. -/
structure LikeLocal (host : Host) (job : Job) (w w' : World) : Prop where
  row : ∃ row localRow, w'.store.getJobByName job.jobName = .ok (some row) ∧
    Submitted host job.clampSecurityBounds localRow w.clock w'.clock ∧ AgreesWith row localRow
  runs : ∀ r w'', Ends .calm (RemoteCoordinatorClient.runNow job.jobId) w' (some r) w'' → ∃ runId, r = .ok runId

/-- The handler's copy has what the request does not carry: the identifier, the fields without a place in the request,
and the ones that are sent as null. -/
structure CopyHas (copy job : Job) : Prop where
  jobId : copy.jobId = job.jobId
  runOnceAt : copy.runOnceAt = job.runOnceAt
  nextRunAt : (job.scheduleKind = .cron → job.cronExpr = none) → copy.nextRunAt.isSome = job.nextRunAt.isSome
  region : copy.region = job.region
  placementJson : copy.placementJson = job.placementJson
  actorJson : job.actorJson = .null → copy.actorJson = .null
  retryPolicyJson : job.retryPolicyJson = .null →
    copy.retryPolicy.clampSecurityBounds.toJson = job.retryPolicy.clampSecurityBounds.toJson
  misfirePolicyJson : job.misfirePolicyJson = .null → copy.misfirePolicyJson = .null

section Remote

variable {host : Host} {w w' : World} {job copy row localRow : Job}

/-! ## The edited copy -/

theorem clampSecurityBounds_eq (job : Job) :
    job.clampSecurityBounds = { job with
      concurrency := max 1 (min job.concurrency maxJobConcurrency)
      timeoutMs := job.timeoutMs.bind fun ms => if ms ≤ 0 then none else some (min ms maxTimeoutMs)
      retryPolicyJson := job.retryPolicy.clampSecurityBounds.toJson } := by
  unfold Job.clampSecurityBounds
  dsimp only
  split
  · rename_i ms isSome
    simp only [isSome, Option.bind_some]
    rfl
  · rename_i isNone
    simp only [isNone, Option.bind_none]
    rfl

theorem isNull_iff (json : Json) : json.isNull = true ↔ json = .null := by
  cases json <;> simp [Json.isNull]

/-- A value that is sent, or the copy's where it is null. -/
def sentOr (sent kept : Json) : Json := if sent.isNull then kept else sent

theorem sentOr_eq_iff (sent kept : Json) : sentOr sent kept = sent ↔ (sent = .null → kept = .null) := by
  unfold sentOr
  split
  · rename_i isNull
    rw [isNull_iff] at isNull
    simp [isNull]
  · rename_i notNull
    rw [isNull_iff] at notNull
    simp [notNull]

theorem getD_received (sent kept : Json) : (Axum.given (Axum.given (some sent))).getD kept = sentOr sent kept := by
  cases sent <;> rfl

theorem normalizePool_ok {pool : Option String} {normalized : Option String}
    (valid : Axum.normalizePool (pool.getD "") = .ok normalized) : normalized = trimmedPool pool := by
  unfold Axum.normalizePool at valid
  unfold trimmedPool
  dsimp only at valid
  split at valid
  · rename_i isEmpty
    cases valid
    rw [if_pos isEmpty]
  · rename_i notEmpty
    split at valid
    · cases valid
      rw [if_neg notEmpty]
    · cases valid

/-- The copy with what the request carries. -/
def sentCopy (copy job : Job) : Job :=
  { copy with
    enabled := job.enabled
    scheduleKind := job.scheduleKind
    cronExpr := job.cronExpr
    timezone := job.timezone
    paramsJson := job.paramsJson
    concurrency := job.concurrency
    timeoutMs := job.timeoutMs
    actorJson := sentOr job.actorJson copy.actorJson
    retryPolicyJson := sentOr job.retryPolicyJson copy.retryPolicyJson
    misfirePolicyJson := sentOr job.misfirePolicyJson copy.misfirePolicyJson
    pool := trimmedPool job.pool }

/-- What the handler makes of its copy. -/
theorem edited_upsertRequest {edited : Job}
    (edits : Axum.edited (RemoteCoordinatorClient.upsertRequest job).received copy = .ok edited) :
    edited = (sentCopy copy job).clampSecurityBounds := by
  simp only [Axum.edited, bind, Except.bind, pure, Except.pure] at edits
  rcases withActor_cases (RemoteCoordinatorClient.upsertRequest job).received
    (Axum.withFields (RemoteCoordinatorClient.upsertRequest job).received copy) with ⟨failure, failed, -⟩ | ⟨acted, -⟩
  · rw [failed] at edits
    cases edits
  · rw [acted] at edits
    dsimp only at edits
    split at edits
    · cases edits
    · rename_i pooled isPooled
      cases edits
      have valid : ∃ pool, Axum.normalizePool (job.pool.getD "") = .ok pool ∧
          pooled = { Axum.withPolicies (RemoteCoordinatorClient.upsertRequest job).received
            { Axum.withFields (RemoteCoordinatorClient.upsertRequest job).received copy with
              actorJson := (Axum.given (RemoteCoordinatorClient.upsertRequest job).received.actorJson).getD
                (Axum.withFields (RemoteCoordinatorClient.upsertRequest job).received copy).actorJson } with pool } := by
        unfold Axum.withPool at isPooled
        dsimp only [RemoteCoordinatorClient.upsertRequest, Axum.UpsertJobRequest.received] at isPooled
        split at isPooled
        · rename_i pool normalized
          cases isPooled
          exact ⟨pool, normalized, rfl⟩
        · cases isPooled
      obtain ⟨pool, normalized, rfl⟩ := valid
      rw [normalizePool_ok normalized]
      simp only [Axum.withPolicies, Axum.withFields, RemoteCoordinatorClient.upsertRequest,
        Axum.UpsertJobRequest.received, getD_received, sentCopy]

/-! ## Agreement -/

/-- Every field but the partition, the fire time and the stamp is stored as submitted. -/
theorem Submitted.shape {start finish : DateTime} (submitted : Submitted host job row start finish) :
    ∃ partitionHash updatedAt, row = { job with partitionHash, nextRunAt := row.nextRunAt, updatedAt } := by
  refine ⟨(CoordinatorService.withPartition host job).partitionHash, row.updatedAt, ?_⟩
  have copied := submitted.copy
  rw [withPartition_fields] at copied
  exact copied

/-- The policy that is stored: the one sent, or the copy's in place of a null. -/
theorem clamped_retry_iff (copy job : Job) :
    (sentCopy copy job).retryPolicy.clampSecurityBounds.toJson = job.retryPolicy.clampSecurityBounds.toJson ↔
      (job.retryPolicyJson = .null →
        copy.retryPolicy.clampSecurityBounds.toJson = job.retryPolicy.clampSecurityBounds.toJson) := by
  unfold Job.retryPolicy sentCopy sentOr
  dsimp only
  split
  · rename_i isNull
    rw [isNull_iff] at isNull
    simp only [isNull, true_implies]
  · rename_i notNull
    rw [isNull_iff] at notNull
    simp only [notNull, false_implies]

/-- Agreement, field by field: what the request carries agrees anyway. -/
theorem agreesWith_iff {edited : Job} {start finish start' finish' : DateTime}
    (submitted : Submitted host edited row start finish)
    (edits : Axum.edited (RemoteCoordinatorClient.upsertRequest job).received copy = .ok edited)
    (locally : Submitted host job.clampSecurityBounds localRow start' finish') :
    AgreesWith row localRow ↔ copy.jobId = job.jobId ∧ copy.runOnceAt = job.runOnceAt ∧
      row.nextRunAt.isSome = localRow.nextRunAt.isSome ∧ copy.region = job.region ∧
      copy.placementJson = job.placementJson ∧ (job.actorJson = .null → copy.actorJson = .null) ∧
      (job.retryPolicyJson = .null →
        copy.retryPolicy.clampSecurityBounds.toJson = job.retryPolicy.clampSecurityBounds.toJson) ∧
      (job.misfirePolicyJson = .null → copy.misfirePolicyJson = .null) := by
  obtain ⟨_, _, isRow⟩ := submitted.shape
  obtain ⟨_, _, isLocal⟩ := locally.shape
  rw [edited_upsertRequest edits, clampSecurityBounds_eq] at isRow
  rw [clampSecurityBounds_eq] at isLocal
  generalize row.nextRunAt = next at isRow ⊢
  generalize localRow.nextRunAt = localNext at isLocal ⊢
  rw [← clamped_retry_iff, ← sentOr_eq_iff, ← sentOr_eq_iff]
  subst isRow isLocal
  constructor
  · intro agrees
    exact ⟨agrees.jobId, agrees.runOnceAt, agrees.nextRunAt, agrees.region, agrees.placementJson, agrees.actorJson,
      agrees.retryPolicyJson, agrees.misfirePolicyJson⟩
  · rintro ⟨jobId, runOnceAt, nextRunAt, region, placementJson, actorJson, retryPolicyJson, misfirePolicyJson⟩
    refine ⟨jobId, rfl, rfl, rfl, rfl, runOnceAt, nextRunAt, ?_, region, placementJson, actorJson, rfl, rfl, rfl,
      retryPolicyJson, misfirePolicyJson⟩
    dsimp only [sentCopy]

/-- The fire time a local upsert computes at the same instant is there exactly if the remote one's is. -/
theorem CopyHas.exists_local {edited : Job} (has : CopyHas copy job)
    (edits : Axum.edited (RemoteCoordinatorClient.upsertRequest job).received copy = .ok edited) {start finish : DateTime}
    (submitted : Submitted host edited row start finish) :
    ∃ localRow, Submitted host job.clampSecurityBounds localRow start finish ∧
      row.nextRunAt.isSome = localRow.nextRunAt.isSome := by
  have isEdited := edited_upsertRequest edits
  rw [clampSecurityBounds_eq] at isEdited
  have clamped := clampSecurityBounds_eq job
  by_cases isCron : job.scheduleKind = .cron ∧ job.cronExpr ≠ none
  · obtain ⟨kind, isExpr⟩ := isCron
    obtain ⟨expr, isExpr⟩ := Option.ne_none_iff_exists'.mp isExpr
    obtain ⟨t, started, finished, next⟩ := submitted.computed expr (by rw [isEdited]; exact kind) (by rw [isEdited]; exact isExpr)
    have alike : cronNextRunAt host edited t = cronNextRunAt host job.clampSecurityBounds t :=
      cronNextRunAt_congr (by rw [isEdited, clamped]; rfl) (by rw [isEdited, clamped]; rfl) t
    refine ⟨{ CoordinatorService.withPartition host job.clampSecurityBounds with nextRunAt := row.nextRunAt },
      ⟨rfl, fun _ _ _ => ⟨t, started, finished, next.trans alike⟩, fun unset => ?_⟩, rfl⟩
    rw [clamped] at unset
    rw [unset kind] at isExpr
    cases isExpr
  · have unset : job.scheduleKind = .cron → job.cronExpr = none := by
      intro kind
      by_contra isExpr
      exact isCron ⟨kind, isExpr⟩
    have kept := submitted.kept (by rw [isEdited]; exact unset)
    refine ⟨{ CoordinatorService.withPartition host job.clampSecurityBounds with nextRunAt := job.nextRunAt },
      ⟨rfl, fun expr kind isExpr => ?_, fun _ => ?_⟩, ?_⟩
    · rw [clamped] at kind isExpr
      rw [unset kind] at isExpr
      cases isExpr
    · rw [clamped]
    · rw [kept, isEdited]
      exact has.nextRunAt unset

/-- A job whose copy has the rest is stored as locally, and the other way round. -/
theorem copyHas_iff {edited : Job} {start finish : DateTime} (submitted : Submitted host edited row start finish)
    (edits : Axum.edited (RemoteCoordinatorClient.upsertRequest job).received copy = .ok edited) :
    CopyHas copy job ↔
      ∃ localRow, Submitted host job.clampSecurityBounds localRow start finish ∧ AgreesWith row localRow := by
  constructor
  · intro has
    obtain ⟨localRow, locally, next⟩ := has.exists_local edits submitted
    exact ⟨localRow, locally, (agreesWith_iff submitted edits locally).mpr ⟨has.jobId, has.runOnceAt, next, has.region,
      has.placementJson, has.actorJson, has.retryPolicyJson, has.misfirePolicyJson⟩⟩
  · rintro ⟨localRow, locally, agrees⟩
    obtain ⟨jobId, runOnceAt, next, region, placementJson, actorJson, retryPolicyJson, misfirePolicyJson⟩ :=
      (agreesWith_iff submitted edits locally).mp agrees
    refine ⟨jobId, runOnceAt, fun unset => ?_, region, placementJson, actorJson, retryPolicyJson, misfirePolicyJson⟩
    have isEdited := edited_upsertRequest edits
    have clamped := clampSecurityBounds_eq job
    rw [clampSecurityBounds_eq] at isEdited
    rw [submitted.kept (by rw [isEdited]; exact unset), locally.kept (by rw [clamped]; exact unset), isEdited, clamped] at next
    exact next

/-! ## What the client's calls do -/

/-- Only success is taken for success. -/
theorem parseResponse_ok {α : Type} {status : Axum.StatusCode} {body : Axum.ApiResponse α} {data : α}
    (parsed : RemoteCoordinatorClient.parseResponse status body = .ok data) : status = .ok ∧ body.data = some data := by
  unfold RemoteCoordinatorClient.parseResponse at parsed
  split at parsed
  · cases parsed
  · rename_i succeeded
    split at parsed
    · cases parsed
      refine ⟨?_, ‹_›⟩
      cases status <;> simp [Axum.StatusCode.isSuccess] at succeeded ⊢
    · cases parsed

theorem remoteUpsert_accepts (ends : Ends .calm (RemoteCoordinatorClient.upsertJob host job) w (some (.ok ())) w') :
    ∃ copy edited row, CopiedFrom (RemoteCoordinatorClient.upsertRequest job).received w w' copy ∧
      Accepts host (RemoteCoordinatorClient.upsertRequest job).received copy edited row w w' := by
  rcases Ends.bind ends with ⟨-, isNone⟩ | ⟨⟨status, body⟩, w₁, upserts, rest⟩
  · cases isNone
  · dsimp only at rest
    split at rest
    · obtain ⟨isAnswer, -⟩ := rest
      cases isAnswer
    · rename_i parsed
      obtain ⟨-, rfl⟩ := rest
      obtain ⟨rfl, -⟩ := parseResponse_ok parsed
      obtain ⟨-, copy, edited, row, copied, accepts, -⟩ := httpUpsert_accepts upserts
      exact ⟨copy, edited, row, copied, accepts⟩

/-- `run_now` of a stored job creates its run. -/
theorem remoteRunNow_ok {jobId : String} {r : Result String} (stored : w.job jobId = some row)
    (ends : Ends .calm (RemoteCoordinatorClient.runNow jobId) w (some r) w') : ∃ runId, r = .ok runId := by
  obtain ⟨found, w₁, gets, rest⟩ := ends
  obtain ⟨rfl, same⟩ := gets.getJob rfl
  rw [stored] at rest
  obtain ⟨now, w₂, -, runId, w₃, -, created, w₄, creates, rest⟩ := rest
  obtain ⟨rfl, -⟩ := creates.createRun rfl
  obtain ⟨isAnswer, -⟩ := rest
  cases isAnswer
  exact ⟨runId, rfl⟩

/-- A job found by name is the one the index points to. -/
theorem index_of_getJobByName {s : Store} {n : String} (found : s.getJobByName n = .ok (some row)) :
    s.jobsByName.lookup n = some (n, row.jobId) ∧ s.jobs.lookup row.jobId = some row := by
  unfold Store.getJobByName Store.getJob at found
  split at found
  · rename_i own jobId held
    have named : own = n := Collections.Table.key_of_lookup held
    have stored : s.jobs.lookup jobId = some row := Except.ok.inj found
    have key : row.jobId = jobId := Collections.Table.key_of_lookup stored
    subst named key
    exact ⟨held, stored⟩
  · cases found

/-- The written row is found under the request's name. -/
theorem Accepts.named {req : Axum.UpsertJobRequest} {edited : Job} (copied : CopiedFrom req w w' copy)
    (accepts : Accepts host req copy edited row w w') (name : edited.jobName = copy.jobName) :
    w'.store.getJobByName req.jobName = .ok (some row) := by
  obtain ⟨t, jobs, index, -, writes⟩ := accepts.upserts.written
  obtain ⟨-, kept, written, isKept⟩ := Store.writeJob_index writes
  have stored : w'.store.jobs.lookup row.jobId = some row := by
    have rows := accepts.upserts.stores.jobs row.jobId
    rw [if_pos rfl] at rows
    exact rows
  have isId : row.jobId = copy.jobId := accepts.submitted.jobId.trans (Edited.of_edits accepts.edits).jobId
  have isName : row.jobName = copy.jobName := by
    rw [accepts.submitted.copy, withPartition_fields]
    exact name
  have entry : w'.store.jobsByName.lookup req.jobName = some (req.jobName, row.jobId) := by
    rw [written, Collections.Table.lookup_insert]
    cases copied with
    | new _ _ _ =>
      have isRequested : row.jobName = req.jobName := isName
      rw [if_pos isRequested, isRequested]
    | @existing old found _ =>
      obtain ⟨held, isOld⟩ := index_of_getJobByName found
      dsimp only
      split
      · rename_i same
        rw [same]
      · rcases isKept with rfl | ⟨previous, isPrevious, renamed, -⟩
        · rw [index, held, isId]
          rfl
        · rw [jobs, isId] at isPrevious
          cases isPrevious.symm.trans isOld
          exact absurd isName.symm renamed
  unfold Store.getJobByName
  rw [entry]
  exact congrArg Except.ok stored

/-- What the condition asks of the copy does not depend on when the copy was made. -/
theorem CopyHas.of_copied {req : Axum.UpsertJobRequest} {copy copy' : Job} (copied : CopiedFrom req w w' copy)
    (copied' : CopiedFrom req w w' copy') (has : CopyHas copy job) : CopyHas copy' job := by
  cases copied with
  | existing found _ =>
    cases copied' with
    | existing found' _ =>
      rw [found] at found'
      cases found'
      exact has
    | new free' _ _ =>
      rw [found] at free'
      cases free'
  | new free _ draws =>
    cases copied' with
    | existing found' _ =>
      rw [free] at found'
      cases found'
    | new _ _ draws' =>
      rw [draws] at draws'
      cases draws'
      exact ⟨has.jobId, has.runOnceAt, has.nextRunAt, has.region, has.placementJson, has.actorJson, has.retryPolicyJson,
        has.misfirePolicyJson⟩

end Remote

/-- **A remote upsert has the effect of a local one** exactly if the job the handler edits has what the request does
not carry: the row stored under the name has the identifier and the fields without a place in the request, and the
right values for what is sent as null. -/
theorem remote_upsert_like_local_iff {host : Host} {job : Job} {w w' : World}
    (ends : Ends .calm (RemoteCoordinatorClient.upsertJob host job) w (some (.ok ())) w') :
    LikeLocal host job w w' ↔
      ∃ copy, CopiedFrom (RemoteCoordinatorClient.upsertRequest job).received w w' copy ∧ CopyHas copy job := by
  obtain ⟨copy, edited, row, copied, accepts⟩ := remoteUpsert_accepts ends
  have isEdited := edited_upsertRequest accepts.edits
  rw [clampSecurityBounds_eq] at isEdited
  have named : w'.store.getJobByName job.jobName = .ok (some row) := accepts.named copied (by rw [isEdited]; rfl)
  constructor
  · rintro ⟨⟨row', localRow, named', locally, agrees⟩, -⟩
    rw [named] at named'
    cases named'
    exact ⟨copy, copied, (copyHas_iff accepts.submitted accepts.edits).mpr ⟨localRow, locally, agrees⟩⟩
  · rintro ⟨copy', copied', has'⟩
    have has := has'.of_copied copied' copied
    obtain ⟨localRow, locally, agrees⟩ := (copyHas_iff accepts.submitted accepts.edits).mp has
    refine ⟨⟨row, localRow, named, locally, agrees⟩, fun r w'' runs => ?_⟩
    have isId : row.jobId = job.jobId :=
      (accepts.submitted.jobId.trans (Edited.of_edits accepts.edits).jobId).trans has.jobId
    have stored : w'.job job.jobId = some row := by
      rw [accepts.upserts.stores.jobs, if_pos isId]
    exact remoteRunNow_ok stored runs

/-- The job of the store, edited. -/
def disabledJob : Job := { dueOnceJob with enabled := false }

/-- It is stored under its own identifier. -/
theorem remote_upsert_like_local_stored :
    ∃ w', Ends .calm (RemoteCoordinatorClient.upsertJob .simple disabledJob) (.fresh (.single dueOnceJob (seconds 60)))
        (some (.ok ())) w' ∧ LikeLocal .simple disabledJob (.fresh (.single dueOnceJob (seconds 60))) w' := by
  have ends := ends_accepted (RemoteCoordinatorClient.upsertJob .simple disabledJob)
    (.fresh (.single dueOnceJob (seconds 60))) [.uuid "rev"] (by decide +kernel)
  refine ⟨_, ends, (remote_upsert_like_local_iff ends).mpr ⟨_, @CopiedFrom.existing _ _ _ dueOnceJob rfl rfl, ?_⟩⟩
  exact ⟨rfl, rfl, fun _ => rfl, rfl, rfl, fun _ => rfl, nofun, nofun⟩

/-- A new job is stored under another identifier, and `run_now` of the client's own job does not find it. -/
theorem remote_upsert_not_found :
    ∃ w', Ends .calm (RemoteCoordinatorClient.upsertJob .simple disabledJob) emptyWorld (some (.ok ())) w' ∧
      ¬ LikeLocal .simple disabledJob emptyWorld w' := by
  have ends := ends_accepted (RemoteCoordinatorClient.upsertJob .simple disabledJob) emptyWorld [.uuid "k", .uuid "rev"]
    (by decide +kernel)
  refine ⟨_, ends, fun like => ?_⟩
  obtain ⟨e, runs⟩ := exists_refused (RemoteCoordinatorClient.runNow disabledJob.jobId)
    (playedTo (fun _ => none) (RemoteCoordinatorClient.upsertJob .simple disabledJob) emptyWorld [.uuid "k", .uuid "rev"])
    [] (by decide +kernel)
  obtain ⟨runId, isOk⟩ := like.runs _ _ runs
  cases isOk

end Chronon
