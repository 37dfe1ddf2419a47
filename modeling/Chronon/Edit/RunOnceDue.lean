import Chronon.Edit.Accepted

/-!
# When an accepted run-once job becomes due

The due query looks at `next_run_at` and nothing else for the time. An upsert
fills it only for cron jobs, so a run-once job is due at the time it was
submitted with, and over HTTP at the time the row it edits happened to have.
-/

namespace Chronon
set_option autoImplicit false

/-- Every due query from `start` on that owns the partition of the job, finds no live tick lease and has room for all
jobs returns it. -/
def ReturnedFrom (s : Store) (id : String) (start : DateTime) : Prop :=
  ∀ row clock owned dueUntil limit, s.jobs.lookup id = some row → start ≤ dueUntil →
    (∃ p ∈ owned, row.partitionHash = some ((p : Nat) : Int)) → row.claimLeaseUntil.all (· < clock) = true →
    s.jobs.rows.length ≤ limit → ∃ ids, s.findDueJobIdsInPartitions clock owned dueUntil limit = .ok ids ∧ id ∈ ids

/-- No set of partitions contains the job. -/
def Unowned (row : Job) : Prop := ∀ p : Nat, row.partitionHash ≠ some (p : Int)

/-- The job is open, and its fire time is not after `start`. -/
def OpenBy (start : DateTime) (row : Job) : Prop :=
  row.runOnceCompletedAt = none ∧ ∃ t, row.nextRunAt = some t ∧ t ≤ start

section Due

variable {s : Store} {id : String} {row : Job} {clock dueUntil start : DateTime} {owned : List Nat} {limit : Nat}

/-- With room for all jobs, the due query returns the rows that pass its filter. -/
theorem findDue_returns (stored : s.jobs.lookup id = some row) (some_ : owned ≠ []) (room : s.jobs.rows.length ≤ limit) :
    (∃ ids, s.findDueJobIdsInPartitions clock owned dueUntil limit = .ok ids ∧ id ∈ ids) ↔
      Store.isDue clock owned dueUntil row = true := by
  constructor
  · rintro ⟨ids, listed, inside⟩
    obtain ⟨row', stored', due⟩ := Store.mem_findDue listed inside
    rw [stored] at stored'
    cases stored'
    exact due
  · intro due
    have inside := Collections.Table.mem_of_lookup stored
    have limited : limit ≠ 0 := by
      rintro rfl
      rw [List.eq_nil_of_length_eq_zero (Nat.le_zero.mp room)] at inside
      cases inside
    unfold Store.findDueJobIdsInPartitions
    rw [if_neg (by simp [some_, limited])]
    refine ⟨_, rfl, List.mem_map.mpr ⟨row, ?_, Collections.Table.key_of_lookup stored⟩⟩
    rw [List.take_of_length_le]
    · rw [List.mem_insertionSort, List.mem_filter]
      exact ⟨inside, due⟩
    · rw [List.length_insertionSort]
      exact le_trans (List.length_filter_le _ _) room

theorem returnedFrom_iff (stored : s.jobs.lookup id = some row) (enabled : row.enabled = true)
    (once : row.scheduleKind = .runOnce) : ReturnedFrom s id start ↔ Unowned row ∨ OpenBy start row := by
  constructor
  · intro returned
    by_cases unowned : Unowned row
    · exact .inl unowned
    · refine .inr ?_
      simp only [Unowned, not_forall, not_not] at unowned
      obtain ⟨p, placed⟩ := unowned
      have free : row.claimLeaseUntil.all (· < row.claimLeaseUntil.getD 0 + 1) = true := by
        cases row.claimLeaseUntil with
        | none => rfl
        | some t => exact decide_eq_true (Int.lt_succ t)
      obtain found := returned row _ [p] start _ stored (le_refl _) ⟨p, List.mem_singleton_self p, placed⟩ free (le_refl _)
      have due := (findDue_returns stored (by simp) (le_refl _)).mp found
      have scheduled := Store.scheduleDue_of_isDue due
      simp only [Store.scheduleDue, once, Bool.and_eq_true, Option.any_eq_true, decide_eq_true_eq] at scheduled
      refine ⟨?_, ?_⟩
      · simpa using scheduled.2
      · obtain ⟨t, isNext, early⟩ := scheduled.1.2
        exact ⟨t, isNext, early⟩
  · rintro (unowned | ⟨uncompleted, t, isNext, early⟩) row' clock owned dueUntil limit stored' later
      ⟨p, inside, placed⟩ free room
    all_goals
      rw [stored] at stored'
      cases stored'
    · exact absurd placed (unowned p)
    · refine (findDue_returns stored (List.ne_nil_of_mem inside) room).mpr ?_
      have early' : t ≤ dueUntil := le_trans early later
      have owns : owned.any (fun q => (p : Int) == (q : Int)) = true := List.any_eq_true.mpr ⟨p, inside, by simp⟩
      simp [Store.isDue, Store.scheduleDue, enabled, once, isNext, early', uncompleted, placed, owns, free]

end Due

/-- A partition that no instance can own. -/
def Job.Misplaced (job : Job) : Prop := ∃ h, job.partitionHash = some h ∧ h < 0

section Stored

variable {host : Host} {job row : Job} {start finish : DateTime}

theorem unowned_withPartition (host : Host) (job : Job) :
    (∀ p : Nat, (CoordinatorService.withPartition host job).partitionHash ≠ some (p : Int)) ↔ job.Misplaced := by
  unfold CoordinatorService.withPartition Job.Misplaced
  split
  · rename_i unset
    simp only [unset, partitionHashI64ForJobId]
    constructor
    · exact fun unowned => absurd rfl (unowned _)
    · rintro ⟨h, isSome, -⟩
      cases isSome
  · rename_i h isSet
    simp only [isSet]
    constructor
    · intro unowned
      refine ⟨h, rfl, ?_⟩
      by_contra nonneg
      obtain ⟨n, rfl⟩ := Int.eq_ofNat_of_zero_le (not_lt.mp nonneg)
      exact unowned n rfl
    · rintro ⟨_, ⟨⟩, negative⟩ p isNat
      cases isNat
      omega

/-- What an upsert of a run-once job stores. -/
theorem Submitted.once (submitted : Submitted host job row start finish) (once : job.scheduleKind = .runOnce) :
    row.enabled = job.enabled ∧ row.scheduleKind = .runOnce ∧ row.runOnceCompletedAt = job.runOnceCompletedAt ∧
      row.nextRunAt = job.nextRunAt ∧ (Unowned row ↔ job.Misplaced) := by
  have next := submitted.kept fun isCron => by rw [once] at isCron; cases isCron
  have placed : row.partitionHash = (CoordinatorService.withPartition host job).partitionHash := by
    rw [submitted.copy]
  have fields : row.enabled = job.enabled ∧ row.scheduleKind = job.scheduleKind ∧
      row.runOnceCompletedAt = job.runOnceCompletedAt := by
    rw [submitted.copy]
    unfold CoordinatorService.withPartition
    split <;> exact ⟨rfl, rfl, rfl⟩
  refine ⟨fields.1, fields.2.1.trans once, fields.2.2, next, ?_⟩
  rw [← unowned_withPartition host job, Unowned, placed]

/-- An accepted run-once job is returned from `t` on if it was open by then when it was submitted. -/
theorem returned_of_stored {w w' : World} {t : DateTime} (stores : Stores row w w')
    (submitted : Submitted host job row start finish) (once : job.scheduleKind = .runOnce) (enabled : job.enabled = true) :
    ReturnedFrom w'.store row.jobId t ↔ job.Misplaced ∨ OpenBy t job := by
  obtain ⟨sameEnabled, isOnce, completed, next, unowned⟩ := submitted.once once
  have stored : w'.store.jobs.lookup row.jobId = some row := (stores.jobs row.jobId).trans (if_pos rfl)
  rw [returnedFrom_iff stored (sameEnabled.trans enabled) isOnce, unowned, OpenBy, OpenBy, completed, next]

/-- In process. -/
theorem returned_in_process_iff {w w' : World} {t : DateTime} (once : job.scheduleKind = .runOnce)
    (enabled : job.enabled = true) (uncompleted : job.runOnceCompletedAt = none)
    (ends : Ends .calm (CoordinatorService.upsertJob host job) w (some (.ok ())) w') :
    ReturnedFrom w'.store job.jobId t ↔ job.Misplaced ∨ ∃ next, job.nextRunAt = some next ∧ next ≤ t := by
  obtain ⟨row, stores, submitted⟩ := upsertJob_accepted ends
  rw [← submitted.jobId, returned_of_stored stores submitted once enabled]
  simp only [OpenBy, uncompleted, true_and]

/-- Over HTTP. -/
theorem returned_http_iff {w w' : World} {req : Axum.UpsertJobRequest} {response : Axum.ApiResponse Axum.JobResponse}
    (once : req.scheduleKind = .runOnce) (enabled : req.enabled = true)
    (ends : Ends .calm (Axum.upsertJob host req) w (some (.ok, response)) w') :
    ∃ data, response.data = some data ∧ (ReturnedFrom w'.store data.jobId w'.clock ↔
      ∃ existing, w.store.getJobByName req.jobName = .ok (some existing) ∧
        (existing.Misplaced ∨ OpenBy w'.clock existing)) := by
  obtain ⟨copy, job, row, copied, edited, stores, submitted, data, isData, isRow⟩ := httpUpsert_accepted ends
  refine ⟨data, isData, ?_⟩
  rw [isRow, returned_of_stored stores submitted (edited.scheduleKind.trans once) (edited.enabled.trans enabled)]
  simp only [Job.Misplaced, OpenBy, edited.partitionHash, edited.runOnceCompletedAt, edited.nextRunAt]
  cases copied with
  | @existing existing found _ =>
    constructor
    · exact fun holds => ⟨existing, found, holds⟩
    · rintro ⟨other, found', holds⟩
      rw [found] at found'
      cases found'
      exact holds
  | new missing _ =>
    constructor
    · rintro (⟨h, isSome, -⟩ | ⟨-, next, isSome, -⟩) <;> cases isSome
    · rintro ⟨existing, found, -⟩
      rw [missing] at found
      cases found

end Stored

/-- **When accepted run-once jobs become due.** A job upserted in process with `next_run_at` or `run_once_at` set to
`t` is returned by every due query from `t` on exactly if `next_run_at` is set and not after `t`. A job upserted
over HTTP is returned by every later due query exactly if it existed, was not completed, and already had a
fire time that has come. (A negative partition is owned by nobody, so nothing is asked of such a job.) -/
theorem run_once_due_iff (host : Host) :
    (∀ (w w' : World) (job : Job) (t : DateTime), job.scheduleKind = .runOnce → job.enabled = true →
      job.runOnceCompletedAt = none → job.nextRunAt = some t ∨ job.runOnceAt = some t →
      Ends .calm (CoordinatorService.upsertJob host job) w (some (.ok ())) w' →
      (ReturnedFrom w'.store job.jobId t ↔ job.Misplaced ∨ ∃ next, job.nextRunAt = some next ∧ next ≤ t)) ∧
    ∀ (w w' : World) (req : Axum.UpsertJobRequest) (response : Axum.ApiResponse Axum.JobResponse),
      req.scheduleKind = .runOnce → req.enabled = true →
      Ends .calm (Axum.upsertJob host req) w (some (.ok, response)) w' →
      ∃ data, response.data = some data ∧ (ReturnedFrom w'.store data.jobId w'.clock ↔
        ∃ existing, w.store.getJobByName req.jobName = .ok (some existing) ∧
          (existing.Misplaced ∨ OpenBy w'.clock existing)) :=
  ⟨fun _ _ _ _ once enabled uncompleted _ ends => returned_in_process_iff once enabled uncompleted ends,
    fun _ _ _ _ once enabled ends => returned_http_iff once enabled ends⟩

/-- The job is accepted. -/
def acceptedJob (out : Option (Result Unit) × World) : Bool :=
  match out.1 with
  | some (.ok ()) => true
  | _ => false

/-- The request is answered with success, for job `id`. -/
def acceptedRequest (id : String) (out : Option (Axum.StatusCode × Axum.ApiResponse Axum.JobResponse) × World) : Bool :=
  match out.1 with
  | some (.ok, response) => response.data.any (·.jobId == id)
  | _ => false

/-- What can be played to success ends so. -/
theorem ends_accepted (m : Task (Result Unit)) (w : World) (oracles : List Oracle)
    (played : (playAlone (fun _ => none) m w oracles).any acceptedJob = true) :
    Ends .calm m w (some (.ok ())) (playedTo (fun _ => none) m w oracles) := by
  obtain ⟨out, ends, accepted⟩ := Ends.exists_of_play .calm le_refl acceptedJob played
  unfold acceptedJob at accepted
  split at accepted
  · rename_i isOk
    dsimp only at isOk
    rw [isOk] at ends
    exact ends
  · cases accepted

theorem ends_acceptedJob (host : Host) (w : World) (job : Job) (oracles : List Oracle)
    (played : (playAlone (fun _ => none) (CoordinatorService.upsertJob host job) w oracles).any acceptedJob = true) :
    Ends .calm (CoordinatorService.upsertJob host job) w (some (.ok ()))
      (playedTo (fun _ => none) (CoordinatorService.upsertJob host job) w oracles) :=
  ends_accepted _ w oracles played

/-- An error is answered. -/
def refused {α : Type} (out : Option (Result α) × World) : Bool :=
  match out.1 with
  | some (.error _) => true
  | _ => false

/-- What can be played to an error ends so. -/
theorem exists_refused {α : Type} (m : Task (Result α)) (w : World) (oracles : List Oracle)
    (played : (playAlone (fun _ => none) m w oracles).any refused = true) :
    ∃ e, Ends .calm m w (some (.error e)) (playedTo (fun _ => none) m w oracles) := by
  obtain ⟨out, ends, isRefused⟩ := Ends.exists_of_play .calm le_refl refused played
  unfold refused at isRefused
  split at isRefused
  · rename_i e isError
    dsimp only at isError
    rw [isError] at ends
    exact ⟨e, ends⟩
  · cases isRefused

/-- The world after a request. -/
def requested (host : Host) (w : World) (req : Axum.UpsertJobRequest) (oracles : List Oracle) : World :=
  playedTo (fun _ => none) (Axum.upsertJob host req) w oracles

theorem exists_acceptedRequest (host : Host) (w : World) (req : Axum.UpsertJobRequest) (oracles : List Oracle) (id : String)
    (played : (playAlone (fun _ => none) (Axum.upsertJob host req) w oracles).any (acceptedRequest id) = true) :
    ∃ response data, Ends .calm (Axum.upsertJob host req) w (some (.ok, response)) (requested host w req oracles) ∧
      response.data = some data ∧ data.jobId = id := by
  obtain ⟨out, ends, accepted⟩ := Ends.exists_of_play .calm le_refl (acceptedRequest id) played
  unfold acceptedRequest at accepted
  split at accepted
  · rename_i response isOk
    dsimp only at isOk
    rw [isOk] at ends
    obtain ⟨data, isData, isJob⟩ := (Option.any_eq_true _ _).mp accepted
    exact ⟨response, data, ends, isData, beq_iff_eq.mp isJob⟩
  · cases accepted

/-- An empty store at one minute. -/
def emptyWorld : World := .fresh ⟨Store.new, seconds 60, fun _ => [0]⟩

/-- A run-once request for a job of that name. -/
def importRequest : Axum.UpsertJobRequest where
  jobName := "import"
  scriptName := "noop"
  cronExpr := none
  timezone := none
  scheduleKind := .runOnce
  params := .null
  enabled := true
  concurrency := 1
  timeoutMs := none
  actorJson := none
  retryPolicy := none
  misfirePolicy := none
  pool := none

/-- A run-once job with its fire time set, and one edited over HTTP after its time has come. -/
theorem run_once_due_iff_set :
    (∃ w', ReturnedFrom w'.store "j" (seconds 60) ∧
        Ends .calm (CoordinatorService.upsertJob .simple dueOnceJob) emptyWorld (some (.ok ())) w') ∧
      ∃ response w', Ends .calm (Axum.upsertJob .simple importRequest) (.fresh (.single dueOnceJob (seconds 60)))
        (some (.ok, response)) w' ∧ ∃ data, response.data = some data ∧ ReturnedFrom w'.store data.jobId w'.clock := by
  obtain ⟨inProcess, overHttp⟩ := run_once_due_iff .simple
  constructor
  · have ends := ends_acceptedJob .simple emptyWorld dueOnceJob [.uuid "rev"] (by decide +kernel)
    refine ⟨_, ?_, ends⟩
    rw [show "j" = dueOnceJob.jobId from rfl, inProcess _ _ _ (seconds 60) rfl rfl rfl (.inl rfl) ends]
    exact .inr ⟨seconds 60, rfl, le_refl _⟩
  · obtain ⟨response, _, ends, -⟩ := exists_acceptedRequest .simple (.fresh (.single dueOnceJob (seconds 60))) importRequest
      [.uuid "rev"] "j" (by decide +kernel)
    obtain ⟨data, isData, returned⟩ := overHttp _ _ _ _ rfl rfl ends
    refine ⟨response, _, ends, data, isData, returned.mpr ⟨dueOnceJob, rfl, .inr ⟨rfl, seconds 60, rfl, ?_⟩⟩⟩
    exact ends.later forward_calm

/-- A job with only `run_once_at` set and a new job over HTTP never become due. -/
theorem run_once_never_due :
    (∃ w', Ends .calm (CoordinatorService.upsertJob .simple
        { dueOnceJob with nextRunAt := none, runOnceAt := some (seconds 60) }) emptyWorld (some (.ok ())) w' ∧
      ¬ ReturnedFrom w'.store "j" (seconds 60)) ∧
      ∃ response w', Ends .calm (Axum.upsertJob .simple importRequest) emptyWorld (some (.ok, response)) w' ∧
        ∃ data, response.data = some data ∧ ¬ ReturnedFrom w'.store data.jobId w'.clock := by
  constructor
  · have ends := ends_acceptedJob .simple emptyWorld
      { dueOnceJob with nextRunAt := none, runOnceAt := some (seconds 60) } [.uuid "rev"] (by decide +kernel)
    refine ⟨_, ends, fun returned => ?_⟩
    rcases (returned_in_process_iff rfl rfl rfl ends).mp returned with ⟨h, placed, negative⟩ | ⟨next, isSome, -⟩
    · cases placed
      cases negative
    · cases isSome
  · obtain ⟨response, _, ends, -⟩ := exists_acceptedRequest .simple emptyWorld importRequest [.uuid "j", .uuid "rev"] "j"
      (by decide +kernel)
    obtain ⟨data, isData, returned⟩ := returned_http_iff rfl rfl ends
    refine ⟨response, _, ends, data, isData, fun holds => ?_⟩
    obtain ⟨existing, found, -⟩ := returned.mp holds
    cases found

end Chronon
