import Chronon.Edit.RunOnceDue

/-!
# Revisions

`upsert_job` appends a revision before it writes the row, and the row can still
be refused: for a new job the name is looked up first, for a job that exists it
is not. Whether a revision is appended at all is decided by the number the
caller sends, and the first one is numbered 1 whatever the row says.
-/

namespace Chronon
set_option autoImplicit false

/-! ## A refused upsert -/

/-- The upsert gets as far as its revision, and the name index holds the name under another identifier. -/
def LeavesRevision (host : Host) (s : Store) (job : Job) : Prop :=
  ScheduleParses host job ∧
    (∃ holder, s.jobsByName.lookup job.jobName = some (job.jobName, holder) ∧ holder ≠ job.jobId) ∧
    ((∃ existing, s.jobs.lookup job.jobId = some existing ∧ existing.scriptName = job.scriptName ∧
        existing.currentRevision ≠ job.currentRevision) ∨
      (s.jobs.lookup job.jobId = none ∧ s.getJobByName job.jobName = .ok none))

section Refused

variable {host : Host} {s s' : Store} {row : Job} {e : ChrononError}

theorem revisions_append_ne (s : Store) (revision : JobRevision) : (s.appendRevision revision).2.revisions ≠ s.revisions := by
  intro same
  have kept := Store.history_congr same revision.jobId
  rw [Store.history_appendRevision, if_pos rfl] at kept
  simp at kept

/-- A refused upsert leaves the store as it was, or it leaves its revision there. -/
theorem Upserts.refused (upserts : Upserts s row (.error e) s') (parses : ScheduleParses host row) :
    (s' = s ∧ ¬ LeavesRevision host s row) ∨ (s'.revisions ≠ s.revisions ∧ LeavesRevision host s row) := by
  cases upserts with
  | mismatch found other =>
    refine .inl ⟨rfl, fun ⟨_, _, stored⟩ => ?_⟩
    rw [found] at stored
    rcases stored with ⟨_, ⟨⟩, same, _⟩ | ⟨⟨⟩, _⟩
    exact other same
  | kept found script unchanged writes =>
    refine .inl ⟨(Store.writeJob_refused writes).1, fun ⟨_, _, stored⟩ => ?_⟩
    rw [found] at stored
    rcases stored with ⟨_, ⟨⟩, _, differs⟩ | ⟨⟨⟩, _⟩
    exact differs unchanged
  | taken absent held =>
    refine .inl ⟨rfl, fun ⟨_, _, stored⟩ => ?_⟩
    rw [absent, held] at stored
    rcases stored with ⟨_, ⟨⟩, _⟩ | ⟨-, free⟩
    cases free
  | @revised existing revision _ _ found script differs records writes =>
    obtain ⟨rfl, holder, held, other⟩ := Store.writeJob_refused writes
    exact .inr ⟨revisions_append_ne s revision, parses, ⟨holder, held, other⟩, .inl ⟨existing, found, script, differs⟩⟩
  | @first revision _ _ absent free records writes =>
    obtain ⟨rfl, holder, held, other⟩ := Store.writeJob_refused writes
    exact .inr ⟨revisions_append_ne s revision, parses, ⟨holder, held, other⟩, .inr ⟨absent, free⟩⟩

end Refused

/-- **A refused upsert changes nothing, except** where it has appended its revision before the write found the name
taken: a job that exists, sent under a new revision number with a name of another job. -/
theorem refused_upsert_unchanged_iff {host : Host} {job : Job} {w w' : World} {e : ChrononError}
    (refused : Ends .calm (CoordinatorService.upsertJob host job) w (some (.error e)) w') :
    (w'.store.jobs = w.store.jobs ∧ w'.store.jobsByName = w.store.jobsByName ∧
        w'.store.revisions = w.store.revisions) ↔ ¬ LeavesRevision host w.store job := by
  rcases upsertJob_upserts refused with ⟨unparsed, -, same⟩ | ⟨row, parses, ⟨copy, -, -⟩, upserts⟩
  · rw [same]
    exact ⟨fun _ leaves => unparsed leaves.1, fun _ => ⟨rfl, rfl, rfl⟩⟩
  · rw [withPartition_fields] at copy
    have alike : LeavesRevision host w.store row ↔ LeavesRevision host w.store job := by
      rw [copy]
      exact Iff.rfl
    have rowParses : ScheduleParses host row := by
      rw [copy]
      exact parses
    rcases upserts.refused rowParses with ⟨same, stays⟩ | ⟨changed, leaves⟩
    · rw [same, ← alike]
      exact ⟨fun _ => stays, fun _ => ⟨rfl, rfl, rfl⟩⟩
    · rw [← alike]
      exact ⟨fun unchanged => (changed unchanged.2.2).elim, fun stays => (stays leaves).elim⟩

/-- A store with two jobs. -/
def twoJobs : World :=
  .fresh ⟨((Store.new.writeJob dueOnceJob).2.writeJob { dueOnceJob with jobId := "k", jobName := "export" }).2,
    seconds 60, fun _ => [0]⟩

/-- The second job under the first one's name. -/
def renamedJob : Job := { dueOnceJob with jobId := "k" }

/-- Without a new revision number nothing is recorded. -/
theorem refused_upsert_unchanged_renamed :
    ∃ e w', Ends .calm (CoordinatorService.upsertJob .simple renamedJob) twoJobs (some (.error e)) w' ∧
      w'.store.revisions = twoJobs.store.revisions := by
  obtain ⟨e, ends⟩ := exists_refused (CoordinatorService.upsertJob .simple renamedJob) twoJobs [] (by decide +kernel)
  refine ⟨e, _, ends, ((refused_upsert_unchanged_iff ends).mpr ?_).2.2⟩
  rintro ⟨-, -, ⟨existing, found, -, differs⟩ | ⟨absent, -⟩⟩
  · have stored : twoJobs.store.jobs.lookup "k" = some { dueOnceJob with jobId := "k", jobName := "export" } := rfl
    cases found.symm.trans stored
    exact differs rfl
  · cases absent

/-- With one, the refused upsert is on record. -/
theorem refused_upsert_recorded :
    ∃ e w', Ends .calm (CoordinatorService.upsertJob .simple { renamedJob with currentRevision := 2 }) twoJobs
        (some (.error e)) w' ∧ w'.store.revisions ≠ twoJobs.store.revisions := by
  obtain ⟨e, ends⟩ := exists_refused (CoordinatorService.upsertJob .simple { renamedJob with currentRevision := 2 })
    twoJobs [.uuid "rev"] (by decide +kernel)
  refine ⟨e, _, ends, fun same => ?_⟩
  have kept := Store.history_congr same "k"
  have recorded : ((playedTo (fun _ => none) (CoordinatorService.upsertJob .simple { renamedJob with currentRevision := 2 })
      twoJobs [.uuid "rev"]).store.history "k").length = 1 := by decide +kernel
  rw [kept] at recorded
  cases recorded

/-! ## What is on record -/

/-- The fields a caller configures: all but the claims, the fire time, the revision number and the stamps. -/
def Job.configuration (job : Job) : Job :=
  { job with
    runOnceClaimedAt := none
    runOnceClaimedBy := none
    runOnceCompletedAt := none
    runOnceClaimExpiresAt := none
    claimLeaseId := none
    claimLeaseUntil := none
    nextRunAt := none
    currentRevision := 0
    updatedAt := 0
    createdAt := 0 }

/-- A successful upsert, with the world it found. -/
structure UpsertStep where
  before : World
  job : Job

/-- Successful upserts and deletions one after another, latest upsert first. -/
inductive Upserted (host : Host) (w : World) : List UpsertStep → World → Prop
  | start : Upserted host w [] w
  | upsert {history : List UpsertStep} {before after : World} {job : Job} : Upserted host w history before →
      Ends .calm (CoordinatorService.upsertJob host job) before (some (.ok ())) after →
      Upserted host w (⟨before, job⟩ :: history) after
  | delete {history : List UpsertStep} {before after : World} {jobId : String} {removed : Bool} :
      Upserted host w history before →
      Ends .calm (CoordinatorService.deleteJob jobId) before (some (.ok removed)) after → Upserted host w history after
  | drift {history : List UpsertStep} {before after : World} {e : Env} : Upserted host w history before →
      drift e before = some after → Upserted host w history after

/-- The revisions of a stored row end with its configuration under its number, and never record two configurations
under one number. -/
structure OnRecord (revisions : List JobRevision) (row : Job) : Prop where
  last : ∃ last, revisions.getLast? = some last ∧ last.revisionNumber = row.currentRevision ∧
    last.snapshotJson.configuration = row.configuration
  apart : ∀ a ∈ revisions, ∀ b ∈ revisions, a.snapshotJson.configuration ≠ b.snapshotJson.configuration →
    a.revisionNumber ≠ b.revisionNumber

/-- The numbers a caller sends: 1 for a new job; the stored one only with the stored configuration; else one under
which no other configuration is recorded. -/
structure UpsertStep.Numbered (host : Host) (step : UpsertStep) : Prop where
  new : step.before.job step.job.jobId = none → step.job.currentRevision = 1
  kept : ∀ existing, step.before.job step.job.jobId = some existing →
    existing.currentRevision = step.job.currentRevision →
    (CoordinatorService.withPartition host step.job).configuration = existing.configuration
  changed : ∀ existing, step.before.job step.job.jobId = some existing →
    existing.currentRevision ≠ step.job.currentRevision →
    ∀ earlier ∈ step.before.store.history step.job.jobId, earlier.revisionNumber = step.job.currentRevision →
      earlier.snapshotJson.configuration = (CoordinatorService.withPartition host step.job).configuration

/-- Every stored job is on record, and no other has revisions. -/
structure AllOnRecord (s : Store) : Prop where
  stored : ∀ id row, s.jobs.lookup id = some row → OnRecord (s.history id) row
  others : ∀ id, s.jobs.lookup id = none → s.history id = []

section Record

variable {host : Host} {s s' : Store} {row : Job} {id : String} {w w' : World} {revisions : List JobRevision}

/-- A configuration is recorded under a number nothing else is recorded under. -/
theorem OnRecord.append {revision : JobRevision} (records : Records row row.currentRevision revision)
    (apart : ∀ a ∈ revisions, ∀ b ∈ revisions, a.snapshotJson.configuration ≠ b.snapshotJson.configuration →
      a.revisionNumber ≠ b.revisionNumber)
    (unused : ∀ earlier ∈ revisions, earlier.revisionNumber = row.currentRevision →
      earlier.snapshotJson.configuration = row.configuration) : OnRecord (revisions ++ [revision]) row := by
  have snapshot : revision.snapshotJson.configuration = row.configuration := by rw [records.snapshotJson]
  refine ⟨⟨revision, by simp, records.revisionNumber, snapshot⟩, fun a insideA b insideB differ same => ?_⟩
  rw [List.mem_append, List.mem_singleton] at insideA insideB
  rcases insideA with insideA | rfl
  · rcases insideB with insideB | rfl
    · exact apart a insideA b insideB differ same
    · exact differ ((unused a insideA (same.trans records.revisionNumber)).trans snapshot.symm)
  · rcases insideB with insideB | rfl
    · exact differ (snapshot.trans (unused b insideB (same.symm.trans records.revisionNumber)).symm)
    · exact differ rfl

/-- The row is written after its revision list has become `revisions`. -/
theorem AllOnRecord.write {t : Store} (all : AllOnRecord s) (writes : t.writeJob row = (.ok (), s'))
    (jobs : t.jobs = s.jobs) (others : ∀ id, row.jobId ≠ id → t.history id = s.history id)
    (own : OnRecord (t.history row.jobId) row) : AllOnRecord s' := by
  have sameHistory := Store.history_congr (Store.writeJob_revisions writes)
  rcases Store.writeJob_cases writes with ⟨⟨e, isError⟩, -⟩ | ⟨-, -, rows⟩
  · cases isError
  · constructor
    · intro id row' stored
      rw [rows id, jobs] at stored
      rw [sameHistory]
      split at stored
      · rename_i isOwn
        subst isOwn
        cases stored
        exact own
      · rename_i other
        rw [others id other]
        exact all.stored id row' stored
    · intro id absent
      rw [rows id, jobs] at absent
      split at absent
      · cases absent
      · rename_i other
        rw [sameHistory, others id other]
        exact all.others id absent

/-- What an upsert has to send, said of the row it stores. -/
theorem AllOnRecord.upserts (all : AllOnRecord s) (upserts : Upserts s row (.ok ()) s')
    (new : s.jobs.lookup row.jobId = none → row.currentRevision = 1)
    (kept : ∀ existing, s.jobs.lookup row.jobId = some existing → existing.currentRevision = row.currentRevision →
      row.configuration = existing.configuration)
    (changed : ∀ existing, s.jobs.lookup row.jobId = some existing → existing.currentRevision ≠ row.currentRevision →
      ∀ earlier ∈ s.history row.jobId, earlier.revisionNumber = row.currentRevision →
        earlier.snapshotJson.configuration = row.configuration) : AllOnRecord s' := by
  have recorded {revision : JobRevision} (records : Records row row.currentRevision revision)
      (writes : (s.appendRevision revision).2.writeJob row = (.ok (), s'))
      (apart : ∀ a ∈ s.history row.jobId, ∀ b ∈ s.history row.jobId,
        a.snapshotJson.configuration ≠ b.snapshotJson.configuration → a.revisionNumber ≠ b.revisionNumber)
      (unused : ∀ earlier ∈ s.history row.jobId, earlier.revisionNumber = row.currentRevision →
        earlier.snapshotJson.configuration = row.configuration) : AllOnRecord s' := by
    refine all.write writes rfl (fun id other => ?_) ?_
    · rw [Store.history_appendRevision, if_neg (by rwa [records.jobId])]
    · rw [Store.history_appendRevision, if_pos records.jobId]
      exact .append records apart unused
  cases upserts with
  | kept found script same writes =>
    have before := all.stored row.jobId _ found
    obtain ⟨last, isLast, number, snapshot⟩ := before.last
    refine all.write writes rfl (fun _ _ => rfl) ⟨⟨last, isLast, number.trans same, ?_⟩, before.apart⟩
    exact snapshot.trans (kept _ found same).symm
  | revised found script differs records writes =>
    exact recorded records writes (all.stored row.jobId _ found).apart (changed _ found differs)
  | first absent free records writes =>
    rw [← new absent] at records
    refine recorded records writes ?_ ?_ <;> rw [all.others row.jobId absent] <;> rintro _ ⟨⟩

theorem AllOnRecord.delete {jobId : String} {r : Result Bool} (all : AllOnRecord s)
    (ran : s.deleteJob jobId = (r, s')) : AllOnRecord s' := by
  obtain ⟨-, -, others, gone⟩ := Store.deleteJob_cases ran
  have lists := Store.history_deleteJob ran
  have gone_or {id : String} (absent : s.jobs.lookup id = none ∨ jobId = id) : s'.history id = [] := by
    rw [lists id]
    split
    · rfl
    · rename_i stays
      rcases absent with absent | rfl
      · exact all.others id absent
      · refine all.others jobId ?_
        simpa using stays
  constructor
  · intro id row stored
    have other : jobId ≠ id := by
      rintro rfl
      rw [gone] at stored
      cases stored
    rw [others id other] at stored
    rw [lists id, if_neg fun own => other own.1]
    exact all.stored id row stored
  · intro id absent
    by_cases own : jobId = id
    · exact gone_or (.inr own)
    · rw [others id own] at absent
      exact gone_or (.inl absent)

/-- Only lookups matter. -/
theorem AllOnRecord.drift {e : Env} (all : AllOnRecord w.store) (drifts : drift e w = some w') :
    AllOnRecord w'.store := by
  obtain ⟨-, jobs, -, -⟩ := drift_cases drifts
  have lists : ∀ id, w'.store.history id = w.store.history id := Store.history_congr (drift_untouched drifts).1
  constructor
  · intro id row stored
    rw [lists]
    exact all.stored id row ((jobs id).symm.trans stored)
  · intro id absent
    rw [lists]
    exact all.others id ((jobs id).symm.trans absent)

theorem Upserted.allOnRecord {history : List UpsertStep} (upserted : Upserted host w history w')
    (start : AllOnRecord w.store) (numbered : ∀ step ∈ history, step.Numbered host) : AllOnRecord w'.store := by
  induction upserted with
  | start => exact start
  | @upsert history before after job _ ends ih =>
    rw [List.forall_mem_cons] at numbered
    obtain ⟨step, earlier⟩ := numbered
    rcases upsertJob_upserts ends with ⟨-, ⟨_, ⟨⟩⟩, -⟩ | ⟨row, -, ⟨copy, -, -⟩, upserts⟩
    have parts := withPartition_fields host job
    have config : row.configuration = (CoordinatorService.withPartition host job).configuration := by
      rw [copy]
      rfl
    have isJob : row.jobId = job.jobId ∧ row.currentRevision = job.currentRevision := by
      rw [copy, parts]
      exact ⟨rfl, rfl⟩
    refine (ih earlier).upserts upserts ?_ ?_ ?_ <;> rw [isJob.1, isJob.2]
    · exact step.new
    · rw [config]
      exact step.kept
    · rw [config]
      exact step.changed
  | delete _ ends ih =>
    obtain ⟨r, w₁, deletes, -, rfl⟩ := ends
    exact (ih numbered).delete (deletes.exec rfl)
  | drift _ drifts ih => exact (ih numbered).drift drifts

end Record

/-- **The revision history records every stored configuration** where every upsert is numbered as its doc says: after
any such upserts and deletions from an empty store, the last revision of every stored job carries its number
and its configuration, and configurations that differ are recorded under different numbers. -/
theorem revisions_record_configurations {host : Host} {w w' : World} {history : List UpsertStep}
    (upserted : Upserted host w history w') (empty : w.store = Store.new)
    (numbered : ∀ step ∈ history, step.Numbered host) :
    ∀ id row, w'.job id = some row → ∃ revisions, w'.store.listRevisions id = .ok revisions ∧ OnRecord revisions row := by
  have start : AllOnRecord w.store := by
    rw [empty]
    refine ⟨fun id row stored => ?_, fun _ _ => rfl⟩
    cases stored
  intro id row stored
  exact ⟨_, Store.listRevisions_eq _ id, (upserted.allOnRecord start numbered).stored id row stored⟩

/-- The run-once job is created, as revision 1. -/
def createdWorld : World := playedTo (fun _ => none) (CoordinatorService.upsertJob .simple dueOnceJob) emptyWorld [.uuid "rev"]

theorem created_upserted : Upserted .simple emptyWorld [⟨emptyWorld, dueOnceJob⟩] createdWorld :=
  Upserted.start.upsert (ends_acceptedJob .simple emptyWorld dueOnceJob [.uuid "rev"] (by decide +kernel))

/-- Then it is edited under the next number. -/
theorem revisions_record_configurations_edited :
    ∃ history w' row, Upserted .simple emptyWorld history w' ∧ w'.job "j" = some row ∧ row.currentRevision = 2 ∧
      ∃ revisions, w'.store.listRevisions "j" = .ok revisions ∧ OnRecord revisions row := by
  have edited := ends_acceptedJob .simple createdWorld { dueOnceJob with enabled := false, currentRevision := 2 }
    [.uuid "rev2"] (by decide +kernel)
  have upserted := created_upserted.upsert edited
  refine ⟨_, _, { dueOnceJob with enabled := false, currentRevision := 2, updatedAt := seconds 60 }, upserted, rfl, rfl,
    revisions_record_configurations upserted rfl ?_ _ _ rfl⟩
  have numbers : (createdWorld.store.history "j").map JobRevision.revisionNumber = [1] := by decide +kernel
  rw [List.forall_mem_cons, List.forall_mem_singleton]
  constructor
  · refine ⟨nofun, fun existing found same => ?_, fun existing found _ earlier recorded same => ?_⟩
    · cases found
      cases same
    · have isFirst : earlier.revisionNumber ∈ [1] := by
        rw [← numbers]
        exact List.mem_map_of_mem recorded
      rw [same] at isFirst
      exact absurd isFirst (by decide)
  · have new : emptyWorld.job "j" = none := rfl
    refine ⟨fun _ => rfl, fun existing found => ?_, fun existing found => ?_⟩ <;> cases new.symm.trans found

/-- A job edited under its old number is not on record, nor is a new one under a number of its own. -/
theorem configuration_unrecorded :
    (∃ history w' row, Upserted .simple emptyWorld history w' ∧ w'.job "j" = some row ∧
        ∀ revisions, w'.store.listRevisions "j" = .ok revisions → ¬ OnRecord revisions row) ∧
      ∃ step w' row, Upserted .simple emptyWorld [step] w' ∧ w'.job "j" = some row ∧
        ∀ revisions, w'.store.listRevisions "j" = .ok revisions → ¬ OnRecord revisions row := by
  constructor
  · have edited := ends_acceptedJob .simple createdWorld { dueOnceJob with enabled := false } [] (by decide +kernel)
    refine ⟨_, _, { dueOnceJob with enabled := false, updatedAt := seconds 60 }, created_upserted.upsert edited, rfl,
      fun revisions listed onRecord => ?_⟩
    cases listed
    obtain ⟨last, isLast, -, snapshot⟩ := onRecord.last
    cases isLast
    exact absurd (congrArg Job.enabled snapshot) (by decide)
  · have created := ends_acceptedJob .simple emptyWorld { dueOnceJob with currentRevision := 5 } [.uuid "rev"]
      (by decide +kernel)
    refine ⟨_, _, { dueOnceJob with currentRevision := 5, updatedAt := seconds 60 }, Upserted.start.upsert created, rfl,
      fun revisions listed onRecord => ?_⟩
    cases listed
    obtain ⟨last, isLast, number, -⟩ := onRecord.last
    cases isLast
    cases number

end Chronon
