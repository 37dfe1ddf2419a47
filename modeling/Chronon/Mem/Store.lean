import Chronon.Collections.Table
import Chronon.Core.Job
import Chronon.Core.Run

/-!
# `chronon-backend-mem/src/store/mod.rs`, `jobs.rs` and `coordinator.rs`

The in-memory store: one table for each map behind a lock. An operation that
writes returns its answer with the store it leaves; an operation that reads
the clock takes the reading as `clock`. A value changed through `get_mut` is
written back with `insert`, which replaces it in place.
-/

namespace Chronon
set_option autoImplicit false

open Collections

/-- `InMemorySchedulerStore`. -/
structure Store where
  jobs : Table Job.jobId
  jobsByName : Table (Prod.fst : String × String → String)
  runs : Table Run.runId
  revisions : Table (Prod.fst : String × List JobRevision → String)
  scripts : Table Script.scriptName
  leader : Option SchedulerLeader
  partitions : Table PartitionAssignment.partitionId
  workers : Table Worker.workerId

/-- `LEADER_ROW_ID`. -/
def leaderRowId : String := "singleton"

namespace Store

/-- `InMemorySchedulerStore::new`. -/
def new : Store := ⟨.empty, .empty, .empty, .empty, .empty, none, .empty, .empty⟩

/-- Write a job row in place, without touching the name index. -/
def setJob (s : Store) (job : Job) : Store := { s with jobs := s.jobs.insert job }

def setRun (s : Store) (run : Run) : Store := { s with runs := s.runs.insert run }

/-! ## `mod.rs` -/

/-- `write_job`. -/
def writeJob (s : Store) (job : Job) : Result Unit × Store :=
  let write : Result Unit × Store :=
    let byName := match s.jobs.lookup job.jobId with
      | some previous =>
        if previous.jobName ≠ job.jobName then s.jobsByName.erase previous.jobName else s.jobsByName
      | none => s.jobsByName
    (.ok (), { s with jobsByName := byName.insert (job.jobName, job.jobId), jobs := s.jobs.insert job })
  match s.jobsByName.lookup job.jobName with
  | some (_, existingJobId) =>
    if existingJobId ≠ job.jobId then (.error (.jobNameTaken job.jobName existingJobId), s) else write
  | none => write

/-- `remove_job`. -/
def removeJob (s : Store) (jobId : String) : Bool × Store :=
  match s.jobs.lookup jobId with
  | none => (false, s)
  | some job =>
    (true, { s with
      jobs := s.jobs.erase jobId
      jobsByName := s.jobsByName.erase job.jobName
      revisions := s.revisions.erase jobId })

/-- `mutate_job_at`. -/
def mutateJobAt (s : Store) (jobId : String) (now : DateTime) (f : Job → Job) : Result Unit × Store :=
  match s.jobs.lookup jobId with
  | none => (.error (.jobNotFound jobId), s)
  | some job => (.ok (), s.setJob { f job with updatedAt := now })

/-- `mutate_job`, which stamps the current time. -/
def mutateJob (s : Store) (clock : DateTime) (jobId : String) (f : Job → Job) : Result Unit × Store :=
  s.mutateJobAt jobId clock f

/-! ## `jobs.rs` -/

def upsertJob (s : Store) (job : Job) : Result Unit × Store := s.writeJob job

def getJob (s : Store) (jobId : String) : Result (Option Job) := .ok (s.jobs.lookup jobId)

def getJobByName (s : Store) (jobName : String) : Result (Option Job) :=
  match s.jobsByName.lookup jobName with
  | some (_, jobId) => s.getJob jobId
  | none => .ok none

def listJobs (s : Store) : Result (List Job) := .ok s.jobs.rows

def listDueJobs (s : Store) (before : DateTime) : Result (List Job) :=
  .ok (s.jobs.rows.filter fun j => j.enabled && j.nextRunAt.any (· ≤ before))

def deleteJob (s : Store) (jobId : String) : Result Bool × Store :=
  let (removed, s') := s.removeJob jobId
  (.ok removed, s')

def pauseJob (s : Store) (clock : DateTime) (jobId : String) : Result Unit × Store :=
  s.mutateJob clock jobId fun j => { j with enabled := false }

def resumeJob (s : Store) (clock : DateTime) (jobId : String) : Result Unit × Store :=
  s.mutateJob clock jobId fun j => { j with enabled := true }

/-! ## `coordinator.rs` -/

def appendRevision (s : Store) (revision : JobRevision) : Result Unit × Store :=
  let earlier := match s.revisions.lookup revision.jobId with
    | some (_, revisions) => revisions
    | none => []
  (.ok (), { s with revisions := s.revisions.insert (revision.jobId, earlier ++ [revision]) })

def listRevisions (s : Store) (jobId : String) : Result (List JobRevision) :=
  .ok (match s.revisions.lookup jobId with
    | some (_, revisions) => revisions
    | none => [])

def upsertScript (s : Store) (script : Script) : Result Unit × Store :=
  (.ok (), { s with scripts := s.scripts.insert script })

def getScript (s : Store) (scriptName : String) : Result (Option Script) := .ok (s.scripts.lookup scriptName)

def tryAcquireLeader (s : Store) (clock : DateTime) (instanceId : String) (ttlSecs : Int) : Result Bool × Store :=
  let acquired : SchedulerLeader := ⟨leaderRowId, instanceId, clock + seconds ttlSecs, clock⟩
  match s.leader with
  | some row =>
    if row.leaderLeaseUntil > clock ∧ row.leaderInstanceId ≠ instanceId then (.ok false, s)
    else (.ok true, { s with leader := some acquired })
  | none => (.ok true, { s with leader := some acquired })

def renewLeaderLease (s : Store) (clock : DateTime) (instanceId : String) (ttlSecs : Int) : Result Unit × Store :=
  match s.leader with
  | none => (.ok (), s)
  | some row =>
    if row.leaderInstanceId ≠ instanceId then (.ok (), s)
    else (.ok (), { s with
      leader := some { row with leaderLeaseUntil := clock + seconds ttlSecs, lastHeartbeatAt := clock } })

def getLeader (s : Store) : Result (Option SchedulerLeader) := .ok s.leader

def upsertPartitionAssignment (s : Store) (assignment : PartitionAssignment) : Result Unit × Store :=
  (.ok (), { s with partitions := s.partitions.insert assignment })

def listPartitionAssignments (s : Store) : Result (List PartitionAssignment) := .ok s.partitions.rows

def registerWorker (s : Store) (worker : Worker) : Result Unit × Store :=
  (.ok (), { s with workers := s.workers.insert worker })

def heartbeatWorker (s : Store) (workerId : String) (at' : DateTime) : Result Unit × Store :=
  match s.workers.lookup workerId with
  | none => (.error (.internal ("worker not registered: " ++ workerId)), s)
  | some worker => (.ok (), { s with workers := s.workers.insert { worker with lastHeartbeatAt := at', updatedAt := at' } })

/-! ## What the operations of coordinators and workers leave -/

/-- The tables of jobs and runs are as they were. -/
structure SameTables (s s' : Store) : Prop where
  jobs : s'.jobs = s.jobs
  jobsByName : s'.jobsByName = s.jobsByName
  runs : s'.runs = s.runs

theorem SameTables.refl (s : Store) : s.SameTables s := ⟨rfl, rfl, rfl⟩

theorem tryAcquireLeader_tables {s s' : Store} {clock : DateTime} {instanceId : String} {ttl : Int} {r : Result Bool}
    (ran : s.tryAcquireLeader clock instanceId ttl = (r, s')) : s.SameTables s' := by
  simp only [tryAcquireLeader] at ran
  split at ran
  · split at ran <;> cases ran <;> exact ⟨rfl, rfl, rfl⟩
  · cases ran
    exact ⟨rfl, rfl, rfl⟩

theorem renewLeaderLease_tables {s s' : Store} {clock : DateTime} {instanceId : String} {ttl : Int} {r : Result Unit}
    (ran : s.renewLeaderLease clock instanceId ttl = (r, s')) : s.SameTables s' := by
  simp only [renewLeaderLease] at ran
  split at ran
  · cases ran
    exact .refl s
  · split at ran <;> cases ran <;> exact ⟨rfl, rfl, rfl⟩

theorem heartbeatWorker_tables {s s' : Store} {workerId : String} {time : DateTime} {r : Result Unit}
    (ran : s.heartbeatWorker workerId time = (r, s')) : s.SameTables s' := by
  simp only [heartbeatWorker] at ran
  split at ran <;> cases ran <;> exact ⟨rfl, rfl, rfl⟩

/-! ## What the job operations do -/

theorem lookup_setJob (s : Store) (job : Job) (j : String) :
    (s.setJob job).jobs.lookup j = if job.jobId = j then some job else s.jobs.lookup j :=
  Table.lookup_insert s.jobs job j

theorem lookup_setRun (s : Store) (run : Run) (r : String) :
    (s.setRun run).runs.lookup r = if run.runId = r then some run else s.runs.lookup r :=
  Table.lookup_insert s.runs run r

/-- A changed row is stored under the identifier it was found under. -/
theorem mutateJobAt_cases {s s' : Store} {jobId : String} {now : DateTime} {f : Job → Job} {r : Result Unit}
    (ran : s.mutateJobAt jobId now f = (r, s')) :
    (s.jobs.lookup jobId = none ∧ r = .error (.jobNotFound jobId) ∧ s' = s) ∨
    (∃ job, s.jobs.lookup jobId = some job ∧ r = .ok () ∧ s' = s.setJob { f job with updatedAt := now }) := by
  unfold mutateJobAt at ran
  cases found : s.jobs.lookup jobId with
  | none => rw [found] at ran; cases ran; exact .inl ⟨rfl, rfl, rfl⟩
  | some job => rw [found] at ran; cases ran; exact .inr ⟨job, rfl, rfl, rfl⟩

theorem writeJob_cases {s s' : Store} {job : Job} {r : Result Unit} (ran : s.writeJob job = (r, s')) :
    ((∃ e, r = .error e) ∧ s' = s) ∨
    (r = .ok () ∧ s'.runs = s.runs ∧
      ∀ j, s'.jobs.lookup j = if job.jobId = j then some job else s.jobs.lookup j) := by
  unfold writeJob at ran
  simp only at ran
  split at ran
  · split at ran
    · cases ran; exact .inl ⟨⟨_, rfl⟩, rfl⟩
    · cases ran; exact .inr ⟨rfl, rfl, Table.lookup_insert _ _⟩
  · cases ran; exact .inr ⟨rfl, rfl, Table.lookup_insert _ _⟩

/-- A refused write names the identifier the index holds, and writes nothing. -/
theorem writeJob_refused {s s' : Store} {job : Job} {e : ChrononError} (ran : s.writeJob job = (.error e, s')) :
    s' = s ∧ ∃ holder, s.jobsByName.lookup job.jobName = some (job.jobName, holder) ∧ holder ≠ job.jobId := by
  unfold writeJob at ran
  cases held : s.jobsByName.lookup job.jobName with
  | none =>
    rw [held] at ran
    cases ran
  | some entry =>
    obtain ⟨own, holder⟩ := entry
    obtain rfl : own = job.jobName := Table.key_of_lookup held
    rw [held] at ran
    dsimp only at ran
    split at ran
    · rename_i other
      cases ran
      exact ⟨rfl, holder, rfl, other⟩
    · cases ran

/-- The index after a write: the old one, without the job's old name, with the job's own entry. -/
theorem writeJob_index {s s' : Store} {job : Job} (ran : s.writeJob job = (.ok (), s')) :
    (∀ holder, s.jobsByName.lookup job.jobName = some (job.jobName, holder) → holder = job.jobId) ∧
      ∃ kept : Table (Prod.fst : String × String → String), s'.jobsByName = kept.insert (job.jobName, job.jobId) ∧
        (kept = s.jobsByName ∨ ∃ previous, s.jobs.lookup job.jobId = some previous ∧
          previous.jobName ≠ job.jobName ∧ kept = s.jobsByName.erase previous.jobName) := by
  have kept : ∀ index : Table (Prod.fst : String × String → String), index = (match s.jobs.lookup job.jobId with
      | some previous =>
        if previous.jobName ≠ job.jobName then s.jobsByName.erase previous.jobName else s.jobsByName
      | none => s.jobsByName) → index = s.jobsByName ∨ ∃ previous, s.jobs.lookup job.jobId = some previous ∧
        previous.jobName ≠ job.jobName ∧ index = s.jobsByName.erase previous.jobName := by
    rintro _ rfl
    split
    · split
      · exact .inr ⟨_, ‹_›, ‹_›, rfl⟩
      · exact .inl rfl
    · exact .inl rfl
  unfold writeJob at ran
  dsimp only at ran
  split at ran
  · rename_i found
    split at ran
    · cases ran
    · rename_i ours
      cases ran
      refine ⟨fun holder held => ?_, _, rfl, kept _ rfl⟩
      rw [held] at found
      cases found
      exact not_not.mp ours
  · rename_i absent
    cases ran
    refine ⟨fun holder held => ?_, _, rfl, kept _ rfl⟩
    rw [absent] at held
    cases held

/-- Writing a job row records no revision. -/
theorem writeJob_revisions {s s' : Store} {job : Job} {r : Result Unit} (ran : s.writeJob job = (r, s')) :
    s'.revisions = s.revisions := by
  unfold writeJob at ran
  simp only at ran
  split at ran
  · split at ran <;> cases ran <;> rfl
  · cases ran; rfl

theorem deleteJob_cases {s s' : Store} {jobId : String} {r : Result Bool} (ran : s.deleteJob jobId = (r, s')) :
    (∃ removed, r = .ok removed) ∧ s'.runs = s.runs ∧
      (∀ j, jobId ≠ j → s'.jobs.lookup j = s.jobs.lookup j) ∧ s'.jobs.lookup jobId = none := by
  unfold deleteJob removeJob at ran
  cases found : s.jobs.lookup jobId with
  | none =>
    rw [found] at ran
    cases ran
    exact ⟨⟨_, rfl⟩, rfl, fun _ _ => rfl, found⟩
  | some job =>
    rw [found] at ran
    cases ran
    exact ⟨⟨_, rfl⟩, rfl, fun j other => Table.lookup_erase_ne other, Table.lookup_erase_self _ _⟩

/-- The revisions recorded for a job, oldest first. -/
def history (s : Store) (jobId : String) : List JobRevision := ((s.revisions.lookup jobId).map Prod.snd).getD []

theorem listRevisions_eq (s : Store) (jobId : String) : s.listRevisions jobId = .ok (s.history jobId) := by
  unfold listRevisions history
  cases s.revisions.lookup jobId <;> rfl

/-- A revision is added at the end of its job's list. -/
theorem history_appendRevision (s : Store) (revision : JobRevision) (id : String) :
    (s.appendRevision revision).2.history id =
      if revision.jobId = id then s.history id ++ [revision] else s.history id := by
  unfold history appendRevision
  dsimp only
  rw [Table.lookup_insert]
  by_cases own : revision.jobId = id
  · subst own
    rw [if_pos rfl, if_pos rfl]
    cases s.revisions.lookup revision.jobId <;> rfl
  · rw [if_neg own, if_neg own]

theorem history_congr {s s' : Store} (same : s'.revisions = s.revisions) (id : String) :
    s'.history id = s.history id := by
  rw [history, same]
  rfl

/-- A deletion takes the revisions of a stored job with it. -/
theorem history_deleteJob {s s' : Store} {jobId : String} {r : Result Bool} (ran : s.deleteJob jobId = (r, s'))
    (id : String) :
    s'.history id = if jobId = id ∧ (s.jobs.lookup jobId).isSome then [] else s.history id := by
  unfold deleteJob removeJob at ran
  cases found : s.jobs.lookup jobId with
  | none =>
    rw [found] at ran
    cases ran
    simp
  | some job =>
    rw [found] at ran
    cases ran
    unfold history
    by_cases own : jobId = id
    · subst own
      simp [Table.lookup_erase_self]
    · simp [own, Table.lookup_erase_ne own]

end Store

end Chronon
