import Chronon.Collections.Index
import Chronon.Mem.Calls

/-!
# The name index of the in-memory store

`jobs_by_name` is written by `write_job` and `remove_job` only, each under both
locks. From the empty store it stays the exact inverse of the names of the
stored jobs, whatever calls are made and however jobs are renamed.
-/

namespace Chronon
set_option autoImplicit false

open Collections

namespace Store

/-- `jobs_by_name` is the inverse of the names of the stored jobs. -/
def NamesExact (s : Store) : Prop := Indexes s.jobsByName Job.jobName s.jobs

/-- The store after a sequence of calls, each at its own time. -/
def called (s : Store) : List (DateTime × StoreCall) → Store
  | [] => s
  | (clock, call) :: rest => (call.exec clock s).2.called rest

/-- Tables that are untouched keep the index exact. -/
theorem NamesExact.of_eq {s s' : Store} (exact : s.NamesExact) (jobs : s'.jobs = s.jobs)
    (index : s'.jobsByName = s.jobsByName) : s'.NamesExact := by
  unfold NamesExact
  rw [jobs, index]
  exact exact

/-- A row changed in place under its own identifier and name. -/
theorem NamesExact.setJob {s : Store} (exact : s.NamesExact) {jobId : String} {row row' : Job}
    (found : s.jobs.lookup jobId = some row) (id : row'.jobId = row.jobId) (name : row'.jobName = row.jobName) :
    (s.setJob row').NamesExact := by
  have key : row'.jobId = jobId := id.trans (Table.key_of_lookup found)
  exact Indexes.replace exact (key ▸ found) name

theorem NamesExact.mutateJobAt {s s' : Store} (exact : s.NamesExact) {jobId : String} {now : DateTime}
    {f : Job → Job} {r : Result Unit} (ran : s.mutateJobAt jobId now f = (r, s'))
    (id : ∀ row, (f row).jobId = row.jobId) (name : ∀ row, (f row).jobName = row.jobName) : s'.NamesExact := by
  obtain ⟨-, -, rfl⟩ | ⟨row, found, -, rfl⟩ := mutateJobAt_cases ran
  · exact exact
  · exact exact.setJob found (id row) (name row)

/-- **`write_job`.** A name held by another identifier is refused with its
holder; otherwise the row is stored and the index stays exact. -/
theorem NamesExact.writeJob {s s' : Store} (exact : s.NamesExact) {job : Job} {r : Result Unit}
    (ran : s.writeJob job = (r, s')) :
    (∃ holder row, holder ≠ job.jobId ∧ s.jobs.lookup holder = some row ∧ row.jobName = job.jobName ∧
      r = .error (.jobNameTaken job.jobName holder) ∧ s' = s) ∨
    (r = .ok () ∧ s'.jobs = s.jobs.insert job ∧ s'.NamesExact) := by
  unfold Store.writeJob at ran
  cases held : s.jobsByName.lookup job.jobName with
  | some entry =>
    obtain ⟨own, holder⟩ := entry
    obtain rfl : own = job.jobName := Table.key_of_lookup held
    obtain ⟨row, found, named⟩ := exact.row held
    rw [held] at ran
    dsimp only at ran found
    split at ran
    · rename_i other
      cases ran
      exact .inl ⟨holder, row, other, found, named, rfl, rfl⟩
    · rename_i ours
      obtain rfl : holder = job.jobId := not_not.mp ours
      rw [found] at ran
      simp only [named, ne_eq, not_true_eq_false, if_false] at ran
      cases ran
      exact .inr ⟨rfl, rfl, (Indexes.replace exact found named.symm).again (by rw [held])⟩
  | none =>
    rw [held] at ran
    cases found : s.jobs.lookup job.jobId with
    | none =>
      rw [found] at ran
      cases ran
      exact .inr ⟨rfl, rfl, Indexes.add exact found held⟩
    | some previous =>
      have differs : previous.jobName ≠ job.jobName := exact.unused held found
      rw [found] at ran
      simp only [differs, ne_eq, not_false_eq_true, if_true] at ran
      cases ran
      exact .inr ⟨rfl, rfl, Indexes.rename exact found differs held⟩

theorem NamesExact.deleteJob {s s' : Store} (exact : s.NamesExact) {jobId : String} {r : Result Bool}
    (ran : s.deleteJob jobId = (r, s')) : s'.NamesExact := by
  unfold Store.deleteJob removeJob at ran
  cases found : s.jobs.lookup jobId with
  | none =>
    rw [found] at ran
    cases ran
    exact exact
  | some job =>
    rw [found] at ran
    cases ran
    exact Indexes.erase exact found

/-- No call makes the index inexact. -/
theorem NamesExact.exec {s s' : Store} (exact : s.NamesExact) {clock : DateTime} {c : StoreCall} {r : Result c.Ret}
    (ran : c.exec clock s = (r, s')) : s'.NamesExact := by
  cases c with
  | upsertJob job =>
    obtain ⟨_, _, -, -, -, -, rfl⟩ | ⟨-, -, after⟩ := exact.writeJob ran
    · exact exact
    · exact after
  | deleteJob jobId => exact exact.deleteJob ran
  | pauseJob jobId => exact exact.mutateJobAt ran (fun _ => rfl) fun _ => rfl
  | resumeJob jobId => exact exact.mutateJobAt ran (fun _ => rfl) fun _ => rfl
  | markRunOnceCompleted jobId completedAt => exact exact.mutateJobAt ran (fun _ => rfl) fun _ => rfl
  | releaseRunOnceClaim jobId claimedBy now =>
    refine exact.mutateJobAt ran (fun row => ?_) fun row => ?_ <;> split <;> rfl
  | releaseJobTickClaim jobId => exact exact.mutateJobAt ran (fun _ => rfl) fun _ => rfl
  | persistPostTickJobState jobId nextRunAt => exact exact.mutateJobAt ran (fun _ => rfl) fun _ => rfl
  | tryClaimRunOnce jobId claimedBy now ttl =>
    obtain ⟨-, rfl⟩ | ⟨row, found, -, -, rfl⟩ := tryClaimRunOnce_cases ran
    · exact exact
    · exact exact.setJob found rfl rfl
  | claimJobForTick jobId claimId now ttl =>
    obtain ⟨-, rfl⟩ | ⟨row, found, -, -, -, rfl⟩ := claimJobForTick_cases ran
    · exact exact
    · exact exact.setJob found rfl rfl
  | updateRun run => obtain ⟨-, -, rfl⟩ | ⟨_, -, -, rfl⟩ := updateRun_cases ran <;> exact exact
  | claimNextQueued poolId workerId now ttl =>
    obtain ⟨-, rfl⟩ | ⟨_, -, -, -, rfl⟩ := claimNextQueued_cases ran <;> exact exact
  | claimRunById runId poolId workerId now ttl =>
    obtain ⟨-, rfl⟩ | ⟨_, -, -, -, rfl⟩ := claimRunById_cases ran <;> exact exact
  | renewRunLease runId workerId now ttl =>
    obtain ⟨-, rfl⟩ | ⟨_, -, -, -, -, rfl⟩ := renewRunLease_cases ran <;> exact exact
  | tryAcquireLeader instanceId ttl =>
    have same := tryAcquireLeader_tables ran
    exact exact.of_eq same.jobs same.jobsByName
  | renewLeaderLease instanceId ttl =>
    have same := renewLeaderLease_tables ran
    exact exact.of_eq same.jobs same.jobsByName
  | heartbeatWorker workerId at' =>
    have same := heartbeatWorker_tables ran
    exact exact.of_eq same.jobs same.jobsByName
  | _ => cases ran; exact exact

theorem NamesExact.called {s : Store} (exact : s.NamesExact) (calls : List (DateTime × StoreCall)) :
    (s.called calls).NamesExact := by
  induction calls generalizing s with
  | nil => exact exact
  | cons first rest ih => exact ih (exact.exec rfl)

theorem namesExact_new : new.NamesExact := Indexes.empty

/-- The index of a store that started empty. -/
theorem NamesExact.of_new (calls : List (DateTime × StoreCall)) : (new.called calls).NamesExact :=
  namesExact_new.called calls

/-- A name is found exactly if a stored job carries it. -/
theorem NamesExact.getJobByName {s : Store} (exact : s.NamesExact) (n : String) (job : Job) :
    s.getJobByName n = .ok (some job) ↔ ∃ i, s.jobs.lookup i = some job ∧ job.jobName = n := by
  unfold Store.getJobByName getJob
  constructor
  · intro answered
    cases held : s.jobsByName.lookup n with
    | none =>
      rw [held] at answered
      cases answered
    | some entry =>
      rw [held] at answered
      obtain ⟨row, found, named⟩ := exact.row held
      have same : some row = some job := found.symm.trans (Except.ok.inj answered)
      cases same
      exact ⟨entry.2, found, named⟩
  · rintro ⟨i, found, rfl⟩
    rw [exact.entry found]
    exact congrArg Except.ok found

end Store

/-- **The name index is exact.** After any sequence of calls from the empty
store: `jobs_by_name` is the inverse of the names of the stored jobs, names are
unique, a job is found by name exactly if one with this name is stored, and a
refused `upsert_job` changes nothing and names the true holder. -/
theorem name_index_exact (calls : List (DateTime × StoreCall)) :
    (∀ n i, (Store.new.called calls).jobsByName.lookup n = some (n, i) ↔
      ∃ job, (Store.new.called calls).jobs.lookup i = some job ∧ job.jobId = i ∧ job.jobName = n) ∧
    (∀ i j a b, (Store.new.called calls).jobs.lookup i = some a → (Store.new.called calls).jobs.lookup j = some b →
      a.jobName = b.jobName → i = j) ∧
    (∀ n job, (Store.new.called calls).getJobByName n = .ok (some job) ↔
      ∃ i, (Store.new.called calls).jobs.lookup i = some job ∧ job.jobName = n) ∧
    (∀ job name holder s', (Store.new.called calls).upsertJob job = (.error (.jobNameTaken name holder), s') →
      s' = Store.new.called calls ∧ name = job.jobName ∧ holder ≠ job.jobId ∧
        ∃ row, (Store.new.called calls).jobs.lookup holder = some row ∧ row.jobName = name) := by
  have exact : (Store.new.called calls).NamesExact := .of_new calls
  refine ⟨fun n i => ?_, fun _ _ _ _ found found' same => exact.unique found found' same, exact.getJobByName,
    fun job name holder s' refused => ?_⟩
  · rw [exact n i]
    constructor
    · rintro ⟨job, found, named⟩
      exact ⟨job, found, Table.key_of_lookup found, named⟩
    · rintro ⟨job, found, -, named⟩
      exact ⟨job, found, named⟩
  · obtain ⟨_, row, other, found, named, reason, rfl⟩ | ⟨accepted, -, -⟩ := exact.writeJob refused
    · injection reason with reason
      injection reason with sameName sameHolder
      subst sameName sameHolder
      exact ⟨rfl, rfl, other, row, found, named⟩
    · cases accepted

end Chronon
