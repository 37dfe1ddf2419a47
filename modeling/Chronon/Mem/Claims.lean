import Chronon.Mem.Store

/-!
# `chronon-backend-mem/src/store/claims.rs`

The two leases of a job row: the run-once claim and the tick claim, and the due
query that coordinators start from. Each operation comes with what it can do to
the store.
-/

namespace Chronon.Store
set_option autoImplicit false

open Collections

/-- `try_claim_run_once`. -/
def tryClaimRunOnce (s : Store) (jobId claimedBy : String) (now : DateTime) (claimTtlSecs : Int) :
    Result Bool × Store :=
  match s.jobs.lookup jobId with
  | none => (.ok false, s)
  | some job =>
    if job.runOnceCompletedAt.isSome then (.ok false, s)
    else if job.runOnceClaimedAt.isSome && job.runOnceClaimExpiresAt.any (· > now)
        && job.runOnceClaimedBy != some claimedBy then (.ok false, s)
    else
      (.ok true, s.setJob { job with
        runOnceClaimedAt := some now
        runOnceClaimedBy := some claimedBy
        runOnceClaimExpiresAt := some (now + seconds claimTtlSecs)
        updatedAt := now })

/-- `mark_run_once_completed`. -/
def markRunOnceCompleted (s : Store) (clock : DateTime) (jobId : String) (completedAt : DateTime) :
    Result Unit × Store :=
  s.mutateJob clock jobId fun j => { j with
    runOnceCompletedAt := some completedAt
    runOnceClaimedAt := none
    runOnceClaimedBy := none
    runOnceClaimExpiresAt := none }

/-- `release_run_once_claim`: only the holder's claim is cleared. -/
def releaseRunOnceClaim (s : Store) (jobId claimedBy : String) (now : DateTime) : Result Unit × Store :=
  s.mutateJobAt jobId now fun j =>
    if j.runOnceClaimedBy = some claimedBy then
      { j with runOnceClaimedAt := none, runOnceClaimedBy := none, runOnceClaimExpiresAt := none }
    else j

/-- The schedule part of the due filter: enabled, not manual, a fire at or
before `dueUntil`, not a completed run-once job. -/
def scheduleDue (dueUntil : DateTime) (j : Job) : Bool :=
  (j.enabled && j.scheduleKind != .manual) && j.nextRunAt.any (· ≤ dueUntil) &&
    (j.scheduleKind != .runOnce || j.runOnceCompletedAt.isNone)

/-- The rows `find_due_job_ids_in_partitions` keeps, with the clock it reads itself. -/
def isDue (clock : DateTime) (ownedPartitions : List Nat) (dueUntil : DateTime) (j : Job) : Bool :=
  scheduleDue dueUntil j && j.partitionHash.any (fun h : Int => ownedPartitions.any fun p => h == (p : Int)) &&
    j.claimLeaseUntil.all (· < clock)

/-- `find_due_job_ids_in_partitions`. The sort is stable, as in Rust. -/
def findDueJobIdsInPartitions (s : Store) (clock : DateTime) (ownedPartitions : List Nat) (dueUntil : DateTime)
    (limit : Nat) : Result (List String) :=
  if ownedPartitions.isEmpty || limit == 0 then .ok []
  else
    let due := s.jobs.rows.filter (isDue clock ownedPartitions dueUntil)
    let sorted := due.insertionSort fun a b => a.nextRunAt.getD dueUntil ≤ b.nextRunAt.getD dueUntil
    .ok ((sorted.take limit).map (·.jobId))

/-- `min_next_run_at_in_partitions`. -/
def minNextRunAtInPartitions (s : Store) (ownedPartitions : List Nat) : Result (Option DateTime) :=
  if ownedPartitions.isEmpty then .ok none
  else
    let mine := s.jobs.rows.filter fun j => (j.enabled && j.scheduleKind != .manual) &&
      j.partitionHash.any fun h : Int => ownedPartitions.any fun p => h == (p : Int)
    .ok (mine.filterMap (·.nextRunAt)).min?

/-- `claim_job_for_tick`. -/
def claimJobForTick (s : Store) (jobId claimId : String) (now : DateTime) (leaseTtlSecs : Int) :
    Result Bool × Store :=
  match s.jobs.lookup jobId with
  | none => (.ok false, s)
  | some job =>
    if !job.enabled then (.ok false, s)
    else if job.claimLeaseUntil.any (· ≥ now) then (.ok false, s)
    else
      (.ok true, s.setJob { job with
        claimLeaseId := some claimId
        claimLeaseUntil := some (now + seconds leaseTtlSecs)
        updatedAt := now })

/-- `release_job_tick_claim`: whoever's claim it is. -/
def releaseJobTickClaim (s : Store) (clock : DateTime) (jobId : String) : Result Unit × Store :=
  s.mutateJob clock jobId fun j => { j with claimLeaseId := none, claimLeaseUntil := none }

/-- `persist_post_tick_job_state`. -/
def persistPostTickJobState (s : Store) (clock : DateTime) (jobId : String) (nextRunAt : Option DateTime) :
    Result Unit × Store :=
  s.mutateJob clock jobId fun j => { j with nextRunAt := nextRunAt, claimLeaseId := none, claimLeaseUntil := none }

theorem tryClaimRunOnce_cases {s s' : Store} {jobId claimedBy : String} {now : DateTime} {ttl : Int}
    {r : Result Bool} (ran : s.tryClaimRunOnce jobId claimedBy now ttl = (r, s')) :
    (r = .ok false ∧ s' = s) ∨
    (∃ job, s.jobs.lookup jobId = some job ∧ job.runOnceCompletedAt = none ∧ r = .ok true ∧
      s' = s.setJob { job with
        runOnceClaimedAt := some now
        runOnceClaimedBy := some claimedBy
        runOnceClaimExpiresAt := some (now + seconds ttl)
        updatedAt := now }) := by
  unfold tryClaimRunOnce at ran
  split at ran
  · cases ran; exact .inl ⟨rfl, rfl⟩
  · rename_i job found
    split at ran
    · cases ran; exact .inl ⟨rfl, rfl⟩
    · rename_i opened
      split at ran
      · cases ran; exact .inl ⟨rfl, rfl⟩
      · cases ran; exact .inr ⟨job, found, by simpa using opened, rfl, rfl⟩

/-- A tick claim is taken only of an enabled row whose stored lease, if any, ended before `now`. -/
theorem claimJobForTick_cases {s s' : Store} {jobId claimId : String} {now : DateTime} {ttl : Int}
    {r : Result Bool} (ran : s.claimJobForTick jobId claimId now ttl = (r, s')) :
    (r = .ok false ∧ s' = s) ∨
    (∃ job, s.jobs.lookup jobId = some job ∧ job.enabled = true ∧ (∀ u, job.claimLeaseUntil = some u → u < now) ∧
      r = .ok true ∧
      s' = s.setJob { job with
        claimLeaseId := some claimId
        claimLeaseUntil := some (now + seconds ttl)
        updatedAt := now }) := by
  unfold claimJobForTick at ran
  split at ran
  · cases ran; exact .inl ⟨rfl, rfl⟩
  · rename_i job found
    split at ran
    · cases ran; exact .inl ⟨rfl, rfl⟩
    · rename_i enabled
      split at ran
      · cases ran; exact .inl ⟨rfl, rfl⟩
      · rename_i free
        cases ran
        refine .inr ⟨job, found, by simpa using enabled, fun u until_ => ?_, rfl, rfl⟩
        simpa [until_] using free

/-- Every identifier in a due list names a stored row that passes the filter. -/
theorem mem_findDue {s : Store} {clock dueUntil : DateTime} {owned : List Nat} {limit : Nat} {ids : List String}
    {j : String} (ran : s.findDueJobIdsInPartitions clock owned dueUntil limit = .ok ids) (listed : j ∈ ids) :
    ∃ job, s.jobs.lookup j = some job ∧ isDue clock owned dueUntil job = true := by
  unfold findDueJobIdsInPartitions at ran
  split at ran
  · cases ran; cases listed
  · cases ran
    obtain ⟨job, taken, rfl⟩ := List.mem_map.mp listed
    have kept := (List.mem_insertionSort _).mp (List.mem_of_mem_take taken)
    rw [List.mem_filter] at kept
    exact ⟨job, Table.lookup_of_mem kept.1, kept.2⟩

theorem findDue_nodup {s : Store} {clock dueUntil : DateTime} {owned : List Nat} {limit : Nat} {ids : List String}
    (ran : s.findDueJobIdsInPartitions clock owned dueUntil limit = .ok ids) : ids.Nodup := by
  unfold findDueJobIdsInPartitions at ran
  split at ran
  · cases ran; exact List.nodup_nil
  · cases ran
    refine List.Nodup.sublist ((List.take_sublist _ _).map _) ?_
    refine ((List.perm_insertionSort _ _).map _).nodup_iff.mpr ?_
    exact List.Nodup.sublist (List.filter_sublist.map _) s.jobs.distinct

theorem scheduleDue_of_isDue {clock dueUntil : DateTime} {owned : List Nat} {job : Job}
    (due : isDue clock owned dueUntil job = true) : scheduleDue dueUntil job = true := by
  simp only [isDue, Bool.and_eq_true] at due
  exact due.1.1

end Chronon.Store
