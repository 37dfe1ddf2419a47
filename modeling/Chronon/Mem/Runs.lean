import Chronon.Mem.Store

/-!
# `chronon-backend-mem/src/store/runs.rs`

Run persistence, the worker claims and the lease renewal and reclaim on run
rows.
-/

namespace Chronon.Store
set_option autoImplicit false

open Collections

/-- `create_run` inserts unconditionally. -/
def createRun (s : Store) (run : Run) : Result Unit × Store := (.ok (), s.setRun run)

/-- `update_run` replaces the whole row. -/
def updateRun (s : Store) (run : Run) : Result Unit × Store :=
  match s.runs.lookup run.runId with
  | none => (.error (.runNotFound run.runId), s)
  | some _ => (.ok (), s.setRun run)

def getRun (s : Store) (runId : String) : Result (Option Run) := .ok (s.runs.lookup runId)

/-- The order of both listings: latest `scheduled_for` first, stable. -/
def latestFirst (runs : List Run) : List Run := runs.insertionSort fun a b => b.scheduledFor ≤ a.scheduledFor

def listRunsForJob (s : Store) (jobId : String) (limit : Nat) : Result (List Run) :=
  .ok ((latestFirst (s.runs.rows.filter fun r => r.jobId = some jobId)).take limit)

def listRunsFiltered (s : Store) (jobId : Option String) (status : Option RunStatus) (offset limit : Nat) :
    Result (List Run) :=
  let runs := s.runs.rows.filter fun r => jobId.all (fun id => r.jobId = some id) && status.all (r.status = ·)
  .ok (((latestFirst runs).drop offset).take limit)

/-- `pool_ok` of both claim operations. -/
def poolOk (poolId : String) (run : Run) : Bool :=
  run.poolId == some poolId || (poolId == "general" && (run.poolId.isNone || run.poolId == some "general"))

/-- The tests a queued run passes before it is claimed. -/
def claimable (poolId : String) (now : DateTime) (run : Run) : Bool :=
  run.status == .queued && decide (run.scheduledFor ≤ now) && !run.claimLeaseUntil.any (· > now) && poolOk poolId run

/-- The claimed copy of a run. -/
def claimedRun (run : Run) (workerId : String) (now : DateTime) (leaseTtlSecs : Int) : Run :=
  { run with
    status := .claimed
    claimedBy := some workerId
    claimLeaseUntil := some (now + seconds leaseTtlSecs) }

/-- The loop body of `claim_next_queued`: keep the earliest claimable run seen so far. -/
def earlier (poolId : String) (now : DateTime) (candidate : Option Run) (run : Run) : Option Run :=
  if claimable poolId now run then
    match candidate with
    | none => some run
    | some c => if run.scheduledFor < c.scheduledFor then some run else some c
  else candidate

/-- `claim_next_queued`. -/
def claimNextQueued (s : Store) (poolId workerId : String) (now : DateTime) (leaseTtlSecs : Int) :
    Result (Option Run) × Store :=
  match s.runs.rows.foldl (earlier poolId now) none with
  | none => (.ok none, s)
  | some run =>
    let claimed := claimedRun run workerId now leaseTtlSecs
    (.ok (some claimed), s.setRun claimed)

/-- `claim_run_by_id`. -/
def claimRunById (s : Store) (runId poolId workerId : String) (now : DateTime) (leaseTtlSecs : Int) :
    Result (Option Run) × Store :=
  match s.runs.lookup runId with
  | none => (.ok none, s)
  | some run =>
    if claimable poolId now run then
      let claimed := claimedRun run workerId now leaseTtlSecs
      (.ok (some claimed), s.setRun claimed)
    else (.ok none, s)

/-- Claimed or running: the statuses a lease protects. -/
def leased (run : Run) : Bool := run.status == .claimed || run.status == .running

/-- `renew_run_lease`. -/
def renewRunLease (s : Store) (runId workerId : String) (now : DateTime) (leaseTtlSecs : Int) :
    Result Bool × Store :=
  match s.runs.lookup runId with
  | none => (.ok false, s)
  | some run =>
    if run.claimedBy ≠ some workerId then (.ok false, s)
    else if !leased run then (.ok false, s)
    else (.ok true, s.setRun { run with claimLeaseUntil := some (now + seconds leaseTtlSecs) })

/-- A leased run whose lease ended at or before `now`. -/
def leaseExpired (now : DateTime) (run : Run) : Bool := leased run && run.claimLeaseUntil.any (· ≤ now)

theorem status_of_leased {run : Run} (active : leased run = true) : run.status = .claimed ∨ run.status = .running := by
  simpa [leased] using active

/-- A finished run is not leased. -/
theorem leased_of_terminal {run : Run} (terminal : run.status.isTerminal = true) : leased run = false := by
  unfold leased
  cases status : run.status <;> rw [status] at terminal <;> first | rfl | cases terminal

theorem leaseExpired_of_terminal {run : Run} (terminal : run.status.isTerminal = true) (now : DateTime) :
    leaseExpired now run = false := by
  simp only [leaseExpired, leased_of_terminal terminal, Bool.false_and]

/-- The loop body of `reclaim_expired_run_leases`. -/
def reclaimed (now : DateTime) (run : Run) : Run :=
  if leaseExpired now run then
    { run with status := .queued, claimedBy := none, claimLeaseUntil := none, startedAt := none }
  else run

theorem reclaimed_of_unexpired {now : DateTime} {run : Run} (unexpired : leaseExpired now run = false) :
    reclaimed now run = run := by
  rw [reclaimed, if_neg (by rw [unexpired]; exact Bool.false_ne_true)]

theorem reclaimed_runId (now : DateTime) (run : Run) : (reclaimed now run).runId = run.runId := by
  unfold reclaimed; split <;> rfl

/-- `reclaim_expired_run_leases`. -/
def reclaimExpiredRunLeases (s : Store) (now : DateTime) : Result (List String) × Store :=
  (.ok ((s.runs.rows.filter (leaseExpired now)).map (·.runId)),
    { s with runs := s.runs.mapRows (reclaimed now) (reclaimed_runId now) })

theorem updateRun_cases {s s' : Store} {run : Run} {r : Result Unit} (ran : s.updateRun run = (r, s')) :
    (s.runs.lookup run.runId = none ∧ r = .error (.runNotFound run.runId) ∧ s' = s) ∨
    (∃ found, s.runs.lookup run.runId = some found ∧ r = .ok () ∧ s' = s.setRun run) := by
  unfold updateRun at ran
  cases found : s.runs.lookup run.runId with
  | none => rw [found] at ran; cases ran; exact .inl ⟨rfl, rfl, rfl⟩
  | some old => rw [found] at ran; cases ran; exact .inr ⟨old, rfl, rfl, rfl⟩

/-- The candidate is one of the runs seen, and it is claimable. -/
theorem foldl_earlier {poolId : String} {now : DateTime} (runs : List Run) {candidate : Option Run} {run : Run}
    (picked : runs.foldl (earlier poolId now) candidate = some run) :
    candidate = some run ∨ (run ∈ runs ∧ claimable poolId now run = true) := by
  induction runs generalizing candidate with
  | nil => exact .inl picked
  | cons head rest ih =>
    rcases ih picked with kept | ⟨inside, ok⟩
    · unfold earlier at kept
      split at kept
      · rename_i ok
        split at kept
        · cases kept; exact .inr ⟨List.mem_cons_self, ok⟩
        · split at kept
          · cases kept; exact .inr ⟨List.mem_cons_self, ok⟩
          · exact .inl kept
      · exact .inl kept
    · exact .inr ⟨List.mem_cons_of_mem _ inside, ok⟩

theorem queued_of_claimable {poolId : String} {now : DateTime} {run : Run} (free : claimable poolId now run = true) :
    run.status = .queued := by
  simp only [claimable, Bool.and_eq_true, beq_iff_eq] at free
  exact free.1.1.1

theorem claimNextQueued_cases {s s' : Store} {poolId workerId : String} {now : DateTime} {ttl : Int}
    {r : Result (Option Run)} (ran : s.claimNextQueued poolId workerId now ttl = (r, s')) :
    (r = .ok none ∧ s' = s) ∨
    (∃ run, s.runs.lookup run.runId = some run ∧ claimable poolId now run = true ∧
      r = .ok (some (claimedRun run workerId now ttl)) ∧ s' = s.setRun (claimedRun run workerId now ttl)) := by
  unfold claimNextQueued at ran
  split at ran
  · cases ran; exact .inl ⟨rfl, rfl⟩
  · rename_i run picked
    cases ran
    rcases foldl_earlier s.runs.rows picked with none_ | ⟨inside, ok⟩
    · cases none_
    · exact .inr ⟨run, Table.lookup_of_mem inside, ok, rfl, rfl⟩

theorem claimRunById_cases {s s' : Store} {runId poolId workerId : String} {now : DateTime} {ttl : Int}
    {r : Result (Option Run)} (ran : s.claimRunById runId poolId workerId now ttl = (r, s')) :
    (r = .ok none ∧ s' = s) ∨
    (∃ run, s.runs.lookup runId = some run ∧ claimable poolId now run = true ∧
      r = .ok (some (claimedRun run workerId now ttl)) ∧ s' = s.setRun (claimedRun run workerId now ttl)) := by
  unfold claimRunById at ran
  split at ran
  · cases ran; exact .inl ⟨rfl, rfl⟩
  · rename_i run found
    split at ran
    · rename_i ok
      cases ran
      exact .inr ⟨run, found, ok, rfl, rfl⟩
    · cases ran; exact .inl ⟨rfl, rfl⟩

theorem renewRunLease_cases {s s' : Store} {runId workerId : String} {now : DateTime} {ttl : Int}
    {r : Result Bool} (ran : s.renewRunLease runId workerId now ttl = (r, s')) :
    (r = .ok false ∧ s' = s) ∨
    (∃ run, s.runs.lookup runId = some run ∧ run.claimedBy = some workerId ∧ leased run = true ∧ r = .ok true ∧
      s' = s.setRun { run with claimLeaseUntil := some (now + seconds ttl) }) := by
  unfold renewRunLease at ran
  split at ran
  · cases ran; exact .inl ⟨rfl, rfl⟩
  · rename_i run found
    split at ran
    · cases ran; exact .inl ⟨rfl, rfl⟩
    · rename_i mine
      split at ran
      · cases ran; exact .inl ⟨rfl, rfl⟩
      · rename_i active
        cases ran
        exact .inr ⟨run, found, by simpa using mine, by simpa using active, rfl, rfl⟩

theorem lookup_reclaim (s : Store) (now : DateTime) (r : String) :
    (s.reclaimExpiredRunLeases now).2.runs.lookup r = (s.runs.lookup r).map (reclaimed now) :=
  Table.lookup_mapRows s.runs _ (reclaimed_runId now) r

end Chronon.Store
