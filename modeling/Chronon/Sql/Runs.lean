import Chronon.Mem.Runs

/-!
# `chronon-backend-sql-common/src/runs.rs`

The statements on `chronon_run`, each of them atomic. The `WHERE` clauses are
the tests of the in-memory store, so its predicates are used for them. The order
in which `RETURNING` lists several rows is not specified: here it is the order
of the table, and whoever uses such a listing takes any order of it.

Postgres keeps microseconds. Stored times are multiples of them, so a comparison
with a `now` of any precision is the comparison of the parameters it binds.
-/

namespace Chronon.Sql
set_option autoImplicit false

open Collections

/-- The table `chronon_run`. -/
abbrev Rows := Table Run.runId

/-- `create_run`; the identifier is the primary key. -/
def createRun (rows : Rows) (run : Run) : Result Unit × Rows :=
  match rows.lookup run.runId with
  | some _ => (.error (.storageError ("duplicate run_id: " ++ run.runId)), rows)
  | none => (.ok (), rows.insert run)

/-- `update_run` replaces the whole row. -/
def updateRun (rows : Rows) (run : Run) : Result Unit × Rows :=
  match rows.lookup run.runId with
  | none => (.error (.runNotFound run.runId), rows)
  | some _ => (.ok (), rows.insert run)

def getRun (rows : Rows) (runId : String) : Result (Option Run) := .ok (rows.lookup runId)

/-- The effect of an `UPDATE` that claims the rows it selects. -/
def claimRow (workerId : String) (now : DateTime) (leaseTtlSecs : Int) (selected : Run → Bool) (run : Run) : Run :=
  if selected run then Store.claimedRun run workerId now leaseTtlSecs else run

theorem claimRow_runId (workerId : String) (now : DateTime) (leaseTtlSecs : Int) (selected : Run → Bool) (run : Run) :
    (claimRow workerId now leaseTtlSecs selected run).runId = run.runId := by
  unfold claimRow
  split <;> rfl

/-- `UPDATE ... SET status = 'claimed' ... WHERE ... RETURNING *`. -/
def claimWhere (rows : Rows) (workerId : String) (now : DateTime) (leaseTtlSecs : Int) (selected : Run → Bool) :
    List Run × Rows :=
  ((rows.rows.filter selected).map fun run => Store.claimedRun run workerId now leaseTtlSecs,
    rows.mapRows (claimRow workerId now leaseTtlSecs selected) (claimRow_runId workerId now leaseTtlSecs selected))

/-- `claim_run_by_id`. -/
def claimRunById (rows : Rows) (runId poolId workerId : String) (now : DateTime) (leaseTtlSecs : Int) :
    Option Run × Rows :=
  let (claimed, rows') := claimWhere rows workerId now leaseTtlSecs fun run =>
    run.runId == runId && Store.claimable poolId now run
  (claimed.head?, rows')

/-- `claim_runs_by_ids` of Postgres; a single identifier is claimed by `claim_run_by_id`, which is the same statement. -/
def claimRunsByIds (rows : Rows) (runIds : List String) (poolId workerId : String) (now : DateTime)
    (leaseTtlSecs : Int) : List Run × Rows :=
  claimWhere rows workerId now leaseTtlSecs fun run => runIds.contains run.runId && Store.claimable poolId now run

/-- `claim_next_queued`. -/
def claimNextQueued (rows : Rows) (poolId workerId : String) (now : DateTime) (leaseTtlSecs : Int) :
    Option Run × Rows :=
  match ((rows.rows.filter (Store.claimable poolId now)).insertionSort fun a b => a.scheduledFor ≤ b.scheduledFor).head? with
  | none => (none, rows)
  | some run =>
    let claimed := Store.claimedRun run workerId now leaseTtlSecs
    (some claimed, rows.insert claimed)

/-- `renew_run_lease`. -/
def renewRunLease (rows : Rows) (runId workerId : String) (now : DateTime) (leaseTtlSecs : Int) : Bool × Rows :=
  match rows.lookup runId with
  | none => (false, rows)
  | some run =>
    if run.claimedBy = some workerId ∧ Store.leased run then
      (true, rows.insert { run with claimLeaseUntil := some (now + seconds leaseTtlSecs) })
    else (false, rows)

/-- `reclaim_expired_run_leases`. -/
def reclaimExpiredRunLeases (rows : Rows) (now : DateTime) : List String × Rows :=
  ((rows.rows.filter (Store.leaseExpired now)).map (·.runId),
    rows.mapRows (Store.reclaimed now) (Store.reclaimed_runId now))

/-- `run_pool_key`. -/
def runPoolKey (poolId : Option String) : String :=
  match poolId with
  | none | some "general" => "general"
  | some other => other

/-! ## What the statements do to a row -/

theorem runPoolKey_eq (poolId : Option String) : runPoolKey poolId = poolId.getD "general" := by
  unfold runPoolKey
  split <;> rfl

/-- The pool test of the claims is one of pool keys. -/
theorem poolOk_iff {poolId : String} {run : Run} : Store.poolOk poolId run = true ↔ runPoolKey run.poolId = poolId := by
  rw [runPoolKey_eq]
  cases pool : run.poolId with
  | none =>
    simp only [Store.poolOk, pool, Option.isNone_none, Bool.true_or, Bool.and_true, Option.getD_none, Bool.or_eq_true,
      beq_iff_eq, reduceCtorEq, false_or]
    exact eq_comm
  | some other =>
    simp only [Store.poolOk, pool, Option.isNone_some, Bool.false_or, Option.getD_some, Bool.or_eq_true, beq_iff_eq,
      Option.some.injEq, Bool.and_eq_true]
    constructor
    · rintro (rfl | ⟨rfl, rfl⟩) <;> rfl
    · exact .inl

theorem claimable_iff {poolId : String} {now : DateTime} {run : Run} :
    Store.claimable poolId now run = true ↔
      run.status = .queued ∧ run.scheduledFor ≤ now ∧ run.claimLeaseUntil.any (· > now) = false ∧
        runPoolKey run.poolId = poolId := by
  rw [← poolOk_iff]
  simp only [Store.claimable, Bool.and_eq_true, beq_iff_eq, decide_eq_true_eq, Bool.not_eq_true', and_assoc]

variable {rows rows' : Rows} {run : Run}

theorem lookup_claimWhere (rows : Rows) (workerId : String) (now : DateTime) (ttl : Int) (selected : Run → Bool)
    (id : String) :
    (claimWhere rows workerId now ttl selected).2.lookup id = (rows.lookup id).map (claimRow workerId now ttl selected) :=
  Table.lookup_mapRows rows _ (claimRow_runId workerId now ttl selected) id

/-- The claimed rows are the selected ones. -/
theorem mem_claimWhere {workerId : String} {now : DateTime} {ttl : Int} {selected : Run → Bool} {claimed : Run} :
    claimed ∈ (claimWhere rows workerId now ttl selected).1 ↔
      ∃ run, rows.lookup run.runId = some run ∧ selected run = true ∧ claimed = Store.claimedRun run workerId now ttl := by
  simp only [claimWhere, List.mem_map, List.mem_filter]
  constructor
  · rintro ⟨run, ⟨inside, chosen⟩, rfl⟩
    exact ⟨run, Table.lookup_of_mem inside, chosen, rfl⟩
  · rintro ⟨run, found, chosen, rfl⟩
    exact ⟨run, ⟨Table.mem_of_lookup found, chosen⟩, rfl⟩

/-- `claim_next_queued` returns a run if there is one. -/
theorem claimNextQueued_isSome {poolId workerId : String} {now : DateTime} {ttl : Int} :
    (claimNextQueued rows poolId workerId now ttl).1.isSome = true ↔
      ∃ run, rows.lookup run.runId = some run ∧ Store.claimable poolId now run = true := by
  have inside : ∀ run, run ∈ (rows.rows.filter (Store.claimable poolId now)).insertionSort
      (fun a b => a.scheduledFor ≤ b.scheduledFor) ↔
      rows.lookup run.runId = some run ∧ Store.claimable poolId now run = true := by
    intro run
    rw [List.mem_insertionSort, List.mem_filter]
    exact and_congr_left fun _ => ⟨Table.lookup_of_mem, Table.mem_of_lookup⟩
  unfold claimNextQueued
  split
  · rename_i none_
    rw [List.head?_eq_none_iff] at none_
    simp only [none_, List.not_mem_nil, false_iff] at inside
    refine ⟨fun some_ => (by cases some_), ?_⟩
    rintro ⟨run, free⟩
    exact absurd free (inside run)
  · rename_i run found
    exact ⟨fun _ => ⟨run, (inside run).mp (List.mem_of_mem_head? found)⟩, fun _ => rfl⟩

end Chronon.Sql
