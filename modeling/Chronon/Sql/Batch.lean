import Chronon.Sql.Store

/-!
# Claiming a batch of runs

`claim_runs_by_ids` of Postgres is one `UPDATE` that tests every row against the
old table. The default body of `SchedulerStore`, which SQLite repeats, claims
one identifier after another and sees its own claims. The order of `RETURNING`
is not specified, so the statement is a relation.
-/

namespace Chronon
set_option autoImplicit false

open Collections Relational

/-- `SchedulerStore::claim_runs_by_ids`, over any `claim_run_by_id`: the loop, from what is claimed so far. -/
def claimEach {S : Type} (claimRunById : S → String → Result (Option Run) × S) :
    S → List String → List Run → Result (List Run) × S
  | s, [], claimed => (.ok claimed, s)
  | s, runId :: runIds, claimed =>
    match claimRunById s runId with
    | (.error e, s') => (.error e, s')
    | (.ok run, s') => claimEach claimRunById s' runIds (claimed ++ run.toList)

namespace Sql

/-- `SqlDialect`, and the connections of a `SqlPool`. -/
inductive SqlDialect where
  | postgres
  | sqlite
  deriving DecidableEq

namespace Db

/-- `run_id = ANY(?)`. -/
def runIn (runIds : List String) (r : Run) : Truth := compare (some r.runId) fun runId => runIds.any (runId == ·)

/-- The condition of `claim_runs_by_ids_postgres_sql`. -/
def claimableIn (runIds : List String) (poolId : String) (now : DateTime) (r : Run) : Truth :=
  (runIn runIds r).and <| (compare (some r.status) (· == .queued)).and <|
    (compare (some r.scheduledFor) fun t => decide (t ≤ now)).and <|
      ((isNull r.claimLeaseUntil).or (compare r.claimLeaseUntil fun u => decide (u ≤ now))).and <|
        (compare r.poolId (· == poolId)).or <|
          (compare (some poolId) (· == "general")).and ((isNull r.poolId).or (compare r.poolId (· == "general")))

theorem claimedRun_runId (workerId : String) (now : DateTime) (ttl : Int) (r : Run) :
    (Store.claimedRun r workerId now ttl).runId = r.runId := rfl

/-- The statement of `claim_runs_by_ids_postgres_sql` may return `claimed` and leave `d'`. -/
def ClaimRunsByIdsPostgres (d : Db) (runIds : List String) (poolId workerId : String) (now : DateTime)
    (leaseTtlSecs : Int) (claimed : List Run) (d' : Db) : Prop :=
  let condition := claimableIn runIds poolId now
  let set (r : Run) : Run := Store.claimedRun r workerId now leaseTtlSecs
  claimed.Perm ((selected d.runs condition).map set) ∧ d' = d.updateRuns condition set (claimedRun_runId workerId now leaseTtlSecs)

/-- The loop over `claim_run_by_id`. -/
def claimRunsEach (d : Db) (runIds : List String) (poolId workerId : String) (now : DateTime) (leaseTtlSecs : Int) :
    Result (List Run) × Db :=
  claimEach (fun d runId => d.claimRunById runId poolId workerId now leaseTtlSecs) d runIds []

/-- `claim_runs_by_ids` of a store with this dialect and these connections may answer `r` and leave `d'`. -/
def ClaimRunsByIds (d : Db) (dialect pool : SqlDialect) (runIds : List String) (poolId workerId : String)
    (now : DateTime) (leaseTtlSecs : Int) (r : Result (List Run)) (d' : Db) : Prop :=
  if runIds.isEmpty then r = .ok [] ∧ d' = d
  else if dialect ≠ .postgres ∨ runIds.length = 1 then
    d.claimRunsEach runIds poolId workerId now leaseTtlSecs = (r, d')
  else if pool = .postgres then
    ∃ claimed, r = .ok claimed ∧ d.ClaimRunsByIdsPostgres runIds poolId workerId now leaseTtlSecs claimed d'
  else d.claimRunsEach runIds poolId workerId now leaseTtlSecs = (r, d')

/-! ## The conditions -/

variable {d d' : Db} {runId poolId workerId : String} {runIds : List String} {now : DateTime} {ttl : Int}

theorem holds_claimableIn (runIds : List String) (poolId : String) (now : DateTime) (r : Run) :
    (claimableIn runIds poolId now r).holds = (decide (r.runId ∈ runIds) && Store.claimable poolId now r) := by
  have inside : (runIn runIds r).holds = decide (r.runId ∈ runIds) := by
    simp only [runIn, holds_compare, Option.any_some, List.any_beq, List.contains_eq_mem]
  rw [← inside, ← holds_claimable, ← Truth.holds_and]
  rfl

/-- Nothing is selected by an empty list. -/
theorem claimableIn_nil (poolId : String) (now : DateTime) (r : Run) : (claimableIn [] poolId now r).holds = false := by
  simp [holds_claimableIn]

/-- The first identifier, or one of the others. -/
theorem claimableIn_cons (runId : String) (runIds : List String) (poolId : String) (now : DateTime) (r : Run) :
    (claimableIn (runId :: runIds) poolId now r).holds =
      (((runIs runId r).and (claimable poolId now r)).holds || (claimableIn runIds poolId now r).holds) := by
  rw [Truth.holds_and, holds_runIs, holds_claimable, holds_claimableIn, holds_claimableIn]
  simp only [List.mem_cons, Bool.decide_or, Bool.and_or_distrib_right]

/-- A claimed run is not claimable. -/
theorem claimableIn_claimed (runIds : List String) (poolId : String) (now : DateTime) (workerId : String) (ttl : Int)
    (r : Run) : (claimableIn runIds poolId now (Store.claimedRun r workerId now ttl)).holds = false := by
  have taken : Store.claimable poolId now (Store.claimedRun r workerId now ttl) = false :=
    Bool.eq_false_of_not_eq_true fun free => absurd (Store.queued_of_claimable free) (by simp [Store.claimedRun])
  rw [holds_claimableIn, taken, Bool.and_false]

/-! ## The loop -/

/-- `claim_run_by_id` claims the rows its condition selects and returns them, none or one. -/
theorem claimRunById_selected (d : Db) (runId poolId workerId : String) (now : DateTime) (ttl : Int) :
    ∃ run, d.claimRunById runId poolId workerId now ttl =
        (.ok run, d.updateRuns (fun r => (runIs runId r).and (claimable poolId now r))
          (fun r => Store.claimedRun r workerId now ttl) fun _ => rfl) ∧
      run.toList = (selected d.runs fun r => (runIs runId r).and (claimable poolId now r)).map
        fun r => Store.claimedRun r workerId now ttl := by
  have named : ∀ r, ((runIs runId r).and (claimable poolId now r)).holds =
      (decide (r.runId = runId) && Store.claimable poolId now r) := by
    intro r
    rw [Truth.holds_and, holds_runIs, holds_claimable]
  refine ⟨_, rfl, ?_⟩
  rw [selected_key named]
  cases (d.runs.lookup runId).filter (Store.claimable poolId now) <;> rfl

/-- The loop claims what the batch statement claims. -/
theorem claimEach_selected (d : Db) (runIds : List String) (poolId workerId : String) (now : DateTime) (ttl : Int)
    (claimed : List Run) :
    ∃ each, claimEach (fun d runId => d.claimRunById runId poolId workerId now ttl) d runIds claimed =
        (.ok (claimed ++ each), d.updateRuns (claimableIn runIds poolId now)
          (fun r => Store.claimedRun r workerId now ttl) fun _ => rfl) ∧
      each.Perm ((selected d.runs (claimableIn runIds poolId now)).map fun r => Store.claimedRun r workerId now ttl) := by
  induction runIds generalizing d claimed with
  | nil =>
    have none_ : selected d.runs (claimableIn [] poolId now) = [] := by
      simp only [selected, claimableIn_nil, List.filter_eq_nil_iff, Bool.false_eq_true, not_false_eq_true, implies_true]
    have same : update d.runs (claimableIn [] poolId now) (fun r => Store.claimedRun r workerId now ttl) (fun _ => rfl) =
        d.runs :=
      Table.mapRows_eq_self _ fun r _ => by rw [onRow, claimableIn_nil, if_neg Bool.false_ne_true]
    refine ⟨[], ?_, by rw [none_]; exact .refl _⟩
    have unchanged : d.updateRuns (claimableIn [] poolId now) (fun r => Store.claimedRun r workerId now ttl)
        (fun _ => rfl) = d := congrArg (fun runs => { d with runs }) same
    rw [claimEach, List.append_nil, unchanged]
  | cons runId runIds ih =>
    obtain ⟨run, ran, returned⟩ := claimRunById_selected d runId poolId workerId now ttl
    obtain ⟨each, rest, permuted⟩ := ih (d.updateRuns (fun r => (runIs runId r).and (claimable poolId now r))
      (fun r => Store.claimedRun r workerId now ttl) fun _ => rfl) (claimed ++ run.toList)
    have table := update_update (claimedRun_runId workerId now ttl) (claimableIn_cons runId runIds poolId now)
      (claimableIn_claimed runIds poolId now workerId ttl) d.runs
    refine ⟨run.toList ++ each, ?_, ?_⟩
    · have both := congrArg (fun runs => { d with runs }) table
      rw [claimEach, ran]
      simp only
      rw [rest, List.append_assoc]
      exact congrArg (Prod.mk _) both
    · rw [returned]
      refine (permuted.append_left _).trans ?_
      rw [← List.map_append]
      exact (selected_update_perm (claimedRun_runId workerId now ttl) (claimableIn_cons runId runIds poolId now)
        (claimableIn_claimed runIds poolId now workerId ttl) d.runs).map _

theorem claimRunsEach_selected (d : Db) (runIds : List String) (poolId workerId : String) (now : DateTime) (ttl : Int) :
    ∃ each, d.claimRunsEach runIds poolId workerId now ttl =
        (.ok each, d.updateRuns (claimableIn runIds poolId now) (fun r => Store.claimedRun r workerId now ttl)
          fun _ => rfl) ∧
      each.Perm ((selected d.runs (claimableIn runIds poolId now)).map fun r => Store.claimedRun r workerId now ttl) :=
  claimEach_selected d runIds poolId workerId now ttl []

/-- A run is claimed once, however often its identifier is listed. -/
theorem selected_ids_nodup (d : Db) (runIds : List String) (poolId workerId : String) (now : DateTime) (ttl : Int) :
    (((selected d.runs (claimableIn runIds poolId now)).map fun r => Store.claimedRun r workerId now ttl).map
      (·.runId)).Nodup := by
  rw [List.map_map]
  exact (List.filter_sublist.map Run.runId).nodup d.runs.distinct

theorem claimRunsByIdsPostgres_iff {claimed : List Run} :
    d.ClaimRunsByIdsPostgres runIds poolId workerId now ttl claimed d' ↔
      ∃ each, d.claimRunsEach runIds poolId workerId now ttl = (.ok each, d') ∧ claimed.Perm each ∧
        (claimed.map (·.runId)).Nodup := by
  obtain ⟨each, loop, permuted⟩ := claimRunsEach_selected d runIds poolId workerId now ttl
  unfold ClaimRunsByIdsPostgres
  rw [loop]
  constructor
  · rintro ⟨returned, rfl⟩
    exact ⟨each, rfl, returned.trans permuted.symm,
      (returned.map _).nodup_iff.mpr (selected_ids_nodup d runIds poolId workerId now ttl)⟩
  · rintro ⟨_, same, returned, -⟩
    cases same
    exact ⟨returned.trans permuted, rfl⟩

/-- **One statement for a batch.** From any table, the `UPDATE` of Postgres may return exactly the orders of the runs
that claiming the identifiers one after another returns, each of them once, and leaves the same table; so
`claim_runs_by_ids` answers as the default body of `SchedulerStore` does on every backend. -/
theorem batch_claims_each :
    (∀ (d d' : Db) (runIds : List String) (poolId workerId : String) (now : DateTime) (ttl : Int) (claimed : List Run),
      d.ClaimRunsByIdsPostgres runIds poolId workerId now ttl claimed d' ↔
        ∃ each, d.claimRunsEach runIds poolId workerId now ttl = (.ok each, d') ∧ claimed.Perm each ∧
          (claimed.map (·.runId)).Nodup) ∧
    ∀ (d : Db) (dialect pool : SqlDialect) (runIds : List String) (poolId workerId : String) (now : DateTime) (ttl : Int),
      ∃ each d', d.claimRunsEach runIds poolId workerId now ttl = (.ok each, d') ∧
        (∃ claimed, d.ClaimRunsByIds dialect pool runIds poolId workerId now ttl (.ok claimed) d') ∧
        ∀ r d'', d.ClaimRunsByIds dialect pool runIds poolId workerId now ttl r d'' →
          d'' = d' ∧ ∃ claimed, r = .ok claimed ∧ claimed.Perm each := by
  refine ⟨fun d d' runIds poolId workerId now ttl claimed => claimRunsByIdsPostgres_iff, ?_⟩
  intro d dialect pool runIds poolId workerId now ttl
  obtain ⟨each, loop, permuted⟩ := claimRunsEach_selected d runIds poolId workerId now ttl
  refine ⟨each, _, loop, ?_⟩
  have looped : (∃ claimed, d.claimRunsEach runIds poolId workerId now ttl = (.ok claimed,
      (d.claimRunsEach runIds poolId workerId now ttl).2)) ∧ ∀ r d'',
        d.claimRunsEach runIds poolId workerId now ttl = (r, d'') →
          d'' = (d.claimRunsEach runIds poolId workerId now ttl).2 ∧ ∃ claimed, r = .ok claimed ∧ claimed.Perm each := by
    rw [loop]
    refine ⟨⟨each, rfl⟩, fun r d'' ran => ?_⟩
    cases ran
    exact ⟨rfl, each, rfl, .refl each⟩
  rw [loop] at looped
  unfold ClaimRunsByIds
  split
  · rename_i empty
    obtain rfl := List.isEmpty_iff.mp empty
    obtain ⟨answer, unchanged⟩ := Prod.mk.inj loop
    cases answer
    refine ⟨⟨[], rfl, unchanged.symm⟩, ?_⟩
    rintro r d'' ⟨rfl, rfl⟩
    exact ⟨unchanged, [], rfl, .refl _⟩
  · split
    · rw [loop]
      exact looped
    · split
      · refine ⟨⟨each, each, rfl, permuted, rfl⟩, ?_⟩
        rintro r d'' ⟨claimed, rfl, returned, rfl⟩
        exact ⟨rfl, claimed, rfl, returned.trans permuted.symm⟩
      · rw [loop]
        exact looped

/-- Two queued runs. -/
def queuedDb : Db := { Db.empty with runs := (Table.empty.insert (Run.new "a" "noop" 0)).insert (Run.new "b" "noop" 0) }

theorem batch_claims_each_repeated : ∃ each, (queuedDb.claimRunsEach ["a", "b", "a", "x"] "general" "w" 0 30).1 = .ok each ∧
    [Store.claimedRun (Run.new "b" "noop" 0) "w" 0 30, Store.claimedRun (Run.new "a" "noop" 0) "w" 0 30].Perm each := by
  obtain ⟨each, d', loop, -, answers⟩ :=
    batch_claims_each.2 queuedDb .postgres .postgres ["a", "b", "a", "x"] "general" "w" 0 30
  obtain ⟨-, claimed, answer, permuted⟩ := answers
    (.ok [Store.claimedRun (Run.new "b" "noop" 0) "w" 0 30, Store.claimedRun (Run.new "a" "noop" 0) "w" 0 30]) _
    ⟨_, rfl, .refl _, rfl⟩
  cases answer
  exact ⟨each, congrArg Prod.fst loop, permuted⟩

end Db

end Sql

end Chronon
