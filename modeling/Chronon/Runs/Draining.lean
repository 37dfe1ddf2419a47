import Chronon.Sql.Choices

/-!
# Claiming drains a pool

`claim_next_queued` called again and again at one instant, by any workers. Each
call takes an earliest waiting run of the pool, which is claimed from then on,
so the answers list the waiting runs in the order of `scheduled_for`, each once,
and then nothing.
-/

namespace Chronon
set_option autoImplicit false

open Collections

/-- A run that can be claimed at `now`, from the right pool. -/
structure WaitingAt (now : DateTime) (run : Run) : Prop where
  queued : run.status = .queued
  due : run.scheduledFor ≤ now
  free : ∀ leaseUntil ∈ run.claimLeaseUntil, ¬ leaseUntil > now

instance (now : DateTime) (run : Run) : Decidable (WaitingAt now run) :=
  decidable_of_iff (run.status = .queued ∧ run.scheduledFor ≤ now ∧ ∀ leaseUntil ∈ run.claimLeaseUntil, ¬ leaseUntil > now)
    ⟨fun ⟨queued, due, free⟩ => ⟨queued, due, free⟩, fun ⟨queued, due, free⟩ => ⟨queued, due, free⟩⟩

/-- The runs that wait in a pool. -/
def Store.waitingIn (s : Store) (poolId : String) (now : DateTime) : List Run :=
  s.runs.rows.filter fun run => decide (WaitingAt now run) && Sql.runPoolKey run.poolId == poolId

/-- One call for each worker, at the same `now`. The maps may be iterated in another order each time. -/
inductive ClaimCalls (poolId : String) (now : DateTime) (ttl : Int) :
    Store → List String → List (Result (Option Run)) → Store → Prop
  | done (s : Store) : ClaimCalls poolId now ttl s [] [] s
  | call {s s₀ s₁ s' : Store} {workerId : String} {workers : List String} {r : Result (Option Run)}
      {answers : List (Result (Option Run))} : Sql.Reordered s s₀ →
      s₀.claimNextQueued poolId workerId now ttl = (r, s₁) → ClaimCalls poolId now ttl s₁ workers answers s' →
      ClaimCalls poolId now ttl s (workerId :: workers) (r :: answers) s'

/-- The runs of `order` go to the workers in turn. -/
structure Drained (poolId : String) (now : DateTime) (ttl : Int) (s : Store) (workers : List String)
    (answers : List (Result (Option Run))) (s' : Store) (order : List Run) : Prop where
  /-- Each waiting run once. -/
  all : order.Perm (s.waitingIn poolId now)
  sorted : order.Pairwise fun a b => a.scheduledFor ≤ b.scheduledFor
  answers : answers = workers.mapIdx fun i workerId =>
    .ok (order[i]?.map fun run => Store.claimedRun run workerId now ttl)
  taken : ∀ (i : Nat) (run : Run) (workerId : String), order[i]? = some run → workers[i]? = some workerId →
    s'.runs.lookup run.runId = some (Store.claimedRun run workerId now ttl)
  /-- Every other run is as it was. -/
  others : ∀ id, (∀ run ∈ order.take workers.length, run.runId ≠ id) → s'.runs.lookup id = s.runs.lookup id

variable {poolId : String} {now : DateTime} {ttl : Int} {s s₀ s' : Store}

theorem claimable_iff_waiting {run : Run} :
    Store.claimable poolId now run = true ↔ WaitingAt now run ∧ poolId = Sql.runPoolKey run.poolId := by
  rw [Sql.claimable_iff]
  constructor
  · rintro ⟨queued, due, free, pool⟩
    refine ⟨⟨queued, due, fun leaseUntil isLease => ?_⟩, pool.symm⟩
    simpa [Option.mem_def.mp isLease] using free
  · rintro ⟨waiting, pool⟩
    refine ⟨waiting.queued, waiting.due, ?_, pool.symm⟩
    cases lease : run.claimLeaseUntil with
    | none => rfl
    | some leaseUntil => simpa using waiting.free leaseUntil lease

theorem mem_waitingIn {run : Run} :
    run ∈ s.waitingIn poolId now ↔ run ∈ s.runs.rows ∧ Store.claimable poolId now run = true := by
  rw [Store.waitingIn, List.mem_filter, Bool.and_eq_true, decide_eq_true_eq, beq_iff_eq, claimable_iff_waiting,
    eq_comm (a := poolId)]

theorem waitingIn_nodup (s : Store) (poolId : String) (now : DateTime) : (s.waitingIn poolId now).Nodup :=
  (List.Nodup.of_map _ s.runs.distinct).filter _

/-- The order of the maps does not matter. -/
theorem waitingIn_reordered (other : Sql.Reordered s s₀) : (s₀.waitingIn poolId now).Perm (s.waitingIn poolId now) := by
  obtain ⟨jobs, runs, -, same, rfl⟩ := other
  exact same.filter _

/-- A claimed run no longer waits; the others do as before. -/
theorem waitingIn_claimed {run : Run} (stored : run ∈ s.runs.rows) (free : Store.claimable poolId now run = true)
    (workerId : String) (ttl : Int) :
    (s.waitingIn poolId now).Perm
      (run :: (s.setRun (Store.claimedRun run workerId now ttl)).waitingIn poolId now) := by
  have claimed : ∀ other, Store.claimable poolId now other = true → other ≠ Store.claimedRun run workerId now ttl := by
    rintro _ isFree rfl
    exact absurd (Store.queued_of_claimable isFree) (by simp [Store.claimedRun])
  have after : ∀ other, other ∈ (s.setRun (Store.claimedRun run workerId now ttl)).waitingIn poolId now ↔
      other ∈ s.waitingIn poolId now ∧ other.runId ≠ run.runId := by
    intro other
    simp only [mem_waitingIn, Store.setRun, Table.insert, Table.mem_put]
    constructor
    · rintro ⟨rfl | ⟨inside, apart⟩, isFree⟩
      · exact absurd rfl (claimed _ isFree)
      · exact ⟨⟨inside, isFree⟩, apart⟩
    · rintro ⟨⟨inside, isFree⟩, apart⟩
      exact ⟨.inr ⟨inside, apart⟩, isFree⟩
  refine (List.perm_ext_iff_of_nodup (waitingIn_nodup _ _ _) (List.nodup_cons.mpr ⟨fun inside => ?_, waitingIn_nodup _ _ _⟩)).mpr
    fun other => ?_
  · exact ((after run).mp inside).2 rfl
  · rw [List.mem_cons, after]
    constructor
    · intro inside
      by_cases same : other.runId = run.runId
      · exact .inl (List.inj_on_of_nodup_map s.runs.distinct (mem_waitingIn.mp inside).1 stored same)
      · exact .inr ⟨inside, same⟩
    · rintro (rfl | ⟨inside, -⟩)
      · exact mem_waitingIn.mpr ⟨stored, free⟩
      · exact inside

section Calls

variable {workerId : String} {workers : List String} {answers : List (Result (Option Run))} {order : List Run} {run : Run}

/-- A call at a pool where nothing waits. -/
theorem Drained.nothing (empty : s₀.waitingIn poolId now = []) (other : Sql.Reordered s s₀)
    (rest : Drained poolId now ttl s₀ workers answers s' order) :
    Drained poolId now ttl s (workerId :: workers) (.ok none :: answers) s' [] := by
  obtain rfl : order = [] := (empty ▸ rest.all).eq_nil
  refine ⟨?_, List.Pairwise.nil, ?_, ?_, ?_⟩
  · rw [← empty]
    exact waitingIn_reordered other
  · rw [List.mapIdx_cons, rest.answers]
    rfl
  · intro i run workerId found
    cases found
  · intro id _
    rw [rest.others id (by simp), other.run]

/-- A call that takes an earliest run. -/
theorem Drained.take (first : Sql.Earliest poolId now s₀.runs.rows run) (other : Sql.Reordered s s₀)
    (rest : Drained poolId now ttl (s₀.setRun (Store.claimedRun run workerId now ttl)) workers answers s' order) :
    Drained poolId now ttl s (workerId :: workers) (.ok (some (Store.claimedRun run workerId now ttl)) :: answers) s'
      (run :: order) := by
  have waiting : (run :: order).Perm (s₀.waitingIn poolId now) :=
    (rest.all.cons run).trans (waitingIn_claimed first.inside first.free workerId ttl).symm
  have distinct : (run :: order).Nodup := waiting.nodup_iff.mpr (waitingIn_nodup _ _ _)
  have apart : ∀ next ∈ order, next.runId ≠ run.runId := by
    intro next inside same
    have stored := (mem_waitingIn.mp (waiting.mem_iff.mp (List.mem_cons_of_mem run inside))).1
    have isRun := List.inj_on_of_nodup_map s₀.runs.distinct stored first.inside same
    exact (List.nodup_cons.mp distinct).1 (isRun ▸ inside)
  refine ⟨waiting.trans (waitingIn_reordered other), ?_, ?_, ?_, ?_⟩
  · refine List.pairwise_cons.mpr ⟨fun next inside => ?_, rest.sorted⟩
    have waits := mem_waitingIn.mp (waiting.mem_iff.mp (List.mem_cons_of_mem run inside))
    exact first.first next waits.1 waits.2
  · rw [List.mapIdx_cons, rest.answers]
    rfl
  · intro i next worker isNext isWorker
    cases i with
    | zero =>
      cases isNext
      cases isWorker
      have kept := rest.others run.runId fun next inside => apart next (List.mem_of_mem_take inside)
      rw [kept, Store.lookup_setRun]
      exact if_pos rfl
    | succ i => exact rest.taken i next worker isNext isWorker
  · intro id untaken
    have notRun : run.runId ≠ id := untaken run (by simp)
    rw [rest.others id fun next inside => untaken next (by simpa using .inr inside), Store.lookup_setRun]
    exact (if_neg notRun).trans (other.run id)

end Calls

theorem ClaimCalls.drained {workers : List String} {answers : List (Result (Option Run))}
    (calls : ClaimCalls poolId now ttl s workers answers s') :
    ∃ order, Drained poolId now ttl s workers answers s' order := by
  induction calls with
  | done s =>
    let order := (s.waitingIn poolId now).insertionSort fun a b => a.scheduledFor ≤ b.scheduledFor
    have total : Std.Total fun a b : Run => a.scheduledFor ≤ b.scheduledFor := ⟨fun _ _ => le_total _ _⟩
    have trans : IsTrans Run fun a b => a.scheduledFor ≤ b.scheduledFor := ⟨fun _ _ _ before after => le_trans before after⟩
    refine ⟨order, List.perm_insertionSort _ _, List.pairwise_insertionSort _ _, rfl, ?_, fun _ _ => rfl⟩
    intro i run workerId _ isWorker
    cases isWorker
  | call other ran _ ih =>
    obtain ⟨order, rest⟩ := ih
    rcases Sql.claimNextQueued_memory ran with ⟨nothing, rfl, rfl⟩ | ⟨run, first, rfl, rfl⟩
    · refine ⟨[], rest.nothing (List.eq_nil_iff_forall_not_mem.mpr fun run inside => ?_) other⟩
      obtain ⟨stored, free⟩ := mem_waitingIn.mp inside
      rw [nothing run stored] at free
      cases free
    · exact ⟨run :: order, rest.take first other⟩

/-- **A pool is drained once and in order.** Calls at one instant hand out the waiting runs of a pool in the order of
`scheduled_for`, each once, then nothing, and change no other run. A waiting run can be claimed from one pool, that of
its `run_pool_key`, in memory and in SQL. -/
theorem calls_drain_pool :
    (∀ {poolId : String} {now : DateTime} {ttl : Int} {s s' : Store} {workers : List String}
      {answers : List (Result (Option Run))}, ClaimCalls poolId now ttl s workers answers s' →
        ∃ order, Drained poolId now ttl s workers answers s' order) ∧
    ∀ (poolId : String) (now : DateTime) (run : Run),
      (Store.claimable poolId now run = true ↔ WaitingAt now run ∧ poolId = Sql.runPoolKey run.poolId) ∧
      ((Sql.Db.claimable poolId now run).holds = true ↔ WaitingAt now run ∧ poolId = Sql.runPoolKey run.poolId) := by
  refine ⟨ClaimCalls.drained, fun poolId now run => ⟨claimable_iff_waiting, ?_⟩⟩
  rw [Sql.Db.holds_claimable]
  exact claimable_iff_waiting

/-- Two runs of the default pool, the later one stored first, and three workers. -/
def queuedStore : Store :=
  { Store.new with runs := (Table.empty.insert (Run.new "early" "noop" 0)).insert (Run.new "late" "noop" (seconds 1)) }

theorem queuedStore_calls : ClaimCalls "general" (seconds 2) 30 queuedStore ["a", "b", "c"]
    [.ok (some (Store.claimedRun (Run.new "early" "noop" 0) "a" (seconds 2) 30)),
      .ok (some (Store.claimedRun (Run.new "late" "noop" (seconds 1)) "b" (seconds 2) 30)), .ok none]
    ((queuedStore.setRun (Store.claimedRun (Run.new "early" "noop" 0) "a" (seconds 2) 30)).setRun
      (Store.claimedRun (Run.new "late" "noop" (seconds 1)) "b" (seconds 2) 30)) :=
  .call (.refl _) rfl (.call (.refl _) rfl (.call (.refl _) rfl (.done _)))

theorem calls_drain_pool_twice : ∃ order, Drained "general" (seconds 2) 30 queuedStore ["a", "b", "c"]
    [.ok (some (Store.claimedRun (Run.new "early" "noop" 0) "a" (seconds 2) 30)),
      .ok (some (Store.claimedRun (Run.new "late" "noop" (seconds 1)) "b" (seconds 2) 30)), .ok none]
    ((queuedStore.setRun (Store.claimedRun (Run.new "early" "noop" 0) "a" (seconds 2) 30)).setRun
      (Store.claimedRun (Run.new "late" "noop" (seconds 1)) "b" (seconds 2) 30)) order :=
  calls_drain_pool.1 queuedStore_calls

end Chronon
