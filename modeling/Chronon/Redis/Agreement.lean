import Chronon.Collections.Scan
import Chronon.Redis.Batches
import Chronon.Redis.Settled

/-!
# The claim by Redis and the claim by SQL

With every queued run in its ready set, a claim that pops one run at a time goes
through the ready set in order: it drops what is not queued in this pool, gets
what is queued here and cannot be claimed yet again and again, and gives up
after 64 pops. It agrees with the claim of the SQL store unless it gives up
before it comes to a run that can be claimed.
-/

namespace Chronon.Composite
set_option autoImplicit false

open Concurrent Redis Collections

/-! ## The ready set of a pool -/

section Ready

variable (layer : RedisQueueLayer) (s : State) (poolId : String) (now : DateTime)

/-- The entries that are due, in order. -/
def State.entries : List (String × Int) := (layer.readySet s.keys poolId).upTo (timestampMillis now)

/-- The run of an entry can be claimed. -/
def State.claims (e : String × Int) : Bool := (s.run e.1).any (Store.claimable poolId now)

/-- The run of an entry is queued in this pool. -/
def State.waits (e : String × Int) : Bool :=
  (s.run e.1).any fun run => run.status == .queued && Sql.runPoolKey run.poolId == poolId

/-- The entries ahead of the first run that can be claimed. -/
def State.ahead : List (String × Int) := aheadOf (s.claims poolId now) (s.entries layer poolId now)

/-- Nothing keeps a claim from the first run that can be claimed, if there is one: fewer than 64 entries are ahead of it,
and none of them is of a run queued in this pool. -/
def Clear : Prop :=
  (∃ run, s.run run.runId = some run ∧ Store.claimable poolId now run = true) →
    (s.ahead layer poolId now).length < 64 ∧ ∀ e ∈ s.ahead layer poolId now, s.waits poolId e = false

/-- The claim by Redis returns a run if the claim by SQL does, and one with the least `scheduled_for` in milliseconds. -/
def Agrees (claimBatch : Option Nat) (workerId : String) (ttl : Int) : Prop :=
  ∀ r s', Runs (Step layer) (Composite.claimNextQueued claimBatch poolId workerId now ttl).run s r s' →
    ∃ result, r = .ok result ∧
      (result.isSome = true ↔ (Sql.claimNextQueued s.rows poolId workerId now ttl).1.isSome = true) ∧
      ∀ run, result = some run → ∀ other, s.run other.runId = some other → Store.claimable poolId now other = true →
        timestampMillis run.scheduledFor ≤ timestampMillis other.scheduledFor

end Ready

variable {layer : RedisQueueLayer} {s s' : State} {poolId workerId : String} {now : DateTime} {ttl : Int}
  {e : String × Int} {rest : List (String × Int)}

/-! ## One attempt -/

theorem due_one : s.due layer poolId 1 now = ((s.entries layer poolId now).take 1).map Prod.fst := rfl

/-- A pop removes the first entry. -/
theorem lookup_popped_one (first : s.entries layer poolId now = e :: rest) (pool id : String) :
    (layer.readySet (s.popped layer poolId 1 now).keys pool).lookup id =
      if poolId = pool ∧ id = e.1 then none else (layer.readySet s.keys pool).lookup id := by
  rw [State.lookup_popped, due_one, first]
  simp

/-- **One attempt that claims nothing** removes the first entry, unless its run is queued in this pool. -/
theorem lookup_retried (listed : AllListed layer exactScore s) (first : s.entries layer poolId now = e :: rest)
    (unclaimable : s.claims poolId now e = false) (pool id : String) :
    (layer.readySet (s.retried layer poolId 1 now).keys pool).lookup id =
      if poolId = pool ∧ id = e.1 ∧ s.waits poolId e = false then none else (layer.readySet s.keys pool).lookup id := by
  have attempt : s.retried layer poolId 1 now = (s.popped layer poolId 1 now).requeued layer poolId now e.1 := by
    rw [State.retried, due_one, first]
    rfl
  have same : (s.popped layer poolId 1 now).run e.1 = s.run e.1 := rfl
  rw [attempt, State.requeued, same]
  cases found : s.run e.1 with
  | none =>
    have gone : s.waits poolId e = false := by rw [State.waits, found]; rfl
    simp only [lookup_popped_one first, gone, and_true]
  | some run =>
    have isRun : run.runId = e.1 := Table.key_of_lookup found
    have unfree : Store.claimable poolId now run = false := by
      rw [State.claims, found, Option.any_some] at unclaimable
      exact unclaimable
    have waits : s.waits poolId e = (run.status == .queued && Sql.runPoolKey run.poolId == poolId) := by
      rw [State.waits, found, Option.any_some]
    by_cases queued : run.status = .queued
    · -- it goes back with the score it had
      obtain ⟨score, entry, rfl⟩ := listed run (isRun ▸ found) queued
      simp only [mismatched_iff.mpr ⟨queued, unfree⟩, if_true]
      have away : s.waits poolId e = false ↔ Sql.runPoolKey run.poolId ≠ poolId := by
        rw [waits, queued, beq_self_eq_true, Bool.true_and, beq_eq_false_iff_ne]
      rw [State.enqueue, RedisQueueLayer.lookup_enqueueRun, lookup_popped_one first]
      by_cases back : Sql.runPoolKey run.poolId = pool ∧ run.runId = id
      · obtain ⟨rfl, rfl⟩ := back
        rw [if_pos ⟨rfl, rfl⟩, if_neg fun gone => away.mp gone.2.2 gone.1.symm, entry]
      · rw [if_neg back]
        refine if_congr ⟨fun here => ⟨here.1, here.2, away.mpr fun own => back ?_⟩, fun gone => ⟨gone.1, gone.2.1⟩⟩ rfl rfl
        exact ⟨own.trans here.1, isRun.trans here.2.symm⟩
    · have stays : mismatched poolId now run = false := by
        rw [← Bool.not_eq_true, mismatched_iff]
        exact fun both => queued both.1
      have gone : s.waits poolId e = false := by
        rw [waits, beq_eq_false_iff_ne.mpr queued, Bool.false_and]
      simp only [stays, Bool.false_eq_true, if_false, lookup_popped_one first, gone, and_true]

theorem retried_run (runId : String) : (s.retried layer poolId 1 now).run runId = s.run runId := by
  rw [State.run, s.retried_rows]
  rfl

theorem retried_claims : (s.retried layer poolId 1 now).claims poolId now = s.claims poolId now := by
  funext e
  rw [State.claims, retried_run, State.claims]

theorem retried_waits : (s.retried layer poolId 1 now).waits poolId = s.waits poolId := by
  funext e
  rw [State.waits, retried_run, State.waits]

theorem retried_listed (listed : AllListed layer exactScore s) (first : s.entries layer poolId now = e :: rest)
    (unclaimable : s.claims poolId now e = false) : AllListed layer exactScore (s.retried layer poolId 1 now) := by
  intro run stored queued
  rw [retried_run] at stored
  obtain ⟨score, found, fit⟩ := listed run stored queued
  refine ⟨score, ?_, fit⟩
  rw [lookup_retried listed first unclaimable, if_neg, found]
  rintro ⟨here, isFirst, away⟩
  rw [State.waits, ← isFirst, stored, Option.any_some, queued, ← here] at away
  simp at away

theorem retried_entries (listed : AllListed layer exactScore s) (first : s.entries layer poolId now = e :: rest)
    (unclaimable : s.claims poolId now e = false) :
    (s.retried layer poolId 1 now).entries layer poolId now = if s.waits poolId e then e :: rest else rest := by
  have lookup := lookup_retried listed first unclaimable poolId
  cases stays : s.waits poolId e with
  | true =>
    rw [if_pos rfl, ← first]
    refine SortedSet.upTo_congr fun id => ?_
    rw [lookup, stays]
    simp
  | false =>
    refine SortedSet.upTo_tail first fun id => ?_
    rw [lookup, stays]
    simp

/-- **A claim is a search** of the due entries. -/
theorem firstReady_eq_scan (listed : AllListed layer exactScore s) (attempts : Nat) :
    State.firstReady layer poolId 1 now attempts s =
      ((scan (s.claims poolId now) (s.waits poolId) attempts (s.entries layer poolId now)).map Prod.fst).toList := by
  induction attempts generalizing s with
  | zero => rfl
  | succ attempts ih =>
    cases first : s.entries layer poolId now with
    | nil =>
      have none_ : s.due layer poolId 1 now = [] := by rw [due_one, first]; rfl
      rw [State.firstReady, none_]
      rfl
    | cons e rest =>
      have one : s.due layer poolId 1 now = [e.1] := by rw [due_one, first]; rfl
      rw [scan]
      simp only [State.firstReady, one, List.cons_ne_nil, if_false]
      cases good : s.claims poolId now e with
      | true =>
        have found : s.claimableIds poolId now [e.1] = [e.1] := List.filter_eq_self.mpr fun _ inside => by
          rw [List.mem_singleton.mp inside]
          exact good
        rw [found]
        rfl
      | false =>
        have none_ : s.claimableIds poolId now [e.1] = [] := List.filter_eq_nil_iff.mpr fun _ inside => by
          rw [List.mem_singleton.mp inside, Bool.not_eq_true]
          exact good
        rw [if_pos none_, ih (retried_listed listed first good), retried_claims, retried_waits,
          retried_entries listed first good]
        rfl

/-! ## The whole claim -/

/-- A run that can be claimed is a due entry. -/
theorem claimable_entry (listed : AllListed layer exactScore s) {run : Run} (stored : s.run run.runId = some run)
    (free : Store.claimable poolId now run = true) :
    (run.runId, timestampMillis run.scheduledFor) ∈ s.entries layer poolId now := by
  obtain ⟨queued, due, -, pool⟩ := Sql.claimable_iff.mp free
  obtain ⟨score, found, rfl⟩ := listed run stored queued
  rw [pool] at found
  exact SortedSet.mem_upTo.mpr ⟨found, Int.ediv_le_ediv (by decide) due⟩

theorem exists_claims (listed : AllListed layer exactScore s) :
    (∃ e ∈ s.entries layer poolId now, s.claims poolId now e = true) ↔
      ∃ run, s.run run.runId = some run ∧ Store.claimable poolId now run = true := by
  constructor
  · rintro ⟨e, -, good⟩
    obtain ⟨run, stored, free⟩ := (Option.any_eq_true _ _).mp good
    have isRun : run.runId = e.1 := Table.key_of_lookup stored
    exact ⟨run, isRun ▸ stored, free⟩
  · rintro ⟨run, stored, free⟩
    refine ⟨_, claimable_entry listed stored free, ?_⟩
    rw [State.claims, stored, Option.any_some, free]

/-- The entry that the search finds has the least score of those that can be claimed. -/
theorem scan_least (listed : AllListed layer exactScore s) {attempts : Nat} {row other : Run}
    (found : scan (s.claims poolId now) (s.waits poolId) attempts (s.entries layer poolId now) = some e)
    (stored : s.run e.1 = some row) (stored' : s.run other.runId = some other)
    (free : Store.claimable poolId now other = true) :
    timestampMillis row.scheduledFor ≤ timestampMillis other.scheduledFor := by
  obtain ⟨pre, post, entries, good, first⟩ := scan_eq_some found
  have isRow : row.runId = e.1 := Table.key_of_lookup stored
  have freeRow : Store.claimable poolId now row = true := by
    rw [State.claims, stored, Option.any_some] at good
    exact good
  have isEntry : e = (row.runId, timestampMillis row.scheduledFor) := by
    have here := claimable_entry listed (isRow ▸ stored) freeRow
    have there : e ∈ s.entries layer poolId now := by
      rw [entries]
      exact List.mem_append_right pre List.mem_cons_self
    have same := (SortedSet.mem_upTo.mp there).1
    rw [← isRow, (SortedSet.mem_upTo.mp here).1] at same
    exact (Option.some.inj same).symm
  have later : (other.runId, timestampMillis other.scheduledFor) ∈ e :: post := by
    have inside := claimable_entry listed stored' free
    rw [entries, List.mem_append] at inside
    refine inside.resolve_left fun ahead => ?_
    have bad := first _ ahead
    rw [State.claims, stored', Option.any_some, free] at bad
    cases bad
  have sorted := SortedSet.upTo_pairwise (layer.readySet s.keys poolId) (timestampMillis now)
  rw [State.entries] at entries
  rw [entries, List.pairwise_append] at sorted
  rcases List.mem_cons.mp later with same | behind
  · rw [isEntry] at same
    exact (congrArg Prod.snd same).ge
  · have rank := (List.pairwise_cons.mp sorted.2.1).1 _ behind
    rw [isEntry] at rank
    exact SortedSet.score_le rank

/-- The entry that the search finds is the run that is returned. -/
theorem claim_eq_scan (listed : AllListed layer exactScore s) {claimBatch : Option Nat} {r : Result (Option Run)}
    (one : claimBatchSize claimBatch = 1)
    (runs : Runs (Step layer) (Composite.claimNextQueued claimBatch poolId workerId now ttl).run s r s') :
    ∃ result, r = .ok result ∧
      (result = none ↔ scan (s.claims poolId now) (s.waits poolId) 64 (s.entries layer poolId now) = none) ∧
      ∀ run, result = some run → ∃ e row,
        scan (s.claims poolId now) (s.waits poolId) 64 (s.entries layer poolId now) = some e ∧
        s.run e.1 = some row ∧ run.scheduledFor = row.scheduledFor := by
  obtain ⟨result, rfl, claims⟩ := claimNextQueued_claims runs
  rw [one, firstReady_eq_scan listed] at claims
  refine ⟨result, rfl, ⟨?_, ?_⟩, ?_⟩
  · rintro rfl
    simpa using claims.none_ rfl
  · intro none_
    cases result with
    | none => rfl
    | some run =>
      have inside := (claims.returned run (List.mem_singleton_self run)).1
      rw [none_] at inside
      cases inside
  · rintro run rfl
    obtain ⟨inside, stored⟩ := claims.returned run (List.mem_singleton_self run)
    rw [Option.mem_toList, Option.map_eq_some_iff] at inside
    obtain ⟨e, found, isRun⟩ := inside
    rw [claims.rows, ← isRun] at stored
    obtain ⟨row, storedRow, claimed⟩ := Option.map_eq_some_iff.mp stored
    refine ⟨e, row, found, storedRow, ?_⟩
    rw [← claimed, Sql.claimRow]
    split <;> rfl

theorem agrees_iff_of_listed (listed : AllListed layer exactScore s) {claimBatch : Option Nat}
    (one : claimBatchSize claimBatch = 1) :
    Agrees layer s poolId now claimBatch workerId ttl ↔ Clear layer s poolId now := by
  have search : (scan (s.claims poolId now) (s.waits poolId) 64 (s.entries layer poolId now)).isSome = true ↔
      (∃ run, s.run run.runId = some run ∧ Store.claimable poolId now run = true) ∧
        (s.ahead layer poolId now).length < 64 ∧ ∀ e ∈ s.ahead layer poolId now, s.waits poolId e = false := by
    rw [scan_isSome, exists_claims listed]
    rfl
  have sql : (Sql.claimNextQueued s.rows poolId workerId now ttl).1.isSome = true ↔
      ∃ run, s.run run.runId = some run ∧ Store.claimable poolId now run = true := Sql.claimNextQueued_isSome
  have isSome_iff : ∀ {result : Option Run}, (result = none ↔
      scan (s.claims poolId now) (s.waits poolId) 64 (s.entries layer poolId now) = none) →
      (result.isSome = true ↔
        (scan (s.claims poolId now) (s.waits poolId) 64 (s.entries layer poolId now)).isSome = true) := by
    intro result same
    rw [Option.isSome_iff_ne_none, Option.isSome_iff_ne_none]
    exact not_congr same
  constructor
  · intro agrees claimable
    obtain ⟨r, s', runs⟩ := Runs.exists (Step.exists layer)
      (Composite.claimNextQueued claimBatch poolId workerId now ttl).run s
    obtain ⟨result, rfl, same, -⟩ := claim_eq_scan listed one runs
    obtain ⟨_, ok, returns, -⟩ := agrees _ _ runs
    cases ok
    exact (search.mp ((isSome_iff same).mp (returns.mpr (sql.mpr claimable)))).2
  · intro clear r s' runs
    obtain ⟨result, rfl, same, found⟩ := claim_eq_scan listed one runs
    refine ⟨result, rfl, ?_, fun run isResult other stored free => ?_⟩
    · rw [isSome_iff same, search, sql]
      exact ⟨fun both => both.1, fun claimable => ⟨claimable, clear claimable⟩⟩
    · obtain ⟨e, row, isFound, storedRow, sameTime⟩ := found run isResult
      rw [sameTime]
      exact scan_least listed isFound storedRow stored free

/-- **Redis and SQL agree.** In every state that operations reach one after the other, none of which updates a row to a
queued run that is not in its ready set: the claim by Redis, one run at a time, returns a run exactly when the claim by
SQL does, and one of the earliest, if and only if nothing in the ready set keeps it from the first that can be claimed. -/
theorem agrees_iff_clear (layer : RedisQueueLayer) {s : State} (reached : Reached layer (UpdatesListed layer) s)
    (claimBatch : Option Nat) (one : claimBatchSize claimBatch = 1) (poolId workerId : String) (now : DateTime) (ttl : Int) :
    Agrees layer s poolId now claimBatch workerId ttl ↔ Clear layer s poolId now :=
  agrees_iff_of_listed reached.allListed one

theorem Reached.holding {allowed : State → Client → Prop} {run : Run} {runs : List Run}
    (reached : Reached layer allowed (.holding layer runs)) (creates : allowed (.holding layer runs) (.createRun run))
    (queued : run.status = .queued) (new : (State.holding layer runs).run run.runId = none) :
    Reached layer allowed (.holding layer (run :: runs)) := by
  have inserts : Step layer (.holding layer runs) (.createRun run) (.ok ())
      { State.holding layer runs with rows := (State.holding layer runs).rows.insert run } := by
    have new : (State.holding layer runs).rows.lookup run.runId = none := new
    exact ⟨[], by simp only [answer, Sql.createRun, new]⟩
  refine reached.next (r := .ok ()) creates (Runs.andThen.mpr (.inr ⟨(), _, Runs.issue.mpr inserts, ?_⟩))
  rw [if_pos queued]
  exact Runs.issue.mpr (Step.enqueueRun.mpr ⟨rfl, rfl⟩)

/-- One run, created and due. -/
theorem agrees_iff_clear_created :
    Reached .plain (UpdatesListed .plain) (.holding .plain [Run.new "r" "noop" 0]) ∧ claimBatchSize none = 1 ∧
      Agrees .plain (.holding .plain [Run.new "r" "noop" 0]) "general" (seconds 60) none "w" 30 := by
  have start : Reached .plain (UpdatesListed .plain) (.holding .plain []) := .empty
  have reached : Reached .plain (UpdatesListed .plain) (.holding .plain [Run.new "r" "noop" 0]) :=
    start.holding (fun run isUpdate => by cases isUpdate) rfl rfl
  refine ⟨reached, rfl, (agrees_iff_clear .plain reached none rfl "general" "w" (seconds 60) 30).mpr fun _ => ?_⟩
  decide +kernel

/-- **A later run stands in the way.** Run `a` is scheduled half a millisecond from now and `b` for now, so they have one
score and `a` comes first. The claim by Redis pops `a` and puts it back 64 times and returns nothing, while SQL has `b`. -/
theorem same_millisecond_hides :
    Reached .plain (fun _ _ => True)
        (.holding .plain [Run.new "b" "noop" (seconds 60), Run.new "a" "noop" (seconds 60 + 500000)]) ∧
      ¬Agrees .plain (.holding .plain [Run.new "b" "noop" (seconds 60), Run.new "a" "noop" (seconds 60 + 500000)])
        "general" (seconds 60) none "w" 30 := by
  have start : Reached .plain (fun _ _ => True) (.holding .plain []) := .empty
  refine ⟨(start.holding trivial rfl rfl).holding trivial rfl rfl, ?_⟩
  have fits : ∀ run, exactScore run (timestampMillis run.scheduledFor) := fun _ => rfl
  rw [agrees_iff_of_listed (State.holding_listed fits _) rfl]
  intro clear
  have free := (clear ⟨Run.new "b" "noop" (seconds 60), rfl, by decide +kernel⟩).2 ("a", 60000) (by decide +kernel)
  revert free
  decide +kernel

end Chronon.Composite
