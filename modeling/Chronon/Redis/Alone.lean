import Chronon.Redis.Ready

/-!
# Operations that run alone

What the parts of an operation do to the two objects when no other call comes
between theirs and none fails.
-/

namespace Chronon.Composite
set_option autoImplicit false

open Concurrent Redis Collections

variable {layer : RedisQueueLayer} {s s' : State}

section Rules

variable {α β : Type}

/-- Sequencing of fallible parts. -/
theorem Runs.andThen {m : Task α} {f : α → Task β} {b : Result β} :
    Runs (Step layer) (m >>= f).run s b s' ↔
      (∃ e, b = .error e ∧ Runs (Step layer) m.run s (.error e) s') ∨
        ∃ a t, Runs (Step layer) m.run s (.ok a) t ∧ Runs (Step layer) (f a).run t b s' := by
  refine Concurrent.Runs.bind.trans ?_
  constructor
  · rintro ⟨r, t, first, rest⟩
    cases r with
    | error e =>
      obtain ⟨rfl, rfl⟩ := rest
      exact .inl ⟨e, rfl, first⟩
    | ok a => exact .inr ⟨a, t, first, rest⟩
  · rintro (⟨e, rfl, first⟩ | ⟨a, t, first, rest⟩)
    · exact ⟨.error e, s', first, rfl, rfl⟩
    · exact ⟨.ok a, t, first, rest⟩

theorem Runs.issue {op : Op} {r : Ans op} : Runs (Step layer) (issue op).run s r s' ↔ Step layer s op r s' := by
  constructor
  · rintro ⟨_, _, steps, rfl, rfl⟩
    exact steps
  · exact fun steps => ⟨r, s', steps, rfl, rfl⟩

theorem Runs.pure {a : α} {r : Result α} : Runs (Step layer) (Pure.pure a : Task α).run s r s' ↔ r = .ok a ∧ s' = s :=
  Iff.rfl

/-- Past a part that can only end in one way. -/
theorem Runs.past {m : Task α} {f : α → Task β} {a : α} {t : State} {b : Result β}
    (ends : ∀ r s', Runs (Step layer) m.run s r s' ↔ r = .ok a ∧ s' = t) :
    Runs (Step layer) (m >>= f).run s b s' ↔ Runs (Step layer) (f a).run t b s' := by
  rw [Runs.andThen]
  constructor
  · rintro (⟨e, -, first⟩ | ⟨a', t', first, rest⟩)
    · cases ((ends _ _).mp first).1
    · obtain ⟨same, rfl⟩ := (ends _ _).mp first
      cases same
      exact rest
  · exact fun rest => .inr ⟨a, t, (ends _ _).mpr ⟨rfl, rfl⟩, rest⟩

end Rules

/-! ## Single calls -/

theorem Step.getRun {runId : String} {r : Result (Option Run)} :
    Step layer s (.getRun runId) r s' ↔ r = .ok (s.run runId) ∧ s' = s := by
  constructor
  · rintro ⟨order, answered⟩
    cases answered
    exact ⟨rfl, rfl⟩
  · rintro ⟨rfl, rfl⟩
    exact ⟨[], rfl⟩

/-- The ready sets after one `ZADD`. -/
def State.enqueue (layer : RedisQueueLayer) (s : State) (poolId : String) (run : Run) : State :=
  { s with keys := layer.enqueueRun s.keys poolId run.runId run.scheduledFor }

theorem Step.enqueueRun {poolId : String} {run : Run} {r : Result Unit} :
    Step layer s (.enqueueRun poolId run.runId run.scheduledFor) r s' ↔ r = .ok () ∧ s' = s.enqueue layer poolId run := by
  constructor
  · rintro ⟨order, answered⟩
    cases answered
    exact ⟨rfl, rfl⟩
  · rintro ⟨rfl, rfl⟩
    exact ⟨[], rfl⟩

/-- What a pop takes. -/
def State.due (layer : RedisQueueLayer) (s : State) (poolId : String) (count : Nat) (now : DateTime) : List String :=
  (layer.claimNextRunIds s.keys poolId count now).1

/-- What a pop leaves. -/
def State.popped (layer : RedisQueueLayer) (s : State) (poolId : String) (count : Nat) (now : DateTime) : State :=
  { s with keys := (layer.claimNextRunIds s.keys poolId count now).2 }

theorem Step.claimNextRunIds {poolId : String} {count : Nat} {now : DateTime} {r : Result (List String)} :
    Step layer s (.claimNextRunIds poolId count now) r s' ↔
      r = .ok (s.due layer poolId count now) ∧ s' = s.popped layer poolId count now := by
  constructor
  · rintro ⟨order, answered⟩
    cases answered
    exact ⟨rfl, rfl⟩
  · rintro ⟨rfl, rfl⟩
    exact ⟨[], rfl⟩

theorem State.lookup_popped (s : State) (poolId : String) (count : Nat) (now : DateTime) (pool id : String) :
    (layer.readySet (s.popped layer poolId count now).keys pool).lookup id =
      if poolId = pool ∧ id ∈ s.due layer poolId count now then none else (layer.readySet s.keys pool).lookup id :=
  layer.lookup_claimNextRunIds s.keys poolId count now pool id

/-! ## Claims -/

/-- The identifiers whose runs can be claimed. -/
def State.claimableIds (s : State) (poolId : String) (now : DateTime) (ids : List String) : List String :=
  ids.filter fun runId => (s.run runId).any (Store.claimable poolId now)

/-- The runs `ids` are claimed, and some of them returned unless there are none. -/
structure Claims (workerId : String) (now : DateTime) (ttl : Int) (ids : List String) (s : State) (claimed : List Run)
    (s' : State) : Prop where
  rows : ∀ runId, s'.run runId = (s.run runId).map (Sql.claimRow workerId now ttl fun run => ids.contains run.runId)
  returned : ∀ run ∈ claimed, run.runId ∈ ids ∧ s'.run run.runId = some run
  none_ : claimed = [] → ids = []

section Claims

variable {poolId workerId : String} {now : DateTime} {ttl : Int} {ids : List String} {claimed : List Run}

theorem mem_claimableIds {runId : String} :
    runId ∈ s.claimableIds poolId now ids ↔
      runId ∈ ids ∧ ∃ run, s.run runId = some run ∧ Store.claimable poolId now run = true := by
  rw [State.claimableIds, List.mem_filter, Option.any_eq_true]

theorem mem_claimableIds_of_stored {run : Run} (stored : s.run run.runId = some run) :
    run.runId ∈ s.claimableIds poolId now ids ↔ run.runId ∈ ids ∧ Store.claimable poolId now run = true := by
  rw [mem_claimableIds, stored]
  simp

theorem Claims.of_rows {s₁ s₁' : State} (claims : Claims workerId now ttl ids s claimed s') (before : s₁.rows = s.rows)
    (after : s₁'.rows = s'.rows) : Claims workerId now ttl ids s₁ claimed s₁' := by
  have same : s₁.run = s.run := by unfold State.run; rw [before]
  have same' : s₁'.run = s'.run := by unfold State.run; rw [after]
  refine ⟨?_, ?_, claims.none_⟩
  · rw [same, same']
    exact claims.rows
  · rw [same']
    exact claims.returned

theorem Claims.nothing (s : State) : Claims workerId now ttl [] s [] s := by
  refine ⟨fun runId => ?_, fun run inside => (by cases inside), fun _ => rfl⟩
  have kept : (Sql.claimRow workerId now ttl fun run => [].contains run.runId) = id := rfl
  rw [kept, Option.map_id]
  rfl

/-- The first of the claimed runs stands for them all. -/
theorem Claims.head (claims : Claims workerId now ttl ids s claimed s') :
    Claims workerId now ttl ids s claimed.head?.toList s' := by
  refine ⟨claims.rows, fun run inside => ?_, fun none_ => claims.none_ ?_⟩
  · exact claims.returned run (List.mem_of_mem_head? (Option.mem_toList.mp inside))
  · exact List.head?_eq_none_iff.mp (Option.toList_eq_nil_iff.mp none_)

/-- The rows that the claim statements update. -/
def selects (poolId : String) (now : DateTime) (ids : List String) (run : Run) : Bool :=
  ids.contains run.runId && Store.claimable poolId now run

theorem selects_iff {run : Run} (stored : s.run run.runId = some run) :
    selects poolId now ids run = true ↔ run.runId ∈ s.claimableIds poolId now ids := by
  rw [mem_claimableIds_of_stored stored, selects, Bool.and_eq_true, List.contains_iff_mem]

/-- An update that selects no row changes none. -/
theorem claimWhere_selects_none (nothing : s.claimableIds poolId now ids = []) :
    (Sql.claimWhere s.rows workerId now ttl (selects poolId now ids)).2 = s.rows := by
  refine Table.mapRows_eq_self (Sql.claimRow_runId workerId now ttl _) fun run inside => ?_
  rw [Sql.claimRow, if_neg]
  rw [selects_iff (Table.lookup_of_mem inside), nothing]
  exact List.not_mem_nil

/-- The update claims what it can of `ids`, and returns some of it. -/
theorem Claims.of_update (rows : s'.rows = (Sql.claimWhere s.rows workerId now ttl (selects poolId now ids)).2)
    (returned : ∀ run ∈ claimed, run ∈ (Sql.claimWhere s.rows workerId now ttl (selects poolId now ids)).1)
    (none_ : claimed = [] → (Sql.claimWhere s.rows workerId now ttl (selects poolId now ids)).1 = []) :
    Claims workerId now ttl (s.claimableIds poolId now ids) s claimed s' := by
  have after : ∀ runId, s'.run runId = (s.run runId).map (Sql.claimRow workerId now ttl (selects poolId now ids)) := by
    intro runId
    rw [State.run, rows, Sql.lookup_claimWhere]
    rfl
  refine ⟨fun runId => ?_, fun run taken => ?_, fun nothing => ?_⟩
  · rw [after runId]
    refine Option.map_congr fun run found => ?_
    have isRun : run.runId = runId := Table.key_of_lookup found
    have chosen : selects poolId now ids run = true ↔ run.runId ∈ s.claimableIds poolId now ids :=
      selects_iff (isRun ▸ found)
    unfold Sql.claimRow
    rw [if_congr (chosen.trans List.contains_iff_mem.symm) rfl rfl]
  · obtain ⟨row, stored, chosen, rfl⟩ := Sql.mem_claimWhere.mp (returned run taken)
    refine ⟨(selects_iff stored).mp chosen, ?_⟩
    have stored : s.run row.runId = some row := stored
    have isRow : (Store.claimedRun row workerId now ttl).runId = row.runId := rfl
    rw [isRow, after, stored, Option.map_some, Sql.claimRow, if_pos chosen]
  · refine List.eq_nil_iff_forall_not_mem.mpr fun runId present => ?_
    obtain ⟨-, row, stored, -⟩ := mem_claimableIds.mp present
    have isRow : row.runId = runId := Table.key_of_lookup stored
    subst isRow
    have taken : Store.claimedRun row workerId now ttl ∈ (Sql.claimWhere s.rows workerId now ttl (selects poolId now ids)).1 :=
      Sql.mem_claimWhere.mpr ⟨row, stored, (selects_iff stored).mpr present, rfl⟩
    rw [none_ nothing] at taken
    cases taken

theorem Step.claimRunsByIds {r : Result (List Run)}
    (steps : Step layer s (.claimRunsByIds ids poolId workerId now ttl) r s') :
    ∃ claimed, r = .ok claimed ∧ Claims workerId now ttl (s.claimableIds poolId now ids) s claimed s' ∧
      (s.claimableIds poolId now ids = [] → s' = s) := by
  obtain ⟨order, answered⟩ := steps
  simp only [answer] at answered
  split at answered
  · rename_i listing
    cases answered
    have stored : ∀ run ∈ (Sql.claimRunsByIds s.rows ids poolId workerId now ttl).1,
        (Sql.claimRunsByIds s.rows ids poolId workerId now ttl).2.lookup run.runId = some run := by
      intro run inside
      obtain ⟨row, found, chosen, rfl⟩ := Sql.mem_claimWhere.mp inside
      have isRow : (Store.claimedRun row workerId now ttl).runId = row.runId := rfl
      rw [isRow, Sql.claimRunsByIds, Sql.lookup_claimWhere, found, Option.map_some, Sql.claimRow, if_pos chosen]
    refine ⟨_, rfl, .of_update rfl (fun run inside => ?_) (fun nothing => ?_), fun nothing => ?_⟩
    · obtain ⟨runId, listed, found⟩ := List.mem_filterMap.mp inside
      obtain ⟨run', inside', rfl⟩ := List.mem_map.mp (listing.mem_iff.mp listed)
      rw [stored run' inside'] at found
      cases found
      exact inside'
    · refine List.eq_nil_iff_forall_not_mem.mpr fun run inside => ?_
      have listed : run ∈ order.filterMap (Sql.claimRunsByIds s.rows ids poolId workerId now ttl).2.lookup :=
        List.mem_filterMap.mpr ⟨run.runId, listing.mem_iff.mpr (List.mem_map_of_mem inside), stored run inside⟩
      rw [nothing] at listed
      cases listed
    · exact congrArg (fun rows => ({ s with rows } : State)) (claimWhere_selects_none nothing)
  · cases answered

theorem Step.claimRunById {runId : String} {r : Result (Option Run)}
    (steps : Step layer s (.claimRunById runId poolId workerId now ttl) r s') :
    ∃ claimed, r = .ok claimed ∧ Claims workerId now ttl (s.claimableIds poolId now [runId]) s claimed.toList s' ∧
      (s.claimableIds poolId now [runId] = [] → s' = s) := by
  obtain ⟨order, answered⟩ := steps
  have same : (fun run : Run => run.runId == runId && Store.claimable poolId now run) = selects poolId now [runId] := by
    funext run
    rw [selects, List.contains_cons, List.contains_nil, Bool.or_false]
  simp only [answer, Sql.claimRunById, same, Option.some.injEq, Prod.mk.injEq] at answered
  obtain ⟨rfl, rfl⟩ := answered
  refine ⟨_, rfl, .of_update rfl (fun run inside => ?_) (fun nothing => ?_), fun nothing => ?_⟩
  · exact List.mem_of_mem_head? (Option.mem_toList.mp inside)
  · exact List.head?_eq_none_iff.mp (Option.toList_eq_nil_iff.mp nothing)
  · rw [claimWhere_selects_none nothing]

end Claims

/-! ## Putting runs back -/

/-- What `requeue_mismatch` does. -/
def State.requeued (layer : RedisQueueLayer) (poolId : String) (now : DateTime) (s : State) (runId : String) : State :=
  match s.run runId with
  | none => s
  | some run => if mismatched poolId now run then s.enqueue layer (Sql.runPoolKey run.poolId) run else s

theorem requeueMismatch_runs {runId poolId : String} {now : DateTime} {r : Result Unit} :
    Runs (Step layer) (requeueMismatch runId poolId now).run s r s' ↔
      r = .ok () ∧ s' = s.requeued layer poolId now runId := by
  rw [requeueMismatch_eq, Runs.past fun _ _ => Runs.issue.trans Step.getRun, State.requeued]
  cases s.run runId with
  | none => exact Runs.pure
  | some run =>
    simp only
    split
    · exact Runs.issue.trans Step.enqueueRun
    · exact Runs.pure

theorem reconcileEach_runs {poolId : String} {now : DateTime} {ids : List String} {r : Result Unit} :
    Runs (Step layer) (reconcileEach poolId now ids).run s r s' ↔
      r = .ok () ∧ s' = ids.foldl (State.requeued layer poolId now) s := by
  induction ids generalizing s with
  | nil => exact Runs.pure
  | cons runId rest ih => exact (Runs.past fun _ _ => requeueMismatch_runs).trans ih

/-! ## Stores that hold some queued runs -/

/-- Each run is stored and added to its ready set. -/
def State.holding (layer : RedisQueueLayer) : List Run → State
  | [] => .empty
  | run :: rest =>
    let s := State.holding layer rest
    State.enqueue layer { s with rows := s.rows.insert run } (Sql.runPoolKey run.poolId) run

theorem State.holding_listed {fits : Run → Int → Prop} (exact_ : ∀ run, fits run (timestampMillis run.scheduledFor))
    (runs : List Run) : AllListed layer fits (.holding layer runs) := by
  induction runs with
  | nil =>
    intro run stored
    cases stored
  | cons run rest ih =>
    intro row stored queued
    have stored : ((State.holding layer rest).rows.insert run).lookup row.runId = some row := stored
    rw [Table.lookup_insert] at stored
    split at stored
    · cases stored
      refine ⟨timestampMillis run.scheduledFor, ?_, exact_ run⟩
      rw [State.holding, State.enqueue, RedisQueueLayer.lookup_enqueueRun, if_pos ⟨rfl, rfl⟩]
    · rename_i other
      obtain ⟨score, found, fit⟩ := ih row stored queued
      refine ⟨score, ?_, fit⟩
      rw [State.holding, State.enqueue, RedisQueueLayer.lookup_enqueueRun, if_neg fun both => other both.2]
      exact found

end Chronon.Composite
