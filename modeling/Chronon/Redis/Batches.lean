import Chronon.Redis.Alone

/-!
# How many runs one claim takes

`claim_next_queued` pops a batch of identifiers, claims all of them that can be
claimed and returns one run. Batches of which none can be claimed are put back
or dropped, and the next one is popped, 64 times at most.
-/

namespace Chronon.Composite
set_option autoImplicit false

open Concurrent Redis Collections

/-- The row of `runId` became claimed. -/
def Changed (s s' : State) (runId : String) : Prop :=
  ∃ before after, s.run runId = some before ∧ before.status ≠ .claimed ∧ s'.run runId = some after ∧
    after.status = .claimed

/-- The contract of one claim. -/
structure ClaimsOne (workerId : String) (s : State) (result : Option Run) (s' : State) : Prop where
  single : ∀ a b, Changed s s' a → Changed s s' b → a = b
  returned : ∀ run, result = some run → Changed s s' run.runId ∧ s'.run run.runId = some run
  /-- What the worker has claimed now it had before, or it is handed to it. -/
  handed : ∀ run, s'.run run.runId = some run → run.status = .claimed → run.claimedBy = some workerId →
    s.run run.runId = some run ∨ result = some run

/-- What is left after an attempt without a claim. -/
def State.retried (layer : RedisQueueLayer) (s : State) (poolId : String) (batch : Nat) (now : DateTime) : State :=
  (s.due layer poolId batch now).foldl (State.requeued layer poolId now) (s.popped layer poolId batch now)

/-- The claimable runs of the first batch that has any. -/
def State.firstReady (layer : RedisQueueLayer) (poolId : String) (batch : Nat) (now : DateTime) : Nat → State → List String
  | 0, _ => []
  | attempts + 1, s =>
    let ids := s.due layer poolId batch now
    if ids = [] then []
    else if s.claimableIds poolId now ids = [] then
      State.firstReady layer poolId batch now attempts (s.retried layer poolId batch now)
    else s.claimableIds poolId now ids

variable {layer : RedisQueueLayer} {s t s' : State} {poolId workerId : String} {batch : Nat} {now : DateTime} {ttl : Int}
  {ids : List String} {claimed : List Run}

/-! ## The rows -/

theorem State.requeued_rows (s : State) (runId : String) : (s.requeued layer poolId now runId).rows = s.rows := by
  unfold State.requeued
  split
  · rfl
  · split <;> rfl

theorem State.foldl_requeued_rows (ids : List String) (s : State) :
    (ids.foldl (State.requeued layer poolId now) s).rows = s.rows := by
  induction ids generalizing s with
  | nil => rfl
  | cons runId rest ih => exact (ih _).trans (s.requeued_rows runId)

theorem State.retried_rows (s : State) : (s.retried layer poolId batch now).rows = s.rows := by
  unfold State.retried
  rw [State.foldl_requeued_rows]
  rfl

theorem due_nodup (s : State) : (s.due layer poolId batch now).Nodup := by
  unfold State.due RedisQueueLayer.claimNextRunIds
  split
  · exact List.nodup_nil
  · exact ((List.take_sublist _ _).map Prod.fst).nodup (SortedSet.upTo_nodup _ _)

/-! ## Attempts -/

theorem claimOne_claims {runId : String} {r : Result (Option Run)}
    (runs : Runs (Step layer) (claimOne runId poolId workerId now ttl).run s r s') :
    ∃ result, r = .ok result ∧ Claims workerId now ttl (s.claimableIds poolId now [runId]) s result.toList s' ∧
      (result = none → s' = s.requeued layer poolId now runId) := by
  rcases Runs.andThen.mp runs with ⟨e, -, failed⟩ | ⟨claimed, t, first, rest⟩
  · obtain ⟨_, ok, -⟩ := Step.claimRunById (Runs.issue.mp failed)
    cases ok
  · obtain ⟨_, ok, claims, unchanged⟩ := Step.claimRunById (Runs.issue.mp first)
    cases ok
    cases claimed with
    | some run =>
      obtain ⟨rfl, rfl⟩ := Runs.pure.mp rest
      exact ⟨some run, rfl, claims, fun none_ => by cases none_⟩
    | none =>
      obtain rfl := unchanged (claims.none_ rfl)
      have rest := (Runs.past fun _ _ => requeueMismatch_runs).mp rest
      obtain ⟨rfl, rfl⟩ := Runs.pure.mp rest
      exact ⟨none, rfl, claims.of_rows rfl (t.requeued_rows runId), fun _ => rfl⟩

theorem claimSingly_claims {attempts : Nat} {r : Result (Option Run)}
    (runs : Runs (Step layer) (claimSingly poolId workerId now ttl attempts).run s r s') :
    ∃ result, r = .ok result ∧
      Claims workerId now ttl (State.firstReady layer poolId 1 now attempts s) s result.toList s' := by
  induction attempts generalizing s with
  | zero =>
    obtain ⟨rfl, rfl⟩ := Runs.pure.mp runs
    exact ⟨none, rfl, .nothing s'⟩
  | succ attempts ih =>
    have runs := (Runs.past fun _ _ => Runs.issue.trans Step.claimNextRunIds).mp runs
    have atMostOne : (s.due layer poolId 1 now).length ≤ 1 := layer.length_claimNextRunIds s.keys poolId 1 now
    simp only [State.firstReady]
    cases ids : s.due layer poolId 1 now with
    | nil =>
      rw [ids] at runs
      obtain ⟨rfl, rfl⟩ := Runs.pure.mp runs
      exact ⟨none, rfl, (Claims.nothing s).of_rows rfl rfl⟩
    | cons runId rest =>
      obtain rfl : rest = [] := by
        rw [ids, List.length_cons] at atMostOne
        exact List.length_eq_zero_iff.mp (by omega)
      rw [ids] at runs
      rw [if_neg (List.cons_ne_nil _ _)]
      rcases Runs.andThen.mp runs with ⟨e, -, failed⟩ | ⟨claimed, t, first, rest⟩
      · obtain ⟨_, ok, -⟩ := claimOne_claims failed
        cases ok
      · obtain ⟨_, ok, claims, requeued⟩ := claimOne_claims first
        cases ok
        have claims : Claims workerId now ttl (s.claimableIds poolId now [runId]) s claimed.toList t := claims.of_rows rfl rfl
        cases claimed with
        | some run =>
          obtain ⟨rfl, rfl⟩ := Runs.pure.mp rest
          rw [if_neg (List.ne_nil_of_mem (claims.returned run (List.mem_singleton_self run)).1)]
          exact ⟨some run, rfl, claims⟩
        | none =>
          rw [if_pos (claims.none_ rfl)]
          have next : t = s.retried layer poolId 1 now := by
            rw [requeued rfl, State.retried, ids]
            rfl
          subst next
          obtain ⟨result, rfl, later⟩ := ih rest
          exact ⟨result, rfl, later.of_rows s.retried_rows.symm rfl⟩

theorem unclaimedIds_nil (ids : List String) : unclaimedIds ids [] = ids := List.filter_eq_self.mpr fun _ _ => rfl

theorem claimInBatches_claims {attempts : Nat} {r : Result (Option Run)}
    (runs : Runs (Step layer) (claimInBatches batch poolId workerId now ttl attempts).run s r s') :
    ∃ result, r = .ok result ∧
      Claims workerId now ttl (State.firstReady layer poolId batch now attempts s) s result.toList s' := by
  induction attempts generalizing s with
  | zero =>
    obtain ⟨rfl, rfl⟩ := Runs.pure.mp runs
    exact ⟨none, rfl, .nothing s'⟩
  | succ attempts ih =>
    have runs := (Runs.past fun _ _ => Runs.issue.trans Step.claimNextRunIds).mp runs
    simp only [State.firstReady]
    cases ids : s.due layer poolId batch now with
    | nil =>
      rw [ids] at runs
      obtain ⟨rfl, rfl⟩ := Runs.pure.mp runs
      exact ⟨none, rfl, (Claims.nothing s).of_rows rfl rfl⟩
    | cons runId others =>
      rw [ids] at runs
      rw [if_neg (List.cons_ne_nil _ _)]
      rcases Runs.andThen.mp runs with ⟨e, -, failed⟩ | ⟨claimed, t, first, rest⟩
      · obtain ⟨_, ok, -⟩ := Step.claimRunsByIds (Runs.issue.mp failed)
        cases ok
      · obtain ⟨_, ok, claims, unchanged⟩ := Step.claimRunsByIds (Runs.issue.mp first)
        cases ok
        have rest := (Runs.past fun _ _ => reconcileEach_runs).mp rest
        have claims : Claims workerId now ttl (s.claimableIds poolId now (runId :: others)) s claimed t :=
          claims.of_rows rfl rfl
        cases found : claimed.head? with
        | some run =>
          rw [found] at rest
          obtain ⟨rfl, rfl⟩ := Runs.pure.mp rest
          have inside := (claims.returned run (List.mem_of_mem_head? found)).1
          rw [if_neg (List.ne_nil_of_mem inside)]
          refine ⟨some run, rfl, ?_⟩
          rw [← found]
          exact claims.head.of_rows rfl (State.foldl_requeued_rows _ _)
        | none =>
          obtain rfl := List.head?_eq_none_iff.mp found
          have nothing := claims.none_ rfl
          obtain rfl := unchanged nothing
          rw [if_pos nothing]
          have next : (unclaimedIds (runId :: others) []).foldl (State.requeued layer poolId now)
              (s.popped layer poolId batch now) = s.retried layer poolId batch now := by
            rw [State.retried, ids, unclaimedIds_nil]
          rw [next] at rest
          obtain ⟨result, rfl, later⟩ := ih rest
          exact ⟨result, rfl, later.of_rows s.retried_rows.symm rfl⟩

theorem claimNextQueued_claims {claimBatch : Option Nat} {r : Result (Option Run)}
    (runs : Runs (Step layer) (Composite.claimNextQueued claimBatch poolId workerId now ttl).run s r s') :
    ∃ result, r = .ok result ∧
      Claims workerId now ttl (State.firstReady layer poolId (claimBatchSize claimBatch) now 64 s) s result.toList s' := by
  unfold Composite.claimNextQueued at runs
  split at runs
  · rename_i small
    have one : claimBatchSize claimBatch = 1 := le_antisymm small (le_max_left _ _)
    rw [one]
    exact claimSingly_claims runs
  · exact claimInBatches_claims runs

/-! ## How many -/

theorem mem_firstReady {attempts : Nat} {runId : String}
    (ready : runId ∈ State.firstReady layer poolId batch now attempts s) :
    ∃ run, s.run runId = some run ∧ run.status = .queued := by
  induction attempts generalizing s with
  | zero => cases ready
  | succ attempts ih =>
    simp only [State.firstReady] at ready
    split at ready
    · cases ready
    · split at ready
      · obtain ⟨run, stored, queued⟩ := ih ready
        rw [State.run, s.retried_rows] at stored
        exact ⟨run, stored, queued⟩
      · obtain ⟨-, run, stored, free⟩ := mem_claimableIds.mp ready
        exact ⟨run, stored, Store.queued_of_claimable free⟩

theorem firstReady_nodup (attempts : Nat) (s : State) :
    (State.firstReady layer poolId batch now attempts s).Nodup := by
  induction attempts generalizing s with
  | zero => exact List.nodup_nil
  | succ attempts ih =>
    simp only [State.firstReady]
    split
    · exact List.nodup_nil
    · split
      · exact ih _
      · exact (due_nodup s).filter _

/-- A batch has no more runs than it pops. -/
theorem firstReady_length (attempts : Nat) (s : State) :
    (State.firstReady layer poolId batch now attempts s).length ≤ batch := by
  induction attempts generalizing s with
  | zero => exact Nat.zero_le _
  | succ attempts ih =>
    simp only [State.firstReady]
    split
    · exact Nat.zero_le _
    · split
      · exact ih _
      · exact (List.length_filter_le _ _).trans (layer.length_claimNextRunIds s.keys poolId batch now)

section Single

variable {result : Option Run}

theorem Claims.changed_iff (claims : Claims workerId now ttl ids s claimed s')
    (queued : ∀ runId ∈ ids, ∃ run, s.run runId = some run ∧ run.status = .queued) {runId : String} :
    Changed s s' runId ↔ runId ∈ ids := by
  constructor
  · rintro ⟨before, after, stored, unclaimed, stored', status⟩
    have isRun : before.runId = runId := Table.key_of_lookup stored
    rw [claims.rows, stored, Option.map_some, Sql.claimRow] at stored'
    split at stored'
    · rename_i chosen
      rw [← isRun]
      exact List.contains_iff_mem.mp chosen
    · cases stored'
      exact absurd status unclaimed
  · intro inside
    obtain ⟨run, stored, status⟩ := queued runId inside
    have isRun : run.runId = runId := Table.key_of_lookup stored
    refine ⟨run, Store.claimedRun run workerId now ttl, stored, by rw [status]; decide, ?_, rfl⟩
    rw [claims.rows, stored, Option.map_some, Sql.claimRow, if_pos]
    rw [isRun]
    exact List.contains_iff_mem.mpr inside

theorem Claims.claimsOne_iff (claims : Claims workerId now ttl ids s result.toList s')
    (queued : ∀ runId ∈ ids, ∃ run, s.run runId = some run ∧ run.status = .queued) (distinct : ids.Nodup) :
    ClaimsOne workerId s result s' ↔ ids.length ≤ 1 := by
  rw [← List.toFinset_card_of_nodup distinct, Finset.card_le_one]
  simp only [List.mem_toFinset]
  constructor
  · intro one a inside b inside'
    exact one.single a b ((claims.changed_iff queued).mpr inside) ((claims.changed_iff queued).mpr inside')
  · intro same
    refine ⟨fun a b changed changed' => ?_, fun run isResult => ?_, fun run stored _ _ => ?_⟩
    · exact same a ((claims.changed_iff queued).mp changed) b ((claims.changed_iff queued).mp changed')
    · have found := claims.returned run (by rw [isResult]; exact List.mem_singleton_self run)
      exact ⟨(claims.changed_iff queued).mpr found.1, found.2⟩
    · by_cases chosen : run.runId ∈ ids
      · refine .inr ?_
        cases result with
        | none => exact absurd (claims.none_ rfl ▸ chosen) List.not_mem_nil
        | some returned =>
          obtain ⟨inside, stored'⟩ := claims.returned returned (List.mem_singleton_self returned)
          rw [same _ inside _ chosen, stored] at stored'
          exact stored'.symm
      · obtain ⟨old, found, isRun⟩ := Option.map_eq_some_iff.mp ((claims.rows _).symm.trans stored)
        have isOld : old.runId = run.runId := Table.key_of_lookup found
        rw [Sql.claimRow, if_neg (by rw [isOld, List.contains_iff_mem]; exact chosen)] at isRun
        exact .inl (isRun ▸ found)

end Single

/-- **One claim, one run.** A claim takes at most one run and hands it to the worker exactly when runs are popped one at a
time, or the first popped batch in which any run can be claimed has only one such run. -/
theorem claims_one_iff (layer : RedisQueueLayer) (claimBatch : Option Nat) (poolId workerId : String) (now : DateTime)
    (ttl : Int) {s s' : State} {result : Option Run}
    (runs : Runs (Step layer) (Composite.claimNextQueued claimBatch poolId workerId now ttl).run s (.ok result) s') :
    ClaimsOne workerId s result s' ↔
      claimBatchSize claimBatch = 1 ∨
        (State.firstReady layer poolId (claimBatchSize claimBatch) now 64 s).length ≤ 1 := by
  obtain ⟨_, ok, claims⟩ := claimNextQueued_claims runs
  cases ok
  rw [claims.claimsOne_iff (fun _ => mem_firstReady) (firstReady_nodup 64 s)]
  refine ⟨.inr, ?_⟩
  rintro (one | short)
  · rw [one]
    exact firstReady_length 64 s
  · exact short

/-- A batch of two that pops a run which is due. -/
theorem claims_one_iff_due :
    ∃ result s', Runs (Step .plain) (Composite.claimNextQueued (some 2) "general" "w" (seconds 60) 30).run
        (.holding .plain [Run.new "r" "noop" 0]) (.ok result) s' ∧
      ClaimsOne "w" (.holding .plain [Run.new "r" "noop" 0]) result s' := by
  obtain ⟨r, s', runs⟩ := Runs.exists (Step.exists .plain)
    (Composite.claimNextQueued (some 2) "general" "w" (seconds 60) 30).run (.holding .plain [Run.new "r" "noop" 0])
  obtain ⟨result, rfl, -⟩ := claimNextQueued_claims runs
  exact ⟨result, s', runs, (claims_one_iff .plain (some 2) "general" "w" (seconds 60) 30 runs).mpr
    (.inr (by decide +kernel))⟩

/-- **Two runs for one claim.** With batches of two, a claim takes both runs that are due and returns one of them. -/
theorem batch_claims_two :
    ∃ result s', Runs (Step .plain) (Composite.claimNextQueued (some 2) "general" "w" (seconds 60) 30).run
        (.holding .plain [Run.new "a" "noop" 0, Run.new "b" "noop" 0]) (.ok result) s' ∧
      Changed (.holding .plain [Run.new "a" "noop" 0, Run.new "b" "noop" 0]) s' "a" ∧
      Changed (.holding .plain [Run.new "a" "noop" 0, Run.new "b" "noop" 0]) s' "b" ∧
      ¬ClaimsOne "w" (.holding .plain [Run.new "a" "noop" 0, Run.new "b" "noop" 0]) result s' := by
  obtain ⟨r, s', runs⟩ := Runs.exists (Step.exists .plain)
    (Composite.claimNextQueued (some 2) "general" "w" (seconds 60) 30).run
    (.holding .plain [Run.new "a" "noop" 0, Run.new "b" "noop" 0])
  obtain ⟨result, rfl, claims⟩ := claimNextQueued_claims runs
  have both : State.firstReady .plain "general" (claimBatchSize (some 2)) (seconds 60) 64
      (.holding .plain [Run.new "a" "noop" 0, Run.new "b" "noop" 0]) = ["a", "b"] := by decide +kernel
  have changed : ∀ runId ∈ ["a", "b"], Changed (.holding .plain [Run.new "a" "noop" 0, Run.new "b" "noop" 0]) s' runId := by
    intro runId inside
    rw [← both] at inside
    exact (claims.changed_iff fun _ => mem_firstReady).mpr inside
  have first := changed "a" (by decide)
  have second := changed "b" (by decide)
  exact ⟨result, s', runs, first, second, fun one => absurd (one.single "a" "b" first second) (by decide)⟩

end Chronon.Composite
