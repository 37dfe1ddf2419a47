import Chronon.Redis.Composite

/-!
# Queued runs and ready sets

A queued run is listed when the ready set of its pool has it, with a score that
fits (which scores do is a parameter), and stranded when it is not.
-/

namespace Chronon.Composite
set_option autoImplicit false

open Concurrent Redis Collections

/-- A popped run that is put back: it is queued, and cannot be claimed from this pool now. -/
def mismatched (poolId : String) (now : DateTime) (run : Run) : Bool :=
  run.status == .queued && !Store.claimable poolId now run

theorem mismatched_iff {poolId : String} {now : DateTime} {run : Run} :
    mismatched poolId now run = true ↔ run.status = .queued ∧ Store.claimable poolId now run = false := by
  simp [mismatched]

/-- The three tests of `requeue_mismatch` together: a queued run goes back to its own pool unless it can be claimed. -/
theorem requeueMismatch_eq (runId poolId : String) (now : DateTime) :
    requeueMismatch runId poolId now = (do
      match ← issue (.getRun runId) with
      | none => return ()
      | some run =>
        if mismatched poolId now run then issue (.enqueueRun (Sql.runPoolKey run.poolId) run.runId run.scheduledFor)
        else return ()) := by
  unfold requeueMismatch
  congr 1
  funext found
  cases found with
  | none => rfl
  | some run =>
    by_cases queued : run.status = .queued
    · have tests : mismatched poolId now run = true ↔
          run.scheduledFor > now ∨ Sql.runPoolKey run.poolId ≠ poolId ∨ run.claimLeaseUntil.any (· > now) = true := by
        rw [mismatched_iff, ← Bool.not_eq_true, Sql.claimable_iff, gt_iff_lt, ← not_le, ne_eq, ← Bool.not_eq_false]
        tauto
      simp only [queued, ne_eq, not_true_eq_false, if_false]
      split
      · rename_i early
        rw [if_pos (tests.mpr (.inl early))]
      · rename_i due
        split
        · rename_i other
          rw [if_pos (tests.mpr (.inr (.inl other)))]
        · rename_i mine
          split
          · rename_i leased
            rw [if_pos (tests.mpr (.inr (.inr leased))), not_not.mp mine]
          · rename_i unleased
            rw [if_neg fun mismatch => (tests.mp mismatch).elim due fun rest => rest.elim mine unleased]
    · simp only [ne_eq, queued, not_false_eq_true, if_true]
      rw [if_neg fun mismatch => queued (mismatched_iff.mp mismatch).1]

/-- The ready set of its pool has the run, with a score that fits. -/
def Listed (layer : RedisQueueLayer) (fits : Run → Int → Prop) (s : State) (run : Run) : Prop :=
  ∃ score, (layer.readySet s.keys (Sql.runPoolKey run.poolId)).lookup run.runId = some (run.runId, score) ∧ fits run score

/-- A queued row that is not listed. -/
structure Stranded (layer : RedisQueueLayer) (fits : Run → Int → Prop) (s : State) (run : Run) : Prop where
  stored : s.run run.runId = some run
  queued : run.status = .queued
  unlisted : ¬Listed layer fits s run

/-- Every queued run is listed. -/
def AllListed (layer : RedisQueueLayer) (fits : Run → Int → Prop) (s : State) : Prop :=
  ∀ run, s.run run.runId = some run → run.status = .queued → Listed layer fits s run

/-- Any score fits. -/
def anyScore (_ : Run) (_ : Int) : Prop := True

variable {layer : RedisQueueLayer} {fits : Run → Int → Prop} {s s' : State} {run : Run}

theorem Listed.of_keys (listed : Listed layer fits s run) (same : s'.keys = s.keys) : Listed layer fits s' run := by
  unfold Listed
  rw [same]
  exact listed

/-- A row that was queued as it is, with the same ready sets. -/
theorem Stranded.before (stranded : Stranded layer fits s' run) (stored : s.run run.runId = some run)
    (same : s'.keys = s.keys) : Stranded layer fits s run :=
  ⟨stored, stranded.queued, fun listed => stranded.unlisted (listed.of_keys same)⟩

/-- An unlisted run stays so while its row and the ready sets do. -/
theorem Stranded.after (stranded : Stranded layer fits s run) (stored : s'.run run.runId = some run)
    (same : s'.keys = s.keys) : Stranded layer fits s' run :=
  ⟨stored, stranded.queued, fun listed => stranded.unlisted (listed.of_keys same.symm)⟩

/-- A claim settles what it selects, since a claimed row is not queued, and leaves the rest. -/
theorem Stranded.claim_iff {workerId : String} {now : DateTime} {ttl : Int} {selected : Run → Bool}
    (rows : s'.rows = (Sql.claimWhere s.rows workerId now ttl selected).2) (keys : s'.keys = s.keys) :
    Stranded layer fits s' run ↔ Stranded layer fits s run ∧ selected run = false := by
  constructor
  · intro stranded
    have stored := stranded.stored
    rw [State.run, rows, Sql.lookup_claimWhere] at stored
    obtain ⟨old, found, isRun⟩ := Option.map_eq_some_iff.mp stored
    unfold Sql.claimRow at isRun
    split at isRun
    · have claimed : run.status = .claimed := by rw [← isRun]; rfl
      rw [stranded.queued] at claimed
      cases claimed
    · rename_i unselected
      subst isRun
      exact ⟨stranded.before found keys, Bool.not_eq_true _ ▸ unselected⟩
  · rintro ⟨stranded, unselected⟩
    refine stranded.after ?_ keys
    have stored : s.rows.lookup run.runId = some run := stranded.stored
    rw [State.run, rows, Sql.lookup_claimWhere, stored, Option.map_some, Sql.claimRow, if_neg]
    rw [unselected]
    exact Bool.false_ne_true

end Chronon.Composite
