import Chronon.Collections.SortedSet
import Chronon.Core.Value

/-!
# `chronon-backend-redis/src/queue.rs`

The ready sets: one sorted set of run identifiers for each pool, scored by
`scheduled_for` in milliseconds. Scores are integers here; as `f64` the source
has them exactly, since the milliseconds of every `DateTime<Utc>` are below
2^53 in size. Deleting keys, which only tests do, is left out, and so is
`remove_run`, which nothing calls.
-/

namespace Chronon.Redis
set_option autoImplicit false

open Collections

/-- `RedisQueueLayer`, without its connections. -/
structure RedisQueueLayer where
  keyPrefix : String
  hashTags : Bool

/-- `format_ready_key`. -/
def formatReadyKey (keyPrefix poolId : String) (hashTags : Bool) : String :=
  if hashTags then keyPrefix ++ ":\x7b" ++ poolId ++ "\x7d:ready" else keyPrefix ++ ":ready:" ++ poolId

/-- `ready_key`. -/
def RedisQueueLayer.readyKey (layer : RedisQueueLayer) (poolId : String) : String :=
  formatReadyKey layer.keyPrefix poolId layer.hashTags

/-- The default prefix on a single server. -/
def RedisQueueLayer.plain : RedisQueueLayer := ⟨"chronon", false⟩

/-- The sorted sets under their keys. -/
abbrev Keys := String → SortedSet String Int

/-- `DateTime::timestamp_millis`. -/
def timestampMillis (t : DateTime) : Int := t / 1000000

namespace RedisQueueLayer

variable (layer : RedisQueueLayer)

/-- `enqueue_run`. -/
def enqueueRun (keys : Keys) (poolId runId : String) (scheduledFor : DateTime) : Keys :=
  Function.update keys (layer.readyKey poolId) ((keys (layer.readyKey poolId)).add runId (timestampMillis scheduledFor))

/-- `claim_next_run_ids`: the script takes the first due members and removes them. -/
def claimNextRunIds (keys : Keys) (poolId : String) (count : Nat) (now : DateTime) : List String × Keys :=
  if count = 0 then ([], keys)
  else
    let ready := keys (layer.readyKey poolId)
    let ids := ready.first (timestampMillis now) count
    (ids, Function.update keys (layer.readyKey poolId) (ready.remove ids))

/-- Pools have keys of their own. -/
theorem readyKey_injective : Function.Injective layer.readyKey := by
  intro a b same
  unfold readyKey formatReadyKey at same
  split at same
  · exact (String.append_right_inj _).mp ((String.append_left_inj _).mp same)
  · exact (String.append_right_inj _).mp same

/-- The ready set of a pool. -/
def readySet (keys : Keys) (poolId : String) : SortedSet String Int := keys (layer.readyKey poolId)

theorem lookup_enqueueRun (keys : Keys) (poolId runId : String) (scheduledFor : DateTime) (pool id : String) :
    (layer.readySet (layer.enqueueRun keys poolId runId scheduledFor) pool).lookup id =
      if poolId = pool ∧ runId = id then some (runId, timestampMillis scheduledFor)
      else (layer.readySet keys pool).lookup id := by
  unfold readySet enqueueRun
  by_cases same : poolId = pool
  · subst same
    rw [Function.update_self, SortedSet.lookup_add]
    simp
  · have other : layer.readyKey pool ≠ layer.readyKey poolId := fun keys => same (layer.readyKey_injective keys).symm
    rw [Function.update_of_ne other, if_neg fun both => same both.1]

theorem lookup_claimNextRunIds (keys : Keys) (poolId : String) (count : Nat) (now : DateTime) (pool id : String) :
    (layer.readySet (layer.claimNextRunIds keys poolId count now).2 pool).lookup id =
      if poolId = pool ∧ id ∈ (layer.claimNextRunIds keys poolId count now).1 then none
      else (layer.readySet keys pool).lookup id := by
  unfold claimNextRunIds
  split
  · rw [if_neg (by rintro ⟨-, ⟨⟩⟩)]
  · simp only [readySet]
    by_cases same : poolId = pool
    · subst same
      rw [Function.update_self, SortedSet.lookup_remove]
      simp
    · have other : layer.readyKey pool ≠ layer.readyKey poolId := fun keys => same (layer.readyKey_injective keys).symm
      rw [Function.update_of_ne other, if_neg fun both => same both.1]

theorem length_claimNextRunIds (keys : Keys) (poolId : String) (count : Nat) (now : DateTime) :
    (layer.claimNextRunIds keys poolId count now).1.length ≤ count := by
  unfold claimNextRunIds
  split
  · exact Nat.zero_le count
  · simp only [SortedSet.first, List.length_map, List.length_take]
    exact Nat.min_le_left ..

end RedisQueueLayer

end Chronon.Redis
