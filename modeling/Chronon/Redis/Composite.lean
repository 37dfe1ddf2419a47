import Chronon.Concurrent.History
import Chronon.Concurrent.Rules
import Chronon.Concurrent.Sequential
import Chronon.Redis.Queue
import Chronon.Sql.Runs

/-!
# `chronon-backend-redis/src/composite`

The run operations of `PostgresRedisSchedulerStore` as programs over two atomic
objects, the SQL table and the ready sets. A failed call ends an operation with
its error (`?` in the source), which is what `ExceptT` does here. All other
operations of the store go to the SQL store unchanged and are left out.
-/

namespace Chronon.Composite
set_option autoImplicit false

open Concurrent Redis

/-- The calls to the SQL store and to Redis. -/
inductive Op where
  | createRun (run : Run)
  | updateRun (run : Run)
  | getRun (runId : String)
  | claimRunById (runId poolId workerId : String) (now : DateTime) (leaseTtlSecs : Int)
  | claimRunsByIds (runIds : List String) (poolId workerId : String) (now : DateTime) (leaseTtlSecs : Int)
  | renewRunLease (runId workerId : String) (now : DateTime) (leaseTtlSecs : Int)
  | reclaimExpiredRunLeases (now : DateTime)
  | enqueueRun (poolId runId : String) (scheduledFor : DateTime)
  | claimNextRunIds (poolId : String) (count : Nat) (now : DateTime)

/-- What a call returns inside `Result`. -/
@[reducible] def Op.Ret : Op → Type
  | .createRun _ | .updateRun _ | .enqueueRun _ _ _ => Unit
  | .getRun _ | .claimRunById _ _ _ _ _ => Option Run
  | .claimRunsByIds _ _ _ _ _ => List Run
  | .renewRunLease _ _ _ _ => Bool
  | .reclaimExpiredRunLeases _ | .claimNextRunIds _ _ _ => List String

@[reducible] def Ans (op : Op) : Type := Result op.Ret

/-- A program that ends with the error of a failed call. -/
abbrev Task (α : Type) := ExceptT ChrononError (Prog Op Ans) α

/-- Issue one call. -/
def issue (op : Op) : Task op.Ret := (Prog.perform op : Prog Op Ans (Ans op))

/-! ## `claim.rs` -/

/-- `claim_batch_size`, given `CHRONON_CLAIM_BATCH` if it is a number. -/
def claimBatchSize (claimBatch : Option Nat) : Nat := max 1 (min 64 (claimBatch.getD 1))

/-- `requeue_mismatch`. -/
def requeueMismatch (runId poolId : String) (now : DateTime) : Task Unit := do
  match ← issue (.getRun runId) with
  | none => return ()
  | some run =>
    if run.status ≠ .queued then return ()
    else if run.scheduledFor > now then issue (.enqueueRun (Sql.runPoolKey run.poolId) run.runId run.scheduledFor)
    else if Sql.runPoolKey run.poolId ≠ poolId then
      issue (.enqueueRun (Sql.runPoolKey run.poolId) run.runId run.scheduledFor)
    else if run.claimLeaseUntil.any (· > now) then issue (.enqueueRun poolId run.runId run.scheduledFor)
    else return ()

/-- `claim_one`. -/
def claimOne (runId poolId workerId : String) (now : DateTime) (leaseTtlSecs : Int) : Task (Option Run) := do
  match ← issue (.claimRunById runId poolId workerId now leaseTtlSecs) with
  | some run => return some run
  | none =>
    requeueMismatch runId poolId now
    return none

/-- `reconcile_unclaimed`, over the identifiers that were not claimed. -/
def reconcileEach (poolId : String) (now : DateTime) : List String → Task Unit
  | [] => return ()
  | runId :: rest => do
    requeueMismatch runId poolId now
    reconcileEach poolId now rest

/-- The identifiers `reconcile_unclaimed` looks at. -/
def unclaimedIds (runIds : List String) (claimed : List Run) : List String :=
  runIds.filter fun runId => !(claimed.map (·.runId)).contains runId

/-- `reconcile_unclaimed`. -/
def reconcileUnclaimed (runIds : List String) (claimed : List Run) (poolId : String) (now : DateTime) : Task Unit :=
  reconcileEach poolId now (unclaimedIds runIds claimed)

/-- The loop of `claim_next_queued` without batches. -/
def claimSingly (poolId workerId : String) (now : DateTime) (leaseTtlSecs : Int) : Nat → Task (Option Run)
  | 0 => return none
  | attempts + 1 => do
    match (← issue (.claimNextRunIds poolId 1 now)).head? with
    | none => return none
    | some runId =>
      match ← claimOne runId poolId workerId now leaseTtlSecs with
      | some run => return some run
      | none => claimSingly poolId workerId now leaseTtlSecs attempts

/-- The loop of `claim_next_queued` with batches. -/
def claimInBatches (batch : Nat) (poolId workerId : String) (now : DateTime) (leaseTtlSecs : Int) :
    Nat → Task (Option Run)
  | 0 => return none
  | attempts + 1 => do
    let runIds ← issue (.claimNextRunIds poolId batch now)
    if runIds.isEmpty then return none
    else
      let claimed ← issue (.claimRunsByIds runIds poolId workerId now leaseTtlSecs)
      reconcileUnclaimed runIds claimed poolId now
      match claimed.head? with
      | some run => return some run
      | none => claimInBatches batch poolId workerId now leaseTtlSecs attempts

/-- `claim_next_queued`. -/
def claimNextQueued (claimBatch : Option Nat) (poolId workerId : String) (now : DateTime) (leaseTtlSecs : Int) :
    Task (Option Run) :=
  if claimBatchSize claimBatch ≤ 1 then claimSingly poolId workerId now leaseTtlSecs 64
  else claimInBatches (claimBatchSize claimBatch) poolId workerId now leaseTtlSecs 64

/-! ## `mod.rs` -/

/-- `create_run`. -/
def createRun (run : Run) : Task Unit := do
  issue (.createRun run)
  if run.status = .queued then issue (.enqueueRun (Sql.runPoolKey run.poolId) run.runId run.scheduledFor)
  else return ()

/-- The loop of `reclaim_expired_run_leases`. -/
def enqueueReclaimed : List String → Task Unit
  | [] => return ()
  | runId :: rest => do
    match ← issue (.getRun runId) with
    | none => enqueueReclaimed rest
    | some run =>
      issue (.enqueueRun (Sql.runPoolKey run.poolId) run.runId run.scheduledFor)
      enqueueReclaimed rest

/-- `reclaim_expired_run_leases`. -/
def reclaimExpiredRunLeases (now : DateTime) : Task (List String) := do
  let ids ← issue (.reclaimExpiredRunLeases now)
  enqueueReclaimed ids
  return ids

/-! ## The two objects -/

/-- The SQL table and the ready sets. -/
structure State where
  rows : Sql.Rows
  keys : Keys

/-- The calls, each of them atomic. `order` is the order in which a listing comes back. -/
def answer (layer : RedisQueueLayer) (order : List String) (s : State) : (op : Op) → Option (Ans op × State)
  | .createRun run =>
    let (r, rows) := Sql.createRun s.rows run
    some (r, { s with rows })
  | .updateRun run =>
    let (r, rows) := Sql.updateRun s.rows run
    some (r, { s with rows })
  | .getRun runId => some (Sql.getRun s.rows runId, s)
  | .claimRunById runId poolId workerId now ttl =>
    let (claimed, rows) := Sql.claimRunById s.rows runId poolId workerId now ttl
    some (.ok claimed, { s with rows })
  | .claimRunsByIds runIds poolId workerId now ttl =>
    let (claimed, rows) := Sql.claimRunsByIds s.rows runIds poolId workerId now ttl
    if order.Perm (claimed.map (·.runId)) then some (.ok (order.filterMap rows.lookup), { s with rows }) else none
  | .renewRunLease runId workerId now ttl =>
    let (renewed, rows) := Sql.renewRunLease s.rows runId workerId now ttl
    some (.ok renewed, { s with rows })
  | .reclaimExpiredRunLeases now =>
    let (ids, rows) := Sql.reclaimExpiredRunLeases s.rows now
    if order.Perm ids then some (.ok order, { s with rows }) else none
  | .enqueueRun poolId runId scheduledFor =>
    some (.ok (), { s with keys := layer.enqueueRun s.keys poolId runId scheduledFor })
  | .claimNextRunIds poolId count now =>
    let (ids, keys) := layer.claimNextRunIds s.keys poolId count now
    some (.ok ids, { s with keys })

/-- What a call can do, whatever the order of its listing. -/
def Step (layer : RedisQueueLayer) (s : State) (op : Op) (r : Ans op) (s' : State) : Prop :=
  ∃ order, answer layer order s op = some (r, s')

/-- Every call is answered. -/
theorem Step.exists (layer : RedisQueueLayer) (s : State) (op : Op) : ∃ r s', Step layer s op r s' := by
  cases op with
  | claimRunsByIds runIds poolId workerId now ttl =>
    exact ⟨_, _, (Sql.claimRunsByIds s.rows runIds poolId workerId now ttl).1.map (·.runId), if_pos (.refl _)⟩
  | reclaimExpiredRunLeases now =>
    exact ⟨_, _, (Sql.reclaimExpiredRunLeases s.rows now).1, if_pos (.refl _)⟩
  | _ => exact ⟨_, _, [], rfl⟩

/-- Nothing stored and nothing queued. -/
def State.empty : State := ⟨.empty, fun _ => .empty⟩

/-- The run row. -/
def State.run (s : State) (runId : String) : Option Run := s.rows.lookup runId

/-! ## The clients -/

/-- An operation of the composite store. -/
inductive Client where
  | createRun (run : Run)
  | updateRun (run : Run)
  | claimNextQueued (claimBatch : Option Nat) (poolId workerId : String) (now : DateTime) (leaseTtlSecs : Int)
  | claimRunById (runId poolId workerId : String) (now : DateTime) (leaseTtlSecs : Int)
  | renewRunLease (runId workerId : String) (now : DateTime) (leaseTtlSecs : Int)
  | reclaimExpiredRunLeases (now : DateTime)

@[reducible] def Client.Ret : Client → Type
  | .createRun _ | .updateRun _ => Unit
  | .claimNextQueued _ _ _ _ _ | .claimRunById _ _ _ _ _ => Option Run
  | .renewRunLease _ _ _ _ => Bool
  | .reclaimExpiredRunLeases _ => List String

/-- The program of an operation. -/
def Client.code : (op : Client) → Task op.Ret
  | .createRun run => Composite.createRun run
  | .updateRun run => issue (.updateRun run)
  | .claimNextQueued claimBatch poolId workerId now ttl => Composite.claimNextQueued claimBatch poolId workerId now ttl
  | .claimRunById runId poolId workerId now ttl => issue (.claimRunById runId poolId workerId now ttl)
  | .renewRunLease runId workerId now ttl => issue (.renewRunLease runId workerId now ttl)
  | .reclaimExpiredRunLeases now => Composite.reclaimExpiredRunLeases now

abbrev LogEntry := Entry State Op Ans

abbrev Log := List LogEntry

/-- Both objects with the history that led to them. -/
structure World where
  state : State
  log : Log

def World.fresh (state : State) : World := ⟨state, []⟩

/-- Perform a call and record it. -/
def perform (layer : RedisQueueLayer) (p : Nat) (order : List String) (w : World) (op : Op) : Option (Ans op × World) :=
  match answer layer order w.state op with
  | some (r, state) => some (r, ⟨state, ⟨p, w.state, op, r⟩ :: w.log⟩)
  | none => none

/-- Any number of clients on one composite store. Nothing happens besides their calls. -/
def composite (layer : RedisQueueLayer) : Machine Op Ans World Client (List String) Empty where
  code op := Prog.done op.code.run
  exec := perform layer
  drift never := nomatch never

abbrev CompositeConfig := Config Op Ans World

abbrev CompositeLabel := Label Op Ans Client Empty

theorem perform_cases {layer : RedisQueueLayer} {p : Nat} {order : List String} {w w' : World} {op : Op} {r : Ans op}
    (ran : perform layer p order w op = some (r, w')) :
    Step layer w.state op r w'.state ∧ w'.log = ⟨p, w.state, op, r⟩ :: w.log := by
  unfold perform at ran
  split at ran
  · rename_i answered
    cases ran
    exact ⟨⟨order, answered⟩, rfl⟩
  · cases ran

end Chronon.Composite
