import Chronon.Concurrent.History
import Chronon.Mem.Calls
import Chronon.Scheduler.Host
import Mathlib.Data.List.Sort

/-!
# `chronon-scheduler/src/partition_assigner.rs`

Coordinators that share the partitions among themselves: each holds leases in
the table of partition assignments and keeps the list of the partitions it owns.
The store, the clock and the owned lists are shared here; every access to one of
them is a call.
-/

namespace Chronon
set_option autoImplicit false

open Concurrent

/-- `DateTime::<Utc>::UNIX_EPOCH`. -/
def unixEpoch : DateTime := 0

/-- The number of values of a `u32`. -/
def u32Range : Nat := 4294967296

/-- `str::parse::<u32>`. -/
def parseU32 (text : String) : Option Nat :=
  let digits := match text.toList with
    | '+' :: rest => rest
    | chars => chars
  if digits.isEmpty || !digits.all Char.isDigit then none
  else if Nat.ofDigitChars 10 digits 0 < u32Range then some (Nat.ofDigitChars 10 digits 0)
  else none

/-- `usize::div_ceil`. -/
def divCeil (a b : Nat) : Nat := if a % b = 0 then a / b else a / b + 1

/-- The calls of an assigner. -/
inductive AssignerOp where
  | store (c : StoreCall)
  | utcNow
  | storeOwned (instanceId : String) (partitions : List Nat)

@[reducible] def AssignerAns : AssignerOp → Type
  | .store c => Result c.Ret
  | .utcNow => DateTime
  | .storeOwned _ _ => Unit

abbrev AssignerTask (α : Type) := Prog AssignerOp AssignerAns α

/-- `PartitionAssigner`, with `CHRONON_PARTITION_LEASE_TTL_S`, a number of seconds that `Duration` can hold. `new` clamps the
number of partitions, a `u32`. -/
structure PartitionAssigner where
  instanceId : String
  numPartitions : Nat
  positive : 1 ≤ numPartitions
  fits : numPartitions < u32Range
  leaseTtlS : Option Int
  deriving DecidableEq

namespace PartitionAssigner

/-- One call. -/
def issue (op : AssignerOp) : AssignerTask (AssignerAns op) := Prog.perform op

def call (c : StoreCall) : AssignerTask (Result c.Ret) := issue (.store c)

/-- `Utc::now`. -/
def utcNow : AssignerTask DateTime := issue .utcNow

/-- `partition_lease_ttl_secs`. -/
def partitionLeaseTtlSecs (a : PartitionAssigner) : Int := intFromEnv a.leaseTtlS 30

/-- The row of a partition that nobody owns. -/
def blankRow (pid : Nat) (now : DateTime) : PartitionAssignment := ⟨toString pid, "", unixEpoch, now⟩

/-- The row that leases a partition to the instance from `now` on. -/
def leaseRow (a : PartitionAssigner) (pid : Nat) (now : DateTime) : PartitionAssignment :=
  ⟨toString pid, a.instanceId, now + seconds a.partitionLeaseTtlSecs, now⟩

/-- `ensure_row`. -/
def ensureRow (pid : Nat) : AssignerTask (Result Unit) := do
  match ← call .listPartitionAssignments with
  | .error e => return .error e
  | .ok rows =>
    if rows.any (·.partitionId == toString pid) then return .ok ()
    else
      let now ← utcNow
      call (.upsertPartitionAssignment (blankRow pid now))

/-- `try_steal_partition`, from the row that is found. -/
def stealFound (a : PartitionAssigner) (pid : Nat) (now : DateTime) :
    Option PartitionAssignment → AssignerTask (Result Bool)
  | none => return .ok false
  | some row => do
    if row.leaseUntil > now ∧ row.ownerInstanceId ≠ a.instanceId then return .ok false
    else
      match ← call (.upsertPartitionAssignment (a.leaseRow pid now)) with
      | .error e => return .error e
      | .ok () => return .ok true

/-- `try_steal_partition`. -/
def tryStealPartition (a : PartitionAssigner) (pid : Nat) : AssignerTask (Result Bool) := do
  let now ← utcNow
  match ← call .listPartitionAssignments with
  | .error e => return .error e
  | .ok rows => a.stealFound pid now (rows.find? (·.partitionId == toString pid))

/-- `renew_owned`, from the row that is found. -/
def renewFound (a : PartitionAssigner) (pid : Nat) : Option PartitionAssignment → AssignerTask (Result Unit)
  | none => return .ok ()
  | some row => do
    if row.ownerInstanceId ≠ a.instanceId then return .ok ()
    else
      let now ← utcNow
      call (.upsertPartitionAssignment (a.leaseRow pid now))

/-- `renew_owned`. -/
def renewOwned (a : PartitionAssigner) (pid : Nat) : AssignerTask (Result Unit) := do
  match ← call .listPartitionAssignments with
  | .error e => return .error e
  | .ok rows => a.renewFound pid (rows.find? (·.partitionId == toString pid))

/-! ## `refresh_leases` -/

/-- The first loop. -/
def ensureRows : List Nat → AssignerTask (Result Unit)
  | [] => return .ok ()
  | pid :: rest => do
    match ← ensureRow pid with
    | .error e => return .error e
    | .ok () => ensureRows rest

/-- The second loop: the set of the owners with a lease that has not run out. -/
def aliveOwners : List PartitionAssignment → List String → AssignerTask (List String)
  | [], alive => return alive
  | row :: rest, alive => do
    let now ← utcNow
    aliveOwners rest (if row.leaseUntil > now ∧ row.ownerInstanceId ≠ "" then alive.insert row.ownerInstanceId else alive)

/-- The partitions leased to the instance. The clock is read for its own rows only. -/
def leasedPartitions (a : PartitionAssigner) : List PartitionAssignment → AssignerTask (List Nat)
  | [] => return []
  | row :: rest => do
    if row.ownerInstanceId = a.instanceId then
      let now ← utcNow
      let mine ← a.leasedPartitions rest
      return (if row.leaseUntil > now then (parseU32 row.partitionId).toList else []) ++ mine
    else a.leasedPartitions rest

/-- The third loop. What `renew_owned` answers is dropped. -/
def renewAll (a : PartitionAssigner) : List Nat → AssignerTask Unit
  | [] => return ()
  | pid :: rest => do
    let _ ← a.renewOwned pid
    a.renewAll rest

/-- `sort_unstable`. -/
def sorted (pids : List Nat) : List Nat := pids.insertionSort (· ≤ ·)

/-- The last loop, up to `target` partitions. -/
def stealUpTo (a : PartitionAssigner) (target : Nat) : List Nat → List Nat → AssignerTask (Result (List Nat))
  | [], mine => return .ok mine
  | pid :: rest, mine => do
    if target ≤ mine.length then return .ok mine
    else if pid ∈ mine then a.stealUpTo target rest mine
    else
      match ← a.tryStealPartition pid with
      | .error e => return .error e
      | .ok true => a.stealUpTo target rest (sorted (mine ++ [pid]))
      | .ok false => a.stealUpTo target rest mine

/-- `refresh_leases`. -/
def refreshLeases (a : PartitionAssigner) : AssignerTask (Result Unit) := do
  match ← ensureRows (List.range a.numPartitions) with
  | .error e => return .error e
  | .ok () =>
    match ← call .listPartitionAssignments with
    | .error e => return .error e
    | .ok rows =>
      let alive ← aliveOwners rows []
      let live := max alive.length 1
      let target := divCeil a.numPartitions live
      let mine ← a.leasedPartitions rows
      a.renewAll mine
      match ← (if mine.length < target then a.stealUpTo target (List.range a.numPartitions) mine else return .ok mine) with
      | .error e => return .error e
      | .ok mine =>
        issue (.storeOwned a.instanceId (sorted mine))
        return .ok ()

end PartitionAssigner

/-- A lease is longer than no time. -/
theorem leaseTtl_pos (a : PartitionAssigner) : 0 < seconds a.partitionLeaseTtlSecs := by
  have atLeast : 1 ≤ a.partitionLeaseTtlSecs := by
    unfold PartitionAssigner.partitionLeaseTtlSecs intFromEnv
    cases isSet : a.leaseTtlS.filter (1 ≤ ·) with
    | none => decide
    | some ttl =>
      obtain ⟨-, atLeast⟩ := Option.filter_eq_some_iff.mp isSet
      simpa using atLeast
  unfold seconds
  omega

/-! ## Partition ids as text -/

theorem parseU32_toString {pid : Nat} : parseU32 (toString pid) = if pid < u32Range then some pid else none := by
  have chars : (toString pid).toList = Nat.toDigits 10 pid := Nat.toList_repr
  have digits : ∀ c ∈ Nat.toDigits 10 pid, c.isDigit := fun c inside =>
    Nat.isDigit_of_mem_toDigits (by decide) (by decide) inside
  have unsigned : (match Nat.toDigits 10 pid with | '+' :: rest => rest | chars => chars) = Nat.toDigits 10 pid := by
    split
    · rename_i rest isPlus
      have plus := digits '+' (by rw [isPlus]; exact List.mem_cons_self)
      cases plus
    · rfl
  have allDigits : (Nat.toDigits 10 pid).all Char.isDigit = true := List.all_eq_true.mpr digits
  have notEmpty : (Nat.toDigits 10 pid).isEmpty = false := by
    rw [List.isEmpty_eq_false_iff]
    exact Nat.toDigits_ne_nil
  rw [parseU32, chars, unsigned, notEmpty, allDigits, Nat.ofDigitChars_ten_toDigits]
  simp only [Bool.not_true, Bool.or_self, Bool.false_eq_true, if_false]

theorem toString_inj {p q : Nat} : toString p = toString q ↔ p = q := by
  constructor
  · intro same
    have digits : Nat.toDigits 10 p = Nat.toDigits 10 q := by
      rw [← Nat.toList_repr, ← Nat.toList_repr]
      exact congrArg String.toList same
    rw [← @Nat.ofDigitChars_ten_toDigits p, ← @Nat.ofDigitChars_ten_toDigits q, digits]
  · rintro rfl
    rfl

end Chronon
