import Chronon.Concurrent.Rules
import Chronon.Scheduler.PartitionAssigner

/-!
# Assigners over one store

Any number of assigners that refresh their leases, each one refresh after the
other, with time passing in between. Every call is recorded with the state it
found.
-/

namespace Chronon
set_option autoImplicit false

open Concurrent

abbrev FleetEntry := Entry State AssignerOp AssignerAns

/-- The shared state with the history that led to it. -/
structure Fleet where
  state : State
  log : List FleetEntry

namespace Fleet

def clock (w : Fleet) : DateTime := w.state.clock

/-- The row of the partition that is written `key`. -/
def assignment (w : Fleet) (key : String) : Option PartitionAssignment := w.state.store.partitions.lookup key

/-- The owned list of an instance. -/
def owned (w : Fleet) (instanceId : String) : List Nat := w.state.owned instanceId

def fresh (state : State) : Fleet := ⟨state, []⟩

end Fleet

/-- The answer of a call and the state after it. -/
def AssignerOp.answer (s : State) : (op : AssignerOp) → AssignerAns op × State
  | .store c => ((c.exec s.clock s.store).1, { s with store := (c.exec s.clock s.store).2 })
  | .utcNow => (s.clock, s)
  | .storeOwned instanceId partitions => ((), { s with owned := Function.update s.owned instanceId partitions })

/-- Perform a call and record it. -/
def Fleet.perform (p : Nat) (w : Fleet) (op : AssignerOp) : AssignerAns op × Fleet :=
  ((op.answer w.state).1, ⟨(op.answer w.state).2, ⟨p, w.state, op, (op.answer w.state).1⟩ :: w.log⟩)

/-- Time passes. -/
def Fleet.advance (clock : DateTime) (w : Fleet) : Option Fleet :=
  if w.clock ≤ clock then some { w with state := { w.state with clock } } else none

/-- The assigners, each of which can be told to refresh its leases. -/
def assigners : Machine AssignerOp AssignerAns Fleet PartitionAssigner Unit DateTime where
  code := fun a => a.refreshLeases.done
  exec := fun p _ w op => some (w.perform p op)
  drift := Fleet.advance

abbrev FleetConfig := Config AssignerOp AssignerAns Fleet

abbrev FleetLabel := Label AssignerOp AssignerAns PartitionAssigner DateTime

abbrev FleetChoice := Choice PartitionAssigner Unit DateTime

/-- The assigner whose refresh a step starts. -/
def refreshStarted : FleetLabel → Option (Nat × PartitionAssigner)
  | .start p a => some (p, a)
  | _ => none

/-- Task `p` is the assigner `fleet p`. -/
def Manned (fleet : Nat → PartitionAssigner) (l : FleetLabel) : Prop :=
  ∀ started ∈ refreshStarted l, started.2 = fleet started.1

/-! ## What a call does -/

section Calls

variable {p : Nat} {w w' : Fleet}

theorem Fleet.perform_list {r : Result (List PartitionAssignment)}
    (ran : w.perform p (.store .listPartitionAssignments) = (r, w')) :
    r = .ok w.state.store.partitions.rows ∧ w'.state = w.state ∧
      w'.log = ⟨p, w.state, .store .listPartitionAssignments, .ok w.state.store.partitions.rows⟩ :: w.log := by
  obtain ⟨rfl, rfl⟩ := Prod.mk.inj ran
  exact ⟨rfl, rfl, rfl⟩

theorem Fleet.perform_utcNow {now : DateTime} (ran : w.perform p .utcNow = (now, w')) :
    now = w.clock ∧ w'.state = w.state ∧ w'.log = ⟨p, w.state, .utcNow, now⟩ :: w.log := by
  obtain ⟨rfl, rfl⟩ := Prod.mk.inj ran
  exact ⟨rfl, rfl, rfl⟩

theorem Fleet.perform_upsert {row : PartitionAssignment} {r : Result Unit}
    (ran : w.perform p (.store (.upsertPartitionAssignment row)) = (r, w')) :
    r = .ok () ∧ (∀ key, w'.assignment key = if row.partitionId = key then some row else w.assignment key) ∧
      w'.clock = w.clock ∧ w'.owned = w.owned ∧
      w'.log = ⟨p, w.state, .store (.upsertPartitionAssignment row), .ok ()⟩ :: w.log := by
  obtain ⟨rfl, rfl⟩ := Prod.mk.inj ran
  exact ⟨rfl, fun key => Collections.Table.lookup_insert _ _ _, rfl, rfl, rfl⟩

theorem Fleet.perform_storeOwned {i : String} {pids : List Nat} {r : Unit}
    (ran : w.perform p (.storeOwned i pids) = (r, w')) :
    (∀ key, w'.assignment key = w.assignment key) ∧ w'.clock = w.clock ∧
      (∀ j, w'.owned j = if j = i then pids else w.owned j) ∧ w'.log = ⟨p, w.state, .storeOwned i pids, r⟩ :: w.log := by
  obtain ⟨rfl, rfl⟩ := Prod.mk.inj ran
  refine ⟨fun _ => rfl, rfl, fun j => ?_, rfl⟩
  exact Function.update_apply _ _ _ _

theorem Fleet.advance_cases {clock : DateTime} (passed : w.advance clock = some w') :
    w.clock ≤ w'.clock ∧ w' = { w with state := { w.state with clock := w'.clock } } := by
  unfold advance at passed
  split at passed
  · rename_i later
    cases passed
    exact ⟨later, rfl⟩
  · cases passed

end Calls

end Chronon
