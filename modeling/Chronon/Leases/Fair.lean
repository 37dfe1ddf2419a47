import Chronon.Concurrent.Sequential
import Chronon.Leases.Exclusive

/-!
# Fair shares

Assigners that refresh their leases in turn. `refresh_leases` takes free
partitions and gives none back, and its target only counts instances that have a
lease already: who refreshes first finds nobody alive and takes everything, and
who comes later finds everything leased. With the first one renewing in time it
stays so (`Monopoly`).
-/

namespace Chronon
set_option autoImplicit false

open Concurrent

/-- One call of a refresh that runs alone. Time may pass after it. -/
def FleetCall (p : Nat) (w : Fleet) (op : AssignerOp) (r : AssignerAns op) (w' : Fleet) : Prop :=
  ∃ v clock, w.perform p op = (r, v) ∧ v.advance clock = some w'

/-- The refreshes so far, newest first: whose they were, and when they started. -/
abbrev Refreshes := List (Nat × DateTime)

/-- The assigners that have refreshed. -/
def Refreshes.joined (history : Refreshes) : Finset Nat := (history.map Prod.fst).toFinset

/-- When the last refresh of `p` started. -/
def Refreshes.lastStart (p : Nat) (history : Refreshes) : Option DateTime := (history.find? (·.1 == p)).map (·.2)

/-- Nobody's last refresh started longer ago than a lease lasts. -/
def RefreshedInTime (fleet : Nat → PartitionAssigner) (history : Refreshes) (clock : DateTime) : Prop :=
  ∀ p, ∀ start ∈ history.lastStart p, clock < start + seconds (fleet p).partitionLeaseTtlSecs

/-- Refreshes one after the other, in any order, by assigners that join at any time and then refresh in time. -/
inductive Rotation (fleet : Nat → PartitionAssigner) (w₀ : Fleet) : Refreshes → Fleet → Prop
  | start : Rotation fleet w₀ [] w₀
  | waits {history : Refreshes} {w w' : Fleet} {clock : DateTime} : Rotation fleet w₀ history w →
      w.advance clock = some w' → RefreshedInTime fleet history w'.clock → Rotation fleet w₀ history w'
  | refresh {history : Refreshes} {w w' : Fleet} {r : Result Unit} (p : Nat) : Rotation fleet w₀ history w →
      Runs (FleetCall p) (fleet p).refreshLeases w r w' → RefreshedInTime fleet history w'.clock →
      RefreshedInTime fleet ((p, w.clock) :: history) w'.clock → Rotation fleet w₀ ((p, w.clock) :: history) w'

/-- The owned sets share out the `n` partitions. -/
structure FairlyShared (fleet : Nat → PartitionAssigner) (n : Nat) (joined : Finset Nat) (w : Fleet) : Prop where
  disjoint : ∀ p ∈ joined, ∀ q ∈ joined, p ≠ q → ∀ pid ∈ w.owned (fleet p).instanceId, pid ∉ w.owned (fleet q).instanceId
  covers : ∀ pid < n, ∃ p ∈ joined, pid ∈ w.owned (fleet p).instanceId
  fair : ∀ p ∈ joined, (w.owned (fleet p).instanceId).toFinset.card ≤ divCeil n joined.card

/-! ## What a call does -/

namespace Fleet

def rows (w : Fleet) : List PartitionAssignment := w.state.store.partitions.rows

/-- Only time has passed. -/
structure Waits (w w' : Fleet) : Prop where
  store : w'.state.store = w.state.store
  owned : w'.owned = w.owned
  later : w.clock ≤ w'.clock

theorem Waits.refl (w : Fleet) : w.Waits w := ⟨rfl, rfl, le_refl _⟩

theorem Waits.trans {w v w' : Fleet} (first : w.Waits v) (rest : v.Waits w') : w.Waits w' :=
  ⟨rest.store.trans first.store, rest.owned.trans first.owned, first.later.trans rest.later⟩

theorem Waits.rows {w w' : Fleet} (waits : w.Waits w') : w'.rows = w.rows := by
  rw [Fleet.rows, waits.store]
  rfl

theorem Waits.assignment {w w' : Fleet} (waits : w.Waits w') (key : String) : w'.assignment key = w.assignment key := by
  rw [Fleet.assignment, waits.store]
  rfl

theorem Waits.of_advance {w w' : Fleet} {clock : DateTime} (passed : w.advance clock = some w') : w.Waits w' := by
  obtain ⟨later, same⟩ := advance_cases passed
  rw [same]
  exact ⟨rfl, rfl, later⟩

/-- A call that changes nothing shared, and the time after it. -/
theorem Waits.of_same {w v w' : Fleet} (same : v.state = w.state) (waits : v.Waits w') : w.Waits w' := by
  refine ⟨waits.store.trans (congrArg State.store same), waits.owned.trans (congrArg State.owned same), ?_⟩
  exact (le_of_eq (congrArg State.clock same).symm).trans waits.later

end Fleet

section Calls

variable {p : Nat} {w w' : Fleet} {α : Type}

theorem FleetCall.list {r : Result (List PartitionAssignment)}
    (calls : FleetCall p w (.store .listPartitionAssignments) r w') : r = .ok w.rows ∧ w.Waits w' := by
  obtain ⟨v, clock, ran, passed⟩ := calls
  obtain ⟨isRows, same, -⟩ := Fleet.perform_list ran
  exact ⟨isRows, .of_same same (.of_advance passed)⟩

theorem FleetCall.utcNow {now : DateTime} (calls : FleetCall p w .utcNow now w') : now = w.clock ∧ w.Waits w' := by
  obtain ⟨v, clock, ran, passed⟩ := calls
  obtain ⟨isNow, same, -⟩ := Fleet.perform_utcNow ran
  exact ⟨isNow, .of_same same (.of_advance passed)⟩

theorem FleetCall.upsert {row : PartitionAssignment} {r : Result Unit}
    (calls : FleetCall p w (.store (.upsertPartitionAssignment row)) r w') :
    r = .ok () ∧ (∀ key, w'.assignment key = if row.partitionId = key then some row else w.assignment key) ∧
      (∀ row' ∈ w'.rows, row' = row ∨ row' ∈ w.rows) ∧ w'.owned = w.owned ∧ w.clock ≤ w'.clock := by
  obtain ⟨v, clock, ran, passed⟩ := calls
  obtain ⟨isOk, assigned, sameClock, owned, -⟩ := Fleet.perform_upsert ran
  have waits := Fleet.Waits.of_advance passed
  refine ⟨isOk, fun key => (waits.assignment key).trans (assigned key), ?_, waits.owned.trans owned, ?_⟩
  · intro row' inside
    rw [waits.rows] at inside
    obtain ⟨rfl, rfl⟩ := Prod.mk.inj ran
    rcases Collections.Table.mem_put.mp inside with isNew | ⟨before, -⟩
    · exact .inl isNew
    · exact .inr before
  · exact (le_of_eq sameClock.symm).trans waits.later

theorem FleetCall.storeOwned {i : String} {pids : List Nat} {r : Unit} (calls : FleetCall p w (.storeOwned i pids) r w') :
    w'.state.store = w.state.store ∧ (∀ j, w'.owned j = if j = i then pids else w.owned j) ∧ w.clock ≤ w'.clock := by
  obtain ⟨v, clock, ran, passed⟩ := calls
  obtain ⟨-, sameClock, owned, -⟩ := Fleet.perform_storeOwned ran
  have waits := Fleet.Waits.of_advance passed
  refine ⟨?_, fun j => (congrFun waits.owned j).trans (owned j), (le_of_eq sameClock.symm).trans waits.later⟩
  obtain ⟨rfl, rfl⟩ := Prod.mk.inj ran
  exact waits.store

theorem FleetCall.later {op : AssignerOp} {r : AssignerAns op} (calls : FleetCall p w op r w') : w.clock ≤ w'.clock := by
  obtain ⟨v, clock, ran, passed⟩ := calls
  obtain ⟨rfl, rfl⟩ := Prod.mk.inj ran
  have sameClock : (w.perform p op).2.clock = w.clock := by cases op <;> rfl
  exact (le_of_eq sameClock.symm).trans (Fleet.advance_cases passed).1

/-- Time goes on during a refresh. -/
theorem clock_le_of_runs {m : AssignerTask α} {a : α} (runs : Runs (FleetCall p) m w a w') : w.clock ≤ w'.clock := by
  induction m generalizing w with
  | ret _ =>
    obtain ⟨-, rfl⟩ := runs
    exact le_refl _
  | call op k ih =>
    obtain ⟨r, v, calls, rest⟩ := runs
    exact calls.later.trans (ih r rest)

end Calls

/-! ## The reading parts of a refresh -/

section Reading

variable {p : Nat} {a : PartitionAssigner} {w w' : Fleet}

theorem ensureRow_present {pid : Nat} {row : PartitionAssignment} {r : Result Unit}
    (stored : w.assignment (toString pid) = some row)
    (runs : Runs (FleetCall p) (PartitionAssigner.ensureRow pid) w r w') : r = .ok () ∧ w.Waits w' := by
  obtain ⟨listing, v, calls, rest⟩ := runs
  obtain ⟨rfl, waits⟩ := calls.list
  have present : w.rows.any (·.partitionId == toString pid) = true :=
    List.any_eq_true.mpr ⟨row, Collections.Table.mem_of_lookup stored, beq_iff_eq.mpr (Collections.Table.key_of_lookup stored)⟩
  replace rest : Runs (FleetCall p) (if w.rows.any (·.partitionId == toString pid) then _ else _) v r w' := rest
  rw [if_pos present] at rest
  obtain ⟨rfl, rfl⟩ := rest
  exact ⟨rfl, waits⟩

/-- The owners counted as alive: they have a lease that has not run out when the count starts. -/
theorem aliveOwners_runs {part : List PartitionAssignment} {alive out : List String}
    (runs : Runs (FleetCall p) (PartitionAssigner.aliveOwners part alive) w out w') :
    w.Waits w' ∧ (∀ i ∈ out, i ∈ alive ∨ ∃ row ∈ part, row.ownerInstanceId = i ∧ w.clock < row.leaseUntil) ∧
      (alive.Nodup → out.Nodup) := by
  induction part generalizing alive w with
  | nil =>
    obtain ⟨rfl, rfl⟩ := runs
    exact ⟨.refl _, fun _ inside => .inl inside, id⟩
  | cons row rest ih =>
    obtain ⟨now, v, calls, runs⟩ := runs
    obtain ⟨rfl, waits⟩ := calls.utcNow
    obtain ⟨waits', counted, distinct⟩ := ih runs
    refine ⟨waits.trans waits', fun i inside => ?_, fun nodup => distinct ?_⟩
    · rcases counted i inside with early | ⟨row', later, own, live⟩
      · split at early
        · rename_i isAlive
          rcases List.mem_insert_iff.mp early with rfl | before
          · exact .inr ⟨row, List.mem_cons_self, rfl, isAlive.1⟩
          · exact .inl before
        · exact .inl early
      · exact .inr ⟨row', List.mem_cons_of_mem _ later, own, lt_of_le_of_lt waits.later live⟩
    · split
      · exact nodup.insert
      · exact nodup

/-- The partitions leased to the instance at `t`. -/
def leasedAt (a : PartitionAssigner) (t : DateTime) (part : List PartitionAssignment) : List Nat :=
  part.flatMap fun row =>
    if row.ownerInstanceId = a.instanceId ∧ t < row.leaseUntil then (parseU32 row.partitionId).toList else []

theorem mem_leasedAt {t : DateTime} {part : List PartitionAssignment} {pid : Nat} :
    pid ∈ leasedAt a t part ↔ ∃ row ∈ part, row.ownerInstanceId = a.instanceId ∧ t < row.leaseUntil ∧
      parseU32 row.partitionId = some pid := by
  simp only [leasedAt, List.mem_flatMap, List.mem_ite_nil_right, Option.mem_toList, and_assoc]

theorem leasedAt_mono {t u : DateTime} (later : t ≤ u) (part : List PartitionAssignment) :
    (leasedAt a u part).Sublist (leasedAt a t part) := by
  induction part with
  | nil => exact .refl _
  | cons row rest ih =>
    refine List.Sublist.append ?_ ih
    dsimp only
    by_cases live : row.ownerInstanceId = a.instanceId ∧ u < row.leaseUntil
    · rw [if_pos live, if_pos ⟨live.1, lt_of_le_of_lt later live.2⟩]
    · rw [if_neg live]
      exact List.nil_sublist _

/-- Those that are found: some may run out meanwhile. -/
theorem leasedPartitions_runs {part : List PartitionAssignment} {out : List Nat}
    (runs : Runs (FleetCall p) (a.leasedPartitions part) w out w') :
    w.Waits w' ∧ out.Sublist (leasedAt a w.clock part) := by
  induction part generalizing w out with
  | nil =>
    obtain ⟨rfl, rfl⟩ := runs
    exact ⟨.refl _, .refl _⟩
  | cons row rest ih =>
    unfold PartitionAssigner.leasedPartitions at runs
    split at runs
    · rename_i own
      obtain ⟨now, v, calls, runs⟩ := runs
      obtain ⟨rfl, waits⟩ := calls.utcNow
      obtain ⟨mine, v', runs, rfl, rfl⟩ := Runs.bind.mp (show Runs _ (a.leasedPartitions rest >>= fun mine =>
        .ret ((if row.leaseUntil > w.clock then (parseU32 row.partitionId).toList else []) ++ mine)) v out w' from runs)
      obtain ⟨waits', found⟩ := ih runs
      refine ⟨waits.trans waits', List.Sublist.append ?_ (found.trans (leasedAt_mono waits.later rest))⟩
      simp only [own, true_and]
      exact .refl _
    · rename_i foreign
      obtain ⟨waits, found⟩ := ih runs
      refine ⟨waits, found.trans ?_⟩
      exact List.sublist_append_right _ _

end Reading

/-! ## A refresh that finds everything leased to others -/

section Opposed

variable {p : Nat} {b : PartitionAssigner} {w w' : Fleet} {until_ : DateTime}

/-- The partition is leased to another instance, until after `until_`. -/
def Fleet.LeasedAway (w : Fleet) (b : PartitionAssigner) (until_ : DateTime) (pid : Nat) : Prop :=
  ∃ row, w.assignment (toString pid) = some row ∧ row.ownerInstanceId ≠ b.instanceId ∧ until_ < row.leaseUntil

theorem Fleet.LeasedAway.waits {pid : Nat} (away : w.LeasedAway b until_ pid) (waits : w.Waits w') :
    w'.LeasedAway b until_ pid := by
  obtain ⟨row, stored, others⟩ := away
  exact ⟨row, (waits.assignment _).trans stored, others⟩

theorem ensureRows_opposed {pids : List Nat} {r : Result Unit} (away : ∀ pid ∈ pids, w.LeasedAway b until_ pid)
    (runs : Runs (FleetCall p) (PartitionAssigner.ensureRows pids) w r w') : r = .ok () ∧ w.Waits w' := by
  induction pids generalizing w with
  | nil =>
    obtain ⟨rfl, rfl⟩ := runs
    exact ⟨rfl, .refl _⟩
  | cons pid rest ih =>
    obtain ⟨answer, v, first, runs⟩ := Runs.bind.mp runs
    obtain ⟨row, stored, -⟩ := away pid List.mem_cons_self
    obtain ⟨rfl, waits⟩ := ensureRow_present stored first
    obtain ⟨isOk, waits'⟩ := ih (fun pid' later => (away pid' (List.mem_cons_of_mem _ later)).waits waits) runs
    exact ⟨isOk, waits.trans waits'⟩

theorem tryStealPartition_opposed {pid : Nat} {r : Result Bool} (away : w.LeasedAway b until_ pid)
    (early : w.clock ≤ until_) (runs : Runs (FleetCall p) (b.tryStealPartition pid) w r w') :
    r = .ok false ∧ w.Waits w' := by
  obtain ⟨row, stored, other, live⟩ := away
  obtain ⟨now, v, calls, runs⟩ := runs
  obtain ⟨rfl, waits⟩ := calls.utcNow
  obtain ⟨listing, v', calls, runs⟩ := runs
  obtain ⟨rfl, waits'⟩ := calls.list
  replace runs : Runs (FleetCall p) (b.stealFound pid w.clock (v.assignment (toString pid))) v' r w' := runs
  rw [waits.assignment, stored, PartitionAssigner.stealFound, if_pos ⟨lt_of_le_of_lt early live, other⟩] at runs
  obtain ⟨rfl, rfl⟩ := runs
  exact ⟨rfl, waits.trans waits'⟩

theorem stealUpTo_opposed {target : Nat} {pids : List Nat} {r : Result (List Nat)}
    (away : ∀ pid ∈ pids, w.LeasedAway b until_ pid) (runs : Runs (FleetCall p) (b.stealUpTo target pids []) w r w')
    (early : w'.clock ≤ until_) : r = .ok [] ∧ w.Waits w' := by
  induction pids generalizing w with
  | nil =>
    obtain ⟨rfl, rfl⟩ := runs
    exact ⟨rfl, .refl _⟩
  | cons pid rest ih =>
    unfold PartitionAssigner.stealUpTo at runs
    split at runs
    · obtain ⟨rfl, rfl⟩ := runs
      exact ⟨rfl, .refl _⟩
    · rw [if_neg List.not_mem_nil] at runs
      have before : w.clock ≤ until_ := (clock_le_of_runs runs).trans early
      obtain ⟨answer, v, first, runs⟩ := Runs.bind.mp runs
      obtain ⟨rfl, waits⟩ := tryStealPartition_opposed (away pid List.mem_cons_self) before first
      obtain ⟨isOk, waits'⟩ := ih (fun pid' later => (away pid' (List.mem_cons_of_mem _ later)).waits waits) runs
      exact ⟨isOk, waits.trans waits'⟩

/-- The instance is left with nothing, and nothing is written. -/
theorem refreshLeases_opposed {r : Result Unit} (away : ∀ pid < b.numPartitions, w.LeasedAway b w'.clock pid)
    (unleased : ∀ row ∈ w.rows, row.ownerInstanceId = b.instanceId → row.leaseUntil ≤ w.clock)
    (runs : Runs (FleetCall p) b.refreshLeases w r w') :
    w'.state.store = w.state.store ∧ ∀ i, w'.owned i = if i = b.instanceId then [] else w.owned i := by
  obtain ⟨answer, w₁, ensures, runs⟩ := Runs.bind.mp runs
  have all : ∀ pid ∈ List.range b.numPartitions, w.LeasedAway b w'.clock pid := fun pid inside =>
    away pid (List.mem_range.mp inside)
  obtain ⟨rfl, waits₁⟩ := ensureRows_opposed all ensures
  obtain ⟨listing, w₂, calls, runs⟩ := runs
  obtain ⟨rfl, waits₂⟩ := calls.list
  obtain ⟨alive, w₃, counts, runs⟩ := Runs.bind.mp (show Runs _ (PartitionAssigner.aliveOwners w₁.rows [] >>= _) w₂ r w' from runs)
  obtain ⟨waits₃, -⟩ := aliveOwners_runs counts
  obtain ⟨mine, w₄, finds, runs⟩ := Runs.bind.mp runs
  obtain ⟨waits₄, found⟩ := leasedPartitions_runs finds
  have waits := ((waits₁.trans waits₂).trans waits₃).trans waits₄
  have nothing : mine = [] := by
    rw [List.eq_nil_iff_forall_not_mem]
    intro pid inside
    obtain ⟨row, listed, own, live, -⟩ := mem_leasedAt.mp (found.subset inside)
    rw [waits₁.rows] at listed
    exact absurd live (not_lt.mpr ((unleased row listed own).trans ((waits₁.trans waits₂).trans waits₃).later))
  subst nothing
  obtain ⟨_, w₅, ⟨-, isSame⟩, rest⟩ := Runs.bind.mp runs
  subst isSame
  obtain ⟨answer, w₆, steals, final⟩ := Runs.bind.mp rest
  have left : answer = .ok [] ∧ w₅.Waits w₆ := by
    split at steals
    · refine stealUpTo_opposed (fun pid inside => (all pid inside).waits waits) steals ?_
      exact clock_le_of_runs final
    · obtain ⟨rfl, rfl⟩ := steals
      exact ⟨rfl, .refl _⟩
  obtain ⟨rfl, waits₆⟩ := left
  obtain ⟨_, w₇, calls, -, rfl⟩ := final
  obtain ⟨store, owned, -⟩ := calls.storeOwned
  have quiet := waits.trans waits₆
  refine ⟨store.trans quiet.store, fun i => ?_⟩
  rw [owned, quiet.owned]
  rfl

end Opposed

/-! ## A refresh that finds nothing leased to others -/

section Unopposed

variable {p : Nat} {a : PartitionAssigner} {t : DateTime} {w v w' : Fleet}

/-- Since `t`, only the instance has leases: of its own partitions. -/
structure Unopposed (a : PartitionAssigner) (t : DateTime) (w : Fleet) : Prop where
  rows : ∀ row ∈ w.rows, row.leaseUntil ≤ t ∨
    (row.ownerInstanceId = a.instanceId ∧ ∃ pid < a.numPartitions, row.partitionId = toString pid)
  later : t ≤ w.clock

/-- The instance has a lease of the partition that was taken or renewed at `t` or later. -/
def Fleet.LeasedSince (w : Fleet) (a : PartitionAssigner) (t : DateTime) (pid : Nat) : Prop :=
  ∃ row, w.assignment (toString pid) = some row ∧ row.ownerInstanceId = a.instanceId ∧
    t + seconds a.partitionLeaseTtlSecs ≤ row.leaseUntil

/-- What a part of the refresh keeps. -/
structure Gains (a : PartitionAssigner) (t : DateTime) (w w' : Fleet) : Prop where
  unopposed : Unopposed a t w'
  stored : ∀ key row, w.assignment key = some row →
    ∃ row', w'.assignment key = some row' ∧ (row.ownerInstanceId = a.instanceId → row'.ownerInstanceId = a.instanceId)
  leased : ∀ pid, w.LeasedSince a t pid → w'.LeasedSince a t pid
  owned : w'.owned = w.owned

theorem Gains.trans (first : Gains a t w v) (rest : Gains a t v w') : Gains a t w w' where
  unopposed := rest.unopposed
  stored key row isRow := by
    obtain ⟨row₁, isRow₁, own₁⟩ := first.stored key row isRow
    obtain ⟨row₂, isRow₂, own₂⟩ := rest.stored key row₁ isRow₁
    exact ⟨row₂, isRow₂, own₂ ∘ own₁⟩
  leased pid since := rest.leased pid (first.leased pid since)
  owned := rest.owned.trans first.owned

theorem Unopposed.waits (unopposed : Unopposed a t w) (waits : w.Waits w') : Gains a t w w' where
  unopposed := ⟨by rw [waits.rows]; exact unopposed.rows, unopposed.later.trans waits.later⟩
  stored key row isRow := ⟨row, (waits.assignment key).trans isRow, id⟩
  leased pid since := by
    obtain ⟨row, isRow, others⟩ := since
    exact ⟨row, (waits.assignment _).trans isRow, others⟩
  owned := waits.owned

/-- A missing row is created. -/
theorem Unopposed.creates {pid : Nat} {now : DateTime} {r : Result Unit} (unopposed : Unopposed a t w)
    (epoch : unixEpoch ≤ t) (missing : w.assignment (toString pid) = none)
    (calls : FleetCall p w (.store (.upsertPartitionAssignment (PartitionAssigner.blankRow pid now))) r w') :
    r = .ok () ∧ Gains a t w w' ∧ ∃ row, w'.assignment (toString pid) = some row := by
  obtain ⟨isOk, assigned, rows, owned, later⟩ := calls.upsert
  have others {key : String} {row : PartitionAssignment} (isRow : w.assignment key = some row) :
      w'.assignment key = some row := by
    rw [assigned, if_neg, isRow]
    rintro rfl
    rw [show (PartitionAssigner.blankRow pid now).partitionId = toString pid from rfl, missing] at isRow
    cases isRow
  refine ⟨isOk, ⟨⟨?_, unopposed.later.trans later⟩, ?_, ?_, owned⟩, _, (assigned _).trans (if_pos rfl)⟩
  · intro row inside
    rcases rows row inside with rfl | before
    · exact .inl epoch
    · exact unopposed.rows row before
  · exact fun key row isRow => ⟨row, others isRow, id⟩
  · rintro pid' ⟨row, isRow, since⟩
    exact ⟨row, others isRow, since⟩

/-- A partition is leased. -/
theorem Unopposed.leases {pid : Nat} {now : DateTime} {r : Result Unit} (unopposed : Unopposed a t w) (since : t ≤ now)
    (inRange : pid < a.numPartitions)
    (calls : FleetCall p w (.store (.upsertPartitionAssignment (a.leaseRow pid now))) r w') :
    r = .ok () ∧ Gains a t w w' ∧ w'.LeasedSince a t pid := by
  obtain ⟨isOk, assigned, rows, owned, later⟩ := calls.upsert
  have isNew : w'.LeasedSince a t pid :=
    ⟨a.leaseRow pid now, (assigned _).trans (if_pos rfl), rfl, Int.add_le_add_right since _⟩
  refine ⟨isOk, ⟨⟨?_, unopposed.later.trans later⟩, ?_, ?_, owned⟩, isNew⟩
  · intro row inside
    rcases rows row inside with rfl | before
    · exact .inr ⟨rfl, pid, inRange, rfl⟩
    · exact unopposed.rows row before
  · intro key row isRow
    by_cases same : toString pid = key
    · exact ⟨a.leaseRow pid now, (assigned _).trans (if_pos same), fun _ => rfl⟩
    · exact ⟨row, (assigned _).trans ((if_neg same).trans isRow), id⟩
  · rintro pid' ⟨row, isRow, leased⟩
    by_cases same : pid = pid'
    · exact same ▸ isNew
    · refine ⟨row, (assigned _).trans ((if_neg ?_).trans isRow), leased⟩
      exact fun isKey => same (toString_inj.mp isKey)

theorem ensureRow_gains {pid : Nat} {r : Result Unit} (unopposed : Unopposed a t w) (epoch : unixEpoch ≤ t)
    (runs : Runs (FleetCall p) (PartitionAssigner.ensureRow pid) w r w') :
    r = .ok () ∧ Gains a t w w' ∧ ∃ row, w'.assignment (toString pid) = some row := by
  cases isRow : w.assignment (toString pid) with
  | some row =>
    obtain ⟨isOk, waits⟩ := ensureRow_present isRow runs
    exact ⟨isOk, unopposed.waits waits, row, (waits.assignment _).trans isRow⟩
  | none =>
    obtain ⟨listing, v, calls, rest⟩ := runs
    obtain ⟨rfl, waits⟩ := calls.list
    have absent : ¬ w.rows.any (·.partitionId == toString pid) = true := by
      rw [List.any_eq_true]
      rintro ⟨row, inside, isKey⟩
      exact Collections.Table.lookup_eq_none.mp isRow row inside (beq_iff_eq.mp isKey)
    replace rest : Runs (FleetCall p) (if w.rows.any (·.partitionId == toString pid) then _ else _) v r w' := rest
    rw [if_neg absent] at rest
    obtain ⟨now, v', reads, answer, v'', calls, isAnswer, isEnd⟩ := rest
    obtain ⟨-, waits'⟩ := reads.utcNow
    have first := unopposed.waits (waits.trans waits')
    have missing : v'.assignment (toString pid) = none := ((waits.trans waits').assignment _).trans isRow
    obtain ⟨isOk, gains, stored⟩ := first.unopposed.creates epoch missing calls
    subst isAnswer isEnd
    exact ⟨isOk, first.trans gains, stored⟩

theorem ensureRows_gains {pids : List Nat} {r : Result Unit} (unopposed : Unopposed a t w) (epoch : unixEpoch ≤ t)
    (runs : Runs (FleetCall p) (PartitionAssigner.ensureRows pids) w r w') :
    r = .ok () ∧ Gains a t w w' ∧ ∀ pid ∈ pids, ∃ row, w'.assignment (toString pid) = some row := by
  induction pids generalizing w with
  | nil =>
    obtain ⟨rfl, rfl⟩ := runs
    exact ⟨rfl, unopposed.waits (.refl _), nofun⟩
  | cons pid rest ih =>
    obtain ⟨answer, v, first, others⟩ := Runs.bind.mp runs
    obtain ⟨rfl, gains, row, isRow⟩ := ensureRow_gains unopposed epoch first
    obtain ⟨isOk, gains', stored⟩ := ih gains.unopposed others
    refine ⟨isOk, gains.trans gains', fun pid' inside => ?_⟩
    rcases List.mem_cons.mp inside with rfl | later
    · obtain ⟨row', isRow', -⟩ := gains'.stored _ row isRow
      exact ⟨row', isRow'⟩
    · exact stored pid' later

theorem renewOwned_gains {pid : Nat} {row : PartitionAssignment} {r : Result Unit} (unopposed : Unopposed a t w)
    (inRange : pid < a.numPartitions) (isRow : w.assignment (toString pid) = some row)
    (own : row.ownerInstanceId = a.instanceId) (runs : Runs (FleetCall p) (a.renewOwned pid) w r w') :
    Gains a t w w' ∧ w'.LeasedSince a t pid := by
  obtain ⟨listing, v, calls, rest⟩ := runs
  obtain ⟨rfl, waits⟩ := calls.list
  replace rest : Runs (FleetCall p) (a.renewFound pid (w.assignment (toString pid))) v r w' := rest
  rw [isRow, PartitionAssigner.renewFound, if_neg (not_not.mpr own)] at rest
  obtain ⟨now, v', reads, answer, v'', calls, isAnswer, isEnd⟩ := rest
  obtain ⟨rfl, waits'⟩ := reads.utcNow
  have first := unopposed.waits (waits.trans waits')
  obtain ⟨-, gains, leased⟩ := first.unopposed.leases (unopposed.later.trans waits.later) inRange calls
  subst isEnd
  exact ⟨first.trans gains, leased⟩

theorem renewAll_gains {pids : List Nat} {r : Unit} (unopposed : Unopposed a t w)
    (owned : ∀ pid ∈ pids, pid < a.numPartitions ∧
      ∃ row, w.assignment (toString pid) = some row ∧ row.ownerInstanceId = a.instanceId)
    (runs : Runs (FleetCall p) (a.renewAll pids) w r w') :
    Gains a t w w' ∧ ∀ pid ∈ pids, w'.LeasedSince a t pid := by
  induction pids generalizing w with
  | nil =>
    obtain ⟨-, rfl⟩ := runs
    exact ⟨unopposed.waits (.refl _), nofun⟩
  | cons pid rest ih =>
    obtain ⟨answer, v, first, others⟩ := Runs.bind.mp runs
    obtain ⟨inRange, row, isRow, own⟩ := owned pid List.mem_cons_self
    obtain ⟨gains, leased⟩ := renewOwned_gains unopposed inRange isRow own first
    have later : ∀ pid' ∈ rest, pid' < a.numPartitions ∧
        ∃ row, v.assignment (toString pid') = some row ∧ row.ownerInstanceId = a.instanceId := by
      intro pid' inside
      obtain ⟨inRange', row, isRow, own⟩ := owned pid' (List.mem_cons_of_mem _ inside)
      obtain ⟨row', isRow', own'⟩ := gains.stored _ row isRow
      exact ⟨inRange', row', isRow', own' own⟩
    obtain ⟨gains', leased'⟩ := ih gains.unopposed later others
    refine ⟨gains.trans gains', fun pid' inside => ?_⟩
    rcases List.mem_cons.mp inside with rfl | after
    · exact gains'.leased _ leased
    · exact leased' pid' after

/-- Where nobody else has a lease, every partition can be taken. -/
theorem tryStealPartition_gains {pid : Nat} {row : PartitionAssignment} {r : Result Bool} (unopposed : Unopposed a t w)
    (inRange : pid < a.numPartitions) (isRow : w.assignment (toString pid) = some row)
    (runs : Runs (FleetCall p) (a.tryStealPartition pid) w r w') :
    r = .ok true ∧ Gains a t w w' ∧ w'.LeasedSince a t pid := by
  obtain ⟨now, v, reads, rest⟩ := runs
  obtain ⟨rfl, waits⟩ := reads.utcNow
  obtain ⟨listing, v', calls, rest⟩ := rest
  obtain ⟨rfl, waits'⟩ := calls.list
  replace rest : Runs (FleetCall p) (a.stealFound pid w.clock (v.assignment (toString pid))) v' r w' := rest
  have free : ¬ (row.leaseUntil > w.clock ∧ row.ownerInstanceId ≠ a.instanceId) := by
    rintro ⟨live, foreign⟩
    rcases unopposed.rows row (Collections.Table.mem_of_lookup isRow) with out | ⟨own, -⟩
    · exact absurd live (not_lt.mpr (out.trans unopposed.later))
    · exact foreign own
  rw [waits.assignment, isRow, PartitionAssigner.stealFound, if_neg free] at rest
  obtain ⟨answer, v'', calls, rest⟩ := rest
  have first := unopposed.waits (waits.trans waits')
  obtain ⟨rfl, gains, leased⟩ := first.unopposed.leases unopposed.later inRange calls
  obtain ⟨rfl, rfl⟩ := rest
  exact ⟨rfl, first.trans gains, leased⟩

/-- Partitions that an assigner may count as its own: distinct ones of its range, with a lease. -/
structure Counted (a : PartitionAssigner) (t : DateTime) (w : Fleet) (pids : List Nat) : Prop where
  distinct : pids.Nodup
  inRange : ∀ pid ∈ pids, pid < a.numPartitions
  leased : ∀ pid ∈ pids, w.LeasedSince a t pid

/-- As many as there are, all are counted. -/
theorem Counted.full {pids : List Nat} (counted : Counted a t w pids) (many : a.numPartitions ≤ pids.length) {pid : Nat}
    (inRange : pid < a.numPartitions) : pid ∈ pids := by
  have subset : pids.toFinset ⊆ Finset.range a.numPartitions := by
    intro q inside
    exact Finset.mem_range.mpr (counted.inRange q (List.mem_toFinset.mp inside))
  have full : pids.toFinset = Finset.range a.numPartitions := by
    refine Finset.eq_of_subset_of_card_le subset ?_
    rw [Finset.card_range, List.toFinset_card_of_nodup counted.distinct]
    exact many
  rw [← List.mem_toFinset, full]
  exact Finset.mem_range.mpr inRange

/-- One more is taken. -/
theorem Counted.add {pids : List Nat} {pid : Nat} (counted : Counted a t w pids) (gains : Gains a t w v)
    (missing : pid ∉ pids) (inRange : pid < a.numPartitions) (leased : v.LeasedSince a t pid) :
    Counted a t v (PartitionAssigner.sorted (pids ++ [pid])) := by
  have others {pid' : Nat} (inside : pid' ∈ PartitionAssigner.sorted (pids ++ [pid])) : pid' ∈ pids ∨ pid' = pid := by
    simpa using mem_sorted.mp inside
  refine ⟨?_, fun pid' inside => ?_, fun pid' inside => ?_⟩
  · apply (List.perm_insertionSort _ _).nodup_iff.mpr
    rw [List.nodup_append_comm]
    exact List.nodup_cons.mpr ⟨missing, counted.distinct⟩
  · rcases others inside with before | rfl
    · exact counted.inRange pid' before
    · exact inRange
  · rcases others inside with before | rfl
    · exact gains.leased pid' (counted.leased pid' before)
    · exact leased

theorem stealUpTo_gains {pids mine : List Nat} {r : Result (List Nat)} (unopposed : Unopposed a t w)
    (stored : ∀ pid ∈ pids, pid < a.numPartitions ∧ ∃ row, w.assignment (toString pid) = some row)
    (counted : Counted a t w mine) (runs : Runs (FleetCall p) (a.stealUpTo a.numPartitions pids mine) w r w') :
    ∃ taken, r = .ok taken ∧ Gains a t w w' ∧ Counted a t w' taken ∧ (∀ pid ∈ mine, pid ∈ taken) ∧
      ((∀ pid < a.numPartitions, pid ∈ taken) ∨ ∀ pid ∈ pids, pid ∈ taken) := by
  induction pids generalizing w mine with
  | nil =>
    obtain ⟨rfl, rfl⟩ := runs
    exact ⟨mine, rfl, unopposed.waits (.refl _), counted, fun _ => id, .inr nofun⟩
  | cons pid rest ih =>
    have later (v : Fleet) (gains : Gains a t w v) : ∀ pid' ∈ rest, pid' < a.numPartitions ∧
        ∃ row, v.assignment (toString pid') = some row := by
      intro pid' inside
      obtain ⟨inRange, row, isRow⟩ := stored pid' (List.mem_cons_of_mem _ inside)
      obtain ⟨row', isRow', -⟩ := gains.stored _ row isRow
      exact ⟨inRange, row', isRow'⟩
    unfold PartitionAssigner.stealUpTo at runs
    split at runs
    · rename_i many
      obtain ⟨rfl, rfl⟩ := runs
      exact ⟨mine, rfl, unopposed.waits (.refl _), counted, fun _ => id, .inl fun _ => counted.full many⟩
    · split at runs
      · rename_i already
        obtain ⟨taken, isOk, gains, counted', kept, all⟩ := ih unopposed (later w (unopposed.waits (.refl _))) counted runs
        refine ⟨taken, isOk, gains, counted', kept, all.imp_right fun all pid' inside => ?_⟩
        rcases List.mem_cons.mp inside with rfl | after
        · exact kept _ already
        · exact all pid' after
      · rename_i missing
        obtain ⟨answer, v, first, others⟩ := Runs.bind.mp runs
        obtain ⟨inRange, row, isRow⟩ := stored pid List.mem_cons_self
        obtain ⟨rfl, gains, leased⟩ := tryStealPartition_gains unopposed inRange isRow first
        have counted' := counted.add gains missing inRange leased
        obtain ⟨taken, isOk, gains', counted'', kept, all⟩ := ih gains.unopposed (later v gains) counted' others
        refine ⟨taken, isOk, gains.trans gains', counted'', fun pid' inside => ?_, all.imp_right fun all pid' inside => ?_⟩
        · exact kept pid' (mem_sorted.mpr (List.mem_append_left _ inside))
        · rcases List.mem_cons.mp inside with rfl | after
          · exact kept _ (mem_sorted.mpr (List.mem_append_right _ List.mem_cons_self))
          · exact all pid' after

/-- The owners counted as alive are one at most. -/
theorem aliveOwners_unopposed {alive : List String} (unopposed : Unopposed a t w) (later : t ≤ v.clock)
    (runs : Runs (FleetCall p) (PartitionAssigner.aliveOwners w.rows []) v alive w') :
    v.Waits w' ∧ max alive.length 1 = 1 := by
  obtain ⟨waits, counted, distinct⟩ := aliveOwners_runs runs
  refine ⟨waits, max_eq_right ?_⟩
  have only : ∀ i ∈ alive, i = a.instanceId := by
    intro i inside
    rcases counted i inside with absent | ⟨row, listed, rfl, live⟩
    · cases absent
    · rcases unopposed.rows row listed with out | ⟨own, -⟩
      · exact absurd live (not_lt.mpr (out.trans later))
      · exact own
  have subset : alive.toFinset ⊆ {a.instanceId} := by
    intro i inside
    exact Finset.mem_singleton.mpr (only i (List.mem_toFinset.mp inside))
  calc alive.length = alive.toFinset.card := (List.toFinset_card_of_nodup (distinct List.nodup_nil)).symm
    _ ≤ 1 := Finset.card_le_card subset

/-- The partitions found are in range and named once each. -/
theorem leasedAt_unopposed (unopposed : Unopposed a t w) {u : DateTime} (later : t ≤ u) :
    (leasedAt a u w.rows).Nodup ∧ ∀ pid ∈ leasedAt a u w.rows, pid < a.numPartitions ∧
      ∃ row, w.assignment (toString pid) = some row ∧ row.ownerInstanceId = a.instanceId := by
  have named : ∀ row ∈ w.rows, row.ownerInstanceId = a.instanceId → u < row.leaseUntil →
      ∃ pid < a.numPartitions, row.partitionId = toString pid := by
    intro row inside own live
    rcases unopposed.rows row inside with out | ⟨-, named⟩
    · exact absurd live (not_lt.mpr (out.trans later))
    · exact named
  have parses {row : PartitionAssignment} {pid : Nat} (inRange : pid < a.numPartitions)
      (isKey : row.partitionId = toString pid) : parseU32 row.partitionId = some pid := by
    rw [isKey, parseU32_toString, if_pos (inRange.trans a.fits)]
  have keys : ∀ part : List PartitionAssignment, (∀ row ∈ part, row ∈ w.rows) →
      ((leasedAt a u part).map toString).Sublist (part.map (·.partitionId)) := by
    intro part listed
    induction part with
    | nil => exact .refl _
    | cons row rest ih =>
      have others := ih fun row' inside => listed row' (List.mem_cons_of_mem _ inside)
      rw [leasedAt, List.flatMap_cons, List.map_append]
      split
      · rename_i live
        obtain ⟨pid, inRange, isKey⟩ := named row (listed row List.mem_cons_self) live.1 live.2
        rw [parses inRange isKey, List.map_cons, isKey]
        exact others.cons_cons _
      · exact others.cons _
  refine ⟨((keys w.rows fun _ => id).nodup w.state.store.partitions.distinct).of_map _, fun pid inside => ?_⟩
  obtain ⟨row, listed, own, live, isPid⟩ := mem_leasedAt.mp inside
  obtain ⟨pid', inRange, isKey⟩ := named row listed own live
  rw [parses inRange isKey] at isPid
  cases isPid
  exact ⟨inRange, row, isKey ▸ Collections.Table.lookup_of_mem listed, own⟩

/-- The instance takes every partition. -/
theorem refreshLeases_unopposed {r : Result Unit} (unopposed : Unopposed a w.clock w) (epoch : unixEpoch ≤ w.clock)
    (runs : Runs (FleetCall p) a.refreshLeases w r w') :
    Unopposed a w.clock w' ∧ (∀ pid < a.numPartitions, w'.LeasedSince a w.clock pid) ∧
      (∀ pid, pid ∈ w'.owned a.instanceId ↔ pid < a.numPartitions) ∧ ∀ i, i ≠ a.instanceId → w'.owned i = w.owned i := by
  obtain ⟨answer, w₁, ensures, runs⟩ := Runs.bind.mp runs
  obtain ⟨rfl, gains₁, stored⟩ := ensureRows_gains unopposed epoch ensures
  obtain ⟨listing, w₂, calls, runs⟩ := runs
  obtain ⟨rfl, waits₂⟩ := calls.list
  obtain ⟨alive, w₃, counts, runs⟩ := Runs.bind.mp (show Runs _ (PartitionAssigner.aliveOwners w₁.rows [] >>= _) w₂ r w' from runs)
  obtain ⟨waits₃, single⟩ := aliveOwners_unopposed gains₁.unopposed (gains₁.unopposed.later.trans waits₂.later) counts
  have target : divCeil a.numPartitions (max alive.length 1) = a.numPartitions := by
    rw [single, divCeil, Nat.mod_one, if_pos rfl, Nat.div_one]
  obtain ⟨mine, w₄, finds, runs⟩ := Runs.bind.mp runs
  obtain ⟨waits₄, found⟩ := leasedPartitions_runs finds
  have waits := (waits₂.trans waits₃).trans waits₄
  have later : w.clock ≤ w₃.clock := gains₁.unopposed.later.trans (waits₂.trans waits₃).later
  obtain ⟨distinct, named⟩ := leasedAt_unopposed gains₁.unopposed later
  have gains₄ := gains₁.trans (gains₁.unopposed.waits waits)
  obtain ⟨_, w₅, renews, rest⟩ := Runs.bind.mp runs
  have owned : ∀ pid ∈ mine, pid < a.numPartitions ∧
      ∃ row, w₄.assignment (toString pid) = some row ∧ row.ownerInstanceId = a.instanceId := by
    intro pid inside
    obtain ⟨inRange, row, isRow, own⟩ := named pid (found.subset inside)
    exact ⟨inRange, row, (waits.assignment _).trans isRow, own⟩
  obtain ⟨gains₅, leased⟩ := renewAll_gains gains₄.unopposed owned renews
  have counted : Counted a w.clock w₅ mine := ⟨found.nodup distinct, fun pid inside => (owned pid inside).1, leased⟩
  obtain ⟨answer, w₆, steals, final⟩ := Runs.bind.mp rest
  have takes : ∃ taken, answer = .ok taken ∧ Gains a w.clock w₅ w₆ ∧ Counted a w.clock w₆ taken ∧
      ∀ pid < a.numPartitions, pid ∈ taken := by
    rw [target] at steals
    split at steals
    · have rows : ∀ pid ∈ List.range a.numPartitions, pid < a.numPartitions ∧
          ∃ row, w₅.assignment (toString pid) = some row := by
        intro pid inside
        obtain ⟨row, isRow⟩ := stored pid inside
        obtain ⟨row', isRow', -⟩ := ((gains₁.unopposed.waits waits).trans gains₅).stored _ row isRow
        exact ⟨List.mem_range.mp inside, row', isRow'⟩
      obtain ⟨taken, isOk, gains, counted', -, all⟩ := stealUpTo_gains gains₅.unopposed rows counted steals
      refine ⟨taken, isOk, gains, counted', fun pid inRange => ?_⟩
      rcases all with all | all
      · exact all pid inRange
      · exact all pid (List.mem_range.mpr inRange)
    · rename_i many
      obtain ⟨rfl, rfl⟩ := steals
      exact ⟨mine, rfl, gains₅.unopposed.waits (.refl _), counted, fun _ => counted.full (not_lt.mp many)⟩
  obtain ⟨taken, rfl, gains₆, counted', all⟩ := takes
  obtain ⟨_, w₇, calls, -, isEnd⟩ := final
  subst isEnd
  obtain ⟨store, isOwned, later'⟩ := calls.storeOwned
  have gains := (gains₄.trans gains₅).trans gains₆
  have sameRows : w'.rows = w₆.rows := by rw [Fleet.rows, store]; rfl
  have sameRow (key : String) : w'.assignment key = w₆.assignment key := by rw [Fleet.assignment, store]; rfl
  refine ⟨⟨by rw [sameRows]; exact gains.unopposed.rows, gains.unopposed.later.trans later'⟩, ?_, ?_, ?_⟩
  · intro pid inRange
    obtain ⟨row, isRow, since⟩ := counted'.leased pid (all pid inRange)
    exact ⟨row, (sameRow _).trans isRow, since⟩
  · intro pid
    rw [isOwned, if_pos rfl, mem_sorted]
    exact ⟨counted'.inRange pid, all pid⟩
  · intro i other
    rw [isOwned, if_neg other, gains.owned]

end Unopposed

/-! ## Who refreshes first owns everything -/

section Monopoly

variable {fleet : Nat → PartitionAssigner} {n : Nat} {w₀ w w' : Fleet} {history : Refreshes} {a p : Nat} {t : DateTime}

/-- `fleet a` has taken or renewed its lease of every partition since `t`, and the others own nothing. -/
structure Monopoly (fleet : Nat → PartitionAssigner) (n a : Nat) (t : DateTime) (w : Fleet) : Prop where
  unopposed : Unopposed (fleet a) t w
  leased : ∀ pid < n, w.LeasedSince (fleet a) t pid
  owns : ∀ pid, pid ∈ w.owned (fleet a).instanceId ↔ pid < n
  rest : ∀ p, p ≠ a → w.owned (fleet p).instanceId = []

theorem Monopoly.waits (monopoly : Monopoly fleet n a t w) (waits : w.Waits w') : Monopoly fleet n a t w' where
  unopposed := (monopoly.unopposed.waits waits).unopposed
  leased pid inRange := (monopoly.unopposed.waits waits).leased pid (monopoly.leased pid inRange)
  owns := by
    rw [waits.owned]
    exact monopoly.owns
  rest := by
    rw [waits.owned]
    exact monopoly.rest

/-- Where nobody else has a lease, a refresh brings it about. -/
theorem Monopoly.of_unopposed {r : Result Unit} (distinct : Function.Injective fun p => (fleet p).instanceId)
    (count : (fleet a).numPartitions = n) (epoch : unixEpoch ≤ w.clock) (unopposed : Unopposed (fleet a) w.clock w)
    (others : ∀ p, p ≠ a → w.owned (fleet p).instanceId = [])
    (runs : Runs (FleetCall a) (fleet a).refreshLeases w r w') : Monopoly fleet n a w.clock w' := by
  subst count
  obtain ⟨unopposed', leased, owns, kept⟩ := refreshLeases_unopposed unopposed epoch runs
  refine ⟨unopposed', leased, owns, fun p other => ?_⟩
  rw [kept _ fun same => other (distinct same), others p other]

/-- A refresh of another instance leaves it as it is. -/
theorem Monopoly.other {r : Result Unit} (distinct : Function.Injective fun p => (fleet p).instanceId)
    (count : (fleet p).numPartitions = n) (monopoly : Monopoly fleet n a t w) (other : p ≠ a)
    (inTime : w'.clock < t + seconds (fleet a).partitionLeaseTtlSecs)
    (runs : Runs (FleetCall p) (fleet p).refreshLeases w r w') : Monopoly fleet n a t w' := by
  subst count
  have later := clock_le_of_runs runs
  have apart : (fleet a).instanceId ≠ (fleet p).instanceId := fun same => other (distinct same).symm
  have away : ∀ pid < (fleet p).numPartitions, w.LeasedAway (fleet p) w'.clock pid := by
    intro pid inRange
    obtain ⟨row, isRow, own, since⟩ := monopoly.leased pid inRange
    exact ⟨row, isRow, own ▸ apart, lt_of_lt_of_le inTime since⟩
  have unleased : ∀ row ∈ w.rows, row.ownerInstanceId = (fleet p).instanceId → row.leaseUntil ≤ w.clock := by
    intro row inside own
    rcases monopoly.unopposed.rows row inside with out | ⟨foreign, -⟩
    · exact out.trans monopoly.unopposed.later
    · exact absurd (foreign.symm.trans own) apart
  obtain ⟨store, owned⟩ := refreshLeases_opposed away unleased runs
  have sameRows : w'.rows = w.rows := by rw [Fleet.rows, store]; rfl
  have sameRow (key : String) : w'.assignment key = w.assignment key := by rw [Fleet.assignment, store]; rfl
  refine ⟨⟨by rw [sameRows]; exact monopoly.unopposed.rows, monopoly.unopposed.later.trans later⟩, ?_, ?_, ?_⟩
  · intro pid inRange
    obtain ⟨row, isRow, others⟩ := monopoly.leased pid inRange
    exact ⟨row, (sameRow _).trans isRow, others⟩
  · intro pid
    rw [owned, if_neg apart]
    exact monopoly.owns pid
  · intro q isOther
    rw [owned]
    split
    · rfl
    · exact monopoly.rest q isOther

theorem Refreshes.lastStart_cons (q : Nat) (start : DateTime) (history : Refreshes) (p : Nat) :
    Refreshes.lastStart p ((q, start) :: history) = if q = p then some start else history.lastStart p := by
  unfold lastStart
  rw [List.find?_cons]
  by_cases same : q = p
  · simp [same]
  · have apart : (q == p) = false := beq_eq_false_iff_ne.mpr same
    simp only [apart, same, if_false]

/-- Before the first refresh nothing has happened; after it, somebody has a monopoly. -/
theorem Rotation.monopoly (distinct : Function.Injective fun p => (fleet p).instanceId)
    (count : ∀ p, (fleet p).numPartitions = n) (epoch : unixEpoch ≤ w₀.clock)
    (free : ∀ row ∈ w₀.rows, row.leaseUntil ≤ w₀.clock) (unowned : ∀ i, w₀.owned i = [])
    (rotation : Rotation fleet w₀ history w) :
    (history = [] ∧ w₀.Waits w) ∨
      ∃ a t, history.lastStart a = some t ∧ unixEpoch ≤ t ∧ Monopoly fleet n a t w := by
  induction rotation with
  | start => exact .inl ⟨rfl, .refl _⟩
  | waits _ passed _ ih =>
    have waits := Fleet.Waits.of_advance passed
    rcases ih with ⟨isNil, earlier⟩ | ⟨a, t, isLast, after, monopoly⟩
    · exact .inl ⟨isNil, earlier.trans waits⟩
    · exact .inr ⟨a, t, isLast, after, monopoly.waits waits⟩
  | @refresh history w w' r p _ runs inTime _ ih =>
    refine .inr ?_
    rcases ih with ⟨-, waits⟩ | ⟨a, t, isLast, after, monopoly⟩
    · have unopposed : Unopposed (fleet p) w.clock w := by
        refine ⟨fun row inside => .inl ?_, le_refl _⟩
        rw [waits.rows] at inside
        exact (free row inside).trans waits.later
      refine ⟨p, w.clock, ?_, epoch.trans waits.later, .of_unopposed distinct (count p) (epoch.trans waits.later) unopposed ?_ runs⟩
      · rw [Refreshes.lastStart_cons, if_pos rfl]
      · intro q _
        rw [waits.owned, unowned]
    · by_cases same : p = a
      · subst same
        have unopposed : Unopposed (fleet p) w.clock w := by
          refine ⟨fun row inside => ?_, le_refl _⟩
          exact (monopoly.unopposed.rows row inside).imp_left fun out => out.trans monopoly.unopposed.later
        have epoch' := after.trans monopoly.unopposed.later
        refine ⟨p, w.clock, ?_, epoch', .of_unopposed distinct (count p) epoch' unopposed monopoly.rest runs⟩
        rw [Refreshes.lastStart_cons, if_pos rfl]
      · refine ⟨a, t, ?_, after, monopoly.other distinct (count p) same (inTime a t isLast) runs⟩
        rw [Refreshes.lastStart_cons, if_neg same]
        exact isLast

theorem divCeil_lt {k : Nat} (two : 2 ≤ k) (few : k ≤ n) : divCeil n k < n := by
  have half : n / k ≤ n / 2 := Nat.div_le_div_left two (by decide)
  unfold divCeil
  split
  · omega
  · rename_i rest
    have notTwo : n ≠ 2 := by
      rintro rfl
      have isTwo : k = 2 := le_antisymm few two
      subst isTwo
      exact rest rfl
    omega

/-- **Partition leases are shared fairly** exactly if there is one assigner, at any time from its first refresh on. -/
theorem fairly_shared_iff (distinct : Function.Injective fun p => (fleet p).instanceId)
    (count : ∀ p, (fleet p).numPartitions = n) (epoch : unixEpoch ≤ w₀.clock)
    (free : ∀ row ∈ w₀.rows, row.leaseUntil ≤ w₀.clock) (unowned : ∀ i, w₀.owned i = [])
    (rotation : Rotation fleet w₀ history w) (refreshed : history ≠ []) (few : history.joined.card ≤ n) :
    FairlyShared fleet n history.joined w ↔ history.joined.card = 1 := by
  rcases rotation.monopoly distinct count epoch free unowned with ⟨isNil, -⟩ | ⟨a, t, isLast, -, monopoly⟩
  · exact absurd isNil refreshed
  have isJoined : a ∈ history.joined := by
    obtain ⟨entry, found, -⟩ := Option.map_eq_some_iff.mp isLast
    have isEntry := List.find?_some found
    rw [← beq_iff_eq.mp isEntry]
    exact List.mem_toFinset.mpr (List.mem_map_of_mem (List.mem_of_find?_eq_some found))
  have all : (w.owned (fleet a).instanceId).toFinset = Finset.range n := by
    ext pid
    rw [List.mem_toFinset, monopoly.owns, Finset.mem_range]
  constructor
  · intro shared
    have bound := shared.fair a isJoined
    rw [all, Finset.card_range] at bound
    by_contra several
    have positive : 0 < history.joined.card := Finset.card_pos.mpr ⟨a, isJoined⟩
    exact absurd bound (not_le.mpr (divCeil_lt (by omega) few))
  · intro single
    have only {p : Nat} (inside : p ∈ history.joined) : p = a :=
      Finset.card_le_one.mp (le_of_eq single) p inside a isJoined
    refine ⟨fun p inside q inside' apart => absurd ((only inside).trans (only inside').symm) apart, ?_, ?_⟩
    · exact fun pid inRange => ⟨a, isJoined, (monopoly.owns pid).mpr inRange⟩
    · intro p inside
      rw [only inside, all, Finset.card_range, single, divCeil, Nat.mod_one, if_pos rfl, Nat.div_one]

end Monopoly

/-! ## Two assigners in turn -/

/-- The refreshes of `order`, newest first, all at one time. -/
def rotated : List Nat → Fleet
  | [] => .fresh unassigned
  | p :: earlier => ((pairFleet p).refreshLeases.eval (Fleet.perform p) (rotated earlier)).2

def rotatedAt (order : List Nat) : Refreshes := order.map fun p => (p, seconds 60)

theorem Fleet.perform_clock (p : Nat) (w : Fleet) (op : AssignerOp) : (w.perform p op).2.clock = w.clock := by
  cases op <;> rfl

theorem eval_clock {α : Type} (p : Nat) (m : AssignerTask α) (w : Fleet) :
    (m.eval (Fleet.perform p) w).2.clock = w.clock := by
  induction m generalizing w with
  | ret a => rfl
  | call op k ih => exact (ih _ _).trans (Fleet.perform_clock p w op)

theorem rotated_clock (order : List Nat) : (rotated order).clock = seconds 60 := by
  induction order with
  | nil => rfl
  | cons p earlier ih => exact (eval_clock p _ _).trans ih

theorem rotatedAt_inTime (order : List Nat) : RefreshedInTime pairFleet (rotatedAt order) (seconds 60) := by
  intro p start isLast
  obtain ⟨entry, found, rfl⟩ := Option.map_eq_some_iff.mp isLast
  obtain ⟨q, -, rfl⟩ := List.mem_map.mp (List.mem_of_find?_eq_some found)
  show seconds 60 < seconds 60 + seconds 30
  decide

/-- A turn that takes no time. -/
theorem rotation_rotated (order : List Nat) : Rotation pairFleet (.fresh unassigned) (rotatedAt order) (rotated order) := by
  induction order with
  | nil => exact .start
  | cons p earlier ih =>
    have runs := Runs.of_eval (fun w op => show FleetCall p w op (w.perform p op).1 (w.perform p op).2 from
      ⟨_, _, rfl, if_pos (le_refl _)⟩) (pairFleet p).refreshLeases (rotated earlier)
    have step := Rotation.refresh p ih runs
    rw [eval_clock, rotated_clock] at step
    exact step (rotatedAt_inTime earlier) (rotatedAt_inTime (p :: earlier))

/-- A single assigner has its fair share. -/
theorem fairly_shared_single : FairlyShared pairFleet 2 (rotatedAt [0]).joined (rotated [0]) := by
  have epoch : unixEpoch ≤ (Fleet.fresh unassigned).clock := by decide
  have free : ∀ row ∈ (Fleet.fresh unassigned).rows, row.leaseUntil ≤ (Fleet.fresh unassigned).clock := by
    intro row inside
    cases inside
  have count : ∀ p, (pairFleet p).numPartitions = 2 := fun _ => rfl
  have distinct : Function.Injective fun p => (pairFleet p).instanceId := instanceName_injective
  refine (fairly_shared_iff distinct count epoch free (fun _ => rfl) (rotation_rotated [0]) ?_ ?_).mpr ?_
  all_goals decide

/-- Two do not, however often they refresh. -/
theorem shares_unfair :
    Rotation pairFleet (.fresh unassigned) (rotatedAt [1, 0, 1, 0, 1, 0, 1, 0]) (rotated [1, 0, 1, 0, 1, 0, 1, 0]) ∧
      (rotated [1, 0, 1, 0, 1, 0, 1, 0]).owned (pairFleet 0).instanceId = [0, 1] ∧
      (rotated [1, 0, 1, 0, 1, 0, 1, 0]).owned (pairFleet 1).instanceId = [] ∧
      ¬ FairlyShared pairFleet 2 (rotatedAt [1, 0, 1, 0, 1, 0, 1, 0]).joined (rotated [1, 0, 1, 0, 1, 0, 1, 0]) := by
  have owned : (rotated [1, 0, 1, 0, 1, 0, 1, 0]).owned (pairFleet 0).instanceId = [0, 1] := by decide +kernel
  refine ⟨rotation_rotated _, owned, by decide +kernel, fun shared => ?_⟩
  have bound := shared.fair 0 (by decide)
  rw [owned] at bound
  revert bound
  decide

end Chronon
