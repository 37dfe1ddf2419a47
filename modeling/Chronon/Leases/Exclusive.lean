import Chronon.Leader.Cluster
import Chronon.Leases.Fleet

/-!
# Exclusive leases

An assigner decides on a listing and writes its row later, whatever the row has
become meanwhile. Owned lists stay apart as long as no such write hits the lease
of another assigner, and no lease runs out on an assigner that relies on it.

The invariant is that an assigner holds a lease of every partition it owns
(`Fleet.Holds`); during a refresh, also of those it is about to own.
-/

namespace Chronon
set_option autoImplicit false

open Concurrent

/-- The partitions whose leases the refresh under way relies on: it has found them leased to its instance, or has
leased them. -/
def reliesAfter (fleet : Nat → PartitionAssigner) (e : FleetEntry) (keys : List String) : List String :=
  match e with
  | ⟨p, found, .store .listPartitionAssignments, .ok rows⟩ =>
    (rows.filter fun row => row.ownerInstanceId == (fleet p).instanceId && decide (found.clock < row.leaseUntil)).map
      (·.partitionId) ++ keys
  | ⟨p, _, .store (.upsertPartitionAssignment row), _⟩ =>
    if row.ownerInstanceId = (fleet p).instanceId ∧ row.updatedAt < row.leaseUntil then row.partitionId :: keys else keys
  | ⟨_, _, .storeOwned _ _, _⟩ => []
  | _ => keys

def relied (fleet : Nat → PartitionAssigner) (p : Nat) (log : List FleetEntry) : List String :=
  track (reliesAfter fleet) [] p log

/-- No row is overwritten while another instance has it leased. -/
def SparesLeases (fleet : Nat → PartitionAssigner) (l : FleetLabel) (w : Fleet) : Prop :=
  match l with
  | .call p (.store (.upsertPartitionAssignment row)) _ =>
    ∀ old ∈ w.assignment row.partitionId, old.ownerInstanceId ≠ (fleet p).instanceId → old.leaseUntil ≤ w.clock
  | _ => True

/-- No lease has run out on an instance that owns its partition or relies on it. -/
structure LeasesLast (fleet : Nat → PartitionAssigner) (w : Fleet) : Prop where
  owned : ∀ row ∈ w.state.store.partitions.rows, ∀ pid ∈ w.owned row.ownerInstanceId,
    row.partitionId = toString pid → w.clock < row.leaseUntil
  relied : ∀ p, ∀ key ∈ relied fleet p w.log, ∀ row ∈ w.assignment key,
    row.ownerInstanceId = (fleet p).instanceId → w.clock < row.leaseUntil

/-- The steps of a run in which leases are respected and kept. -/
structure LeasesKept (fleet : Nat → PartitionAssigner) (l : FleetLabel) (w w' : Fleet) : Prop where
  manned : Manned fleet l
  spares : SparesLeases fleet l w
  last : LeasesLast fleet w'

/-- Every partition id is stored in the spelling the assigners use. -/
def Store.PlainPartitionIds (s : Store) : Prop :=
  ∀ row ∈ s.partitions.rows, ∀ pid, parseU32 row.partitionId = some pid → row.partitionId = toString pid

/-- The instance has a lease of the partition, and it has not run out. -/
def Fleet.Holds (w : Fleet) (i : String) (pid : Nat) : Prop :=
  ∃ row, w.assignment (toString pid) = some row ∧ row.ownerInstanceId = i ∧ w.clock < row.leaseUntil

/-- It holds a lease on which its refresh relies. -/
def Fleet.Keeps (fleet : Nat → PartitionAssigner) (w : Fleet) (p pid : Nat) : Prop :=
  w.Holds (fleet p).instanceId pid ∧ toString pid ∈ relied fleet p w.log

/-! ## The protocol of a refresh -/

/-- Where a refresh stands: it has yet to list the rows, it has found none for a partition, it goes through the rows
it has listed last and takes the partitions in `mine`, or it is over. -/
inductive RefreshPhase where
  | ensuring
  | missing (pid : Nat)
  | taking (rows : List PartitionAssignment) (mine : List Nat)
  | done

inductive RefreshMove (a : PartitionAssigner) : RefreshPhase → (op : AssignerOp) → AssignerAns op → RefreshPhase → Prop
  | present {rows : List PartitionAssignment} : RefreshMove a .ensuring (.store .listPartitionAssignments) (.ok rows) .ensuring
  | absent {rows : List PartitionAssignment} {pid : Nat} : (∀ row ∈ rows, row.partitionId ≠ toString pid) →
      RefreshMove a .ensuring (.store .listPartitionAssignments) (.ok rows) (.missing pid)
  | reads {φ : RefreshPhase} {now : DateTime} : RefreshMove a φ .utcNow now φ
  | creates {pid : Nat} {now : DateTime} :
      RefreshMove a (.missing pid) (.store (.upsertPartitionAssignment (PartitionAssigner.blankRow pid now))) (.ok ())
        .ensuring
  | listed {rows : List PartitionAssignment} :
      RefreshMove a .ensuring (.store .listPartitionAssignments) (.ok rows) (.taking rows [])
  | finds {rows : List PartitionAssignment} {mine : List Nat} {row : PartitionAssignment} {pid : Nat} {now : DateTime} :
      row ∈ rows → row.ownerInstanceId = a.instanceId → now < row.leaseUntil → parseU32 row.partitionId = some pid →
      RefreshMove a (.taking rows mine) .utcNow now (.taking rows (pid :: mine))
  | relists {rows rows' : List PartitionAssignment} {mine : List Nat} :
      RefreshMove a (.taking rows mine) (.store .listPartitionAssignments) (.ok rows') (.taking rows' mine)
  | leases {rows : List PartitionAssignment} {mine : List Nat} {pid : Nat} {now : DateTime} :
      RefreshMove a (.taking rows mine) (.store (.upsertPartitionAssignment (a.leaseRow pid now))) (.ok ())
        (.taking rows (pid :: mine))
  | stores {rows : List PartitionAssignment} {mine pids : List Nat} {r : Unit} : (∀ pid ∈ pids, pid ∈ mine) →
      RefreshMove a (.taking rows mine) (.storeOwned a.instanceId pids) r .done
  | unlisted {φ φ' : RefreshPhase} {e : ChrononError} :
      RefreshMove a φ (.store .listPartitionAssignments) (.error e) φ'
  | unwritten {φ φ' : RefreshPhase} {row : PartitionAssignment} {e : ChrononError} :
      RefreshMove a φ (.store (.upsertPartitionAssignment row)) (.error e) φ'

/-- The refresh of any assigner. -/
def refreshProtocol : Protocol AssignerOp AssignerAns PartitionAssigner (PartitionAssigner × RefreshPhase) where
  start := fun a => (a, .ensuring)
  ended := fun _ => True
  move := fun φ op r φ' => φ'.1 = φ.1 ∧ RefreshMove φ.1 φ.2 op r φ'.2

section Refresh

variable {a : PartitionAssigner} {rows : List PartitionAssignment} {mine : List Nat} {α : Type}

/-- A phase in which `mine` is taken, and more. -/
def Takes (mine : List Nat) (φ : RefreshPhase) : Prop :=
  ∃ rows mine', φ = .taking rows mine' ∧ ∀ pid ∈ mine, pid ∈ mine'

theorem ensureRow_follows (pid : Nat) :
    Follows (RefreshMove a) (PartitionAssigner.ensureRow pid) .ensuring fun _ φ => φ = .ensuring := by
  intro listing
  cases listing with
  | error e => exact ⟨.ensuring, .unlisted, rfl⟩
  | ok rows =>
    by_cases present : rows.any (·.partitionId == toString pid) = true
    · refine ⟨.ensuring, .present, ?_⟩
      show Follows _ (if _ then _ else _) _ _
      rw [if_pos present]
      rfl
    · refine ⟨.missing pid, .absent ?_, ?_⟩
      · intro row inside same
        exact present (List.any_eq_true.mpr ⟨row, inside, beq_iff_eq.mpr same⟩)
      · show Follows _ (if _ then _ else _) _ _
        rw [if_neg present]
        intro now
        refine ⟨.missing pid, .reads, ?_⟩
        intro answer
        refine ⟨.ensuring, ?_, rfl⟩
        cases answer with
        | error e => exact .unwritten
        | ok _ => exact .creates

theorem ensureRows_follows (pids : List Nat) :
    Follows (RefreshMove a) (PartitionAssigner.ensureRows pids) .ensuring fun _ φ => φ = .ensuring := by
  induction pids with
  | nil => exact rfl
  | cons pid rest ih =>
    refine (ensureRow_follows pid).bind ?_
    rintro answer φ rfl
    cases answer with
    | error e => exact rfl
    | ok _ => exact ih

theorem aliveOwners_follows (φ : RefreshPhase) (part : List PartitionAssignment) (alive : List String) :
    Follows (RefreshMove a) (PartitionAssigner.aliveOwners part alive) φ fun _ ψ => ψ = φ := by
  induction part generalizing alive with
  | nil => exact rfl
  | cons row rest ih => exact fun now => ⟨φ, .reads, ih _⟩

theorem leasedPartitions_follows {part : List PartitionAssignment} (listed : ∀ row ∈ part, row ∈ rows) :
    Follows (RefreshMove a) (a.leasedPartitions part) (.taking rows mine) fun out φ =>
      ∃ mine', φ = .taking rows mine' ∧ (∀ pid ∈ mine, pid ∈ mine') ∧ ∀ pid ∈ out, pid ∈ mine' := by
  induction part generalizing mine with
  | nil => exact ⟨mine, rfl, fun _ inside => inside, fun _ inside => by cases inside⟩
  | cons row rest ih =>
    have later {mine : List Nat} := @ih mine fun row' inside => listed row' (List.mem_cons_of_mem _ inside)
    unfold PartitionAssigner.leasedPartitions
    split
    · rename_i own
      intro now
      by_cases named : now < row.leaseUntil ∧ ∃ pid, parseU32 row.partitionId = some pid
      · obtain ⟨live, pid, isPid⟩ := named
        refine ⟨.taking rows (pid :: mine), .finds (listed row List.mem_cons_self) own live isPid, ?_⟩
        show Follows _ (a.leasedPartitions rest >>= fun out => .ret (_ ++ out)) _ _
        refine later.bind ?_
        rintro out φ ⟨mine', rfl, more, found⟩
        refine ⟨mine', rfl, fun p inside => more p (List.mem_cons_of_mem _ inside), ?_⟩
        rw [if_pos live, isPid]
        intro p inside
        rcases List.mem_cons.mp inside with rfl | others
        · exact more p List.mem_cons_self
        · exact found p others
      · refine ⟨.taking rows mine, .reads, ?_⟩
        show Follows _ (a.leasedPartitions rest >>= fun out => .ret (_ ++ out)) _ _
        refine later.bind ?_
        rintro out φ ⟨mine', rfl, more, found⟩
        refine ⟨mine', rfl, more, ?_⟩
        have nothing : (if row.leaseUntil > now then (parseU32 row.partitionId).toList else []) = [] := by
          split
          · rename_i live
            cases isPid : parseU32 row.partitionId with
            | none => rfl
            | some pid => exact absurd ⟨live, pid, isPid⟩ named
          · rfl
        rw [nothing]
        exact found
    · exact later

theorem renewOwned_follows {φ : RefreshPhase} (takes : Takes mine φ) (pid : Nat) :
    Follows (RefreshMove a) (a.renewOwned pid) φ fun _ ψ => Takes mine ψ := by
  obtain ⟨rows, mine', rfl, all⟩ := takes
  intro listing
  cases listing with
  | error e => exact ⟨.taking rows mine', .unlisted, rows, mine', rfl, all⟩
  | ok rows' =>
    refine ⟨.taking rows' mine', .relists, ?_⟩
    have takes : Takes mine (.taking rows' mine') := ⟨rows', mine', rfl, all⟩
    show Follows _ (a.renewFound pid (rows'.find? _)) _ _
    cases rows'.find? _ with
    | none => exact takes
    | some row =>
      rw [PartitionAssigner.renewFound]
      split
      · exact takes
      · intro now
        refine ⟨.taking rows' mine', .reads, fun answer => ?_⟩
        cases answer with
        | error e => exact ⟨.taking rows' mine', .unwritten, takes⟩
        | ok _ => exact ⟨.taking rows' (pid :: mine'), .leases, rows', _, rfl, fun p inside => List.mem_cons_of_mem _ (all p inside)⟩

theorem renewAll_follows {φ : RefreshPhase} (takes : Takes mine φ) (pids : List Nat) :
    Follows (RefreshMove a) (a.renewAll pids) φ fun _ ψ => Takes mine ψ := by
  induction pids generalizing φ with
  | nil => exact takes
  | cons pid rest ih => exact (renewOwned_follows takes pid).bind fun _ ψ takes => ih takes

theorem tryStealPartition_follows {φ : RefreshPhase} (takes : Takes mine φ) (pid : Nat) :
    Follows (RefreshMove a) (a.tryStealPartition pid) φ fun answer ψ =>
      Takes mine ψ ∧ (answer = .ok true → Takes (mine ++ [pid]) ψ) := by
  obtain ⟨rows, mine', rfl, all⟩ := takes
  intro now
  refine ⟨.taking rows mine', .reads, fun listing => ?_⟩
  cases listing with
  | error e => exact ⟨.taking rows mine', .unlisted, ⟨rows, mine', rfl, all⟩, nofun⟩
  | ok rows' =>
    refine ⟨.taking rows' mine', .relists, ?_⟩
    have takes : Takes mine (.taking rows' mine') := ⟨rows', mine', rfl, all⟩
    show Follows _ (a.stealFound pid now (rows'.find? _)) _ _
    cases rows'.find? _ with
    | none => exact ⟨takes, nofun⟩
    | some row =>
      rw [PartitionAssigner.stealFound]
      split
      · exact ⟨takes, nofun⟩
      · intro answer
        cases answer with
        | error e => exact ⟨.taking rows' mine', .unwritten, takes, nofun⟩
        | ok _ =>
          refine ⟨.taking rows' (pid :: mine'), .leases, ⟨rows', _, rfl, fun p inside => ?_⟩, fun _ => ⟨rows', _, rfl, fun p inside => ?_⟩⟩
          · exact List.mem_cons_of_mem _ (all p inside)
          · rcases List.mem_append.mp inside with before | isNew
            · exact List.mem_cons_of_mem _ (all p before)
            · rw [List.mem_singleton.mp isNew]
              exact List.mem_cons_self

theorem mem_sorted {pids : List Nat} {pid : Nat} : pid ∈ PartitionAssigner.sorted pids ↔ pid ∈ pids :=
  List.mem_insertionSort _

theorem stealUpTo_follows {φ : RefreshPhase} {target : Nat} (takes : Takes mine φ) (pids : List Nat) :
    Follows (RefreshMove a) (a.stealUpTo target pids mine) φ fun answer ψ =>
      ∀ taken, answer = .ok taken → Takes taken ψ := by
  induction pids generalizing mine φ with
  | nil =>
    rintro taken ⟨⟩
    exact takes
  | cons pid rest ih =>
    unfold PartitionAssigner.stealUpTo
    split
    · rintro taken ⟨⟩
      exact takes
    · split
      · exact ih takes
      · refine (tryStealPartition_follows takes pid).bind ?_
        rintro answer ψ ⟨takes, more⟩
        rcases answer with e | ⟨_ | _⟩
        · nofun
        · exact ih takes
        · refine ih ?_
          obtain ⟨rows, mine', rfl, all⟩ := more rfl
          exact ⟨rows, mine', rfl, fun p inside => all p (mem_sorted.mp inside)⟩

/-- A refresh stores only what it has taken. -/
theorem refreshLeases_follows : Follows (RefreshMove a) a.refreshLeases .ensuring fun _ _ => True := by
  refine (ensureRows_follows _).bind ?_
  rintro answer φ rfl
  cases answer with
  | error e => exact trivial
  | ok _ =>
    intro listing
    cases listing with
    | error e => exact ⟨.done, .unlisted, trivial⟩
    | ok rows =>
      refine ⟨.taking rows [], .listed, ?_⟩
      show Follows _ (PartitionAssigner.aliveOwners rows [] >>= fun alive => _) _ _
      refine (aliveOwners_follows _ rows []).bind ?_
      rintro alive φ rfl
      refine (leasedPartitions_follows fun _ inside => inside).bind ?_
      rintro mine φ ⟨mine', rfl, -, found⟩
      refine (renewAll_follows ⟨rows, mine', rfl, found⟩ mine).bind ?_
      intro _ ψ takes
      have steals : Follows (RefreshMove a) (if mine.length < divCeil a.numPartitions (max alive.length 1) then
          a.stealUpTo (divCeil a.numPartitions (max alive.length 1)) (List.range a.numPartitions) mine
          else return .ok mine) ψ fun answer ψ => ∀ taken, answer = .ok taken → Takes taken ψ := by
        split
        · exact stealUpTo_follows takes _
        · rintro taken ⟨⟩
          exact takes
      refine steals.bind ?_
      intro answer ψ takes
      cases answer with
      | error e => exact trivial
      | ok taken =>
        obtain ⟨rows', mine', rfl, all⟩ := takes taken rfl
        exact fun _ => ⟨.done, .stores fun pid inside => all pid (mem_sorted.mp inside), trivial⟩

/-- The protocol of one assigner is the one of all. -/
theorem Follows.ofRefresh {m : AssignerTask α} {φ : RefreshPhase} (follows : Follows (RefreshMove a) m φ fun _ _ => True) :
    Follows refreshProtocol.move m (a, φ) fun _ _ => True := by
  induction m generalizing φ with
  | ret _ => exact trivial
  | call op k ih =>
    intro r
    obtain ⟨φ', move, rest⟩ := follows r
    exact ⟨(a, φ'), ⟨rfl, move⟩, ih r rest⟩

theorem refreshProtocol_governs : refreshProtocol.Governs assigners := fun _ =>
  (Follows.ofRefresh refreshLeases_follows).done.mono fun _ _ _ => trivial

end Refresh

/-! ## The assertions of the phases -/

section Invariant

variable {fleet : Nat → PartitionAssigner} {w w' : Fleet} {p q : Nat} {pid : Nat}

theorem relied_own {e : FleetEntry} (own : e.pid = p) (log : w'.log = e :: w.log) :
    relied fleet p w'.log = reliesAfter fleet e (relied fleet p w.log) := by
  rw [log]
  exact track_own own

theorem relied_other {e : FleetEntry} (other : e.pid ≠ q) (log : w'.log = e :: w.log) :
    relied fleet q w'.log = relied fleet q w.log := by
  rw [log]
  exact track_other other

/-- What holds in a phase of the refresh of `fleet p`. -/
def RefreshPhase.Holds (fleet : Nat → PartitionAssigner) (p : Nat) (φ : RefreshPhase) (w : Fleet) : Prop :=
  match φ with
  | .missing pid => pid ∉ w.owned (fleet p).instanceId
  | .taking rows mine =>
    (∀ row ∈ rows, row.ownerInstanceId = (fleet p).instanceId → w.clock < row.leaseUntil →
      ∀ pid, parseU32 row.partitionId = some pid → w.Keeps fleet p pid) ∧
    ∀ pid ∈ mine, w.Keeps fleet p pid
  | _ => True

/-- Every assigner holds leases of the partitions it owns. -/
structure LeasesHeld (fleet : Nat → PartitionAssigner) (w : Fleet) : Prop where
  plain : w.state.store.PlainPartitionIds
  owned : ∀ p, ∀ pid ∈ w.owned (fleet p).instanceId, w.Holds (fleet p).instanceId pid

/-- What a call of `p` leaves of the others. -/
structure SparesOthers (fleet : Nat → PartitionAssigner) (p : Nat) (w w' : Fleet) : Prop where
  clock : w'.clock = w.clock
  held : ∀ q, q ≠ p → ∀ pid, w.Holds (fleet q).instanceId pid → w'.Holds (fleet q).instanceId pid
  owned : ∀ q, q ≠ p → w'.owned (fleet q).instanceId = w.owned (fleet q).instanceId
  relied : ∀ q, q ≠ p → relied fleet q w'.log = relied fleet q w.log

/-- The assertion of a phase stays true where leases stay held and time goes on. -/
theorem RefreshPhase.Holds.mono {φ : RefreshPhase} (holds : φ.Holds fleet p w) (clock : w.clock ≤ w'.clock)
    (owned : w'.owned (fleet p).instanceId = w.owned (fleet p).instanceId)
    (keeps : ∀ pid, w.Keeps fleet p pid → w'.Keeps fleet p pid) : φ.Holds fleet p w' := by
  cases φ with
  | missing pid =>
    show pid ∉ w'.owned _
    rw [owned]
    exact holds
  | taking rows mine =>
    exact ⟨fun row inside own live pid isPid => keeps pid (holds.1 row inside own (lt_of_le_of_lt clock live) pid isPid),
      fun pid inside => keeps pid (holds.2 pid inside)⟩
  | ensuring | done => exact trivial

theorem Fleet.Holds.congr {i : String} (holds : w.Holds i pid) (same : w'.assignment (toString pid) = w.assignment (toString pid))
    (clock : w'.clock = w.clock) : w'.Holds i pid := by
  obtain ⟨row, stored, own, live⟩ := holds
  exact ⟨row, same.trans stored, own, by rwa [clock]⟩

/-- A lease that is relied on, or whose partition is owned, lasts. -/
theorem Fleet.Holds.of_last (last : LeasesLast fleet w') {row : PartitionAssignment}
    (stored : w'.assignment (toString pid) = some row) (own : row.ownerInstanceId = (fleet p).instanceId)
    (counts : pid ∈ w'.owned (fleet p).instanceId ∨ toString pid ∈ relied fleet p w'.log) :
    w'.Holds (fleet p).instanceId pid := by
  refine ⟨row, stored, own, ?_⟩
  rcases counts with isOwned | isRelied
  · refine last.owned row (Collections.Table.mem_of_lookup stored) pid ?_ (Collections.Table.key_of_lookup stored)
    rw [own]
    exact isOwned
  · exact last.relied p _ isRelied row stored own

theorem Fleet.holds_congr {i : String} (same : w'.state = w.state) : w'.Holds i pid ↔ w.Holds i pid := by
  unfold Fleet.Holds Fleet.assignment Fleet.clock
  rw [same]

/-- A call that changes no shared state. -/
theorem SparesOthers.of_state {e : FleetEntry} (same : w'.state = w.state) (own : e.pid = p) (log : w'.log = e :: w.log) :
    SparesOthers fleet p w w' where
  clock := congrArg State.clock same
  held _ _ _ held := (Fleet.holds_congr same).mpr held
  owned _ _ := congrFun (congrArg State.owned same) _
  relied _ other := relied_other (by rw [own]; exact other.symm) log

theorem LeasesHeld.of_state (held : LeasesHeld fleet w) (same : w'.state = w.state) : LeasesHeld fleet w' where
  plain := by
    rw [same]
    exact held.plain
  owned q pid inside := by
    rw [Fleet.owned, same] at inside
    exact (Fleet.holds_congr same).mpr (held.owned q pid inside)

/-- A listed lease is relied on. -/
theorem Fleet.Keeps.of_listed {row : PartitionAssignment} (plain : w.state.store.PlainPartitionIds)
    (same : w'.state = w.state)
    (log : w'.log = ⟨p, w.state, .store .listPartitionAssignments, .ok w.state.store.partitions.rows⟩ :: w.log)
    (inside : row ∈ w.state.store.partitions.rows) (own : row.ownerInstanceId = (fleet p).instanceId)
    (live : w'.clock < row.leaseUntil) (isPid : parseU32 row.partitionId = some pid) : w'.Keeps fleet p pid := by
  have key : row.partitionId = toString pid := plain row inside pid isPid
  have stored : w.assignment (toString pid) = some row := by
    rw [← key]
    exact Collections.Table.lookup_of_mem inside
  rw [Fleet.clock, same] at live
  refine ⟨(Fleet.holds_congr same).mpr ⟨row, stored, own, live⟩, ?_⟩
  rw [relied_own rfl log, ← key]
  refine List.mem_append_left _ (List.mem_map_of_mem (List.mem_filter.mpr ⟨inside, ?_⟩))
  rw [Bool.and_eq_true, beq_iff_eq, decide_eq_true_iff]
  exact ⟨own, live⟩

/-- What is relied on stays so during a listing. -/
theorem Fleet.Keeps.listing {rows : List PartitionAssignment} (keeps : w.Keeps fleet p pid) (same : w'.state = w.state)
    (log : w'.log = ⟨p, w.state, .store .listPartitionAssignments, .ok rows⟩ :: w.log) : w'.Keeps fleet p pid := by
  refine ⟨(Fleet.holds_congr same).mpr keeps.1, ?_⟩
  rw [relied_own rfl log]
  exact List.mem_append_right _ keeps.2

section Upsert

variable {row : PartitionAssignment} {r : Result Unit}

/-- A write that spares the leases of the others. -/
theorem SparesOthers.of_upsert (distinct : Function.Injective fun p => (fleet p).instanceId)
    (ran : w.perform p (.store (.upsertPartitionAssignment row)) = (r, w'))
    (spares : SparesLeases fleet (.call p (.store (.upsertPartitionAssignment row)) r) w) : SparesOthers fleet p w w' := by
  obtain ⟨-, rows, clock, owned, log⟩ := Fleet.perform_upsert ran
  refine ⟨clock, fun q other pid held => ?_, fun q _ => by rw [owned], fun q other => relied_other (Ne.symm other) log⟩
  obtain ⟨old, stored, own, live⟩ := held
  have apart : row.partitionId ≠ toString pid := by
    intro same
    have foreign : old.ownerInstanceId ≠ (fleet p).instanceId := by
      rw [own]
      exact fun sameId => other (distinct sameId)
    exact absurd live (not_lt.mpr (spares old (by rw [same]; exact stored) foreign))
  refine ⟨old, ?_, own, by rwa [clock]⟩
  rw [rows, if_neg apart]
  exact stored

/-- After a write of its own, the instance holds what it held, other partitions aside. -/
theorem Fleet.Holds.upsert {i : String} (ran : w.perform p (.store (.upsertPartitionAssignment row)) = (r, w'))
    (held : w.Holds i pid) (other : row.partitionId ≠ toString pid) : w'.Holds i pid := by
  obtain ⟨-, rows, clock, -, -⟩ := Fleet.perform_upsert ran
  exact held.congr (by rw [rows, if_neg other]) clock

theorem Store.PlainPartitionIds.upsert (plain : w.state.store.PlainPartitionIds)
    (ran : w.perform p (.store (.upsertPartitionAssignment row)) = (r, w')) (isKey : row.partitionId = toString pid) :
    w'.state.store.PlainPartitionIds := by
  obtain ⟨rfl, rfl⟩ := Prod.mk.inj ran
  intro row' inside pid' isPid
  rcases Collections.Table.mem_put.mp inside with rfl | ⟨before, -⟩
  · rw [isKey, parseU32_toString] at isPid
    split at isPid
    · cases isPid
      exact isKey
    · cases isPid
  · exact plain row' before pid' isPid

end Upsert

end Invariant

section Rules

variable {fleet : Nat → PartitionAssigner} {w w' : Fleet} {p : Nat}

/-- What one call of a refresh does. -/
theorem refresh_step (distinct : Function.Injective fun p => (fleet p).instanceId) {φ φ' : RefreshPhase} {op : AssignerOp}
    {r : AssignerAns op} (inv : LeasesHeld fleet w) (holds : φ.Holds fleet p w) (move : RefreshMove (fleet p) φ op r φ')
    (ran : w.perform p op = (r, w')) (spares : SparesLeases fleet (.call p op r) w) (last : LeasesLast fleet w') :
    LeasesHeld fleet w' ∧ SparesOthers fleet p w w' ∧ φ'.Holds fleet p w' := by
  cases move with
  | present =>
    obtain ⟨-, same, log⟩ := Fleet.perform_list ran
    exact ⟨inv.of_state same, .of_state same rfl log, trivial⟩
  | @absent rows pid missing =>
    obtain ⟨isOk, same, log⟩ := Fleet.perform_list ran
    refine ⟨inv.of_state same, .of_state same rfl log, ?_⟩
    show pid ∉ w'.owned _
    rw [Fleet.owned, same]
    intro isOwned
    obtain ⟨row, stored, -, -⟩ := inv.owned p pid isOwned
    cases isOk
    exact missing row (Collections.Table.mem_of_lookup stored) (Collections.Table.key_of_lookup stored)
  | reads =>
    obtain ⟨-, same, log⟩ := Fleet.perform_utcNow ran
    refine ⟨inv.of_state same, .of_state same rfl log, holds.mono ?_ ?_ ?_⟩
    · rw [Fleet.clock, Fleet.clock, same]
    · rw [Fleet.owned, Fleet.owned, same]
    · intro pid keeps
      exact ⟨(Fleet.holds_congr same).mpr keeps.1, by rw [relied_own rfl log]; exact keeps.2⟩
  | @creates pid now =>
    have others := SparesOthers.of_upsert distinct ran spares
    obtain ⟨-, rows, clock, owned, log⟩ := Fleet.perform_upsert ran
    refine ⟨⟨inv.plain.upsert ran rfl, fun q pid' isOwned => ?_⟩, others, trivial⟩
    rw [owned] at isOwned
    have held := inv.owned q pid' isOwned
    by_cases same : q = p
    · subst same
      refine held.upsert ran ?_
      intro isKey
      exact holds (toString_inj.mp isKey ▸ isOwned)
    · exact others.held q same pid' held
  | listed =>
    obtain ⟨isOk, same, log⟩ := Fleet.perform_list ran
    cases isOk
    refine ⟨inv.of_state same, .of_state same rfl log, ?_, nofun⟩
    exact fun row inside own live pid isPid => .of_listed inv.plain same log inside own live isPid
  | @finds rows mine row pid now inside own live isPid =>
    obtain ⟨isNow, same, log⟩ := Fleet.perform_utcNow ran
    subst isNow
    have keeps : ∀ pid, w.Keeps fleet p pid → w'.Keeps fleet p pid := fun pid keeps =>
      ⟨(Fleet.holds_congr same).mpr keeps.1, by rw [relied_own rfl log]; exact keeps.2⟩
    have taken : (RefreshPhase.taking rows (pid :: mine)).Holds fleet p w := by
      refine ⟨holds.1, fun pid' member => ?_⟩
      rcases List.mem_cons.mp member with rfl | before
      · exact holds.1 row inside own live _ isPid
      · exact holds.2 pid' before
    refine ⟨inv.of_state same, .of_state same rfl log, taken.mono ?_ ?_ keeps⟩
    · rw [Fleet.clock, Fleet.clock, same]
    · rw [Fleet.owned, Fleet.owned, same]
  | relists =>
    obtain ⟨isOk, same, log⟩ := Fleet.perform_list ran
    cases isOk
    refine ⟨inv.of_state same, .of_state same rfl log, ?_, fun pid inside => (holds.2 pid inside).listing same log⟩
    exact fun row inside own live pid isPid => .of_listed inv.plain same log inside own live isPid
  | @leases rows mine pid now =>
    have others := SparesOthers.of_upsert distinct ran spares
    obtain ⟨-, assigned, clock, owned, log⟩ := Fleet.perform_upsert ran
    have future : now < now + seconds (fleet p).partitionLeaseTtlSecs :=
      Int.lt_add_of_pos_right _ (leaseTtl_pos _)
    have counted : relied fleet p w'.log = toString pid :: relied fleet p w.log := by
      rw [relied_own rfl log]
      exact if_pos ⟨rfl, future⟩
    have isNew : w'.Keeps fleet p pid := by
      have isRelied : toString pid ∈ relied fleet p w'.log := by
        rw [counted]
        exact List.mem_cons_self
      have stored : w'.assignment (toString pid) = some ((fleet p).leaseRow pid now) := by
        rw [assigned]
        exact if_pos rfl
      exact ⟨.of_last last stored rfl (.inr isRelied), isRelied⟩
    have held {pid' : Nat} (held : w.Holds (fleet p).instanceId pid') : w'.Holds (fleet p).instanceId pid' := by
      by_cases same : pid = pid'
      · subst same
        exact isNew.1
      · exact held.upsert ran fun isKey => same (toString_inj.mp isKey)
    have keeps : ∀ pid', w.Keeps fleet p pid' → w'.Keeps fleet p pid' := by
      intro pid' keeps
      refine ⟨held keeps.1, ?_⟩
      rw [counted]
      exact List.mem_cons_of_mem _ keeps.2
    refine ⟨⟨inv.plain.upsert ran rfl, fun q pid' isOwned => ?_⟩, others, ?_⟩
    · rw [owned] at isOwned
      by_cases same : q = p
      · subst same
        exact held (inv.owned q pid' isOwned)
      · exact others.held q same pid' (inv.owned q pid' isOwned)
    · have after : (RefreshPhase.taking rows mine).Holds fleet p w' :=
        holds.mono (le_of_eq clock.symm) (by rw [owned]) keeps
      refine ⟨after.1, fun pid' member => ?_⟩
      rcases List.mem_cons.mp member with rfl | earlier
      · exact isNew
      · exact after.2 pid' earlier
  | @stores rows mine pids _ taken =>
    obtain ⟨assigned, clock, owned, log⟩ := Fleet.perform_storeOwned ran
    have held {i : String} {pid : Nat} (held : w.Holds i pid) : w'.Holds i pid := held.congr (assigned _) clock
    refine ⟨⟨?_, fun q pid isOwned => ?_⟩, ⟨clock, fun q _ pid => held, fun q other => ?_, fun q other => relied_other (Ne.symm other) log⟩, trivial⟩
    · obtain ⟨rfl, rfl⟩ := Prod.mk.inj ran
      exact inv.plain
    · rw [owned] at isOwned
      split at isOwned
      · rename_i same
        rw [same]
        exact held (holds.2 pid (taken pid isOwned)).1
      · exact held (inv.owned q pid isOwned)
    · rw [owned, if_neg fun same => other (distinct same)]
  | unlisted =>
    obtain ⟨isOk, -⟩ := Fleet.perform_list ran
    cases isOk
  | unwritten =>
    obtain ⟨isOk, -⟩ := Fleet.perform_upsert ran
    cases isOk

/-- The assertions of all assigners, for runs whose steps keep the leases. -/
def leaseRules (distinct : Function.Injective fun p => (fleet p).instanceId) :
    Rules assigners refreshProtocol (LeasesKept fleet) where
  inv := LeasesHeld fleet
  guar := SparesOthers fleet
  idle _ _ := True
  holds p φ w := φ.1 = fleet p ∧ φ.2.Holds fleet p w
  start _ _ kept := ⟨kept.manned _ rfl, trivial⟩
  finish _ _ _ := trivial
  own := by
    rintro p ⟨a, φ⟩ op r ⟨a', φ'⟩ _ w w' inv ⟨rfl, holds⟩ ⟨rfl, move⟩ ran kept
    obtain ⟨held, others, after⟩ := refresh_step distinct inv holds move (Option.some.inj ran) kept.spares kept.last
    exact ⟨held, others, rfl, after⟩
  other := by
    rintro p q φ w w' other - - others ⟨isOwn, holds⟩
    refine ⟨isOwn, holds.mono (le_of_eq others.clock.symm) (others.owned p other) fun pid keeps => ?_⟩
    refine ⟨others.held p other pid keeps.1, ?_⟩
    rw [others.relied p other]
    exact keeps.2
  otherIdle _ _ _ _ _ := trivial
  drift := by
    intro clock w w' inv passed kept
    obtain ⟨later, same⟩ := Fleet.advance_cases passed
    have held {p pid : Nat} (held : w.Holds (fleet p).instanceId pid)
        (counts : pid ∈ w'.owned (fleet p).instanceId ∨ toString pid ∈ relied fleet p w'.log) :
        w'.Holds (fleet p).instanceId pid := by
      obtain ⟨row, stored, own, -⟩ := held
      refine .of_last kept.last ?_ own counts
      rw [same]
      exact stored
    have isOwned (i : String) : w'.owned i = w.owned i := by rw [same]; rfl
    have isLog : w'.log = w.log := by rw [same]
    refine ⟨⟨by rw [same]; exact inv.plain, fun p pid inside => ?_⟩, ?_, fun _ _ => trivial⟩
    · exact held (inv.owned p pid (isOwned _ ▸ inside)) (.inl inside)
    · rintro p φ ⟨isOwn, holds⟩
      refine ⟨isOwn, holds.mono later (isOwned _) fun pid keeps => ?_⟩
      have isRelied : toString pid ∈ relied fleet p w'.log := by
        rw [isLog]
        exact keeps.2
      exact ⟨held keeps.1 (.inr isRelied), isRelied⟩

end Rules

/-- **Partition leases are exclusive** in every run in which no assigner overwrites another one's lease and no lease
runs out on an assigner that owns its partition or relies on it. -/
theorem partition_leases_exclusive {fleet : Nat → PartitionAssigner}
    (distinct : Function.Injective fun p => (fleet p).instanceId) {s : State} (plain : s.store.PlainPartitionIds)
    (unowned : ∀ i, s.owned i = []) {c : FleetConfig} (reach : assigners.Reach (LeasesKept fleet) (.idle (.fresh s)) c)
    (p q : Nat) (apart : p ≠ q) (pid : Nat) (owned : pid ∈ c.world.owned (fleet p).instanceId) :
    pid ∉ c.world.owned (fleet q).instanceId := by
  have inv : LeasesHeld fleet (Fleet.fresh s) := by
    refine ⟨plain, fun p pid inside => ?_⟩
    rw [Fleet.owned, Fleet.fresh, unowned] at inside
    cases inside
  have standing := (leaseRules distinct).sound refreshProtocol_governs (.initial _ inv fun _ => trivial) reach
  intro owned'
  obtain ⟨row, stored, own, -⟩ := standing.inv.owned p pid owned
  obtain ⟨row', stored', own', -⟩ := standing.inv.owned q pid owned'
  rw [stored] at stored'
  cases stored'
  exact apart (distinct (own.symm.trans own'))


/-! ## Small fleets -/

section Decidable

variable (fleet : Nat → PartitionAssigner) (l : FleetLabel) (w w' : Fleet)

instance : Decidable (Manned fleet l) := inferInstanceAs (Decidable (∀ started ∈ refreshStarted l, _))

instance : Decidable (SparesLeases fleet l w) := by
  unfold SparesLeases
  split <;> infer_instance

theorem leasesLast_iff :
    LeasesLast fleet w ↔
      (∀ row ∈ w.state.store.partitions.rows, ∀ pid ∈ w.owned row.ownerInstanceId,
        row.partitionId = toString pid → w.clock < row.leaseUntil) ∧
      ∀ p ∈ w.log.map Entry.pid, ∀ key ∈ relied fleet p w.log, ∀ row ∈ w.assignment key,
        row.ownerInstanceId = (fleet p).instanceId → w.clock < row.leaseUntil := by
  constructor
  · exact fun last => ⟨last.owned, fun p _ => last.relied p⟩
  · rintro ⟨owned, relies⟩
    refine ⟨owned, ?_⟩
    exact (forall_track (Q := fun p keys => ∀ key ∈ keys, ∀ row ∈ w.assignment key,
      row.ownerInstanceId = (fleet p).instanceId → w.clock < row.leaseUntil) fun _ _ inside => by cases inside).mpr relies

instance : Decidable (LeasesLast fleet w) := decidable_of_iff' _ (leasesLast_iff fleet w)

instance : Decidable (LeasesKept fleet l w w') :=
  decidable_of_iff (Manned fleet l ∧ SparesLeases fleet l w ∧ LeasesLast fleet w')
    ⟨fun ⟨manned, spares, last⟩ => ⟨manned, spares, last⟩, fun kept => ⟨kept.manned, kept.spares, kept.last⟩⟩

end Decidable

/-- Assigners of two partitions. -/
def pairFleet (p : Nat) : PartitionAssigner := ⟨instanceName p, 2, by decide, by decide, none⟩

/-- Nothing is assigned yet. -/
def unassigned : State := ⟨Store.new, seconds 60, fun _ => []⟩

/-- Task `p` makes `n` calls. -/
def refreshes (p n : Nat) : List FleetChoice := List.replicate n (.call p ())

/-- Both want both partitions; each takes one of them before the other comes to it. -/
def taken : List FleetChoice :=
  .start 0 (pairFleet 0) :: .start 1 (pairFleet 1) :: (refreshes 0 12 ++ refreshes 1 11 ++ refreshes 0 3)

/-- A schedule that can be played from `unassigned` is a run, and ends as the test says. -/
theorem exists_fleet_run (P : FleetLabel → Fleet → Fleet → Prop) [∀ l w w', Decidable (P l w w')] (choices : List FleetChoice)
    (test : FleetConfig → Bool) (played : (assigners.play P choices (.idle (.fresh unassigned))).any test = true) :
    ∃ c, assigners.Reach P (.idle (.fresh unassigned)) c ∧ test c = true :=
  Machine.Reach.of_play_any played

theorem leases_shared :
    ∃ c, assigners.Reach (LeasesKept pairFleet) (.idle (.fresh unassigned)) c ∧
      0 ∈ c.world.owned (pairFleet 0).instanceId ∧ 1 ∈ c.world.owned (pairFleet 1).instanceId ∧
      0 ∉ c.world.owned (pairFleet 1).instanceId := by
  obtain ⟨c, reach, owned⟩ := exists_fleet_run (LeasesKept pairFleet) taken
    (fun c => decide (0 ∈ c.world.owned (pairFleet 0).instanceId ∧ 1 ∈ c.world.owned (pairFleet 1).instanceId))
    (by decide +kernel)
  rw [decide_eq_true_iff] at owned
  have plain : unassigned.store.PlainPartitionIds := fun row inside => by cases inside
  refine ⟨c, reach, owned.1, owned.2, ?_⟩
  exact partition_leases_exclusive instanceName_injective plain (fun _ => rfl) reach 0 1 (by decide) 0 owned.1

/-- Both find a partition free before either writes its lease. -/
def crossing : List FleetChoice :=
  .start 0 (pairFleet 0) :: .start 1 (pairFleet 1) :: (refreshes 0 11 ++ refreshes 1 7 ++ refreshes 0 5 ++ refreshes 1 4)

/-- Then both own it, in no time. -/
theorem leases_cross :
    ∃ c, assigners.Reach (fun l w w' => Manned pairFleet l ∧ w'.clock = w.clock) (.idle (.fresh unassigned)) c ∧
      0 ∈ c.world.owned (pairFleet 0).instanceId ∧ 0 ∈ c.world.owned (pairFleet 1).instanceId := by
  obtain ⟨c, reach, owned⟩ := exists_fleet_run (fun l w w' => Manned pairFleet l ∧ w'.clock = w.clock) crossing
    (fun c => decide (0 ∈ c.world.owned (pairFleet 0).instanceId ∧ 0 ∈ c.world.owned (pairFleet 1).instanceId))
    (by decide +kernel)
  rw [decide_eq_true_iff] at owned
  exact ⟨c, reach, owned⟩

end Chronon
