import Chronon.Leader.Office

/-!
# What a deposed leader still enqueues

The flag is read between two ticks and the owned partitions at the start of one.
A demotion that arrives later does not stop the tick, which goes through its due
list to the end. So a run that a tick creates says that the instance was in
office when the tick began, not that it is still.

The tick loop of an instance is one task, as its elector is, and every run that
this task inserts is a run that a tick creates.
-/

namespace Chronon
set_option autoImplicit false

open Concurrent

/-- The instance whose tick a task runs. -/
def CoordProc.ticks : CoordProc → Option String
  | .coordinate instanceId _ | .base (.tick instanceId _) => some instanceId
  | _ => none

/-- The tick loops: the task that runs the ticks of an instance, one after the other, runs nothing else. -/
def Posted (posts : Nat → Option String) : ClusterLabel → Prop
  | .start p proc => proc.ticks = posts p
  | _ => True

instance (posts : Nat → Option String) (l : ClusterLabel) : Decidable (Posted posts l) :=
  match l with
  | .start p proc => inferInstanceAs (Decidable (proc.ticks = posts p))
  | .call _ _ _ => .isTrue trivial
  | .env _ => .isTrue trivial

/-- What a tick found when it read the owned partitions of its instance. -/
structure TickReading where
  instanceId : String
  owned : List Nat
  inOffice : Bool

/-- The reading of a tick after one of its calls; a pass begins with a look at the flag. -/
def readingAfter (e : CoordEntry) (last : Option TickReading) : Option TickReading :=
  match e with
  | ⟨_, found, .base (.ownedPartitions i), owned⟩ => some ⟨i, owned, found.seats.office i⟩
  | ⟨_, _, .loadLeader _, _⟩ => none
  | _ => last

/-- The reading of the tick that task `p` is in. -/
def ticking (p : Nat) (log : CoordLog) : Option TickReading := track readingAfter none p log

/-- The row a call inserts. -/
def insertedRow : CoordOp → Option Run
  | .base (.store (.createRun run)) => some run
  | _ => none

/-- The instance owned partitions and was in office. -/
structure TickReading.Legitimate (i : String) (reading : TickReading) : Prop where
  own : reading.instanceId = i
  owns : reading.owned ≠ []
  inOffice : reading.inOffice = true

/-- Every run that the tick loop of an instance has created comes from a tick that has read the owned partitions of this
instance and began in office. -/
def TicksInOffice (posts : Nat → Option String) : CoordLog → Prop
  | [] => True
  | e :: older => ((insertedRow e.op).isSome = true → ∀ i ∈ posts e.pid, ∃ reading ∈ ticking e.pid older,
      reading.Legitimate i) ∧ TicksInOffice posts older

/-- A tick that has read some partitions and goes on. -/
def Phase.inTick : Phase → Bool
  | .owning _ _ | .tickOpened _ _ _ => true
  | φ => φ.batch.isSome

/-- Where the tick loop of instance `i` can be, with this reading. -/
inductive OnPost (i : String) (last : Option TickReading) : CoordPhase → Prop
  | pending : OnPost i last (.coordinating i)
  | opening : OnPost i last (.base (.ticking i))
  | done : OnPost i last (.base .ticked)
  | inTick {φ : Phase} (reading : TickReading) : φ.inTick = true → last = some reading → reading.Legitimate i →
      OnPost i last (.base φ)

section Step

variable {env : CoordHost} {seats : Nat → String} {posts : Nat → Option String} {p q : Nat} {i : String}
  {oracle : CoordOracle} {w w' : Cluster} {φ φ' : CoordPhase} {op : CoordOp} {r : CoordAns op}

/-- An instance that owns partitions is in office. -/
theorem OfficeInv.reading {owned : List Nat} (inv : OfficeInv env w)
    (ran : w.exec env p oracle (.base (.ownedPartitions i)) = some (owned, w')) (some_ : owned ≠ []) :
    w.seats.office i = true := by
  obtain ⟨applied, performed, -⟩ := exec_base ran
  rcases performBase_cases performed with ⟨o, performed, -⟩ | ⟨c, e, same, -, -⟩
  · have answered := (perform_cases performed).1
    simp only [answer, Option.some.injEq, Prod.mk.injEq] at answered
    refine inv.office i (.inl ?_)
    rw [Cluster.owned, answered.1]
    exact some_
  · cases same

/-- A silent call reads no partitions. -/
theorem Silent.reads_nothing {op : Op} (quiet : Silent op) (i : String) : op ≠ .ownedPartitions i := by
  rintro rfl
  exact quiet

/-- A tick that goes on goes through its due list, and reads its partitions no more. -/
theorem Move.inTick {host : Host} {φ φ' : Phase} {op : Op} {r : Ans op} (move : Move host φ op r φ')
    (inTick : φ.inTick = true) : (φ'.inTick = true ∨ φ' = .ticked) ∧ ∀ i, op ≠ .ownedPartitions i := by
  cases move with
  | silent quiet => exact ⟨.inl inTick, quiet.reads_nothing⟩
  | listFailed => exact ⟨.inr rfl, by rintro i ⟨⟩⟩
  | misfired | admitted | create | createFailed =>
    refine ⟨.inl ?_, by rintro i ⟨⟩⟩
    split <;> rfl
  | openTick | list | openJob | name | claim | claimRefused | load | loadMissing | loadFailed | atLimit | once | onceRefused
  | draw | undo | mark | persist | release | skipMark | skipPersist | skipRelease =>
    exact ⟨.inl rfl, by rintro i ⟨⟩⟩
  | _ => cases inTick

/-- The tick loop stays on its post: it reads the partitions of its instance, and a tick that finds some is legitimate. -/
theorem OnPost.own (onPost : OnPost i (ticking p w.log) φ) (inv : OfficeInv env w) (move : CoordMove env φ op r φ')
    (ran : w.exec env p oracle op = some (r, w')) : OnPost i (ticking p w'.log) φ' := by
  have own : ticking p w'.log = readingAfter ⟨p, w.snapshot, op, r⟩ (ticking p w.log) := by
    rw [(exec_cases ran).2]
    exact track_own rfl
  rw [own]
  cases onPost with
  | pending =>
    cases move with
    | coordinate => exact .opening
    | standBy => exact .done
  | opening =>
    cases move with
    | base move =>
      cases move with
      | silent quiet => exact .opening
      | own some_ => exact .inTick _ rfl rfl ⟨rfl, some_, inv.reading ran some_⟩
      | ownNone => exact .done
  | done =>
    cases move with
    | base move =>
      cases move with
      | silent quiet => exact .done
  | inTick reading goesOn isLast legitimate =>
    cases move with
    | @base _ _ op _ move =>
      obtain ⟨still | rfl, silent⟩ := move.inTick goesOn
      · refine .inTick reading still ?_ legitimate
        cases op with
        | ownedPartitions i => exact absurd rfl (silent i)
        | _ => exact isLast
      · exact .done

/-- Only a tick that has read some partitions inserts runs. -/
theorem OnPost.created (onPost : OnPost i (ticking p w.log) φ) (move : CoordMove env φ op r φ')
    (creates : (insertedRow op).isSome = true) : ∃ reading ∈ ticking p w.log, reading.Legitimate i := by
  have unsilent {op : Op} (quiet : Silent op) : insertedRow (.base op) = none := by
    cases op with
    | store c => cases c <;> first | exact quiet.elim | rfl
    | _ => rfl
  cases onPost with
  | pending => cases move <;> cases creates
  | opening =>
    cases move with
    | base move =>
      cases move with
      | silent quiet =>
        rw [unsilent quiet] at creates
        cases creates
      | own | ownNone => cases creates
  | done =>
    cases move with
    | base move =>
      cases move with
      | silent quiet =>
        rw [unsilent quiet] at creates
        cases creates
  | inTick reading _ isLast legitimate => exact ⟨reading, isLast, legitimate⟩

theorem OnPost.start {proc : CoordProc} {last : Option TickReading} (ticks : proc.ticks = some i) :
    OnPost i last proc.phase := by
  cases proc with
  | coordinate j _ =>
    cases ticks
    exact .pending
  | base proc =>
    cases proc with
    | tick j _ =>
      cases ticks
      exact .opening
    | _ => cases ticks
  | _ => cases ticks

end Step

/-- The rules behind legitimate ticks. -/
def deposedRules (env : CoordHost) {seats : Nat → String} (distinct : Function.Injective seats)
    (posts : Nat → Option String) :
    Rules (cluster env) (coordProtocol env) fun l _ _ => Seated seats l ∧ Posted posts l where
  inv w := OfficeInv env w ∧ TicksInOffice posts w.log
  guar q w w' := Elsewhere seats q w w' ∧ ∃ op r, w'.log = ⟨q, w.snapshot, op, r⟩ :: w.log
  idle _ _ := True
  holds p φ w := OfficeHolds seats p φ w ∧ ∀ i ∈ posts p, OnPost i (ticking p w.log) φ
  start _ _ allowed := ⟨.start allowed.1, fun _ isPost => .start (allowed.2.trans isPost)⟩
  finish _ _ _ := trivial
  own := by
    rintro p φ op r φ' oracle w w' ⟨inv, log⟩ ⟨holds, onPost⟩ move ran -
    have entry := (exec_cases ran).2
    refine ⟨⟨inv.step holds move ran, ?_⟩, ⟨holds.elsewhere move ran, op, r, entry⟩, holds.own move ran,
      fun i isPost => (onPost i isPost).own inv move ran⟩
    rw [entry]
    exact ⟨fun creates i isPost => (onPost i isPost).created move creates, log⟩
  other := by
    rintro p q φ w w' apart - - ⟨steps, op, r, entry⟩ ⟨holds, onPost⟩
    refine ⟨holds.other steps fun same => apart (distinct same), ?_⟩
    rw [entry, ticking, track_other (Ne.symm apart)]
    exact onPost
  otherIdle _ _ _ _ _ := trivial
  drift := by
    rintro e w w' ⟨inv, log⟩ drifts -
    have same := (drift_same drifts).2.2.2.2
    refine ⟨⟨inv.drift drifts, by rw [same]; exact log⟩, ?_, fun _ _ => trivial⟩
    rintro p φ ⟨holds, onPost⟩
    exact ⟨holds.drift drifts, by rw [same]; exact onPost⟩

/-- **Ticks begin in office.** However elections, failures and ticks are interleaved, every run that a tick creates comes
from a tick that has read the owned partitions of its own instance, and found some, between an acquire of the instance and
the demotion after it: a tick that begins after the demotion creates nothing until the instance acquires again. -/
theorem ticks_begin_in_office (env : CoordHost) {seats : Nat → String} (distinct : Function.Injective seats)
    {posts : Nat → Option String} {s : State} (unowned : ∀ i, s.owned i = []) {c : ClusterConfig}
    (reach : (cluster env).Reach (fun l _ _ => Seated seats l ∧ Posted posts l) (.idle (.fresh s)) c) :
    TicksInOffice posts c.world.log :=
  ((deposedRules env distinct posts).sound (coordProtocol_governs env)
    (Rules.Standing.initial (deposedRules env distinct posts) ⟨OfficeInv.fresh env unowned, trivial⟩ fun _ => trivial)
    reach).inv.2

/-- A coordinator pass of the leader up to its first `create_run`. -/
def tickUpToCreate (p : Nat) : List ClusterChoice :=
  .start p (.coordinate "c" false) :: accesses p 6 ++ [.call p (.base (.uuid "t"))] ++ accesses p 3

/-- The pass draws the identifier of its run and inserts it. -/
def createAfterwards (p : Nat) : List ClusterChoice := [.call p (.base (.uuid "r"))] ++ accesses p 1

/-- Task 2 is the tick loop of the first instance. -/
def secondTask (p : Nat) : Option String := if p = 2 then some "c" else none

/-- The newest call inserts a run, from the tick loop of an instance that the test is about. -/
def createdByTick (test : Snapshot → String → Bool) : CoordLog → Bool
  | [] => false
  | e :: _ => (insertedRow e.op).isSome && (secondTask e.pid).any (test e.found)

/-- A tick of the leader creates a run. -/
theorem ticks_begin_in_office_leading :
    ∃ c, (cluster .simple).Reach (fun l _ _ => Seated instanceName l ∧ Posted secondTask l)
        (.idle (.fresh (State.unowned minutelyJob (seconds 60)))) c ∧
      createdByTick (fun _ i => i == "c") c.world.log = true ∧ TicksInOffice secondTask c.world.log := by
  obtain ⟨c, reach, created⟩ := exists_cluster_run .simple (fun l _ _ => Seated instanceName l ∧ Posted secondTask l)
    (State.unowned minutelyJob (seconds 60)) (takeLead 0 ++ tickUpToCreate 2 ++ createAfterwards 2)
    (fun c => createdByTick (fun _ i => i == "c") c.world.log) (by decide +kernel)
  exact ⟨c, reach, created, ticks_begin_in_office .simple instanceName_injective (fun _ => rfl) reach⟩

/-- **A deposed leader finishes its tick.** While a tick of the leader is between its due list and its run, the lease
passes to another instance and the leader is demoted; the run is created all the same, with the flag down, no
partition owned and nothing acquired since. -/
theorem deposed_leader_enqueues :
    ∃ c, (cluster .simple).Reach (fun l _ _ => Seated instanceName l ∧ Posted secondTask l)
        (.idle (.fresh (State.unowned minutelyJob (seconds 60)))) c ∧
      createdByTick (fun found i => i == "c" && !found.seats.leading "c" &&
        (found.state.owned "c").isEmpty && !found.seats.office "c" && found.seats.leading "cc") c.world.log = true ∧
      (c.world.world.run "r").isSome = true := by
  obtain ⟨c, reach, created⟩ := exists_cluster_run .simple (fun l _ _ => Seated instanceName l ∧ Posted secondTask l)
    (State.unowned minutelyJob (seconds 60))
    (takeLead 0 ++ tickUpToCreate 2 ++ [.env (.advance (seconds 91))] ++ takeLead 1 ++
      (.start 0 (.elect "c") :: accesses 0 6) ++ createAfterwards 2)
    (fun c => createdByTick (fun found i => i == "c" && !found.seats.leading "c" &&
      (found.state.owned "c").isEmpty && !found.seats.office "c" && found.seats.leading "cc") c.world.log &&
      (c.world.world.run "r").isSome) (by decide +kernel)
  rw [Bool.and_eq_true] at created
  exact ⟨c, reach, created⟩

end Chronon
