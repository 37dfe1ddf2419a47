import Chronon.Leader.Cluster

/-!
# One live grant

Any number of electors step against one store, delayed and failing at any call.
A grant is live until the lease end it wrote; the row is at least as far, and
nobody takes the row before its end, so at most one grant is live. The flag and
the owned partitions follow the grants with delay, but they are only ever set
between a successful acquire and the demotion after it.
-/

namespace Chronon
set_option autoImplicit false

open Concurrent

/-! ## What an elector is doing -/

/-- Where a task stands. -/
inductive CoordPhase where
  /-- An election step that has not read the flag. -/
  | electing (instanceId : String)
  /-- A leader about to renew. -/
  | keeping (instanceId : String)
  | checking (instanceId : String)
  | judging (instanceId : String) (leader : SchedulerLeader)
  /-- A leader that is not confirmed gives up its partitions, then its flag. -/
  | demoting (instanceId : String)
  | lowering (instanceId : String)
  /-- A standby about to try. -/
  | campaigning (instanceId : String)
  /-- A successful standby takes the partitions, then raises its flag. -/
  | rising (instanceId : String)
  | raising (instanceId : String)
  /-- An election loop that was shut down. -/
  | closing (instanceId : String)
  | leaving (instanceId : String)
  | rested
  /-- A pass of the coordinator loop that has not read the flag. -/
  | coordinating (instanceId : String)
  /-- Any other task, and a coordinator past its flag. -/
  | base (φ : Phase)

namespace CoordPhase

/-- The instance whose elector this is. -/
def seat : CoordPhase → Option String
  | .electing i | .keeping i | .checking i | .judging i _ | .demoting i | .lowering i | .campaigning i | .rising i
  | .raising i | .closing i | .leaving i => some i
  | _ => none

def ended : CoordPhase → Prop
  | .rested => True
  | .base φ => φ.ended
  | _ => False

end CoordPhase

/-- Every way a call takes a task from phase to phase. -/
inductive CoordMove (env : CoordHost) : CoordPhase → (op : CoordOp) → CoordAns op → CoordPhase → Prop
  | base {φ φ' : Phase} {op : Op} {r : Ans op} : Move env.host φ op r φ' →
      CoordMove env (.base φ) (.base op) r (.base φ')
  | lead {i : String} : CoordMove env (.electing i) (.loadLeader i) true (.keeping i)
  | stand {i : String} : CoordMove env (.electing i) (.loadLeader i) false (.campaigning i)
  -- a leader
  | renew {i : String} {r : Result Unit} :
      CoordMove env (.keeping i) (.base (.store (.renewLeaderLease i (leaderTtlSecsFromEnv env)))) r (.checking i)
  | check {i : String} {leader : SchedulerLeader} :
      CoordMove env (.checking i) (.base (.store .getLeader)) (.ok (some leader)) (.judging i leader)
  | checkFailed {i : String} {r : Result (Option SchedulerLeader)} : (∀ leader, r ≠ .ok (some leader)) →
      CoordMove env (.checking i) (.base (.store .getLeader)) r (.demoting i)
  | confirm {i : String} {leader : SchedulerLeader} {now : DateTime} : leader.leaderLeaseUntil > now →
      leader.leaderInstanceId = i → CoordMove env (.judging i leader) (.base .utcNow) now .rested
  | depose {i : String} {leader : SchedulerLeader} {now : DateTime} :
      ¬(leader.leaderLeaseUntil > now ∧ leader.leaderInstanceId = i) →
      CoordMove env (.judging i leader) (.base .utcNow) now (.demoting i)
  | release {i : String} : CoordMove env (.demoting i) (.releaseAll i) () (.lowering i)
  | lower {i : String} : CoordMove env (.lowering i) (.storeLeader i false) () .rested
  -- a standby
  | win {i : String} :
      CoordMove env (.campaigning i) (.base (.store (.tryAcquireLeader i (leaderTtlSecsFromEnv env)))) (.ok true) (.rising i)
  | lose {i : String} {r : Result Bool} : r ≠ .ok true →
      CoordMove env (.campaigning i) (.base (.store (.tryAcquireLeader i (leaderTtlSecsFromEnv env)))) r .rested
  | assign {i : String} : CoordMove env (.rising i) (.assignAllEmbedded i) () (.raising i)
  | raise {i : String} : CoordMove env (.raising i) (.storeLeader i true) () .rested
  -- shutdown, and the coordinator loop
  | close {i : String} : CoordMove env (.closing i) (.loadLeader i) true (.leaving i)
  | closed {i : String} : CoordMove env (.closing i) (.loadLeader i) false .rested
  | leave {i : String} : CoordMove env (.leaving i) (.releaseAll i) () .rested
  | coordinate {i : String} : CoordMove env (.coordinating i) (.loadLeader i) true (.base (.ticking i))
  | standBy {i : String} : CoordMove env (.coordinating i) (.loadLeader i) false (.base .ticked)

def CoordProc.phase : CoordProc → CoordPhase
  | .elect i => .electing i
  | .shutDown i => .closing i
  | .coordinate i _ => .coordinating i
  | .base proc => .base proc.phase

def coordProtocol (env : CoordHost) : Protocol CoordOp CoordAns CoordProc CoordPhase where
  start := CoordProc.phase
  ended := CoordPhase.ended
  move := CoordMove env

/-! ## The programs follow the protocol -/

section Conformance

variable {env : CoordHost}

theorem base_follows {α : Type} {m : Task α} {φ : Phase} (follows : Follows (Move env.host) m φ fun _ ψ => ψ.ended) :
    Follows (CoordMove env) (Chronon.base m) (.base φ) fun _ ψ => ψ.ended := by
  refine (Follows.embed (g := CoordPhase.base) (fun _ _ _ _ move => .base move) follows).mono ?_
  rintro _ _ ⟨ψ, rfl, ended⟩
  exact ended

theorem amILeader_follows (i : String) :
    Follows (CoordMove env) (Chronon.base (amILeader i)) (.checking i) fun r ψ =>
      (r = .ok true ∧ ψ = .rested) ∨ (r ≠ .ok true ∧ ψ = .demoting i) := by
  intro row
  match row with
  | .error e => exact ⟨_, .checkFailed (by rintro _ ⟨⟩), .inr ⟨(by rintro ⟨⟩), rfl⟩⟩
  | .ok none => exact ⟨_, .checkFailed (by rintro _ ⟨⟩), .inr ⟨(by rintro ⟨⟩), rfl⟩⟩
  | .ok (some leader) =>
    refine ⟨_, .check, fun now => ?_⟩
    by_cases still : leader.leaderLeaseUntil > now ∧ leader.leaderInstanceId = i
    · refine ⟨_, .confirm still.1 still.2, .inl ⟨?_, rfl⟩⟩
      simp only [still.1, still.2, decide_true, beq_self_eq_true, Bool.and_self]
    · refine ⟨_, .depose still, .inr ⟨fun isTrue => still ?_, rfl⟩⟩
      simpa using Except.ok.inj isTrue

theorem keepLeading_follows (i : String) :
    Follows (CoordMove env) (LeaderElector.keepLeading env i) (.keeping i) fun _ ψ => ψ.ended := by
  intro renewed
  refine ⟨_, .renew, (amILeader_follows i).bind ?_⟩
  rintro r ψ (⟨rfl, rfl⟩ | ⟨unconfirmed, rfl⟩)
  · trivial
  · match r with
    | .ok true => exact absurd rfl unconfirmed
    | .ok false => exact fun _ => ⟨_, .release, fun _ => ⟨_, .lower, trivial⟩⟩
    | .error e => exact fun _ => ⟨_, .release, fun _ => ⟨_, .lower, trivial⟩⟩

theorem campaign_follows (i : String) :
    Follows (CoordMove env) (LeaderElector.campaign env i) (.campaigning i) fun _ ψ => ψ.ended := by
  intro r
  match r with
  | .ok true => exact ⟨_, .win, fun _ => ⟨_, .assign, fun _ => ⟨_, .raise, trivial⟩⟩⟩
  | .ok false => exact ⟨_, .lose (by rintro ⟨⟩), trivial⟩
  | .error e => exact ⟨_, .lose (by rintro ⟨⟩), trivial⟩

theorem stepOnce_follows (i : String) :
    Follows (CoordMove env) (LeaderElector.stepOnce env i) (.electing i) fun _ ψ => ψ.ended := by
  intro leads
  cases leads with
  | true => exact ⟨_, .lead, keepLeading_follows i⟩
  | false => exact ⟨_, .stand, campaign_follows i⟩

theorem shutDown_follows (i : String) :
    Follows (CoordMove env) (LeaderElector.shutDown i) (.closing i) fun _ ψ => ψ.ended := by
  intro leads
  cases leads with
  | true => exact ⟨_, .close, fun _ => ⟨_, .leave, trivial⟩⟩
  | false => exact ⟨_, .closed, trivial⟩

theorem coordinatorPass_follows (i : String) (draining : Bool) :
    Follows (CoordMove env) (coordinatorPass env i draining) (.coordinating i) fun _ ψ => ψ.ended := by
  intro leads
  cases leads with
  | true => exact ⟨_, .coordinate, (base_follows (runOneTick_follows i draining)).bind fun _ _ ended => ended⟩
  | false =>
    have slept : Follows (Move env.host) (sleep (milliseconds (tickIntervalMsFromEnv env.host.env))) .ticked
        fun _ φ => φ.ended := fun _ => ⟨_, .silent trivial, Phase.ended_ticked⟩
    exact ⟨_, .standBy, (base_follows slept).bind fun _ _ ended => ended⟩

theorem coordProtocol_governs (env : CoordHost) : (coordProtocol env).Governs (cluster env) := by
  intro proc
  cases proc with
  | elect i => exact stepOnce_follows i
  | shutDown i => exact shutDown_follows i
  | coordinate i draining => exact (coordinatorPass_follows i draining).done
  | base proc => exact base_follows (protocol_governs env.host proc)

end Conformance

/-! ## Grants and offices -/

/-- The other tasks write no leader row. -/
theorem Move.sparesLeader {host : Host} {φ φ' : Phase} {op : Op} {r : Ans op} (move : Move host φ op r φ') :
    op.sparesLeader = true := by
  cases move with
  | silent quiet =>
    cases op with
    | store c => cases c <;> first | rfl | exact quiet.elim
    | _ => rfl
  | _ => rfl

/-- The grants are covered by the leader row, and nobody leads or owns out of office. -/
structure OfficeInv (env : CoordHost) (w : Cluster) : Prop where
  grants : ∀ i until_, w.seats.grant i = some until_ → until_ ≤ w.world.clock + seconds (leaderTtlSecsFromEnv env)
  live : ∀ i until_, w.seats.grant i = some until_ → w.world.clock < until_ →
    ∃ row, w.leader = some row ∧ row.leaderInstanceId = i ∧ until_ ≤ row.leaderLeaseUntil
  office : ∀ i, w.owned i ≠ [] ∨ w.seats.leading i = true → w.seats.office i = true

/-- What a task asserts. -/
structure OfficeHolds (seats : Nat → String) (p : Nat) (φ : CoordPhase) (w : Cluster) : Prop where
  mine : ∀ i, φ.seat = some i → i = seats p
  released : ∀ i, φ = .lowering i → w.owned i = []
  won : ∀ i, φ = .rising i ∨ φ = .raising i → w.seats.office i = true

/-- What the elector of an instance leaves alone: the other instances. -/
structure Elsewhere (seats : Nat → String) (q : Nat) (w w' : Cluster) : Prop where
  owned : ∀ i, i ≠ seats q → w'.owned i = w.owned i
  office : ∀ i, i ≠ seats q → w'.seats.office i = w.seats.office i

section Step

variable {env : CoordHost} {seats : Nat → String} {p q : Nat} {i : String} {oracle : CoordOracle} {w w' : Cluster}
  {φ φ' : CoordPhase} {op : CoordOp} {r : CoordAns op}

/-- With another row and other grants, the offices are as they were or more. -/
theorem OfficeInv.office_more (inv : OfficeInv env w) (owned : w'.world.state.owned = w.world.state.owned)
    (leading : w'.seats.leading = w.seats.leading) (more : ∀ i, w.seats.office i = true → w'.seats.office i = true) :
    ∀ i, w'.owned i ≠ [] ∨ w'.seats.leading i = true → w'.seats.office i = true := by
  intro i holds
  rw [Cluster.owned, owned, leading] at holds
  exact more i (inv.office i holds)

theorem OfficeInv.same (inv : OfficeInv env w) (same : w.Same w') : OfficeInv env w' := by
  refine ⟨?_, ?_, inv.office_more same.owned (by rw [same.seats]) (by rw [same.seats]; exact fun _ => id)⟩
  · rw [same.seats, same.clock]
    exact inv.grants
  · rw [same.seats, same.clock, same.leader]
    exact inv.live

/-- A grant after a new one: the new one, or that of somebody else. -/
theorem granted_cases {grant : String → Option DateTime} {i j : String} {fresh until_ : DateTime}
    (granted : Function.update grant i (some fresh) j = some until_) :
    (j = i ∧ until_ = fresh) ∨ (j ≠ i ∧ grant j = some until_) := by
  by_cases own : j = i
  · subst own
    rw [Function.update_self, Option.some.injEq] at granted
    exact .inl ⟨rfl, granted.symm⟩
  · rw [Function.update_of_ne own] at granted
    exact .inr ⟨own, granted⟩

/-- A new grant ends a TTL from now. -/
theorem OfficeInv.granted (inv : OfficeInv env w) (i : String) {j : String} {until_ : DateTime}
    (granted : Function.update w.seats.grant i (some (w.world.clock + seconds (leaderTtlSecsFromEnv env))) j = some until_) :
    until_ ≤ w.world.clock + seconds (leaderTtlSecsFromEnv env) := by
  rcases granted_cases granted with ⟨-, rfl⟩ | ⟨-, before⟩
  · exact le_refl _
  · exact inv.grants j until_ before

theorem OfficeInv.acquire {answer : Result Bool} (inv : OfficeInv env w)
    (ran : w.exec env p oracle (.base (.store (.tryAcquireLeader i (leaderTtlSecsFromEnv env)))) = some (answer, w')) :
    OfficeInv env w' := by
  rcases exec_acquire ran with ⟨same, -⟩ | ⟨free, leader, clock, owned, seats⟩
  · exact inv.same same
  · -- a grant that was live names the row that was taken, so it is the taker's own
    have mine : ∀ j until_, w.seats.grant j = some until_ → w.world.clock < until_ → j = i := by
      intro j until_ granted live
      obtain ⟨row, found, named, covered⟩ := inv.live j until_ granted live
      rcases free row found with lapsed | own
      · exact absurd (lt_of_lt_of_le live covered) (not_lt.mpr lapsed)
      · exact named.symm.trans own
    rcases seats with ⟨seats, -⟩ | seats
    · refine ⟨?_, ?_, inv.office_more owned (by rw [seats]) (by rw [seats]; exact fun _ => id)⟩
      · rw [seats, clock]
        exact inv.grants
      · rw [seats, clock, leader]
        intro j until_ granted live
        exact ⟨_, rfl, (mine j until_ granted live).symm, inv.grants j until_ granted⟩
    · refine ⟨?_, ?_, inv.office_more owned (by rw [seats]) ?_⟩
      · rw [seats, clock]
        exact fun j until_ => inv.granted i
      · rw [seats, clock, leader]
        intro j until_ granted live
        rcases granted_cases granted with ⟨rfl, rfl⟩ | ⟨other, before⟩
        · exact ⟨_, rfl, rfl, le_refl _⟩
        · exact absurd (mine j until_ before live) other
      · rw [seats]
        intro j held
        by_cases own : j = i
        · subst own
          exact Function.update_self ..
        · simpa only [Function.update_of_ne own] using held

theorem OfficeInv.renew {answer : Result Unit} (inv : OfficeInv env w)
    (ran : w.exec env p oracle (.base (.store (.renewLeaderLease i (leaderTtlSecsFromEnv env)))) = some (answer, w')) :
    OfficeInv env w' := by
  rcases exec_renew ran with same | ⟨row, found, named, leader, clock, owned, seats⟩
  · exact inv.same same
  · refine ⟨?_, ?_, inv.office_more owned (by rw [seats]) (by rw [seats]; exact fun _ => id)⟩
    · rw [seats, clock]
      exact fun j until_ => inv.granted i
    · rw [seats, clock, leader]
      intro j until_ granted live
      rcases granted_cases granted with ⟨rfl, rfl⟩ | ⟨other, before⟩
      · exact ⟨_, rfl, named, le_refl _⟩
      · obtain ⟨row', found', named', -⟩ := inv.live j until_ before live
        rw [found] at found'
        cases found'
        exact absurd (named'.symm.trans named) other

theorem exec_loadLeader {leads : Bool} (ran : w.exec env p oracle (.loadLeader i) = some (leads, w')) : w.Same w' := by
  have answered := (exec_cases ran).1
  simp only [Cluster.answer, Option.some.injEq, Prod.mk.injEq] at answered
  obtain ⟨-, world, seats⟩ := answered
  exact ⟨by rw [Cluster.leader, ← world]; rfl, by rw [← world], by rw [← world], seats.symm⟩

/-- The owned partitions of one instance are replaced. -/
theorem exec_assigned {partitions : List Nat} (world : w.world.assign i partitions = w'.world)
    (seats : w.seats = w'.seats) :
    w'.leader = w.leader ∧ w'.world.clock = w.world.clock ∧ w'.owned i = partitions ∧
      (∀ j, j ≠ i → w'.owned j = w.owned j) ∧ w'.seats = w.seats := by
  refine ⟨by rw [Cluster.leader, ← world]; rfl, by rw [← world]; rfl, ?_, fun j other => ?_, seats.symm⟩
  · rw [Cluster.owned, ← world]
    exact Function.update_self ..
  · rw [Cluster.owned, ← world]
    exact Function.update_of_ne other ..

theorem OfficeInv.assigned {partitions : List Nat} (inv : OfficeInv env w)
    (world : w.world.assign i partitions = w'.world) (seats : w.seats = w'.seats)
    (allowed : partitions = [] ∨ w.seats.office i = true) : OfficeInv env w' := by
  obtain ⟨leader, clock, mine, others, same⟩ := exec_assigned world seats
  refine ⟨by rw [same, clock]; exact inv.grants, by rw [same, clock, leader]; exact inv.live, fun j holds => ?_⟩
  rw [same] at holds ⊢
  by_cases own : j = i
  · subst own
    rw [mine] at holds
    rcases holds with owns | leads
    · exact allowed.resolve_left owns
    · exact inv.office j (.inr leads)
  · rw [others j own] at holds
    exact inv.office j holds

theorem exec_stored {leads : Bool} (ran : w.exec env p oracle (.storeLeader i leads) = some ((), w')) :
    w'.world = w.world ∧ w'.seats = w.seats.store i leads := by
  have answered := (exec_cases ran).1
  simp only [Cluster.answer, Option.some.injEq, Prod.mk.injEq] at answered
  exact ⟨answered.2.1.symm, answered.2.2.symm⟩

/-- A flag is raised in office, and lowered once nothing is owned. -/
theorem OfficeInv.stored {leads : Bool} (inv : OfficeInv env w)
    (ran : w.exec env p oracle (.storeLeader i leads) = some ((), w'))
    (allowed : if leads then w.seats.office i = true else w.owned i = []) : OfficeInv env w' := by
  obtain ⟨world, seats⟩ := exec_stored ran
  refine ⟨by rw [seats, world]; exact inv.grants, by rw [seats, world, Cluster.leader, world]; exact inv.live,
    fun j holds => ?_⟩
  rw [seats, Cluster.owned, world] at holds
  rw [seats]
  cases leads with
  | true =>
    by_cases own : j = i
    · subst own
      exact allowed
    · simp only [Seats.store, Function.update_of_ne own] at holds ⊢
      exact inv.office j holds
  | false =>
    by_cases own : j = i
    · subst own
      rcases holds with owns | leads
      · exact absurd allowed owns
      · simp only [Seats.store, Function.update_self, Bool.false_eq_true] at leads
    · simp only [Seats.store, Function.update_of_ne own, Bool.false_eq_true, if_false] at holds ⊢
      exact inv.office j holds

theorem OfficeInv.step (inv : OfficeInv env w) (holds : OfficeHolds seats p φ w) (move : CoordMove env φ op r φ')
    (ran : w.exec env p oracle op = some (r, w')) : OfficeInv env w' := by
  cases move with
  | base move => exact inv.same (exec_spared ran move.sparesLeader)
  | lead | stand | close | closed | coordinate | standBy => exact inv.same (exec_loadLeader ran)
  | check | checkFailed _ | confirm _ _ | depose _ => exact inv.same (exec_spared ran rfl)
  | renew => exact inv.renew ran
  | win | lose _ => exact inv.acquire ran
  | release | leave =>
    have answered := (exec_cases ran).1
    simp only [Cluster.answer, Option.some.injEq, Prod.mk.injEq] at answered
    exact inv.assigned answered.2.1 answered.2.2 (.inl rfl)
  | assign =>
    have answered := (exec_cases ran).1
    simp only [Cluster.answer, Option.some.injEq, Prod.mk.injEq] at answered
    exact inv.assigned answered.2.1 answered.2.2 (.inr (holds.won _ (.inl rfl)))
  | lower => exact inv.stored ran (holds.released _ rfl)
  | raise => exact inv.stored ran (holds.won _ (.inr rfl))

theorem Elsewhere.of_same (same : w.Same w') : Elsewhere seats p w w' :=
  ⟨fun i _ => congrFun same.owned i, fun i _ => by rw [same.seats]⟩

theorem Elsewhere.of_assigned {partitions : List Nat} (world : w.world.assign (seats p) partitions = w'.world)
    (kept : w.seats = w'.seats) : Elsewhere seats p w w' := by
  obtain ⟨-, -, -, others, same⟩ := exec_assigned world kept
  exact ⟨others, fun i _ => by rw [same]⟩

/-- An elector changes nothing of the other instances. -/
theorem OfficeHolds.elsewhere (holds : OfficeHolds seats p φ w) (move : CoordMove env φ op r φ')
    (ran : w.exec env p oracle op = some (r, w')) : Elsewhere seats p w w' := by
  cases move with
  | base move => exact .of_same (exec_spared ran move.sparesLeader)
  | lead | stand | close | closed | coordinate | standBy => exact .of_same (exec_loadLeader ran)
  | check | checkFailed _ | confirm _ _ | depose _ => exact .of_same (exec_spared ran rfl)
  | renew =>
    rcases exec_renew ran with same | ⟨row, -, -, -, -, owned, seats⟩
    · exact .of_same same
    · exact ⟨fun i _ => congrFun owned i, fun i _ => by rw [seats]⟩
  | win | lose _ =>
    obtain rfl := holds.mine _ rfl
    rcases exec_acquire ran with ⟨same, -⟩ | ⟨-, -, -, owned, ⟨kept, -⟩ | seated⟩
    · exact .of_same same
    · exact ⟨fun i _ => congrFun owned i, fun i _ => by rw [kept]⟩
    · exact ⟨fun i _ => congrFun owned i, fun i other => by rw [seated]; exact Function.update_of_ne other ..⟩
  | release | leave | assign =>
    obtain rfl := holds.mine _ rfl
    have answered := (exec_cases ran).1
    simp only [Cluster.answer, Option.some.injEq, Prod.mk.injEq] at answered
    exact .of_assigned answered.2.1 answered.2.2
  | lower | raise =>
    obtain rfl := holds.mine _ rfl
    obtain ⟨world, stored⟩ := exec_stored ran
    refine ⟨fun i _ => by rw [Cluster.owned, world]; rfl, fun i other => ?_⟩
    rw [stored]
    simp [Seats.store, Function.update_of_ne other]

theorem OfficeHolds.own (holds : OfficeHolds seats p φ w) (move : CoordMove env φ op r φ')
    (ran : w.exec env p oracle op = some (r, w')) : OfficeHolds seats p φ' w' := by
  refine ⟨fun i seated => ?_, fun i lowers => ?_, fun i rises => ?_⟩
  · cases move with
    | base _ | confirm _ _ | lower | lose _ | raise | closed | leave | coordinate | standBy => cases seated
    | _ => exact holds.mine i seated
  · cases move with
    | release =>
      cases lowers
      have answered := (exec_cases ran).1
      simp only [Cluster.answer, Option.some.injEq, Prod.mk.injEq] at answered
      exact (exec_assigned answered.2.1 answered.2.2).2.2.1
    | _ => cases lowers
  · cases move with
    | win =>
      rcases rises with isPhase | isPhase <;> cases isPhase
      rcases exec_acquire ran with ⟨-, lost⟩ | ⟨-, -, -, -, ⟨-, lost⟩ | seated⟩
      · exact absurd rfl lost
      · exact absurd rfl lost
      · rw [seated]
        exact Function.update_self ..
    | assign =>
      rcases rises with isPhase | isPhase <;> cases isPhase
      have answered := (exec_cases ran).1
      simp only [Cluster.answer, Option.some.injEq, Prod.mk.injEq] at answered
      rw [← answered.2.2]
      exact holds.won i (.inl rfl)
    | _ => rcases rises with isPhase | isPhase <;> cases isPhase

theorem OfficeHolds.other (holds : OfficeHolds seats p φ w) (steps : Elsewhere seats q w w') (apart : seats p ≠ seats q) :
    OfficeHolds seats p φ w' := by
  refine ⟨holds.mine, fun i lowers => ?_, fun i rises => ?_⟩
  · have mine : i = seats p := holds.mine i (by rw [lowers]; rfl)
    rw [steps.owned i (by rwa [mine])]
    exact holds.released i lowers
  · have mine : i = seats p := holds.mine i (by rcases rises with rfl | rfl <;> rfl)
    rw [steps.office i (by rwa [mine])]
    exact holds.won i rises

theorem OfficeInv.drift {e : Env} (inv : OfficeInv env w) (drifts : w.drift e = some w') : OfficeInv env w' := by
  obtain ⟨leader, later, owned, same, -⟩ := drift_same drifts
  refine ⟨fun i until_ granted => ?_, fun i until_ granted live => ?_,
    inv.office_more owned (by rw [same]) (by rw [same]; exact fun _ => id)⟩
  · rw [same] at granted
    exact (inv.grants i until_ granted).trans (Int.add_le_add_right later _)
  · rw [same] at granted
    rw [leader]
    exact inv.live i until_ granted (lt_of_le_of_lt later live)

theorem OfficeHolds.drift {e : Env} (holds : OfficeHolds seats p φ w) (drifts : w.drift e = some w') :
    OfficeHolds seats p φ w' := by
  obtain ⟨-, -, owned, same, -⟩ := drift_same drifts
  refine ⟨holds.mine, fun i lowers => ?_, fun i rises => ?_⟩
  · rw [Cluster.owned, owned]
    exact holds.released i lowers
  · rw [same]
    exact holds.won i rises

theorem OfficeHolds.start {proc : CoordProc} (seated : Seated seats (.start p proc)) :
    OfficeHolds seats p proc.phase w := by
  refine ⟨fun i isSeat => ?_, fun i lowers => ?_, fun i rises => ?_⟩
  · cases proc with
    | elect j | shutDown j =>
      cases isSeat
      exact seated (p, i) rfl
    | _ => cases isSeat
  · cases proc <;> cases lowers
  · cases proc <;> rcases rises with isPhase | isPhase <;> cases isPhase

end Step

/-- The rules behind the one live grant. -/
def officeRules (env : CoordHost) {seats : Nat → String} (distinct : Function.Injective seats) :
    Rules (cluster env) (coordProtocol env) fun l _ _ => Seated seats l where
  inv := OfficeInv env
  guar := Elsewhere seats
  idle _ _ := True
  holds := OfficeHolds seats
  start _ _ seated := .start seated
  finish _ _ _ := trivial
  own inv holds move ran _ := ⟨inv.step holds move ran, holds.elsewhere move ran, holds.own move ran⟩
  other apart _ _ steps holds := holds.other steps fun same => apart (distinct same)
  otherIdle _ _ _ _ _ := trivial
  drift inv drifts _ := ⟨inv.drift drifts, fun _ _ holds => holds.drift drifts, fun _ _ => trivial⟩

theorem OfficeInv.fresh (env : CoordHost) {s : State} (unowned : ∀ i, s.owned i = []) : OfficeInv env (.fresh s) := by
  refine ⟨fun _ _ granted => (by cases granted), fun _ _ granted => (by cases granted), fun i holds => ?_⟩
  rcases holds with owns | leads
  · exact absurd (unowned i) owns
  · cases leads

theorem office_reachable (env : CoordHost) {seats : Nat → String} (distinct : Function.Injective seats) {s : State}
    (unowned : ∀ i, s.owned i = []) {c : ClusterConfig}
    (reach : (cluster env).Reach (fun l _ _ => Seated seats l) (.idle (.fresh s)) c) :
    (officeRules env distinct).Standing c :=
  (officeRules env distinct).sound (coordProtocol_governs env)
    (Rules.Standing.initial _ (OfficeInv.fresh env unowned) fun _ => trivial) reach

/-- **One live grant.** However the electors of distinct instances are interleaved, delayed and failed, at most one
grant is live; a leader with a live grant is the one the row names; and an instance owns partitions or has its flag up
only between an acquire and the demotion after it. So while every flagged instance renews in time, one is flagged. -/
theorem one_live_grant (env : CoordHost) {seats : Nat → String} (distinct : Function.Injective seats) {s : State}
    (unowned : ∀ i, s.owned i = []) {c : ClusterConfig}
    (reach : (cluster env).Reach (fun l _ _ => Seated seats l) (.idle (.fresh s)) c) :
    (∀ i j, c.world.Live i → c.world.Live j → i = j) ∧
      (∀ i, c.world.seats.leading i = true → c.world.Live i →
        ∃ row, c.world.leader = some row ∧ row.leaderInstanceId = i) ∧
      (∀ i, c.world.owned i ≠ [] ∨ c.world.seats.leading i = true → c.world.seats.office i = true) ∧
      ((∀ i, c.world.seats.leading i = true → c.world.Live i) →
        ∀ i j, c.world.seats.leading i = true → c.world.seats.leading j = true → i = j) := by
  have inv := (office_reachable env distinct unowned reach).inv
  have one : ∀ i j, c.world.Live i → c.world.Live j → i = j := by
    rintro i j ⟨until_, granted, live⟩ ⟨until_', granted', live'⟩
    obtain ⟨row, found, named, -⟩ := inv.live i until_ granted live
    obtain ⟨row', found', named', -⟩ := inv.live j until_' granted' live'
    rw [found] at found'
    cases found'
    exact named.symm.trans named'
  refine ⟨one, fun i _ granted => ?_, inv.office, fun timely i j leads leads' => one i j (timely i leads) (timely j leads')⟩
  obtain ⟨until_, granted, live⟩ := granted
  obtain ⟨row, found, named, -⟩ := inv.live i until_ granted live
  exact ⟨row, found, named⟩

/-- A leader sleeps through its lease and another one takes it: both are flagged, one grant is live. -/
theorem one_live_grant_slept :
    ∃ c, (cluster .simple).Reach (fun l _ _ => Seated instanceName l) (.idle (.fresh (State.unowned minutelyJob 0))) c ∧
      c.world.seats.leading "c" = true ∧ c.world.seats.leading "cc" = true ∧ c.world.Live "cc" ∧ ¬c.world.Live "c" := by
  obtain ⟨c, reach, ends⟩ := exists_cluster_run .simple (fun l _ _ => Seated instanceName l) (State.unowned minutelyJob 0)
    (takeLead 0 ++ [.env (.advance (seconds 31))] ++ takeLead 1)
    (fun c => c.world.seats.leading "c" && c.world.seats.leading "cc" &&
      (c.world.seats.grant "cc").any (c.world.world.clock < ·)) (by decide +kernel)
  simp only [Bool.and_eq_true] at ends
  obtain ⟨⟨first, second⟩, granted⟩ := ends
  obtain ⟨until_, isGrant, live⟩ := (Option.any_eq_true _ _).mp granted
  have lives : c.world.Live "cc" := ⟨until_, isGrant, of_decide_eq_true live⟩
  refine ⟨c, reach, first, second, lives, fun other => ?_⟩
  have same := (one_live_grant .simple instanceName_injective (fun _ => rfl) reach).1 _ _ other lives
  exact absurd same (by decide)

end Chronon
