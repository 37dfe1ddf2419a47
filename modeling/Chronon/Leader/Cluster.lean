import Chronon.Scheduler.Leader
import Chronon.System.Conformance

/-!
# Coordinators that elect a leader

The system of `System/Machine.lean` with election steps and coordinator passes
beside its tasks. Owned partitions are not assigned by the environment here: the
electors write them. A store call may fail, before it has taken effect or after.

Next to each instance's flag the world keeps what the results speak about: the
lease end its last grant wrote, and whether it is in office, that is, between a
successful acquire and the demotion that follows.
-/

namespace Chronon
set_option autoImplicit false

open Concurrent

/-- The flags of all instances, their grants, and who is in office. -/
structure Seats where
  leading : String → Bool
  grant : String → Option DateTime
  office : String → Bool

/-- No instance has taken a step. -/
def Seats.vacant : Seats := ⟨fun _ => false, fun _ => none, fun _ => false⟩

structure Snapshot where
  state : State
  seats : Seats

abbrev CoordEntry := Entry Snapshot CoordOp CoordAns

abbrev CoordLog := List CoordEntry

/-- The shared world, the seats, and the history of both. -/
structure Cluster where
  world : World
  seats : Seats
  log : CoordLog

namespace Cluster

def snapshot (w : Cluster) : Snapshot := ⟨w.world.state, w.seats⟩

/-- The partitions an instance owns. -/
def owned (w : Cluster) (instanceId : String) : List Nat := w.world.state.owned instanceId

/-- The leader row. -/
def leader (w : Cluster) : Option SchedulerLeader := w.world.store.leader

/-- The grant of an instance has not run out. -/
def Live (w : Cluster) (instanceId : String) : Prop := ∃ until_, w.seats.grant instanceId = some until_ ∧ w.world.clock < until_

def fresh (state : State) : Cluster := ⟨.fresh state, .vacant, []⟩

end Cluster

/-- What is not determined by the world. -/
inductive CoordOracle where
  | base (oracle : Oracle)
  | failing (applied : Bool) (e : ChrononError)

/-- The store after a failed call. -/
def storeAfter (applied : Bool) (clock : DateTime) (s : Store) (c : StoreCall) : Store :=
  if applied then (c.exec clock s).2 else s

/-- One call of a task, and whether it has taken effect. -/
def performBase (p : Nat) (oracle : CoordOracle) (w : World) (op : Op) : Option (Ans op × World × Bool) :=
  match oracle with
  | .base oracle =>
    match perform p oracle w op with
    | some (r, w') => some (r, w', true)
    | none => none
  | .failing applied e =>
    match op with
    | .store c =>
      some (.error e, ⟨{ w.state with store := storeAfter applied w.clock w.store c }, ⟨p, w.state, .store c, .error e⟩ :: w.log⟩,
        applied)
    | _ => none

/-- The grants and offices after a call: an acquire that answers `true` and a renewal that takes effect write a grant. -/
def Seats.after (seats : Seats) (found : World) (op : Op) (r : Ans op) (applied : Bool) : Seats :=
  match op, r with
  | .store (.tryAcquireLeader instanceId ttlSecs), .ok true =>
    { seats with
      grant := Function.update seats.grant instanceId (some (found.clock + seconds ttlSecs))
      office := Function.update seats.office instanceId true }
  | .store (.renewLeaderLease instanceId ttlSecs), _ =>
    if applied && found.store.leader.any (·.leaderInstanceId == instanceId) then
      { seats with grant := Function.update seats.grant instanceId (some (found.clock + seconds ttlSecs)) }
    else seats
  | _, _ => seats

/-- The seats after a flag is stored: lowering it ends the office. -/
def Seats.store (seats : Seats) (instanceId : String) (leads : Bool) : Seats :=
  { seats with
    leading := Function.update seats.leading instanceId leads
    office := if leads then seats.office else Function.update seats.office instanceId false }

/-- The world with other partitions owned by an instance. -/
def World.assign (w : World) (instanceId : String) (partitions : List Nat) : World :=
  { w with state := { w.state with owned := Function.update w.state.owned instanceId partitions } }

namespace Cluster

/-- The answer of a call, and the world and the seats after it. -/
def answer (env : CoordHost) (p : Nat) (oracle : CoordOracle) (w : Cluster) :
    (op : CoordOp) → Option (CoordAns op × World × Seats)
  | .base op =>
    match performBase p oracle w.world op with
    | some (r, world, applied) => some (r, world, w.seats.after w.world op r applied)
    | none => none
  | .loadLeader instanceId => some (w.seats.leading instanceId, w.world, w.seats)
  | .storeLeader instanceId leads => some ((), w.world, w.seats.store instanceId leads)
  | .assignAllEmbedded instanceId =>
    some ((), w.world.assign instanceId (List.range (numPartitionsFromEnv env.host.env)), w.seats)
  | .releaseAll instanceId => some ((), w.world.assign instanceId [], w.seats)

/-- Perform a call and record it. -/
def exec (env : CoordHost) (p : Nat) (oracle : CoordOracle) (w : Cluster) (op : CoordOp) :
    Option (CoordAns op × Cluster) :=
  match w.answer env p oracle op with
  | some (r, world, seats) => some (r, ⟨world, seats, ⟨p, w.snapshot, op, r⟩ :: w.log⟩)
  | none => none

/-- Time passes and the maps are reordered. -/
def drift (e : Env) (w : Cluster) : Option Cluster :=
  match e with
  | .assign _ _ => none
  | e =>
    match Chronon.drift e w.world with
    | some world => some { w with world }
    | none => none

end Cluster

/-- A task that can be started. -/
inductive CoordProc where
  | elect (instanceId : String)
  | shutDown (instanceId : String)
  | coordinate (instanceId : String) (draining : Bool)
  | base (proc : Proc)

def CoordProc.code (env : CoordHost) : CoordProc → CoordTask Unit
  | .elect instanceId => LeaderElector.stepOnce env instanceId
  | .shutDown instanceId => LeaderElector.shutDown instanceId
  | .coordinate instanceId draining => (coordinatorPass env instanceId draining).done
  | .base proc => Chronon.base (proc.code env.host)

/-- Electors, coordinators and all other tasks over one store. -/
def cluster (env : CoordHost) : Machine CoordOp CoordAns Cluster CoordProc CoordOracle Env where
  code := CoordProc.code env
  exec := Cluster.exec env
  drift := Cluster.drift

abbrev ClusterConfig := Config CoordOp CoordAns Cluster

abbrev ClusterLabel := Label CoordOp CoordAns CoordProc Env

/-- The instance whose elector a step starts. -/
def electorStarted : ClusterLabel → Option (Nat × String)
  | .start p (.elect instanceId) => some (p, instanceId)
  | .start p (.shutDown instanceId) => some (p, instanceId)
  | _ => none

/-- The elector of an instance is one task, which takes its steps one after the other. -/
def Seated (seats : Nat → String) (l : ClusterLabel) : Prop := ∀ started ∈ electorStarted l, started.2 = seats started.1

instance (seats : Nat → String) (l : ClusterLabel) : Decidable (Seated seats l) :=
  inferInstanceAs (Decidable (∀ started ∈ electorStarted l, _))

/-! ## Small deployments and schedules -/

/-- The default TTL. -/
def CoordHost.simple : CoordHost := ⟨.simple, none⟩

/-- One job, and nobody owns a partition. -/
def State.unowned (job : Job) (clock : DateTime) : State := { State.single job clock with owned := fun _ => [] }

/-- Names for the instances. -/
def instanceName (n : Nat) : String := String.ofList (List.replicate (n + 1) 'c')

theorem instanceName_injective : Function.Injective instanceName := by
  intro m n same
  simpa [instanceName] using congrArg String.length same

abbrev ClusterChoice := Choice CoordProc CoordOracle Env

/-- `n` calls of task `p` that need no oracle. -/
def accesses (p n : Nat) : List ClusterChoice := List.replicate n (.call p (.base .quiet))

/-- Elector `p` takes the lead. -/
def takeLead (p : Nat) : List ClusterChoice := .start p (.elect (instanceName p)) :: accesses p 4

/-- A schedule that can be played from `s` is a run, and ends as the test says. -/
theorem exists_cluster_run (env : CoordHost) (P : ClusterLabel → Cluster → Cluster → Prop)
    [∀ l w w', Decidable (P l w w')] (s : State) (choices : List ClusterChoice) (test : ClusterConfig → Bool)
    (played : ((cluster env).play P choices (.idle (.fresh s))).any test = true) :
    ∃ c, (cluster env).Reach P (.idle (.fresh s)) c ∧ test c = true :=
  Machine.Reach.of_play_any played

/-! ## What a call does -/

/-- A call that does not write the leader row. -/
def StoreCall.sparesLeader : StoreCall → Bool
  | .tryAcquireLeader _ _ | .renewLeaderLease _ _ => false
  | _ => true

theorem Store.leader_mutateJobAt (s : Store) (jobId : String) (now : DateTime) (f : Job → Job) :
    (s.mutateJobAt jobId now f).2.leader = s.leader := by
  unfold mutateJobAt
  split <;> rfl

/-- The leader row is only written by the leader calls. -/
theorem StoreCall.leader_exec {c : StoreCall} (spares : c.sparesLeader = true) (clock : DateTime) (s : Store) :
    (c.exec clock s).2.leader = s.leader := by
  cases c with
  | tryAcquireLeader _ _ | renewLeaderLease _ _ => cases spares
  | pauseJob _ | resumeJob _ | markRunOnceCompleted _ _ | releaseRunOnceClaim _ _ _ | releaseJobTickClaim _
  | persistPostTickJobState _ _ => exact Store.leader_mutateJobAt s _ _ _
  | upsertJob job =>
    simp only [exec, Store.upsertJob, Store.writeJob]
    split
    · split <;> rfl
    · rfl
  | deleteJob jobId =>
    simp only [exec, Store.deleteJob, Store.removeJob]
    split <;> rfl
  | updateRun run =>
    simp only [exec, Store.updateRun]
    split <;> rfl
  | claimNextQueued poolId workerId now ttl =>
    simp only [exec, Store.claimNextQueued]
    split <;> rfl
  | claimRunById runId poolId workerId now ttl =>
    simp only [exec, Store.claimRunById]
    split
    · rfl
    · split <;> rfl
  | renewRunLease runId workerId now ttl =>
    simp only [exec, Store.renewRunLease]
    split
    · rfl
    · split
      · rfl
      · split <;> rfl
  | tryClaimRunOnce jobId claimedBy now ttl =>
    simp only [exec, Store.tryClaimRunOnce]
    split
    · rfl
    · split
      · rfl
      · split <;> rfl
  | claimJobForTick jobId claimId now ttl =>
    simp only [exec, Store.claimJobForTick]
    split
    · rfl
    · split
      · rfl
      · split <;> rfl
  | heartbeatWorker workerId at' =>
    simp only [exec, Store.heartbeatWorker]
    split <;> rfl
  | _ => rfl

theorem Store.tryAcquireLeader_cases (s : Store) (clock : DateTime) (i : String) (ttl : Int) :
    s.tryAcquireLeader clock i ttl = (.ok false, s) ∨
      (∀ row, s.leader = some row → row.leaderLeaseUntil ≤ clock ∨ row.leaderInstanceId = i) ∧
        s.tryAcquireLeader clock i ttl =
          (.ok true, { s with leader := some ⟨leaderRowId, i, clock + seconds ttl, clock⟩ }) := by
  unfold tryAcquireLeader
  split
  · rename_i row found
    split
    · exact .inl rfl
    · rename_i free
      refine .inr ⟨fun row' found' => ?_, rfl⟩
      rw [found] at found'
      cases found'
      by_cases mine : row.leaderInstanceId = i
      · exact .inr mine
      · exact .inl (not_lt.mp fun live => free ⟨live, mine⟩)
  · rename_i vacant
    refine .inr ⟨fun row found => ?_, rfl⟩
    rw [vacant] at found
    cases found

theorem Store.renewLeaderLease_cases (s : Store) (clock : DateTime) (i : String) (ttl : Int) :
    ((∀ row, s.leader = some row → row.leaderInstanceId ≠ i) ∧ s.renewLeaderLease clock i ttl = (.ok (), s)) ∨
      ∃ row, s.leader = some row ∧ row.leaderInstanceId = i ∧ s.renewLeaderLease clock i ttl =
        (.ok (), { s with
          leader := some { row with leaderLeaseUntil := clock + seconds ttl, lastHeartbeatAt := clock } }) := by
  unfold renewLeaderLease
  split
  · rename_i vacant
    refine .inl ⟨fun row found => ?_, rfl⟩
    rw [vacant] at found
    cases found
  · rename_i row found
    split
    · rename_i other
      refine .inl ⟨fun row' found' => ?_, rfl⟩
      rw [found] at found'
      cases found'
      exact other
    · rename_i mine
      exact .inr ⟨row, found, not_not.mp mine, rfl⟩

theorem performBase_cases {p : Nat} {oracle : CoordOracle} {w w' : World} {op : Op} {r : Ans op} {applied : Bool}
    (ran : performBase p oracle w op = some (r, w', applied)) :
    (∃ o, perform p o w op = some (r, w') ∧ applied = true) ∨
      ∃ c e, op = .store c ∧ HEq r (Except.error e : Result c.Ret) ∧
        w' = ⟨{ w.state with store := storeAfter applied w.clock w.store c }, ⟨p, w.state, op, r⟩ :: w.log⟩ := by
  unfold performBase at ran
  cases oracle with
  | base o =>
    simp only at ran
    split at ran
    · rename_i ran'
      cases ran
      exact .inl ⟨o, ran', rfl⟩
    · cases ran
  | failing applied' e =>
    cases op with
    | store c =>
      cases ran
      exact .inr ⟨c, e, rfl, .rfl, rfl⟩
    | _ => cases ran

/-- A store call of a task, answered or failed. -/
theorem performBase_store {p : Nat} {oracle : CoordOracle} {w w' : World} {c : StoreCall} {r : Result c.Ret}
    {applied : Bool} (ran : performBase p oracle w (.store c) = some (r, w', applied)) :
    w'.store = storeAfter applied w.clock w.store c ∧ w'.clock = w.clock ∧ w'.state.owned = w.state.owned ∧
      (((c.exec w.clock w.store).1 = r ∧ applied = true) ∨ ∃ e, r = .error e) := by
  rcases performBase_cases ran with ⟨o, performed, rfl⟩ | ⟨c', e, same, failed, rfl⟩
  · have answered := (perform_cases performed).1
    simp only [answer, Option.some.injEq, Prod.mk.injEq] at answered
    obtain ⟨rfl, state⟩ := answered
    have clock := congrArg State.clock state
    have owned := congrArg State.owned state
    exact ⟨congrArg State.store state.symm, clock.symm, owned.symm, .inl ⟨rfl, rfl⟩⟩
  · cases same
    exact ⟨rfl, rfl, rfl, .inr ⟨e, eq_of_heq failed⟩⟩

/-- A call that writes no leader row. -/
def Op.sparesLeader : Op → Bool
  | .store c => c.sparesLeader
  | _ => true

theorem Seats.after_spared {seats : Seats} {found : World} {op : Op} {r : Ans op} {applied : Bool}
    (spares : op.sparesLeader = true) : seats.after found op r applied = seats := by
  cases op with
  | store c => cases c <;> first | rfl | cases spares
  | _ => rfl

theorem exec_cases {env : CoordHost} {p : Nat} {oracle : CoordOracle} {w w' : Cluster} {op : CoordOp} {r : CoordAns op}
    (ran : w.exec env p oracle op = some (r, w')) :
    w.answer env p oracle op = some (r, w'.world, w'.seats) ∧ w'.log = ⟨p, w.snapshot, op, r⟩ :: w.log := by
  unfold Cluster.exec at ran
  split at ran
  · rename_i answered
    cases ran
    exact ⟨answered, rfl⟩
  · cases ran

theorem exec_base {env : CoordHost} {p : Nat} {oracle : CoordOracle} {w w' : Cluster} {op : Op} {r : Ans op}
    (ran : w.exec env p oracle (.base op) = some (r, w')) :
    ∃ applied, performBase p oracle w.world op = some (r, w'.world, applied) ∧
      w'.seats = w.seats.after w.world op r applied := by
  have answered := (exec_cases ran).1
  simp only [Cluster.answer] at answered
  split at answered
  · rename_i performed
    simp only [Option.some.injEq, Prod.mk.injEq] at answered
    obtain ⟨rfl, rfl, seats⟩ := answered
    exact ⟨_, performed, seats.symm⟩
  · cases answered

/-- What no call but those of the electors changes. -/
structure Cluster.Same (w w' : Cluster) : Prop where
  leader : w'.leader = w.leader
  clock : w'.world.clock = w.world.clock
  owned : w'.world.state.owned = w.world.state.owned
  seats : w'.seats = w.seats

theorem exec_spared {env : CoordHost} {p : Nat} {oracle : CoordOracle} {w w' : Cluster} {op : Op} {r : Ans op}
    (ran : w.exec env p oracle (.base op) = some (r, w')) (spares : op.sparesLeader = true) : w.Same w' := by
  obtain ⟨applied, performed, seats⟩ := exec_base ran
  rw [Seats.after_spared spares] at seats
  cases op with
  | store c =>
    obtain ⟨store, clock, owned, -⟩ := performBase_store performed
    refine ⟨?_, clock, owned, seats⟩
    rw [Cluster.leader, store, storeAfter]
    split
    · exact StoreCall.leader_exec spares _ _
    · rfl
  | _ =>
    rcases performBase_cases performed with ⟨o, performed, -⟩ | ⟨c, e, same, -, -⟩
    · have state := answer_other (perform_cases performed).1 (by intro c isStore; cases isStore)
      exact ⟨congrArg (·.store.leader) state, congrArg State.clock state, congrArg State.owned state, seats⟩
    · cases same

/-- An acquire is lost without a trace, or takes the row if it was free; an answer of `true` makes it a grant. -/
theorem exec_acquire {env : CoordHost} {p : Nat} {oracle : CoordOracle} {w w' : Cluster} {i : String} {ttl : Int}
    {r : Result Bool} (ran : w.exec env p oracle (.base (.store (.tryAcquireLeader i ttl))) = some (r, w')) :
    (w.Same w' ∧ r ≠ .ok true) ∨
      (∀ row, w.leader = some row → row.leaderLeaseUntil ≤ w.world.clock ∨ row.leaderInstanceId = i) ∧
        w'.leader = some ⟨leaderRowId, i, w.world.clock + seconds ttl, w.world.clock⟩ ∧
        w'.world.clock = w.world.clock ∧ w'.world.state.owned = w.world.state.owned ∧
        ((w'.seats = w.seats ∧ r ≠ .ok true) ∨
          w'.seats = { w.seats with
            grant := Function.update w.seats.grant i (some (w.world.clock + seconds ttl))
            office := Function.update w.seats.office i true }) := by
  obtain ⟨applied, performed, seats⟩ := exec_base ran
  obtain ⟨store, clock, owned, answered⟩ := performBase_store performed
  have leader : w'.leader = (storeAfter applied w.world.clock w.world.store (.tryAcquireLeader i ttl)).leader :=
    congrArg Store.leader store
  have refused : ∀ e, r = .error e → r ≠ .ok true := by
    rintro e rfl isTrue
    cases isTrue
  have unseated : ∀ e, r = .error e → w'.seats = w.seats := by
    rintro e rfl
    exact seats
  cases applied with
  | false =>
    rcases answered with ⟨-, absurd_⟩ | ⟨e, failed⟩
    · cases absurd_
    · exact .inl ⟨⟨leader, clock, owned, unseated e failed⟩, refused e failed⟩
  | true =>
    simp only [storeAfter, if_true, StoreCall.exec] at leader answered
    rcases Store.tryAcquireLeader_cases w.world.store w.world.clock i ttl with lost | ⟨free, won⟩
    · rw [lost] at leader answered
      rcases answered with ⟨rfl, -⟩ | ⟨e, failed⟩
      · exact .inl ⟨⟨leader, clock, owned, seats⟩, fun isTrue => by cases isTrue⟩
      · exact .inl ⟨⟨leader, clock, owned, unseated e failed⟩, refused e failed⟩
    · rw [won] at leader answered
      refine .inr ⟨free, leader, clock, owned, ?_⟩
      rcases answered with ⟨rfl, -⟩ | ⟨e, failed⟩
      · exact .inr seats
      · exact .inl ⟨unseated e failed, refused e failed⟩

/-- A renewal does nothing, or extends the row of its instance and with it the grant. -/
theorem exec_renew {env : CoordHost} {p : Nat} {oracle : CoordOracle} {w w' : Cluster} {i : String} {ttl : Int}
    {r : Result Unit} (ran : w.exec env p oracle (.base (.store (.renewLeaderLease i ttl))) = some (r, w')) :
    w.Same w' ∨ ∃ row, w.leader = some row ∧ row.leaderInstanceId = i ∧
      w'.leader = some { row with leaderLeaseUntil := w.world.clock + seconds ttl, lastHeartbeatAt := w.world.clock } ∧
      w'.world.clock = w.world.clock ∧ w'.world.state.owned = w.world.state.owned ∧
      w'.seats = { w.seats with grant := Function.update w.seats.grant i (some (w.world.clock + seconds ttl)) } := by
  obtain ⟨applied, performed, seats⟩ := exec_base ran
  obtain ⟨store, clock, owned, -⟩ := performBase_store performed
  have leader : w'.leader = (storeAfter applied w.world.clock w.world.store (.renewLeaderLease i ttl)).leader :=
    congrArg Store.leader store
  simp only [Seats.after, Bool.and_eq_true] at seats
  cases applied with
  | false => exact .inl ⟨leader, clock, owned, by rw [seats, if_neg]; rintro ⟨absurd_, -⟩; cases absurd_⟩
  | true =>
    simp only [storeAfter, if_true, StoreCall.exec] at leader
    rcases Store.renewLeaderLease_cases w.world.store w.world.clock i ttl with ⟨others, kept⟩ | ⟨row, found, mine, renewed⟩
    · rw [kept] at leader
      refine .inl ⟨leader, clock, owned, ?_⟩
      rw [seats, if_neg]
      rintro ⟨-, named⟩
      obtain ⟨row, found, mine⟩ := (Option.any_eq_true _ _).mp named
      exact others row found (beq_iff_eq.mp mine)
    · rw [renewed] at leader
      refine .inr ⟨row, found, mine, leader, clock, owned, ?_⟩
      rw [seats, if_pos]
      exact ⟨rfl, (Option.any_eq_true _ _).mpr ⟨row, found, beq_iff_eq.mpr mine⟩⟩

theorem drift_same {e : Env} {w w' : Cluster} (drifts : w.drift e = some w') :
    w'.leader = w.leader ∧ w.world.clock ≤ w'.world.clock ∧ w'.world.state.owned = w.world.state.owned ∧
      w'.seats = w.seats ∧ w'.log = w.log := by
  unfold Cluster.drift at drifts
  split at drifts
  · cases drifts
  · rename_i unassigned
    split at drifts
    · rename_i world drifted
      cases drifts
      have later := (drift_cases drifted).1
      cases e with
      | assign instanceId partitions => exact absurd rfl (unassigned instanceId partitions)
      | advance clock =>
        simp only [Chronon.drift] at drifted
        split at drifted
        · cases drifted
          exact ⟨rfl, later, rfl, rfl, rfl⟩
        · cases drifted
      | _ =>
        cases drifted
        exact ⟨rfl, later, rfl, rfl, rfl⟩
    · cases drifts

end Chronon
