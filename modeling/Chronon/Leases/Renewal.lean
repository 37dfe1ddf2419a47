import Chronon.Sql.Agreement

/-!
# Renewing a lease that has run out

The calls on the lease of a run and on the leader's, in memory and in SQL. A
renewal looks at the holder but not at the end of the lease, so between the end
and the next reclaim, or the next rival's acquire, the holder still extends it.
Both stores are seen through the rows they hold for runs and the leader, and
what a call does to these is said once (`LeaseEffect`).
-/

namespace Chronon
set_option autoImplicit false

open Collections

/-- The calls on the two leases. -/
inductive LeaseCall where
  | claimNextQueued (poolId workerId : String) (now : DateTime) (leaseTtlSecs : Int)
  | claimRunById (runId poolId workerId : String) (now : DateTime) (leaseTtlSecs : Int)
  | renewRunLease (runId workerId : String) (now : DateTime) (leaseTtlSecs : Int)
  | reclaimExpiredRunLeases (now : DateTime)
  | updateRun (run : Run)
  | tryAcquireLeader (instanceId : String) (ttlSecs : Int)
  | renewLeaderLease (instanceId : String) (ttlSecs : Int)

namespace LeaseCall

/-- The method of `SchedulerStore`. -/
@[reducible] def call : LeaseCall → StoreCall
  | .claimNextQueued poolId workerId now ttl => .claimNextQueued poolId workerId now ttl
  | .claimRunById runId poolId workerId now ttl => .claimRunById runId poolId workerId now ttl
  | .renewRunLease runId workerId now ttl => .renewRunLease runId workerId now ttl
  | .reclaimExpiredRunLeases now => .reclaimExpiredRunLeases now
  | .updateRun run => .updateRun run
  | .tryAcquireLeader instanceId ttl => .tryAcquireLeader instanceId ttl
  | .renewLeaderLease instanceId ttl => .renewLeaderLease instanceId ttl

/-- The in-memory store may answer `r` and be left as `s'`. -/
def InMemory (clock : DateTime) (c : LeaseCall) (r : Result c.call.Ret) (s s' : Store) : Prop :=
  ∃ s₀, Sql.Reordered s s₀ ∧ c.call.exec clock s₀ = (r, s')

/-- The SQL store may answer `r` and be left as `d'`. -/
def InSql (clock : DateTime) : (c : LeaseCall) → Result c.call.Ret → Sql.Db → Sql.Db → Prop
  | .claimNextQueued poolId workerId now ttl, r, d, d' => d.ClaimNextQueued poolId workerId now ttl r d'
  | .claimRunById runId poolId workerId now ttl, r, d, d' => d.claimRunById runId poolId workerId now ttl = (r, d')
  | .renewRunLease runId workerId now ttl, r, d, d' => d.renewRunLease runId workerId now ttl = (r, d')
  | .reclaimExpiredRunLeases now, r, d, d' => d.ReclaimExpiredRunLeases now r d'
  | .updateRun run, r, d, d' => d.updateRun run = (r, d')
  | .tryAcquireLeader instanceId ttl, r, d, d' => d.tryAcquireLeader clock instanceId ttl = (r, d')
  | .renewLeaderLease instanceId ttl, r, d, d' => d.renewLeaderLease clock instanceId ttl = (r, d')

/-- When the call takes place, by its own account where it names a time. -/
def time (clock : DateTime) : LeaseCall → DateTime
  | .claimNextQueued _ _ now _ | .claimRunById _ _ _ now _ | .renewRunLease _ _ now _ | .reclaimExpiredRunLeases now => now
  | .updateRun _ | .tryAcquireLeader _ _ | .renewLeaderLease _ _ => clock

end LeaseCall

/-- The rows that hold the leases. -/
structure LeaseRows where
  run : String → Option Run
  leader : Option SchedulerLeader

def LeaseRows.setRun (v : LeaseRows) (run : Run) : LeaseRows :=
  { v with run := fun id => if run.runId = id then some run else v.run id }

def Store.leaseRows (s : Store) : LeaseRows := ⟨s.runs.lookup, s.leader⟩

def Sql.Db.leaseRows (d : Sql.Db) : LeaseRows := ⟨d.runs.lookup, d.leaders.lookup leaderRowId⟩

/-- The worker holds the run with a lease that ends after `time`. -/
def RunLive (v : LeaseRows) (runId workerId : String) (time : DateTime) : Prop :=
  ∃ run, v.run runId = some run ∧ run.claimedBy = some workerId ∧ ∃ leaseUntil, run.claimLeaseUntil = some leaseUntil ∧
    time < leaseUntil

/-- The instance leads with a lease that ends after `time`. -/
def LeaderLive (v : LeaseRows) (instanceId : String) (time : DateTime) : Prop :=
  ∃ row, v.leader = some row ∧ row.leaderInstanceId = instanceId ∧ time < row.leaderLeaseUntil

/-- The run row as a renewal leaves it. -/
def renewedRun (run : Run) (now : DateTime) (ttl : Int) : Run := { run with claimLeaseUntil := some (now + seconds ttl) }

/-- The leader row as a renewal leaves it. -/
def renewedLeader (row : SchedulerLeader) (clock : DateTime) (ttl : Int) : SchedulerLeader :=
  { row with leaderLeaseUntil := clock + seconds ttl, lastHeartbeatAt := clock }

/-- What a call may do to the rows. -/
inductive LeaseEffect (clock : DateTime) (v : LeaseRows) : (c : LeaseCall) → Result c.call.Ret → LeaseRows → Prop
  | nothingQueued {poolId workerId : String} {now : DateTime} {ttl : Int} :
      LeaseEffect clock v (.claimNextQueued poolId workerId now ttl) (.ok none) v
  | claimedNext {poolId workerId : String} {now : DateTime} {ttl : Int} {run : Run} : v.run run.runId = some run →
      LeaseEffect clock v (.claimNextQueued poolId workerId now ttl) (.ok (some (Store.claimedRun run workerId now ttl)))
        (v.setRun (Store.claimedRun run workerId now ttl))
  | notClaimed {runId poolId workerId : String} {now : DateTime} {ttl : Int} :
      LeaseEffect clock v (.claimRunById runId poolId workerId now ttl) (.ok none) v
  | claimed {runId poolId workerId : String} {now : DateTime} {ttl : Int} {run : Run} : v.run run.runId = some run →
      LeaseEffect clock v (.claimRunById runId poolId workerId now ttl)
        (.ok (some (Store.claimedRun run workerId now ttl))) (v.setRun (Store.claimedRun run workerId now ttl))
  | notRenewed {runId workerId : String} {now : DateTime} {ttl : Int} :
      (∀ run ∈ v.run runId, run.claimedBy = some workerId → Store.leased run = false) →
      LeaseEffect clock v (.renewRunLease runId workerId now ttl) (.ok false) v
  | renewed {runId workerId : String} {now : DateTime} {ttl : Int} {run : Run} : v.run runId = some run →
      run.runId = runId → run.claimedBy = some workerId → Store.leased run = true →
      LeaseEffect clock v (.renewRunLease runId workerId now ttl) (.ok true) (v.setRun (renewedRun run now ttl))
  | reclaimed {now : DateTime} {r : Result (List String)} :
      LeaseEffect clock v (.reclaimExpiredRunLeases now) r { v with run := fun id => (v.run id).map (Store.reclaimed now) }
  | notUpdated {run : Run} {e : ChrononError} : LeaseEffect clock v (.updateRun run) (.error e) v
  | updated {run row : Run} : v.run run.runId = some row → LeaseEffect clock v (.updateRun run) (.ok ()) (v.setRun run)
  | notAcquired {instanceId : String} {ttl : Int} : LeaseEffect clock v (.tryAcquireLeader instanceId ttl) (.ok false) v
  | acquired {instanceId : String} {ttl : Int} :
      LeaseEffect clock v (.tryAcquireLeader instanceId ttl) (.ok true)
        { v with leader := some ⟨leaderRowId, instanceId, clock + seconds ttl, clock⟩ }
  | notLeading {instanceId : String} {ttl : Int} : (∀ row ∈ v.leader, row.leaderInstanceId ≠ instanceId) →
      LeaseEffect clock v (.renewLeaderLease instanceId ttl) (.ok ()) v
  | renewedLeader {instanceId : String} {ttl : Int} {row : SchedulerLeader} : v.leader = some row →
      row.leaderInstanceId = instanceId →
      LeaseEffect clock v (.renewLeaderLease instanceId ttl) (.ok ())
        { v with leader := some (renewedLeader row clock ttl) }

/-! ## The stores -/

theorem Store.leaseRows_setRun (s : Store) (run : Run) : (s.setRun run).leaseRows = s.leaseRows.setRun run := by
  have rows : (s.setRun run).runs.lookup = (s.leaseRows.setRun run).run := funext fun id => s.lookup_setRun run id
  exact congrArg (fun rows => LeaseRows.mk rows s.leader) rows

theorem leaseRows_reordered {s s₀ : Store} (other : Sql.Reordered s s₀) : s₀.leaseRows = s.leaseRows := by
  have rows : s₀.runs.lookup = s.runs.lookup := funext other.run
  rw [Store.leaseRows, Store.leaseRows, rows, other.leader]

theorem Sql.Same.leaseRows {s : Store} {d : Sql.Db} (same : Sql.Same s d) : s.leaseRows = d.leaseRows := by
  have rows : s.runs.lookup = d.runs.lookup := funext same.runs
  rw [Store.leaseRows, Sql.Db.leaseRows, rows, same.leader]

/-- The effect of a call in memory. -/
theorem LeaseCall.InMemory.effect {clock : DateTime} {c : LeaseCall} {r : Result c.call.Ret} {s s' : Store}
    (ran : c.InMemory clock r s s') : LeaseEffect clock s.leaseRows c r s'.leaseRows := by
  obtain ⟨s₀, other, ran⟩ := ran
  rw [← leaseRows_reordered other]
  cases c with
  | claimNextQueued poolId workerId now ttl =>
    rcases Store.claimNextQueued_cases ran with ⟨rfl, rfl⟩ | ⟨run, stored, -, rfl, rfl⟩
    · exact .nothingQueued
    · rw [Store.leaseRows_setRun]
      exact .claimedNext stored
  | claimRunById runId poolId workerId now ttl =>
    rcases Store.claimRunById_cases ran with ⟨rfl, rfl⟩ | ⟨run, stored, -, rfl, rfl⟩
    · exact .notClaimed
    · rw [Store.leaseRows_setRun]
      obtain rfl := Table.key_of_lookup stored
      exact .claimed stored
  | renewRunLease runId workerId now ttl =>
    rcases Store.renewRunLease_cases ran with ⟨rfl, rfl⟩ | ⟨run, stored, mine, active, rfl, rfl⟩
    · refine .notRenewed fun run stored mine => ?_
      by_contra active
      have answered := congrArg Prod.fst ran
      simp [StoreCall.exec, Store.renewRunLease, show s'.runs.lookup runId = some run from stored, mine,
        Bool.eq_true_of_not_eq_false active] at answered
    · rw [Store.leaseRows_setRun]
      exact .renewed stored (Table.key_of_lookup stored) mine active
  | reclaimExpiredRunLeases now =>
    have rows : s'.leaseRows = { s₀.leaseRows with run := fun id => (s₀.leaseRows.run id).map (Store.reclaimed now) } := by
      cases ran
      exact congrArg (fun rows => LeaseRows.mk rows s₀.leader) (funext (Store.lookup_reclaim s₀ now))
    rw [rows]
    exact .reclaimed
  | updateRun run =>
    rcases Store.updateRun_cases ran with ⟨-, rfl, rfl⟩ | ⟨row, stored, rfl, rfl⟩
    · exact .notUpdated
    · rw [Store.leaseRows_setRun]
      exact .updated stored
  | tryAcquireLeader instanceId ttl =>
    simp only [StoreCall.exec, Store.tryAcquireLeader] at ran
    split at ran
    · split at ran <;> cases ran
      · exact .notAcquired
      · exact .acquired
    · cases ran
      exact .acquired
  | renewLeaderLease instanceId ttl =>
    simp only [StoreCall.exec, Store.renewLeaderLease] at ran
    split at ran
    · rename_i none_
      cases ran
      exact .notLeading fun row inside => by rw [Store.leaseRows, none_] at inside; cases inside
    · rename_i row stored
      split at ran <;> cases ran
      · rename_i rival
        exact .notLeading fun row' inside => by
          rw [Store.leaseRows, stored] at inside
          cases inside
          exact rival
      · rename_i mine
        exact .renewedLeader stored (not_not.mp mine)

/-- The same rows in memory. -/
def Sql.Db.inMemory (d : Sql.Db) : Store :=
  { Store.new with jobs := d.jobs, runs := d.runs, leader := d.leaders.lookup leaderRowId }

theorem Sql.Db.same_inMemory (d : Sql.Db) : Sql.Same d.inMemory d := ⟨fun _ => rfl, fun _ => rfl, rfl⟩

theorem updateRun_agrees {s : Store} {d : Sql.Db} (same : Sql.Same s d) (run : Run) :
    (s.updateRun run).1 = (d.updateRun run).1 ∧ Sql.Same (s.updateRun run).2 (d.updateRun run).2 := by
  let replaced (old : Run) : Run := { run with runId := old.runId }
  have named : ∀ row, (Sql.Db.runIs run.runId row).holds = (decide (row.runId = run.runId) && true) := by
    intro row
    rw [Sql.Db.holds_runIs, Bool.and_true]
  have changed := Sql.changeRunIf_agrees same (fun _ => true) replaced named fun _ => rfl
  have stored := changed.runs run.runId
  unfold Store.updateRun Sql.Db.updateRun
  cases found : s.runs.lookup run.runId with
  | none =>
    have unchanged : Sql.changeRunIf s run.runId (fun _ => true) replaced = s := by rw [Sql.changeRunIf, found]
    rw [unchanged] at changed stored
    rw [found] at stored
    simp only [← stored, replaced, true_and]
    exact changed
  | some old =>
    have isRun : old.runId = run.runId := Table.key_of_lookup found
    have written : Sql.changeRunIf s run.runId (fun _ => true) replaced = s.setRun run := by
      rw [Sql.changeRunIf, found]
      simp only [if_true, replaced, isRun]
    rw [written] at changed stored
    rw [Store.lookup_setRun, if_pos rfl] at stored
    simp only [← stored, replaced, true_and]
    exact changed

/-- A call in SQL is, to the rows, a call in memory. -/
theorem LeaseCall.InSql.inMemory {clock : DateTime} {c : LeaseCall} {r : Result c.call.Ret} {d d' : Sql.Db}
    (ran : c.InSql clock r d d') : ∃ s', c.InMemory clock r d.inMemory s' ∧ s'.leaseRows = d'.leaseRows := by
  have same := d.same_inMemory
  have single : ∀ out : Result c.call.Ret × Sql.Db, (c.call.exec clock d.inMemory).1 = out.1 →
      (c.call.exec clock d.inMemory).2.leaseRows = out.2.leaseRows → out = (r, d') →
      ∃ s', c.InMemory clock r d.inMemory s' ∧ s'.leaseRows = d'.leaseRows := by
    rintro _ answer rows rfl
    exact ⟨_, ⟨d.inMemory, .refl _, Prod.ext answer rfl⟩, rows⟩
  cases c with
  | claimNextQueued poolId workerId now ttl =>
    obtain ⟨s', here, same'⟩ := (Sql.agree_claimNextQueued same clock poolId workerId now ttl).sql r d' ran
    exact ⟨s', here, same'.leaseRows⟩
  | claimRunById runId poolId workerId now ttl =>
    obtain ⟨answer, same'⟩ := Sql.claimRunById_agrees same runId poolId workerId now ttl
    exact single _ answer same'.leaseRows ran
  | renewRunLease runId workerId now ttl =>
    obtain ⟨answer, same'⟩ := Sql.renewRunLease_agrees same runId workerId now ttl
    exact single _ answer same'.leaseRows ran
  | reclaimExpiredRunLeases now =>
    obtain ⟨s', here, same'⟩ := (Sql.agree_reclaim same clock now).sql r d' ran
    exact ⟨s', here, same'.leaseRows⟩
  | updateRun run =>
    obtain ⟨answer, same'⟩ := updateRun_agrees same run
    exact single _ answer same'.leaseRows ran
  | tryAcquireLeader instanceId ttl =>
    obtain ⟨answer, same'⟩ := Sql.tryAcquireLeader_agrees same clock instanceId ttl
    exact single _ answer same'.leaseRows ran
  | renewLeaderLease instanceId ttl =>
    obtain ⟨answer, same'⟩ := Sql.renewLeaderLease_agrees same clock instanceId ttl
    exact single _ answer same'.leaseRows ran

/-- The effect of a call in SQL. -/
theorem LeaseCall.InSql.effect {clock : DateTime} {c : LeaseCall} {r : Result c.call.Ret} {d d' : Sql.Db}
    (ran : c.InSql clock r d d') : LeaseEffect clock d.leaseRows c r d'.leaseRows := by
  obtain ⟨s', here, rows⟩ := ran.inMemory
  rw [← rows, ← d.same_inMemory.leaseRows]
  exact here.effect

/-! ## Runs -/

/-- A call with its answer. -/
structure LeaseEvent where
  clock : DateTime
  call : LeaseCall
  answer : Result call.call.Ret

/-- A run of a store, each step of which meets a condition on the rows before and after. -/
inductive LeaseRun {S : Type} (Exec : DateTime → (c : LeaseCall) → Result c.call.Ret → S → S → Prop)
    (rows : S → LeaseRows) (P : LeaseRows → LeaseEvent → LeaseRows → Prop) : S → List LeaseEvent → S → Prop
  | done (s : S) : LeaseRun Exec rows P s [] s
  | step {s s₁ s' : S} {e : LeaseEvent} {es : List LeaseEvent} : Exec e.clock e.call e.answer s s₁ →
      P (rows s) e (rows s₁) → LeaseRun Exec rows P s₁ es s' → LeaseRun Exec rows P s (e :: es) s'

/-- A renewal that answers `true` or extends a lease finds the lease live and the caller's. -/
def RenewsLive (v : LeaseRows) : LeaseEvent → LeaseRows → Prop
  | ⟨_, .renewRunLease runId workerId now _, r⟩, v' =>
    r = .ok true ∨ v'.run runId ≠ v.run runId → RunLive v runId workerId now
  | ⟨clock, .renewLeaderLease instanceId _, _⟩, v' =>
    (∃ row row', v.leader = some row ∧ v'.leader = some row' ∧ row.leaderLeaseUntil < row'.leaderLeaseUntil) →
      LeaderLive v instanceId clock
  | _, _ => True

/-- No renewal comes after the end of a lease that is still written down as the caller's. -/
def OutsideWindow (v : LeaseRows) : LeaseEvent → Prop
  | ⟨_, .renewRunLease runId workerId now _, _⟩ =>
    ∀ run ∈ v.run runId, run.claimedBy = some workerId → Store.leased run = true →
      run.claimLeaseUntil.any (now < ·) = true
  | ⟨clock, .renewLeaderLease instanceId ttl, _⟩ =>
    ∀ row ∈ v.leader, row.leaderInstanceId = instanceId → row.leaderLeaseUntil < clock + seconds ttl →
      clock < row.leaderLeaseUntil
  | _ => True

/-- An `update_run` writes no longer lease than the stored one, and none for another worker. -/
def KeepsLease (v : LeaseRows) : LeaseEvent → Prop
  | ⟨_, .updateRun run, _⟩ =>
    ∀ row ∈ v.run run.runId, ∀ workerId ∈ run.claimedBy, ∀ leaseUntil ∈ run.claimLeaseUntil,
      row.claimedBy = some workerId ∧ row.claimLeaseUntil.any (leaseUntil ≤ ·) = true
  | _ => True

/-- A claim that hands the run to the worker. -/
def HandsOut (runId workerId : String) : LeaseEvent → Prop
  | ⟨_, .claimNextQueued _ claimant _ _, .ok (some run)⟩ => run.runId = runId ∧ claimant = workerId
  | ⟨_, .claimRunById _ _ claimant _ _, .ok (some run)⟩ => run.runId = runId ∧ claimant = workerId
  | _ => False

/-- A successful `try_acquire_leader` of the instance. -/
def AcquiresLeader (instanceId : String) : LeaseEvent → Prop
  | ⟨_, .tryAcquireLeader candidate _, .ok true⟩ => candidate = instanceId
  | _ => False

/-- What holds in the runs of a store with the given calls and answers. -/
structure RenewalContract {S : Type} (Exec : DateTime → (c : LeaseCall) → Result c.call.Ret → S → S → Prop)
    (rows : S → LeaseRows) (es : List LeaseEvent) : Prop where
  /-- All renewals are of live leases exactly in the runs without a renewal in the window. -/
  live_iff : ∀ s s', LeaseRun Exec rows RenewsLive s es s' ↔ LeaseRun Exec rows (fun v e _ => OutsideWindow v e) s es s'
  /-- In these, unless an update writes it, a run lease that has run out comes back by a claim only. -/
  regained : ∀ {s s' time runId workerId},
    LeaseRun Exec rows (fun v e _ => OutsideWindow v e ∧ KeepsLease v e ∧ time ≤ e.call.time e.clock) s es s' →
      ¬ RunLive (rows s) runId workerId time → RunLive (rows s') runId workerId time → ∃ e ∈ es, HandsOut runId workerId e
  /-- The leader's comes back by an acquire only. -/
  reacquired : ∀ {s s' time instanceId},
    LeaseRun Exec rows (fun v e _ => OutsideWindow v e ∧ time ≤ e.call.time e.clock) s es s' →
      ¬ LeaderLive (rows s) instanceId time → LeaderLive (rows s') instanceId time → ∃ e ∈ es, AcquiresLeader instanceId e

section Effect

variable {clock time : DateTime} {v v' : LeaseRows} {c : LeaseCall} {r : Result c.call.Ret} {runId workerId instanceId : String}

/-- One call renews a live lease exactly outside the window. -/
theorem LeaseEffect.renewsLive_iff (effect : LeaseEffect clock v c r v') :
    RenewsLive v ⟨clock, c, r⟩ v' ↔ OutsideWindow v ⟨clock, c, r⟩ := by
  cases effect with
  | notRenewed free =>
    refine ⟨fun _ run stored mine active => ?_, fun _ => ?_⟩
    · rw [free run stored mine] at active
      cases active
    · rintro (answered | changed)
      · cases answered
      · exact absurd rfl changed
  | @renewed runId workerId now ttl run stored isRun mine active =>
    constructor
    · intro live found isFound _ _
      obtain ⟨held, isHeld, -, leaseUntil, isLease, later⟩ := live (.inl rfl)
      cases isHeld.symm.trans (Option.mem_def.mp isFound)
      rw [isLease]
      exact decide_eq_true later
    · intro outside _
      obtain ⟨leaseUntil, isLease, later⟩ := (Option.any_eq_true _ _).mp (outside run stored mine active)
      exact ⟨run, stored, mine, leaseUntil, isLease, of_decide_eq_true later⟩
  | notLeading rival =>
    refine ⟨fun _ row stored mine => absurd mine (rival row stored), fun _ => ?_⟩
    rintro ⟨row, row', before, after, extended⟩
    cases before.symm.trans after
    exact absurd extended (lt_irrefl _)
  | @renewedLeader instanceId ttl row stored mine =>
    constructor
    · intro live found isFound _ extended
      cases stored.symm.trans (Option.mem_def.mp isFound)
      obtain ⟨led, isLed, -, later⟩ := live ⟨row, _, stored, rfl, extended⟩
      cases stored.symm.trans isLed
      exact later
    · rintro outside ⟨before, after, isBefore, isAfter, extended⟩
      cases stored.symm.trans isBefore
      cases isAfter
      exact ⟨row, stored, mine, outside row stored mine extended⟩
  | _ => exact ⟨fun _ => trivial, fun _ => trivial⟩

/-- Whatever row is written under the run, a live lease in it was there before. -/
theorem RunLive.of_setRun {row : Run} (live : RunLive (v.setRun row) runId workerId time)
    (before : row.runId = runId → row.claimedBy = some workerId → ∀ leaseUntil, row.claimLeaseUntil = some leaseUntil →
      time < leaseUntil → RunLive v runId workerId time) : RunLive v runId workerId time := by
  obtain ⟨run, stored, mine, leaseUntil, isLease, later⟩ := live
  rw [LeaseRows.setRun] at stored
  dsimp only at stored
  split at stored
  · rename_i isRow
    cases stored
    exact before isRow mine leaseUntil isLease later
  · exact ⟨run, stored, mine, leaseUntil, isLease, later⟩

/-- A lease that one call has brought back was handed out by it. -/
theorem LeaseEffect.handsOut (effect : LeaseEffect clock v c r v') (outside : OutsideWindow v ⟨clock, c, r⟩)
    (keeps : KeepsLease v ⟨clock, c, r⟩) (after : time ≤ c.time clock) (dead : ¬ RunLive v runId workerId time)
    (live : RunLive v' runId workerId time) : HandsOut runId workerId ⟨clock, c, r⟩ := by
  cases effect with
  | claimedNext | claimed =>
    by_contra elsewhere
    exact dead (live.of_setRun fun isRun mine _ _ _ => absurd ⟨isRun, Option.some.inj mine⟩ elsewhere)
  | renewed stored isRun mine active =>
    refine absurd (live.of_setRun fun isRow isMine _ _ _ => ?_) dead
    obtain ⟨leaseUntil, isLease, later⟩ := (Option.any_eq_true _ _).mp (outside _ stored mine active)
    cases mine.symm.trans isMine
    exact ⟨_, (isRun.symm.trans isRow) ▸ stored, mine, leaseUntil, isLease, lt_of_le_of_lt after (of_decide_eq_true later)⟩
  | @updated run row stored =>
    refine absurd (live.of_setRun fun isRow isMine leaseUntil isLease later => ?_) dead
    obtain ⟨held, longer⟩ := keeps row stored workerId isMine leaseUntil isLease
    obtain ⟨storedUntil, isStored, le⟩ := (Option.any_eq_true _ _).mp longer
    exact ⟨row, isRow ▸ stored, held, storedUntil, isStored, lt_of_lt_of_le later (of_decide_eq_true le)⟩
  | reclaimed =>
    obtain ⟨run, stored, mine, leaseUntil, isLease, later⟩ := live
    obtain ⟨old, isOld, rfl⟩ := Option.map_eq_some_iff.mp stored
    unfold Store.reclaimed at mine isLease
    split at mine
    · cases mine
    · rename_i unexpired
      rw [if_neg unexpired] at isLease
      exact absurd ⟨old, isOld, mine, leaseUntil, isLease, later⟩ dead
  | _ => exact absurd live dead

theorem LeaseEffect.acquires (effect : LeaseEffect clock v c r v') (outside : OutsideWindow v ⟨clock, c, r⟩)
    (after : time ≤ c.time clock) (dead : ¬ LeaderLive v instanceId time) (live : LeaderLive v' instanceId time) :
    AcquiresLeader instanceId ⟨clock, c, r⟩ := by
  cases effect with
  | acquired =>
    obtain ⟨row, stored, mine, -⟩ := live
    cases stored
    exact mine
  | @renewedLeader _ ttl row stored mine =>
    obtain ⟨row', stored', isMine, later⟩ := live
    cases stored'
    refine absurd ⟨row, stored, isMine, ?_⟩ dead
    by_contra ended
    have extended : row.leaderLeaseUntil < clock + seconds ttl := lt_of_le_of_lt (not_lt.mp ended) later
    exact ended (lt_of_le_of_lt after (outside row stored mine extended))
  | _ => exact absurd live dead

end Effect

section Contract

variable {S : Type} {Exec : DateTime → (c : LeaseCall) → Result c.call.Ret → S → S → Prop} {rows : S → LeaseRows}
  {P Q : LeaseRows → LeaseEvent → LeaseRows → Prop} {s s' : S} {es : List LeaseEvent}

/-- A condition on the steps may be exchanged for one that follows from it. -/
theorem LeaseRun.imp (run : LeaseRun Exec rows P s es s')
    (follows : ∀ (s s₁ : S) (e : LeaseEvent), Exec e.clock e.call e.answer s s₁ → P (rows s) e (rows s₁) →
      Q (rows s) e (rows s₁)) : LeaseRun Exec rows Q s es s' := by
  induction run with
  | done s => exact .done s
  | step ran meets _ ih => exact .step ran (follows _ _ _ ran meets) ih

/-- What holds at the end and not at the start has been brought about by a step. -/
theorem LeaseRun.brought (Held : LeaseRows → Prop) {Brings : LeaseEvent → Prop} (run : LeaseRun Exec rows P s es s')
    (brings : ∀ (s s₁ : S) (e : LeaseEvent), Exec e.clock e.call e.answer s s₁ → P (rows s) e (rows s₁) →
      ¬ Held (rows s) → Held (rows s₁) → Brings e)
    (before : ¬ Held (rows s)) (after : Held (rows s')) : ∃ e ∈ es, Brings e := by
  induction run with
  | done s => exact absurd after before
  | @step s s₁ s' e es ran meets _ ih =>
    by_cases here : Held (rows s₁)
    · exact ⟨e, List.mem_cons_self, brings s s₁ e ran meets before here⟩
    · obtain ⟨e', inside, brought⟩ := ih here after
      exact ⟨e', List.mem_cons_of_mem e inside, brought⟩

/-- The contract rests on the effects of the calls alone. -/
theorem renewalContract (effects : ∀ {clock c r s s'}, Exec clock c r s s' → LeaseEffect clock (rows s) c r (rows s'))
    (es : List LeaseEvent) : RenewalContract Exec rows es where
  live_iff s s' := by
    constructor
    · exact fun run => run.imp fun _ _ _ ran live => (effects ran).renewsLive_iff.mp live
    · exact fun run => run.imp fun _ _ _ ran outside => (effects ran).renewsLive_iff.mpr outside
  regained := by
    intro s s' time runId workerId run dead live
    refine run.brought (fun v => RunLive v runId workerId time) (fun s s₁ e ran meets before after => ?_) dead live
    exact (effects ran).handsOut meets.1 meets.2.1 meets.2.2 before after
  reacquired := by
    intro s s' time instanceId run dead live
    refine run.brought (fun v => LeaderLive v instanceId time) (fun s s₁ e ran meets before after => ?_) dead live
    exact (effects ran).acquires meets.1 meets.2 before after

end Contract

/-- **When expired leases stay expired.** In memory and in SQL, the renewals of a run are all of live leases exactly if
none comes between the end of the caller's lease and the loss of the row; and then a lease that has run out comes back
by a new claim or acquire only, as long as no `update_run` writes one. -/
theorem leases_renewed_live (es : List LeaseEvent) :
    RenewalContract LeaseCall.InMemory Store.leaseRows es ∧ RenewalContract LeaseCall.InSql Sql.Db.leaseRows es :=
  ⟨renewalContract (fun ran => ran.effect) es, renewalContract (fun ran => ran.effect) es⟩

/-- A run claimed by "w", and an instance that leads, both until second 30. -/
def leasedStore : Store :=
  { Store.new with
    runs := Table.empty.insert (Store.claimedRun (Run.new "r" "noop" 0) "w" 0 30)
    leader := some ⟨leaderRowId, "i", seconds 30, 0⟩ }

def leasedDb : Sql.Db :=
  { Sql.Db.empty with
    runs := Table.empty.insert (Store.claimedRun (Run.new "r" "noop" 0) "w" 0 30)
    leaders := Table.empty.insert ⟨leaderRowId, "i", seconds 30, 0⟩ }

/-- **Ten seconds late.** Both stores renew both leases at second 40, ten seconds after they have run out. -/
theorem expired_leases_renewed :
    ((leasedStore.renewRunLease "r" "w" (seconds 40) 30).1 = .ok true ∧ ¬ RunLive leasedStore.leaseRows "r" "w" (seconds 40) ∧
      RunLive (leasedStore.renewRunLease "r" "w" (seconds 40) 30).2.leaseRows "r" "w" (seconds 40)) ∧
    ((leasedDb.renewRunLease "r" "w" (seconds 40) 30).1 = .ok true ∧ ¬ RunLive leasedDb.leaseRows "r" "w" (seconds 40) ∧
      RunLive (leasedDb.renewRunLease "r" "w" (seconds 40) 30).2.leaseRows "r" "w" (seconds 40)) ∧
    (¬ LeaderLive leasedStore.leaseRows "i" (seconds 40) ∧
      LeaderLive (leasedStore.renewLeaderLease (seconds 40) "i" 30).2.leaseRows "i" (seconds 40)) ∧
    (¬ LeaderLive leasedDb.leaseRows "i" (seconds 40) ∧
      LeaderLive (leasedDb.renewLeaderLease (seconds 40) "i" 30).2.leaseRows "i" (seconds 40)) := by
  have early : ¬ seconds 40 < seconds 30 := by decide
  have late : seconds 40 < seconds 40 + seconds 30 := by decide
  refine ⟨⟨by decide +kernel, ?_, ?_⟩, ⟨by decide +kernel, ?_, ?_⟩, ⟨?_, ?_⟩, ?_, ?_⟩
  · rintro ⟨run, stored, -, leaseUntil, isLease, later⟩
    cases stored
    cases isLease
    exact absurd later (by decide)
  · exact ⟨_, rfl, rfl, _, rfl, late⟩
  · rintro ⟨run, stored, -, leaseUntil, isLease, later⟩
    cases stored
    cases isLease
    exact absurd later (by decide)
  · exact ⟨_, rfl, rfl, _, rfl, late⟩
  · rintro ⟨row, stored, -, later⟩
    cases stored
    exact early later
  · exact ⟨_, rfl, rfl, late⟩
  · rintro ⟨row, stored, -, later⟩
    cases stored
    exact early later
  · exact ⟨_, rfl, rfl, late⟩

end Chronon
