import Chronon.Runs.Shape

/-!
# Active runs can be recovered

A queued run can be claimed once it is due, and a claimed or running run with
a lease is put back into the queue by the first reclaim after the lease. A run
that is running without a lease is out of reach of both. The only way there is
a `RunStarted` event that was handled with a queued copy of the run.
-/

namespace Chronon
set_option autoImplicit false

open Concurrent

/-! ## Starts of queued runs in the history -/

/-- The run a task read by its identifier, after one of its calls. -/
def readAfter (e : LogEntry) (last : Option Run) : Option Run :=
  match e with
  | ⟨_, _, .store (.getRun _), .ok found⟩ => found
  | ⟨_, _, .store (.claimNextQueued _ _ _ _), _⟩ => none
  | _ => last

/-- The run an event handler read last. -/
def lastRead (p : Nat) (log : Log) : Option Run := track readAfter none p log

/-- The call stores run `id` as running from a copy that its task had read as queued. -/
def startsQueued (id : String) (e : LogEntry) (older : Log) : Bool :=
  match e with
  | ⟨p, _, .store (.updateRun run), .ok ()⟩ =>
    run.runId == id && run.status == .running && (lastRead p older).any fun seen =>
      seen.runId == id && seen.status == .queued
  | _ => false

/-- A `RunStarted` handler has stored run `id` as running from a copy it had read as queued. -/
def startedQueued (id : String) : Log → Bool
  | [] => false
  | e :: older => startsQueued id e older || startedQueued id older

/-! ## What recovery is -/

/-- Some claim takes the run: a worker of its pool, from its due time on. -/
def Claimable (row : Run) : Prop :=
  ∀ now, row.scheduledFor ≤ now → Store.claimable (row.poolId.getD "general") now row = true

/-- From time `t` on, every reclaim over `s` returns run `id` to the queue. -/
def ReclaimableFrom (t : DateTime) (id : String) (s : Store) : Prop :=
  ∀ now, t ≤ now → ∃ ids, (s.reclaimExpiredRunLeases now).1 = .ok ids ∧ id ∈ ids ∧
    ((s.reclaimExpiredRunLeases now).2.runs.lookup id).map Run.status = some .queued

/-- A queued run can be claimed and a claimed or running run has a lease, after which it is reclaimed. -/
def Recoverable (s : Store) (row : Run) : Prop :=
  (row.status = .queued ∧ Claimable row) ∨
    (Store.leased row = true ∧ ∃ t, row.claimLeaseUntil = some t ∧ ReclaimableFrom t row.runId s)

theorem Run.Shaped.claimable {row : Run} (shaped : row.Shaped) (queued : row.status = .queued) : Claimable row := by
  intro now due
  obtain ⟨-, unleased, -, -⟩ := shaped.queued queued
  have pool : Store.poolOk (row.poolId.getD "general") row = true := by
    cases poolId : row.poolId <;> simp [Store.poolOk, poolId]
  simp [Store.claimable, queued, due, unleased, pool]

/-- A leased run is returned to the queue by every reclaim after its lease. -/
theorem reclaimableFrom_of_leased {s : Store} {id : String} {row : Run} {t : DateTime}
    (stored : s.runs.lookup id = some row) (active : Store.leased row = true)
    (lease : row.claimLeaseUntil = some t) : ReclaimableFrom t id s := by
  intro now late
  have expired : Store.leaseExpired now row = true := by simp [Store.leaseExpired, active, lease, late]
  refine ⟨_, rfl, ?_, ?_⟩
  · obtain rfl : row.runId = id := Collections.Table.key_of_lookup stored
    exact List.mem_map_of_mem (List.mem_filter.mpr ⟨Collections.Table.mem_of_lookup stored, expired⟩)
  · rw [Store.lookup_reclaim, stored]
    simp [Store.reclaimed, expired]

/-! ## The invariant -/

/-- A run that is running without a lease was started from a queued copy. -/
def RowsLeased (w : World) : Prop :=
  ∀ id row, w.run id = some row → row.status = .running → row.claimLeaseUntil = none →
    startedQueued id w.log = true

/-- What a task asserts: a queued copy is the one its handler read. -/
structure RecoveryHolds (p : Nat) (φ : Phase) (w : World) : Prop where
  shape : ShapeHolds p φ w
  seen : ∀ run job, φ = .copied none run job → run.status = .queued → lastRead p w.log = some run

section Step

variable {host : Host} {p q : Nat} {id : String} {oracle : Oracle} {w w' : World} {φ φ' : Phase} {op : Op} {r : Ans op}

theorem startedQueued_later (ran : perform p oracle w op = some (r, w')) (started : startedQueued id w.log = true) :
    startedQueued id w'.log = true := by
  rw [(perform_cases ran).2, startedQueued, started, Bool.or_true]

theorem readAfter_silent {s : State} {last : Option Run} (quiet : Silent op) : readAfter ⟨p, s, op, r⟩ last = last := by
  cases op with
  | store c => cases c <;> first | rfl | exact quiet.elim
  | _ => rfl

/-- A start from a copy without a lease is one of a queued run, and is on record. -/
theorem RecoveryHolds.starts {worker : Option String} {run run' : Run} {job : Option Job}
    (holds : RecoveryHolds p (.copied worker run job) w)
    (waits : worker = none → run.status = .queued ∨ run.status = .claimed) (same : run'.identity = run.identity)
    (started : run.Started run') (unleased : run'.claimLeaseUntil = none)
    (ran : perform p oracle w (.store (.updateRun run')) = some (.ok (), w')) :
    startedQueued run'.runId w'.log = true := by
  have copy := holds.shape.copy worker run rfl
  rw [identity_claimLeaseUntil same] at unleased
  cases worker with
  | some workerId =>
    have leased := (copy.leased rfl).1
    rw [unleased] at leased
    cases leased
  | none =>
    rcases waits rfl with queued | claimed
    · have seen := holds.seen run job rfl queued
      simp [(perform_cases ran).2, startedQueued, startsQueued, seen, started.status, queued, identity_runId same]
    · have leased := (copy.shaped.claimed claimed).2.1
      rw [unleased] at leased
      cases leased

theorem RowsLeased.step (rows : RowsLeased w) (holds : RecoveryHolds p φ w) (move : Move host φ op r φ')
    (ran : perform p oracle w op = some (r, w')) : RowsLeased w' := by
  intro id row after running unleased
  cases before : w.run id with
  | none =>
    cases perform_run_new ran before after with
    | create _ =>
      rw [move.creates_unstarted.status] at running
      cases running
  | some old =>
    have known := rows id old before
    obtain ⟨row', after', rfl | wrote | ⟨_, _, _, _, -, -, rfl⟩ | ⟨_, _, -, rfl, -⟩ | ⟨now, -, rfl⟩⟩ :=
      perform_run_some ran before (holds.shape.fresh.created move)
    all_goals rw [after'] at after; cases after
    · exact startedQueued_later ran (known running unleased)
    · cases wrote with
      | update isRun =>
        subst isRun
        cases move with
        | silent quiet => exact quiet.elim
        | start waits same started => exact holds.starts waits same started unleased ran
        | finish _ _ finished =>
          have terminal := finished.status
          rw [running] at terminal
          cases terminal
        | fail _ _ finished _ _ =>
          have terminal := finished.status
          rw [running] at terminal
          cases terminal
    · cases running
    · cases unleased
    · unfold Store.reclaimed at running unleased
      split at running
      · cases running
      · rename_i unexpired
        rw [if_neg unexpired] at unleased
        exact startedQueued_later ran (known running unleased)

theorem RecoveryHolds.own (holds : RecoveryHolds p φ w) (rows : RowsShaped w) (move : Move host φ op r φ')
    (ran : perform p oracle w op = some (r, w')) : RecoveryHolds p φ' w' := by
  refine ⟨holds.shape.own rows move ran, fun run job isCopy queued => ?_⟩
  rw [lastRead, track_own_call ran]
  subst isCopy
  cases move.toCopy with
  | silent quiet =>
    rw [readAfter_silent quiet]
    exact holds.seen run job rfl queued
  | read => rfl
  | readJob _ | readNoJob _ => exact holds.seen run none rfl queued
  | start _ _ started =>
    rw [started.status] at queued
    cases queued

theorem RecoveryHolds.other (holds : RecoveryHolds p φ w) (once : DrawnOnce w.log) (steps : FreshStep q w w')
    (apart : p ≠ q) : RecoveryHolds p φ w' := by
  refine ⟨holds.shape.other once steps apart, fun run job isCopy queued => ?_⟩
  obtain ⟨oracle, op, r, ran, -⟩ := steps.stepped
  rw [lastRead, track_other_call ran (Ne.symm apart)]
  exact holds.seen run job isCopy queued

theorem RecoveryHolds.start {proc : Proc} : RecoveryHolds p proc.phase w :=
  ⟨.start, fun _ _ isCopy => by cases proc <;> cases isCopy⟩

end Step

/-- The rules behind recovery, over those of the shape. -/
def recoveryRules (host : Host) : Rules (system host) (protocol host) fun _ _ _ => True where
  inv w := (DrawnOnce w.log ∧ RowsShaped w) ∧ RowsLeased w
  guar := FreshStep
  idle _ _ := True
  holds := RecoveryHolds
  start _ _ _ := .start
  finish _ _ _ := trivial
  own := by
    intro p φ op r φ' oracle w w' inv holds move ran _
    obtain ⟨shaped, steps, -⟩ := (shapeRules host).own inv.1 holds.shape move ran trivial
    exact ⟨⟨shaped, inv.2.step holds move ran⟩, steps, holds.own inv.1.2 move ran⟩
  other apart inv _ steps holds := holds.other inv.1.1 steps apart
  otherIdle _ _ _ _ _ := trivial
  drift := by
    intro e w w' inv drifts _
    obtain ⟨shaped, kept, -⟩ := (shapeRules host).drift inv.1 drifts trivial
    obtain ⟨-, -, runs, log⟩ := drift_cases drifts
    refine ⟨⟨shaped, fun id row stored => ?_⟩, fun p φ holds => ⟨kept p φ holds.shape, ?_⟩, fun _ _ => trivial⟩
    · rw [log]
      exact inv.2 id row ((runs id).symm.trans stored)
    · rw [log]
      exact holds.seen

/-- **Active runs can be recovered.** In every run of any tasks, every stored run that is claimed has a lease, and
every active run is either queued and claimable once due, or leased and returned to the queue by every reclaim
after its lease, unless a `RunStarted` event was handled with a queued copy of it: only then can it be running
without a lease. -/
theorem active_runs_recoverable (host : Host) {s : State} {c : SystemConfig}
    (initially : ∀ row ∈ s.store.runs.rows,
      row.Shaped ∧ (row.status = .running → row.claimLeaseUntil.isSome = true))
    (reach : (system host).Reach (fun _ _ _ => True) (.idle (.fresh s)) c) {id : String} {row : Run}
    (stored : c.world.run id = some row) :
    (row.status = .claimed → row.claimLeaseUntil.isSome = true) ∧
      (row.status.isActive = true → Recoverable c.world.store row ∨
        (row.status = .running ∧ row.claimLeaseUntil = none ∧ startedQueued id c.world.log = true)) := by
  have start : (recoveryRules host).inv (.fresh s) := by
    refine ⟨⟨.nil, fun id row stored => (initially row (Collections.Table.mem_of_lookup stored)).1⟩, ?_⟩
    intro id row stored running unleased
    have leased := (initially row (Collections.Table.mem_of_lookup stored)).2 running
    rw [unleased] at leased
    cases leased
  obtain ⟨⟨-, shaped⟩, leased⟩ := ((recoveryRules host).sound (protocol_governs host)
    (Rules.Standing.initial (recoveryRules host) start fun _ => trivial) reach).inv
  have shaped := shaped id row stored
  have isRun : row.runId = id := Collections.Table.key_of_lookup stored
  -- a lease makes a claimed or running run reclaimable
  have reclaimable : Store.leased row = true → ∀ t, row.claimLeaseUntil = some t → Recoverable c.world.store row := by
    intro active t lease
    refine .inr ⟨active, t, lease, ?_⟩
    rw [isRun]
    exact reclaimableFrom_of_leased stored active lease
  refine ⟨fun claimed => (shaped.claimed claimed).2.1, fun active => ?_⟩
  cases status : row.status with
  | queued => exact .inl (.inl ⟨status, shaped.claimable status⟩)
  | claimed =>
    obtain ⟨t, lease⟩ := Option.isSome_iff_exists.mp (shaped.claimed status).2.1
    exact .inl (reclaimable (by simp [Store.leased, status]) t lease)
  | running =>
    cases lease : row.claimLeaseUntil with
    | none => exact .inr ⟨rfl, rfl, leased id row stored status lease⟩
    | some t => exact .inl (reclaimable (by simp [Store.leased, status]) t lease)
  | success | failed | canceled | timeout => rw [status] at active; cases active

/-- A slot has started the run, whose lease is that of the slot's claim. -/
theorem active_runs_recoverable_started :
    ∃ c, (system .simple).Reach (fun _ _ _ => True) (.idle (.fresh ((State.single minutelyJob 0).withRun queuedRun))) c ∧
      ∃ row, c.world.run "r" = some row ∧ row.status = .running ∧ Recoverable c.world.store row := by
  obtain ⟨c, reach, ends⟩ := exists_run .simple (fun _ _ _ => True) ((State.single minutelyJob 0).withRun queuedRun)
    (startSlot 0 "a" ++ calls 0 3)
    (fun c => !startedQueued "r" c.world.log && (c.world.run "r").any (·.status == .running)) (by decide +kernel)
  obtain ⟨unseen, started⟩ := (Bool.and_eq_true _ _).mp ends
  obtain ⟨row, stored, running⟩ := (Option.any_eq_true _ _).mp started
  have running : row.status = .running := beq_iff_eq.mp running
  have initially : ∀ row ∈ ((State.single minutelyJob 0).withRun queuedRun).store.runs.rows,
      row.Shaped ∧ (row.status = .running → row.claimLeaseUntil.isSome = true) := by
    intro row inside
    obtain rfl := List.mem_singleton.mp inside
    exact ⟨.of_unstarted ⟨rfl, rfl, rfl, rfl, rfl⟩, fun running => by cases running⟩
  refine ⟨c, reach, row, stored, running, ?_⟩
  rcases (active_runs_recoverable .simple initially reach stored).2 (by rw [running]; rfl) with recoverable | ⟨-, -, seen⟩
  · exact recoverable
  · rw [seen] at unseen
    cases unseen

/-- `RunStarted` for a queued run: it is running, has no lease, and neither a claim nor a reclaim ever takes it. -/
theorem started_run_stuck :
    ∃ c, (system .simple).Reach (fun _ _ _ => True) (.idle (.fresh ((State.single minutelyJob 0).withRun queuedRun))) c ∧
      ∃ row, c.world.run "r" = some row ∧ row.status = .running ∧ row.claimLeaseUntil = none ∧
        (∀ now pool, Store.claimable pool now row = false) ∧ (∀ now, Store.leaseExpired now row = false) := by
  obtain ⟨c, reach, ends⟩ := exists_run .simple (fun _ _ _ => True) ((State.single minutelyJob 0).withRun queuedRun)
    (.start 0 (.event (.runStarted "r")) :: calls 0 3)
    (fun c => (c.world.run "r").any fun row => row.status == .running && row.claimLeaseUntil.isNone) (by decide +kernel)
  obtain ⟨row, stored, stuck⟩ := (Option.any_eq_true _ _).mp ends
  simp only [Bool.and_eq_true, beq_iff_eq, Option.isNone_iff_eq_none] at stuck
  refine ⟨c, reach, row, stored, stuck.1, stuck.2, fun now pool => ?_, fun now => ?_⟩
  · simp [Store.claimable, stuck.1]
  · simp [Store.leaseExpired, stuck.2]

end Chronon
