import Chronon.Runs.Ids
import Chronon.Tick.Claims

/-!
# A run is executed by one slot at a time

While the stored lease of a run lies ahead of the clock, nobody reclaims the
run, so the slot that claimed it is alone with it until its final write. The
history of a run is then one of three: no slot has claimed it, one slot is at
work on it, or one slot has finished it (`RunTrace`).
-/

namespace Chronon
set_option autoImplicit false

open Concurrent

/-! ## Slots in the history -/

/-- A slot at work: the worker and the run it claimed. -/
structure Slot where
  workerId : String
  runId : String
  deriving DecidableEq

/-- What a task is at work on after one of its calls. A slot that cannot store its row gives up. -/
def workingAfter (e : LogEntry) (at_ : Option Slot) : Option Slot :=
  match e with
  | ⟨_, _, .store (.claimNextQueued _ workerId _ _), .ok (some run)⟩ => some ⟨workerId, run.runId⟩
  | ⟨_, _, .store (.updateRun run), .ok ()⟩ => if run.status.isTerminal then none else at_
  | ⟨_, _, .store (.updateRun _), .error _⟩ => none
  | _ => at_

/-- The slot task `p` is: it is between a successful `claim_next_queued` and its final write. -/
def working (p : Nat) (log : Log) : Option Slot := track workingAfter none p log

/-- The tasks that claimed run `id`. -/
def claimants (id : String) : Log → List Nat
  | [] => []
  | e :: older =>
    match e with
    | ⟨p, _, .store (.claimNextQueued _ _ _ _), .ok (some run)⟩ =>
      if run.runId = id then p :: claimants id older else claimants id older
    | _ => claimants id older

/-- The tasks that stored a terminal status of run `id`. -/
def terminalWriters (id : String) : Log → List Nat
  | [] => []
  | e :: older =>
    match e with
    | ⟨p, _, .store (.updateRun run), .ok ()⟩ =>
      if run.runId = id ∧ run.status.isTerminal = true then p :: terminalWriters id older else terminalWriters id older
    | _ => terminalWriters id older

/-- At most one slot is at work on run `id`, and the row names it. -/
def ExecutesAlone (id : String) (w : World) : Prop :=
  ∀ p v, working p w.log = some v → v.runId = id →
    (∃ row, w.run id = some row ∧ row.claimedBy = some v.workerId) ∧
      ∀ q v', working q w.log = some v' → v'.runId = id → q = p

/-- Run `id` is claimed at most once, and receives exactly one terminal status, from the slot that claimed
it, unless that slot is still at work. -/
def FinishedOnce (id : String) (w : World) : Prop :=
  (claimants id w.log).length ≤ 1 ∧
    (terminalWriters id w.log = claimants id w.log ∨
      (terminalWriters id w.log = [] ∧
        ∃ p v, claimants id w.log = [p] ∧ working p w.log = some v ∧ v.runId = id))

/-! ## The setting -/

/-- Whether a step reads a run by its identifier, which only event handlers do. -/
def readsRun : SystemLabel → Bool
  | .call _ (.store (.getRun _)) _ => true
  | _ => false

/-- No executor event is handled. -/
def NoEvents (l : SystemLabel) : Prop := readsRun l = false

instance (l : SystemLabel) : Decidable (NoEvents l) := inferInstanceAs (Decidable (readsRun l = false))

/-- While a slot is at work on run `id`, the stored lease lies ahead of the clock. -/
def LeaseAhead (id : String) (w : World) : Prop :=
  ∀ p, ∀ v ∈ working p w.log, v.runId = id → ∀ row ∈ w.run id, row.claimLeaseUntil.any (w.clock < ·) = true

instance (id : String) (w : World) : Decidable (LeaseAhead id w) :=
  decidable_of_iff (∀ p ∈ w.log.map Entry.pid, ∀ v ∈ working p w.log, v.runId = id → ∀ row ∈ w.run id,
      row.claimLeaseUntil.any (w.clock < ·) = true)
    (forall_track (Q := fun _ (at_ : Option Slot) => ∀ v ∈ at_, v.runId = id → ∀ row ∈ w.run id,
      row.claimLeaseUntil.any (w.clock < ·) = true) (by simp)).symm

/-- The time by which a `reclaim_expired_run_leases` takes leases to be over. -/
def reclaims : SystemLabel → Option DateTime
  | .call _ (.store (.reclaimExpiredRunLeases now)) _ => some now
  | _ => none

/-- No reclaim finds the lease of run `id` over while a slot is at work on it. -/
def LeaseSpared (id : String) (l : SystemLabel) (w : World) : Prop :=
  ∀ now ∈ reclaims l, ∀ p, ∀ v ∈ working p w.log, v.runId = id → ∀ row ∈ w.run id, Store.leaseExpired now row = false

/-! ## The invariant -/

/-- What a task is at work on, by its phase. -/
def Phase.works : Phase → Option Slot
  | .copied (some workerId) run _ => some ⟨workerId, run.runId⟩
  | _ => none

/-- Nobody is at work on run `id`. -/
def Unworked (id : String) (w : World) : Prop := ∀ p v, working p w.log = some v → v.runId ≠ id

/-- Where the history of run `id` stands. -/
inductive RunTrace (id : String) (w : World) : Prop
  | waiting : claimants id w.log = [] → terminalWriters id w.log = [] → Unworked id w → RunTrace id w
  | held (p : Nat) (v : Slot) (row : Run) : claimants id w.log = [p] → terminalWriters id w.log = [] →
      working p w.log = some v → v.runId = id → (∀ q v', working q w.log = some v' → v'.runId = id → q = p) →
      w.run id = some row → row.claimedBy = some v.workerId → Store.leased row = true → RunTrace id w
  | finished (p : Nat) (row : Run) : claimants id w.log = [p] → terminalWriters id w.log = [p] → Unworked id w →
      w.run id = some row → row.status.isTerminal = true → RunTrace id w

structure RunInv (id : String) (w : World) : Prop where
  once : DrawnOnce w.log
  ahead : LeaseAhead id w
  trace : RunTrace id w

/-- What a task asserts. -/
structure SlotHolds (p : Nat) (φ : Phase) (w : World) : Prop where
  reads : ∀ t ∈ φ.reading, t ≤ w.clock
  works : working p w.log = φ.works
  named : ∀ workerId run job, φ = .copied (some workerId) run job → run.claimedBy = some workerId
  uneventful : ∀ run job, φ ≠ .copied none run job
  fresh : InsertsFresh p φ w

section Step

variable {host : Host} {id : String} {p q : Nat} {oracle : Oracle} {w w' : World} {φ φ' : Phase} {op : Op} {r : Ans op}

theorem workingAfter_silent {s : State} {at_ : Option Slot} (quiet : Silent op) :
    workingAfter ⟨p, s, op, r⟩ at_ = at_ := by
  cases op with
  | store c => cases c <;> first | rfl | exact quiet.elim
  | _ => rfl

/-- The phase of a task says what it is at work on. -/
theorem Move.workingAfter (move : Move host φ op r φ') (ran : perform p oracle w op = some (r, w')) :
    workingAfter ⟨p, w.state, op, r⟩ φ.works = φ'.works := by
  cases move with
  | silent quiet => exact workingAfter_silent quiet
  | start _ same started =>
    rename_i worker run run' job _
    have going : run'.status.isTerminal = false := by rw [started.status]; rfl
    simp only [Chronon.workingAfter, going]
    cases worker with
    | none => rfl
    | some workerId => simp [Phase.works, identity_runId same]
  | finish _ _ finished =>
    rename_i r _ _
    cases r with
    | ok => simp [Chronon.workingAfter, finished.status, Phase.works]
    | error e => rfl
  | fail _ _ finished _ _ => simp [Chronon.workingAfter, finished.status, Phase.works]
  | takeNone none_ =>
    rename_i r
    cases r with
    | error e => rfl
    | ok found =>
      cases found with
      | none => rfl
      | some run => exact absurd rfl (none_ run)
  | readJobOf _ => rename_i worker run jobId r _; cases worker <;> rfl
  | misfired | admitted | create | createFailed => split <;> rfl
  | checkName => split <;> rfl
  | _ => rfl

/-- A lease that lies ahead of the clock has not expired by any reading. -/
theorem not_leaseExpired {row : Run} {now clock : DateTime} (ahead : row.claimLeaseUntil.any (clock < ·) = true)
    (read : now ≤ clock) : Store.leaseExpired now row = false := by
  obtain ⟨u, until_, later⟩ := (Option.any_eq_true _ _).mp ahead
  have late : now < u := lt_of_le_of_lt read (of_decide_eq_true later)
  simp [Store.leaseExpired, until_, not_le.mpr late]

/-- A stored row keeps its status and its holder, unless it is claimed, replaced or reclaimed. -/
theorem SlotHolds.row_kept {row : Run} (holds : SlotHolds p φ w) (move : Move host φ op r φ')
    (ran : perform p oracle w op = some (r, w')) (stored : w.run id = some row)
    (unclaimed : ∀ pool worker now ttl, ¬ RunWrote id op r (.claim pool worker now ttl))
    (unwritten : ∀ run, ¬ RunWrote id op r (.update run))
    (unexpired : ∀ now ∈ reclaims (.call p op r), Store.leaseExpired now row = false) :
    ∃ row', w'.run id = some row' ∧ row'.claimedBy = row.claimedBy ∧ row'.status = row.status := by
  obtain ⟨row', stored', rfl | wrote | ⟨_, _, _, _, wrote, -, -⟩ | ⟨_, _, -, rfl, -⟩ | ⟨now, wrote, rfl⟩⟩ :=
    perform_run_some ran stored (holds.fresh.created move)
  · exact ⟨row', stored', rfl, rfl⟩
  · exact absurd wrote (unwritten _)
  · exact absurd wrote (unclaimed _ _ _ _)
  · exact ⟨_, stored', rfl, rfl⟩
  · have spared : Store.leaseExpired now row = false := by
      cases wrote
      exact unexpired now rfl
    refine ⟨_, stored', ?_, ?_⟩
    all_goals rw [Store.reclaimed_of_unexpired spared]

/-- A lease that lies ahead of the clock is spared. -/
theorem LeaseAhead.spared (ahead : LeaseAhead id w) (holds : SlotHolds p φ w) (move : Move host φ op r φ') :
    LeaseSpared id (.call p op r) w := by
  intro now isReclaim q v works onRun row stored
  have read : now ≤ w.clock := by
    cases move with
    | silent quiet =>
      cases op with
      | store c => cases c <;> first | exact quiet.elim | cases isReclaim
      | _ => cases isReclaim
    | reclaim =>
      cases isReclaim
      exact holds.reads _ rfl
    | _ => cases isReclaim
  exact not_leaseExpired (ahead q v works onRun row stored) read

theorem leased_of_status {row row' : Run} (same : row'.status = row.status) : Store.leased row' = Store.leased row := by
  simp only [Store.leased, same]

theorem claimants_same (ran : perform p oracle w op = some (r, w'))
    (unclaimed : ∀ pool worker now ttl, ¬ RunWrote id op r (.claim pool worker now ttl)) :
    claimants id w'.log = claimants id w.log := by
  rw [(perform_cases ran).2]
  cases op with
  | store c =>
    cases c with
    | claimNextQueued poolId workerId now ttl =>
      cases r with
      | error e => rfl
      | ok found =>
        cases found with
        | none => rfl
        | some run => exact if_neg fun same => unclaimed poolId workerId now ttl (.claim same)
    | _ => rfl
  | _ => rfl

theorem terminalWriters_same (ran : perform p oracle w op = some (r, w'))
    (unwritten : ∀ run, ¬ RunWrote id op r (.update run)) : terminalWriters id w'.log = terminalWriters id w.log := by
  rw [(perform_cases ran).2]
  cases op with
  | store c =>
    cases c with
    | updateRun run =>
      cases r with
      | error e => rfl
      | ok => exact if_neg fun same => unwritten run (.update same.1)
    | _ => rfl
  | _ => rfl

/-- A step that neither claims nor writes run `id` leaves its history where it is. -/
theorem RunTrace.quiet (trace : RunTrace id w) (holds : SlotHolds p φ w) (move : Move host φ op r φ')
    (ran : perform p oracle w op = some (r, w')) (spared : LeaseSpared id (.call p op r) w)
    (own : ∀ v : Slot, v.runId = id → (φ'.works = some v ↔ φ.works = some v))
    (unclaimed : ∀ pool worker now ttl, ¬ RunWrote id op r (.claim pool worker now ttl))
    (unwritten : ∀ run, ¬ RunWrote id op r (.update run)) : RunTrace id w' := by
  have claims := claimants_same ran unclaimed
  have ends := terminalWriters_same ran unwritten
  have slots : ∀ q v, v.runId = id → (working q w'.log = some v ↔ working q w.log = some v) := by
    intro q v onRun
    by_cases same : p = q
    · subst same
      have before : track Chronon.workingAfter none p w.log = φ.works := holds.works
      rw [working, track_own_call ran, before, move.workingAfter ran, holds.works]
      exact own v onRun
    · rw [working, track_other_call ran same]
      rfl
  have unworked : Unworked id w → Unworked id w' :=
    fun nobody q v works onRun => nobody q v ((slots q v onRun).mp works) onRun
  cases trace with
  | waiting none_ unended nobody => exact .waiting (claims.trans none_) (ends.trans unended) (unworked nobody)
  | held p' v row claimed unended works onRun only stored named active =>
    obtain ⟨row', stored', sameBy, sameStatus⟩ := holds.row_kept move ran stored unclaimed unwritten
      fun now isReclaim => spared now isReclaim p' v works onRun row stored
    exact .held p' v row' (claims.trans claimed) (ends.trans unended) ((slots p' v onRun).mpr works) onRun
      (fun q v' works' onRun' => only q v' ((slots q v' onRun').mp works') onRun') stored' (sameBy.trans named)
      ((leased_of_status sameStatus).trans active)
  | finished p' row claimed ended nobody stored terminal =>
    obtain ⟨row', stored', -, sameStatus⟩ := holds.row_kept move ran stored unclaimed unwritten
      fun now _ => Store.leaseExpired_of_terminal terminal now
    exact .finished p' row' (claims.trans claimed) (ends.trans ended) (unworked nobody) stored'
      (by rw [sameStatus]; exact terminal)

/-- A slot at work on run `id` is the one its history names. -/
theorem RunTrace.mine {v : Slot} (trace : RunTrace id w) (works : working p w.log = some v) (onRun : v.runId = id) :
    ∃ row, claimants id w.log = [p] ∧ terminalWriters id w.log = [] ∧
      (∀ q v', working q w.log = some v' → v'.runId = id → q = p) ∧ w.run id = some row := by
  cases trace with
  | waiting _ _ nobody => exact absurd onRun (nobody p v works)
  | finished _ _ _ _ nobody _ _ => exact absurd onRun (nobody p v works)
  | held p' v' row claimed unended works' onRun' only stored _ _ =>
    obtain rfl := only p v works onRun
    exact ⟨row, claimed, unended, only, stored⟩

/-- A run that can be claimed has not been. -/
theorem RunTrace.claimed {pool : String} {now : DateTime} {row : Run} (trace : RunTrace id w) (stored : w.run id = some row)
    (free : Store.claimable pool now row = true) :
    claimants id w.log = [] ∧ terminalWriters id w.log = [] ∧ Unworked id w := by
  have queued := Store.queued_of_claimable free
  cases trace with
  | waiting none_ unended nobody => exact ⟨none_, unended, nobody⟩
  | held _ _ row' _ _ _ _ _ stored' _ active =>
    rw [stored] at stored'
    cases stored'
    simp [Store.leased, queued] at active
  | finished _ row' _ _ _ stored' terminal =>
    rw [stored] at stored'
    cases stored'
    rw [queued] at terminal
    cases terminal

theorem working_other (ran : perform p oracle w op = some (r, w')) (apart : q ≠ p) :
    working q w'.log = working q w.log := track_other_call ran (Ne.symm apart)

/-- A claim starts the history of the run it takes. -/
theorem RunTrace.take {workerId pool : String} {now : DateTime} {ttl : Int} {run : Run}
    (trace : RunTrace run.runId w) (works : working p w'.log = some ⟨workerId, run.runId⟩)
    (ran : perform p oracle w (.store (.claimNextQueued pool workerId now ttl)) = some (.ok (some run), w')) :
    RunTrace run.runId w' := by
  obtain ⟨old, stored, free, rfl, stored'⟩ := perform_take ran
  obtain ⟨none_, unended, nobody⟩ := trace.claimed stored free
  refine .held p _ _ ?_ ?_ works rfl (fun q v works' onRun => ?_) stored' rfl rfl
  · rw [(perform_cases ran).2]
    show (if _ then _ else _) = _
    rw [if_pos rfl, none_]
  · rw [(perform_cases ran).2]
    exact unended
  · by_contra apart
    rw [working_other ran apart] at works'
    exact nobody q v works' onRun

/-- The start write of a slot keeps it at work on its run. -/
theorem RunTrace.started {run : Run} {v : Slot} (trace : RunTrace run.runId w) (works : working p w.log = some v)
    (onRun : v.runId = run.runId) (named : run.claimedBy = some v.workerId) (running : run.status = .running)
    (works' : working p w'.log = some v) (ran : perform p oracle w (.store (.updateRun run)) = some (.ok (), w')) :
    RunTrace run.runId w' := by
  obtain ⟨row, claimed, unended, only, stored⟩ := trace.mine works onRun
  refine .held p v run ?_ ?_ works' onRun (fun q v' worksQ onRun' => ?_) (perform_update ran stored).2 named ?_
  · rw [(perform_cases ran).2]
    exact claimed
  · rw [(perform_cases ran).2]
    show (if _ then _ else _) = _
    rw [if_neg (by rw [running]; exact fun both => Bool.false_ne_true both.2)]
    exact unended
  · by_contra apart
    rw [working_other ran apart] at worksQ
    exact apart (only q v' worksQ onRun')
  · simp [Store.leased, running]

/-- The final write of a slot ends the history of its run. -/
theorem RunTrace.ended {run : Run} {v : Slot} (trace : RunTrace run.runId w) (works : working p w.log = some v)
    (onRun : v.runId = run.runId) (terminal : run.status.isTerminal = true) (works' : working p w'.log = none)
    (ran : perform p oracle w (.store (.updateRun run)) = some (.ok (), w')) : RunTrace run.runId w' := by
  obtain ⟨row, claimed, unended, only, stored⟩ := trace.mine works onRun
  refine .finished p run ?_ ?_ (fun q v' worksQ onRun' => ?_) (perform_update ran stored).2 terminal
  · rw [(perform_cases ran).2]
    exact claimed
  · rw [(perform_cases ran).2]
    show (if _ then _ else _) = _
    rw [if_pos ⟨rfl, terminal⟩, unended]
  · by_cases same : q = p
    · subst same
      rw [works'] at worksQ
      cases worksQ
    · rw [working_other ran same] at worksQ
      exact same (only q v' worksQ onRun')

theorem SlotHolds.own_works (holds : SlotHolds p φ w) (move : Move host φ op r φ')
    (ran : perform p oracle w op = some (r, w')) : working p w'.log = φ'.works := by
  have before : track Chronon.workingAfter none p w.log = φ.works := holds.works
  rw [working, track_own_call ran, before, move.workingAfter ran]

/-- A row that a slot cannot write back is not that of the run it has claimed. -/
theorem RunTrace.written {run : Run} {v : Slot} {e : ChrononError} (trace : RunTrace id w) (works : working p w.log = some v)
    (same : run.runId = v.runId)
    (ran : perform p oracle w (.store (.updateRun run)) = some (.error e, w')) : v.runId ≠ id := by
  intro onRun
  obtain ⟨row, -, -, -, stored⟩ := trace.mine works onRun
  rw [← onRun, ← same] at stored
  cases (perform_update ran stored).1

theorem RunTrace.final {workerId : String} {run run' : Run} {job : Option Job} (trace : RunTrace id w)
    (holds : SlotHolds p (.copied (some workerId) run job) w)
    (move : Move host (.copied (some workerId) run job) (.store (.updateRun run')) (.ok ()) φ')
    (same : run'.identity = run.identity) (terminal : run'.status.isTerminal = true) (stopped : φ'.works = none)
    (ran : perform p oracle w (.store (.updateRun run')) = some (.ok (), w')) : RunTrace id w' := by
  have sameId := identity_runId same
  by_cases onRun : run'.runId = id
  · subst onRun
    exact trace.ended holds.works sameId.symm terminal ((holds.own_works move ran).trans stopped) ran
  · refine trace.quiet holds move ran (fun _ isReclaim => by cases isReclaim) (fun v isRun => ?_)
      (fun _ _ _ _ wrote => by cases wrote) fun _ wrote => ?_
    · rw [stopped]
      refine ⟨fun none_ => (by cases none_), fun mine => ?_⟩
      cases mine
      exact absurd (sameId.trans isRun) onRun
    · cases wrote with
      | update same => exact onRun same

/-- **One step moves the history of a run along.** -/
theorem RunTrace.step (trace : RunTrace id w) (holds : SlotHolds p φ w) (move : Move host φ op r φ')
    (ran : perform p oracle w op = some (r, w')) (spared : LeaseSpared id (.call p op r) w) : RunTrace id w' := by
  have works := holds.works
  have works' := holds.own_works move ran
  have quiet := trace.quiet holds move ran spared
  have step := move
  cases move with
  | silent silent_ =>
    refine quiet (fun _ _ => Iff.rfl) (fun _ _ _ _ wrote => ?_) fun _ wrote => ?_
    · cases wrote <;> exact silent_
    · cases wrote; exact silent_
  | take =>
    rename_i workerId pool now run
    by_cases onRun : run.runId = id
    · subst onRun
      exact trace.take works' ran
    · refine quiet (fun v isRun => ?_) (fun _ _ _ _ wrote => ?_) fun _ wrote => by cases wrote
      · refine ⟨fun taken => ?_, fun none_ => by cases none_⟩
        cases taken
        exact absurd isRun onRun
      · cases wrote with
        | claim same => exact onRun same
  | start _ same started =>
    rename_i worker run run' job _
    cases worker with
    | none => exact absurd rfl (holds.uneventful run job)
    | some workerId =>
      have sameId := identity_runId same
      by_cases onRun : run'.runId = id
      · subst onRun
        refine trace.started works sameId.symm ?_ started.status ?_ ran
        · rw [identity_claimedBy same]
          exact holds.named workerId run job rfl
        · rw [works', ← sameId]
          rfl
      · refine quiet (fun v _ => ?_) (fun _ _ _ _ wrote => by cases wrote) fun _ wrote => ?_
        · simp only [Phase.works, sameId]
        · cases wrote with
          | update same => exact onRun same
  | startFailed _ same _ =>
    rename_i worker run run' job e _ _
    cases worker with
    | none => exact absurd rfl (holds.uneventful run job)
    | some workerId =>
      refine quiet (fun v isRun => ?_) (fun _ _ _ _ wrote => by cases wrote) fun _ wrote => by cases wrote
      refine ⟨fun none_ => (by cases none_), fun mine => ?_⟩
      cases mine
      exact absurd isRun (trace.written works (identity_runId same) ran)
  | finish _ same finished =>
    rename_i worker run run' job r _
    cases worker with
    | none => exact absurd rfl (holds.uneventful run job)
    | some workerId =>
      cases r with
      | error e =>
        refine quiet (fun v isRun => ?_) (fun _ _ _ _ wrote => by cases wrote) fun _ wrote => by cases wrote
        refine ⟨fun none_ => (by cases none_), fun mine => ?_⟩
        cases mine
        exact absurd isRun (trace.written works (identity_runId same) ran)
      | ok => exact trace.final holds step same finished.status rfl ran
  | fail _ same finished _ _ =>
    rename_i worker run run' job _ _ _
    cases worker with
    | none => exact absurd rfl (holds.uneventful run job)
    | some workerId => exact trace.final holds step same finished.status rfl ran
  | misfired | admitted | create | createFailed | checkName =>
    refine quiet (fun v _ => ?_) (fun _ _ _ _ wrote => by cases wrote) fun _ wrote => by cases wrote
    split <;> exact Iff.rfl
  | takeNone none_ =>
    refine quiet (fun _ _ => Iff.rfl) (fun _ _ _ _ wrote => ?_) fun _ wrote => by cases wrote
    cases wrote
    exact none_ _ rfl
  | readJobOf _ =>
    rename_i worker run jobId r _
    refine quiet (fun _ _ => ?_) (fun _ _ _ _ wrote => by cases wrote) fun _ wrote => by cases wrote
    cases worker <;> exact Iff.rfl
  | _ =>
    exact quiet (fun _ _ => Iff.rfl) (fun _ _ _ _ wrote => by cases wrote) fun _ wrote => by cases wrote

theorem SlotHolds.named_step {workerId : String} {run : Run} {job : Option Job} (holds : SlotHolds p φ w)
    (copy : ToCopy host φ op r (some workerId) run job) (ran : perform p oracle w op = some (r, w')) :
    run.claimedBy = some workerId := by
  cases copy with
  | silent _ | readJob _ | readNoJob _ | execute => exact holds.named workerId run _ rfl
  | take =>
    obtain ⟨old, -, -, rfl, -⟩ := perform_take ran
    rfl
  | start _ same _ =>
    rw [identity_claimedBy same]
    exact holds.named workerId _ _ rfl

theorem SlotHolds.uneventful_step {run : Run} {job : Option Job} (holds : SlotHolds p φ w)
    (noEvents : NoEvents (.call p op r)) : ¬ ToCopy host φ op r none run job := by
  intro copy
  cases copy with
  | silent _ | readJob _ | readNoJob _ | start _ _ _ => exact holds.uneventful _ _ rfl
  | read => cases noEvents

/-! ## The tasks -/

theorem SlotHolds.start {proc : Proc} (idle : working p w.log = none) : SlotHolds p proc.phase w := by
  refine ⟨?_, ?_, ?_, ?_, .start⟩
  · cases proc <;> exact fun t none_ => by cases none_
  · cases proc <;> exact idle
  · cases proc <;> exact fun _ _ _ none_ => by cases none_
  · cases proc <;> exact fun _ _ none_ => by cases none_

theorem SlotHolds.finish (holds : SlotHolds p φ w) (ended : φ.ended) : working p w.log = none := by
  rw [holds.works]
  unfold Phase.ended at ended
  split at ended
  · exact ended.elim
  · rename_i other
    unfold Phase.works
    split
    · exact absurd rfl (other _ _ _)
    · rfl

theorem SlotHolds.own (holds : SlotHolds p φ w) (move : Move host φ op r φ')
    (ran : perform p oracle w op = some (r, w')) (noEvents : NoEvents (.call p op r)) : SlotHolds p φ' w' :=
  ⟨move.reading_le ran holds.reads, holds.own_works move ran,
    fun _ _ _ isCopy => holds.named_step (isCopy ▸ move).toCopy ran,
    fun _ _ isCopy => holds.uneventful_step noEvents (isCopy ▸ move).toCopy, holds.fresh.own move ran⟩

theorem SlotHolds.other (holds : SlotHolds p φ w) (once : DrawnOnce w.log) (steps : FreshStep q w w') (apart : p ≠ q) :
    SlotHolds p φ w' := by
  have fresh := holds.fresh.other once steps apart
  obtain ⟨oracle, op, r, ran, -⟩ := steps.stepped
  refine ⟨fun t read => ?_, ?_, holds.named, holds.uneventful, fresh⟩
  · rw [perform_clock ran]
    exact holds.reads t read
  · rw [working_other ran apart]
    exact holds.works

theorem SlotHolds.drift {e : Env} (holds : SlotHolds p φ w) (drifts : Chronon.drift e w = some w') :
    SlotHolds p φ w' := by
  obtain ⟨later, -, -, log⟩ := drift_cases drifts
  exact ⟨fun t read => (holds.reads t read).trans later, by rw [log]; exact holds.works, holds.named, holds.uneventful,
    holds.fresh.drift drifts⟩

theorem working_idle (steps : FreshStep q w w') (apart : p ≠ q) (idle : working p w.log = none) :
    working p w'.log = none := by
  obtain ⟨oracle, op, r, ran, -⟩ := steps.stepped
  rw [working_other ran apart]
  exact idle

theorem RunTrace.drift {e : Env} (trace : RunTrace id w) (drifts : Chronon.drift e w = some w') : RunTrace id w' := by
  obtain ⟨-, -, runs, log⟩ := drift_cases drifts
  cases trace with
  | waiting none_ unended nobody =>
    exact .waiting (by rw [log]; exact none_) (by rw [log]; exact unended) (by rw [Unworked, log]; exact nobody)
  | held p v row claimed unended works onRun only stored named active =>
    exact .held p v row (by rw [log]; exact claimed) (by rw [log]; exact unended) (by rw [log]; exact works) onRun
      (by rw [log]; exact only) (by rw [runs]; exact stored) named active
  | finished p row claimed ended nobody stored terminal =>
    exact .finished p row (by rw [log]; exact claimed) (by rw [log]; exact ended) (by rw [Unworked, log]; exact nobody)
      (by rw [runs]; exact stored) terminal

end Step

/-- Steps in which leases are kept: no slot is at work on a run whose stored lease has passed. -/
def LeaseSetting (id : String) (l : SystemLabel) (w' : World) : Prop := NoEvents l ∧ LeaseAhead id w'

instance (id : String) (l : SystemLabel) (w' : World) : Decidable (LeaseSetting id l w') :=
  inferInstanceAs (Decidable (_ ∧ _))

/-- The rules behind exclusive execution. -/
def slotRules (host : Host) (id : String) :
    Rules (system host) (protocol host) fun l _ w' => LeaseSetting id l w' where
  inv := RunInv id
  guar := FreshStep
  idle p w := working p w.log = none
  holds := SlotHolds
  start _ idle _ := .start idle
  finish _ ended holds := holds.finish ended
  own := by
    intro p φ op r φ' oracle w w' inv holds move ran allowed
    refine ⟨⟨inv.once.step ran, allowed.2, ?_⟩, ⟨_, _, _, ran, holds.fresh.created move⟩, holds.own move ran allowed.1⟩
    exact inv.trace.step holds move ran (inv.ahead.spared holds move)
  other apart inv _ steps holds := holds.other inv.once steps apart
  otherIdle apart _ _ steps idle := working_idle steps apart idle
  drift := by
    intro e w w' inv drifts allowed
    have log := (drift_cases drifts).2.2.2
    exact ⟨⟨by rw [log]; exact inv.once, allowed.2, inv.trace.drift drifts⟩, fun p φ holds => holds.drift drifts,
      fun p idle => by rw [log]; exact idle⟩

/-- **A run is executed by one slot at a time**, if the stored lease lies ahead of the clock for as long as
a slot is at work on it: the row names that slot, and the run receives one terminal status, from it. -/
theorem run_executed_alone (host : Host) (id : String) {s : State} {c : SystemConfig}
    (reach : (system host).Reach (fun l _ w' => LeaseSetting id l w') (.idle (.fresh s)) c) :
    ExecutesAlone id c.world ∧ FinishedOnce id c.world := by
  have start : RunInv id (.fresh s) :=
    ⟨.nil, fun p v works => (by cases works), .waiting rfl rfl fun p v works => (by cases works)⟩
  have inv := ((slotRules host id).sound (protocol_governs host)
    (Rules.Standing.initial (slotRules host id) start fun _ => rfl) reach).inv
  constructor
  · intro p v works onRun
    cases inv.trace with
    | waiting _ _ nobody => exact absurd onRun (nobody p v works)
    | finished _ _ _ _ nobody _ _ => exact absurd onRun (nobody p v works)
    | held p' v' row _ _ works' onRun' only stored named _ =>
      obtain rfl := only p v works onRun
      rw [works] at works'
      cases works'
      exact ⟨⟨row, stored, named⟩, only⟩
  · cases inv.trace with
    | waiting none_ unended _ =>
      rw [FinishedOnce, none_, unended]
      exact ⟨Nat.zero_le 1, .inl rfl⟩
    | held p v _ claimed unended works onRun _ _ _ _ =>
      rw [FinishedOnce, claimed, unended]
      exact ⟨Nat.le_refl 1, .inr ⟨rfl, p, v, rfl, works, onRun⟩⟩
    | finished p _ claimed ended _ _ _ =>
      rw [FinishedOnce, claimed, ended]
      exact ⟨Nat.le_refl 1, .inl rfl⟩

/-- A run of the minutely job, ready to be claimed. -/
def queuedRun : Run := Run.forJob "r" "j" "noop" 0

/-- A slot claims the run, renews its lease while the script runs, and finishes it. -/
theorem run_executed_alone_renewed :
    ∃ c, (system .simple).Reach (fun l _ w' => LeaseSetting "r" l w')
        (.idle (.fresh ((State.single minutelyJob 0).withRun queuedRun))) c ∧
      (terminalWriters "r" c.world.log == [0]) = true ∧ ExecutesAlone "r" c.world ∧ FinishedOnce "r" c.world := by
  obtain ⟨c, reach, holds⟩ := exists_run .simple (fun l _ w' => LeaseSetting "r" l w')
    ((State.single minutelyJob 0).withRun queuedRun)
    (startSlot 0 "a" ++ calls 0 3 ++ [.start 1 (.renew "r" "a"), .env (.advance (seconds 200))] ++ calls 1 3 ++
      [.env (.advance (seconds 400))] ++ runScript 0 (.ok ()) ++ calls 0 1)
    (fun c => terminalWriters "r" c.world.log == [0]) (by decide +kernel)
  exact ⟨c, reach, holds, run_executed_alone .simple "r" reach⟩

/-- The run a `renew_run_lease` names. -/
def renewed : SystemLabel → Option String
  | .call _ (.store (.renewRunLease runId _ _ _)) _ => some runId
  | _ => none

/-- Renewals and final writes come before the stored lease ends. -/
def WritesInTime (l : SystemLabel) (w : World) : Prop :=
  (∀ runId ∈ renewed l, ∀ row ∈ w.run runId, row.claimLeaseUntil.any (w.clock < ·) = true) ∧
    ∀ run ∈ updated l, run.status.isTerminal = true →
      ∀ row ∈ w.run run.runId, row.claimLeaseUntil.any (w.clock < ·) = true

instance (l : SystemLabel) (w : World) : Decidable (WritesInTime l w) :=
  inferInstanceAs (Decidable ((∀ runId ∈ renewed l, _) ∧ ∀ run ∈ updated l, _))

/-- The first slot is slow to start: its lease ends, the run is reclaimed and claimed by the second. Both
write the start and both write the end, each before the lease that is stored then. -/
theorem run_executed_twice :
    ∃ c, (system .simple).Reach (fun l w _ => NoEvents l ∧ WritesInTime l w)
        (.idle (.fresh ((State.single minutelyJob 0).withRun queuedRun))) c ∧ ¬ FinishedOnce "r" c.world := by
  obtain ⟨c, reach, twice⟩ := exists_run .simple (fun l w _ => NoEvents l ∧ WritesInTime l w)
    ((State.single minutelyJob 0).withRun queuedRun)
    (startSlot 0 "a" ++ [.env (.advance (seconds 301)), .start 2 .reclaim] ++ calls 2 3 ++ startSlot 1 "b" ++
      calls 0 3 ++ calls 1 3 ++ runScript 1 (.ok ()) ++ calls 1 1 ++ runScript 0 (.ok ()) ++ calls 0 1)
    (fun c => claimants "r" c.world.log == [1, 0] && terminalWriters "r" c.world.log == [0, 1]) (by decide +kernel)
  simp only [Bool.and_eq_true, beq_iff_eq] at twice
  refine ⟨c, reach, fun once => ?_⟩
  have many := once.1
  rw [twice.1] at many
  exact absurd many (by decide)

end Chronon
