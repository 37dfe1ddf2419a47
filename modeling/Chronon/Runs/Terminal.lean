import Chronon.Runs.Exclusive

/-!
# Terminal statuses

A finished run is not claimed, renewed, reclaimed or created again. What can
change it is `update_run`, which replaces the row whatever it finds: a slot or
an event handler that took its copy before somebody else finished the run
(`outrun`) still writes it. A copy that nobody outran is as open as the stored
run (`CopyTells`), since slots claim open runs and handlers check the status of
theirs.
-/

namespace Chronon
set_option autoImplicit false

open Concurrent

/-- The status stored for run `id`. -/
def statusIn (id : String) (s : State) : Option RunStatus := (s.store.runs.lookup id).map Run.status

/-- A terminal status that a call found is still there for the next call, the latest of which finds `now`. -/
def FinalSince (id : String) (now : Option RunStatus) : Log → Prop
  | [] => True
  | e :: older =>
    (∀ status ∈ statusIn id e.found, status.isTerminal = true → now = some status) ∧
      FinalSince id (statusIn id e.found) older

instance FinalSince.decide (id : String) : (now : Option RunStatus) → (log : Log) → Decidable (FinalSince id now log)
  | _, [] => isTrue trivial
  | _, e :: older =>
    have := FinalSince.decide id (statusIn id e.found) older
    inferInstanceAs (Decidable (_ ∧ FinalSince id (statusIn id e.found) older))

/-- **Terminal statuses are final**: no terminal status of run `id` has ever changed. -/
def TerminalFinal (id : String) (w : World) : Prop := FinalSince id (statusIn id w.state) w.log

instance (id : String) (w : World) : Decidable (TerminalFinal id w) := inferInstanceAs (Decidable (FinalSince id _ w.log))

/-- A write of run `id` that finds it finished carries the status it finds. -/
def RepeatsFound (id : String) (e : LogEntry) : Prop :=
  ∀ run ∈ updated e.label, run.runId = id →
    ∀ status ∈ statusIn id e.found, status.isTerminal = true → run.status = status

instance (id : String) (e : LogEntry) : Decidable (RepeatsFound id e) :=
  inferInstanceAs (Decidable (∀ run ∈ updated e.label, _))

section Step

variable {host : Host} {id : String} {p : Nat} {oracle : Oracle} {w w' : World} {φ φ' : Phase} {op : Op} {r : Ans op}

/-- A finished run is left alone by everything but a write. -/
theorem terminal_kept {row : Run} (ran : perform p oracle w op = some (r, w')) (stored : w.run id = some row)
    (terminal : row.status.isTerminal = true)
    (creates : ∀ run, op = .store (.createRun run) → Drew p run.runId w.log ∧ w.run run.runId = none) :
    w'.run id = some row ∨ ∃ run, RunWrote id op r (.update run) ∧ w'.run id = some run := by
  obtain ⟨row', stored', rfl | wrote | ⟨_, now, _, _, -, free, -⟩ | ⟨_, _, active, -, -⟩ | ⟨now, -, rfl⟩⟩ :=
    perform_run_some ran stored creates
  · exact .inl stored'
  · exact .inr ⟨row', wrote, stored'⟩
  · rw [Store.queued_of_claimable free] at terminal
    cases terminal
  · rw [Store.leased_of_terminal terminal] at active
    cases active
  · rw [Store.reclaimed_of_unexpired (Store.leaseExpired_of_terminal terminal now)] at stored'
    exact .inl stored'

theorem statusIn_eq_some {status : RunStatus} (found : status ∈ statusIn id w.state) :
    ∃ row, w.run id = some row ∧ row.status = status := Option.map_eq_some_iff.mp found

theorem statusIn_of_run {row : Run} (stored : w.run id = some row) : statusIn id w.state = some row.status :=
  congrArg (Option.map Run.status) stored

/-- One call keeps a terminal status if and only if it is not a late write of another one. -/
theorem final_step (ran : perform p oracle w op = some (r, w'))
    (creates : ∀ run, op = .store (.createRun run) → Drew p run.runId w.log ∧ w.run run.runId = none) :
    (∀ status ∈ statusIn id w.state, status.isTerminal = true → statusIn id w'.state = some status) ↔
      RepeatsFound id ⟨p, w.state, op, r⟩ := by
  constructor
  · rintro kept run isUpdate rfl status found terminal
    obtain rfl := updated_eq_some isUpdate
    obtain ⟨row, stored, -⟩ := statusIn_eq_some found
    have after := statusIn_of_run (perform_update ran stored).2
    rw [kept status found terminal] at after
    exact (Option.some.inj after).symm
  · intro repeats status found terminal
    obtain ⟨row, stored, rfl⟩ := statusIn_eq_some found
    rcases terminal_kept ran stored terminal creates with same | ⟨run, wrote, stored'⟩
    · exact statusIn_of_run same
    · rw [statusIn_of_run stored']
      cases wrote with
      | update onRun => rw [repeats run rfl onRun row.status found terminal]

end Step

/-! ## Copies and who has finished the run since -/

/-- The call hands its caller a copy of run `id`. -/
def copiesRun (id : String) (e : LogEntry) : Bool :=
  match e with
  | ⟨_, _, .store (.claimNextQueued _ _ _ _), .ok (some run)⟩ => run.runId == id
  | ⟨_, _, .store (.getRun _), .ok (some run)⟩ => run.runId == id
  | _ => false

/-- The call stores a terminal status of run `id`. -/
def finishesRun (id : String) (e : LogEntry) : Bool :=
  match e with
  | ⟨_, _, .store (.updateRun run), .ok ()⟩ => run.runId == id && run.status.isTerminal
  | _ => false

/-- Another task has finished run `id` since task `p` took its copy of it. -/
def outrun (id : String) (p : Nat) : Log → Bool
  | [] => false
  | e :: older => if e.pid = p then !copiesRun id e && outrun id p older else finishesRun id e || outrun id p older

/-- An `update_run` of run `id` comes from a copy since which nobody else has finished the run. -/
def CopyCurrent (id : String) (l : SystemLabel) (w : World) : Prop :=
  ∀ p ∈ caller l, ∀ run ∈ updated l, run.runId = id → outrun id p w.log = false

instance (id : String) (l : SystemLabel) (w : World) : Decidable (CopyCurrent id l w) :=
  inferInstanceAs (Decidable (∀ p ∈ caller l, ∀ run ∈ updated l, _))

/-- Run `id` is stored and not finished. -/
def StoredOpen (id : String) (w : World) : Prop := ∃ row, w.run id = some row ∧ row.status.isTerminal = false

/-- What a task knows of its copy of run `id`: a slot claimed it open, and as long as the copy is open, so is
the stored run, unless another task has finished it. -/
def CopyTells (id : String) (p : Nat) (φ : Phase) (w : World) : Prop :=
  ∀ worker run job, φ = .copied worker run job → run.runId = id →
    (worker ≠ none → run.status.isTerminal = false) ∧
      (run.status.isTerminal = false → outrun id p w.log = true ∨ StoredOpen id w)

section Copies

variable {host : Host} {id : String} {p q : Nat} {oracle : Oracle} {w w' : World} {φ φ' : Phase} {op : Op} {r : Ans op}

/-- An open run stays open until somebody finishes it. -/
theorem StoredOpen.step (stays : StoredOpen id w) (ran : perform p oracle w op = some (r, w'))
    (creates : ∀ run, op = .store (.createRun run) → Drew p run.runId w.log ∧ w.run run.runId = none) :
    StoredOpen id w' ∨ finishesRun id ⟨p, w.state, op, r⟩ = true := by
  obtain ⟨row, stored, active⟩ := stays
  obtain ⟨row', stored', rfl | wrote | ⟨_, now, _, _, -, -, rfl⟩ | ⟨_, _, -, rfl, -⟩ | ⟨now, -, rfl⟩⟩ :=
    perform_run_some ran stored creates
  · exact .inl ⟨_, stored', active⟩
  · cases terminal : row'.status.isTerminal with
    | false => exact .inl ⟨row', stored', terminal⟩
    | true =>
      cases wrote with
      | update onRun => exact .inr (by simp [finishesRun, onRun, terminal])
  · exact .inl ⟨_, stored', rfl⟩
  · exact .inl ⟨_, stored', active⟩
  · refine .inl ⟨_, stored', ?_⟩
    unfold Store.reclaimed
    split
    · rfl
    · exact active

/-- What a task knows stays true while it takes no new copy and nobody finishes the run. -/
theorem outrun_or_open_own (known : outrun id p w.log = true ∨ StoredOpen id w)
    (ran : perform p oracle w op = some (r, w'))
    (creates : ∀ run, op = .store (.createRun run) → Drew p run.runId w.log ∧ w.run run.runId = none)
    (keeps : copiesRun id ⟨p, w.state, op, r⟩ = false) (open_ : finishesRun id ⟨p, w.state, op, r⟩ = false) :
    outrun id p w'.log = true ∨ StoredOpen id w' := by
  rcases known with late | stays
  · left
    rw [(perform_cases ran).2]
    simp [outrun, keeps, late]
  · rcases stays.step ran creates with open' | finished
    · exact .inr open'
    · rw [open_] at finished
      cases finished

/-- Another task's call leaves the run open, or outruns the copy. -/
theorem outrun_or_open_other (known : outrun id p w.log = true ∨ StoredOpen id w) (apart : p ≠ q)
    (ran : perform q oracle w op = some (r, w'))
    (creates : ∀ run, op = .store (.createRun run) → Drew q run.runId w.log ∧ w.run run.runId = none) :
    outrun id p w'.log = true ∨ StoredOpen id w' := by
  have log := (perform_cases ran).2
  rcases known with late | stays
  · left
    rw [log]
    simp [outrun, Ne.symm apart, late]
  · rcases stays.step ran creates with open' | finished
    · exact .inr open'
    · left
      rw [log]
      simp [outrun, Ne.symm apart, finished]

theorem copiesRun_silent {s : State} (quiet : Silent op) :
    copiesRun id ⟨p, s, op, r⟩ = false ∧ finishesRun id ⟨p, s, op, r⟩ = false := by
  cases op with
  | store c => cases c <;> first | exact ⟨rfl, rfl⟩ | exact quiet.elim
  | _ => exact ⟨rfl, rfl⟩

/-- A task's own call keeps what it knows of its copy. -/
theorem CopyTells.own (tells : CopyTells id p φ w) (move : Move host φ op r φ')
    (ran : perform p oracle w op = some (r, w'))
    (creates : ∀ run, op = .store (.createRun run) → Drew p run.runId w.log ∧ w.run run.runId = none) :
    CopyTells id p φ' w' := by
  rintro worker run job rfl onRun
  have keep : ∀ {job' : Option Job}, φ = .copied worker run job' →
      copiesRun id ⟨p, w.state, op, r⟩ = false → finishesRun id ⟨p, w.state, op, r⟩ = false →
      (worker ≠ none → run.status.isTerminal = false) ∧
        (run.status.isTerminal = false → outrun id p w'.log = true ∨ StoredOpen id w') := by
    intro job' isCopy keeps open_
    obtain ⟨claimed, known⟩ := tells worker run job' isCopy onRun
    exact ⟨claimed, fun active => outrun_or_open_own (known active) ran creates keeps open_⟩
  cases move.toCopy with
  | silent quiet => exact keep rfl (copiesRun_silent quiet).1 (copiesRun_silent quiet).2
  | take =>
    obtain ⟨old, -, -, rfl, stored⟩ := perform_take ran
    exact ⟨fun _ => rfl, fun active => .inr ⟨_, onRun ▸ stored, active⟩⟩
  | read =>
    refine ⟨fun none_ => absurd rfl none_, fun active => ?_⟩
    have stored := perform_getRun ran
    have open_ : StoredOpen id w := by
      have key := Collections.Table.key_of_lookup stored
      exact ⟨run, by rw [← onRun, key]; exact stored, active⟩
    rcases open_.step ran creates with open' | finished
    · exact .inr open'
    · cases finished
  | readJob _ => exact keep rfl rfl rfl
  | readNoJob _ => exact keep rfl rfl rfl
  | execute => exact keep rfl rfl rfl
  | start _ _ started =>
    have running : run.status.isTerminal = false := by rw [started.status]; rfl
    exact ⟨fun _ => running, fun active => .inr ⟨run, onRun ▸ perform_updated ran, active⟩⟩

theorem CopyTells.other (tells : CopyTells id p φ w) (apart : p ≠ q) (steps : FreshStep q w w') :
    CopyTells id p φ w' := by
  obtain ⟨oracle, op, r, ran, creates⟩ := steps.stepped
  intro worker run job isCopy onRun
  obtain ⟨claimed, known⟩ := tells worker run job isCopy onRun
  exact ⟨claimed, fun active => outrun_or_open_other (known active) apart ran creates⟩

theorem CopyTells.drift {e : Env} (tells : CopyTells id p φ w) (drifts : Chronon.drift e w = some w') :
    CopyTells id p φ w' := by
  obtain ⟨-, -, runs, log⟩ := drift_cases drifts
  intro worker run job isCopy onRun
  rw [log, StoredOpen, runs]
  exact tells worker run job isCopy onRun

theorem CopyTells.start {proc : Proc} : CopyTells id p proc.phase w := by
  intro worker run job isCopy
  cases proc <;> cases isCopy

/-- The copy behind a write is open. -/
theorem Move.updates_open {run' : Run} {r : Result Unit} (move : Move host φ (.store (.updateRun run')) r φ') :
    ∃ worker run job, φ = .copied worker run job ∧ run'.identity = run.identity ∧
      (worker = none → run.status.isTerminal = false) := by
  have waiting : ∀ {run : Run}, run.status = .queued ∨ run.status = .claimed → run.status.isTerminal = false := by
    rintro run (status | status) <;> rw [status] <;> rfl
  cases move with
  | silent quiet => exact quiet.elim
  | start waits same _ => exact ⟨_, _, _, rfl, same, fun none_ => waiting (waits none_)⟩
  | startFailed waits same _ => exact ⟨_, _, _, rfl, same, fun none_ => waiting (waits none_)⟩
  | finish active same _ => exact ⟨_, _, _, rfl, same, active⟩
  | fail active same _ _ _ => exact ⟨_, _, _, rfl, same, active⟩

/-- A write from a copy that nobody outran finds the run open. -/
theorem CopyTells.repeats (tells : CopyTells id p φ w) (move : Move host φ op r φ')
    (current : CopyCurrent id (.call p op r) w) : RepeatsFound id ⟨p, w.state, op, r⟩ := by
  rintro run' isUpdate onRun status found terminal
  obtain rfl := updated_eq_some isUpdate
  obtain ⟨worker, run, job, isCopy, same, active⟩ := move.updates_open
  have sameRun : run.runId = id := by
    rw [← onRun]
    exact (identity_runId same).symm
  obtain ⟨claimed, known⟩ := tells worker run job isCopy sameRun
  have open_ : run.status.isTerminal = false := by
    cases worker with
    | none => exact active rfl
    | some workerId => exact claimed (by simp)
  rcases known open_ with late | ⟨row, stored, open'⟩
  · rw [current p rfl run' rfl onRun] at late
    cases late
  · obtain ⟨row', stored', rfl⟩ := statusIn_eq_some found
    rw [stored] at stored'
    cases stored'
    rw [open'] at terminal
    cases terminal

end Copies

/-- The rules behind final statuses. -/
def terminalRules (host : Host) (id : String) : Rules (system host) (protocol host) fun l w _ => CopyCurrent id l w where
  inv w := DrawnOnce w.log ∧ TerminalFinal id w
  guar := FreshStep
  idle _ _ := True
  holds p φ w := InsertsFresh p φ w ∧ CopyTells id p φ w
  start _ _ _ := ⟨.start, .start⟩
  finish _ _ _ := trivial
  own := by
    intro p φ op r φ' oracle w w' inv holds move ran current
    have creates := holds.1.created move
    refine ⟨⟨inv.1.step ran, ?_⟩, ⟨_, _, _, ran, creates⟩, holds.1.own move ran, holds.2.own move ran creates⟩
    rw [TerminalFinal, (perform_cases ran).2]
    exact ⟨(final_step ran creates).mpr (holds.2.repeats move current), inv.2⟩
  other apart inv _ steps holds := ⟨holds.1.other inv.1 steps apart, holds.2.other apart steps⟩
  otherIdle _ _ _ _ _ := trivial
  drift := by
    intro e w w' inv drifts _
    obtain ⟨-, -, runs, log⟩ := drift_cases drifts
    have same : statusIn id w'.state = statusIn id w.state := congrArg (Option.map Run.status) (runs id)
    refine ⟨⟨by rw [log]; exact inv.1, ?_⟩, fun p φ holds => ⟨holds.1.drift drifts, holds.2.drift drifts⟩,
      fun _ _ => trivial⟩
    rw [TerminalFinal, same, log]
    exact inv.2

/-- **Terminal statuses are final** in every run, whatever leases expire, in which no slot and no event handler
writes the run back from a copy it took before somebody else finished the run. -/
theorem terminal_status_final (host : Host) (id : String) {s : State} {c : SystemConfig}
    (reach : (system host).Reach (fun l w _ => CopyCurrent id l w) (.idle (.fresh s)) c) : TerminalFinal id c.world := by
  have start : (terminalRules host id).inv (.fresh s) := ⟨.nil, trivial⟩
  exact ((terminalRules host id).sound (protocol_governs host)
    (Rules.Standing.initial (terminalRules host id) start fun _ => trivial) reach).inv.2

/-- A lease expires before its slot has started; another slot finishes the run, and a late event and a reclaim
pass leave it alone. -/
theorem terminal_status_final_reclaimed :
    ∃ c, (system .simple).Reach (fun l w _ => CopyCurrent "r" l w)
        (.idle (.fresh ((State.single minutelyJob 0).withRun queuedRun))) c ∧
      (statusIn "r" c.world.state == some .success) = true ∧ TerminalFinal "r" c.world := by
  obtain ⟨c, reach, success⟩ := exists_run .simple (fun l w _ => CopyCurrent "r" l w)
    ((State.single minutelyJob 0).withRun queuedRun)
    (startSlot 0 "a" ++ [.env (.advance (seconds 301)), .start 2 .reclaim] ++ calls 2 3 ++ startSlot 1 "b" ++
      calls 1 3 ++ runScript 1 (.ok ()) ++ calls 1 1 ++ [.start 3 (.event (.runStarted "r"))] ++ calls 3 1 ++
      [.start 2 .reclaim] ++ calls 2 3)
    (fun c => statusIn "r" c.world.state == some .success) (by decide +kernel)
  exact ⟨c, reach, success, terminal_status_final .simple "r" reach⟩

/-- The first slot is slow to start; the run is reclaimed and finished by the second. The start write of the
first moves it back to running. -/
theorem terminal_status_overwritten :
    ∃ c, (system .simple).Reach (fun _ _ _ => True) (.idle (.fresh ((State.single minutelyJob 0).withRun queuedRun))) c ∧
      (statusIn "r" c.world.state == some .running) = true ∧ ¬ TerminalFinal "r" c.world := by
  obtain ⟨c, reach, lost⟩ := exists_run .simple (fun _ _ _ => True) ((State.single minutelyJob 0).withRun queuedRun)
    (startSlot 0 "a" ++ [.env (.advance (seconds 301)), .start 2 .reclaim] ++ calls 2 3 ++ startSlot 1 "b" ++
      calls 1 3 ++ runScript 1 (.ok ()) ++ calls 1 1 ++ calls 0 3)
    (fun c => statusIn "r" c.world.state == some .running && decide (¬ TerminalFinal "r" c.world)) (by decide +kernel)
  obtain ⟨running, lost⟩ := (Bool.and_eq_true _ _).mp lost
  exact ⟨c, reach, running, of_decide_eq_true lost⟩

end Chronon
