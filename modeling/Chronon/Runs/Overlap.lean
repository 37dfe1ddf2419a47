import Chronon.Concurrent.Detached
import Chronon.Runs.Work

/-!
# Attempts of one chain do not overlap, while handlers keep to their time

`execute_script_catch_panic` runs a handler in a task of its own, and a slot
puts `timeout` around the wait for it. When the time is over the wait is
dropped, and with it the join handle, which leaves the handler running
(`unawaited`). A handler in progress is one that a slot waits for or one left
in this way; its slot goes on to store the failure and to create the retry.

Where every handler has ended by the time its slot stops waiting, a handler in
progress is that of a slot at work on its run, which is stored as leased; of a
chain of retries only the last run can be.
-/

namespace Chronon
set_option autoImplicit false

open Concurrent

/-! ## Handlers -/

/-- The run whose handler a slot stops waiting for. -/
def unawaited : SystemLabel → Option String
  | .call _ (.executeScript _ request) none => some request.runId
  | _ => none

/-- The tasks, and the runs of handlers that nobody waits for and that are still executing. -/
abbrev WorkerConfig := Detached Op Ans World String

abbrev WorkerLabel := DetachedLabel Op Ans Proc Env

abbrev WorkerChoice := DetachedChoice Proc Oracle Env

/-- A handler execution: the one slot `p` waits for, or one of those that were left. -/
inductive Handler where
  | awaited (p : Nat)
  | detached (n : Nat)
  deriving DecidableEq

/-- The run whose script a task waits for. -/
def awaitedRun (c : SystemConfig) (p : Nat) : Option String :=
  match c.threads p with
  | some (.call (.executeScript _ request) _) => some request.runId
  | _ => none

/-- The run a handler executes, if it is in progress. -/
def inProgress (c : WorkerConfig) : Handler → Option String
  | .awaited p => awaitedRun c.config p
  | .detached n => c.left[n]?

/-- Attempts of one chain. -/
def SameChain (log : Log) (a b : String) : Prop := ∃ first, Chain log first a ∧ Chain log first b

/-- No two handler executions of one chain are in progress. -/
def AttemptsApart (c : WorkerConfig) : Prop :=
  ∀ x y a b, inProgress c x = some a → inProgress c y = some b → SameChain c.config.world.log a b → x = y

/-- A step that writes `Timeout` finds no handler of the run in progress. -/
def TimesOutEnded (l : SystemLabel) (c : WorkerConfig) : Prop :=
  ∀ run ∈ updated l, run.status = .timeout → ∀ x, inProgress c x ≠ some run.runId

/-! ## The setting -/

/-- No reclaim finds a lease over while a slot is at work on its run. -/
def LeasesSpared (l : SystemLabel) (w : World) : Prop := ∀ id, LeaseSpared id l w

instance (l : SystemLabel) (w : World) : Decidable (LeasesSpared l w) :=
  decidable_of_iff (∀ now ∈ reclaims l, ∀ p ∈ w.log.map Entry.pid, ∀ v ∈ working p w.log, ∀ row ∈ w.run v.runId,
      Store.leaseExpired now row = false) <| by
    constructor
    · intro spared id now isReclaim
      refine (forall_track (Q := fun _ (at_ : Option Slot) => ∀ v ∈ at_, v.runId = id → ∀ row ∈ w.run id,
        Store.leaseExpired now row = false) (by simp)).mpr fun p inside v works onRun row stored => ?_
      subst onRun
      exact spared now isReclaim p inside v works row stored
    · intro spared now isReclaim p _ v works row stored
      exact spared v.runId now isReclaim p v works rfl row stored

/-- The steps of worker processes whose leases are kept: slots report no executor events, and no run is taken
from a slot that is at work on it. -/
def WorkerSetting : WorkerLabel → World → Prop
  | .task l _, w => NoEvents l ∧ LeasesSpared l w
  | .ends _, _ => True

/-- The time of a handler is not over before it has ended. -/
def InTime : WorkerLabel → Prop
  | .task _ lingers => lingers = false
  | .ends _ => True

instance : (l : WorkerLabel) → (w : World) → Decidable (WorkerSetting l w)
  | .task l _, w => inferInstanceAs (Decidable (NoEvents l ∧ LeasesSpared l w))
  | .ends _, _ => inferInstanceAs (Decidable True)

instance : (l : WorkerLabel) → Decidable (InTime l)
  | .task _ lingers => inferInstanceAs (Decidable (lingers = false))
  | .ends _ => inferInstanceAs (Decidable True)

/-! ## Chains -/

section Chains

variable {log : Log} {first a b : String}

/-- A chain goes on from its first run by a retry of it. -/
theorem Chain.front (chain : Chain log a b) : a = b ∨ ∃ run ∈ retriesOf a log, Chain log run.runId b := by
  induction chain with
  | first => exact .inl rfl
  | retry _ retried ih =>
    rename_i run _
    rcases ih with rfl | ⟨next, isNext, rest⟩
    · exact .inr ⟨run, retried, .first⟩
    · exact .inr ⟨next, isNext, rest.retry retried⟩

theorem same_of_single {retries : List Run} {run next : Run} (one : retries.length ≤ 1) (isNext : next ∈ retries)
    (isRun : run ∈ retries) : next = run := by
  obtain ⟨only, rfl⟩ := List.length_eq_one_iff.mp (Nat.le_antisymm one (List.length_pos_of_mem isRun))
  rw [List.mem_singleton.mp isNext, List.mem_singleton.mp isRun]

/-- With one retry for each run, of two runs of a chain one comes before the other. -/
theorem Chain.linear (single : ∀ id, (retriesOf id log).length ≤ 1) (left : Chain log first a)
    (right : Chain log first b) : Chain log a b ∨ Chain log b a := by
  induction right with
  | first => exact .inr left
  | retry _ retried ih =>
    rename_i id run _
    rcases ih with before | behind
    · exact .inl (before.retry retried)
    · rcases behind.front with rfl | ⟨next, isNext, rest⟩
      · exact .inl (Chain.first.retry retried)
      · obtain rfl := same_of_single (single id) isNext retried
        exact .inr rest

end Chains

/-! ## Slots and their handlers -/

section Slots

variable {host : Host} {id : String} {p q : Nat} {oracle : Oracle} {w w' : World} {φ φ' : Phase} {op : Op} {r : Ans op}

/-- A run that a slot is at work on is stored as leased, and no other slot is at work on it. -/
theorem RunTrace.leased {v : Slot} (trace : RunTrace v.runId w) (works : working p w.log = some v) :
    (∃ row, w.run v.runId = some row ∧ Store.leased row = true) ∧
      ∀ q v', working q w.log = some v' → v'.runId = v.runId → q = p := by
  cases trace with
  | waiting _ _ nobody => exact absurd rfl (nobody p v works)
  | finished _ _ _ _ nobody _ _ => exact absurd rfl (nobody p v works)
  | held p' v' row _ _ works' onRun' only stored _ active =>
    obtain rfl := only p v works rfl
    exact ⟨⟨row, stored, active⟩, only⟩

/-- The phase of a slot that writes a row is one of work on the run. -/
theorem SlotHolds.writes {run' : Run} {done : Result Unit} (holds : SlotHolds p φ w)
    (move : Move host φ (.store (.updateRun run')) done φ') : ∃ v, working p w.log = some v ∧ v.runId = run'.runId := by
  obtain ⟨worker, run, job, rfl, same⟩ := move.of_updateRun
  cases worker with
  | none => exact absurd rfl (holds.uneventful run job)
  | some workerId => exact ⟨_, holds.works, (identity_runId same).symm⟩

/-- So is that of a slot that runs a script. -/
theorem SlotHolds.executes {timeoutMs : Option Int} {request : ExecuteScriptRequest} {ended : Option JoinOutcome}
    (holds : SlotHolds p φ w) (move : Move host φ (.executeScript timeoutMs request) ended φ') :
    ∃ v, working p w.log = some v ∧ v.runId = request.runId := by
  cases move with
  | silent quiet => exact quiet.elim
  | execute => exact ⟨_, holds.works, rfl⟩

/-- Slots at work write only runs that have not failed. -/
theorem SlotHolds.findsUnfailed (holds : SlotHolds p φ w) (move : Move host φ op r φ') (traces : ∀ id, RunTrace id w) :
    FindsUnfailed (.call p op r) w := by
  intro run isUpdate row stored
  obtain rfl := updated_eq_some isUpdate
  obtain ⟨v, works, onRun⟩ := holds.writes move
  obtain ⟨⟨row', stored', active⟩, -⟩ := (traces v.runId).leased works
  rw [onRun, stored] at stored'
  cases stored'
  rcases Store.status_of_leased active with claimed | running
  · rw [claimed]
    rfl
  · rw [running]
    rfl

end Slots

structure AttemptInv (w : World) : Prop where
  once : DrawnOnce w.log
  runs : ∀ id, RunTrace id w
  retries : ∀ id, RetryTrace id w

/-- The rules behind attempts that do not overlap. -/
def attemptRules (host : Host) :
    Rules (system host) (protocol host) fun l w _ => NoEvents l ∧ LeasesSpared l w where
  inv := AttemptInv
  guar := FreshStep
  idle p w := working p w.log = none
  holds := SlotHolds
  start _ idle _ := .start idle
  finish _ ended holds := holds.finish ended
  own := by
    intro p φ op r φ' oracle w w' inv holds move ran allowed
    have creates := holds.fresh.created move
    refine ⟨⟨inv.once.step ran, fun id => ?_, fun id => ?_⟩, ⟨_, _, _, ran, creates⟩, holds.own move ran allowed.1⟩
    · exact (inv.runs id).step holds move ran (allowed.2 id)
    · exact (inv.retries id).step ran creates (holds.findsUnfailed move inv.runs)
  other apart inv _ steps holds := holds.other inv.once steps apart
  otherIdle apart _ _ steps idle := working_idle steps apart idle
  drift := by
    intro e w w' inv drifts _
    have log := (drift_cases drifts).2.2.2
    refine ⟨⟨by rw [log]; exact inv.once, fun id => (inv.runs id).drift drifts, fun id => (inv.retries id).drift drifts⟩,
      fun p φ holds => holds.drift drifts, fun p idle => by rw [log]; exact idle⟩

theorem RetryTrace.failed {id : String} {w : World} {run : Run} (trace : RetryTrace id w)
    (retried : run ∈ retriesOf id w.log) : StoredFailed id w := by
  cases trace with
  | unfailed none_ _ =>
    rw [none_] at retried
    cases retried
  | owed _ _ _ failed => exact failed
  | settled _ _ failed => exact failed

/-- A run that a slot is at work on is the last of its chain. -/
theorem AttemptInv.last {w : World} {p : Nat} {v : Slot} {b : String} (inv : AttemptInv w)
    (works : working p w.log = some v) (chain : Chain w.log v.runId b) : v.runId = b := by
  rcases chain.front with same | ⟨run, retried, -⟩
  · exact same
  · obtain ⟨row, stored, failure⟩ := (inv.retries v.runId).failed retried
    obtain ⟨⟨row', stored', active⟩, -⟩ := (inv.runs v.runId).leased works
    rw [stored] at stored'
    cases stored'
    rw [Store.leased_of_terminal (RunStatus.terminal_of_failure failure)] at active
    cases active

/-- One slot is at work on a chain. -/
theorem AttemptInv.alone {w : World} {p q : Nat} {v v' : Slot} (inv : AttemptInv w) (works : working p w.log = some v)
    (works' : working q w.log = some v') (chain : SameChain w.log v.runId v'.runId) : p = q := by
  obtain ⟨first, left, right⟩ := chain
  have same : v.runId = v'.runId := by
    rcases left.linear (fun id => (inv.retries id).atMostOne) right with before | behind
    · exact inv.last works before
    · exact (inv.last works' behind).symm
  exact ((inv.runs v'.runId).leased works').2 p v works same

section Standing

variable {host : Host} {c : SystemConfig} {p : Nat} {id : String}

/-- A slot that waits for a script is at work on its run. -/
theorem working_of_awaited (standing : (attemptRules host).Standing c) (awaited : awaitedRun c p = some id) :
    ∃ v, working p c.world.log = some v ∧ v.runId = id := by
  unfold awaitedRun at awaited
  split at awaited
  · rename_i waiting
    cases awaited
    obtain ⟨φ, holds, follows⟩ := standing.running p _ waiting
    obtain ⟨φ', move, -⟩ := follows none
    exact holds.executes move
  · cases awaited

/-- A slot that writes a row is at work on its run, and waits for no script. -/
theorem working_of_updated {ch : SystemChoice} {l : SystemLabel} {c' : SystemConfig} {run : Run}
    (standing : (attemptRules host).Standing c) (moves : (system host).step c ch = some (l, c'))
    (isUpdate : updated l = some run) :
    ∃ p v, working p c.world.log = some v ∧ v.runId = run.runId ∧ awaitedRun c p = none := by
  obtain ⟨p, proc, rfl, -, rfl⟩ | ⟨p, oracle, op, r, k, w, rfl, waiting, runs, rfl⟩ | ⟨e, w, rfl, drifts, rfl⟩ :=
    Machine.step_cases moves
  · cases isUpdate
  · obtain rfl := updated_eq_some isUpdate
    obtain ⟨φ, holds, follows⟩ := standing.running p _ waiting
    obtain ⟨φ', move, -⟩ := follows r
    obtain ⟨v, works, onRun⟩ := holds.writes move
    refine ⟨p, v, works, onRun, ?_⟩
    rw [awaitedRun, waiting]
  · cases isUpdate

end Standing

/-- **Attempts of one chain do not overlap**, in every run of any slots in which no handler is still executing when
its slot stops waiting for it, no run is reclaimed from a slot at work on it and no executor event is
handled: no two handlers of one chain are in progress, and `Timeout` is written when the handler has ended. -/
theorem attempts_apart (host : Host) {s : State} {c : WorkerConfig}
    (reach : (system host).DetachedReach unawaited (fun l w => WorkerSetting l w ∧ InTime l)
      (.idle (.fresh s)) c) :
    AttemptsApart c ∧ ∀ ch l lingers c', (system host).detachedStep unawaited c ch = some (.task l lingers, c') →
      TimesOutEnded l c := by
  have start : (attemptRules host).inv (.fresh s) :=
    ⟨.nil, fun id => .waiting rfl rfl fun p v works => (by cases works), fun id => .unfailed rfl fun p run mine =>
      (by cases mine)⟩
  have run := reach.forget (Q := fun l w _ => NoEvents l ∧ LeasesSpared l w) fun l lingers w _ allowed => allowed.1
  have standing := (attemptRules host).sound (protocol_governs host)
    (Rules.Standing.initial (attemptRules host) start fun _ => rfl) run
  have noneLeft : c.left = [] := reach.none_left (fun l w allowed => by cases allowed.2) rfl
  have awaited : ∀ x id, inProgress c x = some id → ∃ p, x = .awaited p ∧ awaitedRun c.config p = some id := by
    intro x id going
    cases x with
    | awaited p => exact ⟨p, rfl, going⟩
    | detached n =>
      rw [inProgress, noneLeft] at going
      cases going
  constructor
  · intro x y a b goingX goingY chain
    obtain ⟨p, rfl, waitsP⟩ := awaited x a goingX
    obtain ⟨q, rfl, waitsQ⟩ := awaited y b goingY
    obtain ⟨v, works, rfl⟩ := working_of_awaited standing waitsP
    obtain ⟨v', works', rfl⟩ := working_of_awaited standing waitsQ
    rw [standing.inv.alone works works' chain]
  · intro ch l lingers c' moves row isUpdate timedOut x going
    obtain ⟨task, label, _, isLabel, stepped, -⟩ | ⟨n, isLabel, -⟩ := Machine.detachedStep_cases moves
    · cases isLabel
      obtain ⟨p, v, works, onRun, waitsNot⟩ := working_of_updated standing stepped isUpdate
      obtain ⟨q, rfl, waits⟩ := awaited x row.runId going
      obtain ⟨v', works', onRun'⟩ := working_of_awaited standing waits
      obtain rfl := ((standing.inv.runs v.runId).leased works).2 q v' works' (onRun'.trans onRun.symm)
      rw [waitsNot] at waits
      cases waits
    · cases isLabel

/-! ## A job with a timeout and a retry -/

/-- The minutely job with a second for its script and one retry, at its first fire. -/
def timedAtFire : State :=
  .single { minutelyJob.setRetryPolicy ⟨1, 0, 1, 0⟩ with timeoutMs := some 1000 } (seconds 60)

/-- Steps that leave no handler. -/
def attended (choices : List SystemChoice) : List WorkerChoice := choices.map (.task · false)

/-- A tick creates run `r`, and slot 1 stops waiting for its script; it is about to store the failure. -/
def timeOutFirst (lingers : Bool) : List WorkerChoice :=
  attended (startTick 0 "c" false ++ claimNext 0 "t" ++ enqueueRest 0 "r" ++ startSlot 1 "a" ++ calls 1 4) ++
    [.task (.call 1 (.outcome none)) lingers] ++ attended (calls 1 2)

/-- Slot 1 stores the failure and creates the retry `r2`; slot 2 claims it and runs its script. -/
def retryOnOther : List WorkerChoice :=
  attended (calls 1 2 ++ draw 1 "r2" ++ calls 1 1 ++ startSlot 2 "b" ++ calls 2 4)

/-- A schedule that can be played from `s` is a run, and ends as the test says. -/
theorem exists_worker_run (host : Host) (P : WorkerLabel → World → Prop) [∀ l w, Decidable (P l w)] (c : WorkerConfig)
    (choices : List WorkerChoice) (test : WorkerConfig → Bool)
    (played : ((system host).playDetached unawaited P choices c).any test = true) :
    ∃ d, (system host).DetachedReach unawaited P c d ∧ test d = true :=
  Machine.DetachedReach.of_play_any played

/-- Slot 2 executes the retry of run `r`. -/
def executesRetry (c : WorkerConfig) : Bool :=
  awaitedRun c.config 2 == some "r2" && (retriesOf "r" c.config.world.log).map Run.runId == ["r2"]

theorem chain_of_executesRetry {c : WorkerConfig} (passes : executesRetry c = true) :
    inProgress c (.awaited 2) = some "r2" ∧ SameChain c.config.world.log "r" "r2" := by
  simp only [executesRetry, Bool.and_eq_true, beq_iff_eq] at passes
  obtain ⟨waits, retried⟩ := passes
  obtain ⟨run, inside, isRun⟩ := List.mem_map.mp (by rw [retried]; exact List.mem_singleton_self "r2")
  exact ⟨waits, "r", .first, isRun ▸ .retry .first inside⟩

/-- The handler of run `r` ends as its time is over; the retry is then the only attempt in progress. -/
theorem attempts_apart_retry :
    ∃ c, (system .simple).DetachedReach unawaited (fun l w => WorkerSetting l w ∧ InTime l) (.idle (.fresh timedAtFire)) c ∧
      inProgress c (.awaited 2) = some "r2" ∧ SameChain c.config.world.log "r" "r2" ∧ AttemptsApart c := by
  obtain ⟨c, reach, passes⟩ := exists_worker_run .simple (fun l w => WorkerSetting l w ∧ InTime l)
    (.idle (.fresh timedAtFire)) (timeOutFirst false ++ retryOnOther) executesRetry (by decide +kernel)
  obtain ⟨going, chain⟩ := chain_of_executesRetry passes
  exact ⟨c, reach, going, chain, (attempts_apart .simple reach).1⟩

/-- What slot 1 is about to write. -/
def writesNext (c : WorkerConfig) : Option SystemLabel :=
  match (system .simple).detachedStep unawaited c (.task (.call 1 .quiet) false) with
  | some (.task l _, _) => some l
  | _ => none

/-- A handler of run `r` goes on after its slot has stopped waiting: `Timeout` is written while it executes, and the
retry is executed next to it. -/
theorem attempts_overlap :
    ∃ c c', (system .simple).DetachedReach unawaited WorkerSetting (.idle (.fresh timedAtFire)) c ∧
      (∃ ch l lingers d, (system .simple).detachedStep unawaited c ch = some (.task l lingers, d) ∧ ¬ TimesOutEnded l c) ∧
      (system .simple).DetachedReach unawaited WorkerSetting c c' ∧ ¬ AttemptsApart c' := by
  obtain ⟨c, reach, passes⟩ := exists_worker_run .simple WorkerSetting (.idle (.fresh timedAtFire)) (timeOutFirst true)
    (fun c => c.left == ["r"] &&
      ((writesNext c).bind updated).any (fun run => run.runId == "r" && run.status == .timeout) &&
      ((system .simple).playDetached unawaited WorkerSetting retryOnOther c).any fun c' =>
        c'.left == ["r"] && executesRetry c') (by decide +kernel)
  simp only [Bool.and_eq_true, beq_iff_eq] at passes
  obtain ⟨⟨left, writes⟩, goesOn⟩ := passes
  obtain ⟨c', later, ends⟩ := exists_worker_run .simple WorkerSetting c retryOnOther _ goesOn
  simp only [Bool.and_eq_true, beq_iff_eq] at ends
  obtain ⟨left', passes⟩ := ends
  refine ⟨c, c', reach, ?_, later, fun apart => ?_⟩
  · obtain ⟨run, isUpdate, isRun⟩ := (Option.any_eq_true _ _).mp writes
    obtain ⟨l, isLabel, isUpdate⟩ := Option.bind_eq_some_iff.mp isUpdate
    simp only [Bool.and_eq_true, beq_iff_eq] at isRun
    unfold writesNext at isLabel
    split at isLabel
    · rename_i _ lingers d moves
      cases isLabel
      refine ⟨_, l, lingers, d, moves, fun ended => ended run isUpdate isRun.2 (.detached 0) ?_⟩
      rw [inProgress, left, isRun.1]
      rfl
    · cases isLabel
  · obtain ⟨going, chain⟩ := chain_of_executesRetry passes
    have lingering : inProgress c' (.detached 0) = some "r" := by
      rw [inProgress, left']
      rfl
    cases apart _ _ _ _ lingering going chain

end Chronon
