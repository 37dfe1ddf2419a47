import Chronon.Concurrent.History
import Chronon.Mem.Calls

/-!
# The world the tasks run in

The calls a task makes besides its store calls (clock, random identifiers,
sleeping, running a script), the shared state, and the effect of each call.
Every call is recorded with the state it found.

A random identifier is one that has not been drawn before and is not the key
of a stored row. What a script does comes from the oracle.
-/

namespace Chronon
set_option autoImplicit false

open Concurrent

/-- `chronon_telemetry::CapturedLogs`. -/
structure CapturedLogs where
  stdoutText : Option String
  stderrText : Option String

/-- `CapturedLogs::default`. -/
def CapturedLogs.default : CapturedLogs := ⟨none, none⟩

/-- `ExecuteScriptRequest`, the shared registry and factories aside. -/
structure ExecuteScriptRequest where
  scriptName : String
  actorJson : Json
  paramsJson : Json
  jobName : String
  runId : String

/-- `ExecuteScriptOutcome`. -/
structure ExecuteScriptOutcome where
  result : Result Unit
  logs : CapturedLogs

/-- How the spawned task of `execute_script_catch_panic` ended. -/
inductive JoinOutcome where
  | finished (outcome : ExecuteScriptOutcome)
  | panicked
  | cancelled

/-- The calls of a task. `executeScript` runs a script, under `tokio::time::timeout`
when a number of milliseconds is given; `panic` never returns. -/
inductive Op where
  | store (c : StoreCall)
  | utcNow
  | newUuid
  | sleep (duration : Int)
  | yieldNow
  | ownedPartitions (instanceId : String)
  | executeScript (timeoutMs : Option Int) (request : ExecuteScriptRequest)
  | panic

/-- What each call answers. A script answers `none` when its time is over. -/
@[reducible] def Ans : Op → Type
  | .store c => Result c.Ret
  | .utcNow => DateTime
  | .newUuid => String
  | .sleep _ => Unit
  | .yieldNow => Unit
  | .ownedPartitions _ => List Nat
  | .executeScript _ _ => Option JoinOutcome
  | .panic => Empty

/-- The sequential programs of this system. -/
abbrev Task (α : Type) := Prog Op Ans α

/-- What is shared: the store, the clock, and the partitions each instance owns. -/
structure State where
  store : Store
  clock : DateTime
  owned : String → List Nat

abbrev LogEntry := Entry State Op Ans

abbrev Log := List LogEntry

/-- The shared state with the history that led to it. -/
structure World where
  state : State
  log : Log

namespace World

def store (w : World) : Store := w.state.store

def clock (w : World) : DateTime := w.state.clock

/-- The stored job row. -/
def job (w : World) (j : String) : Option Job := w.store.jobs.lookup j

/-- The stored run row. -/
def run (w : World) (r : String) : Option Run := w.store.runs.lookup r

/-- A world nothing has happened in. -/
def fresh (state : State) : World := ⟨state, []⟩

end World

/-- Whether an entry drew this identifier. -/
def draws (id : String) (e : LogEntry) : Bool :=
  match e with
  | ⟨_, _, .newUuid, drawn⟩ => drawn == id
  | _ => false

/-- An identifier `Uuid::new_v4` may return. -/
def World.unused (w : World) (id : String) : Bool :=
  (w.run id).isNone && (w.job id).isNone && !w.log.any (draws id)

/-- What is not determined by the world. -/
inductive Oracle where
  | quiet
  | uuid (id : String)
  | outcome (ended : Option JoinOutcome)

/-- The answer of a call and the state after it. -/
def answer (oracle : Oracle) (w : World) : (op : Op) → Option (Ans op × State)
  | .store c =>
    let (r, store) := c.exec w.clock w.store
    some (r, { w.state with store })
  | .utcNow => some (w.clock, w.state)
  | .newUuid =>
    match oracle with
    | .uuid id => if w.unused id then some (id, w.state) else none
    | _ => none
  | .sleep _ => some ((), w.state)
  | .yieldNow => some ((), w.state)
  | .ownedPartitions instanceId => some (w.state.owned instanceId, w.state)
  | .executeScript timeoutMs _ =>
    match oracle with
    | .outcome ended => if ended.isNone && timeoutMs.isNone then none else some (ended, w.state)
    | _ => none
  | .panic => none

/-- Perform a call and record it. -/
def perform (p : Nat) (oracle : Oracle) (w : World) (op : Op) : Option (Ans op × World) :=
  match answer oracle w op with
  | some (r, state) => some (r, ⟨state, ⟨p, w.state, op, r⟩ :: w.log⟩)
  | none => none

/-- What happens besides calls: time passes, partitions are reassigned, and the
iteration order of the maps changes. -/
inductive Env where
  | advance (clock : DateTime)
  | assign (instanceId : String) (partitions : List Nat)
  | swapJobs (n : Nat)
  | swapRuns (n : Nat)

def drift (e : Env) (w : World) : Option World :=
  match e with
  | .advance clock => if w.clock ≤ clock then some { w with state := { w.state with clock } } else none
  | .assign instanceId partitions =>
    some { w with state := { w.state with owned := Function.update w.state.owned instanceId partitions } }
  | .swapJobs n => some { w with state := { w.state with store := { w.store with jobs := w.store.jobs.swap n } } }
  | .swapRuns n => some { w with state := { w.state with store := { w.store with runs := w.store.runs.swap n } } }

/-! ## What calls and the environment do -/

/-- A performed call answers, and is recorded. -/
theorem perform_cases {p : Nat} {oracle : Oracle} {w w' : World} {op : Op} {r : Ans op}
    (ran : perform p oracle w op = some (r, w')) :
    answer oracle w op = some (r, w'.state) ∧ w'.log = ⟨p, w.state, op, r⟩ :: w.log := by
  unfold perform at ran
  split at ran
  · rename_i answered
    cases ran
    exact ⟨answered, rfl⟩
  · cases ran

/-- The caller's own record takes its call into account. -/
theorem track_own_call {σ : Type} {update : LogEntry → σ → σ} {init : σ} {p : Nat} {oracle : Oracle} {w w' : World}
    {op : Op} {r : Ans op} (ran : perform p oracle w op = some (r, w')) :
    track update init p w'.log = update ⟨p, w.state, op, r⟩ (track update init p w.log) := by
  rw [(perform_cases ran).2]
  exact track_own rfl

/-- Nobody else's does. -/
theorem track_other_call {σ : Type} {update : LogEntry → σ → σ} {init : σ} {p q : Nat} {oracle : Oracle} {w w' : World}
    {op : Op} {r : Ans op} (ran : perform p oracle w op = some (r, w')) (other : p ≠ q) :
    track update init q w'.log = track update init q w.log := by
  rw [(perform_cases ran).2]
  exact track_other other

/-- A store call runs on the store at the current time. -/
theorem answer_store {oracle : Oracle} {w : World} {c : StoreCall} {r : Result c.Ret} {state : State}
    (ran : answer oracle w (.store c) = some (r, state)) :
    c.exec w.clock w.store = (r, state.store) ∧ state.clock = w.clock := by
  simp only [answer, Option.some.injEq, Prod.mk.injEq] at ran
  obtain ⟨rfl, rfl⟩ := ran
  exact ⟨rfl, rfl⟩

/-- Every other call leaves the shared state alone. -/
theorem answer_other {oracle : Oracle} {w : World} {op : Op} {r : Ans op} {state : State}
    (ran : answer oracle w op = some (r, state)) (other : ∀ c, op ≠ .store c) : state = w.state := by
  cases op with
  | store c => exact absurd rfl (other c)
  | newUuid | executeScript _ _ =>
    simp only [answer] at ran
    split at ran
    · split at ran <;> cases ran
      rfl
    · cases ran
  | panic => cases ran
  | _ => cases ran; rfl

/-- A drawn identifier is not the key of a stored row, and nobody has drawn it. -/
theorem answer_newUuid {oracle : Oracle} {w : World} {id : String} {state : State}
    (ran : answer oracle w .newUuid = some (id, state)) :
    w.run id = none ∧ w.job id = none ∧ ∀ e ∈ w.log, draws id e ≠ true := by
  simp only [answer] at ran
  split at ran
  · split at ran
    · rename_i unused
      cases ran
      simp only [World.unused, Bool.and_eq_true, Option.isNone_iff_eq_none, Bool.not_eq_true', List.any_eq_false] at unused
      exact ⟨unused.1.1, unused.1.2, unused.2⟩
    · cases ran
  · cases ran

/-- The clock does not move during a call. -/
theorem perform_clock {p : Nat} {oracle : Oracle} {w w' : World} {op : Op} {r : Ans op}
    (ran : perform p oracle w op = some (r, w')) : w'.clock = w.clock := by
  obtain ⟨answered, -⟩ := perform_cases ran
  cases op with
  | store c => exact (answer_store answered).2
  | _ => rw [World.clock, answer_other answered (by intro c h; cases h)]; rfl

/-- The environment moves time forward and changes no row and no history. -/
theorem drift_cases {e : Env} {w w' : World} (ran : drift e w = some w') :
    w.clock ≤ w'.clock ∧ (∀ j, w'.job j = w.job j) ∧ (∀ r, w'.run r = w.run r) ∧ w'.log = w.log := by
  cases e with
  | advance clock =>
    simp only [drift] at ran
    split at ran
    · rename_i later
      cases ran
      exact ⟨later, fun _ => rfl, fun _ => rfl, rfl⟩
    · cases ran
  | assign instanceId partitions => cases ran; exact ⟨le_refl _, fun _ => rfl, fun _ => rfl, rfl⟩
  | swapJobs n => cases ran; exact ⟨le_refl _, fun j => Collections.Table.lookup_swap _ n j, fun _ => rfl, rfl⟩
  | swapRuns n => cases ran; exact ⟨le_refl _, fun _ => rfl, fun r => Collections.Table.lookup_swap _ n r, rfl⟩

/-- Nor does it touch the revisions or the name index. -/
theorem drift_untouched {e : Env} {w w' : World} (ran : drift e w = some w') :
    w'.store.revisions = w.store.revisions ∧ w'.store.jobsByName = w.store.jobsByName := by
  cases e with
  | advance clock =>
    simp only [drift] at ran
    split at ran
    · cases ran
      exact ⟨rfl, rfl⟩
    · cases ran
  | _ => cases ran; exact ⟨rfl, rfl⟩

end Chronon
