import Chronon.Axum.Router
import Chronon.Concurrent.Rules
import Chronon.Mem.Shown

/-!
# Requests over one store

Any number of requests are handled at a time, call by call, while others change the
store. What is seen of a run is which requests came in, which calls were made, as they
are shown, and the answers. A call is made only for a request that was let in, a
request that was not is told so, and where nobody was let in the store is as the
others made it.
-/

namespace Chronon
set_option autoImplicit false

open Concurrent

/-- A request that has reached the router. -/
structure Incoming where
  parts : Axum.Parts
  request : Axum.ApiRequest

/-- What happens besides the requests: time passes, and others change the store. -/
inductive Around where
  | advance (clock : DateTime)
  | others (change : Store → Store)

/-- A call by what is shown of its arguments. -/
def Op.shown : Op → Op
  | .store c => .store c.shown
  | op => op

/-- What is seen of a run. -/
inductive Seen where
  | request (p : Nat) (incoming : Incoming)
  | call (p : Nat) (op : Op)
  | response (p : Nat) (response : Axum.Response)
  | around (e : Around)

/-- A request comes in, its calls, and its answer. -/
inductive RouterOp where
  | receive (incoming : Incoming)
  | task (op : Op)
  | respond (response : Axum.Response)

@[reducible] def RouterAns : RouterOp → Type
  | .receive _ => Unit
  | .task op => Ans op
  | .respond _ => Unit

/-- The world, and what has been seen, latest first. -/
structure Served where
  world : World
  seen : List Seen

namespace Served

def fresh (s : State) : Served := ⟨.fresh s, []⟩

def perform (p : Nat) (oracle : Oracle) (w : Served) : (op : RouterOp) → Option (RouterAns op × Served)
  | .receive incoming => some ((), { w with seen := .request p incoming :: w.seen })
  | .task op => (Chronon.perform p oracle w.world op).map fun done => (done.1, ⟨done.2, .call p op.shown :: w.seen⟩)
  | .respond response => some ((), { w with seen := .response p response :: w.seen })

def drift (e : Around) (w : Served) : Option Served :=
  match e with
  | .advance clock => (Chronon.drift (.advance clock) w.world).map fun world => ⟨world, .around e :: w.seen⟩
  | .others change =>
    some ⟨{ w.world with state := { w.world.state with store := change w.world.store } }, .around e :: w.seen⟩

theorem drift_cases {e : Around} {w w' : Served} (drifts : drift e w = some w') :
    (∃ clock, e = .advance clock ∧ w.world.clock ≤ clock ∧
      w' = ⟨{ w.world with state := { w.world.state with clock } }, .around e :: w.seen⟩) ∨
    (∃ change, e = .others change ∧
      w' = ⟨{ w.world with state := { w.world.state with store := change w.world.store } }, .around e :: w.seen⟩) := by
  cases e with
  | advance clock =>
    obtain ⟨world, advanced, rfl⟩ := Option.map_eq_some_iff.mp drifts
    simp only [Chronon.drift] at advanced
    split at advanced
    · rename_i later
      cases advanced
      exact .inl ⟨clock, rfl, later, rfl⟩
    · cases advanced
  | others change =>
    cases drifts
    exact .inr ⟨change, rfl, rfl⟩

end Served

section Router

variable {Ctx : Type} (state : Axum.ChrononState Ctx)

/-- The handling of a request, and its answer. -/
def answered (incoming : Incoming) : Prog RouterOp RouterAns Unit := do
  .perform (RouterOp.receive incoming)
  let response ← (Axum.chrononRouter state incoming.parts incoming.request).embed RouterOp.task fun _ r => r
  .perform (RouterOp.respond response)

/-- Any number of requests to the router, over one store. -/
def router : Machine RouterOp RouterAns Served Incoming Oracle Around where
  code := answered state
  exec := fun p oracle w op => w.perform p oracle op
  drift := Served.drift

end Router

/-! ## Who is let in -/

/-- The last request of a task. -/
def lastRequest (p : Nat) : List Seen → Option Incoming
  | [] => none
  | .request q incoming :: earlier => if q = p then some incoming else lastRequest p earlier
  | _ :: earlier => lastRequest p earlier

/-- The calls belong to requests that were let in, and a request that was not is told so. -/
def Admitted (auth : Axum.Parts → Except String Unit) : List Seen → Prop
  | [] => True
  | .call p _ :: earlier =>
    (∃ incoming, lastRequest p earlier = some incoming ∧ auth incoming.parts = .ok ()) ∧ Admitted auth earlier
  | .response p response :: earlier =>
    (∃ incoming, lastRequest p earlier = some incoming ∧
      ∀ message, auth incoming.parts = .error message → response = Axum.unauthorized message) ∧ Admitted auth earlier
  | _ :: earlier => Admitted auth earlier

theorem lastRequest_mem {p : Nat} {seen : List Seen} {incoming : Incoming} (found : lastRequest p seen = some incoming) :
    .request p incoming ∈ seen := by
  induction seen with
  | nil => cases found
  | cons e earlier ih =>
    cases e with
    | request q other =>
      unfold lastRequest at found
      split at found
      · rename_i same
        subst same
        cases found
        exact List.mem_cons_self
      · exact List.mem_cons_of_mem _ (ih found)
    | call q op => exact List.mem_cons_of_mem _ (ih found)
    | response q response => exact List.mem_cons_of_mem _ (ih found)
    | around e => exact List.mem_cons_of_mem _ (ih found)

/-- Somebody was let in where there was a call. -/
theorem Admitted.request {auth : Axum.Parts → Except String Unit} {seen : List Seen} {p : Nat} {op : Op}
    (admitted : Admitted auth seen) (isCall : .call p op ∈ seen) :
    ∃ incoming, .request p incoming ∈ seen ∧ auth incoming.parts = .ok () := by
  induction seen with
  | nil => cases isCall
  | cons e earlier ih =>
    have before (admitted : Admitted auth earlier) (isCall : .call p op ∈ earlier) :
        ∃ incoming, .request p incoming ∈ e :: earlier ∧ auth incoming.parts = .ok () := by
      obtain ⟨incoming, came, verified⟩ := ih admitted isCall
      exact ⟨incoming, List.mem_cons_of_mem _ came, verified⟩
    cases e with
    | request q other => exact before admitted ((List.mem_cons.mp isCall).resolve_left nofun)
    | call q other =>
      obtain ⟨⟨incoming, last, verified⟩, admitted⟩ := admitted
      rcases List.mem_cons.mp isCall with same | isCall
      · cases same
        exact ⟨incoming, List.mem_cons_of_mem _ (lastRequest_mem last), verified⟩
      · exact before admitted isCall
    | response q response => exact before admitted.2 ((List.mem_cons.mp isCall).resolve_left nofun)
    | around e => exact before admitted ((List.mem_cons.mp isCall).resolve_left nofun)

/-- The store as the others made it. -/
def madeByOthers (s : Store) : List Seen → Store
  | [] => s
  | .around (.others change) :: earlier => change (madeByOthers s earlier)
  | _ :: earlier => madeByOthers s earlier

/-- How far the handling of a request is. -/
inductive Handling where
  | arriving (incoming : Incoming)
  | inside (incoming : Incoming)
  | finished

/-- A request is received; then it makes calls if it is let in, and answers. -/
inductive HandlingMove (auth : Axum.Parts → Except String Unit) : Handling → (op : RouterOp) → RouterAns op → Handling → Prop
  | receive {incoming : Incoming} : HandlingMove auth (.arriving incoming) (.receive incoming) () (.inside incoming)
  | call {incoming : Incoming} {op : Op} {r : Ans op} :
      auth incoming.parts = .ok () → HandlingMove auth (.inside incoming) (.task op) r (.inside incoming)
  | respond {incoming : Incoming} {response : Axum.Response} :
      (∀ message, auth incoming.parts = .error message → response = Axum.unauthorized message) →
      HandlingMove auth (.inside incoming) (.respond response) () .finished

def handling (auth : Axum.Parts → Except String Unit) : Protocol RouterOp RouterAns Incoming Handling where
  start := .arriving
  ended := (· = .finished)
  move := HandlingMove auth

variable {Ctx : Type} {state : Axum.ChrononState Ctx}

/-- Every request is handled in this order. -/
theorem handling_governs : (handling (Axum.requireAdmin state)).Governs (router state) := by
  intro incoming
  refine fun _ => ⟨.inside incoming, .receive, ?_⟩
  have handled : Follows (HandlingMove (Axum.requireAdmin state))
      ((Axum.chrononRouter state incoming.parts incoming.request).embed RouterOp.task fun _ r => r) (.inside incoming)
      fun response φ => φ = .inside incoming ∧
        ∀ message, Axum.requireAdmin state incoming.parts = .error message → response = Axum.unauthorized message := by
    unfold Axum.chrononRouter
    cases verified : Axum.requireAdmin state incoming.parts with
    | error message => exact ⟨rfl, fun _ same => congrArg Axum.unauthorized (Except.error.inj same)⟩
    | ok _ =>
      have anyTask (m : Task Axum.Response) : Follows (HandlingMove (Axum.requireAdmin state))
          (m.embed RouterOp.task fun _ r => r) (.inside incoming) fun _ φ => φ = .inside incoming := by
        induction m with
        | ret response => exact rfl
        | call op k ih => exact fun r => ⟨.inside incoming, .call verified, ih r⟩
      exact (anyTask _).mono fun _ _ same => ⟨same, fun _ refused => nomatch refused⟩
  refine handled.bind ?_
  rintro response _ ⟨rfl, told⟩
  exact fun _ => ⟨.finished, .respond told, rfl⟩

/-- What is known of the running tasks, and of the store. -/
def admission (state : Axum.ChrononState Ctx) (s : Store) :
    Rules (router state) (handling (Axum.requireAdmin state)) fun _ _ _ => True where
  inv w := Admitted (Axum.requireAdmin state) w.seen ∧
    ((∀ p op, Seen.call p op ∉ w.seen) → w.world.store = madeByOthers s w.seen)
  guar p w w' := ∀ q, q ≠ p → lastRequest q w'.seen = lastRequest q w.seen
  idle _ _ := True
  holds p φ w :=
    match φ with
    | .inside incoming => lastRequest p w.seen = some incoming
    | _ => True
  start _ _ _ := trivial
  finish _ _ _ := trivial
  own := by
    rintro p _ op r _ oracle w w' ⟨admitted, kept⟩ holds move runs -
    cases move with
    | receive =>
      cases runs
      exact ⟨⟨admitted, fun none => kept fun q op inside => none q op (List.mem_cons_of_mem _ inside)⟩,
        fun q other => if_neg (Ne.symm other), if_pos rfl⟩
    | call verified =>
      obtain ⟨done, -, isDone⟩ := Option.map_eq_some_iff.mp runs
      cases isDone
      refine ⟨⟨⟨⟨_, holds, verified⟩, admitted⟩, fun none => ?_⟩, fun _ _ => rfl, holds⟩
      exact absurd List.mem_cons_self (none p _)
    | respond told =>
      cases runs
      refine ⟨⟨⟨⟨_, holds, told⟩, admitted⟩, fun none => ?_⟩, fun _ _ => rfl, trivial⟩
      exact kept fun q op inside => none q op (List.mem_cons_of_mem _ inside)
  other := by
    intro p q φ w w' other _ _ guar holds
    cases φ with
    | inside incoming => exact (guar p other).trans holds
    | arriving incoming => trivial
    | finished => trivial
  otherIdle _ _ _ _ _ := trivial
  drift := by
    rintro e w w' ⟨admitted, kept⟩ drifts -
    have made : w'.seen = .around e :: w.seen ∧
        ((∀ p op, Seen.call p op ∉ w.seen) → w'.world.store = madeByOthers s (.around e :: w.seen)) := by
      obtain ⟨clock, rfl, -, rfl⟩ | ⟨change, rfl, rfl⟩ := Served.drift_cases drifts
      · exact ⟨rfl, kept⟩
      · exact ⟨rfl, fun none => congrArg change (kept none)⟩
    obtain ⟨seen, made⟩ := made
    rw [seen]
    refine ⟨⟨admitted, fun none => made fun p op inside => none p op (List.mem_cons_of_mem _ inside)⟩, fun p φ holds => ?_,
      fun _ _ => trivial⟩
    cases φ with
    | inside incoming => exact holds
    | arriving incoming => trivial
    | finished => trivial

/-- **Calls are made only for requests that are let in.** -/
theorem admitted_only {b : Axum.ChrononStateBuilder Ctx} {state : Axum.ChrononState Ctx} (built : b.build = .ok state)
    (required : state.requireAdminAuth = true) :
    ∃ auth, state.adminAuth = some auth ∧
      ∀ s c, (router state).Reach (fun _ _ _ => True) (.idle (.fresh s)) c →
        Admitted auth c.world.seen ∧
          ((∀ p incoming, Seen.request p incoming ∈ c.world.seen → auth incoming.parts ≠ .ok ()) →
            c.world.world.store = madeByOthers s.store c.world.seen) := by
  obtain ⟨auth, isAuth⟩ := Axum.build_closed built required
  refine ⟨auth, isAuth, fun s c reach => ?_⟩
  have verifies : Axum.requireAdmin state = auth := by
    funext parts
    unfold Axum.requireAdmin
    rw [isAuth]
  have standing : (admission state s.store).Standing (.idle (.fresh s)) :=
    .initial _ ⟨trivial, fun _ => rfl⟩ fun _ => trivial
  obtain ⟨admitted, kept⟩ := ((admission state s.store).sound handling_governs standing reach).inv
  rw [verifies] at admitted
  refine ⟨admitted, fun refused => kept fun p op isCall => ?_⟩
  obtain ⟨incoming, came, verified⟩ := admitted.request isCall
  exact refused p incoming came verified

/-- A registry with one script. -/
def noopRegistry : ScriptRegistry Unit := ScriptRegistry.new.register (.new "noop" fun _ _ => .ok ())

theorem noopRegistry_names : Host.simple.registry = noopRegistry.names := rfl

/-- A host that requires a token. -/
def tokenBuilder : Axum.ChrononStateBuilder Unit :=
  (Axum.ChrononStateBuilder.builder .simple noopRegistry noopRegistry_names (some " TRUE ")).adminAuth (Axum.StaticTokenAdminAuth "t0ken")

theorem admitted_only_token : ∃ state, tokenBuilder.build = .ok state ∧ state.requireAdminAuth = true ∧
    ∃ auth, state.adminAuth = some auth ∧
      ∀ s c, (router state).Reach (fun _ _ _ => True) (.idle (.fresh s)) c →
        Admitted auth c.world.seen ∧
          ((∀ p incoming, Seen.request p incoming ∈ c.world.seen → auth incoming.parts ≠ .ok ()) →
            c.world.world.store = madeByOthers s.store c.world.seen) :=
  have built : tokenBuilder.build = .ok tokenBuilder.state := if_neg (by decide +kernel)
  have required : tokenBuilder.state.requireAdminAuth = true := by decide +kernel
  ⟨tokenBuilder.state, built, required, admitted_only built required⟩

end Chronon
