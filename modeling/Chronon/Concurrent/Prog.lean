import Mathlib.Logic.Function.Basic

/-!
# Programs over atomic calls

A sequential program is a tree: it either returns or issues one call and
continues with the answer. Nothing else happens between two calls, so a
program suspended at a call is exactly a task waiting for the shared state,
and interleaving tasks is interleaving calls (`Interleave.lean`).

Programs are finite trees. A task that loops forever is the same program
started again each time it returns.
-/

namespace Chronon.Concurrent
set_option autoImplicit false

/-- A program that issues calls of `Op`, each answered in `Ans op`. -/
inductive Prog (Op : Type) (Ans : Op → Type) (α : Type) where
  | ret (a : α)
  | call (op : Op) (k : Ans op → Prog Op Ans α)

namespace Prog

variable {Op : Type} {Ans : Op → Type} {α β : Type}

/-- Run `m`, then `f` on what it returned. -/
def bind (m : Prog Op Ans α) (f : α → Prog Op Ans β) : Prog Op Ans β :=
  match m with
  | .ret a => f a
  | .call op k => .call op fun r => (k r).bind f

instance : Monad (Prog Op Ans) where
  pure := .ret
  bind := bind

/-- The program that issues one call and returns its answer. -/
def perform (op : Op) : Prog Op Ans (Ans op) := .call op .ret

/-- The same program with its calls issued as calls of another kind. -/
def embed {Op' : Type} {Ans' : Op' → Type} (f : Op → Op') (back : (op : Op) → Ans' (f op) → Ans op) :
    Prog Op Ans α → Prog Op' Ans' α
  | .ret a => .ret a
  | .call op k => .call (f op) fun r => (k (back op r)).embed f back

/-- Drop the result. -/
def done (m : Prog Op Ans α) : Prog Op Ans Unit := m >>= fun _ => .ret ()

end Prog

/-- A program obeys a protocol: from phase `φ`, every call it can issue has,
for each answer, a protocol transition, and what it returns satisfies `Q`. The
answers range over the whole answer type, so a protocol speaks about failing
calls as well. -/
def Follows {Op : Type} {Ans : Op → Type} {Φ α : Type} (T : Φ → (op : Op) → Ans op → Φ → Prop) :
    Prog Op Ans α → Φ → (α → Φ → Prop) → Prop
  | .ret a, φ, Q => Q a φ
  | .call op k, φ, Q => ∀ r, ∃ φ', T φ op r φ' ∧ Follows T (k r) φ' Q

section Follows

variable {Op : Type} {Ans : Op → Type} {Φ α β : Type} {T : Φ → (op : Op) → Ans op → Φ → Prop}

theorem Follows.mono {m : Prog Op Ans α} {φ : Φ} {Q Q' : α → Φ → Prop}
    (follows : Follows T m φ Q) (weaker : ∀ a ψ, Q a ψ → Q' a ψ) : Follows T m φ Q' := by
  induction m generalizing φ with
  | ret a => exact weaker a φ follows
  | call op k ih =>
    intro r
    obtain ⟨ψ, move, rest⟩ := follows r
    exact ⟨ψ, move, ih r rest⟩

/-- Sequencing: the continuation is checked from the phases the first part ends in. -/
theorem Follows.bind {m : Prog Op Ans α} {f : α → Prog Op Ans β} {φ : Φ}
    {Q : α → Φ → Prop} {Q' : β → Φ → Prop} (first : Follows T m φ Q)
    (rest : ∀ a ψ, Q a ψ → Follows T (f a) ψ Q') : Follows T (m >>= f) φ Q' := by
  induction m generalizing φ with
  | ret a => exact rest a φ first
  | call op k ih =>
    intro r
    obtain ⟨ψ, move, next⟩ := first r
    exact ⟨ψ, move, ih r next⟩

theorem Follows.done {m : Prog Op Ans α} {φ : Φ} {E : Φ → Prop}
    (follows : Follows T m φ fun _ ψ => E ψ) : Follows T m.done φ fun _ ψ => E ψ :=
  follows.bind fun _ _ ended => ended

/-- A protocol whose moves are all matched by another one can be replaced by it. -/
theorem Follows.sim {Φ' : Type} {T' : Φ' → (op : Op) → Ans op → Φ' → Prop} {R : Φ → Φ' → Prop} {m : Prog Op Ans α} {φ : Φ}
    {ψ : Φ'} {Q : α → Φ → Prop}
    (matched : ∀ φ op r φ' ψ, R φ ψ → T φ op r φ' → ∃ ψ', T' ψ op r ψ' ∧ R φ' ψ') (related : R φ ψ)
    (follows : Follows T m φ Q) : Follows T' m ψ fun a ψ' => ∃ φ', R φ' ψ' ∧ Q a φ' := by
  induction m generalizing φ ψ with
  | ret a => exact ⟨φ, related, follows⟩
  | call op k ih =>
    intro r
    obtain ⟨φ', move, rest⟩ := follows r
    obtain ⟨ψ', move', related'⟩ := matched φ op r φ' ψ related move
    exact ⟨ψ', move', ih r related' rest⟩

/-- An embedded program follows the embedded protocol. -/
theorem Follows.embed {Op' Φ' : Type} {Ans' : Op' → Type} {f : Op → Op'} {back : (op : Op) → Ans' (f op) → Ans op}
    {T' : Φ' → (op : Op') → Ans' op → Φ' → Prop} {g : Φ → Φ'} {m : Prog Op Ans α} {φ : Φ} {Q : α → Φ → Prop}
    (moves : ∀ φ op r φ', T φ op (back op r) φ' → T' (g φ) (f op) r (g φ')) (follows : Follows T m φ Q) :
    Follows T' (m.embed f back) (g φ) fun a ψ => ∃ φ', ψ = g φ' ∧ Q a φ' := by
  induction m generalizing φ with
  | ret a => exact ⟨φ, rfl, follows⟩
  | call op k ih =>
    intro r
    obtain ⟨φ', move, rest⟩ := follows (back op r)
    exact ⟨g φ', moves φ op r φ' move, ih _ rest⟩

end Follows

end Chronon.Concurrent
