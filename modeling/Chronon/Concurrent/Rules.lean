import Chronon.Concurrent.Interleave

/-!
# Rely-guarantee rules over protocols

The tasks of a machine obey a protocol `T` over phases (`Follows`): what a task
does next is a transition from the phase it is in. `Rules` gives each phase of
each task an assertion about the world and each task a guarantee about its own
steps. A task's step must re-establish its own assertion and keep its
guarantee; the guarantee must leave the other tasks' assertions standing. Then
the assertions hold at every reachable configuration (`Rules.sound`).

The obligations never mention programs, so a proof about a system of tasks is a
case analysis over protocol transitions.
-/

namespace Chronon.Concurrent
set_option autoImplicit false

variable {Op : Type} {Ans : Op → Type} {World Proc Oracle Env Φ : Type}

/-- The phase every program starts in, the phases it may return in, and the
moves in between. -/
structure Protocol (Op : Type) (Ans : Op → Type) (Proc Φ : Type) where
  start : Proc → Φ
  ended : Φ → Prop
  move : Φ → (op : Op) → Ans op → Φ → Prop

/-- Every program of the machine follows the protocol. -/
def Protocol.Governs (T : Protocol Op Ans Proc Φ) (M : Machine Op Ans World Proc Oracle Env) : Prop :=
  ∀ proc, Follows T.move (M.code proc) (T.start proc) fun _ φ => T.ended φ

/-- Assertions, guarantees and their obligations, for runs with side condition `P`.
`idle` is what holds of a task that is not running. -/
structure Rules (M : Machine Op Ans World Proc Oracle Env) (T : Protocol Op Ans Proc Φ)
    (P : Label Op Ans Proc Env → World → World → Prop) where
  inv : World → Prop
  guar : Nat → World → World → Prop
  idle : Nat → World → Prop
  holds : Nat → Φ → World → Prop
  start : ∀ {p proc w}, inv w → idle p w → P (.start p proc) w w → holds p (T.start proc) w
  finish : ∀ {p φ w}, inv w → T.ended φ → holds p φ w → idle p w
  own : ∀ {p φ op r φ' oracle w w'}, inv w → holds p φ w → T.move φ op r φ' →
    M.exec p oracle w op = some (r, w') → P (.call p op r) w w' →
    inv w' ∧ guar p w w' ∧ holds p φ' w'
  other : ∀ {p q φ w w'}, p ≠ q → inv w → inv w' → guar q w w' → holds p φ w → holds p φ w'
  otherIdle : ∀ {p q w w'}, p ≠ q → inv w → inv w' → guar q w w' → idle p w → idle p w'
  drift : ∀ {e w w'}, inv w → M.drift e w = some w' → P (.env e) w w' →
    inv w' ∧ (∀ p φ, holds p φ w → holds p φ w') ∧ ∀ p, idle p w → idle p w'

/-- How a configuration stands: every waiting task is in a phase whose assertion
holds and from which the rest of its program follows the protocol. -/
structure Rules.Standing {M : Machine Op Ans World Proc Oracle Env} {T : Protocol Op Ans Proc Φ}
    {P : Label Op Ans Proc Env → World → World → Prop} (R : Rules M T P) (c : Config Op Ans World) : Prop where
  inv : R.inv c.world
  resting : ∀ p, c.threads p = none → R.idle p c.world
  running : ∀ p code, c.threads p = some code →
    ∃ φ, R.holds p φ c.world ∧ Follows T.move code φ fun _ φ' => T.ended φ'

section Sound

variable {M : Machine Op Ans World Proc Oracle Env} {T : Protocol Op Ans Proc Φ}
  {P : Label Op Ans Proc Env → World → World → Prop} (R : Rules M T P)

/-- A task that is not waiting for a call satisfies its idle assertion. -/
theorem Rules.Standing.free {R : Rules M T P} {c : Config Op Ans World} (standing : R.Standing c) {p : Nat}
    (free : ∀ op k, c.threads p ≠ some (.call op k)) : R.idle p c.world := by
  cases found : c.threads p with
  | none => exact standing.resting p found
  | some code =>
    obtain ⟨φ, holds, follows⟩ := standing.running p code found
    cases code with
    | ret a => exact R.finish standing.inv follows holds
    | call op k => exact absurd found (free op k)

theorem Rules.Standing.initial {w : World} (inv : R.inv w) (idle : ∀ p, R.idle p w) :
    R.Standing (Config.idle w) :=
  ⟨inv, fun p _ => idle p, fun _ _ found => by cases found⟩

/-- One step keeps every task's assertion. -/
theorem Rules.Standing.step {R : Rules M T P} {c c' : Config Op Ans World} {ch : Choice Proc Oracle Env}
    {l : Label Op Ans Proc Env} (governed : T.Governs M) (standing : R.Standing c)
    (moves : M.step c ch = some (l, c')) (allowed : P l c.world c'.world) : R.Standing c' := by
  obtain ⟨p, proc, rfl, free, rfl⟩ | ⟨p, oracle, op, r, k, w, rfl, waiting, runs, rfl⟩ |
    ⟨e, w, rfl, drifts, rfl⟩ := Machine.step_cases moves
  · refine ⟨standing.inv, fun q found => ?_, fun q code found => ?_⟩
    · by_cases same : q = p
      · subst same; simp at found
      · exact standing.resting q (by simpa [Function.update_of_ne same] using found)
    · by_cases same : q = p
      · subst same
        simp only [Function.update_self, Option.some.injEq] at found
        subst found
        exact ⟨_, R.start standing.inv (standing.free free) allowed, governed proc⟩
      · exact standing.running q code (by simpa [Function.update_of_ne same] using found)
  · obtain ⟨φ, holds, follows⟩ := standing.running p _ waiting
    obtain ⟨φ', move, rest⟩ := follows r
    obtain ⟨inv', guar, holds'⟩ := R.own standing.inv holds move runs allowed
    refine ⟨inv', fun q found => ?_, fun q code found => ?_⟩
    · by_cases same : q = p
      · subst same; simp at found
      · exact R.otherIdle same standing.inv inv' guar
          (standing.resting q (by simpa [Function.update_of_ne same] using found))
    · by_cases same : q = p
      · subst same
        simp only [Function.update_self, Option.some.injEq] at found
        subst found
        exact ⟨φ', holds', rest⟩
      · obtain ⟨ψ, kept, follows⟩ := standing.running q code (by simpa [Function.update_of_ne same] using found)
        exact ⟨ψ, R.other same standing.inv inv' guar kept, follows⟩
  · obtain ⟨inv', kept, keptIdle⟩ := R.drift standing.inv drifts allowed
    refine ⟨inv', fun q found => keptIdle q (standing.resting q found), fun q code found => ?_⟩
    obtain ⟨ψ, holds, follows⟩ := standing.running q code found
    exact ⟨ψ, kept q ψ holds, follows⟩

/-- **Soundness.** The assertions hold along every run. -/
theorem Rules.sound (governed : T.Governs M) {c c' : Config Op Ans World} (standing : R.Standing c)
    (reach : M.Reach P c c') : R.Standing c' := by
  induction reach with
  | refl => exact standing
  | step _ moves allowed ih => exact ih.step governed moves allowed

end Sound

end Chronon.Concurrent
