import Chronon.Concurrent.Prog

/-!
# Interleaved tasks over a shared world

Tasks are numbered. A step starts a task, lets one task perform its next call
against the world, or lets the environment move (time passing, parties that are
not modelled). Whatever is not determined by the world, such as a random
identifier, comes from an oracle that is part of the scheduler's choice, so a
list of choices determines a run and runs can be evaluated (`play`).

`Reach` is the runs whose every step meets a side condition `P` on the label
and the worlds before and after it: assumptions on timing, on which tasks are
started, or on what a call finds, are all given in this form.
-/

namespace Chronon.Concurrent
set_option autoImplicit false

section Machine

variable (Op : Type) (Ans : Op → Type) (World Proc Oracle Env : Type)

/-- The tasks that can be started, and what calls and the environment do. -/
structure Machine where
  code : Proc → Prog Op Ans Unit
  exec : Nat → Oracle → World → (op : Op) → Option (Ans op × World)
  drift : Env → World → Option World

/-- The shared world and the suspended tasks. -/
structure Config where
  world : World
  threads : Nat → Option (Prog Op Ans Unit)

inductive Choice where
  | start (p : Nat) (proc : Proc)
  | call (p : Nat) (oracle : Oracle)
  | env (e : Env)

inductive Label where
  | start (p : Nat) (proc : Proc)
  | call (p : Nat) (op : Op) (r : Ans op)
  | env (e : Env)

end Machine

variable {Op : Type} {Ans : Op → Type} {World Proc Oracle Env : Type}

/-- No task has been started. -/
def Config.idle (w : World) : Config Op Ans World := ⟨w, fun _ => none⟩

/-- Task `p` is not waiting for a call. -/
def Config.finished (c : Config Op Ans World) (p : Nat) : Bool :=
  match c.threads p with
  | some (.call _ _) => false
  | _ => true

namespace Machine

variable (M : Machine Op Ans World Proc Oracle Env)

/-- One step. A number whose task is still waiting for a call cannot be reused. -/
def step (c : Config Op Ans World) : Choice Proc Oracle Env → Option (Label Op Ans Proc Env × Config Op Ans World)
  | .start p proc =>
    match c.threads p with
    | some (.call _ _) => none
    | _ => some (.start p proc, { c with threads := Function.update c.threads p (some (M.code proc)) })
  | .call p oracle =>
    match c.threads p with
    | some (.call op k) =>
      match M.exec p oracle c.world op with
      | some (r, w) => some (.call p op r, ⟨w, Function.update c.threads p (some (k r))⟩)
      | none => none
    | _ => none
  | .env e =>
    match M.drift e c.world with
    | some w => some (.env e, { c with world := w })
    | none => none

/-- The runs from `c₀` whose steps all satisfy `P`. -/
inductive Reach (P : Label Op Ans Proc Env → World → World → Prop) (c₀ : Config Op Ans World) :
    Config Op Ans World → Prop where
  | refl : Reach P c₀ c₀
  | step {c c' : Config Op Ans World} {ch : Choice Proc Oracle Env} {l : Label Op Ans Proc Env} :
      Reach P c₀ c → M.step c ch = some (l, c') → P l c.world c'.world → Reach P c₀ c'

/-- Run a list of choices, checking the side condition at every step. -/
def play (P : Label Op Ans Proc Env → World → World → Prop) [∀ l w w', Decidable (P l w w')] :
    List (Choice Proc Oracle Env) → Config Op Ans World → Option (Config Op Ans World)
  | [], c => some c
  | ch :: rest, c =>
    match M.step c ch with
    | some (l, c') => if P l c.world c'.world then play P rest c' else none
    | none => none

variable {M} {P : Label Op Ans Proc Env → World → World → Prop}

theorem Reach.trans {a b c : Config Op Ans World} (first : M.Reach P a b) (rest : M.Reach P b c) :
    M.Reach P a c := by
  induction rest with
  | refl => exact first
  | step _ moves allowed ih => exact ih.step moves allowed

theorem Reach.mono {Q : Label Op Ans Proc Env → World → World → Prop} {a b : Config Op Ans World}
    (reach : M.Reach P a b) (weaker : ∀ l w w', P l w w' → Q l w w') : M.Reach Q a b := by
  induction reach with
  | refl => exact .refl
  | step _ moves allowed ih => exact ih.step moves (weaker _ _ _ allowed)

/-- What can be played is a run. -/
theorem Reach.of_play [∀ l w w', Decidable (P l w w')] {choices : List (Choice Proc Oracle Env)}
    {c d : Config Op Ans World} (played : M.play P choices c = some d) : M.Reach P c d := by
  induction choices generalizing c with
  | nil => cases played; exact .refl
  | cons ch rest ih =>
    simp only [play] at played
    split at played
    · rename_i l c' moves
      split at played
      · rename_i allowed
        exact (Reach.refl.step moves allowed).trans (ih played)
      · cases played
    · cases played

/-- A schedule whose last configuration passes a test. -/
theorem Reach.of_play_any [∀ l w w', Decidable (P l w w')] {choices : List (Choice Proc Oracle Env)}
    {c : Config Op Ans World} {test : Config Op Ans World → Bool} (played : (M.play P choices c).any test = true) :
    ∃ d, M.Reach P c d ∧ test d = true := by
  obtain ⟨d, reached, passes⟩ := (Option.any_eq_true _ _).mp played
  exact ⟨d, .of_play reached, passes⟩

/-- Where every call is answered, a task can go on to its end. -/
theorem Reach.run_alone {p : Nat} (answers : ∀ w op, ∃ oracle r w', M.exec p oracle w op = some (r, w'))
    (allowed : ∀ op r w w', P (.call p op r) w w') (c : Config Op Ans World) :
    ∃ c', M.Reach P c c' ∧ c'.finished p = true := by
  have ends : ∀ (code : Prog Op Ans Unit) (c : Config Op Ans World), c.threads p = some code →
      ∃ c', M.Reach P c c' ∧ c'.finished p = true := by
    intro code
    induction code with
    | ret a => exact fun c found => ⟨c, .refl, by rw [Config.finished, found]⟩
    | call op k ih =>
      intro c found
      obtain ⟨oracle, r, w, ran⟩ := answers c.world op
      have moves : M.step c (.call p oracle) = some (.call p op r, ⟨w, Function.update c.threads p (some (k r))⟩) := by
        simp only [Machine.step, found, ran]
      obtain ⟨c', rest, finished⟩ := ih r ⟨w, Function.update c.threads p (some (k r))⟩ (Function.update_self ..)
      exact ⟨c', (Reach.refl.step moves (allowed ..)).trans rest, finished⟩
  cases found : c.threads p with
  | none => exact ⟨c, .refl, by rw [Config.finished, found]⟩
  | some code => exact ends code c found

/-- What one step can be. -/
theorem step_cases {c c' : Config Op Ans World} {ch : Choice Proc Oracle Env} {l : Label Op Ans Proc Env}
    (moves : M.step c ch = some (l, c')) :
    (∃ p proc, l = .start p proc ∧ (∀ op k, c.threads p ≠ some (.call op k)) ∧
      c' = { c with threads := Function.update c.threads p (some (M.code proc)) }) ∨
    (∃ p oracle op r k w, l = .call p op r ∧ c.threads p = some (.call op k) ∧
      M.exec p oracle c.world op = some (r, w) ∧ c' = ⟨w, Function.update c.threads p (some (k r))⟩) ∨
    (∃ e w, l = .env e ∧ M.drift e c.world = some w ∧ c' = { c with world := w }) := by
  cases ch with
  | start p proc =>
    simp only [step] at moves
    split at moves
    · cases moves
    · rename_i free
      cases moves
      exact .inl ⟨p, proc, rfl, fun op k waiting => free op k waiting, rfl⟩
  | call p oracle =>
    simp only [step] at moves
    split at moves
    · rename_i op k waiting
      split at moves
      · rename_i r w runs
        cases moves
        exact .inr (.inl ⟨p, oracle, op, r, k, w, rfl, waiting, runs, rfl⟩)
      · cases moves
    · cases moves
  | env e =>
    simp only [step] at moves
    split at moves
    · rename_i w drifts
      cases moves
      exact .inr (.inr ⟨e, w, rfl, drifts, rfl⟩)
    · cases moves

end Machine

end Chronon.Concurrent
