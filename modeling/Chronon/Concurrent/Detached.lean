import Chronon.Concurrent.Interleave

/-!
# Work that outlives the wait for it

A task may stop waiting for work it has started: its call answers that the time
is over, and the work goes on with nobody waiting for it. `leaves` says which
steps stop waiting, and for what. A configuration then carries the work that is
left and has not ended. Whether work is still going on when the wait for it ends
is the scheduler's choice, and so is when it ends after that.

What is left has no part in the steps of the tasks, so forgetting it gives a run
of the machine (`DetachedReach.forget`).
-/

namespace Chronon.Concurrent
set_option autoImplicit false

section Detached

variable (Op : Type) (Ans : Op → Type) (World Proc Oracle Env κ : Type)

/-- The tasks, and the work nobody waits for. -/
structure Detached where
  config : Config Op Ans World
  left : List κ

/-- A step of the tasks, with whether the work it stops waiting for goes on; or the end of work that is left. -/
inductive DetachedChoice where
  | task (ch : Choice Proc Oracle Env) (lingers : Bool)
  | ends (n : Nat)

/-- What happens in a step. `lingers` if it leaves work behind. -/
inductive DetachedLabel where
  | task (l : Label Op Ans Proc Env) (lingers : Bool)
  | ends (n : Nat)

end Detached

variable {Op : Type} {Ans : Op → Type} {World Proc Oracle Env κ : Type}

/-- No task has been started. -/
def Detached.idle (w : World) : Detached Op Ans World κ := ⟨.idle w, []⟩

namespace Machine

variable (M : Machine Op Ans World Proc Oracle Env) (leaves : Label Op Ans Proc Env → Option κ)

def detachedStep (c : Detached Op Ans World κ) :
    DetachedChoice Proc Oracle Env → Option (DetachedLabel Op Ans Proc Env × Detached Op Ans World κ)
  | .task ch lingers =>
    match M.step c.config ch with
    | some (l, config) =>
      match leaves l, lingers with
      | some work, true => some (.task l true, ⟨config, work :: c.left⟩)
      | _, _ => some (.task l false, ⟨config, c.left⟩)
    | none => none
  | .ends n => if n < c.left.length then some (.ends n, ⟨c.config, c.left.eraseIdx n⟩) else none

/-- The runs from `c₀` whose steps all satisfy `P`. -/
inductive DetachedReach (P : DetachedLabel Op Ans Proc Env → World → Prop) (c₀ : Detached Op Ans World κ) :
    Detached Op Ans World κ → Prop where
  | refl : DetachedReach P c₀ c₀
  | step {c c' : Detached Op Ans World κ} {ch : DetachedChoice Proc Oracle Env} {l : DetachedLabel Op Ans Proc Env} :
      DetachedReach P c₀ c → M.detachedStep leaves c ch = some (l, c') → P l c.config.world → DetachedReach P c₀ c'

/-- Run a list of choices, checking the side condition at every step. -/
def playDetached (P : DetachedLabel Op Ans Proc Env → World → Prop) [∀ l w, Decidable (P l w)] :
    List (DetachedChoice Proc Oracle Env) → Detached Op Ans World κ → Option (Detached Op Ans World κ)
  | [], c => some c
  | ch :: rest, c =>
    match M.detachedStep leaves c ch with
    | some (l, c') => if P l c.config.world then playDetached P rest c' else none
    | none => none

variable {M leaves} {P : DetachedLabel Op Ans Proc Env → World → Prop}

theorem DetachedReach.trans {a b c : Detached Op Ans World κ} (first : M.DetachedReach leaves P a b)
    (rest : M.DetachedReach leaves P b c) : M.DetachedReach leaves P a c := by
  induction rest with
  | refl => exact first
  | step _ moves allowed ih => exact ih.step moves allowed

/-- What can be played is a run. -/
theorem DetachedReach.of_play [∀ l w, Decidable (P l w)] {choices : List (DetachedChoice Proc Oracle Env)}
    {c d : Detached Op Ans World κ} (played : M.playDetached leaves P choices c = some d) :
    M.DetachedReach leaves P c d := by
  induction choices generalizing c with
  | nil =>
    cases played
    exact .refl
  | cons ch rest ih =>
    simp only [playDetached] at played
    split at played
    · rename_i l c' moves
      split at played
      · rename_i allowed
        exact (DetachedReach.refl.step moves allowed).trans (ih played)
      · cases played
    · cases played

/-- A schedule whose last configuration passes a test. -/
theorem DetachedReach.of_play_any [∀ l w, Decidable (P l w)] {choices : List (DetachedChoice Proc Oracle Env)}
    {c : Detached Op Ans World κ} {test : Detached Op Ans World κ → Bool}
    (played : (M.playDetached leaves P choices c).any test = true) : ∃ d, M.DetachedReach leaves P c d ∧ test d = true := by
  obtain ⟨d, reached, passes⟩ := (Option.any_eq_true _ _).mp played
  exact ⟨d, .of_play reached, passes⟩

/-- What one step can be. -/
theorem detachedStep_cases {c c' : Detached Op Ans World κ} {ch : DetachedChoice Proc Oracle Env}
    {l : DetachedLabel Op Ans Proc Env} (moves : M.detachedStep leaves c ch = some (l, c')) :
    (∃ task label lingers, l = .task label lingers ∧ M.step c.config task = some (label, c'.config) ∧
      (lingers = false → c'.left = c.left)) ∨
    (∃ n, l = .ends n ∧ c' = ⟨c.config, c.left.eraseIdx n⟩) := by
  cases ch with
  | task ch lingers =>
    simp only [detachedStep] at moves
    split at moves
    · rename_i label config stepped
      split at moves
      · cases moves
        exact .inl ⟨ch, label, true, rfl, stepped, fun none_ => by cases none_⟩
      · cases moves
        exact .inl ⟨ch, label, false, rfl, stepped, fun _ => rfl⟩
    · cases moves
  | ends n =>
    simp only [detachedStep] at moves
    split at moves
    · cases moves
      exact .inr ⟨n, rfl, rfl⟩
    · cases moves

/-- The steps of the tasks are a run of the machine. -/
theorem DetachedReach.forget {Q : Label Op Ans Proc Env → World → World → Prop} {a b : Detached Op Ans World κ}
    (reach : M.DetachedReach leaves P a b) (weaker : ∀ l lingers w w', P (.task l lingers) w → Q l w w') :
    M.Reach Q a.config b.config := by
  induction reach with
  | refl => exact .refl
  | step _ moves allowed ih =>
    obtain ⟨task, label, lingers, rfl, stepped, -⟩ | ⟨n, rfl, rfl⟩ := detachedStep_cases moves
    · exact ih.step stepped (weaker label lingers _ _ allowed)
    · exact ih

/-- Where all work ends while it is waited for, none is left. -/
theorem DetachedReach.none_left {a b : Detached Op Ans World κ} (reach : M.DetachedReach leaves P a b)
    (ends : ∀ l w, ¬ P (.task l true) w) (start : a.left = []) : b.left = [] := by
  induction reach with
  | refl => exact start
  | step _ moves allowed ih =>
    obtain ⟨task, label, lingers, rfl, -, same⟩ | ⟨n, rfl, rfl⟩ := detachedStep_cases moves
    · cases lingers with
      | true => exact absurd allowed (ends label _)
      | false => rw [same rfl, ih]
    · show List.eraseIdx _ n = []
      rw [ih]
      rfl

end Machine

end Chronon.Concurrent
