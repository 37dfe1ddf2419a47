import Chronon.Concurrent.Prog

/-!
# Programs that run alone

One program against a state that nobody else touches. What a call can do is a
relation, so that a call may have several answers.
-/

namespace Chronon.Concurrent
set_option autoImplicit false

variable {Op σ Φ α β : Type} {Ans : Op → Type}

/-- `m` runs from `s` to `s'` and returns `a`. -/
def Runs (step : σ → (op : Op) → Ans op → σ → Prop) : Prog Op Ans α → σ → α → σ → Prop
  | .ret a, s, b, s' => b = a ∧ s' = s
  | .call op k, s, b, s' => ∃ r t, step s op r t ∧ Runs step (k r) t b s'

/-- From `s`, `m` comes to the point where `rest` is left to do in state `t`. -/
inductive Comes (step : σ → (op : Op) → Ans op → σ → Prop) : Prog Op Ans α → σ → Prog Op Ans α → σ → Prop where
  | refl {m : Prog Op Ans α} {s : σ} : Comes step m s m s
  | call {op : Op} {k : Ans op → Prog Op Ans α} {s t u : σ} {r : Ans op} {rest : Prog Op Ans α} :
      step s op r t → Comes step (k r) t rest u → Comes step (.call op k) s rest u

variable {step : σ → (op : Op) → Ans op → σ → Prop}

theorem Runs.bind {m : Prog Op Ans α} {f : α → Prog Op Ans β} {s s'' : σ} {b : β} :
    Runs step (m >>= f) s b s'' ↔ ∃ a s', Runs step m s a s' ∧ Runs step (f a) s' b s'' := by
  induction m generalizing s with
  | ret a =>
    constructor
    · exact fun rest => ⟨a, s, ⟨rfl, rfl⟩, rest⟩
    · rintro ⟨_, _, ⟨rfl, rfl⟩, rest⟩
      exact rest
  | call op k ih =>
    constructor
    · rintro ⟨r, t, steps, rest⟩
      obtain ⟨a, s', first, rest⟩ := (ih r).mp rest
      exact ⟨a, s', ⟨r, t, steps, first⟩, rest⟩
    · rintro ⟨a, s', ⟨r, t, steps, first⟩, rest⟩
      exact ⟨r, t, steps, (ih r).mpr ⟨a, s', first, rest⟩⟩

/-- Where every call has an answer, a program runs to its end. -/
theorem Runs.exists (total : ∀ s op, ∃ r t, step s op r t) (m : Prog Op Ans α) (s : σ) : ∃ a s', Runs step m s a s' := by
  induction m generalizing s with
  | ret a => exact ⟨a, s, rfl, rfl⟩
  | call op k ih =>
    obtain ⟨r, t, steps⟩ := total s op
    obtain ⟨a, s', rest⟩ := ih r t
    exact ⟨a, s', r, t, steps, rest⟩

/-- Run a program whose calls each have one answer. -/
def Prog.eval (exec : σ → (op : Op) → Ans op × σ) : Prog Op Ans α → σ → α × σ
  | .ret a, s => (a, s)
  | .call op k, s => (k (exec s op).1).eval exec (exec s op).2

/-- What is evaluated is a run. -/
theorem Runs.of_eval {exec : σ → (op : Op) → Ans op × σ} (steps : ∀ s op, step s op (exec s op).1 (exec s op).2)
    (m : Prog Op Ans α) (s : σ) : Runs step m s (m.eval exec s).1 (m.eval exec s).2 := by
  induction m generalizing s with
  | ret a => exact ⟨rfl, rfl⟩
  | call op k ih => exact ⟨_, _, steps s op, ih _ _⟩

/-- A program that follows a protocol keeps the assertions of its phases. -/
theorem Follows.runs {T : Φ → (op : Op) → Ans op → Φ → Prop} {A : Φ → σ → Prop} {m : Prog Op Ans α} {φ : Φ}
    {Q : α → Φ → Prop} {s s' : σ} {a : α}
    (moves : ∀ φ op r φ' s s', A φ s → T φ op r φ' → step s op r s' → A φ' s')
    (follows : Follows T m φ Q) (holds : A φ s) (runs : Runs step m s a s') : ∃ φ', Q a φ' ∧ A φ' s' := by
  induction m generalizing φ s with
  | ret _ =>
    obtain ⟨rfl, rfl⟩ := runs
    exact ⟨φ, follows, holds⟩
  | call op k ih =>
    obtain ⟨r, t, steps, rest⟩ := runs
    obtain ⟨φ', move, follows⟩ := follows r
    exact ih r follows (moves φ op r φ' s t holds move steps) rest

/-- The same up to any point of the program. -/
theorem Follows.comes {T : Φ → (op : Op) → Ans op → Φ → Prop} {A : Φ → σ → Prop} {m rest : Prog Op Ans α} {φ : Φ}
    {Q : α → Φ → Prop} {s t : σ}
    (moves : ∀ φ op r φ' s s', A φ s → T φ op r φ' → step s op r s' → A φ' s')
    (follows : Follows T m φ Q) (holds : A φ s) (comes : Comes step m s rest t) :
    ∃ φ', A φ' t ∧ Follows T rest φ' Q := by
  induction comes generalizing φ with
  | refl => exact ⟨φ, holds, follows⟩
  | call steps _ ih =>
    obtain ⟨φ', move, follows⟩ := follows _
    exact ih follows (moves _ _ _ _ _ _ holds move steps)

end Chronon.Concurrent
