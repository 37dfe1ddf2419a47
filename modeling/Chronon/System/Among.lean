import Chronon.System.Alone

/-!
# A task among others

Before each call of the task, others may have changed the shared state as `others`
allows. What the task has done is read off its own calls.
-/

namespace Chronon
set_option autoImplicit false

open Concurrent

variable {around : Surroundings} {others : State → State → Prop} {w w' w'' : World} {α : Type}

/-- The task runs to its end or, without a result, to a panic, while others interfere. -/
def Among (others : State → State → Prop) (around : Surroundings) : Task α → World → Option α → World → Prop
  | .ret a, w, out, w' => out = some a ∧ w' = w
  | .call .panic _, w, out, w' => out = none ∧ w' = w
  | .call op k, w, out, w' =>
    ∃ state r t, others w.state state ∧ Alone around ⟨state, w.log⟩ op r t ∧ Among others around (k r) t out w'

/-- Nobody has to interfere. -/
theorem Ends.among (idle : ∀ s, others s s) {m : Task α} {out : Option α} (ends : Ends around m w out w') :
    Among others around m w out w' := by
  induction m generalizing w with
  | ret a => exact ends
  | call op k ih =>
    cases op with
    | panic => exact ends
    | _ =>
      obtain ⟨r, t, calls, rest⟩ := ends
      exact ⟨w.state, r, t, idle _, calls, ih r rest⟩

/-- A task adds to the log. -/
theorem Among.log {m : Task α} {out : Option α} (among : Among others around m w out w') :
    ∃ more, w'.log = more ++ w.log := by
  induction m generalizing w with
  | ret a =>
    obtain ⟨-, rfl⟩ := among
    exact ⟨[], rfl⟩
  | call op k ih =>
    cases op with
    | panic =>
      obtain ⟨-, rfl⟩ := among
      exact ⟨[], rfl⟩
    | _ =>
      obtain ⟨state, r, t, -, calls, rest⟩ := among
      obtain ⟨more, isLog⟩ := ih r rest
      exact ⟨more ++ [⟨0, state, _, r⟩], by rw [isLog, calls.log, List.append_assoc]; rfl⟩

/-- The entries of a call, and of the rest. -/
theorem Among.entries {state : State} {op : Op} {r : Ans op} {m : Task α} {out : Option α}
    (calls : Alone around ⟨state, w.log⟩ op r w') (rest : Among others around m w' out w'') :
    w.entriesSince w'' = ⟨0, state, op, r⟩ :: w'.entriesSince w'' := by
  obtain ⟨more, isLog⟩ := rest.log
  have whole : w''.log = (more ++ [⟨0, state, op, r⟩]) ++ w.log := by
    rw [isLog, calls.log, List.append_assoc]
    rfl
  rw [World.entriesSince_eq whole, World.entriesSince_eq isLog, List.reverse_append]
  rfl

end Chronon
