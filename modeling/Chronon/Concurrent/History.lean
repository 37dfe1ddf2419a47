import Chronon.Concurrent.Interleave
import Mathlib.Data.Finset.Card

/-!
# Histories

What has happened, newest first: who made each call, the state it found, and
its answer. Statements about runs are statements about the history. A
`track` is what one task's own calls amount to: it is unchanged by everybody
else's.
-/

namespace Chronon.Concurrent
set_option autoImplicit false

/-- One call: the task, the state it found, the call and its answer. -/
structure Entry (State Op : Type) (Ans : Op → Type) where
  pid : Nat
  found : State
  op : Op
  ans : Ans op

variable {State Op σ : Type} {Ans : Op → Type}

/-- Fold task `p`'s own calls, oldest first. -/
def track (update : Entry State Op Ans → σ → σ) (init : σ) (p : Nat) : List (Entry State Op Ans) → σ
  | [] => init
  | e :: log => if e.pid = p then update e (track update init p log) else track update init p log

section Track

variable {update : Entry State Op Ans → σ → σ} {init : σ} {p : Nat}

theorem track_own {e : Entry State Op Ans} {log : List (Entry State Op Ans)} (own : e.pid = p) :
    track update init p (e :: log) = update e (track update init p log) := if_pos own

theorem track_other {e : Entry State Op Ans} {log : List (Entry State Op Ans)} (other : e.pid ≠ p) :
    track update init p (e :: log) = track update init p log := if_neg other

/-- A task that made no call has its initial value. -/
theorem track_absent {log : List (Entry State Op Ans)} (absent : ∀ e ∈ log, e.pid ≠ p) :
    track update init p log = init := by
  induction log with
  | nil => rfl
  | cons e log ih =>
    rw [track_other (absent e List.mem_cons_self)]
    exact ih fun e' inside => absent e' (List.mem_cons_of_mem _ inside)

/-- A property of every task's value is one of the tasks in the history. -/
theorem forall_track {Q : Nat → σ → Prop} {log : List (Entry State Op Ans)} (absent : ∀ p, Q p init) :
    (∀ p, Q p (track update init p log)) ↔ ∀ p ∈ log.map Entry.pid, Q p (track update init p log) := by
  constructor
  · exact fun all p _ => all p
  · intro present p
    by_cases inside : p ∈ log.map Entry.pid
    · exact present p inside
    · rw [track_absent]
      · exact absent p
      · rintro e member rfl
        exact inside (List.mem_map_of_mem member)

/-- The tasks whose value passes a test. -/
def holders (update : Entry State Op Ans → σ → σ) (init : σ) (test : σ → Bool) (log : List (Entry State Op Ans)) :
    Finset Nat :=
  (log.map Entry.pid).toFinset.filter fun p => test (track update init p log) = true

section Holders

variable {test : σ → Bool} {log : List (Entry State Op Ans)} (fails : test init = false)
include fails

theorem mem_holders : p ∈ holders update init test log ↔ test (track update init p log) = true := by
  simp only [holders, Finset.mem_filter, List.mem_toFinset, and_iff_right_iff_imp]
  intro passes
  by_contra absent
  rw [track_absent, fails] at passes
  · cases passes
  · rintro e member rfl
    exact absent (List.mem_map_of_mem member)

end Holders

end Track

end Chronon.Concurrent
