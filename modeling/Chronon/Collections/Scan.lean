import Mathlib.Data.List.Basic

/-!
# Searching from the front with a limit

A queue is looked at from its front, a limited number of times. The element
there is taken if it will do, and is dropped otherwise, unless it waits: then it
is there again the next time, and nothing behind it is reached.
-/

namespace Chronon.Collections
set_option autoImplicit false

variable {α : Type} (ok waits : α → Bool)

/-- Look at the first element `n` times: take it if it will do, let it stay if it waits and drop it otherwise. -/
def scan : Nat → List α → Option α
  | 0, _ => none
  | _ + 1, [] => none
  | n + 1, e :: rest => if ok e then some e else scan n (if waits e then e :: rest else rest)

/-- The elements before the first that will do. -/
def aheadOf (l : List α) : List α := l.takeWhile fun e => !ok e

variable {ok waits}

theorem scan_isSome (n : Nat) (l : List α) :
    (scan ok waits n l).isSome = true ↔
      (∃ e ∈ l, ok e = true) ∧ (aheadOf ok l).length < n ∧ ∀ e ∈ aheadOf ok l, waits e = false := by
  induction n generalizing l with
  | zero => simp [scan]
  | succ n ih =>
    cases l with
    | nil => simp [scan]
    | cons e rest =>
      cases good : ok e with
      | true => simp [scan, aheadOf, good]
      | false =>
        have ahead : aheadOf ok (e :: rest) = e :: aheadOf ok rest := by simp [aheadOf, good]
        rw [scan, if_neg (by rw [good]; exact Bool.false_ne_true), ih, ahead]
        cases stays : waits e with
        | true => simp [ahead, stays]
        | false => simp [good, stays]

/-- What is found is the first that will do. -/
theorem scan_eq_some {n : Nat} {l : List α} {e : α} (found : scan ok waits n l = some e) :
    ∃ pre post, l = pre ++ e :: post ∧ ok e = true ∧ ∀ x ∈ pre, ok x = false := by
  induction n generalizing l with
  | zero => cases found
  | succ n ih =>
    cases l with
    | nil => cases found
    | cons x rest =>
      rw [scan] at found
      split at found
      · rename_i good
        cases found
        exact ⟨[], rest, rfl, good, fun _ inside => (by cases inside)⟩
      · rename_i bad
        obtain ⟨pre, post, split_, good, first⟩ := ih found
        split at split_
        · exact ⟨pre, post, split_, good, first⟩
        · refine ⟨x :: pre, post, by rw [split_]; rfl, good, fun y inside => ?_⟩
          rcases List.mem_cons.mp inside with rfl | inside
          · exact Bool.not_eq_true _ ▸ bad
          · exact first y inside

end Chronon.Collections
