import Mathlib.Data.List.Basic
import Chronon.Axum.Handlers
import Chronon.Redis.Queue

/-!
# The keys of the ready sets

A key holds an arbitrary prefix, a pool and a literal word, separated by colons
that the prefix may contain too. No pool that `normalize_pool` accepts holds a
colon or a brace, so a key can be read from its right end: the part after the
last colon, then the closing brace, then the opening one.
-/

namespace Chronon.Redis
set_option autoImplicit false

section LastSeparator

variable {α : Type*}

/-- Two lists are cut at their last occurrence of an element into the same parts. -/
theorem append_cons_inj_of_last {front front' back back' : List α} {sep : α} (last : sep ∉ back) (last' : sep ∉ back')
    (same : front ++ sep :: back = front' ++ sep :: back') : front = front' ∧ back = back' := by
  obtain ⟨between, frontEq, tailEq⟩ | ⟨between, frontEq, tailEq⟩ := List.append_eq_append_iff.mp same
  · cases between with
    | nil => exact ⟨by simpa using frontEq.symm, by simpa using tailEq⟩
    | cons c cs =>
      have tail : back = cs ++ sep :: back' := (List.cons.inj tailEq).2
      exact absurd (by simp [tail]) last
  · cases between with
    | nil => exact ⟨by simpa using frontEq, by simpa using tailEq.symm⟩
    | cons c cs =>
      have tail : back' = cs ++ sep :: back := (List.cons.inj tailEq).2
      exact absurd (by simp [tail]) last'

end LastSeparator

/-- The alphabet of the pools that `normalize_pool` accepts. -/
def poolChar (c : Char) : Bool := c.isAlphanum || c == '.' || c == '_' || c == '/' || c == '-'

theorem poolChar_of_normalizePool {raw pool : String} (accepted : Axum.normalizePool raw = .ok (some pool)) :
    ∀ c ∈ pool.toList, poolChar c = true := by
  unfold Axum.normalizePool at accepted
  dsimp only at accepted
  split at accepted
  · simp at accepted
  · split at accepted
    · rename_i safe
      obtain rfl : trim raw = pool := by simpa using accepted
      exact List.all_eq_true.mp safe.2
    · simp at accepted

theorem notMem_pool {raw pool : String} (accepted : Axum.normalizePool raw = .ok (some pool)) {c : Char}
    (outside : poolChar c = false) : c ∉ pool.toList := by
  intro inside
  have := poolChar_of_normalizePool accepted c inside
  simp [outside] at this

section Layouts

variable (keyPrefix pool : String)

theorem toList_formatReadyKey_hashed :
    (formatReadyKey keyPrefix pool true).toList =
      (keyPrefix.toList ++ [':'] ++ '{' :: (pool.toList ++ ['}'])) ++ ':' :: "ready".toList := by
  simp [formatReadyKey]

theorem toList_formatReadyKey_plain :
    (formatReadyKey keyPrefix pool false).toList = (keyPrefix.toList ++ ":ready".toList) ++ ':' :: pool.toList := by
  simp [formatReadyKey]

end Layouts

variable {rawX rawY x y : String}

/-- With hash tags the pool stands between the last two braces. -/
theorem formatReadyKey_hashed_inj (acceptedX : Axum.normalizePool rawX = .ok (some x))
    (acceptedY : Axum.normalizePool rawY = .ok (some y)) {p q : String}
    (same : formatReadyKey p x true = formatReadyKey q y true) : p = q ∧ x = y := by
  have keys := congrArg String.toList same
  rw [toList_formatReadyKey_hashed, toList_formatReadyKey_hashed] at keys
  have tagged := List.append_cancel_right keys
  have last : '{' ∉ x.toList ++ ['}'] := List.not_mem_append (notMem_pool acceptedX (by decide)) (by decide)
  have last' : '{' ∉ y.toList ++ ['}'] := List.not_mem_append (notMem_pool acceptedY (by decide)) (by decide)
  obtain ⟨prefixes, pools⟩ := append_cons_inj_of_last last last' tagged
  exact ⟨String.toList_inj.mp (List.append_cancel_right prefixes), String.toList_inj.mp (List.append_cancel_right pools)⟩

/-- Without them it stands after the last colon. -/
theorem formatReadyKey_plain_inj (acceptedX : Axum.normalizePool rawX = .ok (some x))
    (acceptedY : Axum.normalizePool rawY = .ok (some y)) {p q : String}
    (same : formatReadyKey p x false = formatReadyKey q y false) : p = q ∧ x = y := by
  have keys := congrArg String.toList same
  rw [toList_formatReadyKey_plain, toList_formatReadyKey_plain] at keys
  obtain ⟨prefixes, pools⟩ := append_cons_inj_of_last (notMem_pool acceptedX (by decide)) (notMem_pool acceptedY (by decide)) keys
  exact ⟨String.toList_inj.mp (List.append_cancel_right prefixes), String.toList_inj.mp pools⟩

/-- Before its last colon a key with hash tags ends in a brace, a key without them in the word `ready`. -/
theorem formatReadyKey_layouts_ne (acceptedY : Axum.normalizePool rawY = .ok (some y)) (p q : String) :
    formatReadyKey p x true ≠ formatReadyKey q y false := by
  intro same
  have keys := congrArg String.toList same
  rw [toList_formatReadyKey_hashed, toList_formatReadyKey_plain] at keys
  obtain ⟨tagged, -⟩ := append_cons_inj_of_last (by decide) (notMem_pool acceptedY (by decide)) keys
  have lastChars := congrArg List.getLast? tagged
  rw [List.getLast?_append, List.getLast?_append] at lastChars
  revert lastChars
  simp [List.getLast?_cons]

/-- A key of an accepted pool determines the prefix, the pool and the layout: no two ready sets share a key. -/
theorem formatReadyKey_eq_iff (acceptedX : Axum.normalizePool rawX = .ok (some x))
    (acceptedY : Axum.normalizePool rawY = .ok (some y)) (p q : String) (h k : Bool) :
    formatReadyKey p x h = formatReadyKey q y k ↔ p = q ∧ x = y ∧ h = k := by
  constructor
  · intro same
    cases h with
    | true =>
      cases k with
      | true =>
        obtain ⟨prefixes, pools⟩ := formatReadyKey_hashed_inj acceptedX acceptedY same
        exact ⟨prefixes, pools, rfl⟩
      | false => exact absurd same (formatReadyKey_layouts_ne acceptedY p q)
    | false =>
      cases k with
      | true => exact absurd same.symm (formatReadyKey_layouts_ne acceptedX q p)
      | false =>
        obtain ⟨prefixes, pools⟩ := formatReadyKey_plain_inj acceptedX acceptedY same
        exact ⟨prefixes, pools, rfl⟩
  · intro ⟨prefixes, pools, layouts⟩
    rw [prefixes, pools, layouts]

/-- The pool `ready` under two prefixes that look like keys themselves. -/
theorem formatReadyKey_ready_ready :
    formatReadyKey "a" "ready" true ≠ formatReadyKey "a:\x7bready\x7d" "ready" false := by
  have accepted : Axum.normalizePool " ready " = .ok (some "ready") := by decide +kernel
  intro same
  have parts := (formatReadyKey_eq_iff accepted accepted _ _ _ _).mp same
  exact absurd parts.1 (by decide)

end Chronon.Redis
