import Mathlib.Data.List.Infix
import Chronon.Core.Value

/-!
# Slicing text by bytes

A byte index is valid where it cuts the text between two characters. Every slice
is stated by such a cut: `s = p ++ r` with `len p` the index. Searches return the
index of a cut too, so an index found by a search is valid; one computed from it
by adding bytes need not be.
-/

namespace Chronon.Text
set_option autoImplicit false

/-! Questions about the characters of a text are decided by looking at each of them. -/

namespace Characters

scoped instance (priority := 2000) decidableAll (s : Text) (p : Char → Prop) [DecidablePred p] : Decidable (∀ c ∈ s, p c) :=
  List.decidableBAll p s

scoped instance (priority := 2000) decidableAny (s : Text) (p : Char → Prop) [DecidablePred p] : Decidable (∃ c ∈ s, p c) :=
  List.decidableBEx p s

scoped instance (priority := 2000) decidableAllMem (o : Option Char) (p : Char → Prop) [DecidablePred p] :
    Decidable (∀ c ∈ o, p c) :=
  Option.decidableForallMem o

scoped instance (priority := 2000) decidableAnyMem (o : Option Char) (p : Char → Prop) [DecidablePred p] :
    Decidable (∃ c ∈ o, p c) :=
  Option.decidableExistsMem o

end Characters

section Length

@[simp] theorem len_nil : len [] = 0 := rfl

@[simp] theorem len_cons (c : Char) (s : Text) : len (c :: s) = c.utf8Size + len s := rfl

@[simp] theorem len_append (s t : Text) : len (s ++ t) = len s + len t := by
  induction s with
  | nil => simp
  | cons c cs ih =>
    simp only [List.cons_append, len_cons, ih]
    omega

@[simp] theorem len_eq_zero {s : Text} : len s = 0 ↔ s = [] := by
  cases s with
  | nil => simp
  | cons c cs =>
    have := c.utf8Size_pos
    simp only [len_cons, reduceCtorEq, iff_false]
    omega

theorem len_pos {s : Text} (nonempty : s ≠ []) : 0 < len s :=
  Nat.pos_of_ne_zero (mt len_eq_zero.mp nonempty)

/-- Where every character has one byte, bytes are characters. -/
theorem len_eq_length {s : Text} (narrow : ∀ c ∈ s, c.utf8Size = 1) : len s = s.length := by
  induction s with
  | nil => rfl
  | cons c cs ih =>
    rw [len_cons, narrow c List.mem_cons_self, ih fun d mem => narrow d (List.mem_cons_of_mem c mem), List.length_cons,
      Nat.add_comm]

/-- Cuts of one text at one index are one cut. -/
theorem append_inj_len {p p' r r' : Text} (same : p ++ r = p' ++ r') (lens : len p = len p') : p = p' ∧ r = r' := by
  induction p generalizing p' with
  | nil =>
    obtain rfl : p' = [] := len_eq_zero.mp (by simpa using lens.symm)
    exact ⟨rfl, same⟩
  | cons c cs ih =>
    cases p' with
    | nil => exact absurd (len_eq_zero.mp (by simpa using lens)) (List.cons_ne_nil c cs)
    | cons d ds =>
      obtain ⟨rfl, rests⟩ := List.cons.inj same
      obtain ⟨rfl, backs⟩ := ih rests (by simpa using lens)
      exact ⟨rfl, backs⟩

/-- Of two cuts of a text the one at the smaller index is in front of the other. -/
theorem append_split_len {p p' r r' : Text} (same : p ++ r = p' ++ r') (lens : len p ≤ len p') :
    ∃ between, p' = p ++ between ∧ r = between ++ r' := by
  obtain ⟨between, frontEq, backEq⟩ | ⟨between, frontEq, backEq⟩ := List.append_eq_append_iff.mp same
  · exact ⟨between, frontEq, backEq⟩
  · have lensEq := congrArg len frontEq
    rw [len_append] at lensEq
    obtain rfl : between = [] := len_eq_zero.mp (by omega)
    exact ⟨[], by simpa using frontEq.symm, by simpa using backEq.symm⟩

end Length

section Slices

/-- `str::is_char_boundary`. -/
def Boundary (s : Text) (n : Nat) : Prop := ∃ p r, s = p ++ r ∧ len p = n

theorem takeBytes_append (p r : Text) : takeBytes (len p) (p ++ r) = some p := by
  induction p with
  | nil => cases r <;> rfl
  | cons c cs ih =>
    have sized : c.utf8Size + len cs = (c.utf8Size + len cs - 1) + 1 := by
      have := c.utf8Size_pos
      omega
    rw [len_cons, sized, List.cons_append, takeBytes, if_pos (by omega)]
    rw [show c.utf8Size + len cs - 1 + 1 - c.utf8Size = len cs by omega, ih]
    rfl

theorem dropBytes_append (p r : Text) : dropBytes (len p) (p ++ r) = some r := by
  induction p with
  | nil => cases r <;> rfl
  | cons c cs ih =>
    have sized : c.utf8Size + len cs = (c.utf8Size + len cs - 1) + 1 := by
      have := c.utf8Size_pos
      omega
    rw [len_cons, sized, List.cons_append, dropBytes, if_pos (by omega)]
    rw [show c.utf8Size + len cs - 1 + 1 - c.utf8Size = len cs by omega, ih]

theorem takeBytes_append_add (p r : Text) (n : Nat) : takeBytes (len p + n) (p ++ r) = (takeBytes n r).map (p ++ ·) := by
  induction p with
  | nil => simp
  | cons c cs ih =>
    have sized : c.utf8Size + len cs + n = (c.utf8Size + len cs + n - 1) + 1 := by
      have := c.utf8Size_pos
      omega
    rw [len_cons, sized, List.cons_append, takeBytes, if_pos (by omega)]
    rw [show c.utf8Size + len cs + n - 1 + 1 - c.utf8Size = len cs + n by omega, ih, Option.map_map]
    rfl

theorem dropBytes_append_add (p r : Text) (n : Nat) : dropBytes (len p + n) (p ++ r) = dropBytes n r := by
  induction p with
  | nil => simp
  | cons c cs ih =>
    have sized : c.utf8Size + len cs + n = (c.utf8Size + len cs + n - 1) + 1 := by
      have := c.utf8Size_pos
      omega
    rw [len_cons, sized, List.cons_append, dropBytes, if_pos (by omega)]
    rw [show c.utf8Size + len cs + n - 1 + 1 - c.utf8Size = len cs + n by omega, ih]

theorem cut_of_takeBytes {n : Nat} {s p : Text} (taken : takeBytes n s = some p) : ∃ r, s = p ++ r ∧ len p = n := by
  induction s generalizing n p with
  | nil =>
    cases n with
    | zero => exact ⟨[], by simp_all [takeBytes]⟩
    | succ n => simp [takeBytes] at taken
  | cons c cs ih =>
    cases n with
    | zero => exact ⟨c :: cs, by simp_all [takeBytes]⟩
    | succ n =>
      rw [takeBytes] at taken
      split at taken
      · rename_i fits
        obtain ⟨q, found, rfl⟩ := Option.map_eq_some_iff.mp taken
        obtain ⟨r, rfl, lens⟩ := ih found
        exact ⟨r, rfl, by rw [len_cons]; omega⟩
      · simp at taken

theorem cut_of_dropBytes {n : Nat} {s r : Text} (dropped : dropBytes n s = some r) : ∃ p, s = p ++ r ∧ len p = n := by
  induction s generalizing n with
  | nil =>
    cases n with
    | zero => exact ⟨[], by simp_all [dropBytes]⟩
    | succ n => simp [dropBytes] at dropped
  | cons c cs ih =>
    cases n with
    | zero => exact ⟨[], by simp_all [dropBytes]⟩
    | succ n =>
      rw [dropBytes] at dropped
      split at dropped
      · rename_i fits
        obtain ⟨p, rfl, lens⟩ := ih dropped
        exact ⟨c :: p, rfl, by rw [len_cons]; omega⟩
      · simp at dropped

theorem isSome_takeBytes {n : Nat} {s : Text} : (takeBytes n s).isSome = true ↔ Boundary s n := by
  constructor
  · intro returns
    obtain ⟨p, taken⟩ := Option.isSome_iff_exists.mp returns
    obtain ⟨r, cut, lens⟩ := cut_of_takeBytes taken
    exact ⟨p, r, cut, lens⟩
  · intro ⟨p, r, cut, lens⟩
    rw [cut, ← lens, takeBytes_append]
    rfl

instance (s : Text) (n : Nat) : Decidable (Boundary s n) := decidable_of_iff _ isSome_takeBytes

theorem takeBytes_eq_none {n : Nat} {s : Text} : takeBytes n s = none ↔ ¬Boundary s n := by
  rw [← isSome_takeBytes, Bool.not_eq_true, Option.isSome_eq_false_iff, Option.isNone_iff_eq_none]

theorem dropBytes_eq_none {n : Nat} {s : Text} : dropBytes n s = none ↔ ¬Boundary s n := by
  constructor
  · intro panics ⟨p, r, cut, lens⟩
    rw [cut, ← lens, dropBytes_append] at panics
    simp at panics
  · intro inside
    cases dropped : dropBytes n s with
    | none => rfl
    | some r =>
      obtain ⟨p, cut, lens⟩ := cut_of_dropBytes dropped
      exact absurd ⟨p, r, cut, lens⟩ inside

theorem boundary_len (s : Text) : Boundary s (len s) := ⟨s, [], (List.append_nil s).symm, rfl⟩

/-- Text behind an index does not matter to it. -/
theorem boundary_append_left {p r : Text} {n : Nat} (inside : n ≤ len p) : Boundary (p ++ r) n ↔ Boundary p n := by
  constructor
  · intro ⟨q, s, cut, lens⟩
    obtain ⟨between, rfl, -⟩ := append_split_len cut.symm (by omega)
    exact ⟨q, between, rfl, lens⟩
  · intro ⟨q, s, cut, lens⟩
    exact ⟨q, s ++ r, by rw [cut, List.append_assoc], lens⟩

theorem boundary_append_right {p r : Text} {n : Nat} : Boundary (p ++ r) (len p + n) ↔ Boundary r n := by
  rw [← isSome_takeBytes, takeBytes_append_add, Option.isSome_map, isSome_takeBytes]

theorem slice_append (p m r : Text) : slice (p ++ (m ++ r)) (len p) (len p + len m) = some m := by
  rw [slice, if_pos (by omega), dropBytes_append, Option.bind_some, Nat.add_sub_cancel_left, takeBytes_append]

/-- A slice needs its end on a boundary. -/
theorem boundary_of_slice {s m : Text} {a b : Nat} (sliced : slice s a b = some m) : Boundary s b := by
  unfold slice at sliced
  split at sliced
  · rename_i ordered
    obtain ⟨r, dropped, taken⟩ := Option.bind_eq_some_iff.mp sliced
    obtain ⟨p, rfl, lens⟩ := cut_of_dropBytes dropped
    obtain ⟨q, rfl, lens'⟩ := cut_of_takeBytes taken
    exact ⟨p ++ m, q, by simp, by rw [len_append]; omega⟩
  · simp at sliced

end Slices

section Searches

variable {pat s r t : Text}

/-- A search that succeeds cuts the text at the first match. -/
theorem cut_of_findStr {n : Nat} (found : findStr pat t = some n) :
    ∃ s r, t = s ++ (pat ++ r) ∧ len s = n ∧ ∀ s' r', t = s' ++ (pat ++ r') → len s ≤ len s' := by
  induction t generalizing n with
  | nil =>
    unfold findStr at found
    split at found
    · rename_i empty
      obtain rfl : pat = [] := by simpa using empty
      exact ⟨[], [], rfl, by simpa using found, by simp⟩
    · simp at found
  | cons c cs ih =>
    unfold findStr at found
    split at found
    · rename_i isPrefix
      obtain ⟨r, split⟩ := List.isPrefixOf_iff_prefix.mp isPrefix
      exact ⟨[], r, split.symm, by simpa using found, by simp⟩
    · rename_i notPrefix
      obtain ⟨k, foundLater, rfl⟩ := Option.map_eq_some_iff.mp found
      obtain ⟨s, r, rfl, lens, first⟩ := ih foundLater
      refine ⟨c :: s, r, rfl, by rw [len_cons]; omega, fun s' r' other => ?_⟩
      cases s' with
      | nil => exact absurd (List.isPrefixOf_iff_prefix.mpr ⟨r', other.symm⟩) notPrefix
      | cons d s' =>
        obtain ⟨rfl, rest⟩ := List.cons.inj other
        have := first s' r' rest
        rw [len_cons, len_cons]
        omega

theorem isSome_findStr : (findStr pat t).isSome = true ↔ pat <:+: t := by
  constructor
  · intro found
    obtain ⟨n, found⟩ := Option.isSome_iff_exists.mp found
    obtain ⟨s, r, rfl, -⟩ := cut_of_findStr found
    exact ⟨s, r, by simp⟩
  · intro inside
    induction t with
    | nil =>
      obtain rfl := List.infix_nil.mp inside
      rfl
    | cons c cs ih =>
      unfold findStr
      split
      · rfl
      · rename_i notPrefix
        rw [Option.isSome_map]
        refine ih ((List.infix_cons_iff.mp inside).resolve_left fun isPrefix => ?_)
        exact notPrefix (List.isPrefixOf_iff_prefix.mpr isPrefix)

theorem findStr_eq_none : findStr pat t = none ↔ ¬pat <:+: t := by
  rw [← isSome_findStr, Bool.not_eq_true, Option.isSome_eq_false_iff, Option.isNone_iff_eq_none]

/-- The first match is the one that is found. -/
theorem findStr_of_first (cut : t = s ++ (pat ++ r)) (first : ∀ s' r', t = s' ++ (pat ++ r') → len s ≤ len s') :
    findStr pat t = some (len s) := by
  have inside : pat <:+: t := ⟨s, r, by rw [cut, List.append_assoc]⟩
  obtain ⟨n, found⟩ := Option.isSome_iff_exists.mp (isSome_findStr.mpr inside)
  obtain ⟨s', r', cut', lens, first'⟩ := cut_of_findStr found
  have least := first s' r' cut'
  have least' := first' s r cut
  rw [found, ← lens]
  congr 1
  omega

/-- If every match is in the second of two texts, so is the one that is found. -/
theorem findStr_append (behind : ∀ a r', s ++ t = a ++ (pat ++ r') → ∃ a', a = s ++ a' ∧ t = a' ++ (pat ++ r')) :
    findStr pat (s ++ t) = (findStr pat t).map (len s + ·) := by
  cases found : findStr pat t with
  | none =>
    rw [findStr_eq_none] at found
    rw [Option.map_none, findStr_eq_none]
    intro ⟨a, r', inside⟩
    obtain ⟨a', -, rest⟩ := behind a r' (by rw [← inside, List.append_assoc])
    exact found ⟨a', r', by rw [rest, List.append_assoc]⟩
  | some n =>
    obtain ⟨a, r', rfl, rfl, first⟩ := cut_of_findStr found
    rw [Option.map_some, ← len_append]
    apply findStr_of_first (List.append_assoc s a (pat ++ r')).symm
    intro b r'' other
    obtain ⟨b', rfl, rest⟩ := behind b r'' other
    have := first b' r'' rest
    rw [len_append, len_append]
    omega

variable {p : Char → Bool}

theorem cut_of_findChar {n : Nat} (found : findChar p t = some n) :
    ∃ s c r, t = s ++ c :: r ∧ len s = n ∧ p c = true ∧ ∀ d ∈ s, p d = false := by
  induction t generalizing n with
  | nil => simp [findChar] at found
  | cons c cs ih =>
    unfold findChar at found
    split at found
    · rename_i holds
      exact ⟨[], c, cs, rfl, by simpa using found, holds, by simp⟩
    · rename_i fails
      obtain ⟨k, foundLater, rfl⟩ := Option.map_eq_some_iff.mp found
      obtain ⟨s, d, r, rfl, lens, holds, before⟩ := ih foundLater
      refine ⟨c :: s, d, r, rfl, by rw [len_cons]; omega, holds, ?_⟩
      simpa using ⟨by simpa using fails, before⟩

theorem findChar_eq_none : findChar p t = none ↔ ∀ c ∈ t, p c = false := by
  induction t with
  | nil => simp [findChar]
  | cons c cs ih =>
    unfold findChar
    split
    · rename_i holds
      simp [holds]
    · rename_i fails
      rw [Option.map_eq_none_iff, ih]
      simp [fails]

theorem findChar_append {c : Char} (before : ∀ d ∈ s, p d = false) (holds : p c = true) :
    findChar p (s ++ c :: r) = some (len s) := by
  induction s with
  | nil => rw [List.nil_append, findChar, if_pos holds, len_nil]
  | cons d s ih =>
    rw [List.cons_append, findChar, if_neg (by simp [before d List.mem_cons_self]),
      ih fun e mem => before e (List.mem_cons_of_mem d mem), len_cons]
    simp [Nat.add_comm]

theorem rfindChar_eq_none (none' : ∀ c ∈ t, p c = false) : rfindChar p t = none := by
  induction t with
  | nil => rfl
  | cons c cs ih =>
    rw [rfindChar, ih fun d mem => none' d (List.mem_cons_of_mem c mem)]
    simp [none' c List.mem_cons_self]

theorem rfindChar_append {c : Char} (holds : p c = true) (after : ∀ d ∈ r, p d = false) :
    rfindChar p (s ++ c :: r) = some (len s) := by
  induction s with
  | nil =>
    rw [List.nil_append, rfindChar, rfindChar_eq_none after]
    simp [holds]
  | cons d s ih =>
    rw [List.cons_append, rfindChar, ih]
    simp [Nat.add_comm]

end Searches

end Chronon.Text
