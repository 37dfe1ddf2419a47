import Mathlib.Data.List.Infix
import Chronon.Core.Redact
import Chronon.Text.Slices

/-!
# Where sanitizing cuts a text

Every step of `sanitize_error_message` replaces eight bytes behind the first
occurrence of its needle by a marker. On the text as it was before the first step, a
step is a cut: the end of the needle's first occurrence that no window of eight bytes
behind an earlier cut touches. Between steps the text is patched: stretches of the
input are kept, and between each two of them stands a cluster of markers.
-/

namespace Chronon.Sanitizing
set_option autoImplicit false

open Text Text.Characters

/-- The text that is put in. -/
def marker : Text := "[redacted]".toList

theorem marker_eq : marker = ['[', 'r', 'e', 'd', 'a', 'c', 't', 'e', 'd', ']'] := by decide

/-- The bytes that a step takes out. -/
def windowLen : Nat := 8

/-! ## Cuts of the text -/

/-- A position is in the window behind a cut. -/
def InWindow (cuts : List Nat) (i : Nat) : Prop := ∃ e ∈ cuts, e ≤ i ∧ i < e + windowLen

instance (cuts : List Nat) (i : Nat) : Decidable (InWindow cuts i) :=
  inferInstanceAs (Decidable (∃ e ∈ cuts, e ≤ i ∧ i < e + windowLen))

/-- `n` bytes from a position on are in no window. -/
def untouched (cuts : List Nat) (pos n : Nat) : Bool := cuts.all fun e => pos + n ≤ e || e + windowLen ≤ pos

/-- The end of the first occurrence of a needle that is in no window, in the text from a position on. -/
def nextCut (needle : Text) (cuts : List Nat) : Nat → Text → Option Nat
  | _, [] => none
  | pos, c :: cs =>
    if needle.isPrefixOf (c :: cs) && untouched cuts pos (len needle) then some (pos + len needle)
    else nextCut needle cuts (pos + c.utf8Size) cs

/-- The cuts of all needles, the latest first. -/
def cutsOf (t : Text) : List Nat → List Text → List Nat
  | cuts, [] => cuts
  | cuts, needle :: needles => cutsOf t ((nextCut needle cuts 0 t).toList ++ cuts) needles

/-- The eight bytes behind a cut end between two characters, at the end of the text, or behind an earlier cut. -/
def CutValid (t : Text) (cuts : List Nat) (pos e : Nat) : Prop :=
  pos + len t ≤ e + windowLen ∨ Boundary t (e + windowLen - pos) ∨ ∃ e' ∈ cuts, e ≤ e' ∧ e' < e + windowLen

instance (t : Text) (cuts : List Nat) (pos e : Nat) : Decidable (CutValid t cuts pos e) := inferInstanceAs (Decidable (_ ∨ _))

/-- The cuts of all needles are valid, each with those before it. -/
def CutsValid (t : Text) : List Nat → List Text → Prop
  | _, [] => True
  | cuts, needle :: needles =>
    (∀ e ∈ nextCut needle cuts 0 t, CutValid t cuts 0 e) ∧ CutsValid t ((nextCut needle cuts 0 t).toList ++ cuts) needles

theorem untouched_iff {cuts : List Nat} {pos n : Nat} (positive : 0 < n) :
    untouched cuts pos n = true ↔ ∀ i, pos ≤ i → i < pos + n → ¬InWindow cuts i := by
  simp only [untouched, List.all_eq_true, Bool.or_eq_true, decide_eq_true_eq]
  constructor
  · intro apart i least most ⟨e, mem, from', to'⟩
    have := apart e mem
    omega
  · intro outside e mem
    by_contra touching
    refine outside (max pos e) (by omega) ?_ ⟨e, mem, by omega, ?_⟩
    · have : windowLen = 8 := rfl
      omega
    · have : windowLen = 8 := rfl
      omega

section Search

variable {needle : Text} {cuts : List Nat} {pos : Nat} {s t : Text}

/-- A cut is at the first untouched occurrence. -/
theorem nextCut_eq_some {a r : Text} (nonempty : needle ≠ []) (split : t = a ++ (needle ++ r))
    (free : untouched cuts (pos + len a) (len needle) = true)
    (first : ∀ a' r', t = a' ++ (needle ++ r') → untouched cuts (pos + len a') (len needle) = true → len a ≤ len a') :
    nextCut needle cuts pos t = some (pos + len a + len needle) := by
  induction a generalizing t pos with
  | nil =>
    cases t with
    | nil => simp [nonempty] at split
    | cons c cs =>
      have isPrefix : needle.isPrefixOf (c :: cs) = true := by
        rw [List.isPrefixOf_iff_prefix]
        exact ⟨r, split.symm⟩
      rw [len_nil, Nat.add_zero] at free
      rw [nextCut, isPrefix, free, len_nil]
      rfl
  | cons d a ih =>
    cases t with
    | nil => simp at split
    | cons c cs =>
      obtain ⟨rfl, rest⟩ := List.cons.inj split
      have later : ¬(needle.isPrefixOf (c :: cs) && untouched cuts pos (len needle)) = true := by
        intro both
        obtain ⟨isPrefix, free'⟩ := Bool.and_eq_true_iff.mp both
        obtain ⟨r', here⟩ := List.isPrefixOf_iff_prefix.mp isPrefix
        have least := first [] r' here.symm (by simpa using free')
        have := c.utf8Size_pos
        simp only [len_cons, len_nil] at least
        omega
      rw [nextCut, if_neg later, ih rest (by simpa [Nat.add_assoc] using free)]
      · simp [Nat.add_assoc]
      · intro a' r' other free'
        have least := first (c :: a') r' (by rw [other]; rfl) (by simpa [Nat.add_assoc] using free')
        simp only [len_cons] at least
        omega

theorem nextCut_eq_none (none' : ∀ a r, t = a ++ (needle ++ r) → untouched cuts (pos + len a) (len needle) = false) :
    nextCut needle cuts pos t = none := by
  induction t generalizing pos with
  | nil => rfl
  | cons c cs ih =>
    have later : ¬(needle.isPrefixOf (c :: cs) && untouched cuts pos (len needle)) = true := by
      intro both
      obtain ⟨isPrefix, free⟩ := Bool.and_eq_true_iff.mp both
      obtain ⟨r, here⟩ := List.isPrefixOf_iff_prefix.mp isPrefix
      have touched := none' [] r here.symm
      rw [len_nil, Nat.add_zero, free] at touched
      simp at touched
    rw [nextCut, if_neg later]
    refine ih fun a r split => ?_
    have touched := none' (c :: a) r (by rw [split]; rfl)
    simpa [Nat.add_assoc] using touched

/-- If every untouched occurrence is in the second of two texts, so is the cut. -/
theorem nextCut_append
    (behind : ∀ a r, s ++ t = a ++ (needle ++ r) → untouched cuts (pos + len a) (len needle) = true →
      ∃ a', a = s ++ a' ∧ t = a' ++ (needle ++ r)) :
    nextCut needle cuts pos (s ++ t) = nextCut needle cuts (pos + len s) t := by
  induction s generalizing pos with
  | nil => rfl
  | cons c s ih =>
    have later : ¬(needle.isPrefixOf (c :: (s ++ t)) && untouched cuts pos (len needle)) = true := by
      intro both
      obtain ⟨isPrefix, free⟩ := Bool.and_eq_true_iff.mp both
      obtain ⟨r, here⟩ := List.isPrefixOf_iff_prefix.mp isPrefix
      obtain ⟨a', impossible, -⟩ := behind [] r here.symm (by simpa using free)
      simp at impossible
    rw [List.cons_append, nextCut, if_neg later, ih, len_cons, Nat.add_assoc]
    intro a r split free
    obtain ⟨a', front, rest⟩ := behind (c :: a) r (by rw [List.cons_append, split]; rfl) (by simpa [Nat.add_assoc] using free)
    exact ⟨a', (List.cons.inj front).2, rest⟩

end Search

/-! ## The patched text -/

/-- A piece that was taken out, what was put in for it, and the text kept behind it. -/
structure Joint where
  old : Text
  new : Text
  kept : Text

/-- The text before the first step. -/
def source : Text → List Joint → Text
  | k, [] => k
  | k, j :: js => k ++ (j.old ++ source j.kept js)

/-- The text as it was rewritten. -/
def target : Text → List Joint → Text
  | k, [] => k
  | k, j :: js => k ++ (j.new ++ target j.kept js)

/-- What the steps put in for a piece: markers, the last ones perhaps without their beginnings. -/
structure Cluster (m : Text) : Prop where
  opens : marker <+: m
  chars : ∀ c ∈ m, c ∈ marker
  last : m.getLast? = some ']'

/-- A needle cannot overlap a cluster. -/
structure Needle (needle : Text) : Prop where
  opening : '[' ∉ needle
  closing : ']' ∉ needle
  other : ∃ c ∈ needle, c ∉ marker

instance (needle : Text) : Decidable (Needle needle) :=
  decidable_of_iff ('[' ∉ needle ∧ ']' ∉ needle ∧ ∃ c ∈ needle, c ∉ marker)
    ⟨fun ⟨opening, closing, other⟩ => ⟨opening, closing, other⟩, fun ok => ⟨ok.opening, ok.closing, ok.other⟩⟩

theorem len_markers {s : Text} (chars : ∀ c ∈ s, c ∈ marker) : len s = s.length := by
  have narrow : ∀ c ∈ marker, c.utf8Size = 1 := by decide
  exact len_eq_length fun c mem => narrow c (chars c mem)

theorem cluster_marker : Cluster marker := ⟨List.prefix_refl marker, fun _ mem => mem, by decide⟩

section Cluster

variable {m : Text} {n : Nat}

theorem Cluster.length_ge (cluster : Cluster m) : 10 ≤ m.length := cluster.opens.length_le

/-- The first eight bytes of a cluster are taken out, and a marker is put in. -/
theorem Cluster.cut (cluster : Cluster m) (most : n ≤ windowLen) : Cluster (marker ++ m.drop n) where
  opens := List.prefix_append marker _
  chars c mem := (List.mem_append.mp mem).elim id fun later => cluster.chars c (List.mem_of_mem_drop later)
  last := by
    have rest : n < m.length := by
      have := cluster.length_ge
      simp only [windowLen] at most
      omega
    rw [List.getLast?_append_of_ne_nil _ (by simpa using rest), List.getLast?_drop, if_neg (by omega), cluster.last]

theorem Cluster.len_take (cluster : Cluster m) (most : n ≤ windowLen) : len (m.take n) = n := by
  have := cluster.length_ge
  simp only [windowLen] at most
  rw [len_markers fun c mem => cluster.chars c (List.mem_of_mem_take mem), List.length_take]
  omega

theorem Cluster.len_cut (cluster : Cluster m) (most : n ≤ windowLen) : len (marker ++ m.drop n) + n = len m + 10 := by
  have taken := cluster.len_take most
  have whole : len m = len (m.take n) + len (m.drop n) := by rw [← len_append, List.take_append_drop]
  rw [len_append, show len marker = 10 by decide]
  omega

end Cluster

theorem Needle.ne_nil {needle : Text} (ok : Needle needle) : needle ≠ [] := by
  obtain ⟨c, mem, -⟩ := ok.other
  exact List.ne_nil_of_mem mem

/-- No position of `n` bytes from `pos` on is in a window. -/
def Outside (cuts : List Nat) (pos n : Nat) : Prop := ∀ i, pos ≤ i → i < pos + n → ¬InWindow cuts i

/-- The number of cuts from one position up to another. -/
def cutsIn (cuts : List Nat) (a b : Nat) : Nat := cuts.countP fun e => a ≤ e && e < b

/-- What was taken out is behind a cut and in windows, and what was put in for it is a cluster. -/
structure Covered (cuts : List Nat) (start : Nat) (old new : Text) : Prop where
  isCut : start ∈ cuts
  windows : ∀ i, start ≤ i → i < start + len old → InWindow cuts i
  cluster : Cluster new

/-- Each cut has put in two bytes more than it took out. -/
structure Sized (cuts : List Nat) (start : Nat) (old new : Text) : Prop where
  nonempty : old ≠ []
  grown : len new = len old + 2 * cutsIn cuts start (start + len old)

/-- The windows cover just what was taken out. At the end of the text a cut may take out less than eight bytes. -/
def Covers (cuts : List Nat) : Nat → Text → List Joint → Prop
  | pos, k, [] => Outside cuts pos (len k)
  | pos, k, j :: js =>
    Outside cuts pos (len k) ∧ Covered cuts (pos + len k) j.old j.new ∧
      (j.kept = [] ∧ js = [] ∨ Sized cuts (pos + len k) j.old j.new) ∧ Covers cuts (pos + len k + len j.old) j.kept js

section Occurrences

variable {needle k : Text} {j : Joint} {js : List Joint} {cuts : List Nat} {pos : Nat}

/-- An occurrence in a patched text is in a kept stretch: here it is in the first one or behind the first cluster. -/
theorem occurrence_target (ok : Needle needle) {m rest a r : Text} (cluster : Cluster m)
    (split : k ++ (m ++ rest) = a ++ (needle ++ r)) :
    (∃ r', k = a ++ (needle ++ r')) ∨ ∃ a', a = k ++ (m ++ a') ∧ rest = a' ++ (needle ++ r) := by
  rcases List.append_eq_append_iff.mp split with ⟨x, front, back⟩ | ⟨x, front, back⟩
  · rcases List.append_eq_append_iff.mp back with ⟨y, rfl, behind⟩ | ⟨z, within, back'⟩
    · exact .inr ⟨y, front, behind⟩
    · rcases List.append_eq_append_iff.mp back' with ⟨w, inside, -⟩ | ⟨w, inside, -⟩
      · obtain ⟨c, mem, outside⟩ := ok.other
        exact absurd (cluster.chars c (by rw [within, inside]; simp [mem])) outside
      · -- The needle starts in the cluster and goes beyond it, over its last character.
        cases z using List.reverseRecOn with
        | nil => exact .inr ⟨[], by rw [front, within]; simp, by simpa using back'.symm⟩
        | append_singleton z c =>
          have last := cluster.last
          rw [within, ← List.append_assoc, List.getLast?_concat] at last
          obtain rfl := Option.some.inj last
          exact absurd (by rw [inside]; simp) ok.closing
  · rcases List.append_eq_append_iff.mp back with ⟨w, inside, -⟩ | ⟨w, inside, back'⟩
    · exact .inl ⟨w, by rw [front, inside]⟩
    · -- The needle starts in the stretch and goes into the cluster, over its first character.
      cases w with
      | nil => exact .inl ⟨[], by rw [front, inside]; simp⟩
      | cons c w =>
        obtain ⟨tail, start⟩ := cluster.opens
        rw [← start, marker_eq] at back'
        obtain ⟨rfl, -⟩ := List.cons.inj back'
        exact absurd (by rw [inside]; simp) ok.opening

/-- So is one that no window touches, in the text before the first step. -/
theorem occurrence_source (nonempty : needle ≠ []) (covers : Covers cuts pos k (j :: js)) {a r : Text}
    (split : source k (j :: js) = a ++ (needle ++ r)) (free : untouched cuts (pos + len a) (len needle) = true) :
    (∃ r', k = a ++ (needle ++ r')) ∨ ∃ a', a = k ++ j.old ++ a' ∧ source j.kept js = a' ++ (needle ++ r) := by
  obtain ⟨-, covered, -, -⟩ := covers
  have outside := (untouched_iff (len_pos nonempty)).mp free
  have apart : pos + len a + len needle ≤ pos + len k ∨ pos + len k + windowLen ≤ pos + len a := by
    simpa using List.all_eq_true.mp free _ covered.isCut
  rcases apart with before | behind
  · left
    have front : a ++ needle ++ r = k ++ (j.old ++ source j.kept js) := by
      rw [List.append_assoc, ← split, source]
    obtain ⟨between, rfl, -⟩ := append_split_len front (by rw [len_append]; omega)
    exact ⟨between, by simp⟩
  · right
    have beyond : len (k ++ j.old) ≤ len a := by
      by_contra inside
      rw [len_append] at inside
      have := len_pos nonempty
      exact outside (pos + len a) (by omega) (by omega) (covered.windows _ (by omega) (by omega))
    rw [source, ← List.append_assoc] at split
    exact append_split_len split beyond

end Occurrences

/-! ## One cut more -/

section OneMore

variable {cuts : List Nat} {e pos n start : Nat} {needle k t old new : Text} {j : Joint} {js : List Joint}

theorem inWindow_cons {i : Nat} : InWindow (e :: cuts) i ↔ e ≤ i ∧ i < e + windowLen ∨ InWindow cuts i := by
  simp [InWindow]

theorem Outside.cons (outside : Outside cuts pos n)
    (apart : ∀ i, pos ≤ i → i < pos + n → ¬InWindow cuts i → i < e ∨ e + windowLen ≤ i) : Outside (e :: cuts) pos n := by
  intro i least most inside
  rcases inWindow_cons.mp inside with ⟨from', to'⟩ | earlier
  · have := apart i least most (outside i least most)
    omega
  · exact outside i least most earlier

theorem Covered.cons (covered : Covered cuts start old new) : Covered (e :: cuts) start old new where
  isCut := List.mem_cons_of_mem e covered.isCut
  windows i least most := inWindow_cons.mpr (.inr (covered.windows i least most))
  cluster := covered.cluster

theorem Sized.cons (sized : Sized cuts start old new) (apart : e < start ∨ start + len old ≤ e) :
    Sized (e :: cuts) start old new where
  nonempty := sized.nonempty
  grown := by
    rw [sized.grown, cutsIn, cutsIn, List.countP_cons_of_neg]
    simp only [Bool.and_eq_true, decide_eq_true_eq]
    omega

/-- A cut in front of a patched text whose window ends before what is kept does not change what the windows cover. -/
theorem Covers.cons (covers : Covers cuts pos k js) (before : e < pos)
    (apart : ∀ i, pos ≤ i → ¬InWindow cuts i → e + windowLen ≤ i) : Covers (e :: cuts) pos k js := by
  induction js generalizing pos k with
  | nil => exact Outside.cons covers fun i least _ free => .inr (apart i least free)
  | cons j js ih =>
    obtain ⟨outside, covered, sized, rest⟩ := covers
    refine ⟨outside.cons fun i least _ free => .inr (apart i least free), covered.cons, ?_, ?_⟩
    · exact sized.imp id fun grown => grown.cons (.inl (by omega))
    · exact ih rest (by omega) fun i least free => apart i (by omega) free

theorem Covers.outside (covers : Covers cuts pos k js) : Outside cuts pos (len k) := by
  cases js with
  | nil => exact covers
  | cons j js => exact covers.1

theorem Covers.drop {s : Text} (covers : Covers cuts pos (s ++ k) js) : Covers cuts (pos + len s) k js := by
  have outside : Outside cuts (pos + len s) (len k) := fun i least most =>
    covers.outside i (by omega) (by rw [len_append]; omega)
  cases js with
  | nil => exact outside
  | cons j js =>
    rw [Covers, len_append, ← Nat.add_assoc] at covers
    exact ⟨outside, covers.2⟩

theorem Covers.prepend {s : Text} (outside : Outside cuts pos (len s)) (covers : Covers cuts (pos + len s) k js) :
    Covers cuts pos (s ++ k) js := by
  have outside' : Outside cuts pos (len (s ++ k)) := by
    intro i least most
    rw [len_append] at most
    rcases Nat.lt_or_ge i (pos + len s) with front | back
    · exact outside i least front
    · exact covers.outside i back (by omega)
  cases js with
  | nil => exact outside'
  | cons j js =>
    have stop : pos + len (s ++ k) = pos + len s + len k := by rw [len_append, Nat.add_assoc]
    rw [Covers, stop]
    exact ⟨outside', covers.2⟩

theorem cutsIn_cons {a b : Nat} (from' : a ≤ e) (to' : e < b) : cutsIn (e :: cuts) a b = cutsIn cuts a b + 1 :=
  List.countP_cons_of_pos (by simp [from', to'])

theorem cutsIn_self (a : Nat) : cutsIn cuts a a = 0 := by
  rw [cutsIn, List.countP_eq_zero]
  simp

theorem cutsIn_add {a b c : Nat} (least : a ≤ b) (most : b ≤ c) : cutsIn cuts a c = cutsIn cuts a b + cutsIn cuts b c := by
  induction cuts with
  | nil => rfl
  | cons e cuts ih =>
    simp only [cutsIn, List.countP_cons, Bool.and_eq_true, decide_eq_true_eq] at ih ⊢
    rw [ih]
    split <;> split <;> split <;> omega

/-- There is no cut outside of the windows. -/
theorem cutsIn_outside {a b : Nat} (outside : Outside cuts a n) : cutsIn cuts a b = cutsIn cuts (a + n) b := by
  apply List.countP_congr
  intro e mem
  have apart : ¬(a ≤ e ∧ e < a + n) := fun ⟨least, most⟩ =>
    outside e least most ⟨e, mem, le_refl e, Nat.lt_add_of_pos_right (by decide)⟩
  simp only [Bool.and_eq_true, decide_eq_true_eq]
  omega

theorem nextCut_ge (found : nextCut needle cuts pos t = some e) : pos + len needle ≤ e := by
  induction t generalizing pos with
  | nil => simp [nextCut] at found
  | cons c cs ih =>
    unfold nextCut at found
    split at found
    · exact (Option.some.inj found).le
    · have := ih found
      omega

theorem cutValid_append {s : Text} (behind : pos + len s ≤ e) :
    CutValid (s ++ t) cuts pos e ↔ CutValid t cuts (pos + len s) e := by
  unfold CutValid
  rw [len_append, show e + windowLen - pos = len s + (e + windowLen - (pos + len s)) by omega, boundary_append_right,
    Nat.add_assoc]

end OneMore

/-! ## What a cut takes out -/

section Cutting

variable {cuts : List Nat} {e : Nat} {b q r : Text} {j : Joint} {js : List Joint}

/-- Less than eight bytes, up to the end of the text. -/
theorem covers_cut_end (short : len b < windowLen) : Covers (e :: cuts) e [] [⟨b, marker, []⟩] := by
  refine ⟨fun i _ most => ?_, ⟨List.mem_cons_self, fun i least most => ?_, cluster_marker⟩, .inl ⟨rfl, rfl⟩,
    fun i least most => ?_⟩
  · exact absurd most (by simpa using by omega)
  · simp only [len_nil] at least most
    exact inWindow_cons.mpr (.inl (by omega))
  · simp only [len_nil] at least most
    omega

/-- Eight bytes of a stretch. -/
theorem covers_cut_whole (covers : Covers cuts e (q ++ r) js) (whole : len q = windowLen) :
    Covers (e :: cuts) e [] (⟨q, marker, r⟩ :: js) := by
  have width : windowLen = 8 := rfl
  have outside : Outside cuts e windowLen := fun i least most => covers.outside i least (by rw [len_append]; omega)
  have alone : cutsIn (e :: cuts) e (e + windowLen) = 1 := by
    rw [cutsIn_cons (le_refl e) (by omega), cutsIn_outside outside, cutsIn_self]
  refine ⟨fun i _ most => ?_, ⟨List.mem_cons_self, fun i least most => ?_, cluster_marker⟩, .inr ⟨?_, ?_⟩, ?_⟩
  · exact absurd most (by simpa using by omega)
  · simp only [len_nil] at least most
    exact inWindow_cons.mpr (.inl (by omega))
  · rintro rfl
    simp [windowLen] at whole
  · show len marker = len q + 2 * cutsIn (e :: cuts) (e + 0) (e + 0 + len q)
    rw [whole, Nat.add_zero, alone]
    decide
  · exact covers.drop.cons (by simp; omega) fun i least _ => by simpa [whole] using least

/-- Less than eight bytes of a stretch, and the first bytes of the cluster behind it. -/
theorem covers_cut_joint (covers : Covers cuts e b (j :: js)) (short : len b < windowLen) :
    Covers (e :: cuts) e [] (⟨b ++ j.old, marker ++ j.new.drop (windowLen - len b), j.kept⟩ :: js) := by
  obtain ⟨outside, covered, sized, rest⟩ := covers
  have width : windowLen = 8 := rfl
  have lens := covered.cluster.len_cut (Nat.sub_le windowLen (len b))
  refine ⟨fun i _ most => ?_, ⟨List.mem_cons_self, fun i least most => ?_, covered.cluster.cut (Nat.sub_le ..)⟩, ?_, ?_⟩
  · exact absurd most (by simpa using by omega)
  · simp only [len_nil, len_append, Nat.add_zero] at least most
    rcases Nat.lt_or_ge i (e + len b) with front | back
    · exact inWindow_cons.mpr (.inl (by omega))
    · exact inWindow_cons.mpr (.inr (covered.windows i back (by omega)))
  · refine sized.imp id fun grown => ⟨?_, ?_⟩
    · simpa using fun _ => grown.nonempty
    · have joined : cutsIn (e :: cuts) e (e + (len b + len j.old)) =
          cutsIn cuts (e + len b) (e + len b + len j.old) + 1 := by
        have := len_pos grown.nonempty
        rw [cutsIn_cons (le_refl e) (by omega), cutsIn_outside outside, Nat.add_assoc]
      have size := grown.grown
      show len (marker ++ j.new.drop (windowLen - len b)) = len (b ++ j.old) +
        2 * cutsIn (e :: cuts) (e + 0) (e + 0 + len (b ++ j.old))
      rw [Nat.add_zero, len_append b, joined]
      omega
  · have stop : e + len ([] : Text) + len (b ++ j.old) = e + len b + len j.old := by
      rw [len_nil, len_append]
      omega
    rw [stop]
    rcases sized with ⟨isEmpty, rfl⟩ | grown
    · rw [isEmpty] at rest ⊢
      exact fun i _ most => absurd most (by simpa using by omega)
    · have := len_pos grown.nonempty
      refine rest.cons (by omega) fun i least free => ?_
      -- What is kept behind the cluster is behind the window of the cut that starts it.
      by_contra inside
      exact free ⟨_, covered.isCut, by omega, by omega⟩

end Cutting

end Chronon.Sanitizing
