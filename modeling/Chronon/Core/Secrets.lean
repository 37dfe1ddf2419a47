import Chronon.Core.Sanitizing

/-!
# Which secrets `sanitize_error_message` hides

The trace of a run says for every byte of the input whether it is in the output. In an
ASCII text no step panics, a byte in a window is replaced by a marker, and any other byte
is kept, moved by two for each cut in front of it.
-/

namespace Chronon.Sanitizing
set_option autoImplicit false

open Text Text.Characters Traced

/-! ## Where a byte of the input is in a patched text -/

namespace Traced

def OriginsBelow (out : Traced) (i : Nat) : Prop := ∀ p ∈ out, ∀ j ∈ p.2, j < i

def OriginsAbove (out : Traced) (i : Nat) : Prop := ∀ p ∈ out, ∀ j ∈ p.2, i < j

/-- A marker is in the place of a byte. -/
def ReplacedAt (out : Traced) (i : Nat) : Prop :=
  ∃ front back, out = front ++ (putIn marker ++ back) ∧ front.OriginsBelow i ∧ back.OriginsAbove i

variable {a b out : Traced} {i : Nat}

theorem OriginsBelow.append (first : a.OriginsBelow i) (second : b.OriginsBelow i) : OriginsBelow (a ++ b) i :=
  fun p mem => (List.mem_append.mp mem).elim (first p) (second p)

theorem OriginsAbove.append (first : a.OriginsAbove i) (second : b.OriginsAbove i) : OriginsAbove (a ++ b) i :=
  fun p mem => (List.mem_append.mp mem).elim (first p) (second p)

theorem putIn_origin {s : Text} {p : Char × Option Nat} (mem : p ∈ putIn s) : p.2 = none := by
  obtain ⟨c, -, rfl⟩ := List.mem_map.mp mem
  rfl

theorem below_putIn (s : Text) (i : Nat) : OriginsBelow (putIn s) i := by
  intro p mem j isOrigin
  rw [putIn_origin mem] at isOrigin
  exact absurd isOrigin (by simp)

theorem above_putIn (s : Text) (i : Nat) : OriginsAbove (putIn s) i := by
  intro p mem j isOrigin
  rw [putIn_origin mem] at isOrigin
  exact absurd isOrigin (by simp)

theorem input_origin {pos j : Nat} {s : Text} {p : Char × Option Nat} (mem : p ∈ input pos s) (isOrigin : j ∈ p.2) :
    pos ≤ j ∧ j < pos + len s := by
  induction s generalizing pos with
  | nil => simp [input] at mem
  | cons c cs ih =>
    have := c.utf8Size_pos
    rw [len_cons]
    rcases List.mem_cons.mp mem with rfl | later
    · obtain rfl : pos = j := Option.some.inj isOrigin
      omega
    · have := ih later
      omega

/-- A byte with a marker in its place is not in the text. -/
theorem ReplacedAt.not_mem (replaced : out.ReplacedAt i) : ∀ p ∈ out, p.2 ≠ some i := by
  obtain ⟨front, back, rfl, below, above⟩ := replaced
  intro p mem isOrigin
  rcases List.mem_append.mp mem with inFront | behind
  · exact absurd (below p inFront i isOrigin) (Nat.lt_irrefl i)
  · rcases List.mem_append.mp behind with inMarker | inBack
    · rw [putIn_origin inMarker] at isOrigin
      exact absurd isOrigin (by simp)
    · exact absurd (above p inBack i isOrigin) (Nat.lt_irrefl i)

end Traced

section Places

variable {cuts : List Nat} {pos i : Nat} {k : Text} {js : List Joint}

theorem above_traced (before : i < pos) : (traced pos k js).OriginsAbove i := by
  have above (s : Text) {pos' : Nat} (least : pos ≤ pos') : (input pos' s).OriginsAbove i := by
    intro p mem j isOrigin
    have := input_origin mem isOrigin
    omega
  induction js generalizing pos k with
  | nil => exact above k (le_refl pos)
  | cons j js ih =>
    refine (above k (le_refl pos)).append ((above_putIn j.new i).append (ih (by omega) fun s pos' least => ?_))
    exact above s (by omega)

theorem below_input (after : pos + len k ≤ i) : (input pos k).OriginsBelow i := by
  intro p mem j isOrigin
  have := input_origin mem isOrigin
  omega

/-- A byte in a window is replaced. -/
theorem replacedAt_traced (covers : Covers cuts pos k js) (least : pos ≤ i) (most : i < pos + len (source k js))
    (inside : InWindow cuts i) : (traced pos k js).ReplacedAt i := by
  induction js generalizing pos k with
  | nil => exact absurd inside (covers i least most)
  | cons j js ih =>
    obtain ⟨outside, covered, -, rest⟩ := covers
    have behind : pos + len k ≤ i := by
      by_contra before
      exact outside i least (by omega) inside
    rcases Nat.lt_or_ge i (pos + len k + len j.old) with here | later
    · obtain ⟨tail, opens⟩ := covered.cluster.opens
      refine ⟨input pos k, putIn tail ++ traced (pos + len k + len j.old) j.kept js, ?_, below_input behind, ?_⟩
      · rw [traced, ← opens, putIn_append, List.append_assoc]
      · exact (above_putIn tail i).append (above_traced here)
    · rw [source, len_append, len_append] at most
      obtain ⟨front, back, split, below, above⟩ := ih rest later (by omega)
      refine ⟨input pos k ++ (putIn j.new ++ front), back, ?_, ?_, above⟩
      · rw [traced, split]
        simp
      · exact (below_input behind).append ((below_putIn j.new i).append below)

theorem traced_cons (pos : Nat) (c : Char) (k : Text) (js : List Joint) :
    traced pos (c :: k) js = (c, some pos) :: traced (pos + c.utf8Size) k js := by
  cases js <;> simp [traced, input, Nat.add_assoc]

/-- A kept byte, two bytes further for each cut up to it. -/
def KeptAt (out : Traced) (cuts : List Nat) (pos : Nat) (x : Text) (c : Char) : Prop :=
  ∃ front back, out = front ++ (c, some (pos + len x)) :: back ∧ front.OriginsBelow (pos + len x) ∧
    len front.text = len x + 2 * cutsIn cuts pos (pos + len x + 1)

theorem keptAt_here {x r : Text} {c : Char} (outside : Outside cuts pos (len (x ++ c :: r))) :
    KeptAt (traced pos (x ++ c :: r) js) cuts pos x c := by
  have noCut : cutsIn cuts pos (pos + len x + 1) = 0 := by
    have upTo : Outside cuts pos (len x + 1) := fun i least most => outside i least (by
      have := c.utf8Size_pos
      rw [len_append, len_cons]
      omega)
    rw [cutsIn_outside upTo, Nat.add_assoc, cutsIn_self]
  refine ⟨input pos x, traced (pos + len x + c.utf8Size) r js, ?_, below_input (le_refl _), ?_⟩
  · rw [traced_append, traced_cons]
  · rw [text_input, noCut]
    omega

/-- A byte in no window is kept. -/
theorem keptAt_traced {x y : Text} {c : Char} (covers : Covers cuts pos k js) (split : source k js = x ++ c :: y)
    (free : ¬InWindow cuts (pos + len x)) : KeptAt (traced pos k js) cuts pos x c := by
  induction js generalizing pos k x with
  | nil =>
    obtain rfl : k = x ++ c :: y := split
    exact keptAt_here covers
  | cons j js ih =>
    obtain ⟨outside, covered, sized, rest⟩ := covers
    rcases Nat.lt_or_ge (len x) (len k) with here | behind
    · obtain ⟨between, rfl, tail⟩ := append_split_len split.symm here.le
      cases between with
      | nil => simp at here
      | cons d r =>
        obtain ⟨rfl, -⟩ := List.cons.inj tail
        exact keptAt_here outside
    · have later : len (k ++ j.old) ≤ len x := by
        by_contra inside
        rw [len_append] at inside
        exact free (covered.windows _ (by omega) (by omega))
      have split' : (k ++ j.old) ++ source j.kept js = x ++ c :: y := by rw [List.append_assoc, ← split, source]
      obtain ⟨x', rfl, tail⟩ := append_split_len split' later
      have stop : pos + len (k ++ j.old ++ x') = pos + len k + len j.old + len x' := by
        rw [len_append, len_append]
        omega
      rw [stop] at free
      have grown : len j.new = len j.old + 2 * cutsIn cuts (pos + len k) (pos + len k + len j.old) := by
        refine (sized.resolve_left ?_).grown
        rintro ⟨isEmpty, rfl⟩
        rw [isEmpty] at tail
        simp [source] at tail
      have counts : cutsIn cuts pos (pos + len k + len j.old + len x' + 1) =
          cutsIn cuts (pos + len k) (pos + len k + len j.old) +
            cutsIn cuts (pos + len k + len j.old) (pos + len k + len j.old + len x' + 1) := by
        rw [cutsIn_outside outside, cutsIn_add (Nat.le_add_right (pos + len k) (len j.old)) (by omega)]
      obtain ⟨front, back, split'', below, moved⟩ := ih rest tail free
      refine ⟨input pos k ++ (putIn j.new ++ front), back, ?_, ?_, ?_⟩
      · rw [traced, split'', stop]
        simp
      · rw [stop]
        exact (below_input (by omega)).append ((below_putIn j.new _).append below)
      · rw [stop, counts, text_append, text_append, text_input, text_putIn, len_append, len_append, moved, grown,
          len_append, len_append]
        omega

end Places

/-! ## ASCII texts -/

section Narrow

variable {cuts : List Nat} {pos : Nat} {k t : Text} {js : List Joint}

/-- Every character has one byte. -/
def Narrow (s : Text) : Prop := ∀ c ∈ s, c.utf8Size = 1

theorem narrow_of_ascii (ascii : ∀ c ∈ t, c.toNat < 128) : Narrow t := by
  intro c mem
  have := ascii c mem
  rw [Char.utf8Size_eq_one_iff, UInt32.le_iff_toNat_le]
  exact Nat.le_of_lt_succ this

/-- A step in a narrow text does not panic. -/
theorem cutsValid_narrow (narrow : Narrow t) (needles : List Text) : CutsValid t cuts needles := by
  induction needles generalizing cuts with
  | nil => trivial
  | cons needle needles ih =>
    refine ⟨fun e _ => ?_, ih⟩
    rcases Nat.lt_or_ge (e + windowLen) (len t) with inside | ends
    · refine .inr (.inl ⟨t.take (e + windowLen), t.drop (e + windowLen), (List.take_append_drop ..).symm, ?_⟩)
      rw [len_eq_length narrow] at inside
      rw [len_eq_length fun c mem => narrow c (List.mem_of_mem_take mem), List.length_take]
      omega
    · exact .inl (by omega)

theorem narrow_target (covers : Covers cuts pos k js) (narrow : Narrow (source k js)) : Narrow (target k js) := by
  induction js generalizing pos k with
  | nil => exact narrow
  | cons j js ih =>
    obtain ⟨-, covered, -, rest⟩ := covers
    have markers : ∀ c ∈ marker, c.utf8Size = 1 := by decide
    simp only [Narrow, source, List.mem_append] at narrow
    intro c mem
    rw [target, List.mem_append, List.mem_append] at mem
    rcases mem with inFront | inCluster | behind
    · exact narrow c (.inl inFront)
    · exact markers c (covered.cluster.chars c inCluster)
    · exact ih rest (fun d later => narrow d (.inr (.inr later))) c behind

end Narrow

section Splits

variable {t : Text} {P : Text → Text → Prop} {Q : Text → Char → Prop}

theorem exists_split_iff : (∃ a s, t = a ++ s ∧ P a s) ↔ ∃ n ∈ List.range (t.length + 1), P (t.take n) (t.drop n) := by
  constructor
  · rintro ⟨a, s, rfl, holds⟩
    refine ⟨a.length, ?_, by rwa [List.take_left, List.drop_left]⟩
    rw [List.mem_range, List.length_append]
    omega
  · rintro ⟨n, -, holds⟩
    exact ⟨t.take n, t.drop n, (List.take_append_drop n t).symm, holds⟩

theorem forall_split_iff :
    (∀ x c y, t = x ++ c :: y → Q x c) ↔ ∀ n ∈ List.range t.length, ∀ c ∈ t[n]?, Q (t.take n) c := by
  constructor
  · intro all n _ c at'
    obtain ⟨fits, rfl⟩ := List.getElem?_eq_some_iff.mp at'
    exact all (t.take n) t[n] (t.drop (n + 1)) (by rw [List.getElem_cons_drop, List.take_append_drop])
  · rintro all x c y rfl
    have holds := all x.length (by rw [List.mem_range, List.length_append, List.length_cons]; omega) c (by simp)
    rwa [List.take_left] at holds

instance [∀ a s, Decidable (P a s)] : Decidable (∃ a s, t = a ++ s ∧ P a s) := decidable_of_iff _ exists_split_iff.symm

instance [∀ x c, Decidable (Q x c)] : Decidable (∀ x c y, t = x ++ c :: y → Q x c) :=
  decidable_of_iff _ forall_split_iff.symm

end Splits

/-! ## Marked secrets -/

/-- A needle ends right behind `a`. -/
def Marked (a : Text) : Prop := ∃ needle ∈ needles, needle <:+ a

def Spaceless (s : Text) : Prop := ∀ d ∈ s, isWhitespace d = false

/-- A character behind `x` is in the run of characters that are not whitespace behind a needle. -/
def Secret (x : Text) (c : Char) : Prop := ∃ a s, x = a ++ s ∧ Marked a ∧ Spaceless (s ++ [c])

/-- It is in the whitespace behind such a run. -/
def Gap (x : Text) (c : Char) : Prop :=
  ∃ a r, x = a ++ r ∧ Marked a ∧ ∃ s w, r = s ++ w ∧ s ≠ [] ∧ Spaceless s ∧ ∀ d ∈ w ++ [c], isWhitespace d = true

/-- It follows such a run after whitespace, and is itself neither in such a run nor in the whitespace behind one. -/
def Follows (x : Text) (c : Char) : Prop :=
  (∃ a r, x = a ++ r ∧ Marked a ∧ ∃ s f, r = s ++ f ∧ s ≠ [] ∧ Spaceless s ∧ ∃ w ∈ f.head?, isWhitespace w = true) ∧
    ¬Secret x c ∧ ¬Gap x c

/-- The byte of the text without NUL characters that the character behind `x` is at. -/
def place (x : Text) : Nat := len (withoutNul x)

/-- A byte of the input is not in the output: a marker is in its place, or its place is behind the limit. -/
structure Gone (out : Traced) (i : Nat) : Prop where
  hidden : ∀ p ∈ out.take maxErrorMessageChars, p.2 ≠ some i
  reason : out.ReplacedAt i ∨ ∃ p ∈ out.drop maxErrorMessageChars, p.2 = some i

/-- Every character of a secret is gone, and what follows a secret after whitespace is kept. -/
def HidesSecrets (raw : String) : Prop :=
  ∃ out, traceMessage raw = some out ∧ sanitizeErrorMessage raw = some (truncated out.text) ∧
    ∀ x c y, raw.toList = x ++ c :: y → c ≠ '\x00' →
      (Secret x c → Gone out (place x)) ∧ (Follows x c → (c, some (place x)) ∈ out)

/-- Every character of a secret is in a window or moves behind the limit, and no window has text that follows one. -/
def SecretsInWindows (raw : String) : Prop :=
  ∀ x c y, raw.toList = x ++ c :: y → c ≠ '\x00' →
    (Secret x c → InWindow (cutsOf (withoutNul raw.toList) [] needles) (place x) ∨
      maxErrorMessageChars ≤ place x + 2 * cutsIn (cutsOf (withoutNul raw.toList) [] needles) 0 (place x + 1)) ∧
    (Follows x c → ¬InWindow (cutsOf (withoutNul raw.toList) [] needles) (place x))

instance (a : Text) : Decidable (Marked a) := inferInstanceAs (Decidable (∃ needle ∈ needles, needle <:+ a))

instance (s : Text) : Decidable (Spaceless s) := inferInstanceAs (Decidable (∀ d ∈ s, isWhitespace d = false))

instance (x : Text) (c : Char) : Decidable (Secret x c) := inferInstanceAs (Decidable (∃ a s, x = a ++ s ∧ _))

instance (x : Text) (c : Char) : Decidable (Gap x c) :=
  inferInstanceAs (Decidable (∃ a r, x = a ++ r ∧ Marked a ∧ ∃ s w, r = s ++ w ∧ _))

instance (x : Text) (c : Char) : Decidable (Follows x c) :=
  inferInstanceAs (Decidable ((∃ a r, x = a ++ r ∧ Marked a ∧ ∃ s f, r = s ++ f ∧ _) ∧ _))

instance (raw : String) : Decidable (SecretsInWindows raw) :=
  inferInstanceAs (Decidable (∀ x c y, raw.toList = x ++ c :: y → _))

section Places

variable {cuts : List Nat} {k x y : Text} {js : List Joint} {c : Char}

/-- Where a byte of a patched ASCII text is gone. -/
theorem gone_iff (covers : Covers cuts 0 k js) (narrow : Narrow (source k js)) (split : source k js = x ++ c :: y) :
    Gone (traced 0 k js) (len x) ↔
      InWindow cuts (len x) ∨ maxErrorMessageChars ≤ len x + 2 * cutsIn cuts 0 (len x + 1) := by
  by_cases inside : InWindow cuts (len x)
  · have most : len x < 0 + len (source k js) := by
      have := c.utf8Size_pos
      rw [split, len_append, len_cons]
      omega
    have replaced := replacedAt_traced covers (Nat.zero_le _) most inside
    simp only [inside, true_or, iff_true]
    exact ⟨fun p mem => replaced.not_mem p (List.mem_of_mem_take mem), .inl replaced⟩
  · have kept := keptAt_traced covers split (by rwa [Nat.zero_add])
    rw [KeptAt, Nat.zero_add] at kept
    obtain ⟨front, back, here, below, moved⟩ := kept
    have texts : Narrow (traced 0 k js).text := by
      rw [text_traced]
      exact narrow_target covers narrow
    have size : front.length = len x + 2 * cutsIn cuts 0 (len x + 1) := by
      rw [← moved, ← length_text, len_eq_length fun d mem => texts d ?_]
      rw [here, text_append]
      exact List.mem_append_left _ mem
    simp only [inside, false_or]
    rw [here, ← size]
    constructor
    · intro gone
      by_contra short
      have inOutput : (c, some (len x)) ∈ (front ++ (c, some (len x)) :: back).take maxErrorMessageChars := by
        rw [List.take_append]
        apply List.mem_append_right
        rw [show maxErrorMessageChars - front.length = maxErrorMessageChars - front.length - 1 + 1 by omega]
        exact List.mem_cons_self
      exact gone.hidden _ inOutput rfl
    · intro long
      refine ⟨fun p mem isOrigin => ?_, .inr ⟨(c, some (len x)), ?_, rfl⟩⟩
      · rw [List.take_append_of_le_length long] at mem
        exact absurd (below p (List.mem_of_mem_take mem) _ isOrigin) (Nat.lt_irrefl _)
      · rw [List.drop_append_of_le_length long]
        exact List.mem_append_right _ List.mem_cons_self

/-- Where it is kept. -/
theorem mem_traced_iff (covers : Covers cuts 0 k js) (split : source k js = x ++ c :: y) :
    (c, some (len x)) ∈ traced 0 k js ↔ ¬InWindow cuts (len x) := by
  constructor
  · intro mem inside
    have most : len x < 0 + len (source k js) := by
      have := c.utf8Size_pos
      rw [split, len_append, len_cons]
      omega
    exact (replacedAt_traced covers (Nat.zero_le _) most inside).not_mem _ mem rfl
  · intro free
    obtain ⟨front, back, here, -⟩ := keptAt_traced covers split (by rwa [Nat.zero_add])
    rw [here, Nat.zero_add]
    exact List.mem_append_right _ List.mem_cons_self

end Places

theorem withoutNul_split {t x y : Text} {c : Char} (split : t = x ++ c :: y) (notNul : c ≠ '\x00') :
    withoutNul t = withoutNul x ++ c :: withoutNul y := by
  rw [split, withoutNul, List.filter_append, List.filter_cons_of_pos (by simpa using notNul)]
  rfl

/-- **Marked secrets are hidden**, and only they, exactly where they are in the windows. -/
theorem hidesSecrets_iff {raw : String} (ascii : ∀ c ∈ raw.toList, c.toNat < 128) :
    HidesSecrets raw ↔ SecretsInWindows raw := by
  have narrow : Narrow (withoutNul raw.toList) := narrow_of_ascii fun c mem => ascii c (List.mem_of_mem_filter mem)
  obtain ⟨k, js, same, covers, run⟩ :=
    run_some needles_ok (covers_input (withoutNul raw.toList)) (cutsValid_narrow narrow needles)
  replace same : source k js = withoutNul raw.toList := same
  replace run : traceMessage raw = some (traced 0 k js) := run
  replace covers : Covers (cutsOf (withoutNul raw.toList) [] needles) 0 k js := covers
  have returned : sanitizeErrorMessage raw = some (truncated (traced 0 k js).text) := by
    rw [sanitizeErrorMessage_eq, run]
    rfl
  have gone {x y : Text} {c : Char} (split : raw.toList = x ++ c :: y) (notNul : c ≠ '\x00') :=
    gone_iff covers (same ▸ narrow) (same.trans (withoutNul_split split notNul))
  have kept {x y : Text} {c : Char} (split : raw.toList = x ++ c :: y) (notNul : c ≠ '\x00') :=
    mem_traced_iff covers (same.trans (withoutNul_split split notNul))
  constructor
  · rintro ⟨out, run', -, hides⟩ x c y split notNul
    obtain rfl : traced 0 k js = out := Option.some.inj (run.symm.trans run')
    obtain ⟨secrets, follows⟩ := hides x c y split notNul
    exact ⟨fun secret => (gone split notNul).mp (secrets secret), fun isBehind => (kept split notNul).mp (follows isBehind)⟩
  · intro windows
    refine ⟨traced 0 k js, run, returned, fun x c y split notNul => ?_⟩
    obtain ⟨secrets, follows⟩ := windows x c y split notNul
    exact ⟨fun secret => (gone split notNul).mpr (secrets secret), fun isBehind => (kept split notNul).mpr (follows isBehind)⟩

theorem hidesSecrets_hunter2 : HidesSecrets "db failed password=hunter2 more" :=
  (hidesSecrets_iff (by decide +kernel)).mpr (by decide +kernel)

/-- A secret of more than eight characters: the rest of it stays. -/
theorem secret_not_hidden : ¬HidesSecrets "password=hunter2hunter2" := by
  rintro ⟨out, run, -, hides⟩
  have secret : Secret "password=hunter2h".toList 'u' := by decide +kernel
  have gone := (hides "password=hunter2h".toList 'u' "nter2".toList (by decide +kernel) (by decide)).1 secret
  have stays : (traceMessage "password=hunter2hunter2").any (fun out => ('u', some 17) ∈ out.take maxErrorMessageChars) = true := by
    decide +kernel
  rw [run, Option.any_some, decide_eq_true_eq] at stays
  exact gone.hidden _ stays (by decide +kernel)

end Chronon.Sanitizing
