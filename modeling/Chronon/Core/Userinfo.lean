import Mathlib.Data.List.Infix
import Chronon.Core.Redact
import Chronon.Text.Edits

/-!
# The userinfo of the URLs in a text

What redaction is for, read from left to right: at each `://` the stretch up to the
next stop character or comma is looked at, its userinfo up to the first at-sign is
hidden, and reading goes on behind the stretch. `scan` is the script of that. What it
hides and where is stated on the text alone, by the occurrences of `://` in it.
-/

namespace Chronon.Redaction
set_option autoImplicit false

open Text Text.Characters EditScript

/-- Where `consume_endpoint_prefix` ends an endpoint. -/
def stopChar (c : Char) : Bool := isWhitespace c || c == '"' || c == '\'' || c == ')' || c == ']'

/-- The characters of a scheme, as `redact_credentials_in_text` looks for them backwards. -/
def schemeChar (c : Char) : Bool := c.isAlphanum || c == '+' || c == '.' || c == '-'

/-- Where a segment of an endpoint ends. -/
def partEnd (c : Char) : Bool := stopChar c || c == ','

/-- The characters that end the authority of a URL. -/
def pathChar (c : Char) : Bool := c == '/' || c == '?' || c == '#'

/-- The text has no character for which `p` holds. -/
def Free (p : Char → Bool) (t : Text) : Prop := ∀ c ∈ t, p c = false

/-- The text is empty or starts with a character for which `p` holds. -/
def Ends (p : Char → Bool) (t : Text) : Prop := ∀ c ∈ t.head?, p c = true

instance (p : Char → Bool) (t : Text) : Decidable (Free p t) := inferInstanceAs (Decidable (∀ c ∈ t, p c = false))

theorem schemeSeparator_eq : schemeSeparator = [':', '/', '/'] := rfl

theorem partEnd_of_stopChar {c : Char} (stop : stopChar c = true) : partEnd c = true := by
  simp [partEnd, stop]

/-- The characters of a scheme are ASCII. -/
theorem toNat_lt_of_schemeChar {c : Char} (isScheme : schemeChar c = true) : c.toNat < 128 := by
  unfold schemeChar Char.isAlphanum Char.isAlpha Char.isUpper Char.isLower Char.isDigit at isScheme
  simp only [Bool.or_eq_true, Bool.and_eq_true, decide_eq_true_eq, beq_iff_eq, UInt32.le_iff_toNat_le, ge_iff_le] at isScheme
  rcases isScheme with (((((⟨-, bound⟩ | ⟨-, bound⟩) | ⟨-, bound⟩) | rfl) | rfl) | rfl)
  · exact Nat.lt_of_le_of_lt bound (by decide)
  · exact Nat.lt_of_le_of_lt bound (by decide)
  · exact Nat.lt_of_le_of_lt bound (by decide)
  · decide
  · decide
  · decide

theorem not_schemeChar {c : Char} (stop : stopChar c = true) : schemeChar c = false := by
  have ascii : ∀ n < 128, stopChar (Char.ofNat n) = true → schemeChar (Char.ofNat n) = false := by decide +kernel
  by_contra isScheme
  have bound := toNat_lt_of_schemeChar (by simpa using isScheme)
  have other := ascii c.toNat bound
  rw [Char.ofNat_toNat] at other
  exact isScheme (other stop)

section Occurrences

/-- Where two texts meet, a `://` is in the first, in the second, or cut by the meeting point. -/
theorem separator_append {x y a b : Text} (same : x ++ y = a ++ (schemeSeparator ++ b)) :
    (∃ b', x = a ++ (schemeSeparator ++ b') ∧ b = b' ++ y) ∨ (∃ a', a = x ++ a' ∧ y = a' ++ (schemeSeparator ++ b)) ∨
      (∃ y', (x = a ++ [':'] ∨ x = a ++ [':', '/']) ∧ y = '/' :: y') := by
  rcases List.append_eq_append_iff.mp same with ⟨a', front, back⟩ | ⟨c, front, back⟩
  · exact .inr (.inl ⟨a', front, back⟩)
  · rw [schemeSeparator_eq] at back ⊢
    rcases c with _ | ⟨c₁, _ | ⟨c₂, _ | ⟨c₃, c⟩⟩⟩
    · exact .inr (.inl ⟨[], by simpa using front.symm, by simpa using back.symm⟩)
    · simp only [List.cons_append, List.nil_append, List.cons.injEq] at back
      obtain ⟨rfl, rfl⟩ := back
      exact .inr (.inr ⟨_, .inl front, rfl⟩)
    · simp only [List.cons_append, List.nil_append, List.cons.injEq] at back
      obtain ⟨rfl, rfl, rfl⟩ := back
      exact .inr (.inr ⟨_, .inr front, rfl⟩)
    · simp only [List.cons_append, List.nil_append, List.cons.injEq] at back
      obtain ⟨rfl, rfl, rfl, rfl⟩ := back
      exact .inl ⟨c, front, rfl⟩

/-- It is not cut where the second text starts with the end of a stretch. -/
theorem separator_append_ends {x y a b : Text} (ends : Ends partEnd y) (same : x ++ y = a ++ (schemeSeparator ++ b)) :
    (∃ b', x = a ++ (schemeSeparator ++ b') ∧ b = b' ++ y) ∨
      ∃ a', a = x ++ a' ∧ y = a' ++ (schemeSeparator ++ b) := by
  rcases separator_append same with inside | behind | ⟨y', -, rfl⟩
  · exact .inl inside
  · exact .inr behind
  · exact absurd (ends '/' rfl) (by decide)

/-- A text before a `://` that starts with the end of a stretch is not empty. -/
theorem exists_head_of_ends {p : Char → Bool} {a b : Text} (ends : Ends p (a ++ (schemeSeparator ++ b)))
    (colon : p ':' = false) : ∃ c a', a = c :: a' ∧ p c = true := by
  cases a with
  | nil =>
    have := ends ':' rfl
    simp [colon] at this
  | cons c a' => exact ⟨c, a', rfl, ends c rfl⟩

/-- There is no `://` in front of the first one, nor across its start. -/
theorem first_separator {a b : Text} (clear : ¬schemeSeparator <:+: a) {a' b' : Text}
    (other : a ++ (schemeSeparator ++ b) = a' ++ (schemeSeparator ++ b')) : len a ≤ len a' := by
  rcases separator_append other with ⟨b'', inside, -⟩ | ⟨c, rfl, -⟩ | ⟨y', -, cut⟩
  · exact absurd ⟨a', b'', by rw [inside, List.append_assoc]⟩ clear
  · simp
  · simp [schemeSeparator_eq] at cut

/-- The next `://` starts behind the whole of the one before. -/
theorem separator_next {x a b : Text} (nonempty : x ≠ []) (same : schemeSeparator ++ a = x ++ (schemeSeparator ++ b)) :
    ∃ m, x = schemeSeparator ++ m ∧ a = m ++ (schemeSeparator ++ b) := by
  rw [schemeSeparator_eq] at same ⊢
  rcases x with _ | ⟨c₁, _ | ⟨c₂, _ | ⟨c₃, m⟩⟩⟩
  · exact absurd rfl nonempty
  · simp at same
  · simp at same
  · simp only [List.cons_append, List.nil_append, List.cons.injEq] at same
    obtain ⟨rfl, rfl, rfl, rfl⟩ := same
    exact ⟨m, rfl, rfl⟩

theorem findStr_separator {a b : Text} (clear : ¬schemeSeparator <:+: a) :
    findStr schemeSeparator (a ++ (schemeSeparator ++ b)) = some (len a) :=
  findStr_of_first rfl fun _ _ other => first_separator clear other

/-- A search for `://` cuts the text at the first one. -/
theorem cut_at_separator {t : Text} {n : Nat} (found : findStr schemeSeparator t = some n) :
    ∃ a b, t = a ++ (schemeSeparator ++ b) ∧ len a = n ∧ ¬schemeSeparator <:+: a := by
  obtain ⟨a, b, cut, lens, first⟩ := cut_of_findStr found
  refine ⟨a, b, cut, lens, fun ⟨s, r, inside⟩ => ?_⟩
  have least := first s (r ++ (schemeSeparator ++ b)) (by rw [cut, ← inside]; simp)
  have lensEq := congrArg len inside
  simp only [len_append] at lensEq
  have : len schemeSeparator = 3 := rfl
  omega

end Occurrences

section Stretches

variable {p : Char → Bool} {a a' r r' t : Text}

theorem takeWhile_stretch (free : Free p a) (ends : Ends p r) : (a ++ r).takeWhile (fun c => !p c) = a := by
  rw [List.takeWhile_append_of_pos fun c mem => by simp [free c mem]]
  cases r with
  | nil => simp
  | cons c r => simp [ends c rfl]

theorem dropWhile_stretch (free : Free p a) (ends : Ends p r) : (a ++ r).dropWhile (fun c => !p c) = r := by
  rw [List.dropWhile_append_of_pos fun c mem => by simp [free c mem]]
  cases r with
  | nil => rfl
  | cons c r => simp [ends c rfl]

/-- A text starts with one stretch. -/
theorem stretch_inj (free : Free p a) (free' : Free p a') (ends : Ends p r) (ends' : Ends p r')
    (same : a ++ r = a' ++ r') : a = a' ∧ r = r' := by
  constructor
  · rw [← takeWhile_stretch free ends, same, takeWhile_stretch free' ends']
  · rw [← dropWhile_stretch free ends, same, dropWhile_stretch free' ends']

theorem exists_stretch (p : Char → Bool) (t : Text) : ∃ a r, t = a ++ r ∧ Free p a ∧ Ends p r := by
  induction t with
  | nil => exact ⟨[], [], rfl, by simp [Free], by simp [Ends]⟩
  | cons c cs ih =>
    cases holds : p c with
    | true => exact ⟨[], c :: cs, rfl, by simp [Free], by simp [Ends, holds]⟩
    | false =>
      obtain ⟨a, r, rfl, free, ends⟩ := ih
      exact ⟨c :: a, r, rfl, by simpa [Free] using ⟨holds, free⟩, ends⟩

/-- A list is cut at its first at-sign in one way. -/
theorem cut_at_first {u u' h h' : Text} (absent : '@' ∉ u) (absent' : '@' ∉ u') (same : u ++ '@' :: h = u' ++ '@' :: h') :
    u = u' ∧ h = h' := by
  have free : ∀ {v : Text}, '@' ∉ v → Free (· == '@') v := by
    intro v none' c mem
    simpa using fun here : c = '@' => none' (here ▸ mem)
  obtain ⟨front, back⟩ := stretch_inj (free absent) (free absent') (by simp [Ends]) (by simp [Ends]) same
  exact ⟨front, (List.cons.inj back).2⟩

theorem Free.append (free : Free p a) (free' : Free p a') : Free p (a ++ a') := by
  intro c mem
  rcases List.mem_append.mp mem with front | back
  · exact free c front
  · exact free' c back

theorem Free.left (free : Free p (a ++ a')) : Free p a := fun c mem => free c (List.mem_append_left a' mem)

theorem Free.right (free : Free p (a ++ a')) : Free p a' := fun c mem => free c (List.mem_append_right a mem)

theorem Ends.nil : Ends p [] := by simp [Ends]

end Stretches

/-- What stands in the output for a userinfo. -/
def stars : Text := "***".toList

/-- The script of a stretch behind `://`. -/
def userinfoScript (a : Text) : EditScript :=
  let u := a.takeWhile (· != '@')
  let r := a.dropWhile (· != '@')
  if r = [] ∨ u.any pathChar = true then keep a else .swapped u stars :: keep r

/-- The stretch has a userinfo up to its first at-sign, or is kept. -/
theorem userinfoScript_cases (a : Text) :
    (∃ u h, a = u ++ '@' :: h ∧ '@' ∉ u ∧ Free pathChar u ∧ userinfoScript a = .swapped u stars :: keep ('@' :: h)) ∨
      (userinfoScript a = keep a ∧ ∀ u h, a = u ++ '@' :: h → '@' ∉ u → ¬Free pathChar u) := by
  obtain ⟨u, r, rfl, free, ends⟩ := exists_stretch (· == '@') a
  have front : (u ++ r).takeWhile (· != '@') = u := takeWhile_stretch free ends
  have back : (u ++ r).dropWhile (· != '@') = r := dropWhile_stretch free ends
  have absent : '@' ∉ u := fun mem => by simpa using free '@' mem
  unfold userinfoScript
  rw [front, back]
  cases r with
  | nil =>
    refine .inr ⟨by simp, fun u' h split _ => ?_⟩
    rw [List.append_nil] at split
    exact absurd (by simp [split]) absent
  | cons c h =>
    obtain rfl : c = '@' := by simpa using ends c rfl
    by_cases path : Free pathChar u
    · refine .inl ⟨u, h, rfl, absent, path, ?_⟩
      have none' : ¬u.any pathChar = true := by
        simpa [Free] using path
      simp [none']
    · refine .inr ⟨?_, fun u' h' split absent' => ?_⟩
      · have some' : u.any pathChar = true := by
          simpa [Free] using path
        simp [some']
      · obtain ⟨rfl, -⟩ := cut_at_first absent absent' split
        exact path

theorem userinfoScript_hides {u h : Text} (absent : '@' ∉ u) (path : Free pathChar u) :
    userinfoScript (u ++ '@' :: h) = .swapped u stars :: keep ('@' :: h) := by
  rcases userinfoScript_cases (u ++ '@' :: h) with ⟨u', h', split, absent', -, script⟩ | ⟨-, none'⟩
  · obtain ⟨rfl, same⟩ := cut_at_first absent absent' split
    rw [script, same]
  · exact absurd path (none' u h rfl absent)

/-- Redaction of a whole text. -/
def scan : Text → EditScript
  | [] => []
  | c :: t =>
    if schemeSeparator.isPrefixOf (c :: t) then
      keep schemeSeparator ++ (userinfoScript ((t.drop 2).takeWhile (fun c => !partEnd c)) ++
        scan ((t.drop 2).dropWhile (fun c => !partEnd c)))
    else .kept c :: scan t
termination_by t => t.length
decreasing_by
  · have := (List.dropWhile_suffix (l := t.drop 2) (fun c => !partEnd c)).length_le
    simp only [List.length_drop, List.length_cons] at *
    omega
  · simp

section Scanning

theorem scan_nil : scan [] = [] := by rw [scan]

theorem scan_skip {c : Char} {t : Text} (none' : ¬schemeSeparator <+: c :: t) : scan (c :: t) = .kept c :: scan t := by
  rw [scan, if_neg (by simpa using none')]

theorem scan_url {a r : Text} (free : Free partEnd a) (ends : Ends partEnd r) :
    scan (schemeSeparator ++ (a ++ r)) = keep schemeSeparator ++ (userinfoScript a ++ scan r) := by
  have isPrefix : schemeSeparator.isPrefixOf (':' :: '/' :: '/' :: (a ++ r)) = true := by
    simp [schemeSeparator_eq]
  rw [show schemeSeparator ++ (a ++ r) = ':' :: '/' :: '/' :: (a ++ r) from rfl, scan, if_pos isPrefix]
  rw [show ('/' :: '/' :: (a ++ r)).drop 2 = a ++ r from rfl, takeWhile_stretch free ends, dropWhile_stretch free ends]

/-- A text is read in three ways. -/
theorem scan_induction {motive : Text → Prop} (nil : motive [])
    (skip : ∀ c t, ¬schemeSeparator <+: c :: t → motive t → motive (c :: t))
    (url : ∀ a r, Free partEnd a → Ends partEnd r → motive r → motive (schemeSeparator ++ (a ++ r))) (t : Text) :
    motive t := by
  generalize size : t.length = n
  induction n using Nat.strong_induction_on generalizing t with
  | _ n ih =>
    cases t with
    | nil => exact nil
    | cons c t =>
      by_cases found : schemeSeparator <+: c :: t
      · obtain ⟨rest, split⟩ := found
        obtain ⟨a, r, rfl, free, ends⟩ := exists_stretch partEnd rest
        rw [← split]
        refine url a r free ends (ih r.length ?_ r rfl)
        rw [← size, ← split]
        simp only [List.length_append, schemeSeparator_eq, List.length_cons]
        omega
      · exact skip c t found (ih t.length (by rw [← size]; simp) t rfl)

theorem source_userinfoScript (a : Text) : source (userinfoScript a) = a := by
  rcases userinfoScript_cases a with ⟨u, h, rfl, -, -, script⟩ | ⟨script, -⟩
  · rw [script, source, source_keep]
  · rw [script, source_keep]

theorem source_scan (t : Text) : source (scan t) = t := by
  induction t using scan_induction with
  | nil => rw [scan_nil, source]
  | skip c t none' ih => rw [scan_skip none', source, ih]
  | url a r free ends ih =>
    rw [scan_url free ends, source_append, source_append, source_keep, source_userinfoScript, ih]

/-- A text without `://` is kept. -/
theorem scan_clear {t : Text} (clear : ¬schemeSeparator <:+: t) : scan t = keep t := by
  induction t with
  | nil => exact scan_nil
  | cons c t ih =>
    have none' : ¬schemeSeparator <+: c :: t := fun isPrefix => clear isPrefix.isInfix
    rw [scan_skip none', keep_cons, ih fun inside => clear (List.infix_cons inside)]

/-- Reading may be cut wherever a stretch ends. -/
theorem scan_append {r : Text} (ends : Ends partEnd r) (t : Text) : scan (t ++ r) = scan t ++ scan r := by
  induction t using scan_induction with
  | nil => rw [scan_nil]; rfl
  | skip c t none' ih =>
    have none'' : ¬schemeSeparator <+: c :: (t ++ r) := by
      intro ⟨b, split⟩
      rcases separator_append_ends (x := c :: t) (a := []) ends split.symm with ⟨b', inside, -⟩ | ⟨a', front, -⟩
      · exact none' ⟨b', inside.symm⟩
      · simp at front
    rw [List.cons_append, scan_skip none'', scan_skip none', ih, List.cons_append]
  | url a r' free ends' ih =>
    have ends'' : Ends partEnd (r' ++ r) := by
      cases r' with
      | nil => exact ends
      | cons c r' => exact ends'
    rw [List.append_assoc, List.append_assoc, scan_url free ends'', scan_url free ends', ih]
    simp

/-- Nothing in front of the first `://` is touched. -/
theorem scan_first {a b : Text} (clear : ¬schemeSeparator <:+: a) :
    scan (a ++ (schemeSeparator ++ b)) = keep a ++ scan (schemeSeparator ++ b) := by
  induction a with
  | nil => rfl
  | cons c a ih =>
    have none' : ¬schemeSeparator <+: c :: (a ++ (schemeSeparator ++ b)) := by
      intro ⟨b', split⟩
      have least : len (c :: a) ≤ len [] := first_separator clear split.symm
      have := len_pos (List.cons_ne_nil c a)
      rw [len_nil] at least
      omega
    rw [List.cons_append, scan_skip none', ih fun inside => clear (List.infix_cons inside), keep_cons, List.cons_append]

end Scanning

/-! ## What is hidden, and where -/

/-- The text in front of a `://`: since any earlier one in it a stretch has ended. -/
def FirstInPart (x : Text) : Prop := ∀ y m, x = y ++ (schemeSeparator ++ m) → ∃ c ∈ m, partEnd c = true

/-- The piece `u` behind the `://` that follows `x` is what the script replaces by three stars. -/
def HiddenAt (script : EditScript) (x u : Text) : Prop :=
  ∃ front back, script = front ++ .swapped u stars :: back ∧ source front = x ++ schemeSeparator

/-- What is replaced stands between the first `://` of its part and an at-sign. -/
structure HiddenBetween (front : EditScript) (old new : Text) (back : EditScript) (x : Text) : Prop where
  separator : source front = x ++ schemeSeparator
  first : FirstInPart x
  stars : new = stars
  atSign : ∃ h, source back = '@' :: h
  absent : '@' ∉ old
  part : Free partEnd old
  path : Free pathChar old

/-- The only piece that a stretch can have replaced. -/
theorem swapped_userinfoScript {a : Text} {front back : EditScript} {old new : Text}
    (script : userinfoScript a = front ++ .swapped old new :: back) :
    ∃ h, a = old ++ '@' :: h ∧ '@' ∉ old ∧ Free pathChar old ∧ front = [] ∧ new = stars ∧ back = keep ('@' :: h) := by
  rcases userinfoScript_cases a with ⟨u, h, rfl, absent, path, cases⟩ | ⟨cases, -⟩
  · rw [cases] at script
    cases front with
    | nil =>
      obtain ⟨same, rest⟩ := List.cons.inj script
      obtain ⟨rfl, rfl⟩ := Edit.swapped.inj same
      exact ⟨h, rfl, absent, path, rfl, rfl, rest.symm⟩
    | cons e front => exact absurd (List.cons.inj script).2 keep_ne_split
  · rw [cases] at script
    exact absurd script keep_ne_split

/-- A part that follows a stretch starts at its end. -/
theorem FirstInPart.behind {a x b : Text} (ends : Ends partEnd (x ++ (schemeSeparator ++ b))) (first : FirstInPart x) :
    FirstInPart (schemeSeparator ++ (a ++ x)) := by
  obtain ⟨c, x, rfl, isEnd⟩ := exists_head_of_ends ends (by decide)
  intro y m split
  have ends' : Ends partEnd (c :: x) := by simpa [Ends] using isEnd
  rw [← List.append_assoc] at split
  rcases separator_append_ends ends' split with ⟨m', -, rfl⟩ | ⟨y', -, inside⟩
  · exact ⟨c, by simp, isEnd⟩
  · exact first y' m inside

/-- Soundness: where `scan` replaces anything. -/
theorem swapped_scan {t : Text} {front back : EditScript} {old new : Text}
    (script : scan t = front ++ .swapped old new :: back) : ∃ x, HiddenBetween front old new back x := by
  induction t using scan_induction generalizing front with
  | nil =>
    rw [scan_nil] at script
    simp at script
  | skip c t none' ih =>
    rw [scan_skip none'] at script
    cases front with
    | nil => simp at script
    | cons e front =>
      obtain ⟨rfl, rest⟩ := List.cons.inj script
      obtain ⟨x, hidden⟩ := ih rest
      refine ⟨c :: x, { hidden with separator := by rw [source, hidden.separator, List.cons_append], first := ?_ }⟩
      intro y m split
      cases y with
      | nil =>
        have whole : source (scan t) = source front ++ source (.swapped old new :: back) := by
          rw [← source_append]
          exact congrArg source rest
        rw [source_scan, hidden.separator] at whole
        refine absurd ?_ none'
        exact ⟨_, by rw [whole, List.append_assoc, ← List.cons_append, split, List.nil_append, List.append_assoc]⟩
      | cons d y => exact hidden.first y m (List.cons.inj split).2
  | url a r free ends ih =>
    rw [scan_url free ends] at script
    rcases append_eq_split script with ⟨back', kept, -⟩ | ⟨rest, rfl, behind⟩
    · exact absurd kept keep_ne_split
    clear script
    rcases append_eq_split behind with ⟨back', userinfo, rfl⟩ | ⟨later, rfl, last⟩
    · obtain ⟨h, rfl, absent, path, rfl, rfl, rfl⟩ := swapped_userinfoScript userinfo
      exact ⟨[], by simp, by simp [FirstInPart, schemeSeparator_eq], rfl, ⟨h ++ r, by simp [source, source_scan]⟩,
        absent, free.left, path⟩
    · obtain ⟨x, hidden⟩ := ih last
      have whole := congrArg source last
      rw [source_scan, source_append, hidden.separator, List.append_assoc] at whole
      exact ⟨schemeSeparator ++ (a ++ x), { hidden with
        separator := by simp [hidden.separator, source_userinfoScript]
        first := hidden.first.behind (whole ▸ ends) }⟩

/-- The last at-sign before the path, in the stretch behind the `://` that follows `x`, has `u` in front of it. -/
def Userinfo (t x u : Text) : Prop :=
  ∃ h r, t = x ++ (schemeSeparator ++ (u ++ '@' :: h ++ r)) ∧ Free stopChar (u ++ '@' :: h) ∧ Ends stopChar r ∧
    Free pathChar u ∧ ∀ v w, h = v ++ '@' :: w → ¬Free pathChar v

/-- A piece in front of an at-sign is hidden if its `://` is the first of its part. -/
theorem hiddenAt_of_first {t x u : Text} (tail : Text) (split : t = x ++ (schemeSeparator ++ (u ++ '@' :: tail)))
    (first : FirstInPart x) (absent : '@' ∉ u) (part : Free partEnd u) (path : Free pathChar u) :
    HiddenAt (scan t) x u := by
  induction t using scan_induction generalizing x with
  | nil => simp [schemeSeparator_eq] at split
  | skip c t none' ih =>
    cases x with
    | nil => exact absurd ⟨_, split.symm⟩ none'
    | cons d x =>
      obtain ⟨rfl, rest⟩ := List.cons.inj split
      obtain ⟨front, back, script, separator⟩ := ih rest fun y m inside => first (c :: y) m (by rw [inside]; rfl)
      refine ⟨.kept c :: front, back, ?_, by rw [source, separator, List.cons_append]⟩
      rw [scan_skip none', script, List.cons_append]
  | url a r free ends ih =>
    rw [← List.append_assoc] at split
    rcases separator_append_ends ends split with ⟨tail', inside, rest⟩ | ⟨x', rfl, rest⟩
    · -- The `://` in front of the stretch is the first of the part, so it is the one that follows `x`.
      obtain rfl : x = [] := by
        by_contra nonempty
        obtain ⟨m, rfl, rfl⟩ := separator_next nonempty inside
        obtain ⟨c, mem, isEnd⟩ := first [] m rfl
        rw [free.left c mem] at isEnd
        simp at isEnd
      obtain rfl : a = tail' := List.append_cancel_left inside
      obtain ⟨h, r', rfl, free', ends'⟩ := exists_stretch partEnd tail
      have stretch : Free partEnd (u ++ '@' :: h) := part.append (List.forall_mem_cons.mpr ⟨by decide, free'⟩)
      obtain ⟨rfl, rfl⟩ := stretch_inj stretch free ends' ends (by simpa using rest)
      refine ⟨keep schemeSeparator, keep ('@' :: h) ++ scan r', ?_, by simp⟩
      rw [scan_url free ends, userinfoScript_hides absent path, List.cons_append]
    · obtain ⟨front, back, script, separator⟩ := ih rest fun y m inside =>
        first (schemeSeparator ++ a ++ y) m (by rw [inside]; simp)
      refine ⟨keep schemeSeparator ++ (userinfoScript a ++ front), back, ?_, ?_⟩
      · rw [scan_url free ends, script]
        simp
      · simp [separator, source_userinfoScript]

/-- Completeness: a userinfo is hidden if its `://` is the first of its part and it has no at-sign and no comma. -/
theorem hiddenAt_scan {t x u : Text} (userinfo : Userinfo t x u) (first : FirstInPart x) (atSign : '@' ∉ u)
    (comma : ',' ∉ u) : HiddenAt (scan t) x u := by
  obtain ⟨h, r, split, free, -, path, -⟩ := userinfo
  have part : Free partEnd u := by
    intro c mem
    have notComma : c ≠ ',' := fun same => comma (same ▸ mem)
    simp [partEnd, free.left c mem, notComma]
  exact hiddenAt_of_first (h ++ r) (by simpa using split) first atSign part path

/-! ## A second pass -/

section SecondPass

theorem head?_target_scan (t : Text) : (target (scan t)).head? = t.head? := by
  induction t using scan_induction with
  | nil => rw [scan_nil]; rfl
  | skip c t none' _ => rw [scan_skip none']; rfl
  | url a r free ends _ => rw [scan_url free ends]; rfl

theorem ends_target_scan {p : Char → Bool} {t : Text} (ends : Ends p t) : Ends p (target (scan t)) := by
  unfold Ends at *
  rwa [head?_target_scan]

/-- A `://` does not come about by hiding something behind its first character. -/
theorem isPrefix_target_scan (c : Char) (t : Text) :
    schemeSeparator <+: c :: target (scan t) ↔ schemeSeparator <+: c :: t := by
  have two : (target (scan t)).take 2 = t.take 2 := by
    induction t using scan_induction with
    | nil => rw [scan_nil]; rfl
    | skip d t none' _ =>
      rw [scan_skip none', target, List.take_succ_cons, List.take_succ_cons, List.take_one, List.take_one,
        head?_target_scan]
    | url a r free ends _ => rw [scan_url free ends]; rfl
  rw [List.prefix_iff_eq_take, List.prefix_iff_eq_take]
  simp only [schemeSeparator_eq, List.length_cons, List.length_nil, List.take_succ_cons]
  rw [two]

/-- Every character of the output is one of the input, or a star. -/
theorem free_target_scan {p : Char → Bool} (star : p '*' = false) {t : Text} (free : Free p t) :
    Free p (target (scan t)) := by
  induction t using scan_induction with
  | nil => rw [scan_nil]; exact free
  | skip c t none' ih =>
    rw [scan_skip none', target]
    obtain ⟨first, rest⟩ := List.forall_mem_cons.mp free
    exact List.forall_mem_cons.mpr ⟨first, ih rest⟩
  | url a r free' ends ih =>
    rw [scan_url free' ends, target_append, target_append, target_keep]
    refine free.left.append (.append ?_ (ih free.right.right))
    rcases userinfoScript_cases a with ⟨u, h, rfl, -, -, script⟩ | ⟨script, -⟩
    · rw [script, target, target_keep]
      exact .append (by simp [Free, stars, star]) free.right.left.right
    · rw [script, target_keep]
      exact free.right.left

theorem target_userinfoScript_twice (a : Text) :
    target (userinfoScript (target (userinfoScript a))) = target (userinfoScript a) := by
  rcases userinfoScript_cases a with ⟨u, h, rfl, -, -, script⟩ | ⟨script, -⟩
  · have hides : userinfoScript (stars ++ '@' :: h) = .swapped stars stars :: keep ('@' :: h) :=
      userinfoScript_hides (by decide) (by decide)
    rw [script, target, target_keep, hides, target, target_keep]
  · rw [script, target_keep, script, target_keep]

/-- A second pass finds the same stretches and changes nothing. -/
theorem target_scan_twice (t : Text) : target (scan (target (scan t))) = target (scan t) := by
  induction t using scan_induction with
  | nil => rw [scan_nil, target, scan_nil, target]
  | skip c t none' ih =>
    rw [scan_skip none', target, scan_skip (by rwa [isPrefix_target_scan]), target, ih]
  | url a r free ends ih =>
    have free' : Free partEnd (target (userinfoScript a)) := by
      rcases userinfoScript_cases a with ⟨u, h, rfl, -, -, script⟩ | ⟨script, -⟩
      · rw [script, target, target_keep]
        exact .append (by decide) free.right
      · rwa [script, target_keep]
    rw [scan_url free ends, target_append, target_append, target_keep, scan_url free' (ends_target_scan ends),
      target_append, target_append, target_keep, target_userinfoScript_twice, ih]

end SecondPass

end Chronon.Redaction
