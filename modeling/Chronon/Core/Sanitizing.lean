import Chronon.Core.Cuts

/-!
# What `sanitize_error_message` does to a text

`traceNeedle` is the step of the source with each character carrying the byte of the input
that it comes from. A run is described by the cuts that it makes in the input: a step either
finds nothing, or panics at a cut that is not valid, or cuts.
-/

namespace Chronon.Sanitizing
set_option autoImplicit false

open Text

/-! ## Traced texts -/

/-- A text whose characters know the byte of the input they come from. What was put in comes from none. -/
abbrev Traced := List (Char × Option Nat)

namespace Traced

def text (out : Traced) : Text := out.map Prod.fst

def putIn (s : Text) : Traced := s.map fun c => (c, none)

/-- The input from a position on. -/
def input : Nat → Text → Traced
  | _, [] => []
  | pos, c :: cs => (c, some pos) :: input (pos + c.utf8Size) cs

@[simp] theorem text_append (a b : Traced) : text (a ++ b) = text a ++ text b := List.map_append

@[simp] theorem length_text (out : Traced) : out.text.length = out.length := List.length_map ..

theorem text_take (n : Nat) (out : Traced) : text (out.take n) = out.text.take n := List.map_take

theorem text_drop (n : Nat) (out : Traced) : text (out.drop n) = out.text.drop n := List.map_drop

@[simp] theorem text_putIn (s : Text) : text (putIn s) = s := by simp [text, putIn, Function.comp_def]

@[simp] theorem putIn_append (s t : Text) : putIn (s ++ t) = putIn s ++ putIn t := List.map_append

@[simp] theorem text_input (pos : Nat) (s : Text) : text (input pos s) = s := by
  induction s generalizing pos with
  | nil => rfl
  | cons c cs ih => exact congrArg (c :: ·) (ih (pos + c.utf8Size))

@[simp] theorem input_append (pos : Nat) (s t : Text) : input pos (s ++ t) = input pos s ++ input (pos + len s) t := by
  induction s generalizing pos with
  | nil => rfl
  | cons c cs ih =>
    rw [List.cons_append, input, input, ih, len_cons, Nat.add_assoc]
    rfl

end Traced

open Traced

/-- The patched text, traced to the text before the first step. -/
def traced : Nat → Text → List Joint → Traced
  | pos, k, [] => input pos k
  | pos, k, j :: js => input pos k ++ (putIn j.new ++ traced (pos + len k + len j.old) j.kept js)

theorem text_traced (pos : Nat) (k : Text) (js : List Joint) : (traced pos k js).text = target k js := by
  induction js generalizing pos k with
  | nil => exact text_input pos k
  | cons j js ih => simp [traced, target, ih]

/-! ## One step -/

/-- `sanitizeNeedle`, traced. The needle is put back where it was found. -/
def traceNeedle (out : Traced) (needle : Text) : Option Traced :=
  match findStr needle out.text with
  | none => some out
  | some idx => do
    let front ← takeBytes (idx + len needle) out.text
    let back ← dropBytes (min (idx + len needle + windowLen) (len out.text)) out.text
    return out.take front.length ++ putIn marker ++ out.drop (out.length - back.length)

theorem sanitizeNeedle_text (out : Traced) (needle : Text) :
    sanitizeNeedle out.text needle = (traceNeedle out needle).map text := by
  unfold sanitizeNeedle traceNeedle
  cases found : findStr needle out.text with
  | none => rfl
  | some idx =>
    obtain ⟨a, r, cut, rfl, -⟩ := cut_of_findStr found
    have before : takeBytes (len a) out.text = some a := by rw [cut, takeBytes_append]
    have front : takeBytes (len a + len needle) out.text = some (a ++ needle) := by
      rw [cut, ← List.append_assoc, ← len_append, takeBytes_append]
    dsimp only
    rw [before, front]
    change (dropBytes (min (len a + len needle + windowLen) (len out.text)) out.text).bind _ =
      Option.map text ((dropBytes _ out.text).bind _)
    cases dropped : dropBytes (min (len a + len needle + windowLen) (len out.text)) out.text with
    | none => rfl
    | some back =>
      obtain ⟨p, whole, -⟩ := cut_of_dropBytes dropped
      have kept : text (out.take (a ++ needle).length) = a ++ needle := by
        rw [text_take, cut, ← List.append_assoc, List.take_left]
      have sizes : out.length - back.length = p.length := by
        rw [← length_text, whole, List.length_append, Nat.add_sub_cancel]
      have rest : text (out.drop (out.length - back.length)) = back := by rw [sizes, text_drop, whole, List.drop_left]
      simp only [Option.bind_some, Option.pure_def, Option.map_some, text_append, kept, rest, text_putIn]
      rfl

section Step

variable {needle a b : Text} {A M B out front : Traced}

/-- A step where all of the eight bytes are there, or the text ends before. -/
theorem traceNeedle_cut (before : A.text = a ++ needle) (found : findStr needle (A ++ (M ++ B)).text = some (len a))
    (window : len M.text = windowLen ∨ len M.text ≤ windowLen ∧ B = []) :
    traceNeedle (A ++ (M ++ B)) needle = some (A ++ (putIn marker ++ B)) := by
  have whole : (A ++ (M ++ B)).text = A.text ++ M.text ++ B.text := by simp
  have lens : len A.text = len a + len needle := by rw [before, len_append]
  have stop : min (len a + len needle + windowLen) (len (A ++ (M ++ B)).text) = len (A.text ++ M.text) := by
    rw [whole, len_append, len_append, lens]
    rcases window with all | ⟨less, rfl⟩
    · omega
    · simp only [text, List.map_nil, len_nil] at less ⊢
      omega
  have front : takeBytes (len a + len needle) (A ++ (M ++ B)).text = some A.text := by
    rw [whole, ← lens, List.append_assoc, takeBytes_append]
  have back : dropBytes (len (A.text ++ M.text)) (A ++ (M ++ B)).text = some B.text := by rw [whole, dropBytes_append]
  have sizes : (A ++ (M ++ B)).length - B.length = (A ++ M).length := by
    rw [← List.append_assoc, List.length_append, Nat.add_sub_cancel]
  rw [traceNeedle, found]
  dsimp only
  rw [stop, front, back]
  simp only [Option.bind_eq_bind, Option.bind_some, length_text, sizes, List.take_left]
  rw [← List.append_assoc A M B, List.drop_left, List.append_assoc]
  rfl

/-- A step whose eight bytes end inside a character. -/
theorem traceNeedle_panics (split : out.text = a ++ (needle ++ b)) (found : findStr needle out.text = some (len a))
    (inside : ¬Boundary b windowLen) (most : windowLen ≤ len b) : traceNeedle out needle = none := by
  have stop : min (len a + len needle + windowLen) (len out.text) = len (a ++ needle) + windowLen := by
    rw [split, len_append, len_append, len_append]
    omega
  have back : dropBytes (len (a ++ needle) + windowLen) out.text = none := by
    rw [split, ← List.append_assoc, dropBytes_append_add, dropBytes_eq_none]
    exact inside
  rw [traceNeedle, found]
  dsimp only
  rw [stop, back]
  cases takeBytes (len a + len needle) out.text <;> rfl

/-- If every occurrence is in the second of two texts, the step leaves the first one alone. -/
theorem traceNeedle_append
    (behind : ∀ a r, (front ++ out).text = a ++ (needle ++ r) → ∃ a', a = front.text ++ a' ∧ out.text = a' ++ (needle ++ r)) :
    traceNeedle (front ++ out) needle = (traceNeedle out needle).map (front ++ ·) := by
  rw [text_append] at behind
  have search := findStr_append behind
  rw [traceNeedle, traceNeedle, text_append, search]
  cases findStr needle out.text with
  | none => rfl
  | some idx =>
    have stop : min (len front.text + idx + len needle + windowLen) (len (front.text ++ out.text)) =
        len front.text + min (idx + len needle + windowLen) (len out.text) := by
      rw [len_append]
      omega
    dsimp only [Option.map_some]
    rw [stop, dropBytes_append_add, Nat.add_assoc (len front.text), takeBytes_append_add]
    cases takeBytes (idx + len needle) out.text with
    | none => rfl
    | some q =>
      cases dropped : dropBytes (min (idx + len needle + windowLen) (len out.text)) out.text with
      | none => rfl
      | some back =>
        obtain ⟨p, whole, -⟩ := cut_of_dropBytes dropped
        have most : back.length ≤ out.length := by
          rw [← length_text, whole, List.length_append]
          omega
        have sizes : (front ++ out).length - back.length = front.length + (out.length - back.length) := by
          rw [List.length_append]
          omega
        have kept : (front.text ++ q).length = front.length + q.length := by rw [List.length_append, length_text]
        simp only [Option.map_some, Option.bind_eq_bind, Option.bind_some, Option.pure_def, kept, sizes,
          List.take_length_add_append, List.drop_length_add_append, List.append_assoc]

end Step

/-! ## A step is a cut -/

section Find

variable {needle k a b : Text} {cuts : List Nat} {pos n : Nat} {j : Joint} {js : List Joint}

/-- What is found in the first stretch is what is found. -/
theorem findStr_here (ok : Needle needle) (covers : Covers cuts pos k js) (here : findStr needle k = some n) :
    findStr needle (target k js) = some n := by
  obtain ⟨a, b, split, rfl, first⟩ := cut_of_findStr here
  cases js with
  | nil => exact here
  | cons j js =>
    apply findStr_of_first (r := b ++ (j.new ++ target j.kept js)) (by rw [target, split]; simp)
    intro a' r' other
    rcases occurrence_target ok covers.2.1.cluster other with ⟨r'', inside⟩ | ⟨a'', rfl, -⟩
    · exact first a' r'' inside
    · rw [split, len_append, len_append]
      omega

theorem nextCut_here (ok : Needle needle) (covers : Covers cuts pos k js) (here : findStr needle k = some n) :
    nextCut needle cuts pos (source k js) = some (pos + n + len needle) := by
  obtain ⟨a, b, split, rfl, first⟩ := cut_of_findStr here
  have fits : len k = len a + (len needle + len b) := by rw [split, len_append, len_append]
  have outside : Outside cuts pos (len k) := by
    cases js with
    | nil => exact covers
    | cons j js => exact covers.1
  have free : untouched cuts (pos + len a) (len needle) = true := by
    rw [untouched_iff (len_pos ok.ne_nil)]
    exact fun i least most => outside i (by omega) (by omega)
  cases js with
  | nil => exact nextCut_eq_some ok.ne_nil split free fun a' r' other _ => first a' r' other
  | cons j js =>
    apply nextCut_eq_some (r := b ++ (j.old ++ source j.kept js)) ok.ne_nil (by rw [source, split]; simp) free
    intro a' r' other free'
    rcases occurrence_source ok.ne_nil covers other free' with ⟨r'', inside⟩ | ⟨a'', rfl, -⟩
    · exact first a' r'' inside
    · rw [len_append, len_append]
      omega

theorem nextCut_absent (ok : Needle needle) (covers : Covers cuts pos k (j :: js)) (absent : findStr needle k = none) :
    nextCut needle cuts pos (source k (j :: js)) = nextCut needle cuts (pos + len k + len j.old) (source j.kept js) := by
  have split : source k (j :: js) = (k ++ j.old) ++ source j.kept js := by rw [source, List.append_assoc]
  rw [split, nextCut_append, len_append, Nat.add_assoc]
  intro a r other free
  rcases occurrence_source ok.ne_nil covers (split.trans other) free with ⟨r', inside⟩ | behind
  · exact absurd ⟨a, r', by rw [inside, List.append_assoc]⟩ (findStr_eq_none.mp absent)
  · exact behind

theorem traceNeedle_absent (ok : Needle needle) (covers : Covers cuts pos k (j :: js)) (absent : findStr needle k = none) :
    traceNeedle (traced pos k (j :: js)) needle =
      (traceNeedle (traced (pos + len k + len j.old) j.kept js) needle).map ((input pos k ++ putIn j.new) ++ ·) := by
  rw [traced, ← List.append_assoc]
  apply traceNeedle_append
  intro a r other
  rw [text_append, text_append, text_input, text_putIn, List.append_assoc] at other
  rcases occurrence_target ok covers.2.1.cluster other with ⟨r', inside⟩ | ⟨a', front, behind⟩
  · exact absurd ⟨a, r', by rw [inside, List.append_assoc]⟩ (findStr_eq_none.mp absent)
  · exact ⟨a', by rw [front]; simp, behind⟩

end Find

/-- What a step does to a patched text: nothing where nothing is found, a panic at a cut that is not valid, or a cut. -/
inductive Steps (needle : Text) (cuts : List Nat) (pos : Nat) (k : Text) (js : List Joint) : Prop
  | missing (absent : nextCut needle cuts pos (source k js) = none)
      (stays : traceNeedle (traced pos k js) needle = some (traced pos k js))
  | panics (e : Nat) (found : nextCut needle cuts pos (source k js) = some e)
      (invalid : ¬CutValid (source k js) cuts pos e) (panic : traceNeedle (traced pos k js) needle = none)
  | cut (e : Nat) (k' : Text) (js' : List Joint) (found : nextCut needle cuts pos (source k js) = some e)
      (valid : CutValid (source k js) cuts pos e) (same : source k' js' = source k js) (covers : Covers (e :: cuts) pos k' js')
      (stepped : traceNeedle (traced pos k js) needle = some (traced pos k' js'))

section Steps

variable {needle k a b : Text} {cuts : List Nat} {pos n : Nat} {j : Joint} {js : List Joint}

theorem source_append (s k : Text) (js : List Joint) : source (s ++ k) js = s ++ source k js := by
  cases js <;> simp [source]

theorem target_append (s k : Text) (js : List Joint) : target (s ++ k) js = s ++ target k js := by
  cases js <;> simp [target]

theorem traced_append (pos : Nat) (s k : Text) (js : List Joint) :
    traced pos (s ++ k) js = input pos s ++ traced (pos + len s) k js := by
  cases js <;> simp [traced, Nat.add_assoc]

/-- A step that finds nothing in the first stretch is a step on what follows it. -/
theorem Steps.later (ok : Needle needle) (covers : Covers cuts pos k (j :: js)) (absent : findStr needle k = none)
    (steps : Steps needle cuts (pos + len k + len j.old) j.kept js) : Steps needle cuts pos k (j :: js) := by
  have search := nextCut_absent ok covers absent
  have stepped := traceNeedle_absent ok covers absent
  have split : source k (j :: js) = (k ++ j.old) ++ source j.kept js := by rw [source, List.append_assoc]
  have behind {e : Nat} (found : nextCut needle cuts (pos + len k + len j.old) (source j.kept js) = some e) :
      pos + len (k ++ j.old) ≤ e := by
    have := nextCut_ge found
    rw [len_append]
    omega
  have validity {e : Nat} (found : nextCut needle cuts (pos + len k + len j.old) (source j.kept js) = some e) :
      CutValid (source k (j :: js)) cuts pos e ↔ CutValid (source j.kept js) cuts (pos + len k + len j.old) e := by
    rw [split, cutValid_append (behind found), len_append, Nat.add_assoc]
  cases steps with
  | missing none' stays =>
    refine .missing (search.trans none') ?_
    rw [stepped, stays, Option.map_some, traced, List.append_assoc]
  | panics e found invalid panic =>
    refine .panics e (search.trans found) (mt (validity found).mp invalid) ?_
    rw [stepped, panic, Option.map_none]
  | cut e k' js' found valid same covers' stepped' =>
    obtain ⟨outside, covered, sized, -⟩ := covers
    have notLast : ¬(j.kept = [] ∧ js = []) := by
      rintro ⟨isEmpty, rfl⟩
      rw [isEmpty] at found
      exact absurd found (by simp [source, nextCut])
    have after := behind found
    rw [len_append] at after
    refine .cut e k (⟨j.old, j.new, k'⟩ :: js') (search.trans found) ((validity found).mpr valid) ?_ ?_ ?_
    · rw [source, source, same]
    · refine ⟨outside.cons fun i _ most _ => .inl (by omega), covered.cons, .inr ?_, covers'⟩
      exact (sized.resolve_left notLast).cons (.inr (by omega))
    · rw [stepped, stepped', Option.map_some, traced, List.append_assoc]

/-- What a valid cut at `e` makes of the patched text from there on. -/
structure CutsTo (cuts : List Nat) (e : Nat) (b : Text) (js js' : List Joint) : Prop where
  same : source [] js' = source b js
  covers : Covers (e :: cuts) e [] js'
  window : ∃ M B, traced e b js = M ++ B ∧ traced e [] js' = putIn marker ++ B ∧
    (len M.text = windowLen ∨ len M.text ≤ windowLen ∧ B = [])

variable {e : Nat} {q r : Text}

theorem cutsTo_end (short : len b < windowLen) : CutsTo cuts e b [] [⟨b, marker, []⟩] where
  same := by simp [source]
  covers := covers_cut_end short
  window := ⟨input e b, [], by simp [traced], by simp [traced, input], .inr ⟨by simpa using short.le, rfl⟩⟩

theorem cutsTo_whole (covers : Covers cuts e (q ++ r) js) (whole : len q = windowLen) :
    CutsTo cuts e (q ++ r) js (⟨q, marker, r⟩ :: js) where
  same := by simp [source, source_append]
  covers := covers_cut_whole covers whole
  window := by
    refine ⟨input e q, traced (e + len q) r js, traced_append e q r js, ?_, .inl (by simpa using whole)⟩
    simp [traced, input]

theorem cutsTo_joint (covers : Covers cuts e b (j :: js)) (short : len b < windowLen) :
    CutsTo cuts e b (j :: js) (⟨b ++ j.old, marker ++ j.new.drop (windowLen - len b), j.kept⟩ :: js) where
  same := by simp [source]
  covers := covers_cut_joint covers short
  window := by
    refine ⟨input e b ++ putIn (j.new.take (windowLen - len b)),
      putIn (j.new.drop (windowLen - len b)) ++ traced (e + len b + len j.old) j.kept js, ?_, ?_, .inl ?_⟩
    · have parts := congrArg putIn (List.take_append_drop (windowLen - len b) j.new)
      rw [putIn_append] at parts
      rw [traced, ← parts]
      simp
    · simp [traced, input, Nat.add_assoc]
    · have taken := covers.2.1.cluster.len_take (Nat.sub_le windowLen (len b))
      rw [text_append, text_input, text_putIn, len_append, taken]
      omega

/-- A cut in front of a stretch with a character across the end of the eight bytes. -/
theorem not_cutValid (covers : Covers cuts e b js) (long : windowLen ≤ len b) (inside : ¬Boundary b windowLen) :
    ¬CutValid (source b js) cuts e e := by
  have front : source b js = b ++ source [] js := by rw [← source_append, List.append_nil]
  rintro (ends | boundary | ⟨e', mem, least, most⟩)
  · rw [front, len_append] at ends
    obtain exact' : windowLen = len b := by omega
    exact inside (exact' ▸ boundary_len b)
  · rw [front, Nat.add_sub_cancel_left, boundary_append_left long] at boundary
    exact inside boundary
  · exact covers.outside e' least (by omega) ⟨e', mem, le_refl e', Nat.lt_add_of_pos_right (by decide)⟩

/-- A valid cut in the first stretch. -/
theorem Steps.of_cutsTo {js' : List Joint} (covers : Covers cuts pos k js) (split : k = a ++ (needle ++ b))
    (isEnd : e = pos + len (a ++ needle)) (found : nextCut needle cuts pos (source k js) = some e)
    (foundText : findStr needle (traced pos k js).text = some (len a)) (valid : CutValid (source k js) cuts pos e)
    (cut : CutsTo cuts e b js js') : Steps needle cuts pos k js := by
  obtain ⟨M, B, window, window', size⟩ := cut.window
  have front : k = (a ++ needle) ++ b := by rw [split, List.append_assoc]
  have kept : a ++ needle ++ [] = a ++ needle := List.append_nil _
  have outside : Outside cuts pos (len (a ++ needle)) := fun i least most =>
    covers.outside i least (by rw [front, len_append]; omega)
  have traces : traced pos k js = input pos (a ++ needle) ++ (M ++ B) := by
    rw [front, traced_append, ← isEnd, window]
  refine .cut e (a ++ needle) js' found valid ?_ ?_ ?_
  · rw [← kept, source_append, cut.same, front, source_append]
  · rw [← kept]
    refine Covers.prepend (outside.cons fun i _ most _ => .inl (by omega)) ?_
    rw [← isEnd]
    exact cut.covers
  · rw [traces] at foundText ⊢
    rw [traceNeedle_cut (text_input ..) foundText size, ← window', isEnd, ← traced_append, kept]

/-- A step that finds its needle in the first stretch. -/
theorem Steps.here (ok : Needle needle) (covers : Covers cuts pos k js) (first : findStr needle k = some n) :
    Steps needle cuts pos k js := by
  have found := nextCut_here ok covers first
  have foundText : findStr needle (traced pos k js).text = some n := by
    rw [text_traced]
    exact findStr_here ok covers first
  obtain ⟨a, b, split, rfl, -⟩ := cut_of_findStr first
  have front : k = (a ++ needle) ++ b := by rw [split, List.append_assoc]
  obtain ⟨e, isEnd⟩ : ∃ e, e = pos + len (a ++ needle) := ⟨_, rfl⟩
  have isEnd' : e = pos + len a + len needle := by rw [isEnd, len_append, Nat.add_assoc]
  rw [← isEnd'] at found
  have rest : Covers cuts e b js := by
    rw [front] at covers
    exact isEnd ▸ covers.drop
  have validity : CutValid (source k js) cuts pos e ↔ CutValid (source b js) cuts e e := by
    rw [front, source_append, cutValid_append isEnd.ge, ← isEnd]
  rcases Nat.lt_or_ge (len b) windowLen with short | long
  · cases js with
    | nil =>
      have valid : CutValid (source b []) cuts e e := .inl (by rw [source]; omega)
      exact .of_cutsTo covers split isEnd found foundText (validity.mpr valid) (cutsTo_end short)
    | cons j js =>
      have valid : CutValid (source b (j :: js)) cuts e e :=
        .inr (.inr ⟨e + len b, rest.2.1.isCut, Nat.le_add_right .., Nat.add_lt_add_left short e⟩)
      exact .of_cutsTo covers split isEnd found foundText (validity.mpr valid) (cutsTo_joint rest short)
  · by_cases boundary : Boundary b windowLen
    · obtain ⟨q, r, rfl, whole⟩ := boundary
      have valid : CutValid (source (q ++ r) js) cuts e e := by
        refine .inr (.inl ⟨q, source r js, source_append q r js, ?_⟩)
        rw [whole, Nat.add_sub_cancel_left]
      exact .of_cutsTo covers split isEnd found foundText (validity.mpr valid) (cutsTo_whole rest whole)
    · refine .panics e found (mt validity.mp (not_cutValid rest long boundary)) ?_
      have rest' : (traced pos k js).text = a ++ (needle ++ (b ++ target [] js)) := by
        rw [text_traced, front, ← List.append_assoc, ← List.append_assoc, ← target_append, List.append_nil]
      refine traceNeedle_panics rest' foundText ?_ ?_
      · rw [boundary_append_left long]
        exact boundary
      · rw [len_append]
        omega

end Steps

/-- **A step is a cut**, by induction on the joints: a needle is found in the first stretch, or behind it. -/
theorem steps {needle : Text} {cuts : List Nat} {pos : Nat} {k : Text} {js : List Joint} (ok : Needle needle)
    (covers : Covers cuts pos k js) : Steps needle cuts pos k js := by
  induction js generalizing pos k with
  | nil =>
    cases found : findStr needle k with
    | some n => exact .here ok covers found
    | none =>
      have absent := findStr_eq_none.mp found
      refine .missing (nextCut_eq_none ?_) ?_
      · intro a r split
        replace split : k = a ++ (needle ++ r) := split
        exact absurd ⟨a, r, by rw [split, List.append_assoc]⟩ absent
      · rw [traceNeedle, text_traced, target, found]
  | cons j js ih =>
    cases found : findStr needle k with
    | some n => exact .here ok covers found
    | none => exact .later ok covers found (ih covers.2.2.2)

/-! ## A run of steps -/

section Run

variable {cuts : List Nat} {k : Text} {js : List Joint} {needles : List Text}

/-- A run whose cuts are valid returns the text patched at those cuts. -/
theorem run_some (ok : ∀ needle ∈ needles, Needle needle) (covers : Covers cuts 0 k js)
    (valid : CutsValid (source k js) cuts needles) :
    ∃ k' js', source k' js' = source k js ∧ Covers (cutsOf (source k js) cuts needles) 0 k' js' ∧
      needles.foldlM traceNeedle (traced 0 k js) = some (traced 0 k' js') := by
  induction needles generalizing cuts k js with
  | nil => exact ⟨k, js, rfl, covers, rfl⟩
  | cons needle needles ih =>
    obtain ⟨validHere, validLater⟩ := valid
    have okLater : ∀ n ∈ needles, Needle n := fun n mem => ok n (List.mem_cons_of_mem needle mem)
    rw [cutsOf, List.foldlM_cons]
    cases steps (ok needle List.mem_cons_self) covers with
    | missing absent stays =>
      rw [absent] at validLater ⊢
      rw [stays]
      exact ih okLater covers validLater
    | panics e found invalid panic => exact absurd (validHere e found) invalid
    | cut e k' js' found valid same covers' stepped =>
      rw [found] at validLater ⊢
      rw [← same] at validLater ⊢
      rw [stepped]
      exact ih okLater covers' validLater

/-- Any other run panics. -/
theorem run_none (ok : ∀ needle ∈ needles, Needle needle) (covers : Covers cuts 0 k js)
    (invalid : ¬CutsValid (source k js) cuts needles) : needles.foldlM traceNeedle (traced 0 k js) = none := by
  induction needles generalizing cuts k js with
  | nil => exact absurd trivial invalid
  | cons needle needles ih =>
    have okLater : ∀ n ∈ needles, Needle n := fun n mem => ok n (List.mem_cons_of_mem needle mem)
    rw [CutsValid] at invalid
    rw [List.foldlM_cons]
    cases steps (ok needle List.mem_cons_self) covers with
    | missing absent stays =>
      rw [absent] at invalid
      rw [stays]
      exact ih okLater covers fun later => invalid ⟨by simp, later⟩
    | panics e found invalid' panic =>
      rw [panic]
      rfl
    | cut e k' js' found valid same covers' stepped =>
      rw [found, ← same] at invalid
      rw [stepped]
      refine ih okLater covers' fun later => invalid ⟨?_, later⟩
      rintro _ ⟨⟩
      exact same ▸ valid

end Run

/-! ## The whole function -/

/-- The needles of the source. -/
def needles : List Text := secretNeedles.map String.toList

/-- The raw text without its NUL characters. -/
def withoutNul (raw : Text) : Text := raw.filter (· != '\x00')

/-- `sanitize_error_message` up to the truncation, traced to the text without NUL characters. -/
def traceMessage (raw : String) : Option Traced := needles.foldlM traceNeedle (input 0 (withoutNul raw.toList))

/-- What is returned of a text: at most 512 characters of it. -/
def truncated (out : Text) : String :=
  if maxErrorMessageChars < out.length then String.ofList (out.take maxErrorMessageChars ++ ['…']) else String.ofList out

theorem needles_ok : ∀ needle ∈ needles, Needle needle := by decide

theorem foldlM_text (needles : List Text) (out : Traced) :
    needles.foldlM sanitizeNeedle out.text = (needles.foldlM traceNeedle out).map text := by
  induction needles generalizing out with
  | nil => rfl
  | cons needle needles ih =>
    rw [List.foldlM_cons, List.foldlM_cons, sanitizeNeedle_text]
    cases traceNeedle out needle with
    | none => rfl
    | some out' => exact ih out'

/-- The traces are of the function's own run. -/
theorem sanitizeErrorMessage_eq (raw : String) :
    sanitizeErrorMessage raw = (traceMessage raw).map fun out => truncated out.text := by
  have run := foldlM_text needles (input 0 (withoutNul raw.toList))
  rw [text_input] at run
  have folds : secretNeedles.foldlM (fun out needle => sanitizeNeedle out needle.toList) (withoutNul raw.toList) =
      needles.foldlM sanitizeNeedle (withoutNul raw.toList) := List.foldlM_map.symm
  rw [sanitizeErrorMessage, ← withoutNul, folds, run, traceMessage]
  cases needles.foldlM traceNeedle (input 0 (withoutNul raw.toList)) with
  | none => rfl
  | some out =>
    simp only [Option.map_some, Option.bind_eq_bind, Option.bind_some, truncated]
    split <;> rfl

theorem length_truncated (out : Text) : (truncated out).length ≤ 513 := by
  unfold truncated
  have limit : maxErrorMessageChars = 512 := rfl
  split
  · rw [String.length_ofList, List.length_append, List.length_take, List.length_singleton]
    omega
  · rw [String.length_ofList]
    omega

theorem covers_input (t : Text) : Covers [] 0 t [] := fun i _ _ ⟨e, mem, _⟩ => by simp at mem

/-- **Sanitizing returns**, with at most 513 characters, exactly where every cut is valid. -/
theorem sanitizeErrorMessage_returns_iff (raw : String) :
    (∃ out, sanitizeErrorMessage raw = some out ∧ out.length ≤ 513) ↔ CutsValid (withoutNul raw.toList) [] needles := by
  rw [sanitizeErrorMessage_eq]
  constructor
  · rintro ⟨out, returned, -⟩
    by_contra invalid
    have panics := run_none needles_ok (covers_input (withoutNul raw.toList)) invalid
    rw [traced] at panics
    rw [traceMessage, panics] at returned
    simp at returned
  · intro valid
    obtain ⟨k, js, -, -, run⟩ := run_some needles_ok (covers_input (withoutNul raw.toList)) valid
    rw [traced] at run
    rw [traceMessage, run]
    exact ⟨_, rfl, length_truncated _⟩

/-- A character of two bytes across the end of the eight bytes. -/
theorem sanitizeErrorMessage_panics : sanitizeErrorMessage "token=aaaaaaaé" = none := by decide +kernel

end Chronon.Sanitizing
