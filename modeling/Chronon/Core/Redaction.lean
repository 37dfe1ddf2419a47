import Chronon.Core.Userinfo

/-!
# What redaction does

The functions of `redact.rs` with the script of what they write: every slice is kept,
and the userinfo is swapped for three stars. The loop cuts a text into words, each
with the first `://` of a stretch; it panics at a word whose scheme follows a character
of more than one byte, and on all other words the script is `scan`.
-/

namespace Chronon.Redaction
set_option autoImplicit false

open Text Text.Characters EditScript

/-! ## The scripts -/

/-- `redact_single_endpoint`. -/
def singleScript (endpoint : Text) : Option EditScript :=
  match findStr schemeSeparator endpoint with
  | none => some (keep endpoint)
  | some schemeEnd => do
    let authorityStart := schemeEnd + 3
    let authority ← dropBytes authorityStart endpoint
    match findChar (· == '@') authority with
    | none => some (keep endpoint)
    | some at' =>
      let userinfoEnd := authorityStart + at'
      let hostStart := userinfoEnd + 1
      let userinfo ← slice endpoint authorityStart userinfoEnd
      if userinfo.any (fun c => c == '/' || c == '?' || c == '#') then
        some (keep endpoint)
      else
        return keep (← takeBytes authorityStart endpoint) ++
          .swapped userinfo "***".toList :: keep ('@' :: (← dropBytes hostStart endpoint))

/-- `redact_endpoint`. -/
def endpointScript (endpoint : Text) : Option EditScript := do
  let parts ← (endpoint.splitOn ',').mapM singleScript
  return List.intercalate (keep [',']) parts

/-- The loop of `redact_credentials_in_text`. -/
def scriptLoop (text : Text) : Nat → Nat → EditScript → Option EditScript
  | 0, _, _ => none
  | fuel + 1, i, out =>
    if i < len text then do
      let rest ← dropBytes i text
      match findStr schemeSeparator rest with
      | some rel =>
        let abs := i + rel
        let before ← takeBytes abs text
        let schemeStart := match rfindChar (fun c => !schemeChar c) before with
          | some j => j + 1
          | none => i
        let plain ← slice text i schemeStart
        let consumed ← consumeEndpointPrefix (← dropBytes schemeStart text)
        let endpoint ← slice text schemeStart (schemeStart + consumed)
        scriptLoop text fuel (schemeStart + consumed) (out ++ keep plain ++ (← endpointScript endpoint))
      | none => some (out ++ keep rest)
    else some out

/-- `redact_credentials_in_text`. -/
def redactScript (text : Text) : Option EditScript := scriptLoop text (len text + 1) 0 []

section Targets

theorem redactSingleEndpoint_eq (endpoint : Text) : redactSingleEndpoint endpoint = (singleScript endpoint).map target := by
  unfold redactSingleEndpoint singleScript
  cases findStr schemeSeparator endpoint with
  | none => simp
  | some schemeEnd =>
    dsimp only
    cases dropBytes (schemeEnd + 3) endpoint with
    | none => rfl
    | some authority =>
      simp only [bind, Option.bind]
      cases findChar (· == '@') authority with
      | none => simp
      | some at' =>
        dsimp only
        cases slice endpoint (schemeEnd + 3) (schemeEnd + 3 + at') with
        | none => rfl
        | some userinfo =>
          dsimp only
          split
          · simp
          · cases takeBytes (schemeEnd + 3) endpoint with
            | none => rfl
            | some front =>
              cases dropBytes (schemeEnd + 3 + at' + 1) endpoint with
              | none => rfl
              | some host => simp [target]

theorem mapM_target {f : Text → Option Text} {g : Text → Option EditScript} (same : ∀ x, f x = (g x).map target)
    (xs : List Text) : xs.mapM f = (xs.mapM g).map (List.map target) := by
  induction xs with
  | nil => rfl
  | cons x xs ih =>
    rw [List.mapM_cons, List.mapM_cons, same, ih]
    cases g x with
    | none => rfl
    | some s => cases xs.mapM g <;> rfl

theorem target_intercalate (sep : Text) (parts : List EditScript) :
    target (List.intercalate (keep sep) parts) = List.intercalate sep (parts.map target) := by
  induction parts with
  | nil => rfl
  | cons part parts ih =>
    cases parts with
    | nil => simp
    | cons next parts =>
      rw [List.intercalate_cons_cons, target_append, target_append, ih, target_keep]
      exact List.intercalate_cons_cons.symm

theorem redactEndpoint_eq (endpoint : Text) : redactEndpoint endpoint = (endpointScript endpoint).map target := by
  unfold redactEndpoint endpointScript
  rw [mapM_target redactSingleEndpoint_eq]
  cases (endpoint.splitOn ',').mapM singleScript with
  | none => rfl
  | some parts => exact congrArg some (target_intercalate [','] parts).symm

/-- One pass from the start of its scheme on. -/
theorem redactPass_eq {text : Text} {fuel : Nat} (out : EditScript) (i start : Nat)
    (rest : ∀ i out, redactLoop text fuel i (target out) = (scriptLoop text fuel i out).map target) :
    (do
      let plain ← slice text i start
      let consumed ← consumeEndpointPrefix (← dropBytes start text)
      let endpoint ← slice text start (start + consumed)
      redactLoop text fuel (start + consumed) (target out ++ plain ++ (← redactEndpoint endpoint))) =
    (do
      let plain ← slice text i start
      let consumed ← consumeEndpointPrefix (← dropBytes start text)
      let endpoint ← slice text start (start + consumed)
      scriptLoop text fuel (start + consumed) (out ++ keep plain ++ (← endpointScript endpoint))).map target := by
  cases slice text i start with
  | none => rfl
  | some plain =>
    cases dropBytes start text with
    | none => rfl
    | some tail =>
      simp only [bind, Option.bind]
      cases consumeEndpointPrefix tail with
      | none => rfl
      | some consumed =>
        dsimp only
        cases slice text start (start + consumed) with
        | none => rfl
        | some endpoint =>
          dsimp only
          rw [redactEndpoint_eq]
          cases endpointScript endpoint with
          | none => rfl
          | some script => simp [← rest]

/-- The loop writes what its script makes of the text. -/
theorem redactLoop_eq (text : Text) (fuel i : Nat) (out : EditScript) :
    redactLoop text fuel i (target out) = (scriptLoop text fuel i out).map target := by
  induction fuel generalizing i out with
  | zero => rfl
  | succ fuel ih =>
    unfold redactLoop scriptLoop
    split
    · cases dropBytes i text with
      | none => rfl
      | some rest =>
        simp only [bind, Option.bind]
        cases findStr schemeSeparator rest with
        | none => simp
        | some rel =>
          dsimp only
          cases takeBytes (i + rel) text with
          | none => rfl
          | some before =>
            have scheme : (fun c : Char => !(c.isAlphanum || c == '+' || c == '.' || c == '-')) = fun c => !schemeChar c :=
              rfl
            dsimp only
            rw [scheme]
            cases rfindChar (fun c => !schemeChar c) before with
            | none => exact redactPass_eq out i i ih
            | some j => exact redactPass_eq out i (j + 1) ih
    · rfl

end Targets

/-! ## Endpoints -/

section Endpoints

theorem len_schemeSeparator : len schemeSeparator = 3 := rfl

/-- A slash in front of the at-sign: there is no userinfo. -/
theorem userinfoScript_path {u h : Text} (absent : '@' ∉ u) (path : u.any pathChar = true) :
    userinfoScript (u ++ '@' :: h) = keep (u ++ '@' :: h) := by
  rcases userinfoScript_cases (u ++ '@' :: h) with ⟨u', h', split, absent', free', -⟩ | ⟨script, -⟩
  · obtain ⟨rfl, -⟩ := cut_at_first absent absent' split
    obtain ⟨d, mem, isPath⟩ := List.any_eq_true.mp path
    have := free' d mem
    rw [this] at isPath
    simp at isPath
  · exact script

/-- A stretch is scanned as one endpoint. -/
theorem singleScript_eq_scan {e : Text} (free : Free partEnd e) : singleScript e = some (scan e) := by
  unfold singleScript
  cases found : findStr schemeSeparator e with
  | none => rw [scan_clear (findStr_eq_none.mp found)]
  | some n =>
    obtain ⟨a, b, rfl, rfl, clear⟩ := cut_at_separator found
    have scanned : scan (a ++ (schemeSeparator ++ b)) = keep a ++ (keep schemeSeparator ++ userinfoScript b) := by
      have single := scan_url (a := b) (r := []) free.right.right Ends.nil
      rw [List.append_nil, scan_nil, List.append_nil] at single
      rw [scan_first clear, single]
    have authorityStart : len a + 3 = len (a ++ schemeSeparator) := by simp [len_schemeSeparator]
    have front (r : Text) : a ++ (schemeSeparator ++ r) = a ++ schemeSeparator ++ r := (List.append_assoc _ _ _).symm
    simp only [front, authorityStart, dropBytes_append, bind, Option.bind]
    rw [front] at scanned
    rw [scanned]
    cases at' : findChar (· == '@') b with
    | none =>
      have none' : ∀ c ∈ b, (c == '@') = false := findChar_eq_none.mp at'
      rcases userinfoScript_cases b with ⟨u, h, rfl, -⟩ | ⟨script, -⟩
      · have := none' '@' (by simp)
        simp at this
      · dsimp only
        rw [script, ← keep_append, ← keep_append, List.append_assoc]
    | some k =>
      obtain ⟨u, c, h, rfl, rfl, isAt, before⟩ := cut_of_findChar at'
      obtain rfl : c = '@' := by simpa using isAt
      have absent : '@' ∉ u := fun mem => by simpa using before '@' mem
      have one : len (a ++ schemeSeparator) + len u + 1 = len (a ++ schemeSeparator ++ u ++ ['@']) := by
        simp only [len_append]
        rfl
      have host : a ++ schemeSeparator ++ (u ++ '@' :: h) = a ++ schemeSeparator ++ u ++ ['@'] ++ h := by simp
      dsimp only
      rw [slice_append, takeBytes_append, one, host, dropBytes_append]
      dsimp only
      split
      · rename_i path
        rw [userinfoScript_path absent path, ← keep_append, ← keep_append]
        simp
      · rename_i path
        have free' : Free pathChar u := by
          intro d mem
          by_contra isPath
          exact path (List.any_eq_true.mpr ⟨d, mem, by simpa only [pathChar, Bool.not_eq_false] using isPath⟩)
        rw [userinfoScript_hides absent free', keep_append]
        simp [stars]

theorem endpointScript_eq_mapM (e : Text) :
    endpointScript e = ((e.splitOn ',').mapM singleScript).map (List.intercalate (keep [','])) := by
  unfold endpointScript
  cases (e.splitOn ',').mapM singleScript <;> rfl

/-- A word is scanned part by part. -/
theorem endpointScript_eq_scan {e : Text} (free : Free stopChar e) : endpointScript e = some (scan e) := by
  rw [endpointScript_eq_mapM]
  generalize size : e.length = n
  induction n using Nat.strong_induction_on generalizing e with
  | _ n ih =>
    obtain ⟨a, r, rfl, noComma, ends⟩ := exists_stretch (· == ',') e
    have part : Free partEnd a := by
      intro c mem
      simp [partEnd, free.left c mem, noComma c mem]
    have absent : ',' ∉ a := fun mem => by simpa using noComma ',' mem
    cases r with
    | nil =>
      rw [List.append_nil, List.splitOn_eq_singleton absent]
      simp [singleScript_eq_scan part]
    | cons c r =>
      obtain rfl : c = ',' := by simpa using ends c rfl
      have rest : ((r.splitOn ',').mapM singleScript).map (List.intercalate (keep [','])) = some (scan r) := by
        refine ih r.length ?_ (List.forall_mem_cons.mp free.right).2 rfl
        rw [← size]
        simp
        omega
      obtain ⟨scripts, mapped, joined⟩ := Option.map_eq_some_iff.mp rest
      have comma : ¬schemeSeparator <+: ',' :: r := by
        rintro ⟨b, split⟩
        simp [schemeSeparator_eq] at split
      rw [List.splitOn_append_cons_self_of_not_mem absent, List.mapM_cons, singleScript_eq_scan part, mapped]
      have nonempty : scripts ≠ [] := by
        intro empty
        cases parts : r.splitOn ',' with
        | nil => exact List.splitOn_ne_nil ',' r parts
        | cons part parts' =>
          rw [parts, empty, List.mapM_cons] at mapped
          obtain ⟨script, -, mapped⟩ := Option.bind_eq_some_iff.mp mapped
          obtain ⟨scripts', -, cons⟩ := Option.bind_eq_some_iff.mp mapped
          simp at cons
      have ends' : Ends partEnd (',' :: r) := by simp [Ends, partEnd]
      rw [scan_append ends', scan_skip comma, ← joined]
      simp [List.intercalate_cons_of_ne_nil nonempty]

end Endpoints

/-! ## Words -/

/-- What one pass of the loop consumes: text that is copied, the scheme in front of the `://` and the stretch behind it. -/
structure Word where
  plain : Text
  scheme : Text
  authority : Text

namespace Word

def front (w : Word) : Text := w.plain ++ w.scheme

def endpoint (w : Word) : Text := w.scheme ++ (schemeSeparator ++ w.authority)

def whole (w : Word) : Text := w.plain ++ w.endpoint

/-- The `://` is the first one, the scheme goes as far to the left as it can, the authority as far to the right. -/
structure Valid (w : Word) : Prop where
  clear : ¬schemeSeparator <:+: w.front
  scheme : Free (fun c => !schemeChar c) w.scheme
  edge : ∀ c ∈ w.plain.getLast?, schemeChar c = false
  authority : Free stopChar w.authority

/-- The character in front of the scheme has one byte. -/
def OneByteEdge (w : Word) : Prop := ∀ c ∈ w.plain.getLast?, c.utf8Size = 1

instance (w : Word) : Decidable w.OneByteEdge := inferInstanceAs (Decidable (∀ c ∈ w.plain.getLast?, c.utf8Size = 1))

end Word

/-- A text cut into words and what is left behind them. -/
def joinWords (ws : List Word) (tail : Text) : Text := ws.flatMap Word.whole ++ tail

/-- The cut that the loop makes. -/
def Cut : List Word → Text → Prop
  | [], tail => ¬schemeSeparator <:+: tail
  | w :: ws, tail => w.Valid ∧ Ends stopChar (joinWords ws tail) ∧ Cut ws tail

@[simp] theorem joinWords_nil (tail : Text) : joinWords [] tail = tail := rfl

theorem joinWords_cons (w : Word) (ws : List Word) (tail : Text) :
    joinWords (w :: ws) tail = w.front ++ (schemeSeparator ++ (w.authority ++ joinWords ws tail)) := by
  simp [joinWords, Word.whole, Word.endpoint, Word.front]

/-- Every text can be cut. -/
theorem exists_cut (t : Text) : ∃ ws tail, t = joinWords ws tail ∧ Cut ws tail := by
  generalize size : t.length = n
  induction n using Nat.strong_induction_on generalizing t with
  | _ n ih =>
    cases found : findStr schemeSeparator t with
    | none => exact ⟨[], t, rfl, findStr_eq_none.mp found⟩
    | some k =>
      obtain ⟨a, b, rfl, -, clear⟩ := cut_at_separator found
      obtain ⟨authority, rest, rfl, free, ends⟩ := exists_stretch stopChar b
      obtain ⟨scheme, plain, split, freeScheme, edge⟩ := exists_stretch (fun c => !schemeChar c) a.reverse
      obtain ⟨ws, tail, rfl, cut⟩ := ih rest.length (by rw [← size]; simp [schemeSeparator_eq]; omega) rest rfl
      have front : a = plain.reverse ++ scheme.reverse := by
        rw [← List.reverse_append, ← split, List.reverse_reverse]
      refine ⟨⟨plain.reverse, scheme.reverse, authority⟩ :: ws, tail, ?_, ⟨?_, ?_, ?_, free⟩, ends, cut⟩
      · rw [joinWords_cons, Word.front, front]
      · rwa [Word.front, ← front]
      · intro c mem
        exact freeScheme c (List.mem_reverse.mp mem)
      · intro c last
        rw [List.getLast?_reverse] at last
        simpa using edge c last

section Passes

variable {w : Word} {ws : List Word} {tail pre rest : Text}

/-- Reading a text from left to right reads its words. -/
theorem scan_joinWords (valid : w.Valid) (ends : Ends stopChar rest) :
    scan (w.front ++ (schemeSeparator ++ (w.authority ++ rest))) = keep w.plain ++ scan w.endpoint ++ scan rest := by
  have ends' : Ends partEnd rest := fun c first => partEnd_of_stopChar (ends c first)
  have clear : ¬schemeSeparator <:+: w.scheme := fun inside => valid.clear (inside.trans (List.suffix_append _ _).isInfix)
  rw [scan_first valid.clear, ← List.append_assoc schemeSeparator, scan_append ends', Word.endpoint, scan_first clear,
    Word.front, keep_append]
  simp

/-- In front of a stop character there is text to copy. -/
theorem plain_ne_nil (valid : w.Valid) (ends : Ends stopChar (joinWords (w :: ws) tail)) : w.plain ≠ [] := by
  intro empty
  rw [joinWords_cons, Word.front, empty, List.nil_append] at ends
  cases scheme : w.scheme with
  | nil =>
    have colon := ends ':' (by rw [scheme]; rfl)
    exact absurd colon (by decide)
  | cons c cs =>
    have stop := ends c (by rw [scheme]; rfl)
    have isScheme : schemeChar c = true := by
      simpa using valid.scheme c (by rw [scheme]; exact List.mem_cons_self)
    exact absurd isScheme (by rw [not_schemeChar stop]; decide)

/-- A word ends where its authority does. -/
theorem consumeEndpointPrefix_eq (valid : w.Valid) (ends : Ends stopChar rest) :
    consumeEndpointPrefix (w.endpoint ++ rest) = some (len w.endpoint) := by
  have clear : ¬schemeSeparator <:+: w.scheme := fun inside => valid.clear (inside.trans (List.suffix_append _ _).isInfix)
  have split : w.endpoint ++ rest = w.scheme ++ (schemeSeparator ++ (w.authority ++ rest)) := by simp [Word.endpoint]
  have front : w.scheme ++ (schemeSeparator ++ (w.authority ++ rest)) = w.scheme ++ schemeSeparator ++ (w.authority ++ rest) :=
    (List.append_assoc _ _ _).symm
  have afterScheme : len w.scheme + 3 = len (w.scheme ++ schemeSeparator) := by simp [len_schemeSeparator]
  have stop : (findChar stopChar (w.authority ++ rest)).getD (len (w.authority ++ rest)) = len w.authority := by
    cases rest with
    | nil => simp [findChar_eq_none.mpr valid.authority]
    | cons c rest => rw [findChar_append valid.authority (ends c rfl), Option.getD_some]
  have total : len w.endpoint = len (w.scheme ++ schemeSeparator) + len w.authority := by
    simp [Word.endpoint, Nat.add_assoc]
  unfold consumeEndpointPrefix
  rw [split, findStr_separator clear]
  dsimp only
  rw [afterScheme, front, dropBytes_append, total, ← stop]
  rfl

/-- Where the loop finds the scheme to start, if the character in front of it has one byte. -/
theorem schemeStart_eq (valid : w.Valid) (edge : w.OneByteEdge) (edged : pre = [] ∨ w.plain ≠ []) :
    (match rfindChar (fun c => !schemeChar c) (pre ++ w.front) with
      | some j => j + 1
      | none => len pre) = len (pre ++ w.plain) := by
  rcases List.eq_nil_or_concat w.plain with empty | ⟨p, c, split⟩
  · obtain rfl : pre = [] := edged.resolve_right (by simp [empty])
    have none' : ∀ c ∈ w.front, (!schemeChar c) = false := by
      rw [Word.front, empty]
      exact valid.scheme
    rw [List.nil_append, rfindChar_eq_none none', empty]
    rfl
  · have last : w.plain.getLast? = some c := by simp [split]
    have found := rfindChar_append (s := pre ++ p) (p := fun c => !schemeChar c) (c := c)
      (by simp [valid.edge c last]) valid.scheme
    have text : pre ++ w.front = pre ++ p ++ c :: w.scheme := by simp [Word.front, split]
    rw [text, found, split]
    simp [edge c last, Nat.add_assoc]

/-- Otherwise the slice in front of the scheme starts or ends inside that character. -/
theorem slice_eq_none (pre rest : Text) (valid : w.Valid) (wide : ¬w.OneByteEdge) :
    ∃ j, rfindChar (fun c => !schemeChar c) (pre ++ w.front) = some j ∧
      slice (pre ++ (w.front ++ rest)) (len pre) (j + 1) = none := by
  obtain ⟨c, last, size⟩ : ∃ c, w.plain.getLast? = some c ∧ c.utf8Size ≠ 1 := by
    simpa [Word.OneByteEdge] using wide
  obtain ⟨p, split⟩ : ∃ p, w.plain = p ++ [c] := List.getLast?_eq_some_iff.mp last
  have found := rfindChar_append (s := pre ++ p) (p := fun c => !schemeChar c) (c := c)
    (by simp [valid.edge c last]) valid.scheme
  have text : pre ++ w.front = pre ++ p ++ c :: w.scheme := by simp [Word.front, split]
  refine ⟨len (pre ++ p), by rw [text, found], ?_⟩
  cases sliced : slice (pre ++ (w.front ++ rest)) (len pre) (len (pre ++ p) + 1) with
  | none => rfl
  | some m =>
    obtain ⟨q, r, cut, lens⟩ := boundary_of_slice sliced
    have whole : pre ++ p ++ c :: (w.scheme ++ rest) = q ++ r := by
      rw [← cut, ← List.append_assoc pre, text]
      simp
    obtain ⟨between, rfl, tailEq⟩ := append_split_len whole (by omega)
    cases between with
    | nil => simp at lens
    | cons d between =>
      obtain ⟨rfl, -⟩ := List.cons.inj tailEq
      have := c.utf8Size_pos
      rw [len_append (pre ++ p), len_cons] at lens
      omega

theorem free_endpoint (valid : w.Valid) : Free stopChar w.endpoint := by
  refine .append (fun c mem => ?_) (.append (by decide) valid.authority)
  by_contra stop
  have isScheme : schemeChar c = true := by simpa using valid.scheme c mem
  rw [not_schemeChar (by simpa using stop)] at isScheme
  simp at isScheme

/-- The search of a pass: the rest of the text, the first `://` in it and all that is in front of that. -/
theorem search_eq (pre rest : Text) (valid : w.Valid) :
    len pre < len (pre ++ (w.front ++ (schemeSeparator ++ rest))) ∧
      dropBytes (len pre) (pre ++ (w.front ++ (schemeSeparator ++ rest))) = some (w.front ++ (schemeSeparator ++ rest)) ∧
      findStr schemeSeparator (w.front ++ (schemeSeparator ++ rest)) = some (len w.front) ∧
      takeBytes (len pre + len w.front) (pre ++ (w.front ++ (schemeSeparator ++ rest))) = some (pre ++ w.front) := by
  refine ⟨?_, dropBytes_append _ _, findStr_separator valid.clear, ?_⟩
  · rw [len_append, len_append, len_append, len_schemeSeparator]
    omega
  · rw [← List.append_assoc, ← len_append, takeBytes_append]

/-- One pass of the loop. -/
theorem scriptLoop_pass {fuel : Nat} {out : EditScript} (valid : w.Valid) (edge : w.OneByteEdge) (edged : pre = [] ∨ w.plain ≠ [])
    (ends : Ends stopChar rest) :
    scriptLoop (pre ++ (w.whole ++ rest)) (fuel + 1) (len pre) out =
      scriptLoop (pre ++ (w.whole ++ rest)) fuel (len (pre ++ w.whole)) (out ++ keep w.plain ++ scan w.endpoint) := by
  have cut : w.whole ++ rest = w.front ++ (schemeSeparator ++ (w.authority ++ rest)) := by
    simp [Word.whole, Word.endpoint, Word.front]
  obtain ⟨inside, dropped, found, before⟩ := search_eq pre (w.authority ++ rest) valid
  rw [← cut] at inside dropped found before
  have plain : slice (pre ++ (w.whole ++ rest)) (len pre) (len (pre ++ w.plain)) = some w.plain := by
    rw [Word.whole, List.append_assoc, len_append, slice_append]
  have behind : pre ++ (w.whole ++ rest) = pre ++ w.plain ++ (w.endpoint ++ rest) := by simp [Word.whole]
  have tail : dropBytes (len (pre ++ w.plain)) (pre ++ (w.whole ++ rest)) = some (w.endpoint ++ rest) := by
    rw [behind, dropBytes_append]
  have next : len (pre ++ w.plain) + len w.endpoint = len (pre ++ w.whole) := by simp [Word.whole, Nat.add_assoc]
  have endpoint : slice (pre ++ (w.whole ++ rest)) (len (pre ++ w.plain)) (len (pre ++ w.whole)) = some w.endpoint := by
    rw [← next, behind, slice_append]
  rw [scriptLoop, if_pos inside, dropped]
  simp only [bind, Option.bind, found, before, schemeStart_eq valid edge edged, plain, tail,
    consumeEndpointPrefix_eq valid ends, endpoint, endpointScript_eq_scan (free_endpoint valid), next]

/-- A pass that panics. -/
theorem scriptLoop_panics {fuel : Nat} {out : EditScript} (valid : w.Valid) (wide : ¬w.OneByteEdge) :
    scriptLoop (pre ++ (w.whole ++ rest)) (fuel + 1) (len pre) out = none := by
  have cut : w.whole ++ rest = w.front ++ (schemeSeparator ++ (w.authority ++ rest)) := by
    simp [Word.whole, Word.endpoint, Word.front]
  obtain ⟨inside, dropped, found, before⟩ := search_eq pre (w.authority ++ rest) valid
  obtain ⟨j, scheme, sliced⟩ := slice_eq_none pre (schemeSeparator ++ (w.authority ++ rest)) valid wide
  rw [cut, scriptLoop, if_pos inside, dropped]
  simp only [bind, Option.bind, found, before, scheme, sliced]

/-- The rest of the loop, word by word. -/
theorem scriptLoop_cut {fuel : Nat} {out : EditScript} (cut : Cut ws tail) (start : pre = [] ∨ Ends stopChar (joinWords ws tail))
    (enough : ws.length < fuel) :
    scriptLoop (pre ++ joinWords ws tail) fuel (len pre) out =
      if ∀ w ∈ ws, w.OneByteEdge then some (out ++ scan (joinWords ws tail)) else none := by
  obtain ⟨fuel, rfl⟩ : ∃ n, fuel = n + 1 := ⟨fuel - 1, by omega⟩
  induction ws generalizing pre fuel out with
  | nil =>
    rw [if_pos (by simp), joinWords_nil, scan_clear cut, scriptLoop]
    cases tail with
    | nil => simp
    | cons c tail =>
      have inside : len pre < len (pre ++ c :: tail) := by
        have := len_pos (List.cons_ne_nil c tail)
        rw [len_append]
        omega
      rw [if_pos inside, dropBytes_append, Option.bind_eq_bind, Option.bind_some, findStr_eq_none.mpr cut]
  | cons w ws ih =>
    obtain ⟨valid, ends, cut⟩ := cut
    have edged : pre = [] ∨ w.plain ≠ [] := start.imp_right (plain_ne_nil valid)
    have whole : joinWords (w :: ws) tail = w.whole ++ joinWords ws tail := by simp [joinWords]
    have scanned : scan (joinWords (w :: ws) tail) = keep w.plain ++ scan w.endpoint ++ scan (joinWords ws tail) := by
      rw [joinWords_cons, scan_joinWords valid ends]
    by_cases edge : w.OneByteEdge
    · obtain ⟨fuel, rfl⟩ : ∃ n, fuel = n + 1 := ⟨fuel - 1, by simp at enough; omega⟩
      have all : (∀ v ∈ w :: ws, v.OneByteEdge) ↔ ∀ v ∈ ws, v.OneByteEdge := by simp [edge]
      rw [scanned, whole, scriptLoop_pass valid edge edged ends, ← List.append_assoc,
        ih cut (.inr ends) fuel (by simpa using enough)]
      simp only [all, List.append_assoc]
    · rw [whole, scriptLoop_panics valid edge, if_neg fun all => edge (all w List.mem_cons_self)]

end Passes

theorem length_le_len (ws : List Word) (tail : Text) : ws.length ≤ len (joinWords ws tail) := by
  induction ws with
  | nil => simp
  | cons w ws ih =>
    rw [joinWords_cons]
    simp [len_schemeSeparator]
    omega

/-- The script of a cut text is that of reading it from left to right, unless a scheme follows a wide character. -/
theorem redactScript_joinWords {ws : List Word} {tail : Text} (cut : Cut ws tail) :
    redactScript (joinWords ws tail) =
      if ∀ w ∈ ws, w.OneByteEdge then some (scan (joinWords ws tail)) else none := by
  have enough := length_le_len ws tail
  have loop : scriptLoop ([] ++ joinWords ws tail) (len (joinWords ws tail) + 1) (len []) [] = _ :=
    scriptLoop_cut cut (.inl rfl) (by omega)
  simpa [redactScript] using loop

/-- If redaction returns, its script is `scan`. -/
theorem redactScript_eq_scan {t : Text} {script : EditScript} (returns : redactScript t = some script) : script = scan t := by
  obtain ⟨ws, tail, rfl, cut⟩ := exists_cut t
  rw [redactScript_joinWords cut] at returns
  split at returns
  · exact (Option.some.inj returns).symm
  · simp at returns

theorem redactCredentialsInText_eq (text : String) :
    redactCredentialsInText text = (redactScript text.toList).map fun script => String.ofList (target script) := by
  unfold redactCredentialsInText redactScript
  rw [show ([] : Text) = target [] from rfl, redactLoop_eq, Option.map_map]
  rfl

/-! ## Panics -/

/-- The text in front of a `://`: since any earlier one in it a stop character has come. -/
def FirstInStretch (a : Text) : Prop := ∀ x m, a = x ++ (schemeSeparator ++ m) → ∃ c ∈ m, stopChar c = true

/-- The last character of the text that is none of a scheme, if there is one, has one byte. -/
def OneByteBefore (a : Text) : Prop :=
  ∀ u c v, a = u ++ c :: v → schemeChar c = false → Free (fun d => !schemeChar d) v → c.utf8Size = 1

section Panics

variable {w : Word} {ws : List Word} {tail pre : Text}

/-- In front of its first `://` a word decides by the edge of its scheme. -/
theorem oneByteBefore_front (valid : w.Valid) (edged : pre = [] ∨ w.plain ≠ []) :
    OneByteBefore (pre ++ w.front) ↔ w.OneByteEdge := by
  rcases List.eq_nil_or_concat w.plain with empty | ⟨p, c, split⟩
  · obtain rfl : pre = [] := edged.resolve_right (by simp [empty])
    have scheme : w.front = w.scheme := by simp [Word.front, empty]
    constructor
    · intro _ c last
      simp [empty] at last
    · intro _ u c v cut outside _
      have inside := valid.scheme c (by rw [← scheme, ← List.nil_append w.front, cut]; simp)
      simp [outside] at inside
  · have last : w.plain.getLast? = some c := by simp [split]
    have text : pre ++ w.front = (pre ++ p) ++ c :: w.scheme := by simp [Word.front, split]
    constructor
    · intro narrow d same
      obtain rfl : c = d := by simpa [last] using same
      exact narrow (pre ++ p) c w.scheme text (valid.edge c last) valid.scheme
    · intro edge u d v cut outside inside
      have found := rfindChar_append (s := pre ++ p) (p := fun d => !schemeChar d) (c := c) (by simp [valid.edge c last])
        valid.scheme
      have found' := rfindChar_append (s := u) (p := fun d => !schemeChar d) (c := d) (by simp [outside]) inside
      rw [← text, cut, found'] at found
      obtain ⟨-, same⟩ := append_inj_len (text.symm.trans cut) (Option.some.inj found).symm
      rw [← (List.cons.inj same).1]
      exact edge c last

/-- The `://` of a word is the first of its stretch; behind it the next one to be is in a later word. -/
theorem separator_joinWords (valid : w.Valid) (ends : Ends stopChar (joinWords ws tail)) {a b : Text}
    (split : joinWords (w :: ws) tail = a ++ (schemeSeparator ++ b)) (first : FirstInStretch a) :
    a = w.front ∨ ∃ a', a = w.whole ++ a' ∧ joinWords ws tail = a' ++ (schemeSeparator ++ b) := by
  have ends' : Ends partEnd (joinWords ws tail) := fun c head => partEnd_of_stopChar (ends c head)
  have whole : w.whole = w.front ++ (schemeSeparator ++ w.authority) := by simp [Word.whole, Word.endpoint, Word.front]
  have joined : joinWords (w :: ws) tail = w.whole ++ joinWords ws tail := by simp [joinWords]
  rw [joined] at split
  rcases separator_append_ends ends' split with ⟨b', inside, -⟩ | behind
  · left
    rw [whole] at inside
    rcases separator_append inside with ⟨b'', front, -⟩ | ⟨m, rfl, rest⟩ | ⟨y', -, cut⟩
    · exact absurd ⟨a, b'', by rw [front, List.append_assoc]⟩ valid.clear
    · cases m with
      | nil => simp
      | cons c m =>
        obtain ⟨n, next, authority⟩ := separator_next (List.cons_ne_nil c m) rest
        obtain ⟨d, mem, stop⟩ := first w.front n (by rw [next])
        rw [valid.authority d (by rw [authority]; simp [mem])] at stop
        simp at stop
    · simp [schemeSeparator_eq] at cut
  · exact .inr behind

/-- A later `://` is the first of its stretch whatever words are in front of it. -/
theorem firstInStretch_append (ends : Ends stopChar (joinWords ws tail)) {a b front : Text}
    (split : joinWords ws tail = a ++ (schemeSeparator ++ b)) : FirstInStretch (front ++ a) ↔ FirstInStretch a := by
  rw [split] at ends
  obtain ⟨c, a, rfl, stop⟩ := exists_head_of_ends ends (by decide)
  have ends' : Ends partEnd (c :: a) := by simpa [Ends] using partEnd_of_stopChar stop
  constructor
  · intro first x m inside
    exact first (front ++ x) m (by rw [inside, List.append_assoc])
  · intro first x m inside
    rcases separator_append_ends ends' inside with ⟨m', -, rfl⟩ | ⟨x', -, inside'⟩
    · exact ⟨c, by simp, stop⟩
    · exact first x' m inside'

/-- The words of a cut have narrow edges exactly if the text has them in front of the first `://` of each stretch. -/
theorem oneByteEdges_iff (pre : Text) (cut : Cut ws tail) (start : pre = [] ∨ Ends stopChar (joinWords ws tail)) :
    (∀ w ∈ ws, w.OneByteEdge) ↔
      ∀ a b, joinWords ws tail = a ++ (schemeSeparator ++ b) → FirstInStretch a → OneByteBefore (pre ++ a) := by
  induction ws generalizing pre with
  | nil =>
    refine iff_of_true (by simp) fun a b split _ => ?_
    exact absurd ⟨a, b, by rw [List.append_assoc]; exact split.symm⟩ cut
  | cons w ws ih =>
    obtain ⟨valid, ends, cut⟩ := cut
    have edged : pre = [] ∨ w.plain ≠ [] := start.imp_right (plain_ne_nil valid)
    have joined : joinWords (w :: ws) tail = w.whole ++ joinWords ws tail := by simp [joinWords]
    rw [List.forall_mem_cons, ← oneByteBefore_front valid edged, ih (pre ++ w.whole) cut (.inr ends)]
    constructor
    · intro ⟨front, later⟩ a b split first
      rcases separator_joinWords valid ends split first with rfl | ⟨a', rfl, split'⟩
      · exact front
      · rw [← List.append_assoc]
        exact later a' b split' ((firstInStretch_append ends split').mp first)
    · intro all
      constructor
      · refine all w.front _ (joinWords_cons w ws tail) fun x m inside => ?_
        exact absurd ⟨x, m, by rw [List.append_assoc]; exact inside.symm⟩ valid.clear
      · intro a b split first
        rw [List.append_assoc]
        exact all (w.whole ++ a) b (by rw [joined, split, List.append_assoc]) ((firstInStretch_append ends split).mpr first)

end Panics

/-- `redact_credentials_in_text` returns exactly if, in front of the first `://` of each stretch, the last character
that is none of a scheme has one byte. More fuel changes nothing, so where it does not return it panics. -/
theorem redactCredentialsInText_isSome_iff (text : String) :
    ((redactCredentialsInText text).isSome = true ↔
      ∀ a b, text.toList = a ++ (schemeSeparator ++ b) → FirstInStretch a → OneByteBefore a) ∧
    ∀ extra, redactLoop text.toList (len text.toList + 1 + extra) 0 [] = redactLoop text.toList (len text.toList + 1) 0 [] := by
  obtain ⟨ws, tail, split, cut⟩ := exists_cut text.toList
  have enough := length_le_len ws tail
  constructor
  · have edges := oneByteEdges_iff [] cut (.inl rfl)
    simp only [List.nil_append] at edges
    rw [redactCredentialsInText_eq, split, Option.isSome_map, redactScript_joinWords cut, ← edges]
    split <;> simp_all
  · intro extra
    have loop (fuel : Nat) (more : len (joinWords ws tail) < fuel) :
        redactLoop (joinWords ws tail) fuel 0 [] =
          if ∀ w ∈ ws, w.OneByteEdge then some (target (scan (joinWords ws tail))) else none := by
      have run : scriptLoop ([] ++ joinWords ws tail) fuel (len []) [] = _ := scriptLoop_cut cut (.inl rfl) (by omega)
      simp only [List.nil_append, len_nil] at run
      rw [show ([] : Text) = target [] from rfl, redactLoop_eq, run]
      split <;> rfl
    rw [split, loop _ (by omega), loop _ (by omega)]

/-- A URL behind a typographic quote. -/
theorem redactCredentialsInText_panics : redactCredentialsInText "no route to “http://h" = none := by
  decide +kernel

/-! ## Credentials -/

section Credentials

variable {text out : String}

/-- A redaction that returns is the one `scan` describes. -/
theorem target_of_returns (returns : redactCredentialsInText text = some out) :
    redactScript text.toList = some (scan text.toList) ∧ target (scan text.toList) = out.toList := by
  rw [redactCredentialsInText_eq] at returns
  obtain ⟨script, found, written⟩ := Option.map_eq_some_iff.mp returns
  obtain rfl := redactScript_eq_scan found
  exact ⟨found, by rw [← written, String.toList_ofList]⟩

/-- The script of a redaction that returns hides every userinfo exactly if each is behind the first `://` of its part
and has neither an at-sign nor a comma in it. -/
theorem hidesUserinfo_iff (returns : redactCredentialsInText text = some out) :
    ∃ script, redactScript text.toList = some script ∧ source script = text.toList ∧ target script = out.toList ∧
      ((∀ x u, Userinfo text.toList x u → HiddenAt script x u) ↔
        ∀ x u, Userinfo text.toList x u → FirstInPart x ∧ '@' ∉ u ∧ ',' ∉ u) := by
  obtain ⟨found, written⟩ := target_of_returns returns
  refine ⟨scan text.toList, found, source_scan _, written, ?_⟩
  constructor
  · intro all x u userinfo
    obtain ⟨front, back, script, separator⟩ := all x u userinfo
    obtain ⟨y, hidden⟩ := swapped_scan script
    obtain rfl : x = y := List.append_cancel_right (separator.symm.trans hidden.separator)
    exact ⟨hidden.first, hidden.absent, fun comma => by simpa [partEnd] using hidden.part ',' comma⟩
  · intro all x u userinfo
    obtain ⟨first, atSign, comma⟩ := all x u userinfo
    exact hiddenAt_scan userinfo first atSign comma

/-- Two URLs in one word, each with its own userinfo. -/
theorem hidesUserinfo_two :
    ∃ script, redactScript "a://u:p@h,b://v@k".toList = some script ∧ target script = "a://***@h,b://***@k".toList ∧
      ((∀ x u, Userinfo "a://u:p@h,b://v@k".toList x u → HiddenAt script x u) ↔
        ∀ x u, Userinfo "a://u:p@h,b://v@k".toList x u → FirstInPart x ∧ '@' ∉ u ∧ ',' ∉ u) := by
  have returns : redactCredentialsInText "a://u:p@h,b://v@k" = some "a://***@h,b://***@k" := by decide +kernel
  obtain ⟨script, found, -, written, hides⟩ := hidesUserinfo_iff returns
  exact ⟨script, found, written, hides⟩

/-- A password with an at-sign: the end of it stays. -/
theorem userinfo_not_hidden :
    redactCredentialsInText "a://u:p@ss@h" = some "a://***@ss@h" ∧ Userinfo "a://u:p@ss@h".toList "a".toList "u:p@ss".toList ∧
      ∀ script, redactScript "a://u:p@ss@h".toList = some script → ¬HiddenAt script "a".toList "u:p@ss".toList := by
  refine ⟨by decide +kernel, ⟨"h".toList, [], by decide, by decide +kernel, Ends.nil, by decide, ?_⟩, ?_⟩
  · intro v w split
    cases v with
    | nil => simp at split
    | cons c v => simp at split
  · intro script found ⟨front, back, cut, separator⟩
    obtain rfl := redactScript_eq_scan found
    obtain ⟨x, hidden⟩ := swapped_scan cut
    exact hidden.absent (by decide)

/-- The output of a word is a word with the same text in front of its `://`. -/
theorem redacted_word {w : Word} (valid : w.Valid) :
    ∃ authority, target (scan w.endpoint) = w.scheme ++ (schemeSeparator ++ authority) ∧ Free stopChar authority := by
  have clear : ¬schemeSeparator <:+: w.scheme := fun inside => valid.clear (inside.trans (List.suffix_append _ _).isInfix)
  obtain ⟨a, r, split, free, ends⟩ := exists_stretch partEnd w.authority
  have output : target (scan w.endpoint) = w.scheme ++ (schemeSeparator ++ target (userinfoScript a ++ scan r)) := by
    rw [Word.endpoint, scan_first clear, split, scan_url free ends]
    simp
  refine ⟨_, output, ?_⟩
  have freeOutput := free_target_scan (p := stopChar) (by decide) (free_endpoint valid)
  rw [output] at freeOutput
  exact freeOutput.right.right

/-- The output of a cut is a cut, with the same characters in front of the schemes. -/
theorem cut_output {ws : List Word} {tail : Text} (cut : Cut ws tail) (narrow : ∀ w ∈ ws, w.OneByteEdge) :
    ∃ ws' tail', target (scan (joinWords ws tail)) = joinWords ws' tail' ∧ Cut ws' tail' ∧ ∀ w ∈ ws', w.OneByteEdge := by
  induction ws with
  | nil => exact ⟨[], tail, by rw [joinWords_nil, scan_clear cut, target_keep], cut, by simp⟩
  | cons w ws ih =>
    obtain ⟨valid, ends, cut⟩ := cut
    obtain ⟨edge, narrow⟩ := List.forall_mem_cons.mp narrow
    obtain ⟨ws', tail', joined, cut', narrow'⟩ := ih cut narrow
    obtain ⟨authority, output, free⟩ := redacted_word valid
    refine ⟨⟨w.plain, w.scheme, authority⟩ :: ws', tail', ?_, ⟨⟨valid.clear, valid.scheme, valid.edge, free⟩, ?_, cut'⟩,
      List.forall_mem_cons.mpr ⟨edge, narrow'⟩⟩
    · rw [joinWords_cons, joinWords_cons, scan_joinWords valid ends]
      simp [output, joined, Word.front]
    · rw [← joined]
      exact ends_target_scan ends

/-- What a redaction that returns gives is a fixed point. -/
theorem redact_twice (returns : redactCredentialsInText text = some out) : redactCredentialsInText out = some out := by
  obtain ⟨found, written⟩ := target_of_returns returns
  obtain ⟨ws, tail, split, cut⟩ := exists_cut text.toList
  have narrow : ∀ w ∈ ws, w.OneByteEdge := by
    rw [split, redactScript_joinWords cut] at found
    by_contra wide
    rw [if_neg wide] at found
    simp at found
  obtain ⟨ws', tail', joined, cut', narrow'⟩ := cut_output cut narrow
  have output : out.toList = joinWords ws' tail' := by rw [← written, split, joined]
  rw [redactCredentialsInText_eq, output, redactScript_joinWords cut', if_pos narrow', Option.map_some, ← output, ← written,
    target_scan_twice, written, String.ofList_toList]

/-- Redacting twice is redacting once; only what stands between a `://` and an at-sign is replaced; and a text without
`://` is left as it is. -/
theorem redactCredentialsInText_idempotent :
    (∀ text out, redactCredentialsInText text = some out →
      redactCredentialsInText out = some out ∧
        ∃ script, redactScript text.toList = some script ∧ source script = text.toList ∧ target script = out.toList ∧
          ∀ front old new back, script = front ++ .swapped old new :: back →
            new = "***".toList ∧ (∃ x, source front = x ++ schemeSeparator) ∧ ∃ h, source back = '@' :: h) ∧
    ∀ text, ¬schemeSeparator <:+: text.toList → redactCredentialsInText text = some text := by
  constructor
  · intro text out returns
    obtain ⟨found, written⟩ := target_of_returns returns
    refine ⟨redact_twice returns, scan text.toList, found, source_scan _, written, fun front old new back script => ?_⟩
    obtain ⟨x, hidden⟩ := swapped_scan script
    exact ⟨hidden.stars, ⟨x, hidden.separator⟩, hidden.atSign⟩
  · intro text clear
    have cut : Cut [] text.toList := clear
    have found := redactScript_joinWords cut
    rw [if_pos (by simp), joinWords_nil] at found
    rw [redactCredentialsInText_eq, found, Option.map_some, scan_clear clear, target_keep, String.ofList_toList]

/-- A redacted text with a second URL is redacted once more. -/
theorem redactCredentialsInText_idempotent_two :
    redactCredentialsInText "a://***@h b://***@k" = some "a://***@h b://***@k" :=
  (redactCredentialsInText_idempotent.1 "a://u:p@h b://v@k" "a://***@h b://***@k" (by decide +kernel)).1

end Credentials

end Chronon.Redaction
