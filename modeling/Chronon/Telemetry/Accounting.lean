import Mathlib.Algebra.Order.BigOperators.Group.List
import Mathlib.Algebra.Order.Ring.Nat
import Chronon.Telemetry.LogCapture

/-!
# What a capture holds

The history says which lines were offered since the streams were last emptied.
`used` counts the bytes of both streams in every history; while the lines fit
into the budget, each stream is its lines joined by newlines.
-/

namespace Chronon.Telemetry
set_option autoImplicit false

open Text

/-- The lines of the history since its streams were last emptied, the latest last. -/
def linesSince (lines : List (Bool × Text)) : List Op → List (Bool × Text)
  | [] => lines
  | .append toStderr line :: ops => linesSince (if line = [] then lines else lines ++ [(toStderr, line)]) ops
  | .enter :: ops => linesSince [] ops
  | .finish :: ops => linesSince [] ops
  | .drop :: ops => linesSince [] ops

/-- The lines that went to one stream. -/
def ofStream (toStderr : Bool) (lines : List (Bool × Text)) : List Text :=
  (lines.filter (·.1 = toStderr)).map Prod.snd

/-- The bytes of lines and of one separator between each two. -/
def joinedLen (lines : List Text) : Nat := (lines.map len).sum + (lines.length - 1)

/-- What all the lines need of the budget. -/
def needed (lines : List (Bool × Text)) : Nat := joinedLen (ofStream false lines) + joinedLen (ofStream true lines)

/-- Lines joined by newlines. -/
def joined (lines : List Text) : Text := List.intercalate ['\n'] lines

section Joined

variable {lines : List Text}

theorem joined_snoc (line : Text) :
    joined (lines ++ [line]) = joined lines ++ (if lines ≠ [] then ['\n'] else []) ++ line := by
  unfold joined
  induction lines with
  | nil => simp
  | cons first rest ih =>
    rw [List.cons_append, List.intercalate_cons_of_ne_nil (by simp), ih]
    cases rest with
    | nil => simp
    | cons second rest => simp [List.intercalate_cons_of_ne_nil]

theorem len_joined : len (joined lines) = joinedLen lines := by
  induction lines using List.reverseRecOn with
  | nil => rfl
  | append_singleton lines line ih =>
    rw [joined_snoc, len_append, len_append, ih]
    unfold joinedLen
    cases lines with
    | nil => simp
    | cons first rest =>
      have newline : len ['\n'] = 1 := rfl
      simp [newline]
      omega

theorem joined_eq_nil (nonempty : ∀ line ∈ lines, line ≠ []) : joined lines = [] ↔ lines = [] := by
  constructor
  · intro empty
    have zero : len (joined lines) = joinedLen lines := len_joined
    cases lines with
    | nil => rfl
    | cons first rest =>
      have := len_pos (nonempty first List.mem_cons_self)
      rw [empty] at zero
      simp [joinedLen] at zero
      omega
  · intro empty
    rw [empty]
    rfl

end Joined

theorem ofStream_snoc (toStderr other : Bool) (lines : List (Bool × Text)) (line : Text) :
    ofStream other (lines ++ [(toStderr, line)]) =
      if other = toStderr then ofStream other lines ++ [line] else ofStream other lines := by
  unfold ofStream
  cases toStderr <;> cases other <;> simp

theorem mem_ofStream {toStderr : Bool} {lines : List (Bool × Text)} {line : Text} (mem : line ∈ ofStream toStderr lines) :
    (toStderr, line) ∈ lines := by
  simpa [ofStream] using mem

/-- What one more line needs. -/
theorem needed_snoc (toStderr : Bool) (lines : List (Bool × Text)) (line : Text) :
    needed (lines ++ [(toStderr, line)]) =
      needed lines + (if ofStream toStderr lines ≠ [] then 1 else 0) + len line := by
  have one (ls : List Text) : joinedLen (ls ++ [line]) = joinedLen ls + (if ls ≠ [] then 1 else 0) + len line := by
    rw [← len_joined, joined_snoc, len_append, len_append, len_joined]
    split <;> rfl
  unfold needed
  rw [ofStream_snoc, ofStream_snoc]
  cases toStderr with
  | false =>
    rw [if_pos rfl, if_neg (by decide), one]
    omega
  | true =>
    rw [if_neg (by decide), if_pos rfl, one]
    omega

/-- The state of a capture that was offered `lines` since its streams were last emptied. -/
structure Accounted (maxBytes : Nat) (lines : List (Bool × Text)) (g : CaptureInner) : Prop where
  budget : g.maxBytes = maxBytes
  used : g.used = len g.stdout + len g.stderr
  within : g.used ≤ maxBytes
  nonempty : ∀ line ∈ lines, line.2 ≠ []
  kept : needed lines ≤ maxBytes → ∀ toStderr, g.dest toStderr = joined (ofStream toStderr lines)

namespace Accounted

variable {maxBytes : Nat} {lines : List (Bool × Text)} {g : CaptureInner}

/-- An emptied capture. -/
theorem emptied {active : Bool} : Accounted maxBytes [] ⟨maxBytes, 0, [], [], active⟩ where
  budget := rfl
  used := rfl
  within := Nat.zero_le maxBytes
  nonempty := by simp
  kept := by
    intro _ toStderr
    cases toStderr <;> rfl

/-- While the lines fit, they are what the budget is used for. -/
theorem used_eq_needed (accounted : Accounted maxBytes lines g) (fits : needed lines ≤ maxBytes) :
    g.used = needed lines := by
  have stdout : g.stdout = joined (ofStream false lines) := accounted.kept fits false
  have stderr : g.stderr = joined (ofStream true lines) := accounted.kept fits true
  rw [accounted.used, stdout, stderr, len_joined, len_joined, needed]

/-- While the lines fit, a stream gets a separator exactly when it has had a line. -/
theorem separator_eq (accounted : Accounted maxBytes lines g) (fits : needed lines ≤ maxBytes) (toStderr : Bool) :
    g.separator toStderr = if ofStream toStderr lines ≠ [] then ['\n'] else [] := by
  have empty : joined (ofStream toStderr lines) = [] ↔ ofStream toStderr lines = [] :=
    joined_eq_nil fun line mem => accounted.nonempty _ (mem_ofStream mem)
  unfold CaptureInner.separator
  rw [accounted.kept fits toStderr]
  simp only [ne_eq, empty]

theorem nonempty_snoc (accounted : Accounted maxBytes lines g) (toStderr : Bool) {line : Text} (nonempty : line ≠ []) :
    ∀ entry ∈ lines ++ [(toStderr, line)], entry.2 ≠ [] := by
  intro entry mem
  rcases List.mem_append.mp mem with old | new
  · exact accounted.nonempty entry old
  · obtain rfl := List.mem_singleton.mp new
    exact nonempty

/-- An append that adds nothing: the line is empty, or the budget is used up and does not hold it. -/
theorem skip (accounted : Accounted maxBytes lines g) (toStderr : Bool) {line : Text} (nonempty : line ≠ [])
    (full : maxBytes ≤ g.used) : Accounted maxBytes (lines ++ [(toStderr, line)]) g where
  budget := accounted.budget
  used := accounted.used
  within := accounted.within
  nonempty := accounted.nonempty_snoc toStderr nonempty
  kept := by
    intro fits
    rw [needed_snoc] at fits
    have usedEq := accounted.used_eq_needed (by omega)
    have := len_pos nonempty
    omega

/-- An append that adds a piece of the line. -/
theorem add (accounted : Accounted maxBytes lines g) (toStderr : Bool) {line piece rest : Text} (nonempty : line ≠ [])
    (room : g.used < maxBytes) (cut : line = piece ++ rest) (pieceLen : len piece = g.secondCut toStderr line) :
    Accounted maxBytes (lines ++ [(toStderr, line)])
      (g.write toStderr (g.dest toStderr ++ g.separator toStderr ++ piece)
        (g.used + len (g.separator toStderr) + len piece)) where
  budget := by rw [CaptureInner.maxBytes_write, accounted.budget]
  used := by
    have lens := g.len_streams toStderr (g.dest toStderr ++ g.separator toStderr ++ piece)
      (g.used + len (g.separator toStderr) + len piece)
    have used := accounted.used
    rw [CaptureInner.used_write]
    simp only [len_append] at lens
    omega
  within := by
    have := g.len_separator_le toStderr
    have budget := accounted.budget
    rw [CaptureInner.used_write, pieceLen, CaptureInner.secondCut]
    omega
  nonempty := accounted.nonempty_snoc toStderr nonempty
  kept := by
    intro fits other
    rw [needed_snoc] at fits
    have fitsBefore : needed lines ≤ maxBytes := by omega
    have separator := accounted.separator_eq fitsBefore toStderr
    have separatorLen : len (g.separator toStderr) = if ofStream toStderr lines ≠ [] then 1 else 0 := by
      rw [separator]
      split <;> rfl
    -- The whole line fits, so the second cut is its end.
    have whole : len piece = len line := by
      have usedEq := accounted.used_eq_needed fitsBefore
      have budget := accounted.budget
      rw [pieceLen, CaptureInner.secondCut, budget, separatorLen]
      omega
    obtain rfl : rest = [] := by
      have lens := congrArg len cut
      rw [len_append] at lens
      exact len_eq_zero.mp (by omega)
    obtain rfl : line = piece := by simpa using cut
    rw [CaptureInner.dest_write, ofStream_snoc]
    split
    · rename_i same
      rw [same, joined_snoc, ← accounted.kept fitsBefore toStderr, separator]
    · exact accounted.kept fitsBefore other

/-- What one append preserves. -/
theorem append (accounted : Accounted maxBytes lines g) {toStderr : Bool} {line : Text} {g' : CaptureInner}
    (appended : g.append toStderr line = some g') :
    Accounted maxBytes (if line = [] then lines else lines ++ [(toStderr, line)]) g' := by
  rcases g.append_cases toStderr appended with ⟨skipped, rfl⟩ | ⟨nonempty, room, piece, rest, cut, pieceLen, rfl⟩
  · split
    · exact accounted
    · rename_i nonempty
      have full : g'.maxBytes ≤ g'.used := skipped.resolve_left nonempty
      exact accounted.skip toStderr nonempty (by rwa [accounted.budget] at full)
  · rw [if_neg nonempty]
    exact accounted.add toStderr nonempty (by rwa [accounted.budget] at room) cut pieceLen

/-- What a whole history preserves. -/
theorem run (accounted : Accounted maxBytes lines g) {ops : List Op} {g' : CaptureInner}
    (ran : Op.run ops g = some g') : Accounted maxBytes (linesSince lines ops) g' := by
  induction ops generalizing lines g with
  | nil =>
    obtain rfl : g = g' := by simpa using ran
    exact accounted
  | cons op ops ih =>
    rw [run_cons] at ran
    obtain ⟨next, stepped, continued⟩ := Option.bind_eq_some_iff.mp ran
    have budget := accounted.budget
    subst budget
    cases op with
    | append toStderr line => exact ih (accounted.append stepped) continued
    | enter =>
      obtain rfl := Option.some.inj stepped
      exact ih emptied continued
    | finish =>
      obtain rfl := Option.some.inj stepped
      exact ih emptied continued
    | drop =>
      obtain rfl := Option.some.inj stepped
      exact ih emptied continued

end Accounted

/-- In every history without a panic the budget is kept, and lines that fit are all there. -/
theorem run_new_budget {maxBytes : Nat} (positive : 1 ≤ maxBytes) {ops : List Op} {g : CaptureInner}
    (ran : Op.run ops (ChrononLogCapture.new maxBytes) = some g) :
    g.used = len g.stdout + len g.stderr ∧ g.used ≤ maxBytes ∧
      (needed (linesSince [] ops) ≤ maxBytes →
        g.stdout = joined (ofStream false (linesSince [] ops)) ∧
          g.stderr = joined (ofStream true (linesSince [] ops))) := by
  have fresh : Accounted maxBytes [] (ChrononLogCapture.new maxBytes) := by
    have capped : max maxBytes 1 = maxBytes := Nat.max_eq_left positive
    rw [ChrononLogCapture.new, capped]
    exact Accounted.emptied
  have accounted := fresh.run ran
  exact ⟨accounted.used, accounted.within, fun fits => ⟨accounted.kept fits false, accounted.kept fits true⟩⟩

/-- A budget that holds three lines and the one separator they need, after a scope of its own. -/
theorem run_new_budget_thirteen :
    ∃ g, Op.run [.enter, .append true "dropped".toList, .drop, .enter, .append false "one".toList,
        .append true "two".toList, .append false "ééé".toList] (ChrononLogCapture.new 13) = some g ∧
      g.stdout = "one\nééé".toList ∧ g.stderr = "two".toList ∧ g.used = 13 := by
  have ran : Op.run [.enter, .append true "dropped".toList, .drop, .enter, .append false "one".toList,
      .append true "two".toList, .append false "ééé".toList] (ChrononLogCapture.new 13) =
        some ⟨13, 13, "one\nééé".toList, "two".toList, true⟩ := by decide +kernel
  obtain ⟨used, -, kept⟩ := run_new_budget (by decide) ran
  obtain ⟨stdout, stderr⟩ := kept (by decide +kernel)
  exact ⟨_, ran, stdout, stderr, used⟩

end Chronon.Telemetry
