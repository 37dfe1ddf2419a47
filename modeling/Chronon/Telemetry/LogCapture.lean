import Chronon.System.World
import Chronon.Text.Slices

/-!
# `chronon-telemetry/src/log_capture.rs`

Two streams share one byte budget. `append` cuts a line twice, to what the budget
leaves before and after the separator is charged, and each cut panics inside a
character. The lock of the source makes every operation here atomic, so a history
of a capture is a list of operations. How a tracing event yields its message text
is outside: an event is its level and that text.
-/

namespace Chronon.Telemetry
set_option autoImplicit false

open Text

/-- `tracing::Level`. -/
inductive Level where
  | error
  | warn
  | info
  | debug
  | trace
deriving DecidableEq

/-- `CaptureInner`. -/
structure CaptureInner where
  maxBytes : Nat
  used : Nat
  stdout : Text
  stderr : Text
  active : Bool
deriving DecidableEq

namespace CaptureInner

/-- The stream a line goes to, `dest`. -/
def dest (g : CaptureInner) (toStderr : Bool) : Text := if toStderr then g.stderr else g.stdout

/-- Writing `dest` and `used`. -/
def write (g : CaptureInner) (toStderr : Bool) (text : Text) (used : Nat) : CaptureInner :=
  if toStderr then { g with stderr := text, used } else { g with stdout := text, used }

/-- `append`; `none` is a panic. -/
def append (g : CaptureInner) (toStderr : Bool) (line : Text) : Option CaptureInner :=
  if line = [] ∨ g.used ≥ g.maxBytes then some g
  else do
    let budget := g.maxBytes - g.used
    let chunk ← (if len line > budget then takeBytes budget line else some line)
    let dest := g.dest toStderr
    if dest ≠ [] ∧ g.used + 1 > g.maxBytes then some g
    else
      let separated := if dest ≠ [] then dest ++ ['\n'] else dest
      let charged := if dest ≠ [] then g.used + 1 else g.used
      let remain := g.maxBytes - charged
      let take := min (len chunk) remain
      return g.write toStderr (separated ++ (← takeBytes take chunk)) (charged + take)

/-- The text of a stream, if it has any. -/
def captured (text : Text) : Option String := if text = [] then none else some (String.ofList text)

/-- `drain`. -/
def drain (g : CaptureInner) : CapturedLogs × CaptureInner :=
  (⟨captured g.stdout, captured g.stderr⟩, { g with stdout := [], stderr := [], used := 0 })

end CaptureInner

/-- `ChrononLogCapture::new`. -/
def ChrononLogCapture.new (maxBytes : Nat) : CaptureInner := ⟨max maxBytes 1, 0, [], [], false⟩

/-- `ChrononLogCapture::enter`. -/
def ChrononLogCapture.enter (g : CaptureInner) : CaptureInner :=
  { g with active := true, stdout := [], stderr := [], used := 0 }

/-- `Drop for CaptureScope`. -/
def CaptureScope.drop (finished : Bool) (g : CaptureInner) : CaptureInner :=
  if finished then g else ({ g with active := false } : CaptureInner).drain.2

/-- `CaptureScope::finish`, with the drop of the finished scope at its end. -/
def CaptureScope.finish (g : CaptureInner) : CapturedLogs × CaptureInner :=
  let drained := ({ g with active := false } : CaptureInner).drain
  (drained.1, CaptureScope.drop true drained.2)

/-- `Layer::on_event`. -/
def ChrononLogCapture.onEvent (level : Level) (message : Option Text) (g : CaptureInner) : Option CaptureInner :=
  if !g.active then some g
  else
    match message with
    | none => some g
    | some msg => g.append (level == .error || level == .warn) msg

/-- What can happen to a capture. -/
inductive Op where
  | enter
  | append (toStderr : Bool) (line : Text)
  | finish
  | drop

namespace Op

def step : Op → CaptureInner → Option CaptureInner
  | enter, g => some (ChrononLogCapture.enter g)
  | append toStderr line, g => g.append toStderr line
  | finish, g => some (CaptureScope.finish g).2
  | drop, g => some (CaptureScope.drop false g)

/-- The operations one after the other, up to a panic. -/
def run (ops : List Op) (g : CaptureInner) : Option CaptureInner := ops.foldlM (fun g op => op.step g) g

end Op

/-- An event is an append to one stream or nothing at all. -/
theorem onEvent_eq_run (level : Level) (message : Option Text) (g : CaptureInner) :
    ChrononLogCapture.onEvent level message g = some g ∨
      ∃ toStderr line, ChrononLogCapture.onEvent level message g = Op.run [.append toStderr line] g := by
  unfold ChrononLogCapture.onEvent
  split
  · exact .inl rfl
  · cases message with
    | none => exact .inl rfl
    | some msg => exact .inr ⟨level == .error || level == .warn, msg, by simp [Op.run, Op.step]⟩

namespace CaptureInner

variable (g : CaptureInner) (toStderr : Bool)

@[simp] theorem maxBytes_write (text : Text) (used : Nat) : (g.write toStderr text used).maxBytes = g.maxBytes := by
  cases toStderr <;> rfl

@[simp] theorem used_write (text : Text) (used : Nat) : (g.write toStderr text used).used = used := by
  cases toStderr <;> rfl

theorem dest_write (text : Text) (used : Nat) (other : Bool) :
    (g.write toStderr text used).dest other = if other = toStderr then text else g.dest other := by
  cases toStderr <;> cases other <;> rfl

theorem len_streams (text : Text) (used : Nat) :
    len (g.write toStderr text used).stdout + len (g.write toStderr text used).stderr + len (g.dest toStderr) =
      len text + (len g.stdout + len g.stderr) := by
  cases toStderr <;> simp [write, dest] <;> omega

/-- The separator that a stream gets before its next line. -/
def separator : Text := if g.dest toStderr ≠ [] then ['\n'] else []

/-- Where the first slice of a line ends. -/
def firstCut (line : Text) : Nat := min (len line) (g.maxBytes - g.used)

/-- Where its second slice ends, once the separator is charged. -/
def secondCut (line : Text) : Nat := min (len line) (g.maxBytes - g.used - len (g.separator toStderr))

/-- Both slices of the line end between two characters. -/
def CutsValid (line : Text) : Prop :=
  line = [] ∨ g.maxBytes ≤ g.used ∨ (Boundary line (g.firstCut line) ∧ Boundary line (g.secondCut toStderr line))

instance (line : Text) : Decidable (g.CutsValid toStderr line) := inferInstanceAs (Decidable (_ ∨ _))

theorem len_separator_le : len (g.separator toStderr) ≤ 1 := by
  unfold separator
  split
  · exact Nat.le_refl 1
  · exact Nat.zero_le 1

/-- The line as a chunk of the budget, whether it is cut or not. -/
theorem chunk_eq (line : Text) (budget : Nat) :
    (if len line > budget then takeBytes budget line else some line) = takeBytes (min (len line) budget) line := by
  split
  · rw [Nat.min_eq_right (by omega)]
  · rw [Nat.min_eq_left (by omega)]
    simpa using (takeBytes_append line []).symm

/-- An append with room left: the stream gets its separator and what the second cut leaves of the line. -/
theorem append_of_room {line : Text} (nonempty : line ≠ []) (room : g.used < g.maxBytes) :
    g.append toStderr line =
      (takeBytes (g.firstCut line) line).bind fun chunk =>
        (takeBytes (g.secondCut toStderr line) chunk).map fun piece =>
          g.write toStderr (g.dest toStderr ++ g.separator toStderr ++ piece)
            (g.used + len (g.separator toStderr) + len piece) := by
  unfold append
  rw [if_neg (by simp [nonempty]; exact room)]
  dsimp only
  rw [chunk_eq]
  refine Option.bind_congr fun chunk taken => ?_
  obtain ⟨rest, -, chunkLen⟩ := cut_of_takeBytes taken
  rw [if_neg (by omega)]
  have charged : (if g.dest toStderr ≠ [] then g.used + 1 else g.used) = g.used + len (g.separator toStderr) := by
    unfold separator
    split <;> rfl
  have separated : (if g.dest toStderr ≠ [] then g.dest toStderr ++ ['\n'] else g.dest toStderr) =
      g.dest toStderr ++ g.separator toStderr := by
    unfold separator
    split <;> simp
  have second : min (len chunk) (g.maxBytes - (g.used + len (g.separator toStderr))) = g.secondCut toStderr line := by
    unfold secondCut
    omega
  rw [charged, separated, second]
  cases cut : takeBytes (g.secondCut toStderr line) chunk with
  | none => rfl
  | some piece =>
    obtain ⟨rest', -, pieceLen⟩ := cut_of_takeBytes cut
    simp [pieceLen]

/-- What an append can do: nothing, or add a piece from the front of the line. -/
theorem append_cases {line : Text} {g' : CaptureInner} (appended : g.append toStderr line = some g') :
    ((line = [] ∨ g.maxBytes ≤ g.used) ∧ g' = g) ∨
      (line ≠ [] ∧ g.used < g.maxBytes ∧ ∃ piece rest, line = piece ++ rest ∧ len piece = g.secondCut toStderr line ∧
        g' = g.write toStderr (g.dest toStderr ++ g.separator toStderr ++ piece)
          (g.used + len (g.separator toStderr) + len piece)) := by
  by_cases skipped : line = [] ∨ g.maxBytes ≤ g.used
  · rw [append, if_pos skipped] at appended
    exact .inl ⟨skipped, (Option.some.inj appended).symm⟩
  · obtain ⟨nonempty, room⟩ := not_or.mp skipped
    rw [append_of_room g toStderr nonempty (by omega)] at appended
    obtain ⟨chunk, taken, rest⟩ := Option.bind_eq_some_iff.mp appended
    obtain ⟨piece, cut, written⟩ := Option.map_eq_some_iff.mp rest
    obtain ⟨back, rfl, -⟩ := cut_of_takeBytes taken
    obtain ⟨back', rfl, pieceLen⟩ := cut_of_takeBytes cut
    exact .inr ⟨nonempty, by omega, piece, back' ++ back, by simp, pieceLen, written.symm⟩

/-- An append returns exactly when both cuts are valid. -/
theorem isSome_append (line : Text) : (g.append toStderr line).isSome = true ↔ g.CutsValid toStderr line := by
  by_cases skipped : line = [] ∨ g.maxBytes ≤ g.used
  · rw [append, if_pos skipped]
    simp only [Option.isSome_some, true_iff]
    exact or_assoc.mp (.inl skipped)
  · obtain ⟨nonempty, room⟩ := not_or.mp skipped
    rw [append_of_room g toStderr nonempty (by omega)]
    cases taken : takeBytes (g.firstCut line) line with
    | none =>
      have invalid := takeBytes_eq_none.mp taken
      simp [CutsValid, nonempty, room, invalid]
    | some chunk =>
      have first : Boundary line (g.firstCut line) := isSome_takeBytes.mp (by rw [taken]; rfl)
      obtain ⟨rest, split, chunkLen⟩ := cut_of_takeBytes taken
      have inside : g.secondCut toStderr line ≤ len chunk := by
        rw [chunkLen]
        unfold secondCut firstCut
        omega
      have second : Boundary line (g.secondCut toStderr line) ↔ Boundary chunk (g.secondCut toStderr line) := by
        have cut := boundary_append_left (r := rest) inside
        rwa [← split] at cut
      rw [Option.bind_some, Option.isSome_map, isSome_takeBytes]
      simp [CutsValid, nonempty, room, first, second]

end CaptureInner

/-! ## Panics -/

/-- Every append of the history has valid cuts in the state before it. -/
def CutsValidAlong : List Op → CaptureInner → Prop
  | [], _ => True
  | .append toStderr line :: ops, g =>
    g.CutsValid toStderr line ∧ ∀ g', g.append toStderr line = some g' → CutsValidAlong ops g'
  | op :: ops, g => ∀ g', op.step g = some g' → CutsValidAlong ops g'

@[simp] theorem run_nil (g : CaptureInner) : Op.run [] g = some g := rfl

@[simp] theorem run_cons (op : Op) (ops : List Op) (g : CaptureInner) :
    Op.run (op :: ops) g = (op.step g).bind (Op.run ops) := rfl

theorem isSome_run (ops : List Op) (g : CaptureInner) : (Op.run ops g).isSome = true ↔ CutsValidAlong ops g := by
  induction ops generalizing g with
  | nil => simp [CutsValidAlong]
  | cons op ops ih =>
    rw [run_cons]
    cases op with
    | append toStderr line =>
      rw [CutsValidAlong, ← CaptureInner.isSome_append]
      cases appended : g.append toStderr line with
      | none => simp [Op.step, appended]
      | some g' => simp [Op.step, appended, ih]
    | enter => simp [CutsValidAlong, Op.step, ih]
    | finish => simp [CutsValidAlong, Op.step, ih]
    | drop => simp [CutsValidAlong, Op.step, ih]

/-- A history of a capture is free of panics exactly when each of its appends finds both cuts between characters. -/
theorem run_new_isSome_iff (maxBytes : Nat) (ops : List Op) :
    (Op.run ops (ChrononLogCapture.new maxBytes)).isSome = true ↔
      CutsValidAlong ops (ChrononLogCapture.new maxBytes) :=
  isSome_run ops (ChrononLogCapture.new maxBytes)

/-- Seven bytes and a character of two, into a budget of eight. -/
theorem run_new_panics : Op.run [.enter, .append false "aaaaaaaé".toList] (ChrononLogCapture.new 8) = none := by
  decide +kernel

end Chronon.Telemetry
