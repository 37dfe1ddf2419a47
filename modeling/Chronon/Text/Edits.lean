import Chronon.Text.Slices

/-!
# Edit scripts

How a text was rewritten: which of its characters stay and which pieces of it are
replaced by what. The pieces are disjoint because the script lists them in order.
-/

namespace Chronon.Text
set_option autoImplicit false

/-- One step of a script. -/
inductive Edit where
  | kept (c : Char)
  | swapped (old new : Text)
deriving DecidableEq

abbrev EditScript := List Edit

namespace EditScript

/-- The text a script rewrites. -/
def source : EditScript → Text
  | [] => []
  | .kept c :: rest => c :: source rest
  | .swapped old _ :: rest => old ++ source rest

/-- The text it makes of it. -/
def target : EditScript → Text
  | [] => []
  | .kept c :: rest => c :: target rest
  | .swapped _ new :: rest => new ++ target rest

/-- The script that keeps a whole text. -/
def keep (t : Text) : EditScript := t.map .kept

@[simp] theorem keep_nil : keep [] = [] := rfl

@[simp] theorem keep_cons (c : Char) (t : Text) : keep (c :: t) = .kept c :: keep t := rfl

theorem keep_append (s t : Text) : keep (s ++ t) = keep s ++ keep t := List.map_append

@[simp] theorem source_append (s s' : EditScript) : source (s ++ s') = source s ++ source s' := by
  induction s with
  | nil => rfl
  | cons e rest ih => cases e <;> simp [source, ih]

@[simp] theorem target_append (s s' : EditScript) : target (s ++ s') = target s ++ target s' := by
  induction s with
  | nil => rfl
  | cons e rest ih => cases e <;> simp [target, ih]

@[simp] theorem source_keep (t : Text) : source (keep t) = t := by
  induction t with
  | nil => rfl
  | cons c cs ih => simp [source, ih]

@[simp] theorem target_keep (t : Text) : target (keep t) = t := by
  induction t with
  | nil => rfl
  | cons c cs ih => simp [target, ih]

/-- A step of two scripts in a row is a step of one of them. -/
theorem append_eq_split {s s' front back : EditScript} {e : Edit} (same : s ++ s' = front ++ e :: back) :
    (∃ back', s = front ++ e :: back' ∧ back = back' ++ s') ∨ ∃ front', front = s ++ front' ∧ s' = front' ++ e :: back := by
  rcases List.append_eq_append_iff.mp same with ⟨front', split, rest⟩ | ⟨back', split, rest⟩
  · exact .inr ⟨front', split, rest⟩
  · cases back' with
    | nil => exact .inr ⟨[], by simpa using split.symm, by simpa using rest.symm⟩
    | cons d back' =>
      obtain ⟨rfl, tailEq⟩ := List.cons.inj rest
      exact .inl ⟨back', split, tailEq⟩

/-- Nothing is replaced in a kept text. -/
theorem keep_ne_split {t old new : Text} {front back : EditScript} : keep t ≠ front ++ .swapped old new :: back := by
  intro same
  have mem : .swapped old new ∈ keep t := by
    rw [same]
    simp
  simp [keep] at mem

end EditScript

end Chronon.Text
