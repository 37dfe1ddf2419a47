import Chronon.Collections.PrefixCode
import Chronon.Core.Value

/-!
# JSON text of strings and of objects of strings

The compact text that `serde_json::to_string` writes. A string ends at its first
quote that is not escaped, so what is written can be told apart: the codes of the
characters are prefix-free, and so are those of strings and of objects.
-/

namespace Chronon.JsonText
set_option autoImplicit false

open Collections

/-- The characters that have a short escape. -/
def shortEscapes : List (Char × Char) :=
  [('"', '"'), ('\\', '\\'), (Char.ofNat 8, 'b'), (Char.ofNat 12, 'f'), ('\n', 'n'), ('\r', 'r'), ('\t', 't')]

/-- A lowercase hexadecimal digit. -/
def hexDigit (n : Nat) : Char := if n < 10 then Char.ofNat (48 + n) else Char.ofNat (87 + n)

/-- A character as it stands in a string. -/
def escapeChar (c : Char) : Text :=
  match shortEscapes.lookup c with
  | some e => ['\\', e]
  | none => if c.toNat < 32 then ['\\', 'u', '0', '0', hexDigit (c.toNat / 16), hexDigit (c.toNat % 16)] else [c]

/-- A string between quotes. -/
def quoted (s : Text) : Text := '"' :: (s.flatMap escapeChar ++ ['"'])

/-- A member of an object of strings. -/
def member (m : Text × Text) : Text := quoted m.1 ++ ([':'] ++ quoted m.2)

/-- An object of strings. -/
def object (members : List (Text × Text)) : Text := ['\x7b'] ++ PrefixFree.separated member ',' '\x7d' members

theorem hexDigit_inj {m n : Nat} (small : m < 16) (small' : n < 16) (same : hexDigit m = hexDigit n) : m = n := by
  have all : ∀ m < 16, ∀ n < 16, hexDigit m = hexDigit n → m = n := by decide
  exact all m small n small' same

/-- Three kinds of codes. -/
theorem escapeChar_cases (c : Char) :
    (∃ e, (c, e) ∈ shortEscapes ∧ escapeChar c = ['\\', e]) ∨
      (c.toNat < 32 ∧ escapeChar c = ['\\', 'u', '0', '0', hexDigit (c.toNat / 16), hexDigit (c.toNat % 16)]) ∨
      (c ≠ '\\' ∧ c ≠ '"' ∧ escapeChar c = [c]) := by
  unfold escapeChar
  split
  · rename_i e found
    obtain ⟨front, back, isTable, -⟩ := List.lookup_eq_some_iff.mp found
    exact .inl ⟨e, by rw [isTable]; exact List.mem_append_right _ List.mem_cons_self, rfl⟩
  · rename_i absent
    split
    · rename_i control
      exact .inr (.inl ⟨control, rfl⟩)
    · refine .inr (.inr ⟨?_, ?_, rfl⟩)
      · rintro rfl
        cases absent
      · rintro rfl
        cases absent

/-- The escapes tell the characters apart, and none of them looks like the start of a number. -/
theorem shortEscapes_inj : ∀ p ∈ shortEscapes, p.2 ≠ 'u' ∧ ∀ q ∈ shortEscapes, p.2 = q.2 → p.1 = q.1 := by decide

theorem prefixFree_escapeChar : PrefixFree escapeChar := by
  intro a b x y same
  rcases escapeChar_cases a with ⟨e, inside, isCode⟩ | ⟨control, isCode⟩ | ⟨notSlash, -, isCode⟩ <;>
    rcases escapeChar_cases b with ⟨e', inside', isCode'⟩ | ⟨control', isCode'⟩ | ⟨notSlash', -, isCode'⟩ <;>
    rw [isCode, isCode'] at same <;> simp only [List.cons_append, List.nil_append, List.cons.injEq] at same
  · exact (shortEscapes_inj _ inside).2 _ inside' same.2.1
  · exact absurd same.2.1 (shortEscapes_inj _ inside).1
  · exact absurd same.1.symm notSlash'
  · exact absurd same.2.1.symm (shortEscapes_inj _ inside').1
  · have high := hexDigit_inj (by omega) (by omega) same.2.2.2.2.1
    have low := hexDigit_inj (Nat.mod_lt _ (by decide)) (Nat.mod_lt _ (by decide)) same.2.2.2.2.2.1
    exact Char.toNat_inj.mp (by omega)
  · exact absurd same.1.symm notSlash'
  · exact absurd same.1 notSlash
  · exact absurd same.1 notSlash
  · exact same.1

/-- The code of a character is not a quote. -/
theorem escapeChar_begins (c : Char) : ∃ d rest, escapeChar c = d :: rest ∧ d ≠ '"' := by
  rcases escapeChar_cases c with ⟨e, -, isCode⟩ | ⟨-, isCode⟩ | ⟨-, notQuote, isCode⟩
  · exact ⟨_, _, isCode, by decide⟩
  · exact ⟨_, _, isCode, by decide⟩
  · exact ⟨_, _, isCode, notQuote⟩

theorem prefixFree_quoted : PrefixFree quoted :=
  (prefixFree_escapeChar.upTo escapeChar_begins).behind ['"']

theorem prefixFree_member : PrefixFree member :=
  prefixFree_quoted.pair (prefixFree_quoted.behind [':'])

theorem prefixFree_object : PrefixFree object :=
  (prefixFree_member.between (by decide) fun _ => ⟨_, _, rfl, by decide⟩).behind ['\x7b']

end Chronon.JsonText
