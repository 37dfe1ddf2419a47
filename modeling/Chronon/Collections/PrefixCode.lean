import Mathlib.Data.List.Basic
import Mathlib.Logic.Function.Basic

/-!
# Codes that can be read from the front

A code is prefix-free if what is encoded can be told from any text that begins
with its encoding. Such codes are injective, and they stay prefix-free under the
ways in which formats put them together: one after the other, with a fixed text
in front, repeated up to a stop symbol, and repeated between separators.
-/

namespace Chronon.Collections
set_option autoImplicit false

variable {α β σ : Type}

/-- Whatever follows, the encoded value is determined by the front of the text. -/
def PrefixFree (code : α → List σ) : Prop := ∀ a b x y, code a ++ x = code b ++ y → a = b

namespace PrefixFree

variable {code : α → List σ} {code' : β → List σ}

theorem rest (free : PrefixFree code) {a b : α} {x y : List σ} (same : code a ++ x = code b ++ y) : a = b ∧ x = y := by
  obtain rfl := free a b x y same
  exact ⟨rfl, List.append_cancel_left same⟩

theorem injective (free : PrefixFree code) : Function.Injective code :=
  fun a b same => free a b [] [] (by rw [same])

/-- A fixed text in front. -/
theorem behind (free : PrefixFree code) (front : List σ) : PrefixFree (fun a => front ++ code a) := by
  intro a b x y same
  rw [List.append_assoc, List.append_assoc] at same
  exact free a b x y (List.append_cancel_left same)

/-- One value after the other. -/
theorem pair (free : PrefixFree code) (free' : PrefixFree code') :
    PrefixFree (fun p : α × β => code p.1 ++ code' p.2) := by
  rintro ⟨a, a'⟩ ⟨b, b'⟩ x y same
  simp only [List.append_assoc] at same
  obtain ⟨rfl, same'⟩ := free.rest same
  obtain rfl := free' a' b' x y same'
  rfl

/-- Values up to a symbol that no value begins with. -/
theorem upTo (free : PrefixFree code) {stop : σ} (begins : ∀ a, ∃ c rest, code a = c :: rest ∧ c ≠ stop) :
    PrefixFree (fun values : List α => values.flatMap code ++ [stop]) := by
  intro s t x y same
  simp only [List.append_assoc, List.singleton_append] at same
  induction s generalizing t with
  | nil =>
    cases t with
    | nil => rfl
    | cons b t =>
      obtain ⟨c, more, isCode, other⟩ := begins b
      rw [List.flatMap_cons, isCode] at same
      exact absurd (List.cons.inj same).1.symm other
  | cons a s ih =>
    cases t with
    | nil =>
      obtain ⟨c, more, isCode, other⟩ := begins a
      rw [List.flatMap_cons, isCode] at same
      exact absurd (List.cons.inj same).1 other
    | cons b t =>
      rw [List.flatMap_cons, List.flatMap_cons, List.append_assoc, List.append_assoc] at same
      obtain ⟨rfl, same'⟩ := free.rest same
      rw [ih t same']

/-- Values with separators between them, up to a stop symbol. -/
def separated (code : α → List σ) (separator stop : σ) : List α → List σ
  | [] => [stop]
  | first :: others => code first ++ (others.flatMap (fun a => separator :: code a) ++ [stop])

theorem between (free : PrefixFree code) {separator stop : σ} (apart : separator ≠ stop)
    (begins : ∀ a, ∃ c rest, code a = c :: rest ∧ c ≠ stop) : PrefixFree (separated code separator stop) := by
  have others : PrefixFree (fun values : List α => values.flatMap (fun a => separator :: code a) ++ [stop]) :=
    PrefixFree.upTo (free.behind [separator]) fun a => ⟨separator, code a, rfl, apart⟩
  intro s t x y same
  cases s with
  | nil =>
    cases t with
    | nil => rfl
    | cons b t =>
      obtain ⟨c, more, isCode, other⟩ := begins b
      rw [separated, separated, isCode] at same
      exact absurd (List.cons.inj same).1.symm other
  | cons a s =>
    cases t with
    | nil =>
      obtain ⟨c, more, isCode, other⟩ := begins a
      rw [separated, separated, isCode] at same
      exact absurd (List.cons.inj same).1 other
    | cons b t =>
      rw [separated, separated, List.append_assoc (code a), List.append_assoc (code b)] at same
      obtain ⟨rfl, same'⟩ := free.rest same
      rw [others s t x y same']

end PrefixFree

end Chronon.Collections
