import Mathlib.Data.Finset.Card
import Mathlib.Data.List.Nodup
import Mathlib.Data.List.Sort

/-!
# Tables of rows that carry their own key

A hash map whose values are stored under a key they contain. The rows are kept
in iteration order, which nothing but `swap` changes for a row that stays: an
insertion over an existing key replaces the row in place. Distinctness of the
keys is part of the type.
-/

namespace Chronon.Collections
set_option autoImplicit false

/-- Rows in iteration order, with distinct keys. -/
structure Table {K V : Type} (key : V → K) where
  rows : List V
  distinct : (rows.map key).Nodup

namespace Table

variable {K V : Type} [DecidableEq K] {key : V → K}

def empty : Table key := ⟨[], List.nodup_nil⟩

/-- The row stored under `k`. -/
def lookup (t : Table key) (k : K) : Option V := t.rows.find? fun v => key v = k

/-- The rows after storing `v` under its key. -/
def put (key : V → K) (v : V) (rows : List V) : List V :=
  if ∃ u ∈ rows, key u = key v then rows.map fun u => if key u = key v then v else u else v :: rows

theorem map_key_replace (v : V) (rows : List V) :
    (rows.map fun u => if key u = key v then v else u).map key = rows.map key := by
  simp only [List.map_map]
  refine List.map_congr_left fun u _ => ?_
  by_cases same : key u = key v <;> simp [same]

theorem put_distinct {v : V} {rows : List V} (distinct : (rows.map key).Nodup) :
    ((put key v rows).map key).Nodup := by
  unfold put
  split
  · rwa [map_key_replace]
  · rename_i absent
    simp only [not_exists, not_and] at absent
    simpa [List.nodup_cons] using ⟨absent, distinct⟩

/-- Store `v` under its key. -/
def insert (t : Table key) (v : V) : Table key := ⟨put key v t.rows, put_distinct t.distinct⟩

/-- Remove the row under `k`. -/
def erase (t : Table key) (k : K) : Table key :=
  ⟨t.rows.filter fun v => key v ≠ k, (List.filter_sublist.map key).nodup t.distinct⟩

/-- Change every row by a function that keeps its key. -/
def mapRows (t : Table key) (f : V → V) (keeps : ∀ v, key (f v) = key v) : Table key :=
  ⟨t.rows.map f, by
    have same : key ∘ f = key := funext keeps
    rw [List.map_map, same]
    exact t.distinct⟩

/-- Exchange the rows at positions `n` and `n + 1`. -/
def swapAt : Nat → List V → List V
  | 0, a :: b :: rest => b :: a :: rest
  | n + 1, a :: rest => a :: swapAt n rest
  | _, rest => rest

theorem swapAt_perm (n : Nat) (rows : List V) : (swapAt n rows).Perm rows := by
  induction n, rows using swapAt.induct with
  | case1 a b rest => exact .swap _ _ _
  | case2 n a rest ih => exact ih.cons a
  | case3 n rest outside inside =>
    unfold swapAt
    split
    · exact absurd rfl (outside _ _ _ rfl)
    · exact absurd rfl (inside _ _ _ rfl)
    · exact .refl _

/-- The same rows with two neighbours exchanged in the iteration order. -/
def swap (t : Table key) (n : Nat) : Table key :=
  ⟨swapAt n t.rows, (((swapAt_perm n t.rows).map key).nodup_iff).mpr t.distinct⟩

theorem lookup_eq_some {t : Table key} {k : K} {v : V} :
    t.lookup k = some v ↔ v ∈ t.rows ∧ key v = k := by
  constructor
  · intro found
    exact ⟨List.mem_of_find?_eq_some found, by simpa using List.find?_some found⟩
  · rintro ⟨present, rfl⟩
    obtain ⟨u, found⟩ : ∃ u, t.lookup (key v) = some u :=
      Option.isSome_iff_exists.mp (List.find?_isSome.mpr ⟨v, present, by simp⟩)
    have same : key u = key v := by simpa using List.find?_some found
    rw [found, List.inj_on_of_nodup_map t.distinct (List.mem_of_find?_eq_some found) present same]

/-- A row is found under its own key. -/
theorem key_of_lookup {t : Table key} {k : K} {v : V} (found : t.lookup k = some v) : key v = k :=
  (lookup_eq_some.mp found).2

theorem lookup_of_mem {t : Table key} {v : V} (present : v ∈ t.rows) : t.lookup (key v) = some v :=
  lookup_eq_some.mpr ⟨present, rfl⟩

theorem mem_of_lookup {t : Table key} {k : K} {v : V} (found : t.lookup k = some v) : v ∈ t.rows :=
  (lookup_eq_some.mp found).1

theorem lookup_eq_none {t : Table key} {k : K} : t.lookup k = none ↔ ∀ v ∈ t.rows, key v ≠ k := by
  simp [lookup, List.find?_eq_none]

theorem mem_put {v u : V} {rows : List V} :
    u ∈ put key v rows ↔ u = v ∨ (u ∈ rows ∧ key u ≠ key v) := by
  unfold put
  split
  · rename_i present
    simp only [List.mem_map]
    constructor
    · rintro ⟨x, inside, rfl⟩
      by_cases same : key x = key v <;> simp [same, inside]
    · rintro (rfl | ⟨inside, other⟩)
      · obtain ⟨x, inside, same⟩ := present
        exact ⟨x, inside, by simp [same]⟩
      · exact ⟨u, inside, by simp [other]⟩
  · rename_i absent
    simp only [not_exists, not_and] at absent
    simp only [List.mem_cons]
    constructor
    · rintro (rfl | inside)
      · exact .inl rfl
      · exact .inr ⟨inside, absent u inside⟩
    · rintro (rfl | ⟨inside, -⟩)
      · exact .inl rfl
      · exact .inr inside

/-- Two tables with the same rows, in any order, answer every lookup alike. -/
theorem lookup_congr {t t' : Table key} (k : K) (rows : ∀ v, key v = k → (v ∈ t'.rows ↔ v ∈ t.rows)) :
    t'.lookup k = t.lookup k := by
  refine Option.ext fun v => ?_
  rw [lookup_eq_some, lookup_eq_some]
  exact ⟨fun ⟨inside, same⟩ => ⟨(rows v same).mp inside, same⟩,
    fun ⟨inside, same⟩ => ⟨(rows v same).mpr inside, same⟩⟩

theorem lookup_insert_self (t : Table key) (v : V) : (t.insert v).lookup (key v) = some v :=
  lookup_of_mem (mem_put.mpr (.inl rfl))

theorem lookup_insert_ne {t : Table key} {v : V} {k : K} (other : key v ≠ k) :
    (t.insert v).lookup k = t.lookup k := by
  refine lookup_congr k fun u same => ?_
  subst same
  have apart : u ≠ v := by rintro rfl; exact other rfl
  have keys : key u ≠ key v := fun same => other same.symm
  simp [insert, mem_put, apart, keys]

theorem lookup_insert (t : Table key) (v : V) (k : K) :
    (t.insert v).lookup k = if key v = k then some v else t.lookup k := by
  split
  · rename_i same
    subst same
    exact lookup_insert_self t v
  · rename_i other
    exact lookup_insert_ne other

/-- The keys whose row passes a test. -/
theorem filter_keys (t : Table key) (f : V → Bool) :
    (t.rows.map key).filter (fun k => (t.lookup k).any f) = (t.rows.filter f).map key := by
  rw [List.filter_map]
  congr 1
  refine List.filter_congr fun v inside => ?_
  rw [Function.comp_apply, lookup_of_mem inside, Option.any_some]

/-- Of two rows stored under one key the later one stays. -/
theorem insert_insert {t : Table key} {u v : V} (same : key u = key v) : (t.insert u).insert v = t.insert v := by
  have rows : put key v (put key u t.rows) = put key v t.rows := by
    have stored : ∃ x ∈ put key u t.rows, key x = key v := ⟨u, mem_put.mpr (.inl rfl), same⟩
    unfold put at stored ⊢
    rw [if_pos stored]
    by_cases present : ∃ x ∈ t.rows, key x = key v
    · rw [if_pos present, if_pos (by rwa [same])]
      simp only [List.map_map]
      refine List.map_congr_left fun x _ => ?_
      by_cases isKey : key x = key v <;> simp [same, isKey]
    · rw [if_neg present, if_neg (by rwa [same])]
      simp only [not_exists, not_and] at present
      have kept : t.rows.map (fun x => if key x = key v then v else x) = t.rows :=
        (List.map_congr_left fun x inside => if_neg (present x inside)).trans (List.map_id _)
      rw [List.map_cons, if_pos same, kept]
  simp only [insert, rows]

theorem lookup_erase_self (t : Table key) (k : K) : (t.erase k).lookup k = none := by
  simp [lookup_eq_none, erase]

theorem lookup_erase_ne {t : Table key} {k k' : K} (other : k' ≠ k) :
    (t.erase k').lookup k = t.lookup k := by
  refine lookup_congr k fun u same => ?_
  subst same
  simp [erase, Ne.symm other]

theorem lookup_mapRows (t : Table key) (f : V → V) (keeps : ∀ v, key (f v) = key v) (k : K) :
    (t.mapRows f keeps).lookup k = (t.lookup k).map f := by
  refine Option.ext fun v => ?_
  rw [lookup_eq_some, Option.map_eq_some_iff]
  simp only [mapRows, List.mem_map, lookup_eq_some]
  constructor
  · rintro ⟨⟨u, inside, rfl⟩, same⟩
    exact ⟨u, ⟨inside, by rw [← same, keeps]⟩, rfl⟩
  · rintro ⟨u, ⟨inside, same⟩, rfl⟩
    exact ⟨⟨u, inside, rfl⟩, by rw [keeps, same]⟩

omit [DecidableEq K] in
theorem mapRows_eq_self {t : Table key} {f : V → V} (keeps : ∀ v, key (f v) = key v) (same : ∀ v ∈ t.rows, f v = v) :
    t.mapRows f keeps = t := by
  obtain ⟨rows, distinct⟩ := t
  have kept : rows.map f = rows := (List.map_congr_left same).trans (List.map_id rows)
  simp only [mapRows, kept]

/-- Rows may be changed before or after one of them is stored. -/
theorem mapRows_insert (t : Table key) (f : V → V) (keeps : ∀ v, key (f v) = key v) (v : V) :
    (t.insert v).mapRows f keeps = (t.mapRows f keeps).insert (f v) := by
  have present : (∃ u ∈ t.rows.map f, key u = key (f v)) ↔ ∃ u ∈ t.rows, key u = key v := by
    simp only [List.mem_map, exists_exists_and_eq_and, keeps]
  have rows : (put key v t.rows).map f = put key (f v) (t.rows.map f) := by
    unfold put
    by_cases found : ∃ u ∈ t.rows, key u = key v
    · rw [if_pos found, if_pos (present.mpr found), List.map_map, List.map_map]
      refine List.map_congr_left fun u _ => ?_
      simp only [Function.comp_apply, keeps]
      split <;> rfl
    · rw [if_neg found, if_neg (mt present.mp found), List.map_cons]
  simp only [mapRows, insert, rows]

theorem mapRows_erase (t : Table key) (f : V → V) (keeps : ∀ v, key (f v) = key v) (k : K) :
    (t.erase k).mapRows f keeps = (t.mapRows f keeps).erase k := by
  have rows : (t.rows.filter fun v => key v ≠ k).map f = (t.rows.map f).filter fun v => key v ≠ k := by
    rw [List.filter_map]
    refine congrArg (List.map f) (List.filter_congr fun v _ => ?_)
    simp only [Function.comp_apply, keeps]
  simp only [mapRows, erase, rows]

omit [DecidableEq K] in
/-- Two changes of the rows that commute. -/
theorem mapRows_comm (t : Table key) {f g : V → V} {keepsF : ∀ v, key (f v) = key v} {keepsG : ∀ v, key (g v) = key v}
    (comm : ∀ v, g (f v) = f (g v)) : (t.mapRows f keepsF).mapRows g keepsG = (t.mapRows g keepsG).mapRows f keepsF := by
  have rows : (t.rows.map f).map g = (t.rows.map g).map f := by
    rw [List.map_map, List.map_map]
    exact List.map_congr_left fun v _ => comm v
  simp only [mapRows, rows]

@[simp] theorem lookup_swap (t : Table key) (n : Nat) (k : K) : (t.swap n).lookup k = t.lookup k :=
  lookup_congr k fun _ _ => (swapAt_perm n t.rows).mem_iff

/-- The keys of the rows that pass a test. -/
def keysWhere (t : Table key) (test : V → Bool) : Finset K := ((t.rows.filter test).map key).toFinset

theorem mem_keysWhere {t : Table key} {test : V → Bool} {k : K} :
    k ∈ t.keysWhere test ↔ ∃ v, t.lookup k = some v ∧ test v = true := by
  simp only [keysWhere, List.mem_toFinset, List.mem_map, List.mem_filter, lookup_eq_some]
  constructor
  · rintro ⟨v, ⟨inside, passes⟩, rfl⟩
    exact ⟨v, ⟨inside, rfl⟩, passes⟩
  · rintro ⟨v, ⟨inside, same⟩, passes⟩
    exact ⟨v, ⟨inside, passes⟩, same⟩

/-- As many keys as rows. -/
theorem card_keysWhere (t : Table key) (test : V → Bool) : (t.keysWhere test).card = (t.rows.filter test).length := by
  rw [keysWhere, List.toFinset_card_of_nodup, List.length_map]
  exact (List.filter_sublist.map key).nodup t.distinct

end Table

end Chronon.Collections
