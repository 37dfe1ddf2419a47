import Mathlib.Data.List.Sort

/-!
# Maps that keep their keys in order

A map as the list of its entries, with strictly increasing keys. The list is
determined by what the map contains, so it does not matter in which order the
entries were put in.
-/

namespace Chronon.Collections
set_option autoImplicit false

/-- The entries, with strictly increasing keys. -/
structure OrderedMap (K V : Type) [LinearOrder K] where
  entries : List (K × V)
  sorted : entries.Pairwise (·.1 < ·.1)

namespace OrderedMap

variable {K V : Type} [LinearOrder K]

def empty : OrderedMap K V := ⟨[], .nil⟩

/-- The entry put in its place, instead of one that has the same key. -/
def put (k : K) (v : V) : List (K × V) → List (K × V)
  | [] => [(k, v)]
  | e :: rest =>
    if k < e.1 then (k, v) :: e :: rest
    else if k = e.1 then (k, v) :: rest
    else e :: put k v rest

theorem mem_put {k : K} {v : V} {entries : List (K × V)} (sorted : entries.Pairwise (·.1 < ·.1)) {e : K × V} :
    e ∈ put k v entries ↔ e = (k, v) ∨ (e ∈ entries ∧ e.1 ≠ k) := by
  induction entries with
  | nil => simp [put]
  | cons first rest ih =>
    rw [List.pairwise_cons] at sorted
    rw [put]
    split
    · rename_i smaller
      have apart : ∀ e ∈ first :: rest, e.1 ≠ k := by
        intro e inside
        rcases List.mem_cons.mp inside with rfl | later
        · exact smaller.ne'
        · exact (smaller.trans (sorted.1 e later)).ne'
      rw [List.mem_cons]
      exact or_congr_right ⟨fun inside => ⟨inside, apart e inside⟩, And.left⟩
    · split
      · rename_i same
        have apart : ∀ e ∈ rest, e.1 ≠ k := fun e later => by rw [same]; exact (sorted.1 e later).ne'
        rw [List.mem_cons, List.mem_cons]
        constructor
        · rintro (rfl | later)
          · exact .inl rfl
          · exact .inr ⟨.inr later, apart e later⟩
        · rintro (rfl | ⟨rfl | later, other⟩)
          · exact .inl rfl
          · exact absurd same.symm other
          · exact .inr later
      · rename_i other
        rw [List.mem_cons, List.mem_cons, ih sorted.2]
        constructor
        · rintro (rfl | rfl | ⟨later, apart⟩)
          · exact .inr ⟨.inl rfl, fun same => other same.symm⟩
          · exact .inl rfl
          · exact .inr ⟨.inr later, apart⟩
        · rintro (rfl | ⟨rfl | later, apart⟩)
          · exact .inr (.inl rfl)
          · exact .inl rfl
          · exact .inr (.inr ⟨later, apart⟩)

theorem sorted_put {k : K} {v : V} {entries : List (K × V)} (sorted : entries.Pairwise (·.1 < ·.1)) :
    (put k v entries).Pairwise (·.1 < ·.1) := by
  induction entries with
  | nil => simp [put]
  | cons first rest ih =>
    rw [List.pairwise_cons] at sorted
    rw [put]
    split
    · rename_i smaller
      refine .cons (fun e inside => ?_) (.cons sorted.1 sorted.2)
      rcases List.mem_cons.mp inside with rfl | later
      · exact smaller
      · exact smaller.trans (sorted.1 e later)
    · split
      · rename_i same
        exact .cons (fun e later => by simpa only [same] using sorted.1 e later) sorted.2
      · rename_i notSmaller other
        refine .cons (fun e inside => ?_) (ih sorted.2)
        rcases (mem_put sorted.2).mp inside with rfl | ⟨later, -⟩
        · exact lt_of_le_of_ne (not_lt.mp notSmaller) (fun same => other same.symm)
        · exact sorted.1 e later

/-- `BTreeMap::insert`. -/
def insert (m : OrderedMap K V) (k : K) (v : V) : OrderedMap K V := ⟨put k v m.entries, sorted_put m.sorted⟩

/-- The map of a list of entries, where a later one replaces an earlier one. -/
def ofList (entries : List (K × V)) : OrderedMap K V := entries.foldl (fun m e => m.insert e.1 e.2) empty

theorem mem_insert {m : OrderedMap K V} {k : K} {v : V} {e : K × V} :
    e ∈ (m.insert k v).entries ↔ e = (k, v) ∨ (e ∈ m.entries ∧ e.1 ≠ k) := mem_put m.sorted

/-- Maps with the same entries are the same. -/
theorem ext_mem {m m' : OrderedMap K V} (same : ∀ e, e ∈ m.entries ↔ e ∈ m'.entries) : m = m' := by
  have nodup (m : OrderedMap K V) : m.entries.Nodup := m.sorted.imp fun less same => absurd less (by rw [same]; exact lt_irrefl _)
  have perm : m.entries.Perm m'.entries := (List.perm_ext_iff_of_nodup (nodup m) (nodup m')).mpr same
  have entries : m.entries = m'.entries :=
    perm.eq_of_pairwise (fun a b _ _ less more => absurd less (lt_asymm more)) m.sorted m'.sorted
  cases m
  cases m'
  cases entries
  rfl

theorem mem_foldl {entries : List (K × V)} (distinct : (entries.map Prod.fst).Nodup) {m : OrderedMap K V}
    (apart : ∀ e ∈ entries, ∀ e' ∈ m.entries, e'.1 ≠ e.1) {e : K × V} :
    e ∈ (entries.foldl (fun m e => m.insert e.1 e.2) m).entries ↔ e ∈ m.entries ∨ e ∈ entries := by
  induction entries generalizing m with
  | nil => simp
  | cons first rest ih =>
    rw [List.map_cons, List.nodup_cons] at distinct
    have fresh : ∀ e ∈ rest, e.1 ≠ first.1 := fun e inside same => distinct.1 (List.mem_map.mpr ⟨e, inside, same⟩)
    rw [List.foldl_cons, ih distinct.2, mem_insert, List.mem_cons]
    · have kept : e ∈ m.entries ∧ e.1 ≠ first.1 ↔ e ∈ m.entries :=
        ⟨And.left, fun inside => ⟨inside, apart first List.mem_cons_self e inside⟩⟩
      rw [kept]
      tauto
    · intro e inside e' isEntry
      rcases mem_insert.mp isEntry with rfl | ⟨before, -⟩
      · exact (fresh e inside).symm
      · exact apart e (List.mem_cons_of_mem _ inside) e' before

/-- With distinct keys, a map has the entries that were put in. -/
theorem mem_ofList {entries : List (K × V)} (distinct : (entries.map Prod.fst).Nodup) {e : K × V} :
    e ∈ (ofList entries).entries ↔ e ∈ entries := by
  rw [ofList, mem_foldl distinct fun _ _ _ isEntry => absurd isEntry List.not_mem_nil]
  exact ⟨fun inside => inside.resolve_left List.not_mem_nil, .inr⟩

/-- With distinct keys, the order in which the entries are put in does not matter, and nothing else is forgotten. -/
theorem ofList_eq_iff {entries entries' : List (K × V)} (distinct : (entries.map Prod.fst).Nodup)
    (distinct' : (entries'.map Prod.fst).Nodup) : ofList entries = ofList entries' ↔ entries.Perm entries' := by
  rw [List.perm_ext_iff_of_nodup (List.Nodup.of_map _ distinct) (List.Nodup.of_map _ distinct')]
  constructor
  · intro same e
    rw [← mem_ofList distinct, ← mem_ofList distinct', same]
  · exact fun same => ext_mem fun e => by rw [mem_ofList distinct, mem_ofList distinct', same]

theorem keys_nodup (m : OrderedMap K V) : (m.entries.map Prod.fst).Nodup :=
  List.pairwise_map.mpr (m.sorted.imp fun less => less.ne)

end OrderedMap

end Chronon.Collections
