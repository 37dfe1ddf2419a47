import Chronon.Collections.Table

/-!
# Secondary indexes

An index from a second name of the rows of a table back to their keys. It is
exact when it is the inverse of the names: no entry without its row, no row
without its entry. Each operation on the rows is paired with what keeps the
index exact.
-/

namespace Chronon.Collections
set_option autoImplicit false

variable {K V N : Type} [DecidableEq K] [DecidableEq N] {key : V → K}

/-- An index from names to keys. -/
abbrev Index (N K : Type) := Table (Prod.fst : N × K → N)

/-- `index` holds `n ↦ k` exactly if the row under `k` is named `n`. -/
def Indexes (index : Index N K) (name : V → N) (t : Table key) : Prop :=
  ∀ n k, index.lookup n = some (n, k) ↔ ∃ v, t.lookup k = some v ∧ name v = n

namespace Indexes

variable {index : Index N K} {name : V → N} {t : Table key}

theorem empty : Indexes (.empty : Index N K) name (.empty : Table key) := by
  intro n k
  simp [Table.lookup, Table.empty]

/-- The key found under a name is that of a row of this name. -/
theorem row (exact : Indexes index name t) {n : N} {entry : N × K} (found : index.lookup n = some entry) :
    ∃ v, t.lookup entry.2 = some v ∧ name v = n := by
  have own : entry.1 = n := Table.key_of_lookup found
  subst own
  exact (exact entry.1 entry.2).mp found

/-- Every row is found under its name. -/
theorem entry (exact : Indexes index name t) {k : K} {v : V} (found : t.lookup k = some v) :
    index.lookup (name v) = some (name v, k) :=
  (exact (name v) k).mpr ⟨v, found, rfl⟩

/-- A name without an entry is no row's name. -/
theorem unused (exact : Indexes index name t) {n : N} (absent : index.lookup n = none) {k : K} {v : V}
    (found : t.lookup k = some v) : name v ≠ n := by
  rintro rfl
  rw [exact.entry found] at absent
  cases absent

theorem unique (exact : Indexes index name t) {k k' : K} {v v' : V} (found : t.lookup k = some v)
    (found' : t.lookup k' = some v') (same : name v = name v') : k = k' := by
  have here := exact.entry found
  rw [same, exact.entry found'] at here
  exact (congrArg Prod.snd (Option.some.inj here)).symm

/-- A row that keeps its key and its name changes nothing of the index. -/
theorem replace (exact : Indexes index name t) {u v : V} (found : t.lookup (key v) = some u)
    (same : name v = name u) : Indexes index name (t.insert v) := by
  intro n k
  rw [exact n k, Table.lookup_insert]
  by_cases own : key v = k
  · subst own
    simp [found, same]
  · simp [own]

/-- A row goes with its entry. -/
theorem erase (exact : Indexes index name t) {k : K} {v : V} (found : t.lookup k = some v) :
    Indexes (index.erase (name v)) name (t.erase k) := by
  intro n i
  by_cases sameName : name v = n
  · subst sameName
    rw [Table.lookup_erase_self]
    refine ⟨nofun, fun ⟨u, left, same⟩ => ?_⟩
    have other : k ≠ i := by
      rintro rfl
      rw [Table.lookup_erase_self] at left
      cases left
    rw [Table.lookup_erase_ne other] at left
    exact absurd (exact.unique found left same.symm) other
  · rw [Table.lookup_erase_ne sameName, exact n i]
    by_cases own : k = i
    · subst own
      rw [Table.lookup_erase_self, found]
      simp [sameName]
    · rw [Table.lookup_erase_ne own]

/-- A row under a new key, and under a name nobody holds. -/
theorem add (exact : Indexes index name t) {v : V} (fresh : t.lookup (key v) = none)
    (free : index.lookup (name v) = none) : Indexes (index.insert (name v, key v)) name (t.insert v) := by
  intro n k
  rw [Table.lookup_insert, Table.lookup_insert]
  by_cases own : key v = k
  · subst own
    by_cases sameName : name v = n
    · simp [sameName]
    · have missing := exact n (key v)
      rw [fresh] at missing
      simp [sameName, missing]
  · by_cases sameName : name v = n
    · subst sameName
      have missing := exact (name v) k
      rw [free] at missing
      simpa [own] using missing
    · simpa [own, sameName] using exact n k

/-- A row that takes the place of another one, with the old name given up
first. The new name is free or the row's own. -/
theorem rename (exact : Indexes index name t) {u v : V} (found : t.lookup (key v) = some u)
    (differs : name u ≠ name v) (free : index.lookup (name v) = none) :
    Indexes ((index.erase (name u)).insert (name v, key v)) name (t.insert v) := by
  have gone := exact.erase found
  have nobody : (index.erase (name u)).lookup (name v) = none := by
    rw [Table.lookup_erase_ne differs, free]
  have added := gone.add (Table.lookup_erase_self t (key v)) nobody
  intro n k
  rw [added n k, Table.lookup_insert, Table.lookup_insert]
  by_cases own : key v = k
  · simp [own]
  · simp [own, Table.lookup_erase_ne own]

/-- Storing an entry that is there already. -/
theorem again (exact : Indexes index name t) {n : N} {k : K} (held : index.lookup n = some (n, k)) :
    Indexes (index.insert (n, k)) name t := by
  intro m i
  rw [← exact m i, Table.lookup_insert]
  by_cases same : n = m
  · subst same
    simp [held]
  · simp [same]

end Indexes

end Chronon.Collections
