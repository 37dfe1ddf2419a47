import Chronon.Collections.Table

/-!
# Conditions and statements on a table

A condition on a row is three-valued: a comparison with a missing column is
unknown, and a statement touches the rows whose condition is true. A statement
is atomic. Rows that are equal in the `ORDER BY` column may come in any order,
and so may the rows of a `RETURNING`, so these are relations.
-/

namespace Chronon.Relational
set_option autoImplicit false

open Collections

/-- The value of a condition; `none` is unknown. -/
abbrev Truth := Option Bool

namespace Truth

/-- `AND`: one false part decides. -/
def and : Truth → Truth → Truth
  | some false, _ => some false
  | _, some false => some false
  | some true, some true => some true
  | _, _ => none

/-- `OR`: one true part decides. -/
def or : Truth → Truth → Truth
  | some true, _ => some true
  | _, some true => some true
  | some false, some false => some false
  | _, _ => none

/-- A row is selected if its condition is true, not if it is unknown. -/
def holds (t : Truth) : Bool := t == some true

@[simp] theorem holds_and (a b : Truth) : (a.and b).holds = (a.holds && b.holds) := by
  rcases a with _ | _ | _ <;> rcases b with _ | _ | _ <;> rfl

@[simp] theorem holds_or (a b : Truth) : (a.or b).holds = (a.holds || b.holds) := by
  rcases a with _ | _ | _ <;> rcases b with _ | _ | _ <;> rfl

end Truth

section Columns

variable {α : Type}

/-- A comparison of a column with a value: unknown where the column is missing. -/
def compare (column : Option α) (test : α → Bool) : Truth := column.map test

/-- `IS NULL`. -/
def isNull (column : Option α) : Truth := some column.isNone

/-- `IS NOT NULL`. -/
def isNotNull (column : Option α) : Truth := some column.isSome

@[simp] theorem holds_compare (column : Option α) (test : α → Bool) : (compare column test).holds = column.any test := by
  cases column with
  | none => rfl
  | some value => simp [compare, Truth.holds]

@[simp] theorem holds_isNull (column : Option α) : (isNull column).holds = column.isNone := by
  simp [isNull, Truth.holds]

@[simp] theorem holds_isNotNull (column : Option α) : (isNotNull column).holds = column.isSome := by
  simp [isNotNull, Truth.holds]

end Columns

/-! ## Statements -/

variable {K V : Type} {key : V → K}

/-- The rows a condition selects. -/
def selected (t : Table key) (condition : V → Truth) : List V := t.rows.filter fun v => (condition v).holds

/-- What an `UPDATE` does to one row. -/
def onRow (condition : V → Truth) (set : V → V) (v : V) : V := if (condition v).holds then set v else v

theorem key_onRow {condition : V → Truth} {set : V → V} (keeps : ∀ v, key (set v) = key v) (v : V) :
    key (onRow condition set v) = key v := by
  unfold onRow
  split
  · exact keeps v
  · rfl

/-- `UPDATE ... SET ... WHERE ...`, of columns other than the key. -/
def update (t : Table key) (condition : V → Truth) (set : V → V) (keeps : ∀ v, key (set v) = key v) : Table key :=
  t.mapRows (onRow condition set) (key_onRow keeps)

/-- Whether a statement with this condition affects a row. -/
def affects (t : Table key) (condition : V → Truth) : Bool := decide (0 < (selected t condition).length)

/-- `ORDER BY`: the rows in an order that is ascending in a column where it is present. -/
def Ordered {O : Type} [LE O] (column : V → Option O) (rows out : List V) : Prop :=
  out.Perm rows ∧ out.Pairwise fun a b => ∀ x ∈ column a, ∀ y ∈ column b, x ≤ y

section Lemmas

variable [DecidableEq K]

theorem lookup_update (t : Table key) (condition : V → Truth) (set : V → V) (keeps : ∀ v, key (set v) = key v) (k : K) :
    (update t condition set keeps).lookup k = (t.lookup k).map (onRow condition set) :=
  Table.lookup_mapRows t _ _ k

theorem affects_iff {t : Table key} {condition : V → Truth} :
    affects t condition = true ↔ ∃ v, t.lookup (key v) = some v ∧ (condition v).holds = true := by
  simp only [affects, selected, decide_eq_true_eq, List.length_pos_iff_exists_mem, List.mem_filter]
  constructor
  · rintro ⟨v, inside, chosen⟩
    exact ⟨v, Table.lookup_of_mem inside, chosen⟩
  · rintro ⟨v, found, chosen⟩
    exact ⟨v, Table.mem_of_lookup found, chosen⟩

/-- A condition that names one key selects at most the row under it. -/
theorem affects_key {t : Table key} {condition : V → Truth} {k : K} {rest : V → Bool}
    (named : ∀ v, (condition v).holds = (decide (key v = k) && rest v)) : affects t condition = (t.lookup k).any rest := by
  rw [Bool.eq_iff_iff, affects_iff, Option.any_eq_true]
  simp only [named, Bool.and_eq_true, decide_eq_true_eq]
  constructor
  · rintro ⟨v, found, rfl, chosen⟩
    exact ⟨v, found, chosen⟩
  · rintro ⟨v, found, chosen⟩
    have same := Table.key_of_lookup found
    subst same
    exact ⟨v, found, rfl, chosen⟩

/-- The row such a condition selects. -/
theorem head_selected_key {t : Table key} {condition : V → Truth} {k : K} {rest : V → Bool}
    (named : ∀ v, (condition v).holds = (decide (key v = k) && rest v)) :
    (selected t condition).head? = (t.lookup k).filter rest := by
  have chosen : ∀ v, v ∈ selected t condition ↔ t.lookup k = some v ∧ rest v = true := by
    intro v
    simp only [selected, List.mem_filter, named, Bool.and_eq_true, decide_eq_true_eq, Table.lookup_eq_some, and_assoc]
  cases found : (t.lookup k).filter rest with
  | none =>
    rw [List.head?_eq_none_iff, List.eq_nil_iff_forall_not_mem]
    intro v inside
    obtain ⟨stored, passes⟩ := (chosen v).mp inside
    rw [stored, Option.filter_some_pos passes] at found
    cases found
  | some v =>
    have stored := Option.filter_eq_some_iff.mp found
    obtain ⟨head, tail, split⟩ := List.exists_cons_of_ne_nil (List.ne_nil_of_mem ((chosen v).mpr stored))
    obtain ⟨first, -⟩ := (chosen head).mp (by rw [split]; exact List.mem_cons_self)
    rw [split, List.head?_cons]
    exact first.symm.trans stored.1

/-- The rows such a condition selects. -/
theorem selected_key {t : Table key} {condition : V → Truth} {k : K} {rest : V → Bool}
    (named : ∀ v, (condition v).holds = (decide (key v = k) && rest v)) :
    selected t condition = ((t.lookup k).filter rest).toList := by
  have distinct : (selected t condition).Nodup := (List.Nodup.of_map _ t.distinct).filter _
  have chosen : ∀ v, v ∈ selected t condition ↔ v ∈ ((t.lookup k).filter rest).toList := by
    intro v
    rw [Option.mem_toList, Option.filter_eq_some_iff]
    simp only [selected, List.mem_filter, named, Bool.and_eq_true, decide_eq_true_eq, Table.lookup_eq_some, and_assoc]
  have single : ((t.lookup k).filter rest).toList.Nodup := by
    cases (t.lookup k).filter rest <;> simp
  have same := (List.perm_ext_iff_of_nodup distinct single).mpr chosen
  cases found : (t.lookup k).filter rest with
  | none =>
    rw [found] at same
    exact same.eq_nil
  | some v =>
    rw [found] at same
    exact List.perm_singleton.mp same

/-- What such an update leaves under its key and under the others. -/
theorem lookup_update_key {t : Table key} {condition : V → Truth} {set : V → V} (keeps : ∀ v, key (set v) = key v) {k : K}
    {rest : V → Bool} (named : ∀ v, (condition v).holds = (decide (key v = k) && rest v)) (k' : K) :
    (update t condition set keeps).lookup k' =
      if k = k' then (t.lookup k).map fun v => if rest v then set v else v else t.lookup k' := by
  rw [lookup_update]
  split
  · rename_i same
    subst same
    refine Option.map_congr fun v found => ?_
    have isKey := Table.key_of_lookup (Option.mem_def.mp found)
    simp only [onRow, named, isKey, decide_true, Bool.true_and]
  · rename_i other
    have kept : ∀ v ∈ t.lookup k', onRow condition set v = v := by
      intro v found
      have isKey := Table.key_of_lookup (Option.mem_def.mp found)
      simp [onRow, named, isKey, Ne.symm other]
    exact (Option.map_congr kept).trans Option.map_id'

end Lemmas

/-! ## Two updates in one

Two updates that set the same columns, where a row that was set is not selected again. -/

section Once

variable {c₁ c₂ c : V → Truth} {set : V → V} (keeps : ∀ v, key (set v) = key v)
  (either : ∀ v, (c v).holds = ((c₁ v).holds || (c₂ v).holds)) (once : ∀ v, (c₂ (set v)).holds = false)
include either once

theorem update_update (t : Table key) : update (update t c₁ set keeps) c₂ set keeps = update t c set keeps := by
  have rows : onRow c₂ set ∘ onRow c₁ set = onRow c set := by
    funext v
    simp only [Function.comp_apply, onRow, either]
    by_cases first : (c₁ v).holds = true
    · simp only [first, if_true, once, Bool.true_or, Bool.false_eq_true, if_false]
    · simp only [first, Bool.false_eq_true, if_false, Bool.false_or]
  simp only [update, Table.mapRows, List.map_map, rows]

/-- Every row is selected by one of the two. -/
theorem selected_update_perm (t : Table key) :
    (selected t c₁ ++ selected (update t c₁ set keeps) c₂).Perm (selected t c) := by
  have second : selected (update t c₁ set keeps) c₂ = (selected t c).filter fun v => !(c₁ v).holds := by
    have apart : (fun v => (c₂ v).holds) ∘ onRow c₁ set = fun v => !(c₁ v).holds && (c v).holds := by
      funext v
      simp only [Function.comp_apply, onRow, either]
      by_cases first : (c₁ v).holds = true
      · simp only [first, if_true, once, Bool.not_true, Bool.false_and]
      · simp only [first, Bool.false_eq_true, if_false, Bool.not_false, Bool.true_and, Bool.false_or]
    have unset : ∀ v ∈ t.rows.filter (fun v => !(c₁ v).holds && (c v).holds), onRow c₁ set v = v := by
      intro v inside
      have open_ := (List.mem_filter.mp inside).2
      rw [Bool.and_eq_true, Bool.not_eq_true'] at open_
      rw [onRow, open_.1, if_neg Bool.false_ne_true]
    simp only [selected, update, Table.mapRows, List.filter_map, apart, List.filter_filter]
    exact (List.map_congr_left unset).trans (List.map_id _)
  have first : selected t c₁ = (selected t c).filter fun v => (c₁ v).holds := by
    simp only [selected, List.filter_filter]
    refine List.filter_congr fun v _ => ?_
    rw [either]
    cases (c₁ v).holds <;> simp
  rw [second, first]
  exact List.filter_append_perm _ _

end Once

/-! ## Rows in another order -/

/-- A selection in any order is the selection of the rows in some order. -/
theorem exists_filter_eq {p : V → Bool} {rows out : List V} (permuted : out.Perm (rows.filter p)) :
    ∃ rows' : List V, rows'.Perm rows ∧ rows'.filter p = out := by
  refine ⟨out ++ rows.filter fun v => !p v, ?_, ?_⟩
  · exact (permuted.append_right _).trans (List.filter_append_perm p rows)
  · have chosen : ∀ v ∈ out, p v = true := fun v inside => (List.mem_filter.mp (permuted.mem_iff.mp inside)).2
    rw [List.filter_append, List.filter_eq_self.mpr chosen, List.filter_filter]
    simp

/-- A list with the same images is, in some order, one with the same images in order. -/
theorem exists_map_eq {W : Type} {f : V → W} {rows : List V} {out : List W} (permuted : out.Perm (rows.map f)) :
    ∃ rows' : List V, rows'.Perm rows ∧ rows'.map f = out := by
  induction out generalizing rows with
  | nil =>
    have none_ : rows = [] := List.map_eq_nil_iff.mp permuted.symm.eq_nil
    exact ⟨[], by rw [none_], rfl⟩
  | cons w out ih =>
    obtain ⟨v, inside, rfl⟩ := List.mem_map.mp (permuted.mem_iff.mp List.mem_cons_self)
    obtain ⟨before, after, rfl⟩ := List.append_of_mem inside
    have rest : out.Perm ((before ++ after).map f) := by
      refine (List.perm_cons (f v)).mp (permuted.trans ?_)
      simp [List.perm_middle]
    obtain ⟨rows', same, images⟩ := ih rest
    refine ⟨v :: rows', ?_, by rw [List.map_cons, images]⟩
    exact (same.cons v).trans List.perm_middle.symm

/-- Tables that answer every lookup alike, up to a change of the rows, have the same rows up to it. -/
theorem perm_of_lookup [DecidableEq K] {t u : Table key} {f : V → V} (keeps : ∀ v, key (f v) = key v)
    (same : ∀ k, (t.lookup k).map f = (u.lookup k).map f) : (t.rows.map f).Perm (u.rows.map f) := by
  have distinct : ∀ t : Table key, (t.rows.map f).Nodup := by
    intro t
    refine List.Nodup.of_map key ?_
    rw [List.map_map, show key ∘ f = key from funext keeps]
    exact t.distinct
  have inside : ∀ (t : Table key) (v : V), v ∈ t.rows.map f ↔ (t.lookup (key v)).map f = some v := by
    intro t v
    rw [List.mem_map, Option.map_eq_some_iff]
    constructor
    · rintro ⟨u, stored, rfl⟩
      exact ⟨u, by rw [keeps]; exact Table.lookup_of_mem stored, rfl⟩
    · rintro ⟨u, found, rfl⟩
      exact ⟨u, Table.mem_of_lookup found, rfl⟩
  refine (List.perm_ext_iff_of_nodup (distinct t) (distinct u)).mpr fun v => ?_
  rw [inside, inside, same]

/-- What a test that ignores a change selects is the same up to the change. -/
theorem map_filter_perm {f : V → V} {p : V → Bool} (ignores : ∀ v, p (f v) = p v) {rows rows' : List V}
    (same : (rows.map f).Perm (rows'.map f)) : ((rows.filter p).map f).Perm ((rows'.filter p).map f) := by
  have through : ∀ rows : List V, (rows.filter p).map f = (rows.map f).filter p := by
    intro rows
    rw [List.filter_map, show p ∘ f = p from funext ignores]
  rw [through, through]
  exact same.filter p

/-- The least of some numbers does not depend on their order. -/
theorem min?_perm {xs ys : List Int} (same : xs.Perm ys) : xs.min? = ys.min? := by
  refine Option.ext fun x => ?_
  simp only [List.min?_eq_some_iff, same.mem_iff]

end Chronon.Relational
