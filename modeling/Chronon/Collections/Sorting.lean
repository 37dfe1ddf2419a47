import Mathlib.Data.List.Sort

/-!
# The head of a stably sorted list

Which rows a list sorted by a key and cut at a limit keeps. A row stands behind
the rows with a smaller key and behind those with the same key that came before it,
so it is kept exactly when these are fewer than the limit, and otherwise only
such rows are kept.
-/

namespace Chronon.Collections
set_option autoImplicit false

variable {α κ : Type} [LinearOrder κ] {key : α → κ} {t : α} {before : α → Bool}

/-- `b` sorts before `t`: its key is smaller, or it is the same and `b` comes first. -/
def sortsBefore (key : α → κ) (before : α → Bool) (t b : α) : Bool :=
  decide (key b < key t) || (decide (key b = key t) && before b)

/-- An element put into a sorted list stands behind the smaller ones. -/
theorem orderedInsert_split (t : α) {l : List α} (sorted : l.Pairwise (key · ≤ key ·)) :
    ∃ rest, l.orderedInsert (key · ≤ key ·) t = l.filter (fun b => decide (key b < key t)) ++ t :: rest := by
  induction l with
  | nil => exact ⟨[], rfl⟩
  | cons b l ih =>
    rw [List.pairwise_cons] at sorted
    by_cases small : key t ≤ key b
    · refine ⟨b :: l, ?_⟩
      have none_ : (b :: l).filter (fun c => decide (key c < key t)) = [] := by
        rw [List.filter_eq_nil_iff]
        intro c inside
        rw [decide_eq_true_eq, not_lt]
        rcases List.mem_cons.mp inside with rfl | later
        · exact small
        · exact le_trans small (sorted.1 c later)
      rw [List.orderedInsert_cons_of_le _ l small, none_]
      rfl
    · obtain ⟨rest, split⟩ := ih sorted.2
      refine ⟨rest, ?_⟩
      rw [List.orderedInsert_of_not_le _ l small, split, List.filter_cons_of_pos (by simpa using small)]
      rfl

/-- An element that goes before `t` leaves what is behind `t` in place. -/
theorem orderedInsert_front {a : α} (small : key a ≤ key t) (front rest : List α) :
    (front ++ t :: rest).orderedInsert (key · ≤ key ·) a = front.orderedInsert (key · ≤ key ·) a ++ t :: rest := by
  induction front with
  | nil => exact List.orderedInsert_cons_of_le _ rest small
  | cons b front ih =>
    by_cases first : key a ≤ key b
    · rw [List.orderedInsert_cons_of_le _ front first]
      exact List.orderedInsert_cons_of_le _ (front ++ t :: rest) first
    · rw [List.orderedInsert_of_not_le _ front first, List.cons_append, List.cons_append, ← ih]
      exact List.orderedInsert_of_not_le _ (front ++ t :: rest) first

/-- An element that is greater than `t` goes behind it. -/
theorem orderedInsert_behind {a : α} (large : key t < key a) {front : List α} (rest : List α)
    (small : ∀ b ∈ front, key b ≤ key t) :
    (front ++ t :: rest).orderedInsert (key · ≤ key ·) a = front ++ t :: rest.orderedInsert (key · ≤ key ·) a := by
  induction front with
  | nil => exact List.orderedInsert_of_not_le _ rest (not_le.mpr large)
  | cons b front ih =>
    have smaller : ¬ key a ≤ key b := not_le.mpr (lt_of_le_of_lt (small b List.mem_cons_self) large)
    rw [List.cons_append, List.cons_append, ← ih fun c inside => small c (List.mem_cons_of_mem b inside)]
    exact List.orderedInsert_of_not_le _ (front ++ t :: rest) smaller

/-- The sorted list: the rows that sort before `t`, then `t`. -/
theorem insertionSort_split (key : α → κ) {l₁ l₂ : List α} (earlier : ∀ b ∈ l₁, before b = true) (self : before t = false)
    (later : ∀ b ∈ l₂, before b = false) :
    ∃ front rest, (l₁ ++ t :: l₂).insertionSort (key · ≤ key ·) = front ++ t :: rest ∧
      front.Perm ((l₁ ++ t :: l₂).filter (sortsBefore key before t)) := by
  have notSelf : ¬ sortsBefore key before t t = true := by simp [sortsBefore, self]
  induction l₁ with
  | nil =>
    obtain ⟨rest, split⟩ := orderedInsert_split t (List.pairwise_insertionSort (key · ≤ key ·) l₂)
    refine ⟨_, rest, split, ?_⟩
    have behind : l₂.filter (sortsBefore key before t) = l₂.filter (fun b => decide (key b < key t)) :=
      List.filter_congr fun b inside => by simp [sortsBefore, later b inside]
    rw [List.nil_append, List.filter_cons_of_neg notSelf, behind]
    exact (List.perm_insertionSort _ l₂).filter _
  | cons a l₁ ih =>
    obtain ⟨front, rest, split, isFront⟩ := ih fun b inside => earlier b (List.mem_cons_of_mem a inside)
    rw [List.cons_append, List.insertionSort_cons, split]
    by_cases small : key a ≤ key t
    · refine ⟨_, rest, orderedInsert_front small front rest, ?_⟩
      have first : sortsBefore key before t a = true := by
        simp [sortsBefore, earlier a List.mem_cons_self, ← le_iff_lt_or_eq, small]
      rw [List.filter_cons_of_pos first]
      exact (List.perm_orderedInsert _ a front).trans (isFront.cons a)
    · rw [not_le] at small
      have frontSmall (b : α) (inside : b ∈ front) : key b ≤ key t := by
        have sorts := (List.mem_filter.mp (isFront.mem_iff.mp inside)).2
        simp only [sortsBefore, Bool.or_eq_true, Bool.and_eq_true, decide_eq_true_eq] at sorts
        rcases sorts with smaller | ⟨same, -⟩
        · exact le_of_lt smaller
        · exact le_of_eq same
      refine ⟨front, _, orderedInsert_behind small rest frontSmall, ?_⟩
      have last : ¬ sortsBefore key before t a = true := by
        simp [sortsBefore, not_lt.mpr (le_of_lt small), small.ne']
      rw [List.filter_cons_of_neg last]
      exact isFront

section Take

variable {l₁ l₂ : List α} {limit : Nat} (earlier : ∀ b ∈ l₁, before b = true) (self : before t = false)
  (later : ∀ b ∈ l₂, before b = false)
include earlier self later

/-- A row is kept while the rows before it are fewer than the limit. -/
theorem mem_take_sorted (room : ((l₁ ++ t :: l₂).filter (sortsBefore key before t)).length < limit) :
    t ∈ ((l₁ ++ t :: l₂).insertionSort (key · ≤ key ·)).take limit := by
  obtain ⟨front, rest, split, isFront⟩ := insertionSort_split key earlier self later
  rw [split, List.take_append, List.mem_append]
  right
  obtain ⟨n, more⟩ : ∃ n, limit - front.length = n + 1 := by
    rw [← isFront.length_eq] at room
    exact ⟨limit - front.length - 1, by omega⟩
  rw [more]
  exact List.mem_cons_self

/-- Otherwise the list is full of rows that sort before it. -/
theorem take_sorted_full (full : limit ≤ ((l₁ ++ t :: l₂).filter (sortsBefore key before t)).length) :
    (((l₁ ++ t :: l₂).insertionSort (key · ≤ key ·)).take limit).length = limit ∧
      ∀ b ∈ ((l₁ ++ t :: l₂).insertionSort (key · ≤ key ·)).take limit,
        b ∈ l₁ ++ t :: l₂ ∧ sortsBefore key before t b = true := by
  obtain ⟨front, rest, split, isFront⟩ := insertionSort_split key earlier self later
  rw [← isFront.length_eq] at full
  have isTake : ((l₁ ++ t :: l₂).insertionSort (key · ≤ key ·)).take limit = front.take limit := by
    rw [split, List.take_append_of_le_length full]
  rw [isTake]
  refine ⟨List.length_take_of_le full, fun b inside => ?_⟩
  exact List.mem_filter.mp (isFront.mem_iff.mp (List.mem_of_mem_take inside))

end Take

/-! ## Rows told apart by an identifier -/

section Identified

variable {ι : Type} [DecidableEq ι] {ident : α → ι} {l : List α} {limit : Nat}

/-- `i` comes before `target` in the given order. -/
def comesBefore (order : List ι) (target i : ι) : Bool := (order.takeWhile (· ≠ target)).contains i

/-- The rows before `t` are those in front of it in the list. -/
theorem split_comesBefore (distinct : (l.map ident).Nodup) (inside : t ∈ l) :
    ∃ l₁ l₂, l = l₁ ++ t :: l₂ ∧ (∀ b ∈ l₁, comesBefore (l.map ident) (ident t) (ident b) = true) ∧
      comesBefore (l.map ident) (ident t) (ident t) = false ∧
      ∀ b ∈ l₂, comesBefore (l.map ident) (ident t) (ident b) = false := by
  obtain ⟨l₁, l₂, split⟩ := List.append_of_mem inside
  rw [split, List.map_append, List.map_cons, List.nodup_middle, List.nodup_cons, List.mem_append, not_or,
    List.nodup_append] at distinct
  have isFront : (l.map ident).takeWhile (· ≠ ident t) = l₁.map ident := by
    rw [split, List.map_append, List.map_cons, List.takeWhile_append_of_pos, List.takeWhile_cons_of_neg (by simp),
      List.append_nil]
    intro i member
    rw [decide_eq_true_eq]
    rintro rfl
    exact distinct.1.1 member
  have before (i : ι) : comesBefore (l.map ident) (ident t) i = true ↔ i ∈ l₁.map ident := by
    rw [comesBefore, isFront, List.contains_iff_mem]
  refine ⟨l₁, l₂, split, fun b member => (before _).mpr (List.mem_map_of_mem member), ?_, fun b member => ?_⟩
  · rw [Bool.eq_false_iff, ne_eq, before]
    exact distinct.1.1
  · rw [Bool.eq_false_iff, ne_eq, before]
    exact fun front => distinct.2.2.2 _ front _ (List.mem_map_of_mem member) rfl

/-- The rows of `l` that sort before `t`. -/
def sortedBefore (key : α → κ) (ident : α → ι) (l : List α) (t : α) : List α :=
  l.filter (sortsBefore key (fun b => comesBefore (l.map ident) (ident t) (ident b)) t)

/-- A row is kept exactly when fewer rows than the limit sort before it. -/
theorem mem_take_sorted_iff (distinct : (l.map ident).Nodup) (inside : t ∈ l) :
    t ∈ (l.insertionSort (key · ≤ key ·)).take limit ↔ (sortedBefore key ident l t).length < limit := by
  rw [sortedBefore]
  obtain ⟨l₁, l₂, split, earlier, self, later⟩ := split_comesBefore distinct inside
  subst split
  constructor
  · intro kept
    by_contra full
    rw [not_lt] at full
    have sorts := ((take_sorted_full earlier self later full).2 t kept).2
    rw [sortsBefore, self, Bool.and_false, Bool.or_false, decide_eq_true_eq] at sorts
    exact lt_irrefl _ sorts
  · intro room
    exact mem_take_sorted earlier self later room

/-- What a sorted list cut at a limit keeps. -/
theorem take_sorted_perm (distinct : (l.map ident).Nodup) :
    ((l.insertionSort (key · ≤ key ·)).take limit).Perm
      (l.filter fun t => decide ((sortedBefore key ident l t).length < limit)) := by
  have sorted := List.perm_insertionSort (key · ≤ key ·) l
  have once : l.Nodup := distinct.of_map
  have kept : ((l.insertionSort (key · ≤ key ·)).take limit).Nodup :=
    (sorted.nodup_iff.mpr once).sublist (List.take_sublist _ _)
  rw [List.perm_ext_iff_of_nodup kept (once.filter _)]
  intro t
  rw [List.mem_filter, decide_eq_true_eq]
  constructor
  · intro taken
    have inside : t ∈ l := sorted.mem_iff.mp (List.mem_of_mem_take taken)
    exact ⟨inside, (mem_take_sorted_iff distinct inside).mp taken⟩
  · rintro ⟨inside, room⟩
    exact (mem_take_sorted_iff distinct inside).mpr room

end Identified

end Chronon.Collections
