import Chronon.Collections.Table
import Mathlib.Data.Prod.Lex
import Mathlib.Data.String.Basic

/-!
# Sorted sets

Members with a score each, as Redis keeps them: in the order of the scores, and
of the members where scores are equal. A member that is added again gets the new
score.
-/

namespace Chronon.Collections
set_option autoImplicit false

/-- Members with their scores. -/
abbrev SortedSet (K S : Type) := Table (Prod.fst : K × S → K)

namespace SortedSet

variable {K S : Type} [LinearOrder K] [LinearOrder S]

/-- By score, then by member. -/
def rank (e : K × S) : S ×ₗ K := toLex (e.2, e.1)

omit [LinearOrder K] [LinearOrder S] in
theorem rank_injective : Function.Injective (rank (K := K) (S := S)) := by
  rintro ⟨k, s⟩ ⟨k', s'⟩ same
  have parts := Prod.mk.inj (toLex_inj.mp same)
  exact Prod.ext parts.2 parts.1

theorem score_le {a b : K × S} (le : rank a ≤ rank b) : a.2 ≤ b.2 :=
  (Prod.Lex.toLex_le_toLex.mp le).elim le_of_lt fun same => same.1.le

/-- `ZADD`. -/
def add (z : SortedSet K S) (k : K) (score : S) : SortedSet K S := z.insert (k, score)

/-- The entries with a score of at most `max`, in order. -/
def upTo (z : SortedSet K S) (max : S) : List (K × S) :=
  (z.rows.filter fun e => e.2 ≤ max).insertionSort fun a b => rank a ≤ rank b

/-- `ZRANGEBYSCORE` from the lowest score, with a limit. -/
def first (z : SortedSet K S) (max : S) (count : Nat) : List K := ((z.upTo max).take count).map Prod.fst

/-- `ZREM`, one member after the other. -/
def remove (z : SortedSet K S) (ks : List K) : SortedSet K S := ks.foldl Table.erase z

def contains (z : SortedSet K S) (k : K) : Bool := (z.lookup k).isSome

omit [LinearOrder S] in
theorem lookup_add (z : SortedSet K S) (k : K) (score : S) (k' : K) :
    (z.add k score).lookup k' = if k = k' then some (k, score) else z.lookup k' := Table.lookup_insert z (k, score) k'

omit [LinearOrder S] in
theorem lookup_remove (z : SortedSet K S) (ks : List K) (k : K) :
    (z.remove ks).lookup k = if k ∈ ks then none else z.lookup k := by
  induction ks generalizing z with
  | nil => simp [remove]
  | cons k' ks ih =>
    have next : z.remove (k' :: ks) = remove (z.erase k') ks := rfl
    rw [next, ih]
    by_cases same : k = k'
    · subst same
      rw [Table.lookup_erase_self]
      simp
    · rw [Table.lookup_erase_ne (Ne.symm same)]
      simp [same]

variable {z : SortedSet K S} {max : S}

theorem mem_upTo {e : K × S} : e ∈ z.upTo max ↔ z.lookup e.1 = some e ∧ e.2 ≤ max := by
  rw [upTo, List.mem_insertionSort, List.mem_filter, decide_eq_true_eq, Table.lookup_eq_some]
  simp

theorem upTo_pairwise (z : SortedSet K S) (max : S) : (z.upTo max).Pairwise fun a b => rank a ≤ rank b :=
  List.pairwise_insertionSort _ _

theorem upTo_nodup (z : SortedSet K S) (max : S) : ((z.upTo max).map Prod.fst).Nodup := by
  have perm := (List.perm_insertionSort (fun a b => rank a ≤ rank b) (z.rows.filter fun e => e.2 ≤ max)).map Prod.fst
  exact perm.nodup_iff.mpr ((List.filter_sublist.map Prod.fst).nodup z.distinct)

/-- The listing is the only list in order with these entries. -/
theorem upTo_eq {l : List (K × S)} (sorted : l.Pairwise fun a b => rank a ≤ rank b) (distinct : l.Nodup)
    (entries : ∀ e, e ∈ l ↔ z.lookup e.1 = some e ∧ e.2 ≤ max) : z.upTo max = l := by
  have perm : (z.upTo max).Perm l :=
    (List.perm_ext_iff_of_nodup (List.Nodup.of_map _ (z.upTo_nodup max)) distinct).mpr fun e => by rw [mem_upTo, entries]
  exact perm.eq_of_pairwise (fun a b _ _ le ge => rank_injective (le_antisymm le ge)) (z.upTo_pairwise max) sorted

theorem upTo_congr {z' : SortedSet K S} (same : ∀ k, z'.lookup k = z.lookup k) : z'.upTo max = z.upTo max :=
  upTo_eq (z.upTo_pairwise max) (List.Nodup.of_map _ (z.upTo_nodup max)) fun e => by rw [mem_upTo, same]

/-- Without its first entry the listing is its tail. -/
theorem upTo_tail {z' : SortedSet K S} {e : K × S} {rest : List (K × S)} (first : z.upTo max = e :: rest)
    (removed : ∀ k, z'.lookup k = if k = e.1 then none else z.lookup k) : z'.upTo max = rest := by
  have sorted := z.upTo_pairwise max
  have distinct := z.upTo_nodup max
  rw [first] at sorted distinct
  obtain ⟨absent, distinct⟩ := List.nodup_cons.mp distinct
  refine upTo_eq (List.pairwise_cons.mp sorted).2 (List.Nodup.of_map _ distinct) fun f => ?_
  rw [removed]
  constructor
  · intro inside
    have other : f.1 ≠ e.1 := fun same => absent (same ▸ List.mem_map_of_mem inside)
    rw [if_neg other]
    exact mem_upTo.mp (first ▸ List.mem_cons_of_mem e inside)
  · rintro ⟨found, low⟩
    split at found
    · cases found
    · rename_i other
      have inside : f ∈ e :: rest := first ▸ mem_upTo.mpr ⟨found, low⟩
      exact (List.mem_cons.mp inside).resolve_left fun same => other (congrArg Prod.fst same)

end SortedSet

end Chronon.Collections
