import Chronon.Sql.Parity

/-!
# Operations that leave an order open

The due query orders by `next_run_at`, `claim_next_queued` takes a run with the
least `scheduled_for`, and a reclaim returns its rows in any order. For each,
the answers SQL may give are those the in-memory store gives in some iteration
order of its maps.
-/

namespace Chronon.Sql
set_option autoImplicit false

open Collections Relational

section Choice

variable {s : Store} {d : Db}

theorem isDue_unstamped (clock : DateTime) (owned : List Nat) (dueUntil : DateTime) (j : Job) :
    Store.isDue clock owned dueUntil (unstamped j) = Store.isDue clock owned dueUntil j := rfl

/-- A due row has a fire time. -/
theorem fireTime_of_isDue {clock dueUntil : DateTime} {owned : List Nat} {j : Job}
    (due : Store.isDue clock owned dueUntil j = true) : ∃ t, j.nextRunAt = some t ∧ t ≤ dueUntil := by
  have scheduled := Store.scheduleDue_of_isDue due
  simp only [Store.scheduleDue, Bool.and_eq_true] at scheduled
  obtain ⟨t, next, early⟩ := (Option.any_eq_true _ _).mp scheduled.1.2
  exact ⟨t, next, by simpa using early⟩

/-- The order of the in-memory due list. -/
def fireOrder (dueUntil : DateTime) (a b : Job) : Prop := a.nextRunAt.getD dueUntil ≤ b.nextRunAt.getD dueUntil

instance (dueUntil : DateTime) : DecidableRel (fireOrder dueUntil) :=
  fun a b => inferInstanceAs (Decidable (a.nextRunAt.getD dueUntil ≤ b.nextRunAt.getD dueUntil))

/-- Among due rows, `ORDER BY next_run_at` is that order. -/
theorem ordered_iff {clock dueUntil : DateTime} {owned : List Nat} {rows out : List Job}
    (due : ∀ j ∈ rows, Store.isDue clock owned dueUntil j = true) :
    Ordered Job.nextRunAt rows out ↔ out.Perm rows ∧ out.Pairwise (fireOrder dueUntil) := by
  refine and_congr_right fun same => ?_
  have times : ∀ j ∈ out, ∃ t, j.nextRunAt = some t := by
    intro j inside
    obtain ⟨t, next, -⟩ := fireTime_of_isDue (due j (same.mem_iff.mp inside))
    exact ⟨t, next⟩
  refine List.Pairwise.iff_of_mem fun {a b} insideA insideB => ?_
  obtain ⟨ta, nextA⟩ := times a insideA
  obtain ⟨tb, nextB⟩ := times b insideB
  simp [fireOrder, nextA, nextB]

/-- The due rows of the in-memory store in the order of its list. -/
def dueRows (s : Store) (clock : DateTime) (owned : List Nat) (dueUntil : DateTime) : List Job :=
  (s.jobs.rows.filter (Store.isDue clock owned dueUntil)).insertionSort (fireOrder dueUntil)

theorem findDue_eq (s : Store) (clock : DateTime) (owned : List Nat) (dueUntil : DateTime) (limit : Nat) :
    s.findDueJobIdsInPartitions clock owned dueUntil limit =
      if owned.isEmpty || limit == 0 then .ok [] else .ok (((dueRows s clock owned dueUntil).take limit).map (·.jobId)) := rfl

instance (dueUntil : DateTime) : Std.Total (fireOrder dueUntil) := ⟨fun _ _ => le_total _ _⟩

instance (dueUntil : DateTime) : IsTrans Job (fireOrder dueUntil) := ⟨fun _ _ _ first second => le_trans first second⟩

theorem dueRows_ordered (s : Store) (clock : DateTime) (owned : List Nat) (dueUntil : DateTime) :
    (dueRows s clock owned dueUntil).Pairwise (fireOrder dueUntil) := List.pairwise_insertionSort _ _

theorem dueRows_perm (s : Store) (clock : DateTime) (owned : List Nat) (dueUntil : DateTime) :
    (dueRows s clock owned dueUntil).Perm (s.jobs.rows.filter (Store.isDue clock owned dueUntil)) :=
  List.perm_insertionSort _ _

theorem selected_due (d : Db) (clock : DateTime) (owned : List Nat) (dueUntil : DateTime) :
    selected d.jobs (Db.due clock owned dueUntil) = d.jobs.rows.filter (Store.isDue clock owned dueUntil) := by
  simp only [selected, Db.holds_due]

/-- The SQL due lists: the due rows in any order by fire time, cut at the limit. -/
theorem findDue_sql_iff {clock dueUntil : DateTime} {owned : List Nat} {limit : Nat} {r : Result (List String)} :
    d.FindDueJobIdsInPartitions clock owned dueUntil limit r ↔
      if owned.isEmpty || limit == 0 then r = .ok []
      else ∃ rows : List Job, rows.Perm (d.jobs.rows.filter (Store.isDue clock owned dueUntil)) ∧
        rows.Pairwise (fireOrder dueUntil) ∧ r = .ok ((rows.take limit).map (·.jobId)) := by
  unfold Db.FindDueJobIdsInPartitions
  split
  · rfl
  · have due : ∀ j ∈ d.jobs.rows.filter (Store.isDue clock owned dueUntil), Store.isDue clock owned dueUntil j = true :=
      fun j inside => (List.mem_filter.mp inside).2
    simp only [selected_due, ordered_iff due, and_assoc]

/-- The rows of one store in the order of the other's. -/
theorem exists_in_order {f : Job → Job} {rows rows' : List Job} (same : (rows.map f).Perm (rows'.map f))
    (keeps : ∀ j, (f j).jobId = j.jobId ∧ (f j).nextRunAt = j.nextRunAt) {dueUntil : DateTime} {out : List Job}
    (permuted : out.Perm rows) (ordered : out.Pairwise (fireOrder dueUntil)) :
    ∃ out' : List Job, out'.Perm rows' ∧ out'.Pairwise (fireOrder dueUntil) ∧ out'.map (·.jobId) = out.map (·.jobId) ∧
      out'.map (·.nextRunAt) = out.map (·.nextRunAt) := by
  obtain ⟨out', isPerm, images⟩ := exists_map_eq ((permuted.map f).trans same)
  have through : ∀ {β : Type} (g : Job → β), (∀ j, g (f j) = g j) → out'.map g = out.map g := by
    intro β g ignores
    have both : (out'.map f).map g = (out.map f).map g := by rw [images]
    rw [List.map_map, List.map_map, show g ∘ f = g from funext ignores] at both
    exact both
  have times := through Job.nextRunAt fun j => (keeps j).2
  refine ⟨out', isPerm, ?_, through Job.jobId fun j => (keeps j).1, times⟩
  have asTimes : ∀ rows : List Job, rows.Pairwise (fireOrder dueUntil) ↔
      (rows.map (·.nextRunAt)).Pairwise fun a b => a.getD dueUntil ≤ b.getD dueUntil := by
    intro rows
    rw [List.pairwise_map]
    rfl
  rw [asTimes, times, ← asTimes]
  exact ordered

/-- Any order of a store's due rows by fire time is the one of its list, in some iteration order. -/
theorem exists_dueRows {clock dueUntil : DateTime} {owned : List Nat} {out : List Job}
    (permuted : out.Perm (s.jobs.rows.filter (Store.isDue clock owned dueUntil)))
    (ordered : out.Pairwise (fireOrder dueUntil)) : ∃ s₀, Reordered s s₀ ∧ dueRows s₀ clock owned dueUntil = out := by
  obtain ⟨rows, same, chosen⟩ := exists_filter_eq permuted
  obtain ⟨s₀, other, isRows⟩ := Reordered.of_jobs same
  refine ⟨s₀, other, ?_⟩
  rw [dueRows, isRows, chosen]
  exact ordered.insertionSort_eq

theorem findDue_agrees (same : Same s d) (clock : DateTime) (owned : List Nat) (dueUntil : DateTime) (limit : Nat)
    (r : Result (List String)) :
    d.FindDueJobIdsInPartitions clock owned dueUntil limit r ↔
      ∃ s₀, Reordered s s₀ ∧ s₀.findDueJobIdsInPartitions clock owned dueUntil limit = r := by
  rw [findDue_sql_iff]
  simp only [findDue_eq]
  split
  · constructor
    · rintro rfl
      exact ⟨s, .refl s, rfl⟩
    · rintro ⟨-, -, rfl⟩
      rfl
  · constructor
    · rintro ⟨rows, permuted, ordered, rfl⟩
      have dues := map_filter_perm (isDue_unstamped clock owned dueUntil) same.jobRows
      obtain ⟨out, isPerm, isOrdered, ids, -⟩ := exists_in_order dues.symm (fun _ => ⟨rfl, rfl⟩) permuted ordered
      obtain ⟨s₀, other, isOut⟩ := exists_dueRows isPerm isOrdered
      refine ⟨s₀, other, ?_⟩
      rw [isOut, List.map_take, ids, ← List.map_take]
    · rintro ⟨s₀, other, rfl⟩
      have dues := map_filter_perm (isDue_unstamped clock owned dueUntil) (same.reordered other).jobRows
      obtain ⟨out, isPerm, isOrdered, ids, -⟩ := exists_in_order dues (fun _ => ⟨rfl, rfl⟩)
        (dueRows_perm s₀ clock owned dueUntil) (dueRows_ordered s₀ clock owned dueUntil)
      refine ⟨out, isPerm, isOrdered, ?_⟩
      rw [List.map_take, ← ids, ← List.map_take]

/-- Two lists of due rows by fire time have the same fire times. -/
theorem fireTimes_unique {dueUntil : DateTime} {a b : List Job} (times : ∀ j ∈ a ++ b, j.nextRunAt.isSome = true)
    (orderedA : a.Pairwise (fireOrder dueUntil)) (orderedB : b.Pairwise (fireOrder dueUntil))
    (same : (a.map (·.nextRunAt)).Perm (b.map (·.nextRunAt))) : a.map (·.nextRunAt) = b.map (·.nextRunAt) := by
  have asTimes : ∀ rows : List Job, rows.Pairwise (fireOrder dueUntil) →
      (rows.map fun j => j.nextRunAt.getD dueUntil).Pairwise (· ≤ ·) := by
    intro rows ordered
    rw [List.pairwise_map]
    exact ordered
  have keys := List.Perm.eq_of_pairwise' (asTimes a orderedA) (asTimes b orderedB) (by
    have mapped := same.map fun t => t.getD dueUntil
    rwa [List.map_map, List.map_map] at mapped)
  have back : ∀ rows : List Job, (∀ j ∈ rows, j.nextRunAt.isSome = true) →
      rows.map (·.nextRunAt) = (rows.map fun j => j.nextRunAt.getD dueUntil).map some := by
    intro rows present
    rw [List.map_map]
    refine List.map_congr_left fun j inside => ?_
    obtain ⟨t, isTime⟩ := Option.isSome_iff_exists.mp (present j inside)
    simp [isTime]
  rw [back a fun j inside => times j (List.mem_append_left _ inside),
    back b fun j inside => times j (List.mem_append_right _ inside), keys]

/-! The queue: the run picked in memory is the first of the claimable ones with the least `scheduled_for`. -/

/-- A claimable run that no claimable run among `runs` precedes. -/
structure Earliest (poolId : String) (now : DateTime) (runs : List Run) (run : Run) : Prop where
  inside : run ∈ runs
  free : Store.claimable poolId now run = true
  first : ∀ other ∈ runs, Store.claimable poolId now other = true → run.scheduledFor ≤ other.scheduledFor

theorem earlier_some (poolId : String) (now : DateTime) (candidate run : Run) :
    ∃ next, Store.earlier poolId now (some candidate) run = some next ∧ next.scheduledFor ≤ candidate.scheduledFor ∧
      (Store.claimable poolId now run = true → next.scheduledFor ≤ run.scheduledFor) := by
  unfold Store.earlier
  split
  · split
    · rename_i none_
      cases none_
    · rename_i c isCandidate
      cases isCandidate
      split
      · rename_i before
        exact ⟨run, rfl, le_of_lt before, fun _ => le_refl _⟩
      · rename_i notBefore
        exact ⟨candidate, rfl, le_refl _, fun _ => not_lt.mp notBefore⟩
  · rename_i taken
    exact ⟨candidate, rfl, le_refl _, fun free => absurd free taken⟩

/-- What is picked from a candidate on is no later than the candidate and the claimable runs seen. -/
theorem foldl_earlier_some (poolId : String) (now : DateTime) (runs : List Run) (candidate : Run) :
    ∃ picked, runs.foldl (Store.earlier poolId now) (some candidate) = some picked ∧
      picked.scheduledFor ≤ candidate.scheduledFor ∧
      ∀ other ∈ runs, Store.claimable poolId now other = true → picked.scheduledFor ≤ other.scheduledFor := by
  induction runs generalizing candidate with
  | nil => exact ⟨candidate, rfl, le_refl _, fun _ inside => by cases inside⟩
  | cons run rest ih =>
    obtain ⟨next, isNext, before, here⟩ := earlier_some poolId now candidate run
    obtain ⟨picked, isPicked, first, others⟩ := ih next
    refine ⟨picked, by rw [List.foldl_cons, isNext, isPicked], le_trans first before, ?_⟩
    intro other inside free
    rcases List.mem_cons.mp inside with rfl | later
    · exact le_trans first (here free)
    · exact others other later free

/-- The pick is an earliest claimable run, if there is one. -/
theorem foldl_earlier_none (poolId : String) (now : DateTime) (runs : List Run) :
    match runs.foldl (Store.earlier poolId now) none with
    | none => ∀ run ∈ runs, Store.claimable poolId now run = false
    | some run => Earliest poolId now runs run := by
  induction runs with
  | nil => exact fun _ inside => by cases inside
  | cons run rest ih =>
    rw [List.foldl_cons]
    by_cases free : Store.claimable poolId now run = true
    · rw [Store.earlier, if_pos free]
      obtain ⟨picked, isPicked, before, others⟩ := foldl_earlier_some poolId now rest run
      rw [isPicked]
      have least : ∀ other ∈ run :: rest, Store.claimable poolId now other = true →
          picked.scheduledFor ≤ other.scheduledFor := by
        intro other inside isFree
        rcases List.mem_cons.mp inside with rfl | later
        · exact before
        · exact others other later isFree
      rcases Store.foldl_earlier rest isPicked with same | ⟨inside, isFree⟩
      · cases same
        exact ⟨List.mem_cons_self, free, least⟩
      · exact ⟨List.mem_cons_of_mem _ inside, isFree, least⟩
    · rw [Store.earlier, if_neg free]
      split at ih
      · intro other inside
        rcases List.mem_cons.mp inside with rfl | later
        · exact Bool.eq_false_of_not_eq_true free
        · exact ih other later
      · refine ⟨List.mem_cons_of_mem _ ih.inside, ih.free, ?_⟩
        intro other inside isFree
        rcases List.mem_cons.mp inside with rfl | later
        · exact absurd isFree free
        · exact ih.first other later isFree

/-- A candidate that nothing claimable precedes is kept. -/
theorem foldl_earlier_first {poolId : String} {now : DateTime} {runs : List Run} {candidate : Run}
    (first : ∀ other ∈ runs, Store.claimable poolId now other = true → candidate.scheduledFor ≤ other.scheduledFor) :
    runs.foldl (Store.earlier poolId now) (some candidate) = some candidate := by
  induction runs with
  | nil => rfl
  | cons run rest ih =>
    have kept : Store.earlier poolId now (some candidate) run = some candidate := by
      unfold Store.earlier
      split
      · rename_i free
        exact if_neg (not_lt.mpr (first run List.mem_cons_self free))
      · rfl
    rw [List.foldl_cons, kept]
    exact ih fun other inside => first other (List.mem_cons_of_mem _ inside)

theorem selected_claimable (d : Db) (poolId : String) (now : DateTime) :
    selected d.runs (Db.claimable poolId now) = d.runs.rows.filter (Store.claimable poolId now) := by
  simp only [selected, Db.holds_claimable]

/-- An earliest claimable run can come first in the order of the subquery. -/
theorem exists_ordered {poolId : String} {now : DateTime} {runs : List Run} {run : Run}
    (earliest : Earliest poolId now runs run) :
    ∃ rows, Ordered (fun r : Run => some r.scheduledFor) (runs.filter (Store.claimable poolId now)) rows ∧
      rows.head? = some run := by
  have chosen := List.mem_filter.mpr ⟨earliest.inside, earliest.free⟩
  obtain ⟨before, after, split⟩ := List.append_of_mem chosen
  let order (a b : Run) : Prop := a.scheduledFor ≤ b.scheduledFor
  have total : Std.Total order := ⟨fun _ _ => le_total _ _⟩
  have trans : IsTrans Run order := ⟨fun _ _ _ first second => le_trans first second⟩
  have decidable : DecidableRel order := fun a b => inferInstanceAs (Decidable (a.scheduledFor ≤ b.scheduledFor))
  let others := (before ++ after).insertionSort order
  have isPerm : (run :: others).Perm (runs.filter (Store.claimable poolId now)) := by
    rw [split]
    exact ((List.perm_insertionSort order _).cons run).trans List.perm_middle.symm
  refine ⟨run :: others, ⟨isPerm, List.pairwise_cons.mpr ⟨?_, ?_⟩⟩, rfl⟩
  · intro other inside x isX y isY
    cases isX
    cases isY
    have stored := List.mem_filter.mp (isPerm.mem_iff.mp (List.mem_cons_of_mem _ inside))
    exact earliest.first other stored.1 stored.2
  · refine (List.pairwise_insertionSort order (before ++ after)).imp fun {a b} le x isX y isY => ?_
    cases isX
    cases isY
    exact le

/-- What `claim_next_queued` may do in SQL. -/
theorem claimNextQueued_sql_iff {poolId workerId : String} {now : DateTime} {ttl : Int} {r : Result (Option Run)} {d' : Db} :
    d.ClaimNextQueued poolId workerId now ttl r d' ↔
      ((∀ run ∈ d.runs.rows, Store.claimable poolId now run = false) ∧ r = .ok none ∧ d' = d) ∨
      ∃ run, Earliest poolId now d.runs.rows run ∧ r = .ok (some (Store.claimedRun run workerId now ttl)) ∧
        d' = d.updateRuns (Db.runIs run.runId) (fun old => Store.claimedRun old workerId now ttl) fun _ => rfl := by
  unfold Db.ClaimNextQueued
  rw [selected_claimable]
  constructor
  · rintro ⟨rows, ⟨isPerm, ordered⟩, outcome⟩
    cases rows with
    | nil =>
      refine .inl ⟨fun run inside => Bool.eq_false_of_not_eq_true fun free => ?_, outcome⟩
      have listed := isPerm.mem_iff.mpr (List.mem_filter.mpr ⟨inside, free⟩)
      cases listed
    | cons run rest =>
      have chosen := List.mem_filter.mp (isPerm.mem_iff.mp List.mem_cons_self)
      refine .inr ⟨run, ⟨chosen.1, chosen.2, fun other inside free => ?_⟩, outcome⟩
      have listed := isPerm.mem_iff.mpr (List.mem_filter.mpr ⟨inside, free⟩)
      rcases List.mem_cons.mp listed with rfl | later
      · exact le_refl _
      · exact (List.pairwise_cons.mp ordered).1 other later _ rfl _ rfl
  · rintro (⟨nothing, rfl, rfl⟩ | ⟨run, earliest, rfl, rfl⟩)
    · have empty : d'.runs.rows.filter (Store.claimable poolId now) = [] :=
        List.filter_eq_nil_iff.mpr fun run inside => by rw [nothing run inside]; exact Bool.false_ne_true
      exact ⟨[], ⟨by rw [empty], List.Pairwise.nil⟩, rfl, rfl⟩
    · obtain ⟨rows, ordered, isFirst⟩ := exists_ordered earliest
      refine ⟨rows, ordered, ?_⟩
      rw [isFirst]
      exact ⟨rfl, rfl⟩

/-- What it does in memory. -/
theorem claimNextQueued_memory {poolId workerId : String} {now : DateTime} {ttl : Int} {r : Result (Option Run)}
    {s' : Store} (ran : s.claimNextQueued poolId workerId now ttl = (r, s')) :
    ((∀ run ∈ s.runs.rows, Store.claimable poolId now run = false) ∧ r = .ok none ∧ s' = s) ∨
      ∃ run, Earliest poolId now s.runs.rows run ∧ r = .ok (some (Store.claimedRun run workerId now ttl)) ∧
        s' = s.setRun (Store.claimedRun run workerId now ttl) := by
  have picked := foldl_earlier_none poolId now s.runs.rows
  unfold Store.claimNextQueued at ran
  split at ran
  · rename_i none_
    rw [none_] at picked
    cases ran
    exact .inl ⟨picked, rfl, rfl⟩
  · rename_i run isPicked
    rw [isPicked] at picked
    cases ran
    exact .inr ⟨run, picked, rfl, rfl⟩

/-- Any earliest claimable run is the one picked, in some iteration order. -/
theorem exists_picked {poolId : String} {now : DateTime} {run : Run} (earliest : Earliest poolId now s.runs.rows run)
    (workerId : String) (ttl : Int) :
    ∃ s₀, Reordered s s₀ ∧ s₀.claimNextQueued poolId workerId now ttl =
      (.ok (some (Store.claimedRun run workerId now ttl)), s₀.setRun (Store.claimedRun run workerId now ttl)) := by
  obtain ⟨before, after, split⟩ := List.append_of_mem earliest.inside
  have isPerm : (run :: (before ++ after)).Perm s.runs.rows := by
    rw [split]
    exact List.perm_middle.symm
  obtain ⟨s₀, other, isRows⟩ := Reordered.of_runs isPerm
  refine ⟨s₀, other, ?_⟩
  have picked : s₀.runs.rows.foldl (Store.earlier poolId now) none = some run := by
    have opened : Store.earlier poolId now none run = some run := if_pos earliest.free
    rw [isRows, List.foldl_cons, opened]
    exact foldl_earlier_first fun other inside free =>
      earliest.first other (isPerm.mem_iff.mp (List.mem_cons_of_mem _ inside)) free
  unfold Store.claimNextQueued
  rw [picked]

/-- Claiming the same run on both sides. -/
theorem Same.claimed (same : Same s d) {run : Run} (stored : run ∈ s.runs.rows) (workerId : String) (now : DateTime)
    (ttl : Int) :
    Same (s.setRun (Store.claimedRun run workerId now ttl))
      (d.updateRuns (Db.runIs run.runId) (fun old => Store.claimedRun old workerId now ttl) fun _ => rfl) := by
  have changed := changeRunIf_agrees same (fun _ => true) (fun old => Store.claimedRun old workerId now ttl)
    (fun r => by rw [Db.holds_runIs run.runId r, Bool.and_true]) fun _ => rfl
  rw [changeRunIf, Table.lookup_of_mem stored] at changed
  exact changed

theorem Earliest.perm {poolId : String} {now : DateTime} {runs runs' : List Run} {run : Run}
    (earliest : Earliest poolId now runs run) (same : runs.Perm runs') : Earliest poolId now runs' run :=
  ⟨same.mem_iff.mp earliest.inside, earliest.free, fun other inside => earliest.first other (same.mem_iff.mpr inside)⟩

/-! The reclaim. -/

theorem reclaim_rows (same : Same s d) (now : DateTime) :
    Same (s.reclaimExpiredRunLeases now).2 (d.updateRuns (Db.leaseExpired now)
      (fun run => { run with status := .queued, claimedBy := none, claimLeaseUntil := none, startedAt := none })
      fun _ => rfl) where
  jobs := same.jobs
  runs id := by
    rw [Store.lookup_reclaim, same.runs, Db.updateRuns, lookup_update]
    refine Option.map_congr fun run _ => ?_
    simp only [onRow, Db.holds_leaseExpired, Store.reclaimed]
  leader := same.leader

/-- Any order of the reclaimed runs is the one of the answer, in some iteration order. -/
theorem exists_reclaimed {now : DateTime} {out : List Run} (permuted : out.Perm (s.runs.rows.filter (Store.leaseExpired now))) :
    ∃ s₀, Reordered s s₀ ∧ (s₀.reclaimExpiredRunLeases now).1 = .ok (out.map (·.runId)) := by
  obtain ⟨rows, same, chosen⟩ := exists_filter_eq permuted
  obtain ⟨s₀, other, isRows⟩ := Reordered.of_runs same
  refine ⟨s₀, other, ?_⟩
  simp only [Store.reclaimExpiredRunLeases, isRows, chosen]

theorem selected_leaseExpired (d : Db) (now : DateTime) :
    selected d.runs (Db.leaseExpired now) = d.runs.rows.filter (Store.leaseExpired now) := by
  simp only [selected, Db.holds_leaseExpired]

end Choice

end Chronon.Sql
