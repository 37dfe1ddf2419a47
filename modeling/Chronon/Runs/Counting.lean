import Chronon.Tick.Starvation
import Chronon.Tick.Traces

/-!
# Which active runs a tick counts

`count_active_runs` looks at the listing of the job's runs, which is sorted by
`scheduled_for`, latest first, and cut at 10 000 rows. An active run with that
many runs of its job before it is not counted, so a tick can create a run for a
job that is at its limit. `counts_active_runs_iff` says exactly when the count
keeps a tick from doing so.
-/

namespace Chronon
set_option autoImplicit false

open Collections

/-- The runs of job `j` that its listing puts before `run`: those scheduled later, and those scheduled at the same time
that come first in the iteration order. -/
def listedBefore (j : String) (w : World) (run : Run) : List Run :=
  sortedBefore (fun r => OrderDual.toDual r.scheduledFor) Run.runId (runsFor j w) run

/-- The active runs of job `j` with fewer than 10 000 runs before them. -/
def seenActive (j : String) (w : World) : List Run :=
  (activeRuns j w).filter fun run => decide ((listedBefore j w run).length < 10000)

/-- The task has created a run. -/
def CreatesRun (w w' : World) : Prop := ∃ id, w.run id = none ∧ w'.run id ≠ none

/-- The job has fewer active runs than its `concurrency`. -/
def BelowLimit (j : String) (w : World) : Prop :=
  ∃ row, w.job j = some row ∧ ((activeRuns j w).length : Int) < row.concurrency

/-- Nothing but the limit keeps the tick from creating a run of this row. -/
structure Enqueueable (instanceId : String) (w : World) (row : Job) : Prop where
  free : tickFree w.clock row = true
  gate : passesGate w.clock row = true
  unclaimed : row.scheduleKind = .runOnce → onceTaken instanceId w.clock row = false

/-! ## The count -/

section Count

variable {host : Host} {instanceId jobId j : String} {w w' : World} {row : Job} {out : Option (Result Bool)}

theorem runsFor_distinct (j : String) (w : World) : ((runsFor j w).map (·.runId)).Nodup :=
  w.store.runs.distinct.sublist (List.filter_sublist.map _)

/-- The listing holds the runs with fewer than `limit` runs before them. -/
theorem latestFirst_take_perm (j : String) (w : World) (limit : Nat) :
    ((Store.latestFirst (runsFor j w)).take limit).Perm
      ((runsFor j w).filter fun run => decide ((listedBefore j w run).length < limit)) := by
  have isSorted : Store.latestFirst (runsFor j w) = (runsFor j w).insertionSort fun a b =>
      OrderDual.toDual a.scheduledFor ≤ OrderDual.toDual b.scheduledFor := rfl
  rw [isSorted]
  exact take_sorted_perm (runsFor_distinct j w)

/-- What `count_active_runs` answers. -/
theorem countedActive_eq (j : String) (w : World) : countedActive w.store j = (seenActive j w).length := by
  have listed := (latestFirst_take_perm j w 10000).filter fun run => run.status.isActive
  have counted : seenActive j w = ((runsFor j w).filter fun run => decide ((listedBefore j w run).length < 10000)).filter
      fun run => run.status.isActive := by
    rw [seenActive, activeRuns_eq, List.filter_filter, List.filter_filter]
    exact List.filter_congr fun run _ => Bool.and_comm _ _
  rw [counted, ← listed.length_eq]
  rfl

/-- While the job has at most 10 000 runs, all active ones are seen. -/
theorem seenActive_of_few (few : (runsFor j w).length ≤ 10000) : seenActive j w = activeRuns j w := by
  refine List.filter_eq_self.mpr fun run active => ?_
  have inside : run ∈ runsFor j w := by
    rw [activeRuns_eq] at active
    exact List.mem_of_mem_filter active
  obtain ⟨l₁, l₂, split, -, self, -⟩ := split_comesBefore (runsFor_distinct j w) inside
  have fewer : (listedBefore j w run).length < (runsFor j w).length := by
    refine List.length_filter_lt_length_iff_exists.mpr ⟨run, inside, ?_⟩
    simp [sortsBefore, self]
  exact decide_eq_true (lt_of_lt_of_le fewer few)

/-- A tick creates a run exactly of a row that it can take and that has fewer active runs, as far as it sees, than
allowed. -/
theorem createsRun_iff (ends : Ends .calm (enqueueDueJob host instanceId jobId) w out w') :
    CreatesRun w w' ↔ ∃ row, w.job jobId = some row ∧ Enqueueable instanceId w row ∧
      ((seenActive jobId w).length : Int) < row.concurrency := by
  have held (row : Job) (stored : w.job jobId = some row) : heldBack instanceId w.store w.clock row =
      (decide (row.concurrency ≤ (seenActive jobId w).length) ||
        (passesGate w.clock row && decide (row.scheduleKind = .runOnce) && onceTaken instanceId w.clock row)) := by
    have key : row.jobId = jobId := Table.key_of_lookup stored
    rw [heldBack, key, countedActive_eq]
  have same (unchanged : ∀ id, w'.run id = w.run id) : ¬ CreatesRun w w' := by
    rintro ⟨id, new, created⟩
    rw [unchanged, new] at created
    exact created rfl
  cases enqueueDueJob_outcome (fun _ => rfl) ends with
  | unclaimed busy after =>
    refine iff_of_false (same fun id => World.run_congr after id) ?_
    rintro ⟨row, stored, enqueueable, -⟩
    have free := enqueueable.free
    rw [busy row stored] at free
    cases free
  | gaveBack row stamp stored free back after =>
    refine iff_of_false (same fun id => ?_) ?_
    · rw [World.run, after]
      rfl
    · rintro ⟨row', stored', enqueueable, room⟩
      rw [stored] at stored'
      obtain rfl := Option.some.inj stored'
      rw [held row stored, decide_eq_false (not_le.mpr room), Bool.false_or, Bool.and_eq_true, Bool.and_eq_true,
        decide_eq_true_eq] at back
      rw [enqueueable.unclaimed back.1.2] at back
      cases back.2
  | skipped row completedAt stamp stored free forward late after =>
    refine iff_of_false (same fun id => ?_) ?_
    · rw [World.run, after]
      rfl
    · rintro ⟨row', stored', enqueueable, -⟩
      rw [stored] at stored'
      obtain rfl := Option.some.inj stored'
      rw [enqueueable.gate] at late
      cases late
  | created row completedAt stamp runId stored free forward passes fresh after =>
    refine iff_of_true ⟨runId, fresh, ?_⟩ ⟨row, stored, ⟨free, passes, fun once => ?_⟩, ?_⟩
    · have created : w'.run runId = some (tickRun row runId (row.nextRunAt.getD w.clock)) := by
        rw [World.run, after, Store.lookup_setRun]
        exact if_pos rfl
      rw [created]
      exact Option.some_ne_none _
    · rw [held row stored, passes, once, Bool.or_eq_false_iff] at forward
      exact forward.2
    · rw [held row stored, Bool.or_eq_false_iff, decide_eq_false_iff_not, not_le] at forward
      exact forward.1

end Count

/-- **The concurrency check sees every active run** that matters, exactly while a job that the tick could enqueue and
that is at its limit has that many active runs among the 10 000 that come first. -/
theorem counts_active_runs_iff {host : Host} {instanceId jobId : String} {w w' : World} {out : Option (Result Bool)}
    (ends : Ends .calm (enqueueDueJob host instanceId jobId) w out w') :
    (CreatesRun w w' → BelowLimit jobId w) ↔
      ∀ row, w.job jobId = some row → Enqueueable instanceId w row →
        row.concurrency ≤ (activeRuns jobId w).length → row.concurrency ≤ (seenActive jobId w).length := by
  rw [createsRun_iff ends]
  constructor
  · intro keeps row stored enqueueable full
    by_contra unseen
    obtain ⟨row', stored', room⟩ := keeps ⟨row, stored, enqueueable, not_le.mp unseen⟩
    rw [stored] at stored'
    obtain rfl := Option.some.inj stored'
    exact absurd room (not_lt.mpr full)
  · rintro sees ⟨row, stored, enqueueable, room⟩
    refine ⟨row, stored, ?_⟩
    by_contra full
    exact absurd room (not_lt.mpr (sees row stored enqueueable (not_lt.mp full)))

/-- A job at its limit of one run: the tick counts this run and creates none. -/
theorem counts_active_runs_limited : ∃ out w', Ends .calm (enqueueDueJob .simple "A" "j") (.fresh limitedState) out w' ∧
    (CreatesRun (.fresh limitedState) w' → BelowLimit "j" (.fresh limitedState)) := by
  obtain ⟨out, w', ends⟩ : ∃ out w', Ends .calm (enqueueDueJob .simple "A" "j") (.fresh limitedState) out w' :=
    Ends.exists le_refl _ _
  refine ⟨out, w', ends, (counts_active_runs_iff ends).mpr fun row stored _ full => ?_⟩
  rw [seenActive_of_few (by decide)]
  exact full

/-! ## A run that is not counted -/

/-- A run that has ended, one second after the one that is waiting. -/
def endedRun (n : Nat) : Run :=
  { Run.forJob (String.ofList (List.replicate n 'x')) "j" "noop" (seconds 1) with status := .success }

/-- A run that waits for a worker of its pool, and 10 000 later ones that have ended. -/
def longHistory : List Run := (List.range 10000).map endedRun ++ [Run.forJob "r" "j" "noop" 0]

theorem longHistory_distinct : (longHistory.map (·.runId)).Nodup := by
  have named (n : Nat) : (endedRun n).runId = String.ofList (List.replicate n 'x') := rfl
  have injective : Function.Injective fun n => (endedRun n).runId := by
    intro a b same
    have lengths := congrArg String.length (show (endedRun a).runId = (endedRun b).runId from same)
    rw [named, named, String.length_ofList, String.length_ofList, List.length_replicate, List.length_replicate] at lengths
    exact lengths
  rw [longHistory, List.map_append, List.map_map, List.nodup_append]
  refine ⟨List.nodup_range.map injective, List.nodup_singleton _, ?_⟩
  intro a inside b single same
  obtain ⟨n, -, rfl⟩ := List.mem_map.mp inside
  rw [List.map_singleton, List.mem_singleton] at single
  have chars := congrArg String.toList (same.trans single)
  have x : 'r' ∈ List.replicate n 'x' := by
    rw [← String.toList_ofList (l := List.replicate n 'x')]
    have isList : (String.ofList (List.replicate n 'x')).toList = ['r'] := chars
    rw [isList]
    exact List.mem_singleton_self _
  cases List.eq_of_mem_replicate x

/-- The job of `limitedState`, with a long history. -/
def longLived : World :=
  .fresh { State.single limitedJob (seconds 60) with
    store := { (State.single limitedJob (seconds 60)).store with runs := ⟨longHistory, longHistory_distinct⟩ } }

/-- The waiting run is not counted, and a second one is created. -/
theorem waiting_run_overlooked : ∃ out w', Ends .calm (enqueueDueJob .simple "A" "j") longLived out w' ∧
    CreatesRun longLived w' ∧ ¬ BelowLimit "j" longLived := by
  obtain ⟨out, w', ends⟩ : ∃ out w', Ends .calm (enqueueDueJob .simple "A" "j") longLived out w' :=
    Ends.exists le_refl _ _
  have stored : longLived.job "j" = some limitedJob := rfl
  have runs : runsFor "j" longLived = longHistory := by
    refine List.filter_eq_self.mpr fun run inside => ?_
    rcases List.mem_append.mp inside with ended | waiting
    · obtain ⟨n, -, rfl⟩ := List.mem_map.mp ended
      rfl
    · rw [List.mem_singleton.mp waiting]
      rfl
  have active : activeRuns "j" longLived = [Run.forJob "r" "j" "noop" 0] := by
    have none_ : ((List.range 10000).map endedRun).filter (fun run => run.status.isActive) = [] := by
      refine List.filter_eq_nil_iff.mpr fun run inside => ?_
      obtain ⟨n, -, rfl⟩ := List.mem_map.mp inside
      rintro ⟨⟩
    rw [activeRuns_eq, runs, longHistory, List.filter_append, none_]
    rfl
  have unseen : seenActive "j" longLived = [] := by
    have before : ((List.range 10000).map endedRun).length ≤
        (listedBefore "j" longLived (Run.forJob "r" "j" "noop" 0)).length := by
      refine List.Sublist.length_le ?_
      rw [listedBefore, sortedBefore, runs, longHistory, List.filter_append]
      refine List.Sublist.trans ?_ (List.sublist_append_left _ _)
      rw [List.filter_eq_self.mpr]
      intro run inside
      obtain ⟨n, -, rfl⟩ := List.mem_map.mp inside
      rfl
    rw [List.length_map, List.length_range] at before
    rw [seenActive, active, List.filter_cons_of_neg, List.filter_nil]
    rw [decide_eq_true_eq, not_lt]
    exact before
  refine ⟨out, w', ends, (createsRun_iff ends).mpr ⟨limitedJob, stored, ⟨rfl, by decide, by rintro ⟨⟩⟩, ?_⟩, ?_⟩
  · rw [unseen]
    decide
  · rintro ⟨row, stored', room⟩
    rw [stored] at stored'
    obtain rfl := Option.some.inj stored'
    rw [active] at room
    exact absurd room (by decide)

end Chronon
