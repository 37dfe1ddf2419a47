import Chronon.Axum.Router
import Chronon.Runs.Counting
import Chronon.Runs.Work

/-!
# Walking the pages of `GET /runs`

A client asks for the runs of a job, or of all jobs, page by page, each time from the
number of runs it was given so far, while the system goes on. Runs are listed by the
time they are scheduled for, latest first. They are never removed and keep their time,
so a run can only move towards the end of the list, and the client cannot miss it, unless
another run of the list is scheduled for the same time: the order of these is not fixed.
-/

namespace Chronon
set_option autoImplicit false

open Concurrent Collections

/-- The runs that `GET /runs` lists for this job, or for all jobs, in no order. -/
def listedRuns (jobId : Option String) (w : World) : List Run :=
  w.store.runs.rows.filter fun r => jobId.all fun id => r.jobId = some id

/-- Those that are scheduled for a later time. -/
def laterRuns (jobId : Option String) (w : World) (t : DateTime) : List Run :=
  (listedRuns jobId w).filter fun r => t < r.scheduledFor

/-- No run of the list but `id` is scheduled for time `t`. -/
def OnlyOneAt (jobId : Option String) (w : World) (id : String) (t : DateTime) : Prop :=
  ∀ other ∈ listedRuns jobId w, other.scheduledFor = t → other.runId = id

/-- The client has been given these runs, in pages of any size. -/
inductive PageWalk (host : Host) (jobId status : Option String) (c : SystemConfig) :
    List Axum.RunResponse → SystemConfig → Prop where
  | start : PageWalk host jobId status c [] c
  | goOn {given : List Axum.RunResponse} {c' c'' : SystemConfig} : PageWalk host jobId status c given c' →
      (system host).Reach (fun _ _ _ => True) c' c'' → PageWalk host jobId status c given c''
  | page {given page : List Axum.RunResponse} {c' : SystemConfig} {limit : Option Nat} {w : World} :
      PageWalk host jobId status c given c' → limit ≠ some 0 →
      Ends .still (Axum.listRuns ⟨jobId, status, some given.length, limit⟩) c'.world (some (.ok, .okay page)) w →
      PageWalk host jobId status c (given ++ page) c'

section Page

variable {jobId status : Option String} {w w' : World}

/-- What a page shows. -/
theorem listRuns_page {offset : Nat} {limit : Option Nat} {page : List Axum.RunResponse}
    (unfiltered : status.bind CoordinatorService.parseRunStatus = none)
    (ends : Ends .still (Axum.listRuns ⟨jobId, status, some offset, limit⟩) w (some (.ok, .okay page)) w') :
    page = (((Store.latestFirst (listedRuns jobId w)).drop offset).take (Axum.clampListLimit limit)).map .ofRun := by
  obtain ⟨r, t, calls, rest⟩ := ends
  have ran := calls.exec rfl
  rw [unfiltered] at ran
  have answers := congrArg Prod.fst ran
  subst answers
  obtain ⟨isPage, -⟩ := rest
  cases isPage
  have listed : (w.store.runs.rows.filter fun r => jobId.all (fun id => r.jobId = some id) && Option.none.all (r.status = ·)) =
      listedRuns jobId w := List.filter_congr fun r _ => Bool.and_true _
  rw [listed]
  rfl

/-- Before the only run that is scheduled for its time come those that are scheduled for later. -/
theorem mem_take_latestFirst {run : Run} (inside : run ∈ listedRuns jobId w)
    (only : OnlyOneAt jobId w run.runId run.scheduledFor) (n : Nat) :
    run ∈ (Store.latestFirst (listedRuns jobId w)).take n ↔ (laterRuns jobId w run.scheduledFor).length < n := by
  have distinct : ((listedRuns jobId w).map Run.runId).Nodup :=
    w.store.runs.distinct.sublist (List.filter_sublist.map _)
  have isSorted : Store.latestFirst (listedRuns jobId w) = (listedRuns jobId w).insertionSort fun a b =>
      OrderDual.toDual a.scheduledFor ≤ OrderDual.toDual b.scheduledFor := rfl
  rw [isSorted, mem_take_sorted_iff distinct inside]
  have before : sortedBefore (fun r => OrderDual.toDual r.scheduledFor) Run.runId (listedRuns jobId w) run =
      laterRuns jobId w run.scheduledFor := by
    refine List.filter_congr fun other isOther => ?_
    rw [sortsBefore]
    by_cases same : other.scheduledFor = run.scheduledFor
    · have isRun := only other isOther same
      have self : comesBefore ((listedRuns jobId w).map Run.runId) run.runId run.runId = false := by
        obtain ⟨-, -, -, -, self, -⟩ := split_comesBefore distinct inside
        exact self
      rw [isRun, self, same]
      simp
    · simp [same]
  rw [before]

/-- A page holds the run, or ends before it. -/
theorem page_reaches {run : Run} (inside : run ∈ listedRuns jobId w)
    (only : OnlyOneAt jobId w run.runId run.scheduledFor) {offset : Nat}
    (ahead : offset ≤ (laterRuns jobId w run.scheduledFor).length) (n : Nat) :
    run ∈ ((Store.latestFirst (listedRuns jobId w)).drop offset).take n ∨
      offset + n ≤ (laterRuns jobId w run.scheduledFor).length := by
  rcases Nat.lt_or_ge (laterRuns jobId w run.scheduledFor).length (offset + n) with reached | further
  · left
    have taken := (mem_take_latestFirst inside only (offset + n)).mpr reached
    rw [List.take_add, List.mem_append, mem_take_latestFirst inside only] at taken
    exact taken.resolve_left (not_lt.mpr ahead)
  · exact .inr further

/-- There is a next page as long as the run has not been reached. -/
theorem page_nonempty {run : Run} (inside : run ∈ listedRuns jobId w)
    (only : OnlyOneAt jobId w run.runId run.scheduledFor) {offset n : Nat}
    (ahead : offset ≤ (laterRuns jobId w run.scheduledFor).length) (positive : 0 < n) :
    ((Store.latestFirst (listedRuns jobId w)).drop offset).take n ≠ [] := by
  have member : run ∈ Store.latestFirst (listedRuns jobId w) := (List.perm_insertionSort _ _).mem_iff.mpr inside
  rw [← List.take_length (l := Store.latestFirst (listedRuns jobId w)), mem_take_latestFirst inside only] at member
  rw [ne_eq, List.take_eq_nil_iff, List.drop_eq_nil_iff]
  omega

end Page

theorem clampListLimit_pos {limit : Option Nat} (some_ : limit ≠ some 0) : 0 < Axum.clampListLimit limit := by
  unfold Axum.clampListLimit Axum.maxListLimit
  cases limit with
  | none => decide
  | some n =>
    have positive : n ≠ 0 := fun zero => some_ (congrArg some zero)
    rw [Option.getD_some]
    omega

section Walk

variable {host : Host} {s : State} {c c' c'' : SystemConfig} {jobId status : Option String}
  {given : List Axum.RunResponse} {id : String} {row : Run} {t : DateTime}

/-- Runs stay, with their job and their time. -/
theorem run_kept (standing : (workRules host s).Standing c) (later : (system host).Reach (fun _ _ _ => True) c c')
    (found : c.world.run id = some row) :
    ∃ row', c'.world.run id = some row' ∧ row'.jobId = row.jobId ∧ row'.scheduledFor = row.scheduledFor := by
  obtain ⟨first, created, work⟩ := standing.inv.genuine found
  have isRun : row.runId = id := Table.key_of_lookup found
  rw [isRun] at created
  have same := ((workRules host s).sound (protocol_governs host) standing later).inv.stored id
  rw [createdAs_kept standing created later, Option.map_some] at same
  obtain ⟨row', stored', work'⟩ := Option.map_eq_some_iff.mp same
  have both : row'.work = row.work := work'.trans work.symm
  exact ⟨row', stored', congrArg (fun work => work.payload.jobId) both, congrArg Work.scheduledFor both⟩

theorem OnlyOneAt.earlier (standing : (workRules host s).Standing c) (later : (system host).Reach (fun _ _ _ => True) c c')
    (only : OnlyOneAt jobId c'.world id t) : OnlyOneAt jobId c.world id t := by
  intro other inside sameTime
  obtain ⟨stored, ofJob⟩ := List.mem_filter.mp inside
  have found : c.world.run other.runId = some other := Table.lookup_eq_some.mpr ⟨stored, rfl⟩
  obtain ⟨row', found', job, time⟩ := run_kept standing later found
  obtain ⟨stored', key⟩ := Table.lookup_eq_some.mp found'
  exact key.symm.trans (only row' (List.mem_filter.mpr ⟨stored', by rwa [job]⟩) (time.trans sameTime))

/-- The runs in front of a place of the list only get more. -/
theorem laterRuns_mono (standing : (workRules host s).Standing c) (later : (system host).Reach (fun _ _ _ => True) c c')
    (jobId : Option String) (t : DateTime) :
    (laterRuns jobId c.world t).length ≤ (laterRuns jobId c'.world t).length := by
  have distinct : ((laterRuns jobId c.world t).map Run.runId).Nodup :=
    c.world.store.runs.distinct.sublist ((List.filter_sublist.trans List.filter_sublist).map _)
  have kept : (laterRuns jobId c.world t).map Run.runId ⊆ (laterRuns jobId c'.world t).map Run.runId := by
    intro id inside
    obtain ⟨run, isLater, rfl⟩ := List.mem_map.mp inside
    obtain ⟨isListed, after⟩ := List.mem_filter.mp isLater
    obtain ⟨stored, ofJob⟩ := List.mem_filter.mp isListed
    obtain ⟨row', found', job, time⟩ := run_kept standing later (Table.lookup_eq_some.mpr ⟨stored, rfl⟩)
    obtain ⟨stored', key⟩ := Table.lookup_eq_some.mp found'
    refine List.mem_map.mpr ⟨row', List.mem_filter.mpr ⟨List.mem_filter.mpr ⟨stored', ?_⟩, ?_⟩, key⟩
    · rwa [job]
    · rwa [time]
  have fewer := (distinct.subperm kept).length_le
  rwa [List.length_map, List.length_map] at fewer

theorem PageWalk.reach (walk : PageWalk host jobId status c given c') : (system host).Reach (fun _ _ _ => True) c c' := by
  induction walk with
  | start => exact .refl
  | goOn _ further ih => exact ih.trans further
  | page _ _ _ ih => exact ih

/-- A run has been given, or the walk has not come to it. -/
theorem PageWalk.ahead (standing : (workRules host s).Standing c) (walk : PageWalk host jobId status c given c')
    (unfiltered : status.bind CoordinatorService.parseRunStatus = none) (found : c.world.run id = some row)
    (ofJob : jobId.all fun j => row.jobId = some j) (only : OnlyOneAt jobId c'.world id row.scheduledFor) :
    (∃ response ∈ given, response.runId = id) ∨ given.length ≤ (laterRuns jobId c'.world row.scheduledFor).length := by
  induction walk with
  | start => exact .inr (Nat.zero_le _)
  | goOn walk further ih =>
    have between := (workRules host s).sound (protocol_governs host) standing walk.reach
    rcases ih (only.earlier between further) with isGiven | ahead
    · exact .inl isGiven
    · exact .inr (ahead.trans (laterRuns_mono between further jobId row.scheduledFor))
  | @page given page c' limit w walk positive ends ih =>
    rcases ih only with ⟨response, isGiven, isRun⟩ | ahead
    · exact .inl ⟨response, List.mem_append_left _ isGiven, isRun⟩
    · obtain ⟨row', found', job, time⟩ := run_kept standing walk.reach found
      obtain ⟨stored', key⟩ := Table.lookup_eq_some.mp found'
      have inside : row' ∈ listedRuns jobId c'.world := List.mem_filter.mpr ⟨stored', by rwa [job]⟩
      rw [← time, ← key] at only
      rw [← time] at ahead
      have isPage := listRuns_page unfiltered ends
      rcases page_reaches inside only ahead (Axum.clampListLimit limit) with reached | further
      · refine .inl ⟨.ofRun row', List.mem_append_right _ ?_, key⟩
        rw [isPage]
        exact List.mem_map_of_mem reached
      · right
        have short : page.length ≤ Axum.clampListLimit limit := by
          rw [isPage, List.length_map]
          exact List.length_take_le _ _
        rw [List.length_append, ← time]
        omega

/-- **Nothing is missed.** -/
theorem pages_miss_nothing (host : Host) {w : World} {limit : Option Nat}
    (reach : (system host).Reach (fun _ _ _ => True) (.idle (.fresh s)) c)
    (walk : PageWalk host jobId status c given c') (unfiltered : status.bind CoordinatorService.parseRunStatus = none)
    (positive : limit ≠ some 0)
    (finished : Ends .still (Axum.listRuns ⟨jobId, status, some given.length, limit⟩) c'.world (some (.ok, .okay [])) w)
    (found : c.world.run id = some row) (ofJob : jobId.all fun j => row.jobId = some j)
    (only : OnlyOneAt jobId c'.world id row.scheduledFor) : ∃ response ∈ given, response.runId = id := by
  have standing := work_reachable host reach
  rcases walk.ahead standing unfiltered found ofJob only with isGiven | ahead
  · exact isGiven
  · obtain ⟨row', found', job, time⟩ := run_kept standing walk.reach found
    obtain ⟨stored', key⟩ := Table.lookup_eq_some.mp found'
    have inside : row' ∈ listedRuns jobId c'.world := List.mem_filter.mpr ⟨stored', by rwa [job]⟩
    rw [← time, ← key] at only
    rw [← time] at ahead
    have isPage := listRuns_page unfiltered finished
    have another := page_nonempty inside only ahead (clampListLimit_pos positive)
    exact absurd (List.map_eq_nil_iff.mp isPage.symm) another

/-- A store with two runs of a job, and one of another job at the same time. -/
def twoRuns : State :=
  (((State.single minutelyJob 0).withRun (Run.forJob "r1" "j" "noop" 10)).withRun
    (Run.forJob "r2" "j" "noop" 20)).withRun (Run.forJob "x" "k" "noop" 10)

theorem pages_miss_nothing_two : ∃ given c',
    PageWalk .simple (some "j") none (.idle (.fresh twoRuns)) given c' ∧ given.length = 2 ∧
      ∃ response ∈ given, response.runId = "r1" := by
  have later : (system .simple).Reach (fun _ _ _ => True) (.idle (.fresh twoRuns))
      ⟨⟨{ twoRuns with clock := 30 }, []⟩, fun _ => none⟩ := by
    have moves : (system .simple).step (.idle (.fresh twoRuns)) (.env (.advance 30)) =
        some (.env (.advance 30), ⟨⟨{ twoRuns with clock := 30 }, []⟩, fun _ => none⟩) := rfl
    exact Machine.Reach.refl.step moves trivial
  have one : some 1 ≠ some 0 := by decide
  have five : some 5 ≠ some 0 := by decide
  have nothing : PageWalk .simple (some "j") none (.idle (.fresh twoRuns)) [] (.idle (.fresh twoRuns)) := .start
  have first : PageWalk .simple (some "j") none (.idle (.fresh twoRuns)) [.ofRun (Run.forJob "r2" "j" "noop" 20)] _ :=
    (nothing.page one ⟨_, _, ⟨_, _, ⟨rfl, rfl⟩, rfl, rfl⟩, rfl, rfl⟩).goOn later
  have second : PageWalk .simple (some "j") none (.idle (.fresh twoRuns))
      [.ofRun (Run.forJob "r2" "j" "noop" 20), .ofRun (Run.forJob "r1" "j" "noop" 10)] _ :=
    first.page five ⟨_, _, ⟨_, _, ⟨rfl, rfl⟩, rfl, rfl⟩, rfl, rfl⟩
  have only : OnlyOneAt (some "j") ⟨{ twoRuns with clock := 30 }, []⟩ "r1" 10 := by
    unfold OnlyOneAt
    decide
  have stored : (World.fresh twoRuns).run "r1" = some (Run.forJob "r1" "j" "noop" 10) := rfl
  exact ⟨_, _, second, rfl, pages_miss_nothing .simple .refl second rfl five
    ⟨_, _, ⟨_, _, ⟨rfl, rfl⟩, rfl, rfl⟩, rfl, rfl⟩ stored rfl only⟩

end Walk

end Chronon
