import Chronon.Sql.Choices
import Chronon.System.Alone

/-!
# How long a queued run waits

While a run waits in its pool, every claim from the pool after its time takes a run that
is scheduled no later. So the claims it has to wait for are at most as many as the runs
that were queued in front of it, and those that have been created for its time or an
earlier one, or have been returned to the queue since. This holds whichever workers,
ticks, events and reclaims run, in any order.
-/

namespace Chronon
set_option autoImplicit false

open Concurrent Collections

/-- Queued in the pool, and scheduled for time `t` or earlier. -/
def inFront (poolId : String) (t : DateTime) (run : Run) : Bool :=
  run.status == .queued && Sql.runPoolKey run.poolId == poolId && decide (run.scheduledFor ≤ t)

/-- The runs a claim may take before run `id`, which is scheduled for time `t`. -/
def ahead (poolId : String) (t : DateTime) (id : String) (w : World) : Finset String :=
  ((w.store.runs.rows.filter (inFront poolId t)).map Run.runId).toFinset.erase id

/-- A claim from the pool, at time `t` or later. -/
def claimsFrom (poolId : String) (t : DateTime) (e : LogEntry) : Bool :=
  match e with
  | ⟨_, _, .store (.claimNextQueued pool _ now _), _⟩ => pool == poolId && decide (t ≤ now)
  | _ => false

/-- What a claim has taken. -/
def claimTook (e : LogEntry) : Option Run :=
  match e with
  | ⟨_, _, .store (.claimNextQueued _ _ _ _), .ok run⟩ => run
  | _ => none

/-- The runs a call creates, replaces or returns to the queue, as it stores them. -/
def placed (e : LogEntry) : List Run :=
  match e with
  | ⟨_, _, .store (.createRun run), .ok ()⟩ => [run]
  | ⟨_, _, .store (.updateRun run), .ok ()⟩ => [run]
  | ⟨_, found, .store (.reclaimExpiredRunLeases now), .ok ids⟩ =>
    ids.filterMap fun id => (found.store.runs.lookup id).map (Store.reclaimed now)
  | _ => []

/-- The runs that a call puts in front of time `t`, where they have not been before. -/
def joins (poolId : String) (t : DateTime) (e : LogEntry) : List String :=
  ((placed e).filter fun run => inFront poolId t run &&
    !(e.found.store.runs.lookup run.runId).any (inFront poolId t)).map Run.runId

/-- Run `id` waits in the pool for a worker, from time `t` on. -/
structure Waits (poolId id : String) (t : DateTime) (row : Run) : Prop where
  isRun : row.runId = id
  claimable : ∀ now, t ≤ now → Store.claimable poolId now row = true
  time : row.scheduledFor = t

section Step

variable {poolId id : String} {t : DateTime} {p : Nat} {oracle : Oracle} {w w' : World} {op : Op} {r : Ans op} {row : Run}

theorem mem_ahead {other : String} :
    other ∈ ahead poolId t id w ↔ other ≠ id ∧ ∃ row, w.run other = some row ∧ inFront poolId t row = true := by
  rw [ahead, Finset.mem_erase, List.mem_toFinset, List.mem_map]
  refine and_congr_right fun _ => ⟨?_, ?_⟩
  · rintro ⟨row, inside, rfl⟩
    obtain ⟨stored, front⟩ := List.mem_filter.mp inside
    exact ⟨row, Table.lookup_of_mem stored, front⟩
  · rintro ⟨row, found, front⟩
    obtain ⟨stored, isOther⟩ := Table.lookup_eq_some.mp found
    exact ⟨row, List.mem_filter.mpr ⟨stored, front⟩, isOther⟩

theorem inFront_queued (front : inFront poolId t row = true) : row.status = .queued := by
  unfold inFront at front
  simp only [Bool.and_eq_true, beq_iff_eq] at front
  exact front.1.1

theorem inFront_of_claimable {now : DateTime} (free : Store.claimable poolId now row = true) (early : row.scheduledFor ≤ t) :
    inFront poolId t row = true := by
  obtain ⟨queued, -, -, pool⟩ := Sql.claimable_iff.mp free
  simp [inFront, queued, pool, early]

theorem mem_joins {e : LogEntry} {run : Run} (inside : run ∈ placed e) (front : inFront poolId t run = true)
    (behind : (e.found.store.runs.lookup run.runId).any (inFront poolId t) = false) : run.runId ∈ joins poolId t e := by
  refine List.mem_map_of_mem (List.mem_filter.mpr ⟨inside, ?_⟩)
  rw [front, behind]
  rfl

/-- A run that comes in front has joined. -/
theorem joined (ran : perform p oracle w op = some (r, w')) {other : String} (inside : other ∈ ahead poolId t id w') :
    other ∈ ahead poolId t id w ∨ other ∈ joins poolId t ⟨p, w.state, op, r⟩ := by
  obtain ⟨apart, row', found', front⟩ := mem_ahead.mp inside
  by_cases wasAhead : (w.run other).any (inFront poolId t) = true
  · obtain ⟨old, stored, wasFront⟩ := (Option.any_eq_true _ _).mp wasAhead
    exact .inl (mem_ahead.mpr ⟨apart, old, stored, wasFront⟩)
  have behind : (w.run other).any (inFront poolId t) = false := Bool.eq_false_of_not_eq_true wasAhead
  have step := perform_run ran other
  rw [found'] at step
  generalize before : w.run other = old at step
  cases wrote : runWrite other op r with
  | none =>
    rw [wrote] at step
    cases step
    exact .inl (mem_ahead.mpr ⟨apart, row', before, front⟩)
  | some write =>
    rw [wrote] at step
    cases runWrite_wrote wrote with
    | create isOther | update isOther =>
      cases step
      subst isOther
      exact .inr (mem_joins List.mem_cons_self front behind)
    | claim _ =>
      cases step
      cases inFront_queued front
    | claimById _ =>
      cases step
      cases inFront_queued front
    | extend =>
      cases step with
      | extend _ active =>
        rcases Store.status_of_leased active with claimed | running
        · exact absurd (inFront_queued front) (by simp [claimed])
        · exact absurd (inFront_queued front) (by simp [running])
    | @reclaim now ids =>
      have executed := (answer_store (perform_cases ran).1).1
      generalize after : some row' = new at step
      cases step with
      | reclaim =>
        obtain ⟨old', rfl, isOld⟩ := Option.map_eq_some_iff.mp after.symm
        obtain ⟨isRow, isOther⟩ := Table.lookup_eq_some.mp before
        by_cases expired : Store.leaseExpired now old' = true
        · have answered : ids = (w.store.runs.rows.filter (Store.leaseExpired now)).map Run.runId :=
            (Except.ok.inj (congrArg Prod.fst executed)).symm
          have listed : other ∈ ids := by
            rw [answered]
            exact List.mem_map.mpr ⟨old', List.mem_filter.mpr ⟨isRow, expired⟩, isOther⟩
          have isPlaced : row' ∈ placed ⟨p, w.state, .store (.reclaimExpiredRunLeases now), .ok ids⟩ :=
            List.mem_filterMap.mpr ⟨other, listed, Option.map_eq_some_iff.mpr ⟨old', before, isOld⟩⟩
          have isRun : row'.runId = other := by
            obtain ⟨-, isRun⟩ := Table.lookup_eq_some.mp found'
            exact isRun
          subst isRun
          exact .inr (mem_joins isPlaced front behind)
        · rw [Store.reclaimed_of_unexpired (Bool.eq_false_of_not_eq_true expired)] at isOld
          exact .inl (mem_ahead.mpr ⟨apart, old', before, isOld ▸ front⟩)

/-- A claim takes a run in front. -/
theorem claim_takes {worker : String} {now : DateTime} {ttl : Int} {r : Result (Option Run)} (waits : Waits poolId id t row)
    (stored : w.run id = some row) (stays : w'.run id = some row) (late : t ≤ now)
    (ran : perform p oracle w (.store (.claimNextQueued poolId worker now ttl)) = some (r, w')) :
    ∃ run, r = .ok (some run) ∧ run.scheduledFor ≤ t ∧ run.runId ∈ ahead poolId t id w ∧ run.runId ∉ ahead poolId t id w' := by
  have executed := (answer_store (perform_cases ran).1).1
  obtain ⟨isRow, isRun⟩ := Table.lookup_eq_some.mp stored
  have free := waits.claimable now late
  obtain ⟨nothing, -, -⟩ | ⟨run, first, rfl, after⟩ := Sql.claimNextQueued_memory executed
  · exact absurd free (by simp [nothing row isRow])
  · have early : run.scheduledFor ≤ t := waits.time ▸ first.first row isRow free
    have taken : w'.run run.runId = some (Store.claimedRun run worker now ttl) := by
      rw [World.run, World.store, after]
      exact (Store.lookup_setRun ..).trans (if_pos rfl)
    have apart : run.runId ≠ id := by
      intro same
      rw [same, stays] at taken
      cases taken
      exact absurd (Store.queued_of_claimable free) (by simp [Store.claimedRun])
    refine ⟨_, rfl, early, mem_ahead.mpr ⟨apart, run, Table.lookup_of_mem first.inside, inFront_of_claimable first.free early⟩, ?_⟩
    intro inside
    obtain ⟨-, row', found, front⟩ := mem_ahead.mp inside
    have isTaken := taken.symm.trans found
    cases isTaken
    cases inFront_queued front

theorem claim_took (waits : Waits poolId id t row) (stored : w.run id = some row) (stays : w'.run id = some row)
    (ran : perform p oracle w op = some (r, w')) (claims : claimsFrom poolId t ⟨p, w.state, op, r⟩ = true) :
    ∃ run, claimTook ⟨p, w.state, op, r⟩ = some run ∧ run.scheduledFor ≤ t ∧ run.runId ≠ id := by
  unfold claimsFrom at claims
  split at claims
  · rename_i pool worker now ttl _ isEntry
    cases isEntry
    rw [Bool.and_eq_true, beq_iff_eq, decide_eq_true_eq] at claims
    obtain ⟨rfl, late⟩ := claims
    obtain ⟨run, rfl, early, before, -⟩ := claim_takes waits stored stays late ran
    exact ⟨run, rfl, early, (mem_ahead.mp before).1⟩
  · cases claims

/-- What one call does to the queue in front of a waiting run. -/
theorem ahead_call (waits : Waits poolId id t row) (stored : w.run id = some row) (stays : w'.run id = some row)
    (ran : perform p oracle w op = some (r, w')) :
    (if claimsFrom poolId t ⟨p, w.state, op, r⟩ then 1 else 0) + (ahead poolId t id w').card ≤
      (ahead poolId t id w).card + (joins poolId t ⟨p, w.state, op, r⟩).length := by
  have grows : ahead poolId t id w' ⊆ ahead poolId t id w ∪ (joins poolId t ⟨p, w.state, op, r⟩).toFinset := by
    intro other inside
    rw [Finset.mem_union, List.mem_toFinset]
    exact joined ran inside
  have few := List.toFinset_card_le (joins poolId t ⟨p, w.state, op, r⟩)
  split
  · rename_i claims
    unfold claimsFrom at claims
    split at claims
    · rename_i pool worker now ttl _ isEntry
      cases isEntry
      rw [Bool.and_eq_true, beq_iff_eq, decide_eq_true_eq] at claims
      obtain ⟨rfl, late⟩ := claims
      obtain ⟨run, rfl, -, before, after⟩ := claim_takes waits stored stays late ran
      have shrinks : ahead pool t id w' ⊆ (ahead pool t id w).erase run.runId := by
        intro other inside
        refine Finset.mem_erase.mpr ⟨fun same => after (same ▸ inside), ?_⟩
        have either := Finset.mem_union.mp (grows inside)
        exact either.resolve_right (by simp [joins, placed])
      have fewer := (Finset.card_le_card shrinks).trans_eq (Finset.card_erase_of_mem before)
      have positive := Finset.card_pos.mpr ⟨_, before⟩
      omega
    · cases claims
  · have larger := (Finset.card_le_card grows).trans (Finset.card_union_le _ _)
    omega

end Step

section Run

variable {host : Host} {poolId id : String} {t : DateTime} {row : Run} {c c' : SystemConfig}

/-- The run stays as it is. -/
def Stays (id : String) (row : Run) (_ : SystemLabel) (w w' : World) : Prop := w.run id = some row ∧ w'.run id = some row

/-- The queue in front of a waiting run, over a run of the system. -/
theorem ahead_reach (waits : Waits poolId id t row) (reach : (system host).Reach (Stays id row) c c') :
    ∃ more, c'.world.log = more ++ c.world.log ∧
      more.countP (claimsFrom poolId t) + (ahead poolId t id c'.world).card ≤
        (ahead poolId t id c.world).card + (more.flatMap (joins poolId t)).length ∧
      ∀ e ∈ more, claimsFrom poolId t e = true → ∃ run, claimTook e = some run ∧ run.scheduledFor ≤ t ∧ run.runId ≠ id := by
  induction reach with
  | refl => exact ⟨[], rfl, (Nat.zero_add _).le, fun _ inside => by cases inside⟩
  | @step d d' ch l _ moves stays ih =>
    obtain ⟨more, isLog, bound, took⟩ := ih
    obtain ⟨stored, stays⟩ := stays
    obtain ⟨p, proc, rfl, -, rfl⟩ | ⟨p, oracle, op, r, k, w, rfl, -, runs, rfl⟩ | ⟨e, w, rfl, drifts, rfl⟩ :=
      Machine.step_cases moves
    · exact ⟨more, isLog, bound, took⟩
    · have one := ahead_call waits stored stays runs
      refine ⟨⟨p, d.world.state, op, r⟩ :: more, by rw [(perform_cases runs).2, isLog]; rfl, ?_, ?_⟩
      · rw [List.countP_cons, List.flatMap_cons, List.length_append]
        omega
      · intro e inside claims
        rcases List.mem_cons.mp inside with rfl | earlier
        · exact claim_took waits stored stays runs claims
        · exact took e earlier claims
    · obtain ⟨-, -, runs, log⟩ := drift_cases drifts
      have same : ahead poolId t id w = ahead poolId t id d.world := by
        ext other
        rw [mem_ahead, mem_ahead, runs]
      exact ⟨more, log.trans isLog, same ▸ bound, took⟩

/-- **A queued run is overtaken only by the runs in front of it.** While it waits, every claim from its pool after its time
takes another run that is scheduled no later, and there are at most as many of them as there were runs in front of it
or have joined them since. -/
theorem waits_its_turn (waits : Waits poolId id t row) (reach : (system host).Reach (Stays id row) c c') :
    (∀ e ∈ c.world.entriesSince c'.world, claimsFrom poolId t e = true →
        ∃ run, claimTook e = some run ∧ run.scheduledFor ≤ t ∧ run.runId ≠ id) ∧
      (c.world.entriesSince c'.world).countP (claimsFrom poolId t) + (ahead poolId t id c'.world).card ≤
        (ahead poolId t id c.world).card + ((c.world.entriesSince c'.world).flatMap (joins poolId t)).length := by
  obtain ⟨more, isLog, bound, took⟩ := ahead_reach waits reach
  rw [World.entriesSince_eq isLog]
  refine ⟨fun e inside => took e (List.mem_reverse.mp inside), ?_⟩
  have joined := ((List.reverse_perm more).flatMap_right (joins poolId t)).length_eq
  rw [List.countP_reverse, joined]
  exact bound

end Run

/-- Two queued runs of a job. -/
def queuedPair : State :=
  ((State.single minutelyJob 30).withRun (Run.forJob "r1" "j" "noop" 10)).withRun (Run.forJob "r2" "j" "noop" 20)

/-- The second one waits while a slot claims the first. -/
theorem waits_its_turn_second : ∃ c',
    (system .simple).Reach (Stays "r2" (Run.forJob "r2" "j" "noop" 20)) (.idle (.fresh queuedPair)) c' ∧
      ((World.fresh queuedPair).entriesSince c'.world).countP (claimsFrom "general" 20) = 1 ∧
      1 + (ahead "general" 20 "r2" c'.world).card ≤ (ahead "general" 20 "r2" (.fresh queuedPair)).card +
        (((World.fresh queuedPair).entriesSince c'.world).flatMap (joins "general" 20)).length := by
  have waits : Waits "general" "r2" 20 (Run.forJob "r2" "j" "noop" 20) := by
    refine ⟨rfl, fun now late => ?_, rfl⟩
    simp [Store.claimable, Store.poolOk, Run.forJob, Run.new, late]
  have start : (system .simple).step (.idle (.fresh queuedPair)) (.start 0 (.slot "general" "w")) = some (_, _) := rfl
  have started : (system .simple).Reach (Stays "r2" (Run.forJob "r2" "j" "noop" 20)) (.idle (.fresh queuedPair)) _ :=
    Machine.Reach.refl.step start ⟨rfl, rfl⟩
  have reads := started.step (show (system .simple).step _ (.call 0 .quiet) = some (_, _) from rfl) ⟨rfl, rfl⟩
  have claims := reads.step (show (system .simple).step _ (.call 0 .quiet) = some (_, _) from rfl) ⟨rfl, rfl⟩
  exact ⟨_, claims, rfl, (waits_its_turn waits claims).2⟩

end Chronon
