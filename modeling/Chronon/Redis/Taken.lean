import Chronon.Redis.Alone

/-!
# How runs leave their ready sets

A call can only leave a queued run unlisted if it inserts it, resets it, pops
it, writes it or gives it a score that does not fit; and an unlisted run stays
so unless a call claims it, adds it or overwrites it.
-/

namespace Chronon.Composite
set_option autoImplicit false

open Concurrent Redis Collections

/-- The call `c` settles the run: it claims it, adds it or overwrites it. -/
def SettledBy : Op → Run → Prop
  | .claimRunById runId poolId _ now _, run => run.runId = runId ∧ Store.claimable poolId now run = true
  | .claimRunsByIds runIds poolId _ now _, run => run.runId ∈ runIds ∧ Store.claimable poolId now run = true
  | .enqueueRun poolId runId _, run => poolId = Sql.runPoolKey run.poolId ∧ runId = run.runId
  | .updateRun updated, run => updated.runId = run.runId
  | _, _ => False

/-- In state `t` the call `c` takes the run: it is queued then, and in no ready set with a score that fits. -/
def TakenBy (layer : RedisQueueLayer) (fits : Run → Int → Prop) (t : State) : Op → Run → Prop
  | .createRun created, run =>
    created = run ∧ t.run run.runId = none ∧ run.status = .queued ∧ ¬Listed layer fits t run
  | .claimNextRunIds poolId count now, run =>
    t.run run.runId = some run ∧ run.status = .queued ∧ Sql.runPoolKey run.poolId = poolId ∧
      run.runId ∈ t.due layer poolId count now
  | .updateRun updated, run =>
    updated = run ∧ t.run run.runId ≠ none ∧ run.status = .queued ∧ ¬Listed layer fits t run
  | .reclaimExpiredRunLeases now, run =>
    ∃ old, t.run run.runId = some old ∧ Store.leaseExpired now old = true ∧ Store.reclaimed now old = run ∧
      ¬Listed layer fits t run
  | .enqueueRun poolId runId scheduledFor, run =>
    t.run run.runId = some run ∧ run.status = .queued ∧ poolId = Sql.runPoolKey run.poolId ∧ runId = run.runId ∧
      ¬fits run (timestampMillis scheduledFor)
  | _, _ => False

/-- The run is queued and in no ready set once the call `c` has taken effect in state `t`. -/
def LeftOut (layer : RedisQueueLayer) (fits : Run → Int → Prop) (t : State) (c : Op) (run : Run) : Prop :=
  (Stranded layer fits t run ∧ ¬SettledBy c run) ∨ TakenBy layer fits t c run

/-- The answered call inserted, popped or reset the run `id`. -/
inductive Takes (id : String) : (op : Op) → Ans op → Prop
  | create {run : Run} : run.runId = id → Takes id (.createRun run) (.ok ())
  | pop {poolId : String} {count : Nat} {now : DateTime} {ids : List String} : id ∈ ids →
      Takes id (.claimNextRunIds poolId count now) (.ok ids)
  | reset {now : DateTime} {ids : List String} : id ∈ ids → Takes id (.reclaimExpiredRunLeases now) (.ok ids)

/-- The call gives `run` a score that does not fit. -/
inductive Misplaces (fits : Run → Int → Prop) (run : Run) : Op → Prop
  | enqueue {scheduledFor : DateTime} : ¬fits run (timestampMillis scheduledFor) →
      Misplaces fits run (.enqueueRun (Sql.runPoolKey run.poolId) run.runId scheduledFor)

variable {layer : RedisQueueLayer} {fits : Run → Int → Prop} {s' t : State} {run : Run} {c : Op} {r : Ans c}

theorem Step.create_leftOut {created : Run} {r : Result Unit} (steps : Step layer t (.createRun created) r s') :
    Stranded layer fits s' run ↔ LeftOut layer fits t (.createRun created) run := by
  obtain ⟨order, answered⟩ := steps
  simp only [answer, Sql.createRun] at answered
  split at answered
  · rename_i old found
    cases answered
    refine ⟨fun stranded => .inl ⟨stranded, id⟩, ?_⟩
    rintro (⟨stranded, -⟩ | ⟨rfl, absent, -, -⟩)
    · exact stranded
    · rw [State.run, found] at absent
      cases absent
  · rename_i absent
    cases answered
    constructor
    · intro stranded
      have stored := stranded.stored
      simp only [State.run, Table.lookup_insert] at stored
      split at stored
      · cases stored
        exact .inr ⟨rfl, absent, stranded.queued, fun listed => stranded.unlisted (listed.of_keys rfl)⟩
      · exact .inl ⟨stranded.before stored rfl, id⟩
    · rintro (⟨stranded, -⟩ | ⟨rfl, -, queued, unlisted⟩)
      · refine stranded.after ?_ rfl
        have stored : t.rows.lookup run.runId = some run := stranded.stored
        rw [State.run, Table.lookup_insert_ne, stored]
        intro same
        rw [same, stored] at absent
        cases absent
      · exact ⟨Table.lookup_insert_self _ created, queued, fun listed => unlisted (listed.of_keys rfl)⟩

theorem Step.pop_leftOut {poolId : String} {count : Nat} {now : DateTime} {r : Result (List String)}
    (steps : Step layer t (.claimNextRunIds poolId count now) r s') :
    Stranded layer fits s' run ↔ LeftOut layer fits t (.claimNextRunIds poolId count now) run := by
  obtain ⟨-, rfl⟩ := Step.claimNextRunIds.mp steps
  by_cases popped : poolId = Sql.runPoolKey run.poolId ∧ run.runId ∈ t.due layer poolId count now
  · have unlisted : ¬Listed layer fits (t.popped layer poolId count now) run := by
      rintro ⟨score, found, -⟩
      rw [State.lookup_popped, if_pos popped] at found
      cases found
    constructor
    · exact fun stranded => .inr ⟨stranded.stored, stranded.queued, popped.1.symm, popped.2⟩
    · rintro (⟨stranded, -⟩ | ⟨stored, queued, -, -⟩)
      · exact ⟨stranded.stored, stranded.queued, unlisted⟩
      · exact ⟨stored, queued, unlisted⟩
  · have same : Listed layer fits (t.popped layer poolId count now) run ↔ Listed layer fits t run := by
      unfold Listed
      rw [State.lookup_popped, if_neg popped]
    constructor
    · exact fun stranded =>
        .inl ⟨⟨stranded.stored, stranded.queued, fun listed => stranded.unlisted (same.mpr listed)⟩, id⟩
    · rintro (⟨stranded, -⟩ | ⟨stored, queued, pool, inside⟩)
      · exact ⟨stranded.stored, stranded.queued, fun listed => stranded.unlisted (same.mp listed)⟩
      · exact absurd ⟨pool.symm, inside⟩ popped

theorem Step.reset_leftOut {now : DateTime} {r : Result (List String)}
    (steps : Step layer t (.reclaimExpiredRunLeases now) r s') :
    Stranded layer fits s' run ↔ LeftOut layer fits t (.reclaimExpiredRunLeases now) run := by
  obtain ⟨order, answered⟩ := steps
  simp only [answer] at answered
  split at answered
  · cases answered
    have rows : ∀ id, State.run ⟨(Sql.reclaimExpiredRunLeases t.rows now).2, t.keys⟩ id =
        (t.run id).map (Store.reclaimed now) := fun id => Table.lookup_mapRows _ _ (Store.reclaimed_runId now) id
    constructor
    · intro stranded
      have stored := stranded.stored
      rw [rows] at stored
      obtain ⟨old, found, isRun⟩ := Option.map_eq_some_iff.mp stored
      cases expired : Store.leaseExpired now old with
      | true => exact .inr ⟨old, found, expired, isRun, fun listed => stranded.unlisted (listed.of_keys rfl)⟩
      | false =>
        rw [Store.reclaimed_of_unexpired expired] at isRun
        subst isRun
        exact .inl ⟨stranded.before found rfl, id⟩
    · rintro (⟨stranded, -⟩ | ⟨old, found, expired, rfl, unlisted⟩)
      · refine stranded.after ?_ rfl
        have unleased : Store.leaseExpired now run = false := by
          simp [Store.leaseExpired, Store.leased, stranded.queued]
        rw [rows, stranded.stored, Option.map_some, Store.reclaimed_of_unexpired unleased]
      · refine ⟨by rw [rows, found]; rfl, ?_, fun listed => unlisted (listed.of_keys rfl)⟩
        rw [Store.reclaimed, if_pos expired]
  · cases answered

theorem Step.update_leftOut {updated : Run} {r : Result Unit} (steps : Step layer t (.updateRun updated) r s') :
    Stranded layer fits s' run ↔ LeftOut layer fits t (.updateRun updated) run := by
  obtain ⟨order, answered⟩ := steps
  simp only [answer, Sql.updateRun] at answered
  split at answered
  · rename_i absent
    cases answered
    constructor
    · refine fun stranded => .inl ⟨stranded, fun same => ?_⟩
      have stored := stranded.stored
      rw [State.run, ← same, absent] at stored
      cases stored
    · rintro (⟨stranded, -⟩ | ⟨rfl, present, -, -⟩)
      · exact stranded
      · exact absurd absent present
  · rename_i old found
    cases answered
    constructor
    · intro stranded
      have stored := stranded.stored
      simp only [State.run, Table.lookup_insert] at stored
      split at stored
      · cases stored
        refine .inr ⟨rfl, ?_, stranded.queued, fun listed => stranded.unlisted (listed.of_keys rfl)⟩
        rw [State.run, found]
        exact Option.some_ne_none old
      · rename_i other
        exact .inl ⟨stranded.before stored rfl, other⟩
    · rintro (⟨stranded, other⟩ | ⟨rfl, -, queued, unlisted⟩)
      · refine stranded.after ?_ rfl
        rw [State.run, Table.lookup_insert_ne other]
        exact stranded.stored
      · exact ⟨Table.lookup_insert_self _ updated, queued, fun listed => unlisted (listed.of_keys rfl)⟩

theorem Step.renew_leftOut {runId workerId : String} {now : DateTime} {ttl : Int} {r : Result Bool}
    (steps : Step layer t (.renewRunLease runId workerId now ttl) r s') :
    Stranded layer fits s' run ↔ Stranded layer fits t run := by
  obtain ⟨order, answered⟩ := steps
  simp only [answer, Sql.renewRunLease] at answered
  split at answered
  · cases answered
    exact Iff.rfl
  · rename_i old found
    split at answered
    · rename_i renews
      cases answered
      have isOld : old.runId = runId := Table.key_of_lookup found
      -- a renewed row is claimed or running
      have unqueued : ∀ {row : Run}, Store.leased row = true → row.status ≠ .queued := by
        intro row active queued
        rcases Store.status_of_leased active with status | status <;> rw [queued] at status <;> cases status
      constructor
      · intro stranded
        have stored := stranded.stored
        simp only [State.run, Table.lookup_insert] at stored
        split at stored
        · have active : Store.leased run = true := by rw [← Option.some.inj stored]; exact renews.2
          exact absurd stranded.queued (unqueued active)
        · exact stranded.before stored rfl
      · intro stranded
        refine stranded.after ?_ rfl
        have stored : t.rows.lookup run.runId = some run := stranded.stored
        rw [State.run, Table.lookup_insert_ne, stored]
        intro same
        have isRun : old = run := by
          rw [← isOld, same, stored] at found
          exact (Option.some.inj found).symm
        exact unqueued (isRun ▸ renews.2) stranded.queued
    · cases answered
      exact Iff.rfl

theorem Step.enqueue_leftOut {poolId runId : String} {scheduledFor : DateTime} {r : Result Unit}
    (steps : Step layer t (.enqueueRun poolId runId scheduledFor) r s') :
    Stranded layer fits s' run ↔ LeftOut layer fits t (.enqueueRun poolId runId scheduledFor) run := by
  obtain ⟨order, answered⟩ := steps
  cases answered
  have lookup := layer.lookup_enqueueRun t.keys poolId runId scheduledFor (Sql.runPoolKey run.poolId) run.runId
  by_cases here : poolId = Sql.runPoolKey run.poolId ∧ runId = run.runId
  · obtain ⟨rfl, rfl⟩ := here
    rw [if_pos ⟨rfl, rfl⟩] at lookup
    constructor
    · exact fun stranded => .inr ⟨stranded.stored, stranded.queued, rfl, rfl,
        fun fit => stranded.unlisted ⟨_, lookup, fit⟩⟩
    · rintro (⟨-, unsettled⟩ | ⟨stored, queued, -, -, misfit⟩)
      · exact absurd ⟨rfl, rfl⟩ unsettled
      · refine ⟨stored, queued, ?_⟩
        rintro ⟨score, found, fit⟩
        rw [lookup] at found
        cases found
        exact misfit fit
  · rw [if_neg here] at lookup
    have same : Listed layer fits { t with keys := layer.enqueueRun t.keys poolId runId scheduledFor } run ↔
        Listed layer fits t run := by
      unfold Listed
      rw [lookup]
    constructor
    · exact fun stranded =>
        .inl ⟨⟨stranded.stored, stranded.queued, fun listed => stranded.unlisted (same.mpr listed)⟩, here⟩
    · rintro (⟨out, -⟩ | ⟨-, -, pool, named, -⟩)
      · exact ⟨out.stored, out.queued, fun listed => out.unlisted (same.mp listed)⟩
      · exact absurd ⟨pool, named⟩ here

/-- **Left out.** Which runs a call leaves queued and in no ready set. -/
theorem Step.leftOut (steps : Step layer t c r s') : Stranded layer fits s' run ↔ LeftOut layer fits t c run := by
  cases c with
  | createRun created => exact steps.create_leftOut
  | claimNextRunIds poolId count now => exact steps.pop_leftOut
  | reclaimExpiredRunLeases now => exact steps.reset_leftOut
  | updateRun updated => exact steps.update_leftOut
  | enqueueRun poolId runId scheduledFor => exact steps.enqueue_leftOut
  | renewRunLease runId workerId now ttl =>
    exact steps.renew_leftOut.trans ((or_iff_left id).trans (and_iff_left id)).symm
  | getRun runId =>
    obtain ⟨-, rfl⟩ := Step.getRun.mp steps
    exact ((or_iff_left id).trans (and_iff_left id)).symm
  | claimRunById runId poolId workerId now ttl =>
    obtain ⟨order, answered⟩ := steps
    cases answered
    refine Iff.trans ?_ (or_iff_left id).symm
    refine Iff.trans (Stranded.claim_iff (s := t) rfl rfl) (and_congr_right fun _ => ?_)
    rw [← Bool.not_eq_true, Bool.and_eq_true, beq_iff_eq]
    exact Iff.rfl
  | claimRunsByIds runIds poolId workerId now ttl =>
    obtain ⟨order, answered⟩ := steps
    simp only [answer] at answered
    split at answered
    · cases answered
      refine Iff.trans ?_ (or_iff_left id).symm
      refine Iff.trans (Stranded.claim_iff (s := t) rfl rfl) (and_congr_right fun _ => ?_)
      rw [← Bool.not_eq_true, Bool.and_eq_true, List.contains_iff_mem]
      exact Iff.rfl
    · cases answered

/-- **Where unlisted runs come from.** -/
theorem Step.stranded (steps : Step layer t c r s') (stranded : Stranded layer fits s' run) :
    Stranded layer fits t run ∨ Takes run.runId c r ∨ Misplaces fits run c ∨ c = .updateRun run := by
  rcases steps.leftOut.mp stranded with ⟨before, -⟩ | taken
  · exact .inl before
  · cases c with
    | createRun created =>
      obtain ⟨rfl, absent, -, -⟩ := taken
      have absent : t.rows.lookup created.runId = none := absent
      obtain ⟨order, answered⟩ := steps
      simp only [answer, Sql.createRun, absent] at answered
      cases answered
      exact .inr (.inl (.create rfl))
    | claimNextRunIds poolId count now =>
      obtain ⟨rfl, -⟩ := Step.claimNextRunIds.mp steps
      exact .inr (.inl (.pop taken.2.2.2))
    | reclaimExpiredRunLeases now =>
      obtain ⟨old, found, expired, -, -⟩ := taken
      obtain ⟨order, answered⟩ := steps
      simp only [answer] at answered
      split at answered
      · rename_i listing
        cases answered
        have isOld : old.runId = run.runId := Table.key_of_lookup found
        refine .inr (.inl (.reset (listing.mem_iff.mpr ?_)))
        exact List.mem_map.mpr ⟨old, List.mem_filter.mpr ⟨Table.mem_of_lookup found, expired⟩, isOld⟩
      · cases answered
    | updateRun updated =>
      obtain ⟨rfl, -⟩ := taken
      exact .inr (.inr (.inr rfl))
    | enqueueRun poolId runId scheduledFor =>
      obtain ⟨-, -, rfl, rfl, misfit⟩ := taken
      exact .inr (.inr (.inl (.enqueue misfit)))
    | getRun _ | claimRunById _ _ _ _ _ | claimRunsByIds _ _ _ _ _ | renewRunLease _ _ _ _ => exact taken.elim

end Chronon.Composite
