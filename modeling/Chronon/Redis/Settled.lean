import Chronon.Redis.Hands

/-!
# Operations one after the other

When operations do not overlap and no call fails, every queued run is in its
ready set with the score of its `scheduled_for`, as long as no `update_run`
writes a queued row that is not there already. Inside an operation the runs it
has in hand are excepted, and what it is about to add is what the table has.
-/

namespace Chronon.Composite
set_option autoImplicit false

open Concurrent Redis Collections

/-- The score that `enqueue_run` gives. -/
def exactScore (run : Run) (score : Int) : Prop := score = timestampMillis run.scheduledFor

/-- States that operations reach which run one after the other, each of them allowed in the state it starts from. -/
inductive Reached (layer : RedisQueueLayer) (allowed : State → Client → Prop) : State → Prop where
  | empty : Reached layer allowed .empty
  | next {s s' : State} {op : Client} {r : Result op.Ret} : Reached layer allowed s → allowed s op →
      Runs (Step layer) op.code.run s r s' → Reached layer allowed s'

/-- A queued row is written by an update only if it is in its ready set already, with its score. -/
def UpdatesListed (layer : RedisQueueLayer) (s : State) (op : Client) : Prop :=
  ∀ run, op = .updateRun run → run.status = .queued → s.run run.runId ≠ none → Listed layer exactScore s run

namespace Phase

/-- A phase that is not about to write or add a run. -/
def Between : Phase → Prop
  | .writing _ | .adding _ _ _ _ | .lost => False
  | _ => True

/-- What the operation is about to write is listed, and what it is about to add is stored so. -/
def Accurate (layer : RedisQueueLayer) (s : State) : Phase → Prop
  | .lost => False
  | .writing run => run.status = .queued → s.run run.runId ≠ none → Listed layer exactScore s run
  | .adding _ runId scheduledFor next => next.Between ∧ ∀ run, s.run runId = some run → scheduledFor = run.scheduledFor
  | _ => True

theorem Between.accurate {φ : Phase} (between : φ.Between) (layer : RedisQueueLayer) (s : State) : φ.Accurate layer s := by
  cases φ with
  | writing _ | adding _ _ _ _ | lost => exact between.elim
  | _ => trivial

end Phase

variable {layer : RedisQueueLayer} {s s' : State} {op : Op} {r : Ans op} {φ φ' : Phase}

theorem Phase.Accurate.step (accurate : φ.Accurate layer s) (move : Move φ op r φ') (steps : Step layer s op r s') :
    φ'.Accurate layer s' := by
  have same : ∀ {runId : String} {run : Run}, s.run runId = some run → ∀ row, s.run run.runId = some row →
      run.scheduledFor = row.scheduledFor := by
    intro runId run found row stored
    have isRun : run.runId = runId := Table.key_of_lookup found
    rw [isRun, found] at stored
    cases stored
    rfl
  cases move with
  | create =>
    unfold Phase.inserted
    split
    · refine ⟨trivial, fun row stored => ?_⟩
      obtain ⟨order, answered⟩ := steps
      simp only [answer, Sql.createRun] at answered
      split at answered
      · cases answered
      · cases answered
        rw [Option.some.inj ((Table.lookup_insert_self _ _).symm.trans stored)]
    · trivial
  | check =>
    obtain ⟨rfl, rfl⟩ := steps.read
    unfold Phase.checked
    split
    · trivial
    · split
      · rename_i found _
        exact ⟨trivial, same found⟩
      · trivial
  | read =>
    obtain ⟨rfl, rfl⟩ := steps.read
    unfold Phase.readBack
    split
    · trivial
    · rename_i found
      exact ⟨trivial, same found⟩
  | add => exact accurate.1.accurate layer s'
  | failed created updated => exact absurd steps (Step.succeeds created updated)
  | overflow many => exact absurd steps.popped (not_le.mpr many)
  | astray => exact accurate
  | _ => trivial

/-- What an operation that runs alone keeps to. -/
structure Accounted (layer : RedisQueueLayer) (φ : Phase) (s : State) : Prop where
  accurate : φ.Accurate layer s
  kept : ∀ run, Stranded layer exactScore s run → φ.Keeps run

theorem Accounted.step (accounted : Accounted layer φ s) (move : Move φ op r φ') (steps : Step layer s op r s') :
    Accounted layer φ' s' := by
  refine ⟨accounted.accurate.step move steps, fun run after => ?_⟩
  have here : φ ≠ .lost := by
    rintro rfl
    exact accounted.accurate
  rcases steps.stranded after with before | takes | misplaces | rfl
  · exact (accounted.kept run before).step before after rfl move steps
  · exact move.keeps here steps after takes
  · cases misplaces with
    | enqueue misfit =>
      cases move with
      | add =>
        have stored : s.run run.runId = some run := by
          have stored := after.stored
          rw [steps.enqueued] at stored
          exact stored
        exact absurd (congrArg timestampMillis (accounted.accurate.2 run stored)) misfit
      | failed created updated => exact absurd steps (Step.succeeds created updated)
      | astray => exact absurd rfl here
  · cases move with
    | update =>
      have listed := accounted.accurate after.queued
      obtain ⟨order, answered⟩ := steps
      simp only [answer, Sql.updateRun] at answered
      split at answered
      · rename_i absent
        cases answered
        have stored := after.stored
        rw [State.run, absent] at stored
        cases stored
      · rename_i found
        cases answered
        have present : s.run run.runId ≠ none := by
          rw [State.run, found]
          exact Option.some_ne_none _
        exact absurd ((listed present).of_keys rfl) after.unlisted
    | failed _ updated => exact absurd rfl (updated run)
    | astray => exact absurd rfl here

/-- **Every queued run is listed** between operations that do not overlap. -/
theorem Reached.allListed (reached : Reached layer (UpdatesListed layer) s) : AllListed layer exactScore s := by
  induction reached with
  | empty =>
    intro run stored
    cases stored
  | next _ allowed runs listed =>
    rename_i s s' op r _
    have start : Accounted layer op.phase s := by
      refine ⟨?_, fun run stranded => absurd (listed run stranded.stored stranded.queued) stranded.unlisted⟩
      cases op with
      | updateRun run => exact allowed run rfl
      | _ => trivial
    have moves : ∀ φ op r φ' s s', Accounted layer φ s → Move φ op r φ' → Step layer s op r s' → Accounted layer φ' s' :=
      fun _ _ _ _ _ _ holds move steps => holds.step move steps
    obtain ⟨φ, ends, accounted⟩ := Follows.runs moves op.follows start runs
    have ended : φ.ended := by
      cases r with
      | ok => exact ends
      | error e =>
        rcases ends with rfl | rfl
        · exact Phase.ended_free
        · exact Phase.ended_lost
    intro run stored queued
    by_contra unlisted
    exact ended run (accounted.kept run ⟨stored, queued, unlisted⟩)

end Chronon.Composite
