import Chronon.Redis.Hands

/-!
# No queued run is stranded

Clients of the composite store, interleaved call by call. A run that is queued
and in no ready set is in the hands of the operation that took it last, and that
operation does not return before the run is claimed or added.
-/

namespace Chronon.Composite
set_option autoImplicit false

open Concurrent Redis

/-- The row an `update_run` that is started writes. -/
def startsUpdate : CompositeLabel → Option Run
  | .start _ (.updateRun run) => some run
  | _ => none

/-- Updates write no queued row. -/
def UpdatesUnqueued (l : CompositeLabel) : Prop := ∀ run ∈ startsUpdate l, run.status ≠ .queued

instance (l : CompositeLabel) : Decidable (UpdatesUnqueued l) :=
  inferInstanceAs (Decidable (∀ run ∈ startsUpdate l, _))

/-- Operation `p` will claim the run or add it before it returns: it can go on and return, and it does not while the run
is queued and not in its ready set. -/
structure Settles (layer : RedisQueueLayer) (c : CompositeConfig) (p : Nat) (run : Run) : Prop where
  returns : ∃ c', (composite layer).Reach (fun l _ _ => UpdatesUnqueued l) c c' ∧ c'.finished p = true
  keeps : ∀ c', (composite layer).Reach (fun l _ w' => UpdatesUnqueued l ∧ Stranded layer anyScore w'.state run) c c' →
    c'.finished p = false

/-! ## Who took a run last -/

/-- Operation `p` took the run `id`, and nobody after it. -/
def Taker (id : String) (p : Nat) : Log → Prop
  | [] => False
  | e :: older => (Takes id e.op e.ans ∧ e.pid = p) ∨ (¬Takes id e.op e.ans ∧ Taker id p older)

/-- What a phase of operation `p` is worth in a world. -/
structure Holds (layer : RedisQueueLayer) (p : Nat) (φ : Phase) (w : World) : Prop where
  proper : φ.Proper
  kept : ∀ run, Stranded layer anyScore w.state run → Taker run.runId p w.log → φ.Keeps run

section Step

variable {layer : RedisQueueLayer} {p q : Nat} {order : List String} {w w' : World} {φ φ' : Phase} {op : Op} {r : Ans op}
  {run : Run}

/-- A run that is stranded after a call was stranded before, or has been taken. -/
theorem Holds.stranded (holds : Holds layer p φ w) (move : Move φ op r φ')
    (ran : perform layer p order w op = some (r, w')) (after : Stranded layer anyScore w'.state run) :
    Stranded layer anyScore w.state run ∨ Takes run.runId op r :=
  holds.proper.stranded move (perform_cases ran).1 after

theorem Holds.own (holds : Holds layer p φ w) (move : Move φ op r φ') (ran : perform layer p order w op = some (r, w')) :
    Holds layer p φ' w' := by
  obtain ⟨steps, log⟩ := perform_cases ran
  refine ⟨holds.proper.step move steps, fun run after taker => ?_⟩
  rw [log] at taker
  rcases taker with ⟨takes, -⟩ | ⟨untaken, taker⟩
  · exact move.keeps holds.proper.ne_lost steps after takes
  · rcases holds.stranded move ran after with before | takes
    · exact (holds.kept run before taker).step before after trivial move steps
    · exact absurd takes untaken

/-- What the calls of operation `q` leave to the others. -/
def Leaves (layer : RedisQueueLayer) (q : Nat) (w w' : World) : Prop :=
  ∀ run p, p ≠ q → Stranded layer anyScore w'.state run → Taker run.runId p w'.log →
    Stranded layer anyScore w.state run ∧ Taker run.runId p w.log

theorem Holds.leaves (holds : Holds layer q φ w) (move : Move φ op r φ')
    (ran : perform layer q order w op = some (r, w')) : Leaves layer q w w' := by
  intro run p other after taker
  rw [(perform_cases ran).2] at taker
  rcases taker with ⟨-, same⟩ | ⟨untaken, taker⟩
  · exact absurd same.symm other
  · rcases holds.stranded move ran after with before | takes
    · exact ⟨before, taker⟩
    · exact absurd takes untaken

/-- Whatever is stranded was taken by somebody. -/
def AllTaken (layer : RedisQueueLayer) (w : World) : Prop :=
  ∀ run, Stranded layer anyScore w.state run → ∃ p, Taker run.runId p w.log

theorem AllTaken.step (taken : AllTaken layer w) (holds : Holds layer p φ w) (move : Move φ op r φ')
    (ran : perform layer p order w op = some (r, w')) : AllTaken layer w' := by
  intro run after
  rw [(perform_cases ran).2]
  by_cases takes : Takes run.runId op r
  · exact ⟨p, .inl ⟨takes, rfl⟩⟩
  · obtain ⟨q, taker⟩ := taken run ((holds.stranded move ran after).resolve_right takes)
    exact ⟨q, .inr ⟨takes, taker⟩⟩

end Step

/-- The rules behind the hands. -/
def strandingRules (layer : RedisQueueLayer) : Rules (composite layer) protocol fun l _ _ => UpdatesUnqueued l where
  inv := AllTaken layer
  guar := Leaves layer
  idle p w := ∀ run, Stranded layer anyScore w.state run → ¬Taker run.runId p w.log
  holds := Holds layer
  start := by
    intro p op w _ idle unqueued
    refine ⟨?_, fun run stranded taker => absurd taker (idle run stranded)⟩
    cases op with
    | updateRun run => exact unqueued run rfl
    | _ => trivial
  finish _ ended holds run stranded taker := ended run (holds.kept run stranded taker)
  own taken holds move ran _ := ⟨taken.step holds move ran, holds.leaves move ran, holds.own move ran⟩
  other apart _ _ leaves holds :=
    ⟨holds.proper, fun run after taker =>
      holds.kept run (leaves run _ apart after taker).1 (leaves run _ apart after taker).2⟩
  otherIdle apart _ _ leaves idle run after taker :=
    idle run (leaves run _ apart after taker).1 (leaves run _ apart after taker).2
  drift := by
    intro never
    exact nomatch never

/-- Operation `p` keeps `run` for as long as it is stranded. -/
def settlingRules (layer : RedisQueueLayer) (p : Nat) (run : Run) :
    Rules (composite layer) protocol fun l _ w' => UpdatesUnqueued l ∧ Stranded layer anyScore w'.state run where
  inv w := Stranded layer anyScore w.state run
  guar _ _ _ := True
  idle q _ := q ≠ p
  holds q φ _ := φ.Proper ∧ (q = p → φ.Keeps run)
  start := by
    rintro q op w - other ⟨unqueued, -⟩
    refine ⟨?_, fun same => absurd same other⟩
    cases op with
    | updateRun updated => exact unqueued updated rfl
    | _ => trivial
  finish := by
    rintro q φ w - ended ⟨-, kept⟩ same
    exact ended run (kept same)
  own := by
    rintro q φ op r φ' order w w' before ⟨proper, kept⟩ move ran ⟨-, after⟩
    have steps := (perform_cases ran).1
    exact ⟨after, trivial, proper.step move steps, fun same => (kept same).step before after trivial move steps⟩
  other _ _ _ _ holds := holds
  otherIdle _ _ _ _ idle := idle
  drift := by
    intro never
    exact nomatch never

/-- The operation that took a stranded run last settles it. -/
theorem settles_of_taker {layer : RedisQueueLayer} {c : CompositeConfig} (standing : (strandingRules layer).Standing c)
    {p : Nat} {run : Run} (stranded : Stranded layer anyScore c.world.state run) (taker : Taker run.runId p c.world.log) :
    Settles layer c p run := by
  have start : (settlingRules layer p run).Standing c := by
    refine ⟨stranded, fun q resting same => ?_, fun q code found => ?_⟩
    · subst same
      exact standing.resting q resting run stranded taker
    · obtain ⟨φ, holds, follows⟩ := standing.running q code found
      refine ⟨φ, ⟨holds.proper, fun same => ?_⟩, follows⟩
      subst same
      exact holds.kept run stranded taker
  have answers : ∀ w op, ∃ order r w', (composite layer).exec p order w op = some (r, w') := by
    intro w op
    obtain ⟨r, state, order, answered⟩ := Step.exists layer w.state op
    exact ⟨order, r, ⟨state, ⟨p, w.state, op, r⟩ :: w.log⟩, by simp only [composite, perform, answered]⟩
  refine ⟨Machine.Reach.run_alone answers (fun op r w w' => by rintro updated ⟨⟩) c, fun c' later => ?_⟩
  have standing' := (settlingRules layer p run).sound (protocol_governs layer) start later
  unfold Config.finished
  split
  · rfl
  · rename_i free
    exact absurd rfl (standing'.free fun op k waiting => free op k waiting)

/-- **No queued run is stranded.** From a state where every queued run is in its ready set, however clients interleave
their calls, and as long as updates write no queued row, a queued run is in the ready set of its pool or in the hands of
an operation that does not return before it has claimed it or added it. -/
theorem queued_runs_kept (layer : RedisQueueLayer) {s : State} (listed : AllListed layer anyScore s) {c : CompositeConfig}
    (reach : (composite layer).Reach (fun l _ _ => UpdatesUnqueued l) (.idle (.fresh s)) c) :
    ∀ run, c.world.state.run run.runId = some run → run.status = .queued →
      ((layer.readySet c.world.state.keys (Sql.runPoolKey run.poolId)).contains run.runId = true) ∨
        ∃ p, c.finished p = false ∧ Settles layer c p run := by
  intro run stored queued
  have untaken : (strandingRules layer).inv (.fresh s) := fun run stranded =>
    absurd (listed run stranded.stored stranded.queued) stranded.unlisted
  have standing := (strandingRules layer).sound (protocol_governs layer)
    (Rules.Standing.initial _ untaken fun p run stranded =>
      absurd (listed run stranded.stored stranded.queued) stranded.unlisted) reach
  by_cases inside : Listed layer anyScore c.world.state run
  · obtain ⟨score, found, -⟩ := inside
    exact .inl (by rw [Collections.SortedSet.contains, found]; rfl)
  · have stranded : Stranded layer anyScore c.world.state run := ⟨stored, queued, inside⟩
    obtain ⟨p, taker⟩ := standing.inv run stranded
    have settles := settles_of_taker standing stranded taker
    exact .inr ⟨p, settles.keeps c .refl, settles⟩

/-- A run that is inserted and not yet added is in the hands of its `create_run`. -/
theorem queued_runs_kept_inserted :
    ∃ c, (composite .plain).Reach (fun l _ _ => UpdatesUnqueued l) (.idle (.fresh .empty)) c ∧
      c.world.state.run "r" = some (Run.new "r" "noop" 0) ∧
      (RedisQueueLayer.plain.readySet c.world.state.keys "general").contains "r" = false ∧
      ∃ p, c.finished p = false ∧ Settles .plain c p (Run.new "r" "noop" 0) := by
  have insert : ∃ c, (composite .plain).Reach (fun l _ _ => UpdatesUnqueued l) (.idle (.fresh .empty)) c ∧
      c.world.state = ⟨Collections.Table.empty.insert (Run.new "r" "noop" 0), fun _ => Collections.Table.empty⟩ :=
    ⟨_, (Machine.Reach.refl.step
        (rfl : (composite .plain).step _ (.start 0 (.createRun (Run.new "r" "noop" 0))) = some _) (by rintro run ⟨⟩)).step
      (rfl : (composite .plain).step _ (.call 0 []) = some _) (by rintro run ⟨⟩), rfl⟩
  obtain ⟨c, reach, state⟩ := insert
  have stored : c.world.state.run "r" = some (Run.new "r" "noop" 0) := by rw [state]; rfl
  have absent : (RedisQueueLayer.plain.readySet c.world.state.keys "general").contains "r" = false := by
    rw [state]; rfl
  refine ⟨c, reach, stored, absent, ?_⟩
  have kept := queued_runs_kept .plain (fun run stored _ => by cases stored) reach (Run.new "r" "noop" 0) stored rfl
  exact kept.resolve_left (by rw [Bool.not_eq_true]; exact absent)

end Chronon.Composite
