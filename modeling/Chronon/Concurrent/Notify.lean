import Mathlib.Data.List.Basic

/-!
# Loops that wait for a signal

Tasks that loop, each from its head through one iteration. A listening loop
selects between a stop signal and something else, a timer or its work; a deaf
loop has no select. The signal wakes the futures that exist when it is sent and
is not stored: they exist while a select is waited in, and a select drops them
before it runs the body of the branch it has picked. Of several branches that are
ready any may be picked.

`further` records the work that a task has started after it has come to a select
or a loop head following the signal.
-/

namespace Chronon.Concurrent
set_option autoImplicit false

/-- What a select waits for besides the signal. -/
inductive Branch (W : Type) where
  | timer (body : Option W)
  | work (w : W)

/-- What a loop does from its head, by the flag it reads there. A deaf loop sleeps where it has no work. -/
inductive Loop (W : Type) where
  | listening (other : Bool → Branch W)
  | deaf (work : Bool → Option W)

/-- Where a loop stands. In a select, the signal may have come, and the other branch may be ready. -/
inductive Point (W : Type) where
  | head
  | select (other : Branch W) (signalled ready : Bool)
  | working
  | sleeping
  | ended

/-- What a loop can do next: start an iteration, see its timer or its work in a select come to the end, poll its select,
with the signal's branch first or not, and finish the work of a branch body. -/
inductive Move where
  | enter (flag : Bool)
  | elapse
  | poll (signalFirst : Bool)
  | finish
  deriving DecidableEq

variable {W : Type}

/-- The work that is started with the select itself. -/
def Branch.started : Branch W → Option W
  | .timer _ => none
  | .work w => some w

/-- Where a picked branch leads, and the work it starts. -/
def Branch.picked : Branch W → Point W × Option W
  | .timer none => (.head, none)
  | .timer (some w) => (.working, some w)
  | .work _ => (.head, none)

/-- One move: the point after it, and the work it starts. -/
def Loop.move (loop : Loop W) : Point W → Move → Option (Point W × Option W)
  | .head, .enter flag =>
    match loop with
    | .listening other => some (.select (other flag) false false, (other flag).started)
    | .deaf work => some (if (work flag).isSome then .working else .sleeping, work flag)
  | .select other signalled false, .elapse => some (.select other signalled true, none)
  | .select other signalled ready, .poll signalFirst =>
    if signalled && (signalFirst || !ready) then some (.ended, none)
    else if ready then some other.picked
    else none
  | .working, .finish => some (.head, none)
  | .sleeping, .elapse => some (.head, none)
  | _, _ => none

/-- A task since the signal: none was sent, it is still in the iteration it was in, or it has come to a select or a loop
head. -/
inductive Since where
  | unsent
  | sent
  | arrived
  deriving DecidableEq

structure LoopTask (W : Type) where
  loop : Loop W
  point : Point W
  since : Since
  further : List W

namespace LoopTask

/-- A task that has been spawned. -/
def spawn (loop : Loop W) : LoopTask W := ⟨loop, .head, .unsent, []⟩

/-- The signal is sent. -/
def notify (t : LoopTask W) : LoopTask W where
  loop := t.loop
  point := match t.point with
    | .select other _ ready => .select other true ready
    | point => point
  since := match t.since, t.point with
    | .unsent, .head | .unsent, .select (.timer _) _ _ => .arrived
    | .unsent, _ => .sent
    | since, _ => since
  further := t.further

/-- The task has moved to `point` and has started `work`. -/
def goTo (t : LoopTask W) (point : Point W) (work : Option W) : LoopTask W where
  loop := t.loop
  point := point
  since := match t.since, point with
    | .sent, .head | .sent, .select _ _ _ => .arrived
    | since, _ => since
  further := if t.since = .arrived then work.toList ++ t.further else t.further

def move (t : LoopTask W) (m : Move) : Option (LoopTask W) := (t.loop.move t.point m).map fun next => t.goTo next.1 next.2

end LoopTask

/-- The signal, or a move of task `i`. -/
inductive LoopAction where
  | notify
  | move (i : Nat) (m : Move)
  deriving DecidableEq

/-- `notify_waiters`, or one task moves. -/
def loopStep (tasks : List (LoopTask W)) : LoopAction → Option (List (LoopTask W))
  | .notify => some (tasks.map LoopTask.notify)
  | .move i m =>
    match tasks[i]? with
    | some t => (t.move m).map (tasks.set i ·)
    | none => none

/-- The runs of loops whose steps meet `P`. -/
inductive LoopRun (P : List (LoopTask W) → LoopAction → Prop) (loops : List (Loop W)) : List (LoopTask W) → Prop
  | start : LoopRun P loops (loops.map LoopTask.spawn)
  | step {tasks tasks' : List (LoopTask W)} {action : LoopAction} : LoopRun P loops tasks →
      loopStep tasks action = some tasks' → P tasks action → LoopRun P loops tasks'

def Loop.listens : Loop W → Bool
  | .listening _ => true
  | .deaf _ => false

/-- The work of a deaf loop. -/
def Loop.deafWork : Loop W → Bool → Option W
  | .listening _, _ => none
  | .deaf work, flag => work flag

/-- The loop is in its select, or over. -/
def Point.hears : Point W → Bool
  | .select _ _ _ | .ended => true
  | _ => false

/-- The signal has come to the select. -/
def Point.signalled : Point W → Bool
  | .select _ signalled _ => signalled
  | _ => false

/-- The other branch of the select is ready. -/
def Point.ready : Point W → Bool
  | .select _ _ ready => ready
  | _ => false

/-- The signal is picked wherever it has come: it finds every listening loop in its select, no other branch is ready when
that select is polled, and a deaf loop has nothing to do at its heads from then on. -/
def SignalHeard (tasks : List (LoopTask W)) : LoopAction → Prop
  | .notify => ∀ t ∈ tasks, t.loop.listens = true → t.point.hears = true
  | .move i (.poll _) => ∀ t ∈ tasks[i]?, t.point.signalled = true → t.point.ready = false
  | .move i (.enter flag) => ∀ t ∈ tasks[i]?, t.since ≠ .unsent → (t.loop.deafWork flag).isNone = true
  | .move _ _ => True

/-- No work was started that should not be, and a listening loop has heard the signal. -/
structure Stopping (t : LoopTask W) : Prop where
  nothing : t.further = []
  heard : ∀ other, t.loop = .listening other → t.since ≠ .unsent →
    t.point = .ended ∨ ∃ branch ready, t.point = .select branch true ready
  deaf : ∀ work, t.loop = .deaf work → t.point.hears = false

instance (tasks : List (LoopTask W)) (action : LoopAction) : Decidable (SignalHeard tasks action) := by
  unfold SignalHeard
  split <;> infer_instance

theorem Stopping.spawn (loop : Loop W) : Stopping (LoopTask.spawn loop) where
  nothing := rfl
  heard _ _ sent := absurd rfl sent
  deaf _ _ := rfl

theorem Stopping.notify {t : LoopTask W} (stopping : Stopping t)
    (hears : t.loop.listens = true → t.point.hears = true) : Stopping t.notify := by
  obtain ⟨loop, point, since, further⟩ := t
  refine ⟨stopping.nothing, ?_, ?_⟩
  · rintro other rfl _
    have inSelect := hears rfl
    cases point with
    | select branch signalled ready => exact .inr ⟨branch, ready, rfl⟩
    | ended => exact .inl rfl
    | head | working | sleeping => cases inSelect
  · intro work isDeaf
    have outside := stopping.deaf work isDeaf
    cases point with
    | select _ _ _ | ended => cases outside
    | head | working | sleeping => rfl

/-- After the signal a stopping task starts nothing, and goes on to its end. -/
theorem Stopping.quiet {t : LoopTask W} {m : Move} {point : Point W} {work : Option W} (stopping : Stopping t)
    (sent : t.since ≠ .unsent) (moved : t.loop.move t.point m = some (point, work))
    (polls : ∀ signalFirst, m = .poll signalFirst → t.point.signalled = true → t.point.ready = false)
    (enters : ∀ flag, m = .enter flag → (t.loop.deafWork flag).isNone = true) :
    work = none ∧ ∀ other, t.loop = .listening other → point = .ended ∨ ∃ branch ready, point = .select branch true ready := by
  cases isLoop : t.loop with
  | listening other =>
    rcases stopping.heard other isLoop sent with ended | ⟨branch, ready, inSelect⟩
    · rw [isLoop, ended] at moved
      cases moved
    · rw [isLoop, inSelect] at moved
      cases m with
      | enter _ | finish => cases ready <;> cases moved
      | elapse =>
        cases ready with
        | true => cases moved
        | false =>
          cases moved
          exact ⟨rfl, fun _ _ => .inr ⟨branch, true, rfl⟩⟩
      | poll signalFirst =>
        have notReady := polls signalFirst rfl
        rw [inSelect] at notReady
        have isFalse : ready = false := notReady rfl
        subst isFalse
        simp only [Loop.move, Bool.not_false, Bool.or_true, Bool.and_self, if_true, Option.some.injEq,
          Prod.mk.injEq] at moved
        obtain ⟨rfl, rfl⟩ := moved
        exact ⟨rfl, fun _ _ => .inl rfl⟩
  | deaf idle =>
    refine ⟨?_, nofun⟩
    have outside := stopping.deaf idle isLoop
    rw [isLoop] at moved
    cases isPoint : t.point with
    | select _ _ _ | ended =>
      rw [isPoint] at outside
      cases outside
    | head =>
      rw [isPoint] at moved
      cases m with
      | enter flag =>
        cases moved
        have isNone := enters flag rfl
        rw [isLoop] at isNone
        exact Option.isNone_iff_eq_none.mp isNone
      | elapse | poll _ | finish => cases moved
    | working | sleeping =>
      rw [isPoint] at moved
      cases m <;> cases moved
      rfl

theorem Loop.deaf_move {idle : Bool → Option W} {point point' : Point W} {m : Move} {work : Option W}
    (outside : point.hears = false) (moved : (Loop.deaf idle).move point m = some (point', work)) :
    point'.hears = false := by
  cases point with
  | select _ _ _ | ended => cases outside
  | head =>
    cases m with
    | enter flag =>
      cases moved
      split <;> rfl
    | elapse | poll _ | finish => cases moved
  | working | sleeping =>
    cases m <;> cases moved
    rfl

theorem LoopTask.goTo_since {t : LoopTask W} {point : Point W} {work : Option W} :
    (t.goTo point work).since = .unsent ↔ t.since = .unsent := by
  obtain ⟨loop, before, since, further⟩ := t
  cases since <;> cases point <;> simp [LoopTask.goTo]

/-- **One move** of a stopping task. -/
theorem Stopping.move {t t' : LoopTask W} {m : Move} (stopping : Stopping t) (moved : t.move m = some t')
    (polls : ∀ signalFirst, m = .poll signalFirst → t.point.signalled = true → t.point.ready = false)
    (enters : ∀ flag, m = .enter flag → t.since ≠ .unsent → (t.loop.deafWork flag).isNone = true) :
    Stopping t' := by
  obtain ⟨⟨point, work⟩, moves, rfl⟩ := Option.map_eq_some_iff.mp moved
  refine ⟨?_, ?_, ?_⟩
  · show (if t.since = .arrived then work.toList ++ t.further else t.further) = []
    split
    · rename_i arrived
      have sent : t.since ≠ .unsent := by
        rw [arrived]
        decide
      obtain ⟨isNone, -⟩ := stopping.quiet sent moves polls fun flag isEnter => enters flag isEnter sent
      rw [isNone, stopping.nothing]
      rfl
    · exact stopping.nothing
  · intro other isListening sent
    have before : t.since ≠ .unsent := fun unsent => sent (LoopTask.goTo_since.mpr unsent)
    obtain ⟨-, heard⟩ := stopping.quiet before moves polls fun flag isEnter => enters flag isEnter before
    exact heard other isListening
  · intro idle isDeaf
    have isLoop : t.loop = .deaf idle := isDeaf
    rw [isLoop] at moves
    exact Loop.deaf_move (stopping.deaf idle isLoop) moves

theorem Stopping.step {tasks tasks' : List (LoopTask W)} {action : LoopAction} (stopping : ∀ t ∈ tasks, Stopping t)
    (steps : loopStep tasks action = some tasks') (heard : SignalHeard tasks action) : ∀ t ∈ tasks', Stopping t := by
  cases action with
  | notify =>
    cases steps
    intro t' inside
    obtain ⟨t, present, rfl⟩ := List.mem_map.mp inside
    exact (stopping t present).notify (heard t present)
  | move i m =>
    simp only [loopStep] at steps
    split at steps
    · rename_i t isTask
      obtain ⟨moved, moves, rfl⟩ := Option.map_eq_some_iff.mp steps
      intro t' inside
      rcases List.mem_or_eq_of_mem_set inside with before | rfl
      · exact stopping t' before
      · refine (stopping t (List.mem_of_getElem? isTask)).move moves ?_ ?_
        · rintro signalFirst rfl
          exact heard t isTask
        · rintro flag rfl
          exact heard t isTask
    · cases steps

/-- **A signal that is heard stops every loop**: whenever it is sent, no task starts further work. -/
theorem LoopRun.no_further {loops : List (Loop W)} {tasks : List (LoopTask W)} (run : LoopRun SignalHeard loops tasks) :
    ∀ t ∈ tasks, Stopping t := by
  induction run with
  | start =>
    intro t inside
    obtain ⟨loop, -, rfl⟩ := List.mem_map.mp inside
    exact .spawn loop
  | step _ steps heard ih => exact Stopping.step ih steps heard

/-! ## Playing a run -/

/-- Take the given steps, as long as they meet `P`. -/
def playLoops (P : List (LoopTask W) → LoopAction → Prop) [∀ tasks action, Decidable (P tasks action)] :
    List LoopAction → List (LoopTask W) → Option (List (LoopTask W))
  | [], tasks => some tasks
  | action :: rest, tasks =>
    match loopStep tasks action with
    | some tasks' => if P tasks action then playLoops P rest tasks' else none
    | none => none

theorem LoopRun.of_play {P : List (LoopTask W) → LoopAction → Prop} [∀ tasks action, Decidable (P tasks action)]
    {loops : List (Loop W)} {actions : List LoopAction} {tasks tasks' : List (LoopTask W)} (run : LoopRun P loops tasks)
    (played : playLoops P actions tasks = some tasks') : LoopRun P loops tasks' := by
  induction actions generalizing tasks with
  | nil =>
    cases played
    exact run
  | cons action rest ih =>
    simp only [playLoops] at played
    split at played
    · rename_i next steps
      split at played
      · rename_i allowed
        exact ih (run.step steps allowed) played
      · cases played
    · cases played

end Chronon.Concurrent
