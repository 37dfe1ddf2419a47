import Mathlib.Algebra.Order.BigOperators.Group.List
import Mathlib.Algebra.Order.Ring.Nat
import Mathlib.Data.List.Basic

/-!
# Tasks that report through a bounded channel

A task takes one of a number of slots, announces itself on a bounded channel,
works, reports how its work has come out, and leaves its slot. A sender waits
while the channel is full. One receiver takes the messages in their order; once
it is gone nothing can be sent any more: a task that cannot announce itself is
turned away, and a report that nobody hears is dropped. A task may also unwind
while it works: it leaves its slot and says nothing further.

`taken` is bookkeeping: what the receiver has taken so far, each message with
the number of the task it is from.
-/

namespace Chronon.Concurrent
set_option autoImplicit false

/-- What a task says first, and what it says when its work is over. -/
structure Messages (Tag Out Msg : Type) where
  announce : Tag → Msg
  report : Tag → Out → Msg

/-- Where a task is. -/
inductive Stage (Out : Type) where
  | waiting
  | announcing
  | working
  | reporting (out : Out)
  | ended (out : Out)
  | unwound
  | turnedAway

/-- The slots that are free, the tasks, and the channel. -/
structure Reporters (Tag Out Msg : Type) where
  free : Nat
  tasks : List (Tag × Stage Out)
  queue : List (Nat × Msg)
  taken : List (Nat × Msg)
  closed : Bool

inductive ReportAct (Tag Out : Type) where
  | spawn (tag : Tag)
  | acquire (i : Nat)
  | announce (i : Nat)
  | finish (i : Nat) (out : Out)
  | unwind (i : Nat)
  | report (i : Nat)
  | take
  | close

/-- An action of a task that has been spawned. -/
def ReportAct.isTask {Tag Out : Type} : ReportAct Tag Out → Bool
  | .spawn _ | .take | .close => false
  | _ => true

variable {Tag Out Msg : Type}

namespace Stage

/-- The task is in a slot. -/
def holds : Stage Out → Bool
  | .announcing | .working | .reporting _ => true
  | _ => false

def isOver : Stage Out → Bool
  | .ended _ | .unwound | .turnedAway => true
  | _ => false

/-- The work of the task has been started. -/
def hasStarted : Stage Out → Bool
  | .working | .reporting _ | .ended _ | .unwound => true
  | _ => false

/-- What has come out of the work of the task. -/
def outcome : Stage Out → Option Out
  | .reporting out | .ended out => some out
  | _ => none

/-- What a task has sent, if the receiver has been there all the time. -/
def sent (M : Messages Tag Out Msg) (tag : Tag) : Stage Out → List Msg
  | .working | .reporting _ | .unwound => [M.announce tag]
  | .ended out => [M.announce tag, M.report tag out]
  | _ => []

/-- A bound on what is left to do for a task and for the receiver of its messages. -/
def remaining : Stage Out → Nat
  | .waiting => 6
  | .announcing => 5
  | .working => 3
  | .reporting _ => 2
  | .ended _ | .unwound | .turnedAway => 0

end Stage

namespace Reporters

/-- No task yet. -/
def idle (slots : Nat) : Reporters Tag Out Msg := ⟨slots, [], [], [], false⟩

def goTo (s : Reporters Tag Out Msg) (i : Nat) (tag : Tag) (stage : Stage Out) : Reporters Tag Out Msg :=
  { s with tasks := s.tasks.set i (tag, stage) }

/-- Task `i` leaves its slot. -/
def leave (s : Reporters Tag Out Msg) (i : Nat) (tag : Tag) (stage : Stage Out) : Reporters Tag Out Msg :=
  { s.goTo i tag stage with free := s.free + 1 }

/-- Task `i` has its message in the channel. -/
def send (s : Reporters Tag Out Msg) (i : Nat) (m : Msg) : Reporters Tag Out Msg :=
  { s with queue := s.queue ++ [(i, m)] }

/-- One step. A slot is free before it is taken, and a message is sent into a channel that has room. -/
def step (M : Messages Tag Out Msg) (capacity : Nat) (s : Reporters Tag Out Msg) :
    ReportAct Tag Out → Option (Reporters Tag Out Msg)
  | .spawn tag => some { s with tasks := s.tasks ++ [(tag, .waiting)] }
  | .acquire i =>
    match s.tasks[i]? with
    | some (tag, .waiting) => if 0 < s.free then some { s.goTo i tag .announcing with free := s.free - 1 } else none
    | _ => none
  | .announce i =>
    match s.tasks[i]? with
    | some (tag, .announcing) =>
      if s.closed then some (s.leave i tag .turnedAway)
      else if s.queue.length < capacity then some ((s.goTo i tag .working).send i (M.announce tag))
      else none
    | _ => none
  | .finish i out =>
    match s.tasks[i]? with
    | some (tag, .working) => some (s.goTo i tag (.reporting out))
    | _ => none
  | .unwind i =>
    match s.tasks[i]? with
    | some (tag, .working) => some (s.leave i tag .unwound)
    | _ => none
  | .report i =>
    match s.tasks[i]? with
    | some (tag, .reporting out) =>
      if s.closed then some (s.leave i tag (.ended out))
      else if s.queue.length < capacity then some ((s.leave i tag (.ended out)).send i (M.report tag out))
      else none
    | _ => none
  | .take =>
    match s.queue with
    | m :: rest => some { s with queue := rest, taken := s.taken ++ [m] }
    | [] => none
  | .close => if s.closed then none else some { s with queue := [], closed := true }

/-- The messages of task `i`. -/
def ofTask (i : Nat) (messages : List (Nat × Msg)) : List Msg := (messages.filter (·.1 = i)).map Prod.snd

@[simp] theorem ofTask_append (i : Nat) (a b : List (Nat × Msg)) : ofTask i (a ++ b) = ofTask i a ++ ofTask i b := by
  simp [ofTask]

@[simp] theorem ofTask_own (i : Nat) (messages : List Msg) : ofTask i (messages.map (i, ·)) = messages := by
  simp [ofTask, List.filter_map, Function.comp_def]

theorem ofTask_other {i j : Nat} (other : j ≠ i) (messages : List Msg) : ofTask i (messages.map (j, ·)) = [] := by
  simp [ofTask, List.filter_map, Function.comp_def, other]

theorem ofTask_eq_nil {i : Nat} {messages : List (Nat × Msg)} (none : ∀ m ∈ messages, m.1 ≠ i) :
    ofTask i messages = [] := by
  simpa [ofTask] using none

end Reporters

/-! ## What a step can do -/

/-- How task `i` goes on, and what it sends. -/
inductive Stage.Moves (M : Messages Tag Out Msg) (i : Nat) (tag : Tag) (closed : Bool) :
    ReportAct Tag Out → Stage Out → Stage Out → List Msg → Prop
  | acquire : Moves M i tag closed (.acquire i) .waiting .announcing []
  | announce : closed = false → Moves M i tag closed (.announce i) .announcing .working [M.announce tag]
  | turnAway : closed = true → Moves M i tag closed (.announce i) .announcing .turnedAway []
  | finish (out : Out) : Moves M i tag closed (.finish i out) .working (.reporting out) []
  | unwind : Moves M i tag closed (.unwind i) .working .unwound []
  | report (out : Out) : closed = false → Moves M i tag closed (.report i) (.reporting out) (.ended out) [M.report tag out]
  | unheard (out : Out) : closed = true → Moves M i tag closed (.report i) (.reporting out) (.ended out) []

variable {M : Messages Tag Out Msg} {capacity : Nat}

namespace Reporters

variable {s s' : Reporters Tag Out Msg} {act : ReportAct Tag Out}

/-- What task `i` has done when it has moved from `old` to `new`. -/
structure Moved (M : Messages Tag Out Msg) (capacity : Nat) (s s' : Reporters Tag Out Msg) (act : ReportAct Tag Out) (i : Nat)
    (tag : Tag) (old new : Stage Out) (messages : List Msg) : Prop where
  found : s.tasks[i]? = some (tag, old)
  moves : Stage.Moves M i tag s.closed act old new messages
  tasks : s'.tasks = s.tasks.set i (tag, new)
  free : s'.free + new.holds.toNat = s.free + old.holds.toNat
  queue : s'.queue = s.queue ++ messages.map (i, ·)
  room : messages ≠ [] → s.queue.length < capacity
  taken : s'.taken = s.taken
  closed : s'.closed = s.closed

/-- **What a step can do**: a task is spawned or moves, the receiver takes the next message, or it goes away. -/
theorem step_cases (steps : step M capacity s act = some s') :
    (∃ tag, act = .spawn tag ∧ s' = { s with tasks := s.tasks ++ [(tag, .waiting)] }) ∨
    (∃ i tag old new messages, Moved M capacity s s' act i tag old new messages) ∨
    (act = .take ∧ ∃ m rest, s.queue = m :: rest ∧ s' = { s with queue := rest, taken := s.taken ++ [m] }) ∨
    (act = .close ∧ s.closed = false ∧ s' = { s with queue := [], closed := true }) := by
  cases act with
  | spawn tag =>
    cases steps
    exact .inl ⟨tag, rfl, rfl⟩
  | acquire i =>
    simp only [step] at steps
    split at steps
    · rename_i tag found
      split at steps
      · rename_i positive
        cases steps
        refine .inr (.inl ⟨i, tag, _, _, [], found, .acquire, rfl, ?_, ?_, nofun, rfl, rfl⟩)
        · simp only [Stage.holds, Bool.toNat_true, Bool.toNat_false]
          omega
        · simp [goTo]
      · cases steps
    · cases steps
  | announce i =>
    simp only [step] at steps
    split at steps
    · rename_i tag found
      split at steps
      · rename_i closed
        cases steps
        refine .inr (.inl ⟨i, tag, _, _, [], found, .turnAway closed, rfl, ?_, ?_, nofun, rfl, rfl⟩)
        · simp [leave, goTo, Stage.holds]
        · simp [leave, goTo]
      · rename_i isOpen
        split at steps
        · rename_i room
          cases steps
          refine .inr (.inl ⟨i, tag, _, _, _, found, .announce (by simpa using isOpen), rfl, ?_, ?_,
            fun _ => room, rfl, rfl⟩)
          · simp [send, goTo, Stage.holds]
          · simp [send, goTo]
        · cases steps
    · cases steps
  | finish i out =>
    simp only [step] at steps
    split at steps
    · rename_i tag found
      cases steps
      refine .inr (.inl ⟨i, tag, _, _, [], found, .finish out, rfl, ?_, ?_, nofun, rfl, rfl⟩)
      · simp [goTo, Stage.holds]
      · simp [goTo]
    · cases steps
  | unwind i =>
    simp only [step] at steps
    split at steps
    · rename_i tag found
      cases steps
      refine .inr (.inl ⟨i, tag, _, _, [], found, .unwind, rfl, ?_, ?_, nofun, rfl, rfl⟩)
      · simp [leave, goTo, Stage.holds]
      · simp [leave, goTo]
    · cases steps
  | report i =>
    simp only [step] at steps
    split at steps
    · rename_i tag out found
      split at steps
      · rename_i closed
        cases steps
        refine .inr (.inl ⟨i, tag, _, _, [], found, .unheard out closed, rfl, ?_, ?_, nofun, rfl, rfl⟩)
        · simp [leave, goTo, Stage.holds]
        · simp [leave, goTo]
      · rename_i isOpen
        split at steps
        · rename_i room
          cases steps
          refine .inr (.inl ⟨i, tag, _, _, _, found, .report out (by simpa using isOpen), rfl, ?_, ?_,
            fun _ => room, rfl, rfl⟩)
          · simp [send, leave, goTo, Stage.holds]
          · simp [send, leave, goTo]
        · cases steps
    · cases steps
  | take =>
    simp only [step] at steps
    split at steps
    · rename_i m rest isQueue
      cases steps
      exact .inr (.inr (.inl ⟨rfl, m, rest, isQueue, rfl⟩))
    · cases steps
  | close =>
    simp only [step] at steps
    split at steps
    · cases steps
    · rename_i isOpen
      cases steps
      exact .inr (.inr (.inr ⟨rfl, by simpa using isOpen, rfl⟩))

/-- The tasks after a task has moved. -/
theorem Moved.get {i j : Nat} {tag : Tag} {old new : Stage Out} {messages : List Msg}
    (moved : Moved M capacity s s' act i tag old new messages) :
    s'.tasks[j]? = if i = j then some (tag, new) else s.tasks[j]? := by
  obtain ⟨inside, -⟩ := List.getElem?_eq_some_iff.mp moved.found
  rw [moved.tasks, List.getElem?_set, if_pos inside]

/-- The tasks after a task was spawned. -/
theorem spawned_cases {tasks : List (Tag × Stage Out)} {tag tag' : Tag} {j : Nat} {stage : Stage Out}
    (found : (tasks ++ [(tag, Stage.waiting)])[j]? = some (tag', stage)) :
    tasks[j]? = some (tag', stage) ∨ (j = tasks.length ∧ tag' = tag ∧ stage = .waiting) := by
  rw [List.getElem?_append] at found
  split at found
  · exact .inl found
  · obtain ⟨inside, same⟩ := List.getElem?_eq_some_iff.mp found
    simp only [List.length_singleton, List.getElem_singleton, Prod.mk.injEq] at inside same
    exact .inr ⟨by omega, same.1.symm, same.2.symm⟩

/-- Tasks keep what they were spawned with. -/
theorem Moved.tags {i : Nat} {tag : Tag} {old new : Stage Out} {messages : List Msg}
    (moved : Moved M capacity s s' act i tag old new messages) : s'.tasks.map Prod.fst = s.tasks.map Prod.fst := by
  obtain ⟨inside, isTask⟩ := List.getElem?_eq_some_iff.mp moved.found
  have bound : i < (s.tasks.map Prod.fst).length := by rwa [List.length_map]
  have isTag : tag = (s.tasks.map Prod.fst)[i] := by rw [List.getElem_map, isTask]
  rw [moved.tasks, List.map_set, isTag, List.set_getElem_self]

/-- A task that is there was there before, or has just been spawned. -/
theorem task_cases (steps : step M capacity s act = some s') {j : Nat} {tag : Tag} {stage : Stage Out}
    (found : s'.tasks[j]? = some (tag, stage)) :
    s.tasks[j]? = some (tag, stage) ∨ (act = .spawn tag ∧ stage = .waiting ∧ j = s.tasks.length) ∨
      ∃ old messages, Moved M capacity s s' act j tag old stage messages := by
  rcases step_cases steps with
    ⟨tag', rfl, rfl⟩ | ⟨i, tag', old, new, messages, moved⟩ | ⟨-, m, rest, isQueue, rfl⟩ | ⟨-, isOpen, rfl⟩
  · rcases spawned_cases found with before | ⟨isLast, rfl, isWaiting⟩
    · exact .inl before
    · exact .inr (.inl ⟨rfl, isWaiting, isLast⟩)
  · rw [moved.get] at found
    split at found
    · rename_i same
      cases found
      subst same
      exact .inr (.inr ⟨old, messages, moved⟩)
    · exact .inl found
  · exact .inl found
  · exact .inl found

/-- What comes out of a task has been there before, or its work has just come to its end. -/
theorem outcome_cases (steps : step M capacity s act = some s') {j : Nat} {tag : Tag} {stage : Stage Out} {out : Out}
    (found : s'.tasks[j]? = some (tag, stage)) (isOutcome : stage.outcome = some out) :
    (∃ old, s.tasks[j]? = some (tag, old) ∧ old.outcome = some out) ∨
      (act = .finish j out ∧ s.tasks[j]? = some (tag, .working)) := by
  rcases task_cases steps found with before | ⟨-, rfl, -⟩ | ⟨old, messages, moved⟩
  · exact .inl ⟨stage, before, isOutcome⟩
  · cases isOutcome
  · obtain ⟨foundOld, moves⟩ := moved
    cases moves with
    | finish out' =>
      cases isOutcome
      exact .inr ⟨rfl, foundOld⟩
    | report out' _ | unheard out' _ =>
      cases isOutcome
      exact .inl ⟨_, foundOld, rfl⟩
    | _ => cases isOutcome

/-! ## What every step keeps -/

/-- Slots are neither lost nor made, the channel is within its capacity, and the receiver sees the messages of
each task in their order: all that were sent, as long as it is there. -/
structure Sound (M : Messages Tag Out Msg) (slots capacity : Nat) (s : Reporters Tag Out Msg) : Prop where
  slots : s.free + s.tasks.countP (·.2.holds) = slots
  capacity : s.queue.length ≤ capacity
  senders : ∀ m ∈ s.taken ++ s.queue, m.1 < s.tasks.length
  closed : s.closed = true → s.queue = []
  admitted : s.closed = false → ∀ (i : Nat) (tag : Tag), s.tasks[i]? ≠ some (tag, Stage.turnedAway)
  delivered : ∀ i tag stage, s.tasks[i]? = some (tag, stage) → s.closed = false →
    ofTask i (s.taken ++ s.queue) = stage.sent M tag
  ordered : ∀ i tag stage, s.tasks[i]? = some (tag, stage) → ofTask i s.taken <+: stage.sent M tag

theorem sound_idle (M : Messages Tag Out Msg) (slots capacity : Nat) : Sound M slots capacity (idle slots) where
  slots := by simp [idle]
  capacity := by simp [idle]
  senders := by simp [idle]
  closed := by simp [idle]
  admitted := by simp [idle]
  delivered := by simp [idle]
  ordered := by simp [idle]

/-- One task has moved to another stage. -/
theorem countP_move {p : Tag × Stage Out → Bool} {tasks : List (Tag × Stage Out)} {i : Nat} {old : Tag × Stage Out}
    (found : tasks[i]? = some old) (new : Tag × Stage Out) :
    (tasks.set i new).countP p + (p old).toNat = tasks.countP p + (p new).toNat := by
  obtain ⟨inside, rfl⟩ := List.getElem?_eq_some_iff.mp found
  have counted := List.boole_getElem_le_countP (p := p) inside
  rw [List.countP_set inside]
  generalize p tasks[i] = before at counted
  generalize p new = after
  cases before <;> cases after <;>
    simp only [Bool.false_eq_true, if_true, if_false, Bool.toNat_true, Bool.toNat_false] at counted ⊢ <;> omega

end Reporters

namespace Stage.Moves

variable {i : Nat} {tag : Tag} {closed : Bool} {act : ReportAct Tag Out} {old new : Stage Out} {messages : List Msg}

/-- A task that moves sends what it has to, if it is heard. -/
theorem sent (moves : Stage.Moves M i tag closed act old new messages) (isOpen : closed = false) :
    new.sent M tag = old.sent M tag ++ messages := by
  cases moves with
  | turnAway isClosed | unheard out isClosed =>
    rw [isOpen] at isClosed
    cases isClosed
  | _ => rfl

theorem prefix_sent (moves : Stage.Moves M i tag closed act old new messages) : old.sent M tag <+: new.sent M tag := by
  cases moves <;> simp [Stage.sent]

/-- Nothing is sent to a receiver that is gone. -/
theorem silent (moves : Stage.Moves M i tag closed act old new messages) (isClosed : closed = true) : messages = [] := by
  cases moves with
  | announce isOpen | report out isOpen =>
    rw [isClosed] at isOpen
    cases isOpen
  | _ => rfl

end Stage.Moves

namespace Reporters

variable {s s' : Reporters Tag Out Msg} {act : ReportAct Tag Out} {slots : Nat}

theorem Sound.spawn (sound : Sound M slots capacity s) (tag : Tag) :
    Sound M slots capacity { s with tasks := s.tasks ++ [(tag, .waiting)] } := by
  have nothing : ofTask s.tasks.length (s.taken ++ s.queue) = [] :=
    ofTask_eq_nil fun m inside => Nat.ne_of_lt (sound.senders m inside)
  refine ⟨?_, sound.capacity, ?_, sound.closed, ?_, ?_, ?_⟩
  · simpa [Stage.holds] using sound.slots
  · intro m inside
    have := sound.senders m inside
    simp only [List.length_append, List.length_singleton]
    omega
  · intro isOpen j tag' found
    rcases spawned_cases found with old | ⟨-, -, isWaiting⟩
    · exact sound.admitted isOpen j tag' old
    · cases isWaiting
  · intro j tag' stage found isOpen
    rcases spawned_cases found with old | ⟨rfl, -, rfl⟩
    · exact sound.delivered j tag' stage old isOpen
    · exact nothing
  · intro j tag' stage found
    rcases spawned_cases found with old | ⟨rfl, -, rfl⟩
    · exact sound.ordered j tag' stage old
    · rw [ofTask_append, List.append_eq_nil_iff] at nothing
      rw [nothing.1]
      exact List.nil_prefix

theorem Sound.moved (sound : Sound M slots capacity s) {i : Nat} {tag : Tag} {old new : Stage Out} {messages : List Msg}
    (moved : Moved M capacity s s' act i tag old new messages) : Sound M slots capacity s' := by
  have sends : messages.length ≤ 1 := by cases moved.moves <;> simp
  have length : s'.tasks.length = s.tasks.length := by rw [moved.tasks, List.length_set]
  obtain ⟨inside, -⟩ := List.getElem?_eq_some_iff.mp moved.found
  refine ⟨?_, ?_, ?_, ?_, ?_, ?_, ?_⟩
  · have count := countP_move (p := (·.2.holds)) moved.found (tag, new)
    have free := moved.free
    have total := sound.slots
    rw [← moved.tasks] at count
    simp only at count
    omega
  · rw [moved.queue, List.length_append, List.length_map]
    have := sound.capacity
    by_cases quiet : messages = []
    · simpa [quiet] using this
    · have := moved.room quiet
      omega
  · intro m sent
    rw [moved.taken, moved.queue, ← List.append_assoc, List.mem_append, List.mem_map] at sent
    rw [length]
    rcases sent with earlier | ⟨_, -, rfl⟩
    · exact sound.senders m earlier
    · exact inside
  · intro isClosed
    rw [moved.closed] at isClosed
    rw [moved.queue, sound.closed isClosed, moved.moves.silent isClosed]
    rfl
  · intro isOpen j tag' found
    rw [moved.get] at found
    rw [moved.closed] at isOpen
    split at found
    · cases found
      cases moved.moves with
      | turnAway isClosed =>
        rw [isOpen] at isClosed
        cases isClosed
    · exact sound.admitted isOpen j tag' found
  · intro j tag' stage found isOpen
    rw [moved.get] at found
    rw [moved.closed] at isOpen
    rw [moved.taken, moved.queue, ← List.append_assoc, ofTask_append]
    split at found
    · rename_i same
      cases found
      subst same
      rw [ofTask_own, sound.delivered i tag old moved.found isOpen, moved.moves.sent isOpen]
    · rename_i other
      rw [ofTask_other other, List.append_nil]
      exact sound.delivered j tag' stage found isOpen
  · intro j tag' stage found
    rw [moved.get] at found
    rw [moved.taken]
    split at found
    · rename_i same
      cases found
      subst same
      exact (sound.ordered i tag old moved.found).trans moved.moves.prefix_sent
    · exact sound.ordered j tag' stage found

theorem Sound.step (sound : Sound M slots capacity s) (steps : Reporters.step M capacity s act = some s') :
    Sound M slots capacity s' := by
  rcases step_cases steps with
    ⟨tag, -, rfl⟩ | ⟨i, tag, old, new, messages, moved⟩ | ⟨-, m, rest, isQueue, rfl⟩ | ⟨-, isOpen, rfl⟩
  · exact sound.spawn tag
  · exact sound.moved moved
  · have split : s.taken ++ s.queue = (s.taken ++ [m]) ++ rest := by rw [isQueue, List.append_assoc]; rfl
    have isOpen : s.closed = false := by
      rw [← Bool.not_eq_true]
      intro isClosed
      rw [sound.closed isClosed] at isQueue
      cases isQueue
    refine ⟨sound.slots, ?_, ?_, ?_, sound.admitted, ?_, ?_⟩
    · have := sound.capacity
      rw [isQueue, List.length_cons] at this
      exact Nat.le_of_succ_le this
    · rw [← split]
      exact sound.senders
    · intro isClosed
      rw [isOpen] at isClosed
      cases isClosed
    · rw [← split]
      exact sound.delivered
    · intro j tag stage found
      rw [← sound.delivered j tag stage found isOpen, split, ofTask_append _ _ rest]
      exact List.prefix_append _ _
  · refine ⟨sound.slots, Nat.zero_le _, ?_, fun _ => rfl, nofun, nofun, sound.ordered⟩
    intro m inside
    rw [List.append_nil] at inside
    exact sound.senders m (List.mem_append_left _ inside)

/-! ## Every task comes to its end -/

/-- A bound on the steps that are left, as long as no task is spawned. -/
def work (s : Reporters Tag Out Msg) : Nat :=
  (s.tasks.map (·.2.remaining)).sum + s.queue.length + (!s.closed).toNat

/-- One task has gone on. -/
theorem sum_move {tasks : List (Tag × Stage Out)} {i : Nat} {tag : Tag} {old : Stage Out}
    (found : tasks[i]? = some (tag, old)) (new : Stage Out) :
    ((tasks.set i (tag, new)).map (·.2.remaining)).sum + old.remaining =
      (tasks.map (·.2.remaining)).sum + new.remaining := by
  induction tasks generalizing i with
  | nil => cases found
  | cons t rest ih =>
    cases i with
    | zero =>
      cases found
      simp only [List.set_cons_zero, List.map_cons, List.sum_cons]
      omega
    | succ i =>
      have := ih found
      simp only [List.set_cons_succ, List.map_cons, List.sum_cons]
      omega

theorem Moved.work {i : Nat} {tag : Tag} {old new : Stage Out} {messages : List Msg}
    (moved : Moved M capacity s s' act i tag old new messages) : s'.work < s.work := by
  have total := sum_move moved.found new
  have less : new.remaining + messages.length < old.remaining := by
    cases moved.moves <;> simp [Stage.remaining]
  rw [Reporters.work, Reporters.work, moved.tasks, moved.queue, moved.closed, List.length_append, List.length_map]
  omega

theorem work_step (steps : step M capacity s act = some s') :
    (∃ tag, act = .spawn tag ∧ s'.work = s.work + 6) ∨ s'.work < s.work := by
  rcases step_cases steps with
    ⟨tag, rfl, rfl⟩ | ⟨i, tag, old, new, messages, moved⟩ | ⟨-, m, rest, isQueue, rfl⟩ | ⟨-, isOpen, rfl⟩
  · refine .inl ⟨tag, rfl, ?_⟩
    simp only [work, List.map_append, List.map_cons, List.map_nil, List.sum_append, List.sum_cons, List.sum_nil,
      Stage.remaining]
    omega
  · exact .inr moved.work
  · refine .inr ?_
    simp only [work, isQueue, List.length_cons]
    omega
  · refine .inr ?_
    simp only [work, isOpen, List.length_nil, Bool.not_true, Bool.not_false, Bool.toNat_true, Bool.toNat_false]
    omega

/-- What a task does where its stage is `stage`, and `out` comes out of its work. -/
def actOf (i : Nat) (out : Out) : Stage Out → Option (ReportAct Tag Out)
  | .waiting => some (.acquire i)
  | .announcing => some (.announce i)
  | .working => some (.finish i out)
  | .reporting _ => some (.report i)
  | .ended _ | .unwound | .turnedAway => none

/-- A task in a slot can go on while the channel has room or nobody listens. -/
theorem step_holding {i : Nat} {tag : Tag} {stage : Stage Out} (found : s.tasks[i]? = some (tag, stage))
    (holds : stage.holds = true) (out : Out) (room : s.queue.length < capacity) :
    ∃ act s', actOf i out stage = some act ∧ step M capacity s act = some s' := by
  suffices goesOn : ∃ act, actOf i out stage = some act ∧ ∃ s', step M capacity s act = some s' by
    obtain ⟨act, isAct, s', steps⟩ := goesOn
    exact ⟨act, s', isAct, steps⟩
  cases stage with
  | working => exact ⟨_, rfl, _, by rw [step, found]⟩
  | announcing | reporting _ =>
    refine ⟨_, rfl, ?_⟩
    simp only [step, found, room, if_true]
    split <;> exact ⟨_, rfl⟩
  | _ => cases holds

/-- **No deadlock**: with an empty channel, some task that is not over can go on. -/
theorem exists_step (sound : Sound M slots capacity s) (positive : 0 < slots) (room : 0 < capacity)
    (empty : s.queue = []) (unfinished : ∃ t ∈ s.tasks, t.2.isOver = false) :
    ∃ i tag stage, s.tasks[i]? = some (tag, stage) ∧
      ∀ out, ∃ act s', actOf i out stage = some act ∧ step M capacity s act = some s' := by
  have roomy : s.queue.length < capacity := by rw [empty]; exact room
  by_cases held : ∃ t ∈ s.tasks, t.2.holds = true
  · obtain ⟨⟨tag, stage⟩, inside, holds⟩ := held
    obtain ⟨i, found⟩ := List.getElem?_of_mem inside
    exact ⟨i, tag, stage, found, fun out => step_holding found holds out roomy⟩
  · obtain ⟨⟨tag, stage⟩, inside, isLeft⟩ := unfinished
    have outside : stage.holds ≠ true := fun holds => held ⟨_, inside, holds⟩
    obtain ⟨i, found⟩ := List.getElem?_of_mem inside
    have allFree : 0 < s.free := by
      have total := sound.slots
      rw [List.countP_eq_zero.mpr fun t inside holds => held ⟨t, inside, holds⟩] at total
      omega
    cases stage with
    | waiting =>
      have takes : step M capacity s (.acquire i) = some { s.goTo i tag .announcing with free := s.free - 1 } := by
        simp only [step, found, allFree, if_true]
      exact ⟨i, tag, _, found, fun _ => ⟨_, _, rfl, takes⟩⟩
    | ended _ | unwound | turnedAway => cases isLeft
    | _ => exact absurd rfl outside

/-! ## After the receiver is gone -/

theorem closed_step (steps : step M capacity s act = some s') (isClosed : s.closed = true) : s'.closed = true := by
  rcases step_cases steps with
    ⟨tag, -, rfl⟩ | ⟨i, tag, old, new, messages, moved⟩ | ⟨-, m, rest, isQueue, rfl⟩ | ⟨-, isOpen, rfl⟩
  · exact isClosed
  · rw [moved.closed]
    exact isClosed
  · exact isClosed
  · rfl

/-- No work is started any more. -/
theorem closed_starts_nothing (steps : step M capacity s act = some s') (isClosed : s.closed = true) {i : Nat} {tag : Tag}
    {stage : Stage Out} (found : s'.tasks[i]? = some (tag, stage)) (started : stage.hasStarted = true) :
    ∃ old, s.tasks[i]? = some (tag, old) ∧ old.hasStarted = true := by
  rcases task_cases steps found with before | ⟨-, rfl, -⟩ | ⟨old, messages, moved⟩
  · exact ⟨stage, before, started⟩
  · cases started
  · refine ⟨old, moved.found, ?_⟩
    cases moved.moves with
    | announce isOpen =>
      rw [isClosed] at isOpen
      cases isOpen
    | acquire | turnAway _ => cases started
    | _ => rfl

end Reporters

end Chronon.Concurrent
