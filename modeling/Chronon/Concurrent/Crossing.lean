import Chronon.Concurrent.Sequential
import Mathlib.Data.List.TakeWhile

/-!
# Two programs that cross

Two programs take turns on one state, in any order, until both have returned. A
program whose calls are carried out in several steps is first spelled out as the
program of these steps (`Prog.implement`). Between two steps of one program the
other one goes on (`Advances`), so a crossing of a short program is cut at its steps
(`Crossed.next`).
-/

namespace Chronon.Concurrent
set_option autoImplicit false

variable {Op Op' σ α β : Type} {Ans : Op → Type} {Ans' : Op' → Type}

/-! ## Calls in several steps -/

/-- The program with each call replaced by the steps that carry it out. -/
def Prog.implement (f : (op : Op) → Prog Op' Ans' (Ans op)) : Prog Op Ans α → Prog Op' Ans' α
  | .ret a => .ret a
  | .call op k => f op >>= fun r => (k r).implement f

/-- A program that runs alone cannot tell the difference. -/
theorem Runs.implement {f : (op : Op) → Prog Op' Ans' (Ans op)} {step : σ → (op : Op') → Ans' op → σ → Prop}
    {m : Prog Op Ans α} {s s' : σ} {a : α} :
    Runs step (m.implement f) s a s' ↔ Runs (fun s op r t => Runs step (f op) s r t) m s a s' := by
  induction m generalizing s with
  | ret b => exact Iff.rfl
  | call op k ih =>
    rw [Prog.implement, Runs.bind]
    simp only [ih]
    rfl

/-- Every call of the program is an allowed one. -/
def Prog.Issues (allowed : Op → Prop) : Prog Op Ans α → Prop
  | .ret _ => True
  | .call op k => allowed op ∧ ∀ r, (k r).Issues allowed

theorem Prog.Issues.mono {allowed allowed' : Op → Prop} {m : Prog Op Ans α} (weaker : ∀ op, allowed op → allowed' op)
    (issues : m.Issues allowed) : m.Issues allowed' := by
  induction m with
  | ret a => trivial
  | call op k ih => exact ⟨weaker op issues.1, fun r => ih r (issues.2 r)⟩

theorem Prog.Issues.bind {allowed : Op → Prop} {m : Prog Op Ans α} {f : α → Prog Op Ans β} (first : m.Issues allowed)
    (rest : ∀ a, (f a).Issues allowed) : (m >>= f).Issues allowed := by
  induction m with
  | ret a => exact rest a
  | call op k ih => exact ⟨first.1, fun r => ih r (first.2 r)⟩

theorem Prog.Issues.implement {allowed : Op → Prop} {allowed' : Op' → Prop} {f : (op : Op) → Prog Op' Ans' (Ans op)}
    {m : Prog Op Ans α} (steps : ∀ op, allowed op → (f op).Issues allowed') (issues : m.Issues allowed) :
    (m.implement f).Issues allowed' := by
  induction m with
  | ret a => trivial
  | call op k ih => exact (steps op issues.1).bind fun r => ih r (issues.2 r)

/-! ## Taking turns -/

/-- A call that was made, and whether by the first of the two programs. -/
structure Turn (Op : Type) (Ans : Op → Type) where
  first : Bool
  op : Op
  ans : Ans op

/-- Both programs run to their end, in turns; the turns are listed oldest first. -/
inductive Crossed (step : σ → (op : Op) → Ans op → σ → Prop) :
    Prog Op Ans α → Prog Op Ans β → σ → List (Turn Op Ans) → α → β → σ → Prop
  | done {a : α} {b : β} {s : σ} : Crossed step (.ret a) (.ret b) s [] a b s
  | first {op : Op} {r : Ans op} {k : Ans op → Prog Op Ans α} {q : Prog Op Ans β} {s t s' : σ}
      {turns : List (Turn Op Ans)} {a : α} {b : β} : step s op r t → Crossed step (k r) q t turns a b s' →
      Crossed step (.call op k) q s (⟨true, op, r⟩ :: turns) a b s'
  | second {op : Op} {r : Ans op} {m : Prog Op Ans α} {k : Ans op → Prog Op Ans β} {s t s' : σ}
      {turns : List (Turn Op Ans)} {a : α} {b : β} : step s op r t → Crossed step m (k r) t turns a b s' →
      Crossed step m (.call op k) s (⟨false, op, r⟩ :: turns) a b s'

/-- The second program goes on by itself for some turns. -/
inductive Advances (step : σ → (op : Op) → Ans op → σ → Prop) :
    Prog Op Ans β → σ → List (Turn Op Ans) → Prog Op Ans β → σ → Prop
  | refl {q : Prog Op Ans β} {s : σ} : Advances step q s [] q s
  | turn {op : Op} {r : Ans op} {k : Ans op → Prog Op Ans β} {q : Prog Op Ans β} {s t s' : σ}
      {turns : List (Turn Op Ans)} : step s op r t → Advances step (k r) t turns q s' →
      Advances step (.call op k) s (⟨false, op, r⟩ :: turns) q s'

section Crossed

variable {step : σ → (op : Op) → Ans op → σ → Prop} {m : Prog Op Ans α} {q q' q'' : Prog Op Ans β} {s s' t : σ}
  {turns more : List (Turn Op Ans)} {a : α} {b : β}

/-- Up to the next step of the first program the second one advances. -/
theorem Crossed.next {op : Op} {k : Ans op → Prog Op Ans α} (crossed : Crossed step (.call op k) q s turns a b s') :
    ∃ before q₁ t r t' rest, turns = before ++ ⟨true, op, r⟩ :: rest ∧ Advances step q s before q₁ t ∧ step t op r t' ∧
      Crossed step (k r) q₁ t' rest a b s' := by
  generalize isCall : Prog.call op k = m at crossed
  induction crossed with
  | done => cases isCall
  | @first op r k q s t s' turns a b steps rest _ =>
    cases isCall
    exact ⟨[], q, s, r, t, turns, rfl, .refl, steps, rest⟩
  | second steps _ ih =>
    obtain ⟨before, q₁, t, r, t', rest, split, advances, own, crossed⟩ := ih isCall
    exact ⟨_ :: before, q₁, t, r, t', rest, by rw [split]; rfl, .turn steps advances, own, crossed⟩

/-- After the first program has returned, the second one runs to its end. -/
theorem Crossed.returned {a' : α} (crossed : Crossed step (.ret a') q s turns a b s') :
    a = a' ∧ Advances step q s turns (.ret b) s' := by
  generalize isRet : Prog.ret a' = m at crossed
  induction crossed with
  | done =>
    cases isRet
    exact ⟨rfl, .refl⟩
  | first _ _ _ => cases isRet
  | second steps _ ih =>
    obtain ⟨same, advances⟩ := ih isRet
    exact ⟨same, .turn steps advances⟩

theorem Advances.trans (first : Advances step q s turns q' t) (rest : Advances step q' t more q'' s') :
    Advances step q s (turns ++ more) q'' s' := by
  induction first with
  | refl => exact rest
  | turn steps _ ih => exact .turn steps (ih rest)

/-- What has advanced to its end has run. -/
theorem Advances.runs (advances : Advances step q s turns (.ret b) s') : Runs step q s b s' := by
  generalize isRet : Prog.ret b = q' at advances
  induction advances with
  | refl =>
    subst isRet
    exact ⟨rfl, rfl⟩
  | turn steps _ ih => exact ⟨_, _, steps, ih isRet⟩

theorem Advances.issues {allowed : Op → Prop} (issues : q.Issues allowed) (advances : Advances step q s turns q' t) :
    q'.Issues allowed ∧ ∀ turn ∈ turns, turn.first = false ∧ allowed turn.op := by
  induction advances with
  | refl => exact ⟨issues, by rintro _ ⟨⟩⟩
  | turn _ _ ih =>
    obtain ⟨rest, turns⟩ := ih (issues.2 _)
    refine ⟨rest, fun turn inside => ?_⟩
    rcases List.mem_cons.mp inside with rfl | later
    · exact ⟨rfl, issues.1⟩
    · exact turns turn later

section Observed

variable {allowed : Op → Prop} {shows : σ → Bool} {brings : Turn Op Ans → Bool}
  (effect : ∀ s own op r t, allowed op → step s op r t → shows t = (shows s || brings ⟨own, op, r⟩))
include effect

/-- Something that the calls can only bring about is there in the end if it was, or if a turn brought it about. -/
theorem Advances.observed (issues : q.Issues allowed) (advances : Advances step q s turns q' t) :
    shows t = (shows s || turns.any brings) := by
  induction advances with
  | refl => simp
  | turn steps _ ih => rw [ih (issues.2 _), effect _ _ _ _ _ issues.1 steps, List.any_cons, Bool.or_assoc]

theorem Crossed.observed (first : m.Issues allowed) (second : q.Issues allowed)
    (crossed : Crossed step m q s turns a b s') : shows s' = (shows s || turns.any brings) := by
  induction crossed with
  | done => simp
  | first steps _ ih => rw [ih (first.2 _) second, effect _ _ _ _ _ first.1 steps, List.any_cons, Bool.or_assoc]
  | second steps _ ih => rw [ih first (second.2 _), effect _ _ _ _ _ second.1 steps, List.any_cons, Bool.or_assoc]

end Observed

/-- Whether something that turns bring about and undo is there after them. -/
def standing (undoes brings : Turn Op Ans → Bool) (there : Bool) (turns : List (Turn Op Ans)) : Bool :=
  turns.foldl (fun there turn => there && !undoes turn || brings turn) there

theorem Crossed.standing {shows : σ → Bool} {undoes brings : Turn Op Ans → Bool}
    (effect : ∀ s own op r t, step s op r t → shows t = (shows s && !undoes ⟨own, op, r⟩ || brings ⟨own, op, r⟩))
    (crossed : Crossed step m q s turns a b s') : shows s' = Concurrent.standing undoes brings (shows s) turns := by
  induction crossed with
  | done => rfl
  | first steps _ ih | second steps _ ih =>
    rw [ih, effect _ _ _ _ _ steps]
    rfl

end Crossed

/-! ## Playing a crossing -/

section Play

variable {step : σ → (op : Op) → Ans op → σ → Prop} {exec : σ → (op : Op) → Option (Ans op × σ)}

/-- Both programs in a given order of turns (`true` for the first program), where a step is computed. -/
def play (exec : σ → (op : Op) → Option (Ans op × σ)) :
    List Bool → Prog Op Ans α → Prog Op Ans β → σ → Option (List (Turn Op Ans) × α × β × σ)
  | [], .ret a, .ret b, s => some ([], a, b, s)
  | true :: order, .call op k, q, s => do
    let (r, t) ← exec s op
    let (turns, rest) ← play exec order (k r) q t
    return (⟨true, op, r⟩ :: turns, rest)
  | false :: order, m, .call op k, s => do
    let (r, t) ← exec s op
    let (turns, rest) ← play exec order m (k r) t
    return (⟨false, op, r⟩ :: turns, rest)
  | _, _, _, _ => none

theorem crossed_of_play (sound : ∀ s op r t, exec s op = some (r, t) → step s op r t) {order : List Bool}
    {m : Prog Op Ans α} {q : Prog Op Ans β} {s s' : σ} {turns : List (Turn Op Ans)} {a : α} {b : β}
    (played : play exec order m q s = some (turns, a, b, s')) : Crossed step m q s turns a b s' := by
  fun_induction play exec order m q s generalizing turns with
  | case1 a b s =>
    cases played
    exact .done
  | case2 order op k q s ih =>
    simp only [Option.bind_eq_bind, Option.bind_eq_some_iff] at played
    obtain ⟨⟨r, t⟩, ran, ⟨turns, rest⟩, played, isTurns⟩ := played
    cases isTurns
    exact .first (sound _ _ _ _ ran) (ih r t played)
  | case3 order m op k s ih =>
    simp only [Option.bind_eq_bind, Option.bind_eq_some_iff] at played
    obtain ⟨⟨r, t⟩, ran, ⟨turns, rest⟩, played, isTurns⟩ := played
    cases isTurns
    exact .second (sound _ _ _ _ ran) (ih r t played)
  | case4 => cases played

/-- A crossing with a given outcome exists where one is played. -/
theorem exists_crossed (sound : ∀ s op r t, exec s op = some (r, t) → step s op r t) (order : List Bool)
    {m : Prog Op Ans α} {q : Prog Op Ans β} {s : σ} (outcome : List (Turn Op Ans) → σ → Bool)
    (played : ((play exec order m q s).any fun (turns, _, _, s') => outcome turns s') = true) :
    ∃ turns a b s', Crossed step m q s turns a b s' ∧ outcome turns s' = true := by
  obtain ⟨⟨turns, a, b, s'⟩, ran, isOutcome⟩ := (Option.any_eq_true _ _).mp played
  exact ⟨turns, a, b, s', crossed_of_play sound ran, isOutcome⟩

end Play

/-! ## One turn after another -/

section After

variable {earlier later : Turn Op Ans → Bool} {before rest turns : List (Turn Op Ans)} {turn : Turn Op Ans}

/-- After the first turn of the one kind comes one of the other kind. -/
def After (earlier later : Turn Op Ans → Bool) (turns : List (Turn Op Ans)) : Prop :=
  (turns.dropWhile fun turn => !earlier turn).tail.any later = true

instance (turns : List (Turn Op Ans)) : Decidable (After earlier later turns) := inferInstanceAs (Decidable (_ = true))

theorem after_first (none_ : ∀ turn ∈ before, earlier turn = false) (isFirst : earlier turn = true) :
    After earlier later (before ++ turn :: rest) ↔ rest.any later = true := by
  have skipped : (before ++ turn :: rest).dropWhile (fun turn => !earlier turn) = turn :: rest := by
    rw [List.dropWhile_append_of_pos fun turn inside => by rw [none_ turn inside]; rfl,
      List.dropWhile_cons_of_neg (by simp [isFirst])]
  rw [After, skipped, List.tail_cons]

theorem not_after (none_ : ∀ turn ∈ turns, earlier turn = false) : ¬ After earlier later turns := by
  have skipped : turns.dropWhile (fun turn => !earlier turn) = [] := by
    rw [List.dropWhile_eq_nil_iff]
    intro turn inside
    rw [none_ turn inside]
    rfl
  rw [After, skipped]
  simp

end After

end Chronon.Concurrent
