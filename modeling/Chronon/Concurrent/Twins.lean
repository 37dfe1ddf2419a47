import Chronon.Concurrent.Interleave

/-!
# Two runs side by side

Two worlds that differ in what an observer cannot see, and two programs that
issue calls which differ in the same way. A pairing says which calls may stand for
each other, and how their answers are then related. Programs that are twins under it
go on as twins whatever the related answers are, so if related worlds answer paired
calls with related answers, each run from the one world is matched by a run from the
other, call by call.
-/

namespace Chronon.Concurrent
set_option autoImplicit false

variable {Op : Type} {Ans : Op → Type} {World Proc Oracle Env α β γ δ : Type}

/-- Which calls may stand for each other, with the relation between their answers. -/
abbrev Pairing (Op : Type) (Ans : Op → Type) := (op op' : Op) → (Ans op → Ans op' → Prop) → Prop

/-- Two programs that issue paired calls, go on as twins from related answers, and return related results. -/
inductive Twin (pairing : Pairing Op Ans) (Q : α → β → Prop) : Prog Op Ans α → Prog Op Ans β → Prop
  | ret {a : α} {b : β} : Q a b → Twin pairing Q (.ret a) (.ret b)
  | call {op op' : Op} {k : Ans op → Prog Op Ans α} {k' : Ans op' → Prog Op Ans β} {S : Ans op → Ans op' → Prop} :
      pairing op op' S → (∀ r r', S r r' → Twin pairing Q (k r) (k' r')) → Twin pairing Q (.call op k) (.call op' k')

section Programs

variable {pairing : Pairing Op Ans} {Q : α → β → Prop}

theorem Twin.bind {R : γ → δ → Prop} {m : Prog Op Ans α} {m' : Prog Op Ans β} {f : α → Prog Op Ans γ}
    {f' : β → Prog Op Ans δ} (first : Twin pairing Q m m') (rest : ∀ a b, Q a b → Twin pairing R (f a) (f' b)) :
    Twin pairing R (m >>= f) (m' >>= f') := by
  induction first with
  | ret related => exact rest _ _ related
  | call paired _ ih => exact .call paired ih

theorem Twin.mono {R : α → β → Prop} {m : Prog Op Ans α} {m' : Prog Op Ans β} (twin : Twin pairing Q m m')
    (weaker : ∀ a b, Q a b → R a b) : Twin pairing R m m' := by
  induction twin with
  | ret related => exact .ret (weaker _ _ related)
  | call paired _ ih => exact .call paired ih

/-- One call. -/
theorem Twin.perform {op op' : Op} {S : Ans op → Ans op' → Prop} (paired : pairing op op' S) :
    Twin pairing S (.perform op) (.perform op') :=
  .call paired fun _ _ related => .ret related

/-- Embedded programs are twins under the embedded pairing. -/
theorem Twin.embed {Op' : Type} {Ans' : Op' → Type} {f : Op → Op'} {back : (op : Op) → Ans' (f op) → Ans op}
    {pairing' : Pairing Op' Ans'} {m : Prog Op Ans α} {m' : Prog Op Ans β}
    (paired : ∀ op op' S, pairing op op' S → pairing' (f op) (f op') fun r r' => S (back op r) (back op' r'))
    (twin : Twin pairing Q m m') : Twin pairing' Q (m.embed f back) (m'.embed f back) := by
  induction twin with
  | ret related => exact .ret related
  | call isPair _ ih => exact .call (paired _ _ _ isPair) fun r r' related => ih _ _ related

end Programs

/-- What happens around the tasks is as `around` allows. -/
def Label.Within (around : Env → Prop) (l : Label Op Ans Proc Env) : Prop := ∀ e, l = .env e → around e

instance (around : Env → Prop) [DecidablePred around] : (l : Label Op Ans Proc Env) → Decidable (l.Within around)
  | .start _ _ => .isTrue fun _ isEnv => nomatch isEnv
  | .call _ _ _ => .isTrue fun _ isEnv => nomatch isEnv
  | .env e => decidable_of_iff (around e) ⟨fun allowed _ isEnv => Label.env.inj isEnv ▸ allowed, fun within => within e rfl⟩

theorem Label.Within.mono {around around' : Env → Prop} {l : Label Op Ans Proc Env} (within : l.Within around)
    (weaker : ∀ e, around e → around' e) : l.Within around' := fun e isEnv => weaker e (within e isEnv)

/-- Related worlds answer alike, each task is its own twin, and what is allowed to happen around them in the one can happen
in the other. -/
structure Machine.Twins (M : Machine Op Ans World Proc Oracle Env) (pairing : Pairing Op Ans) (R : World → World → Prop)
    (around : Env → Prop) : Prop where
  code : ∀ proc, Twin pairing (fun _ _ => True) (M.code proc) (M.code proc)
  exec : ∀ {p : Nat} {oracle : Oracle} {w w' v : World} {op op' : Op} {S : Ans op → Ans op' → Prop} {r : Ans op},
    R w w' → pairing op op' S → M.exec p oracle w op = some (r, v) →
      ∃ r' v', M.exec p oracle w' op' = some (r', v') ∧ S r r' ∧ R v v'
  drift : ∀ {e : Env} {w w' v : World}, R w w' → around e → M.drift e w = some v →
    ∃ e' v', around e' ∧ M.drift e' w' = some v' ∧ R v v'

/-- The worlds are related, and so are the tasks. -/
structure TwinConfigs (pairing : Pairing Op Ans) (R : World → World → Prop) (c d : Config Op Ans World) : Prop where
  world : R c.world d.world
  threads : ∀ p, Option.Rel (Twin pairing fun _ _ => True) (c.threads p) (d.threads p)

section Runs

variable {pairing : Pairing Op Ans} {R : World → World → Prop} {M : Machine Op Ans World Proc Oracle Env}
  {around : Env → Prop} {c c' d : Config Op Ans World}

theorem TwinConfigs.idle {w w' : World} (related : R w w') :
    TwinConfigs pairing R (.idle w : Config Op Ans World) (.idle w') := ⟨related, fun _ => .none⟩

theorem TwinConfigs.update {w w' : World} {p : Nat} {m m' : Prog Op Ans Unit} (twins : TwinConfigs pairing R c d)
    (related : R w w') (twin : Twin pairing (fun _ _ => True) m m') :
    TwinConfigs pairing R ⟨w, Function.update c.threads p (some m)⟩ ⟨w', Function.update d.threads p (some m')⟩ := by
  refine ⟨related, fun q => ?_⟩
  dsimp only
  by_cases own : q = p
  · subst own
    rw [Function.update_self, Function.update_self]
    exact .some twin
  · rw [Function.update_of_ne own, Function.update_of_ne own]
    exact twins.threads q

/-- A step is matched. -/
theorem TwinConfigs.step {ch : Choice Proc Oracle Env} {l : Label Op Ans Proc Env} (twins : TwinConfigs pairing R c d)
    (alike : M.Twins pairing R around) (moves : M.step c ch = some (l, c')) (within : l.Within around) :
    ∃ ch' l' d', M.step d ch' = some (l', d') ∧ l'.Within around ∧ TwinConfigs pairing R c' d' := by
  obtain ⟨p, proc, -, free, rfl⟩ | ⟨p, oracle, op, r, k, w, -, waiting, runs, rfl⟩ | ⟨e, w, isEnv, drifts, rfl⟩ :=
    Machine.step_cases moves
  · refine ⟨.start p proc, .start p proc, { d with threads := Function.update d.threads p (some (M.code proc)) }, ?_,
      (by rintro e ⟨⟩), twins.update twins.world (alike.code proc)⟩
    have isFree : ∀ op k, d.threads p ≠ some (.call op k) := by
      intro op k waiting
      have both := twins.threads p
      rw [waiting] at both
      generalize c.threads p = thread at both free
      cases both with
      | some twin =>
        cases twin with
        | call => exact free _ _ rfl
    unfold Machine.step
    dsimp only
    split
    · exact absurd ‹_› (isFree _ _)
    · rfl
  · have both := twins.threads p
    rw [waiting] at both
    generalize isThread : d.threads p = thread at both
    cases both with
    | some twin =>
      cases twin with
      | @call _ op' _ k' S paired rest =>
        obtain ⟨r', w', runs', answers, related⟩ := alike.exec twins.world paired runs
        refine ⟨.call p oracle, .call p op' r', ⟨w', Function.update d.threads p (some (k' r'))⟩, ?_, (by rintro e ⟨⟩),
          twins.update related (rest r r' answers)⟩
        simp only [Machine.step, isThread, runs']
  · obtain ⟨e', w', allowed, drifts', related⟩ := alike.drift twins.world (within e isEnv) drifts
    refine ⟨.env e', .env e', { d with world := w' }, ?_, ?_, related, twins.threads⟩
    · simp only [Machine.step, drifts']
    · rintro e ⟨⟩
      exact allowed

/-- **Whatever the one can do, the other can do**, and the two stay related. -/
theorem TwinConfigs.reach (twins : TwinConfigs pairing R c d) (alike : M.Twins pairing R around)
    (reach : M.Reach (fun l _ _ => l.Within around) c c') :
    ∃ d', M.Reach (fun l _ _ => l.Within around) d d' ∧ TwinConfigs pairing R c' d' := by
  induction reach with
  | refl => exact ⟨d, .refl, twins⟩
  | step _ moves within ih =>
    obtain ⟨d₁, reached, twins₁⟩ := ih
    obtain ⟨ch', l', d', moves', within', twins'⟩ := twins₁.step alike moves within
    exact ⟨d', reached.step moves' within', twins'⟩

end Runs

end Chronon.Concurrent
