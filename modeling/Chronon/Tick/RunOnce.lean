import Chronon.Tick.Exclusive

/-!
# A run-once job is enqueued once

Until the job is marked completed, tick claims on it are exclusive, so the run
is created by the only holder, who marks the job before giving the claim up;
afterwards neither a stale due list nor a new due query leads to a run.
-/

namespace Chronon
set_option autoImplicit false

open Concurrent

/-! ## Created runs in the history -/

/-- The job a task has created a run for since it last claimed one. -/
def madeAfter (e : LogEntry) (made : Option String) : Option String :=
  match e with
  | ⟨_, _, .store (.createRun run), .ok ()⟩ => run.jobId
  | ⟨_, _, .store (.claimJobForTick _ _ _ _), .ok true⟩ => none
  | _ => made

def made (p : Nat) (log : Log) : Option String := track madeAfter none p log

/-- Whether an entry gives up a claim on `j`. -/
def givesUp (j : String) (e : LogEntry) : Bool :=
  match e with
  | ⟨_, _, .store (.releaseJobTickClaim jobId), _⟩ => jobId == j
  | ⟨_, _, .store (.persistPostTickJobState jobId _), _⟩ => jobId == j
  | _ => false

/-- A task that created a run of `j` has given up the claim it created it under. -/
def creationEnded (j : String) : Log → Bool
  | [] => false
  | e :: older =>
    creationEnded j older || (givesUp j e && (holding e.pid older).isSome && made e.pid older == some j)

/-- No due query made after the creating sequence ended returned `j`. -/
def NeverListedAgain (j : String) : Log → Prop
  | [] => True
  | e :: older => (creationEnded j older = true → j ∉ dueIds e) ∧ NeverListedAgain j older

/-- Steps in which the job `j` is neither upserted nor deleted and every task gives its claim on `j` up
before the lease runs out. -/
def RunOnceSetting (j : String) (l : SystemLabel) (w' : World) : Prop := Untouched j l ∧ LeasesHold j w'

instance (j : String) (l : SystemLabel) (w' : World) : Decidable (RunOnceSetting j l w') := inferInstanceAs (Decidable (_ ∧ _))

/-! ## The invariant -/

/-- What a task at work on `j` knows about the row and about what has been created. -/
def OnceFact (j : String) (p : Nat) (w : World) (row : Job) : Phase → Prop
  | .claimed _ k | .loaded _ k _ | .releasing _ k | .skipMark _ k _ | .tryOnce _ k _ => k.jobId = j →
      made p w.log ≠ some j ∧ (row.runOnceCompletedAt = none → tickCreated j w.log = [])
  | .drawing _ k _ | .creating _ k _ _ => k.jobId = j →
      made p w.log ≠ some j ∧ row.runOnceCompletedAt = none ∧ tickCreated j w.log = []
  | .undoing _ k => k.jobId ≠ j
  | .marking _ k _ => k.jobId = j → row.runOnceCompletedAt = none ∧ (tickCreated j w.log).length = 1
  | .persisting _ k _ | .skipPersist _ k _ | .skipRelease _ k => k.jobId = j → row.runOnceCompletedAt ≠ none
  | _ => True

/-- What every reachable world satisfies. -/
structure OnceInv (j : String) (w : World) (row : Job) : Prop where
  stored : w.job j = some row
  once : row.scheduleKind = .runOnce
  leases : LeasesHold j w
  alone : row.runOnceCompletedAt = none → HoldsAlone j w row
  creator : row.runOnceCompletedAt = none → tickCreated j w.log ≠ [] → ∃ p k, holding p w.log = some k ∧ k.jobId = j
  atMostOne : (tickCreated j w.log).length ≤ 1
  ended : creationEnded j w.log = true → row.runOnceCompletedAt ≠ none
  unlisted : NeverListedAgain j w.log

/-- What a task asserts. -/
structure OnceHolds (j : String) (p : Nat) (φ : Phase) (w : World) : Prop where
  linked : Linked p φ w
  copy : ∀ k job, φ.copy = some (k, job) → k.jobId = j → job.scheduleKind = .runOnce
  fact : ∀ row, w.job j = some row → OnceFact j p w row φ

/-- What a step leaves alone: a completion stays, and while the job is open nobody but the holder
completes it or creates a run of it. -/
structure OnceKeeps (j : String) (q : Nat) (w w' : World) : Prop where
  stepped : ∃ oracle op r, perform q oracle w op = some (r, w')
  completion : ∀ row row', w.job j = some row → w'.job j = some row' →
    row.runOnceCompletedAt ≠ none → row'.runOnceCompletedAt ≠ none
  others : ∀ row row', w.job j = some row → w'.job j = some row' → row.runOnceCompletedAt = none →
    (∃ p k, p ≠ q ∧ holding p w.log = some k ∧ k.jobId = j) →
    row'.runOnceCompletedAt = none ∧ tickCreated j w'.log = tickCreated j w.log

section Step

variable {host : Host} {j : String} {p : Nat} {oracle : Oracle} {w w' : World} {φ φ' : Phase} {op : Op} {r : Ans op}
  {row row' : Job}

/-- Every change of an untouched row keeps its kind, and its completion unless it is the mark. -/
theorem Untouched.completed (untouched : Untouched j (.call p op r)) (ran : perform p oracle w op = some (r, w'))
    (stored : w.job j = some row) (stored' : w'.job j = some row') :
    row'.scheduleKind = row.scheduleKind ∧
      (row'.runOnceCompletedAt = row.runOnceCompletedAt ∨
        (row'.runOnceCompletedAt ≠ none ∧ ∃ at', Wrote j op r (.complete at'))) := by
  rcases untouched.job ran stored with ⟨-, same⟩ | ⟨write, stamp, wrote, allowed, changed⟩
  · rw [stored'] at same
    cases same
    exact ⟨rfl, .inl rfl⟩
  · rw [stored'] at changed
    cases changed
    cases write with
    | complete at' => exact ⟨rfl, .inr ⟨by simp [JobWrite.onRow], at', jobWrite_wrote wrote⟩⟩
    | put job => exact allowed.elim
    | drop => exact allowed.elim
    | releaseOnce claimedBy => simp only [JobWrite.onRow]; split <;> exact ⟨rfl, .inl rfl⟩
    | _ => exact ⟨rfl, .inl rfl⟩

/-- A task that holds a claim keeps it until it gives it up at the end of its sequence. -/
theorem Move.keeps_claim {k : TickClaim} (move : Move host φ op r φ') (ran : perform p oracle w op = some (r, w'))
    (held : φ.claim = some k) :
    φ'.claim = some k ∨ (∃ b, φ = .releasing b k) ∨ (∃ b job, φ = .persisting b k job ∨ φ = .skipPersist b k job) := by
  cases move with
  | silent _ => exact .inl held
  | loadFailed => cases (perform_cases ran).1
  | release => cases held; exact .inr (.inl ⟨_, rfl⟩)
  | persist => cases held; exact .inr (.inr ⟨_, _, .inl rfl⟩)
  | skipPersist => cases held; exact .inr (.inr ⟨_, _, .inr rfl⟩)
  | misfired | admitted | create | createFailed => left; split <;> exact held
  | _ => first | exact .inl held | cases held

/-- A task that gives up the claim of `j` after creating a run of it has marked the job first. -/
theorem OnceHolds.ended (holds : OnceHolds j p φ w) (move : Move host φ op r φ') (stored : w.job j = some row)
    (gives : givesUp j ⟨p, w.state, op, r⟩ = true) (held : (holding p w.log).isSome = true)
    (creator : made p w.log = some j) : row.runOnceCompletedAt ≠ none := by
  have fact := holds.fact row stored
  rw [holds.linked.holds] at held
  cases move with
  | silent quiet =>
    cases op with
    | store c => cases c <;> first | cases gives | exact quiet.elim
    | _ => cases gives
  | release => exact absurd creator (fact (beq_iff_eq.mp gives)).1
  | persist => exact fact (beq_iff_eq.mp gives)
  | skipPersist => exact fact (beq_iff_eq.mp gives)
  | skipRelease => cases held
  | _ => cases gives

/-- **One step keeps the invariant.** -/
theorem OnceInv.step (inv : OnceInv j w row) (holds : OnceHolds j p φ w) (move : Move host φ op r φ')
    (ran : perform p oracle w op = some (r, w')) (setting : RunOnceSetting j (.call p op r) w')
    (stored' : w'.job j = some row') : OnceInv j w' row' := by
  have fact := holds.fact row inv.stored
  obtain ⟨kind, completion⟩ := setting.1.completed ran inv.stored stored'
  have open_ : row'.runOnceCompletedAt = none → row.runOnceCompletedAt = none := by
    intro none_
    rcases completion with same | ⟨some_, -⟩
    · rwa [same] at none_
    · exact absurd none_ some_
  refine ⟨stored', kind.trans inv.once, setting.2, ?_, ?_, ?_, ?_, ?_⟩
  · intro none_
    refine (inv.alone (open_ none_)).step inv.leases setting.1 ran inv.stored stored' ?_ ?_
    · intro claimId now ttl wrote
      obtain ⟨b, rest, rfl, -, -⟩ := move.of_claimTick wrote
      exact holds.linked.reads now rfl
    · rintro (released | ⟨next, persisted⟩)
      · obtain ⟨b, k, onJob, rfl | rfl, -⟩ := move.of_releaseTick released
        · exact .inl ⟨k, holds.linked.holds, onJob⟩
        · exact absurd (open_ none_) (fact onJob)
      · obtain ⟨b, k, job, onJob, -, ⟨rfl, -⟩ | ⟨rfl, -⟩⟩ := move.of_persist persisted
        all_goals exact .inl ⟨k, holds.linked.holds, onJob⟩
  · intro none_ some_
    rcases holds.linked.created (j := j) move ran with same | ⟨b, k, job, runId, rfl, onJob, -⟩
    · obtain ⟨q, k, held, onJob⟩ := inv.creator (open_ none_) (same ▸ some_)
      by_cases own : p = q
      · subst own
        have claim : φ.claim = some k := holds.linked.holds.symm.trans held
        rcases move.keeps_claim ran claim with kept | ⟨b, rfl⟩ | ⟨b, job, rfl | rfl⟩
        · exact ⟨p, k, (holds.linked.own move ran).holds.trans kept, onJob⟩
        · exact absurd (same.trans ((fact onJob).2 (open_ none_))) some_
        · exact absurd (open_ none_) (fact onJob)
        · exact absurd (open_ none_) (fact onJob)
      · refine ⟨q, k, ?_, onJob⟩
        rw [holding, track_other_call ran own]
        exact held
    · refine ⟨p, k, ?_, onJob⟩
      rcases move.keeps_claim ran rfl with kept | ⟨b, other⟩ | ⟨b, job, other | other⟩
      · exact (holds.linked.own move ran).holds.trans kept
      all_goals cases other
  · rcases holds.linked.created (j := j) move ran with same | ⟨b, k, job, runId, rfl, onJob, added⟩
    · rw [same]; exact inv.atMostOne
    · rw [added, (fact onJob).2.2]; rfl
  · intro ended
    have closed : row.runOnceCompletedAt ≠ none := by
      rw [(perform_cases ran).2] at ended
      simp only [creationEnded, Bool.or_eq_true, Bool.and_eq_true, beq_iff_eq] at ended
      rcases ended with before | ⟨⟨gives, held⟩, creator⟩
      · exact inv.ended before
      · exact holds.ended move inv.stored gives held creator
    exact fun none_ => closed (open_ none_)
  · rw [(perform_cases ran).2]
    refine ⟨fun ended listed => ?_, inv.unlisted⟩
    obtain ⟨row₁, owned, dueUntil, stored, due⟩ := perform_due ran listed
    rw [inv.stored] at stored
    cases stored
    have due := Store.scheduleDue_of_isDue due
    simp only [Store.scheduleDue, inv.once, bne_self_eq_false, Bool.false_or, Bool.and_eq_true,
      Option.isNone_iff_eq_none] at due
    exact inv.ended ended due.2

/-- What a step leaves alone for the other tasks. -/
theorem OnceInv.keeps (inv : OnceInv j w row) (holds : OnceHolds j p φ w) (move : Move host φ op r φ')
    (ran : perform p oracle w op = some (r, w')) (untouched : Untouched j (.call p op r)) : OnceKeeps j p w w' := by
  have mine : row.runOnceCompletedAt = none → (∃ q k, q ≠ p ∧ holding q w.log = some k ∧ k.jobId = j) →
      ∀ k, φ.claim = some k → k.jobId ≠ j := by
    rintro none_ ⟨q, k', apart, held, onJob⟩ k claim isJob
    exact apart ((inv.alone none_ p k (holds.linked.holds.trans claim) isJob).2.2 q k' held onJob)
  refine ⟨⟨_, _, _, ran⟩, ?_, ?_⟩
  · intro row₁ row' stored stored' some_ none_
    rcases (untouched.completed ran stored stored').2 with same | ⟨set, -⟩
    · exact some_ (same.symm.trans none_)
    · exact set none_
  · intro row₁ row' stored stored' none_ other
    rw [inv.stored] at stored
    cases stored
    constructor
    · rcases (untouched.completed ran inv.stored stored').2 with same | ⟨-, at', wrote⟩
      · exact same.trans none_
      · obtain ⟨b, k, job, onJob, ⟨rfl, -⟩ | ⟨rfl, -⟩⟩ := move.of_complete wrote
        all_goals exact absurd onJob (mine none_ other k rfl)
    · rcases holds.linked.created (j := j) move ran with same | ⟨b, k, job, runId, rfl, onJob, -⟩
      · exact same
      · exact absurd onJob (mine none_ other k rfl)

/-- A fact is about the row, what has been created and what the task has made. -/
theorem OnceFact.congr (fact : OnceFact j p w row φ) (created : tickCreated j w'.log = tickCreated j w.log)
    (own : made p w'.log = made p w.log) : OnceFact j p w' row φ := by
  cases φ <;> simp only [OnceFact, created, own] at fact ⊢ <;> exact fact

theorem OnceHolds.copy_step (inv : OnceInv j w row) (holds : OnceHolds j p φ w) (move : Move host φ op r φ')
    (ran : perform p oracle w op = some (r, w')) :
    ∀ k job, φ'.copy = some (k, job) → k.jobId = j → job.scheduleKind = .runOnce := by
  have copy := holds.copy
  intro k job isCopy
  cases move with
  | load =>
    rename_i b k job
    cases isCopy
    intro onJob
    have stored := perform_getJob ran
    rw [onJob, inv.stored] at stored
    cases stored
    exact inv.once
  | misfired | admitted | create =>
    split at isCopy <;> exact copy k job isCopy
  | createFailed => cases (perform_cases ran).1
  | checkName => split at isCopy <;> cases isCopy
  | silent _ => exact copy k job isCopy
  | _ => first | exact copy k job isCopy | cases isCopy

/-- Marking a stored row completes it. -/
theorem perform_mark {at' : DateTime} {r : Result Unit}
    (ran : perform p oracle w (.store (.markRunOnceCompleted j at')) = some (r, w')) (stored : w.job j = some row)
    (stored' : w'.job j = some row') : row'.runOnceCompletedAt ≠ none := by
  have executed := (answer_store (perform_cases ran).1).1
  have found : w.store.jobs.lookup j = some row := stored
  obtain ⟨missing, -, -⟩ | ⟨job, -, rfl, -⟩ := Store.mutateJobAt_cases executed
  · rw [found] at missing; cases missing
  · have step := perform_job ran j
    rw [stored, stored'] at step
    simp only [jobWrite, StoreCall.writesTo, StoreCall.jobWrite] at step
    cases step
    simp [JobWrite.onRow]

theorem OnceHolds.fact_step (inv : OnceInv j w row) (holds : OnceHolds j p φ w) (move : Move host φ op r φ')
    (ran : perform p oracle w op = some (r, w')) (setting : RunOnceSetting j (.call p op r) w')
    (stored' : w'.job j = some row') : OnceFact j p w' row' φ' := by
  have fact := holds.fact row inv.stored
  have copy := holds.copy
  have log := (perform_cases ran).2
  have calm : jobWrite j op r = none → tickCreated j (⟨p, w.state, op, r⟩ :: w.log) = tickCreated j w.log →
      madeAfter ⟨p, w.state, op, r⟩ (made p w.log) = made p w.log →
      ∀ ψ, OnceFact j p w row ψ → OnceFact j p w' row' ψ := by
    intro unwritten created own ψ fact
    have same := perform_job_same ran unwritten
    rw [stored', inv.stored] at same
    cases same
    exact fact.congr (by rw [log]; exact created) (by rw [made, track_own_call ran]; exact own)
  cases move with
  | silent quiet =>
    refine calm (quiet.jobWrite j r) (tickCreated_silent _ quiet) ?_ φ fact
    cases op with
    | store c => cases c <;> first | exact quiet.elim | rfl
    | _ => rfl
  | claim next =>
    rename_i b now claimId jobId rest
    intro onJob
    have onJob : jobId = j := onJob
    subst onJob
    have created : tickCreated jobId w'.log = tickCreated jobId w.log := by rw [log]; rfl
    refine ⟨by rw [made, track_own_call ran]; simp [madeAfter], fun none_ => ?_⟩
    obtain ⟨allowed, stamp, rfl⟩ := setting.1.written ran inv.stored stored' (if_pos rfl)
    -- nobody held the claim, so nobody was between creating a run and marking the job
    by_contra some_
    rw [created] at some_
    obtain ⟨q, k, held, isJob⟩ := inv.creator none_ some_
    exact (inv.alone none_).nobody inv.leases (holds.linked.reads now rfl) allowed.2 q k held isJob
  | load => exact calm rfl rfl rfl _ fact
  | loadMissing => exact calm rfl rfl rfl _ fact
  | atLimit _ => exact calm rfl rfl rfl _ fact
  | misfired =>
    rename_i b k job _ _ _
    split
    · exact calm rfl rfl rfl _ fact
    · rename_i other
      exact fun onJob => absurd (copy k job rfl onJob) other
  | admitted =>
    rename_i b k job _ _ _
    split
    · exact calm rfl rfl rfl _ fact
    · rename_i other
      exact fun onJob => absurd (copy k job rfl onJob) other
  | once =>
    rename_i b k job
    intro onJob
    have onJob : k.jobId = j := onJob
    obtain ⟨own, created⟩ := fact onJob
    obtain ⟨allowed, stamp, rfl⟩ := setting.1.written ran inv.stored stored' (if_pos onJob)
    exact ⟨by rw [made, track_own_call ran]; exact own, allowed, by rw [log]; exact created allowed⟩
  | onceRefused refused =>
    rename_i b k job r
    refine calm ?_ rfl rfl _ fact
    cases r with
    | error e => rfl
    | ok won =>
      cases won with
      | true => exact absurd rfl refused
      | false => rfl
  | draw => exact calm rfl rfl rfl _ fact
  | create =>
    rename_i b k job runId
    have same := perform_job_same ran (j := j) rfl
    rw [stored', inv.stored] at same
    cases same
    split
    · intro onJob
      obtain ⟨-, none_, empty⟩ := fact onJob
      refine ⟨none_, ?_⟩
      rw [holds.linked.tickCreated_create ran onJob, empty]
      rfl
    · rename_i other
      exact fun onJob => absurd (copy k job rfl onJob) other
  | createFailed => cases (perform_cases ran).1
  | undo => exact fun onJob => absurd onJob fact
  | mark =>
    intro onJob
    subst onJob
    exact perform_mark ran inv.stored stored'
  | skipMark =>
    intro onJob
    subst onJob
    exact perform_mark ran inv.stored stored'
  | skipPersist =>
    intro onJob none_
    rcases (setting.1.completed ran inv.stored stored').2 with same | ⟨some_, -⟩
    · exact fact onJob (same.symm.trans none_)
    · exact some_ none_
  | checkName => split <;> trivial
  | _ => trivial

/-- A fact survives what another task does. -/
theorem OnceFact.stable (fact : OnceFact j p w row φ) (own : made p w'.log = made p w.log)
    (completion : row.runOnceCompletedAt ≠ none → row'.runOnceCompletedAt ≠ none)
    (others : ∀ k, φ.claim = some k → k.jobId = j → row.runOnceCompletedAt = none →
      row'.runOnceCompletedAt = none ∧ tickCreated j w'.log = tickCreated j w.log) : OnceFact j p w' row' φ := by
  have open_ : row'.runOnceCompletedAt = none → row.runOnceCompletedAt = none := by
    intro none_
    by_contra some_
    exact completion some_ none_
  cases φ with
  | claimed _ k | loaded _ k _ | releasing _ k | skipMark _ k _ | tryOnce _ k _ =>
    intro onJob
    obtain ⟨unmade, created⟩ := fact onJob
    refine ⟨own ▸ unmade, fun none_ => ?_⟩
    rw [(others k rfl onJob (open_ none_)).2]
    exact created (open_ none_)
  | drawing _ k _ | creating _ k _ _ =>
    intro onJob
    obtain ⟨unmade, none_, empty⟩ := fact onJob
    obtain ⟨none', same⟩ := others k rfl onJob none_
    exact ⟨own ▸ unmade, none', same ▸ empty⟩
  | marking _ k _ =>
    intro onJob
    obtain ⟨none_, single⟩ := fact onJob
    obtain ⟨none', same⟩ := others k rfl onJob none_
    exact ⟨none', same ▸ single⟩
  | persisting _ k _ | skipPersist _ k _ | skipRelease _ k => exact fun onJob => completion (fact onJob)
  | _ => exact fact

theorem OnceHolds.own (inv : OnceInv j w row) (holds : OnceHolds j p φ w) (move : Move host φ op r φ')
    (ran : perform p oracle w op = some (r, w')) (setting : RunOnceSetting j (.call p op r) w') :
    OnceHolds j p φ' w' :=
  ⟨holds.linked.own move ran, holds.copy_step inv move ran,
    fun _ stored' => holds.fact_step inv move ran setting stored'⟩

theorem OnceHolds.other {q : Nat} (inv : OnceInv j w row) (holds : OnceHolds j p φ w) (keeps : OnceKeeps j q w w')
    (apart : p ≠ q) : OnceHolds j p φ w' := by
  obtain ⟨_, _, _, ran⟩ := keeps.stepped
  refine ⟨holds.linked.other ran apart, holds.copy, fun row' stored' => ?_⟩
  refine (holds.fact row inv.stored).stable ?_ ?_ ?_
  · rw [made, track_other_call ran (Ne.symm apart)]
    rfl
  · exact keeps.completion row row' inv.stored stored'
  · intro k claim onJob none_
    exact keeps.others row row' inv.stored stored' none_ ⟨p, k, apart, holds.linked.holds.trans claim, onJob⟩

theorem OnceHolds.drift {e : Env} (holds : OnceHolds j p φ w) (drifts : Chronon.drift e w = some w') :
    OnceHolds j p φ w' := by
  obtain ⟨-, jobs, -, log⟩ := drift_cases drifts
  refine ⟨holds.linked.drift drifts, holds.copy, fun row stored => ?_⟩
  rw [jobs] at stored
  exact (holds.fact row stored).congr (by rw [log]) (by rw [log])

theorem OnceHolds.start {proc : Proc} (idle : holding p w.log = none) : OnceHolds j p proc.phase w := by
  refine ⟨.start idle, ?_, ?_⟩
  · cases proc <;> exact fun _ _ none_ => by cases none_
  · cases proc <;> exact fun _ _ => trivial

theorem OnceInv.drift {e : Env} (inv : OnceInv j w row) (drifts : Chronon.drift e w = some w')
    (leases : LeasesHold j w') : OnceInv j w' row := by
  obtain ⟨-, jobs, -, log⟩ := drift_cases drifts
  refine ⟨by rw [jobs]; exact inv.stored, inv.once, leases, fun none_ => ?_, ?_, ?_, ?_, ?_⟩
  · exact (inv.alone none_).same rfl rfl fun q k after _ => by rwa [log] at after
  · rw [log]; exact inv.creator
  · rw [log]; exact inv.atMostOne
  · rw [log]; exact inv.ended
  · rw [log]; exact inv.unlisted

end Step

/-- The rules behind run-once. -/
def onceRules (host : Host) (j : String) :
    Rules (system host) (protocol host) fun l _ w' => RunOnceSetting j l w' where
  inv w := ∃ row, OnceInv j w row
  guar := OnceKeeps j
  idle p w := holding p w.log = none
  holds := OnceHolds j
  start _ idle _ := .start idle
  finish _ ended holds := holds.linked.finish ended
  own := by
    rintro p φ op r φ' oracle w w' ⟨row, inv⟩ holds move ran setting
    obtain ⟨row', stored'⟩ := setting.1.2.present ran inv.stored
    exact ⟨⟨row', inv.step holds move ran setting stored'⟩, inv.keeps holds move ran setting.1,
      holds.own inv move ran setting⟩
  other apart inv _ keeps holds := by
    obtain ⟨row, inv⟩ := inv
    exact holds.other inv keeps apart
  otherIdle apart _ _ keeps idle := by
    obtain ⟨_, _, _, ran⟩ := keeps.stepped
    rw [holding, track_other_call ran (Ne.symm apart)]
    exact idle
  drift := by
    rintro e w w' ⟨row, inv⟩ drifts setting
    refine ⟨⟨row, inv.drift drifts setting.2⟩, fun _ _ holds => holds.drift drifts, fun p idle => ?_⟩
    rw [(drift_cases drifts).2.2.2]
    exact idle

/-- **A run-once job is enqueued once.** Whatever tasks run and however their calls interleave, ticks
create at most one run of it, and once the creating sequence has ended no due query returns it. -/
theorem run_once_enqueued_once (host : Host) (j : String) {s : State} {row : Job} {c : SystemConfig}
    (stored : s.store.jobs.lookup j = some row) (once : row.scheduleKind = .runOnce)
    (reach : (system host).Reach (fun l _ w' => RunOnceSetting j l w') (.idle (.fresh s)) c) :
    (tickCreated j c.world.log).length ≤ 1 ∧ NeverListedAgain j c.world.log := by
  have start : OnceInv j (.fresh s) row :=
    { stored := stored
      once := once
      leases := fun p k held => by cases held
      alone := fun _ p k held => by cases held
      creator := fun _ some_ => absurd rfl some_
      atMostOne := Nat.zero_le 1
      ended := fun ended => by cases ended
      unlisted := trivial }
  have standing := (onceRules host j).sound (protocol_governs host)
    (Rules.Standing.initial (onceRules host j) ⟨row, start⟩ fun _ => rfl) reach
  obtain ⟨row', inv⟩ := standing.inv
  exact ⟨inv.atMostOne, inv.unlisted⟩

/-- Two coordinators list the job; one creates its run, the other claims it afterwards from its stale list. -/
theorem run_once_enqueued_once_stale :
    ∃ c, (system .simple).Reach (fun l _ w' => RunOnceSetting "j" l w')
        (.idle (.fresh (.single dueOnceJob (seconds 1000)))) c ∧
      ((tickCreated "j" c.world.log).length == 1 && creationEnded "j" c.world.log &&
        (holding 1 c.world.log).isSome) = true ∧
      (tickCreated "j" c.world.log).length ≤ 1 ∧ NeverListedAgain "j" c.world.log := by
  obtain ⟨c, reach, holds⟩ := exists_run .simple (fun l _ w' => RunOnceSetting "j" l w')
    (.single dueOnceJob (seconds 1000))
    (startTick 0 "a" false ++ startTick 1 "b" false ++ claimNext 0 "u0" ++ enqueueOnce 0 "r0" ++
      claimNext 1 "u1" ++ calls 1 3)
    (fun c => (tickCreated "j" c.world.log).length == 1 && creationEnded "j" c.world.log &&
      (holding 1 c.world.log).isSome) (by decide +kernel)
  exact ⟨c, reach, holds, run_once_enqueued_once .simple "j" rfl rfl reach⟩

end Chronon
