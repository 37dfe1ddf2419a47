import Chronon.Tick.Exclusive

/-!
# A due list goes stale

A coordinator works through a list that other coordinators and upserts
overtake. `claim_job_for_tick` re-checks that the job is enabled and
`try_claim_run_once` that it is not completed; nothing re-checks that the job
still fires by the `due_until` of the list. While no step disturbs a listed
job, every run is created from a row that was due when it was claimed.
-/

namespace Chronon
set_option autoImplicit false

open Concurrent

/-! ## What a coordinator has seen -/

/-- The due list a task works through, and the row its last `claim_job_for_tick` found. -/
structure TickView where
  dueUntil : DateTime
  ids : List String
  found : Option Job

/-- The view of a task after one of its calls. -/
def viewAfter (e : LogEntry) (v : Option TickView) : Option TickView :=
  match e with
  | ⟨_, _, .store (.findDueJobIdsInPartitions _ dueUntil _), .ok ids⟩ => some ⟨dueUntil, ids, none⟩
  | ⟨_, s, .store (.claimJobForTick jobId _ _ _), _⟩ => v.map fun v => ⟨v.dueUntil, v.ids.tail, s.store.jobs.lookup jobId⟩
  | _ => v

def view (p : Nat) (log : Log) : Option TickView := track viewAfter none p log

/-- Every run of `j` that a tick created comes from a row that was due when it was claimed. -/
def CreatesOnlyDue (j : String) : Log → Prop
  | [] => True
  | e :: older =>
    (∀ run ∈ createdRun e, (holding e.pid older).isSome → run.jobId = some j →
      (view e.pid older).any (fun v => v.found.any (Store.scheduleDue v.dueUntil)) = true) ∧ CreatesOnlyDue j older

instance CreatesOnlyDue.decide (j : String) : (log : Log) → Decidable (CreatesOnlyDue j log)
  | [] => isTrue trivial
  | e :: older =>
    have := CreatesOnlyDue.decide j older
    inferInstanceAs (Decidable ((∀ run ∈ createdRun e, _) ∧ CreatesOnlyDue j older))

/-! ## The setting -/

/-- Not manual, and a fire at or before `dueUntil` is stored. -/
def Job.firesBy (job : Job) (dueUntil : DateTime) : Bool := job.scheduleKind != .manual && job.nextRunAt.any (· ≤ dueUntil)

/-- A run-once job that is done. -/
def Job.Completed (job : Job) : Prop := job.scheduleKind = .runOnce ∧ job.runOnceCompletedAt ≠ none

instance (job : Job) : Decidable job.Completed := inferInstanceAs (Decidable (_ ∧ _))

theorem scheduleDue_of_found {row : Job} {dueUntil : DateTime} (enabled : row.enabled = true)
    (fires : row.firesBy dueUntil = true) (incomplete : ¬ row.Completed) : Store.scheduleDue dueUntil row = true := by
  simp only [Job.firesBy, Bool.and_eq_true] at fires
  simp only [Store.scheduleDue, enabled, fires, Bool.true_and, Bool.or_eq_true, bne_iff_ne, Option.isNone_iff_eq_none]
  by_contra neither
  obtain ⟨once, completed⟩ := not_or.mp neither
  exact incomplete ⟨not_not.mp once, completed⟩

/-- A step after which `j` still fires by the end of every due list that it is waiting on. -/
def ListUndisturbed (j : String) (w w' : World) : Prop :=
  ∀ p, ∀ v ∈ view p w.log, j ∈ v.ids → ∀ row ∈ w.job j, row.firesBy v.dueUntil = true →
    ∀ row' ∈ w'.job j, row'.firesBy v.dueUntil = true

instance (j : String) (w w' : World) : Decidable (ListUndisturbed j w w') :=
  decidable_of_iff (∀ p ∈ w.log.map Entry.pid, ∀ v ∈ view p w.log, j ∈ v.ids → ∀ row ∈ w.job j,
      row.firesBy v.dueUntil = true → ∀ row' ∈ w'.job j, row'.firesBy v.dueUntil = true)
    (forall_track (Q := fun _ (seen : Option TickView) => ∀ v ∈ seen, j ∈ v.ids → ∀ row ∈ w.job j,
      row.firesBy v.dueUntil = true → ∀ row' ∈ w'.job j, row'.firesBy v.dueUntil = true) (by simp)).symm

/-- A step that does not reopen the completed run-once job `j` under a coordinator that has claimed it. -/
def ClaimedStaysCompleted (j : String) (w w' : World) : Prop :=
  ∀ p, ∀ k ∈ holding p w.log, k.jobId = j → ∀ row ∈ w.job j, row.Completed → ∀ row' ∈ w'.job j, row'.Completed

instance (j : String) (w w' : World) : Decidable (ClaimedStaysCompleted j w w') :=
  decidable_of_iff (∀ p ∈ w.log.map Entry.pid, ∀ k ∈ holding p w.log, k.jobId = j → ∀ row ∈ w.job j, row.Completed →
      ∀ row' ∈ w'.job j, row'.Completed)
    (forall_track (Q := fun _ (held : Option TickClaim) => ∀ k ∈ held, k.jobId = j → ∀ row ∈ w.job j, row.Completed →
      ∀ row' ∈ w'.job j, row'.Completed) (by simp)).symm

/-- Steps that leave the jobs coordinators are about to enqueue as these have listed them. -/
def Undisturbed (j : String) (w w' : World) : Prop := ListUndisturbed j w w' ∧ ClaimedStaysCompleted j w w'

instance (j : String) (w w' : World) : Decidable (Undisturbed j w w') := inferInstanceAs (Decidable (_ ∧ _))

/-! ## The invariant -/

/-- The row the last claim found was enabled and fired in time, and if it was completed then `Q`. -/
def Found (p : Nat) (w : World) (b : Batch) (Q : Prop) : Prop :=
  ∃ row, view p w.log = some ⟨b.dueUntil, b.ids, some row⟩ ∧ row.enabled = true ∧ row.firesBy b.dueUntil = true ∧
    (row.Completed → Q)

/-- The stored row is a completed run-once job. -/
def StoredCompleted (j : String) (w : World) : Prop := ∃ row, w.job j = some row ∧ row.Completed

def StaleFact (j : String) (p : Nat) (w : World) : Phase → Prop
  | .claimed b k => k.jobId = j → Found p w b (StoredCompleted j w)
  | .loaded b k job | .tryOnce b k job => k.jobId = j →
      Found p w b (job.scheduleKind = .runOnce ∧ StoredCompleted j w)
  | .drawing b k _ | .creating b k _ _ => k.jobId = j → Found p w b False
  | _ => True

/-- What a task asserts. -/
structure StaleHolds (j : String) (p : Nat) (φ : Phase) (w : World) : Prop where
  linked : Linked p φ w
  viewed : ∀ b, φ.batch = some b → ∃ found, view p w.log = some ⟨b.dueUntil, b.ids, found⟩
  pending : ∀ b, φ.batch = some b → j ∈ b.ids → ∃ row, w.job j = some row ∧ row.firesBy b.dueUntil = true
  fact : StaleFact j p w φ

/-- What a step keeps for everybody. -/
structure StaleKeeps (j : String) (q : Nat) (w w' : World) : Prop where
  stepped : ∃ oracle op r, perform q oracle w op = some (r, w')
  present : ∀ row, w.job j = some row → ∃ row', w'.job j = some row'
  undisturbed : Undisturbed j w w'

section Step

variable {host : Host} {j : String} {p : Nat} {oracle : Oracle} {w w' : World} {φ φ' : Phase} {op : Op} {r : Ans op}

theorem StoredCompleted.step {k : TickClaim} (completed : StoredCompleted j w) (held : holding p w.log = some k)
    (onJob : k.jobId = j) (present : ∀ row, w.job j = some row → ∃ row', w'.job j = some row')
    (undisturbed : Undisturbed j w w') : StoredCompleted j w' := by
  obtain ⟨row, stored, isCompleted⟩ := completed
  obtain ⟨row', stored'⟩ := present row stored
  exact ⟨row', stored', undisturbed.2 p k held onJob row stored isCompleted row' stored'⟩

theorem Found.mono {b : Batch} {Q Q' : Prop} (found : Found p w b Q) (same : view p w'.log = view p w.log)
    (weaker : Q → Q') : Found p w' b Q' := by
  obtain ⟨row, viewed, enabled, fires, completed⟩ := found
  exact ⟨row, same.trans viewed, enabled, fires, fun isCompleted => weaker (completed isCompleted)⟩

/-- A fact survives every step that leaves the task's view alone. -/
theorem StaleFact.stable (fact : StaleFact j p w φ) (same : view p w'.log = view p w.log)
    (held : ∀ k, φ.claim = some k → holding p w.log = some k)
    (present : ∀ row, w.job j = some row → ∃ row', w'.job j = some row') (undisturbed : Undisturbed j w w') :
    StaleFact j p w' φ := by
  cases φ with
  | claimed b k =>
    exact fun onJob => (fact onJob).mono same fun completed => completed.step (held k rfl) onJob present undisturbed
  | loaded b k job | tryOnce b k job =>
    exact fun onJob => (fact onJob).mono same fun both =>
      ⟨both.1, both.2.step (held k rfl) onJob present undisturbed⟩
  | drawing b k job | creating b k job runId => exact fun onJob => (fact onJob).mono same id
  | _ => trivial

theorem viewAfter_silent {s : State} {v : Option TickView} (quiet : Silent op) : viewAfter ⟨p, s, op, r⟩ v = v := by
  cases op with
  | store c => cases c <;> first | rfl | exact quiet.elim
  | _ => rfl

/-- The view of a task with a due list is that list. -/
theorem StaleHolds.viewed_step (holds : StaleHolds j p φ w) (move : Move host φ op r φ')
    (ran : perform p oracle w op = some (r, w')) :
    ∀ b, φ'.batch = some b → ∃ found, view p w'.log = some ⟨b.dueUntil, b.ids, found⟩ := by
  intro b isBatch
  have viewed := holds.viewed
  rw [view, track_own_call ran]
  cases move with
  | silent quiet => rw [viewAfter_silent quiet]; exact viewed b isBatch
  | list => cases isBatch; exact ⟨none, rfl⟩
  | claim next | claimRefused next _ =>
    obtain ⟨found, isView⟩ := viewed _ rfl
    rw [view] at isView
    cases isBatch
    rw [isView]
    simp only [viewAfter, Option.map_some, next, List.tail_cons]
    exact ⟨_, rfl⟩
  | misfired | admitted | create => split at isBatch <;> exact viewed b isBatch
  | createFailed => cases (perform_cases ran).1
  | checkName => split at isBatch <;> cases isBatch
  | _ => exact viewed b isBatch

theorem firesBy_of_isDue {row : Job} {clock dueUntil : DateTime} {owned : List Nat}
    (due : Store.isDue clock owned dueUntil row = true) : row.firesBy dueUntil = true := by
  have due := Store.scheduleDue_of_isDue due
  simp only [Store.scheduleDue, Bool.and_eq_true] at due
  simp only [Job.firesBy, due.1, Bool.and_self]

/-- A listed job fires in time: the due query said so, and no step has disturbed it since. -/
theorem StaleHolds.pending_step (holds : StaleHolds j p φ w) (move : Move host φ op r φ')
    (ran : perform p oracle w op = some (r, w')) (present : ∀ row, w.job j = some row → ∃ row', w'.job j = some row')
    (undisturbed : Undisturbed j w w') :
    ∀ b, φ'.batch = some b → j ∈ b.ids → ∃ row, w'.job j = some row ∧ row.firesBy b.dueUntil = true := by
  intro b isBatch listed
  have later : ∀ b₁, φ.batch = some b₁ → b₁.dueUntil = b.dueUntil → j ∈ b₁.ids →
      ∃ row, w'.job j = some row ∧ row.firesBy b.dueUntil = true := by
    intro b₁ isBatch₁ same listed₁
    obtain ⟨found, isView⟩ := holds.viewed b₁ isBatch₁
    obtain ⟨row, stored, fires⟩ := holds.pending b₁ isBatch₁ listed₁
    obtain ⟨row', stored'⟩ := present row stored
    exact ⟨row', stored', same ▸ undisturbed.1 p _ isView listed₁ row stored fires row' stored'⟩
  cases move with
  | silent _ => exact later b isBatch rfl listed
  | list =>
    cases isBatch
    have executed := (answer_store (perform_cases ran).1).1
    simp only [StoreCall.exec, Prod.mk.injEq] at executed
    obtain ⟨row, stored, due⟩ := Store.mem_findDue executed.1 listed
    have same := perform_job_same ran (j := j) rfl
    exact ⟨row, same.trans stored, firesBy_of_isDue due⟩
  | claim next | claimRefused next _ =>
    cases isBatch
    refine later _ rfl rfl ?_
    rw [next]
    exact List.mem_cons_of_mem _ listed
  | misfired | admitted | create => split at isBatch <;> exact later b isBatch rfl listed
  | createFailed => cases (perform_cases ran).1
  | checkName => split at isBatch <;> cases isBatch
  | _ => exact later b isBatch rfl listed

theorem StaleHolds.fact_step (holds : StaleHolds j p φ w) (move : Move host φ op r φ')
    (ran : perform p oracle w op = some (r, w')) (present : ∀ row, w.job j = some row → ∃ row', w'.job j = some row')
    (undisturbed : Undisturbed j w w') : StaleFact j p w' φ' := by
  have fact := holds.fact
  have linked := holds.linked
  have stays : viewAfter ⟨p, w.state, op, r⟩ (view p w.log) = view p w.log → ∀ ψ, ψ.claim = φ.claim →
      StaleFact j p w ψ → StaleFact j p w' ψ := by
    intro same ψ claim fact
    refine fact.stable (by rw [view, track_own_call ran]; exact same) (fun k isClaim => ?_) present undisturbed
    rw [linked.holds, ← claim, isClaim]
  cases move with
  | silent quiet => exact stays (viewAfter_silent quiet) φ rfl fact
  | claim next =>
    rename_i b now claimId jobId rest
    intro onJob
    have onJob : jobId = j := onJob
    subst onJob
    have listed : jobId ∈ b.ids := by rw [next]; exact List.mem_cons_self
    obtain ⟨row, stored, fires⟩ := holds.pending b rfl listed
    obtain ⟨found, isView⟩ := holds.viewed b rfl
    have step := perform_job ran jobId
    rw [stored] at step
    simp only [jobWrite, StoreCall.writesTo, StoreCall.jobWrite, if_true] at step
    generalize stored' : w'.job jobId = after at step
    cases step with
    | write stamp allowed =>
      refine ⟨row, ?_, allowed.1, fires, fun completed => ⟨_, stored', completed⟩⟩
      have isRow : w.state.store.jobs.lookup jobId = some row := stored
      rw [view] at isView
      rw [view, track_own_call ran, isView]
      simp only [viewAfter, Option.map_some, next, List.tail_cons, isRow]
  | load =>
    rename_i b k job
    refine stays rfl (.loaded b k job) rfl fun onJob => (fact onJob).mono rfl fun completed => ⟨?_, completed⟩
    obtain ⟨row, stored, once, -⟩ := completed
    have isJob := perform_getJob ran
    rw [onJob, stored] at isJob
    cases isJob
    exact once
  | misfired => split <;> trivial
  | admitted =>
    rename_i b k job _ _ _
    split
    · exact stays rfl (.tryOnce b k job) rfl fact
    · rename_i other
      exact stays rfl (.drawing b k job) rfl fun onJob => (fact onJob).mono rfl fun both => other both.1
  | once =>
    rename_i b k job
    refine stays rfl (.drawing b k job) rfl fun onJob => (fact onJob).mono rfl fun both => ?_
    obtain ⟨row, stored, -, completed⟩ := both.2
    subst onJob
    have step := perform_job ran k.jobId
    rw [stored] at step
    simp only [jobWrite, StoreCall.writesTo, StoreCall.jobWrite, if_true] at step
    generalize w'.job k.jobId = after at step
    cases step with
    | write stamp allowed => exact completed allowed
  | draw =>
    rename_i b k job runId
    exact stays rfl (.creating b k job runId) rfl fact
  | create | createFailed => split <;> trivial
  | checkName => split <;> trivial
  | _ => trivial

/-- A tick creates a run only from a row that was due. -/
theorem StaleHolds.created (holds : StaleHolds j p φ w) (move : Move host φ op r φ')
    (ran : perform p oracle w op = some (r, w')) (before : CreatesOnlyDue j w.log) : CreatesOnlyDue j w'.log := by
  rw [(perform_cases ran).2]
  refine ⟨fun run created held isJob => ?_, before⟩
  obtain ⟨rfl, -⟩ := createdRun_eq_some created
  have fact := holds.fact
  have free : φ.claim = none → ¬ (holding p w.log).isSome = true := by
    intro none_ held
    rw [holds.linked.holds, none_] at held
    cases held
  cases move with
  | silent quiet => exact quiet.elim
  | create =>
    rename_i b k job runId
    have onJob : k.jobId = j := (holds.linked.copies k job rfl).2.symm.trans (Option.some.inj isJob)
    obtain ⟨row, isView, enabled, fires, completed⟩ := fact onJob
    rw [isView]
    exact scheduleDue_of_found enabled fires completed
  | createFailed => cases created
  | insertFirst _ _ _ | retry => exact absurd held (free rfl)

end Step

/-- The rules behind freshness. -/
def staleRules (host : Host) (j : String) :
    Rules (system host) (protocol host) fun l w w' => NotDeleted j l ∧ Undisturbed j w w' where
  inv w := CreatesOnlyDue j w.log
  guar := StaleKeeps j
  idle p w := holding p w.log = none
  holds := StaleHolds j
  start := by
    intro p proc w _ idle _
    refine ⟨.start idle, ?_, ?_, ?_⟩
    · cases proc <;> exact fun b none_ => by cases none_
    · cases proc <;> exact fun b none_ => by cases none_
    · cases proc <;> trivial
  finish _ ended holds := holds.linked.finish ended
  own := by
    intro p φ op r φ' oracle w w' inv holds move ran allowed
    have present := fun row (stored : w.job j = some row) => allowed.1.present ran stored
    exact ⟨holds.created move ran inv, ⟨⟨_, _, _, ran⟩, present, allowed.2⟩, holds.linked.own move ran,
      holds.viewed_step move ran, holds.pending_step move ran present allowed.2,
      holds.fact_step move ran present allowed.2⟩
  other := by
    intro p q φ w w' apart _ _ keeps holds
    obtain ⟨_, _, _, ran⟩ := keeps.stepped
    have same : view p w'.log = view p w.log := track_other_call ran (Ne.symm apart)
    refine ⟨holds.linked.other ran apart, ?_, ?_, ?_⟩
    · rw [same]
      exact holds.viewed
    · intro b isBatch listed
      obtain ⟨found, isView⟩ := holds.viewed b isBatch
      obtain ⟨row, stored, fires⟩ := holds.pending b isBatch listed
      obtain ⟨row', stored'⟩ := keeps.present row stored
      exact ⟨row', stored', keeps.undisturbed.1 p _ isView listed row stored fires row' stored'⟩
    · exact holds.fact.stable same (fun k claim => holds.linked.holds.trans claim) keeps.present keeps.undisturbed
  otherIdle apart _ _ keeps idle := by
    obtain ⟨_, _, _, ran⟩ := keeps.stepped
    rw [holding, track_other_call ran (Ne.symm apart)]
    exact idle
  drift := by
    intro e w w' inv drifts allowed
    obtain ⟨-, jobs, -, log⟩ := drift_cases drifts
    refine ⟨by rw [log]; exact inv, fun p φ holds => ?_, fun p idle => by rw [log]; exact idle⟩
    refine ⟨holds.linked.drift drifts, by rw [log]; exact holds.viewed, by rw [jobs]; exact holds.pending, ?_⟩
    exact holds.fact.stable (by rw [log]) (fun k claim => holds.linked.holds.trans claim)
      (fun row stored => ⟨row, by rw [jobs]; exact stored⟩) allowed.2

/-- **A tick enqueues only jobs that are still due when claimed**, in every run that disturbs no listed job. -/
theorem tick_enqueues_only_due (host : Host) (j : String) {s : State} {c : SystemConfig}
    (reach : (system host).Reach (fun l w w' => NotDeleted j l ∧ Undisturbed j w w') (.idle (.fresh s)) c) :
    CreatesOnlyDue j c.world.log :=
  ((staleRules host j).sound (protocol_governs host)
    (Rules.Standing.initial (staleRules host j) (w := .fresh s) trivial fun _ => rfl) reach).inv

/-- Two coordinators list the job; the second finds it claimed, and the first enqueues it. -/
theorem tick_enqueues_only_due_race :
    ∃ c, (system .simple).Reach (fun l w w' => NotDeleted "j" l ∧ Undisturbed "j" w w')
        (.idle (.fresh (.single minutelyJob (seconds 60)))) c ∧
      ((tickCreated "j" c.world.log).length == 1) = true ∧ CreatesOnlyDue "j" c.world.log := by
  obtain ⟨c, reach, holds⟩ := exists_run .simple (fun l w w' => NotDeleted "j" l ∧ Undisturbed "j" w w')
    (.single minutelyJob (seconds 60))
    (startTick 0 "a" false ++ startTick 1 "b" false ++ claimNext 0 "u0" ++ claimNext 1 "u1" ++ enqueueRest 0 "r0")
    (fun c => (tickCreated "j" c.world.log).length == 1) (by decide +kernel)
  exact ⟨c, reach, holds, tick_enqueues_only_due .simple "j" reach⟩

/-- Two coordinators list the job. The first enqueues it and stores the next fire; the second then claims
it from its stale list and enqueues a fire that is a minute away. -/
theorem tick_enqueues_stale :
    ∃ c, (system .simple).Reach (fun l _ w' => NotDeleted "j" l ∧ LeasesHold "j" w')
        (.idle (.fresh (.single minutelyJob (seconds 60)))) c ∧ ¬ CreatesOnlyDue "j" c.world.log := by
  obtain ⟨c, reach, stale⟩ := exists_run .simple (fun l _ w' => NotDeleted "j" l ∧ LeasesHold "j" w')
    (.single minutelyJob (seconds 60))
    (startTick 0 "a" false ++ startTick 1 "b" false ++ claimNext 0 "u0" ++ enqueueRest 0 "r0" ++
      claimNext 1 "u1" ++ enqueueRest 1 "r1")
    (fun c => decide (¬ CreatesOnlyDue "j" c.world.log)) (by decide +kernel)
  exact ⟨c, reach, of_decide_eq_true stale⟩

end Chronon
