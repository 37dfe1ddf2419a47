import Chronon.Tick.Claims

/-!
# HTTP upserts and the fields of the coordinators

The job upsert handler reads the row, edits its copy and writes the whole copy
back. `merged` is the row as it would be if an upsert left alone what
coordinators write: the run-once fields, the tick claim, and the fire time of
a run-once job. The stored row carries these fields exactly as long as every
handler writes before a coordinator has changed them.
-/

namespace Chronon
set_option autoImplicit false

open Concurrent

/-! ## What coordinators own -/

/-- The fields coordinators write, and the kind that says whose the fire time is. -/
structure OwnedFields where
  scheduleKind : ScheduleKind
  runOnceClaimedAt : Option DateTime
  runOnceClaimedBy : Option String
  runOnceCompletedAt : Option DateTime
  runOnceClaimExpiresAt : Option DateTime
  claimLeaseId : Option String
  claimLeaseUntil : Option DateTime
  nextRunAt : Option DateTime
  deriving DecidableEq

def Job.owned (job : Job) : OwnedFields :=
  ⟨job.scheduleKind, job.runOnceClaimedAt, job.runOnceClaimedBy, job.runOnceCompletedAt, job.runOnceClaimExpiresAt,
    job.claimLeaseId, job.claimLeaseUntil, job.nextRunAt⟩

/-- The edited `job` over the stored `row`, with the coordinators' fields left alone. -/
def Job.over (job row : Job) : Job :=
  { job with
    runOnceClaimedAt := row.runOnceClaimedAt
    runOnceClaimedBy := row.runOnceClaimedBy
    runOnceCompletedAt := row.runOnceCompletedAt
    runOnceClaimExpiresAt := row.runOnceClaimExpiresAt
    claimLeaseId := row.claimLeaseId
    claimLeaseUntil := row.claimLeaseUntil
    nextRunAt := if row.scheduleKind = .runOnce ∧ job.scheduleKind = .runOnce then row.nextRunAt else job.nextRunAt }

/-- A write on the merged row. -/
def JobWrite.onMerged : JobWrite → Option Job → Option Job
  | .put job, some row => some (job.over row)
  | .put job, none => some job
  | .drop, _ => none
  | write, row => row.map (write.onRow 0)

/-- The merged row after a history that started in `s`. -/
def merged (j : String) (s : State) : Log → Option Job
  | [] => s.store.jobs.lookup j
  | e :: older =>
    match jobWrite j e.op e.ans with
    | some write => write.onMerged (merged j s older)
    | none => merged j s older

/-- Two rows have the same owned fields. -/
def OwnedAlike (a b : Option Job) : Prop := a.map Job.owned = b.map Job.owned

instance (a b : Option Job) : Decidable (OwnedAlike a b) := inferInstanceAs (Decidable (_ = _))

/-- Every call of the history found the owned fields of the merged row. -/
def OwnedBefore (j : String) (s : State) : Log → Prop
  | [] => True
  | e :: older => OwnedAlike (e.found.store.jobs.lookup j) (merged j s older) ∧ OwnedBefore j s older

/-- **No upsert rolls back what coordinators wrote**: the owned fields are the merged ones now and were at
every call. -/
def OwnedThroughout (j : String) (s : State) (w : World) : Prop :=
  OwnedAlike (w.job j) (merged j s w.log) ∧ OwnedBefore j s w.log

/-- The entry completed the run-once job `j`. -/
def completes (j : String) (e : LogEntry) : Bool :=
  match e with
  | ⟨_, _, .store (.markRunOnceCompleted jobId _), .ok ()⟩ => jobId == j
  | _ => false

/-- A run-once job that was completed is never listed as due. -/
def NotDueAgain (j : String) : Log → Prop
  | [] => True
  | e :: older =>
    (older.any (completes j) = true → j ∈ dueIds e →
      ∀ row ∈ e.found.store.jobs.lookup j, row.scheduleKind ≠ .runOnce) ∧ NotDueAgain j older

instance NotDueAgain.decide (j : String) : (log : Log) → Decidable (NotDueAgain j log)
  | [] => isTrue trivial
  | _ :: older =>
    have := NotDueAgain.decide j older
    inferInstanceAs (Decidable (_ ∧ NotDueAgain j older))

/-! ## What handlers read -/

/-- The row a task read by name, after one of its calls. -/
def copyAfter (e : LogEntry) (last : Option Job) : Option Job :=
  match e with
  | ⟨_, _, .store (.getJobByName _), .ok copy⟩ => copy
  | _ => last

/-- The row task `p` read by name last. -/
def copyRead (p : Nat) (log : Log) : Option Job := track copyAfter none p log

instance (job copy : Job) : Decidable (SameOwned job copy) :=
  decidable_of_iff (job.jobId = copy.jobId ∧ job.runOnceClaimedAt = copy.runOnceClaimedAt ∧
      job.runOnceClaimedBy = copy.runOnceClaimedBy ∧ job.runOnceCompletedAt = copy.runOnceCompletedAt ∧
      job.runOnceClaimExpiresAt = copy.runOnceClaimExpiresAt ∧ job.claimLeaseId = copy.claimLeaseId ∧
      job.claimLeaseUntil = copy.claimLeaseUntil)
    ⟨fun ⟨a, b, c, d, e, f, g⟩ => ⟨a, b, c, d, e, f, g⟩, fun ⟨a, b, c, d, e, f, g⟩ => ⟨a, b, c, d, e, f, g⟩⟩

/-- The stored row still has the owned fields of the copy that is being written back. -/
def StillAsRead (copy row : Option Job) : JobWrite → Prop
  | .put job => ∀ old ∈ copy, ∀ stored ∈ row, SameOwned stored old ∧
      (stored.scheduleKind = .runOnce → job.scheduleKind = .runOnce → stored.nextRunAt = old.nextRunAt)
  | _ => True

instance (copy row : Option Job) : (write : JobWrite) → Decidable (StillAsRead copy row write)
  | .put _ => inferInstanceAs (Decidable (∀ old ∈ copy, _))
  | .releaseTick | .persist _ | .drop | .enable _ | .claimOnce _ _ _ | .complete _ | .releaseOnce _ | .claimTick _ _ _ =>
    isTrue trivial

/-- Every upsert of `j` found the coordinators' fields as its handler had read them. -/
def HandlersCurrent (j : String) : Log → Prop
  | [] => True
  | e :: older =>
    (∀ write ∈ jobWrite j e.op e.ans, StillAsRead (copyRead e.pid older) (e.found.store.jobs.lookup j) write) ∧
      HandlersCurrent j older

instance HandlersCurrent.decide (j : String) : (log : Log) → Decidable (HandlersCurrent j log)
  | [] => isTrue trivial
  | e :: older =>
    have := HandlersCurrent.decide j older
    inferInstanceAs (Decidable ((∀ write ∈ jobWrite j e.op e.ans, _) ∧ HandlersCurrent j older))

/-- Whether a step starts a direct service upsert. -/
def startsUpsert : SystemLabel → Bool
  | .start _ (.upsert _) => true
  | _ => false

/-- Upserts are HTTP upserts, and those of `j` come from a handler that has read `j`. -/
def UpsertsExisting (j : String) (l : SystemLabel) (w : World) : Prop :=
  startsUpsert l = false ∧ ∀ p ∈ caller l, ∀ job ∈ upserted l, job.jobId = j → (copyRead p w.log).isSome = true

instance (j : String) (l : SystemLabel) (w : World) : Decidable (UpsertsExisting j l w) :=
  inferInstanceAs (Decidable (_ ∧ ∀ p ∈ caller l, _))

/-! ## One write -/

/-- A write in place acts on owned fields alone. -/
theorem JobWrite.owned_onRow {write : JobWrite} {a b : Job} (alike : a.owned = b.owned) (allowed : write.Allowed a)
    (s t : DateTime) : (write.onRow s a).owned = (write.onRow t b).owned := by
  simp only [Job.owned, OwnedFields.mk.injEq] at alike
  obtain ⟨kind, claimedAt, claimedBy, completedAt, expires, leaseId, leaseUntil, next⟩ := alike
  cases write with
  | put job => exact allowed.elim
  | drop => exact allowed.elim
  | releaseOnce holder =>
    simp only [JobWrite.onRow, claimedBy]
    split <;> simp only [Job.owned, kind, claimedAt, completedAt, expires, leaseId, leaseUntil, next]
  | _ => simp only [JobWrite.onRow, Job.owned, kind, claimedAt, claimedBy, completedAt, expires, leaseId, leaseUntil, next]

/-- Writing a copy back leaves the owned fields alone if and only if they are still as they were read. -/
theorem Job.owned_over_iff {job old row : Job} (carries : CarriesOver job old) (isJob : row.jobId = job.jobId) :
    job.owned = (job.over row).owned ↔ SameOwned row old ∧
      (row.scheduleKind = .runOnce → job.scheduleKind = .runOnce → row.nextRunAt = old.nextRunAt) := by
  obtain ⟨same, fire⟩ := carries
  simp only [Job.owned, Job.over, OwnedFields.mk.injEq, true_and]
  constructor
  · rintro ⟨claimedAt, claimedBy, completedAt, expires, leaseId, leaseUntil, next⟩
    refine ⟨⟨isJob.trans same.jobId, claimedAt.symm.trans same.runOnceClaimedAt,
      claimedBy.symm.trans same.runOnceClaimedBy, completedAt.symm.trans same.runOnceCompletedAt,
      expires.symm.trans same.runOnceClaimExpiresAt, leaseId.symm.trans same.claimLeaseId,
      leaseUntil.symm.trans same.claimLeaseUntil⟩, fun rowOnce jobOnce => ?_⟩
    rw [if_pos ⟨rowOnce, jobOnce⟩] at next
    exact next.symm.trans (fire jobOnce)
  · rintro ⟨stored, next⟩
    refine ⟨same.runOnceClaimedAt.trans stored.runOnceClaimedAt.symm,
      same.runOnceClaimedBy.trans stored.runOnceClaimedBy.symm,
      same.runOnceCompletedAt.trans stored.runOnceCompletedAt.symm,
      same.runOnceClaimExpiresAt.trans stored.runOnceClaimExpiresAt.symm,
      same.claimLeaseId.trans stored.claimLeaseId.symm, same.claimLeaseUntil.trans stored.claimLeaseUntil.symm, ?_⟩
    split
    · rename_i both
      exact (fire both.2).trans (next both.1 both.2).symm
    · rfl

/-- What a row is written over matters through its owned fields alone. -/
theorem Job.over_congr {job a b : Job} (alike : a.owned = b.owned) : job.over a = job.over b := by
  simp only [Job.owned, OwnedFields.mk.injEq] at alike
  obtain ⟨kind, claimedAt, claimedBy, completedAt, expires, leaseId, leaseUntil, next⟩ := alike
  simp only [Job.over, kind, claimedAt, claimedBy, completedAt, expires, leaseId, leaseUntil, next]

/-! ## One step -/

/-- The row an upsert in progress has read. -/
def Phase.edits : Phase → Option (Option Job)
  | .editing copy | .writingJob copy _ => some copy
  | _ => none

/-- What a task asserts: its copy is the row it read by name, and what it will write carries it over. -/
structure HandlerHolds (p : Nat) (φ : Phase) (w : World) : Prop where
  copied : ∀ copy, φ.edits = some copy → copyRead p w.log = copy
  carries : ∀ old job, φ = .writingJob (some old) job → CarriesOver job old

section Step

variable {host : Host} {j : String} {s : State} {p : Nat} {oracle : Oracle} {w w' : World} {φ φ' : Phase} {op : Op}
  {r : Ans op}

theorem copyAfter_silent {found : State} {last : Option Job} (quiet : Silent op) :
    copyAfter ⟨p, found, op, r⟩ last = last := by
  cases op with
  | store c => cases c <;> first | rfl | exact quiet.elim
  | _ => rfl

theorem HandlerHolds.own (holds : HandlerHolds p φ w) (move : Move host φ op r φ')
    (ran : perform p oracle w op = some (r, w')) : HandlerHolds p φ' w' := by
  have copied := holds.copied
  have carries := holds.carries
  constructor
  · intro copy edits
    rw [copyRead, track_own_call ran]
    cases move with
    | silent quiet => rw [copyAfter_silent quiet]; exact copied copy edits
    | lookUp =>
      rename_i jobName r
      cases edits
      have executed := (answer_store (perform_cases ran).1).1
      simp only [StoreCall.exec, Store.getJobByName, Prod.mk.injEq] at executed
      cases r with
      | ok read => rfl
      | error e => split at executed <;> cases executed.1
    | checkName =>
      split at edits
      · cases edits; rfl
      · cases edits
    | misfired | admitted | create | createFailed => split at edits <;> cases edits
    | schedule | stamp | checkStored => exact copied copy edits
    | _ => cases edits
  · intro old job isPhase
    cases move with
    | silent _ => exact carries old job isPhase
    | schedule _ kept => cases isPhase; exact kept old rfl
    | stamp =>
      cases isPhase
      obtain ⟨same, fire⟩ := carries old _ rfl
      exact ⟨⟨same.1, same.2, same.3, same.4, same.5, same.6, same.7⟩, fire⟩
    | checkStored => exact carries old job isPhase
    | checkName => split at isPhase <;> cases isPhase
    | misfired | admitted | create | createFailed => split at isPhase <;> cases isPhase
    | _ => cases isPhase

theorem HandlerHolds.other {q : Nat} (holds : HandlerHolds p φ w) (ran : perform q oracle w op = some (r, w'))
    (apart : p ≠ q) : HandlerHolds p φ w' :=
  ⟨by rw [copyRead, track_other_call ran (Ne.symm apart)]; exact holds.copied, holds.carries⟩

/-- An upsert of `j` writes back the copy its handler read. -/
theorem HandlerHolds.put {job : Job} (holds : HandlerHolds p φ w) (move : Move host φ op r φ')
    (wrote : Wrote j op r (.put job)) (existing : UpsertsExisting j (.call p op r) w) :
    ∃ old, copyRead p w.log = some old ∧ CarriesOver job old := by
  obtain ⟨copy, rfl, -⟩ := move.of_put wrote
  have read := holds.copied copy rfl
  cases wrote with
  | put same =>
    have isSome := existing.2 p rfl job rfl same
    rw [read] at isSome
    obtain ⟨old, rfl⟩ := Option.isSome_iff_exists.mp isSome
    exact ⟨old, read, holds.carries old job rfl⟩

/-- One call keeps the owned fields if and only if an upsert finds them as they were read. -/
theorem OwnedAlike.step (alike : OwnedAlike (w.job j) (merged j s w.log)) (holds : HandlerHolds p φ w)
    (move : Move host φ op r φ') (ran : perform p oracle w op = some (r, w'))
    (existing : UpsertsExisting j (.call p op r) w) :
    OwnedAlike (w'.job j) (merged j s w'.log) ↔
      ∀ write ∈ jobWrite j op r, StillAsRead (copyRead p w.log) (w.job j) write := by
  have step := perform_job ran j
  have put := fun job (wrote : Wrote j op r (.put job)) => holds.put move wrote existing
  have key : ∀ row, w.job j = some row → row.jobId = j := fun row stored => Collections.Table.key_of_lookup stored
  rw [(perform_cases ran).2]
  simp only [merged]
  generalize w.job j = before at alike step key ⊢
  generalize w'.job j = after at step ⊢
  generalize change : jobWrite j op r = write at step ⊢
  cases step with
  | same => exact ⟨fun _ _ none_ => (by cases none_), fun _ => alike⟩
  | drop =>
    refine ⟨?_, fun _ => rfl⟩
    rintro - write ⟨⟩
    trivial
  | put same =>
    rename_i job
    obtain ⟨old, read, carries⟩ := put job (jobWrite_wrote change)
    have all : (∀ write ∈ some (JobWrite.put job), StillAsRead (copyRead p w.log) before write) ↔
        StillAsRead (copyRead p w.log) before (.put job) :=
      ⟨fun every => every _ rfl, fun one write isPut => by cases isPut; exact one⟩
    rw [all, read]
    cases before with
    | none =>
      obtain none_ : merged j s w.log = none := by simpa [OwnedAlike, eq_comm] using alike
      rw [none_]
      exact ⟨fun _ _ _ _ none_ => (by cases none_), fun _ => rfl⟩
    | some row =>
      obtain ⟨m, isMerged, same_⟩ : ∃ m, merged j s w.log = some m ∧ m.owned = row.owned := by
        simpa [OwnedAlike, eq_comm] using alike
      rw [isMerged]
      simp only [JobWrite.onMerged, OwnedAlike, Option.map_some, Option.some.injEq, Job.over_congr same_]
      rw [Job.owned_over_iff carries ((key row rfl).trans same.symm)]
      exact ⟨fun both => by rintro _ ⟨⟩ _ ⟨⟩; exact both, fun still => still old rfl row rfl⟩
  | write stamp allowed =>
    rename_i write row
    obtain ⟨m, isMerged, same_⟩ : ∃ m, merged j s w.log = some m ∧ m.owned = row.owned := by
      simpa [OwnedAlike, eq_comm] using alike
    rw [isMerged]
    refine ⟨?_, fun _ => ?_⟩
    · rintro - write' ⟨⟩
      cases write <;> trivial
    · have kept := JobWrite.owned_onRow same_.symm allowed stamp 0
      cases write <;> first | exact congrArg some kept | exact allowed.elim

/-- The job was completed in the history, and still is. -/
def StaysCompleted (j : String) (w : World) : Prop :=
  w.log.any (completes j) = true → ∃ row, w.job j = some row ∧ row.runOnceCompletedAt ≠ none

theorem completes_wrote (completed : completes j ⟨p, w.state, op, r⟩ = true) :
    ∃ at', jobWrite j op r = some (.complete at') := by
  unfold completes at completed
  split at completed
  · rename_i jobId at' isMark
    cases isMark
    exact ⟨at', by simp [jobWrite, StoreCall.writesTo, StoreCall.jobWrite, beq_iff_eq.mp completed]⟩
  · cases completed

/-- Only an upsert could reopen a completed job, and one that finds it as read does not. -/
theorem StaysCompleted.step (stays : StaysCompleted j w) (holds : HandlerHolds p φ w) (move : Move host φ op r φ')
    (ran : perform p oracle w op = some (r, w')) (existing : UpsertsExisting j (.call p op r) w)
    (kept : NotDeleted j (.call p op r))
    (current : ∀ write ∈ jobWrite j op r, StillAsRead (copyRead p w.log) (w.job j) write) : StaysCompleted j w' := by
  intro completed
  rw [(perform_cases ran).2, List.any_cons, Bool.or_eq_true] at completed
  have step := perform_job ran j
  have put := fun job (wrote : Wrote j op r (.put job)) => holds.put move wrote existing
  have before : (∃ at', jobWrite j op r = some (.complete at')) ∨
      ∃ row, w.job j = some row ∧ row.runOnceCompletedAt ≠ none :=
    completed.imp completes_wrote stays
  generalize w.job j = stored at step before current
  generalize w'.job j = after at step ⊢
  generalize change : jobWrite j op r = write at step before current
  cases step with
  | same =>
    obtain ⟨_, none_⟩ | still := before
    · cases none_
    · exact still
  | drop =>
    cases jobWrite_wrote change
    exact absurd rfl kept
  | put same =>
    rename_i job
    obtain ⟨_, isPut⟩ | ⟨row, rfl, isCompleted⟩ := before
    · cases isPut
    · obtain ⟨old, read, carries⟩ := put job (jobWrite_wrote change)
      have asRead := (current _ rfl old read row rfl).1.runOnceCompletedAt
      exact ⟨job, rfl, carries.1.runOnceCompletedAt ▸ asRead ▸ isCompleted⟩
  | write stamp allowed =>
    rename_i write row
    refine ⟨_, rfl, ?_⟩
    have still : (∃ at', some write = some (JobWrite.complete at')) ∨ row.runOnceCompletedAt ≠ none := by
      rcases before with complete | ⟨_, ⟨⟩, isCompleted⟩
      · exact .inl complete
      · exact .inr isCompleted
    cases write with
    | complete at' => simp [JobWrite.onRow]
    | put job => exact allowed.elim
    | drop => exact allowed.elim
    | releaseOnce claimedBy =>
      rcases still with ⟨_, ⟨⟩⟩ | isCompleted
      simp only [JobWrite.onRow]
      split <;> exact isCompleted
    | _ =>
      rcases still with ⟨_, ⟨⟩⟩ | isCompleted
      exact isCompleted

/-- A completed run-once job is not due. -/
theorem StaysCompleted.notDue (stays : StaysCompleted j w) (ran : perform p oracle w op = some (r, w'))
    (before : NotDueAgain j w.log) : NotDueAgain j w'.log := by
  rw [(perform_cases ran).2]
  refine ⟨fun completed listed row stored once => ?_, before⟩
  obtain ⟨row₁, owned, dueUntil, stored₁, due⟩ := perform_due ran listed
  obtain ⟨row₂, stored₂, isCompleted⟩ := stays completed
  have stored : w.job j = some row := stored
  rw [stored] at stored₁ stored₂
  cases stored₁
  cases stored₂
  have due := Store.scheduleDue_of_isDue due
  simp only [Store.scheduleDue, once, bne_self_eq_false, Bool.false_or, Bool.and_eq_true,
    Option.isNone_iff_eq_none] at due
  exact isCompleted due.2

end Step

/-- What every reachable world satisfies. -/
structure OwnedInv (j : String) (s : State) (w : World) : Prop where
  exact_ : OwnedThroughout j s w ↔ HandlersCurrent j w.log
  completed : HandlersCurrent j w.log → StaysCompleted j w ∧ NotDueAgain j w.log

theorem OwnedInv.step {host : Host} {j : String} {s : State} {p : Nat} {oracle : Oracle} {w w' : World} {φ φ' : Phase}
    {op : Op} {r : Ans op} (inv : OwnedInv j s w) (holds : HandlerHolds p φ w) (move : Move host φ op r φ')
    (ran : perform p oracle w op = some (r, w')) (existing : UpsertsExisting j (.call p op r) w)
    (kept : NotDeleted j (.call p op r)) : OwnedInv j s w' := by
  have log := (perform_cases ran).2
  have whole : OwnedThroughout j s w' ↔ OwnedAlike (w'.job j) (merged j s w'.log) ∧ OwnedThroughout j s w := by
    rw [OwnedThroughout, log]
    rfl
  have handlers : HandlersCurrent j w'.log ↔
      (∀ write ∈ jobWrite j op r, StillAsRead (copyRead p w.log) (w.job j) write) ∧ HandlersCurrent j w.log := by
    rw [log]
    rfl
  constructor
  · rw [whole, handlers, inv.exact_]
    exact and_congr_left fun before => (inv.exact_.mpr before).1.step holds move ran existing
  · intro current
    obtain ⟨still, before⟩ := handlers.mp current
    obtain ⟨stays, notDue⟩ := inv.completed before
    exact ⟨stays.step holds move ran existing kept still, stays.notDue ran notDue⟩

/-- The rules behind owned fields. -/
def ownedRules (host : Host) (j : String) (s : State) :
    Rules (system host) (protocol host) fun l w _ => NotDeleted j l ∧ UpsertsExisting j l w where
  inv := OwnedInv j s
  guar q w w' := ∃ oracle op r, perform q oracle w op = some (r, w')
  idle _ _ := True
  holds := HandlerHolds
  start := by
    intro p proc w _ _ allowed
    cases proc with
    | upsert job => cases allowed.2.1
    | _ => exact ⟨fun _ none_ => (by cases none_), fun _ _ none_ => (by cases none_)⟩
  finish _ _ _ := trivial
  own inv holds move ran allowed :=
    ⟨inv.step holds move ran allowed.2 allowed.1, ⟨_, _, _, ran⟩, holds.own move ran⟩
  other apart _ _ := fun ⟨_, _, _, ran⟩ holds => holds.other ran apart
  otherIdle _ _ _ _ _ := trivial
  drift := by
    intro e w w' inv drifts _
    obtain ⟨-, jobs, -, log⟩ := drift_cases drifts
    refine ⟨⟨?_, ?_⟩, fun p φ holds => ⟨by rw [log]; exact holds.copied, holds.carries⟩, fun _ _ => trivial⟩
    · simp only [OwnedThroughout, jobs, log]
      exact inv.exact_
    · simp only [StaysCompleted, jobs, log]
      exact inv.completed

/-- **When HTTP upserts leave the coordinators' fields alone.** In every run of any tasks besides direct
service upserts, they are never rolled back if and only if every handler finds them as it read them; then a
completed run-once job is never due again. -/
theorem upsert_keeps_owned_iff (host : Host) (j : String) {s : State} {c : SystemConfig}
    (reach : (system host).Reach (fun l w _ => NotDeleted j l ∧ UpsertsExisting j l w) (.idle (.fresh s)) c) :
    (OwnedThroughout j s c.world ↔ HandlersCurrent j c.world.log) ∧
      (HandlersCurrent j c.world.log → NotDueAgain j c.world.log) := by
  have start : OwnedInv j s (.fresh s) :=
    ⟨⟨fun _ => trivial, fun _ => ⟨rfl, trivial⟩⟩, fun _ => ⟨fun completed => (by cases completed), trivial⟩⟩
  have inv := ((ownedRules host j s).sound (protocol_governs host)
    (Rules.Standing.initial (ownedRules host j s) start fun _ => trivial) reach).inv
  exact ⟨inv.exact_, fun current => (inv.completed current).2⟩

/-- A request that edits the run-once job but not its schedule. -/
def onceRequest : Axum.UpsertJobRequest :=
  { jobName := "import"
    scriptName := "noop"
    cronExpr := none
    timezone := none
    scheduleKind := .runOnce
    params := .null
    enabled := true
    concurrency := 1
    timeoutMs := none
    actorJson := none
    retryPolicy := none
    misfirePolicy := none
    pool := none }

/-- A handler from the row it read to its write. -/
def finishUpsert (p : Nat) (revisionId : String) : List SystemChoice := calls p 2 ++ draw p revisionId ++ calls p 3

/-- The job is enqueued, then edited, then due jobs are listed again. -/
theorem upsert_keeps_owned_iff_after :
    ∃ c, (system .simple).Reach (fun l w _ => NotDeleted "j" l ∧ UpsertsExisting "j" l w)
        (.idle (.fresh (.single dueOnceJob (seconds 1000)))) c ∧
      (c.world.log.any (completes "j") && (c.world.job "j").any (·.concurrency == 1)) = true ∧
      OwnedThroughout "j" (.single dueOnceJob (seconds 1000)) c.world ∧ NotDueAgain "j" c.world.log := by
  obtain ⟨c, reach, holds⟩ := exists_run .simple (fun l w _ => NotDeleted "j" l ∧ UpsertsExisting "j" l w)
    (.single dueOnceJob (seconds 1000))
    (startTick 0 "a" false ++ claimNext 0 "u0" ++ enqueueOnce 0 "r0" ++ [.start 1 (.httpUpsert onceRequest)] ++
      calls 1 1 ++ finishUpsert 1 "v0" ++ startTick 0 "a" false)
    (fun c => c.world.log.any (completes "j") && (c.world.job "j").any (·.concurrency == 1) &&
      decide (HandlersCurrent "j" c.world.log)) (by decide +kernel)
  obtain ⟨holds, current⟩ := (Bool.and_eq_true _ _).mp holds
  have kept := upsert_keeps_owned_iff .simple "j" reach
  exact ⟨c, reach, holds, kept.1.mpr (of_decide_eq_true current), kept.2 (of_decide_eq_true current)⟩

/-- A handler reads the job before its run is enqueued and writes its copy back afterwards: the completion is
gone, and the next due query lists the job again. -/
theorem upsert_rolls_back :
    ∃ c, (system .simple).Reach (fun l w _ => NotDeleted "j" l ∧ UpsertsExisting "j" l w)
        (.idle (.fresh (.single dueOnceJob (seconds 1000)))) c ∧
      ¬ OwnedThroughout "j" (.single dueOnceJob (seconds 1000)) c.world ∧ ¬ NotDueAgain "j" c.world.log := by
  obtain ⟨c, reach, lost⟩ := exists_run .simple (fun l w _ => NotDeleted "j" l ∧ UpsertsExisting "j" l w)
    (.single dueOnceJob (seconds 1000))
    ([.start 1 (.httpUpsert onceRequest)] ++ calls 1 1 ++ startTick 0 "a" false ++ claimNext 0 "u0" ++
      enqueueOnce 0 "r0" ++ finishUpsert 1 "v0" ++ startTick 0 "a" false)
    (fun c => decide (¬ OwnedAlike (c.world.job "j") (merged "j" (.single dueOnceJob (seconds 1000)) c.world.log) ∧
      ¬ NotDueAgain "j" c.world.log)) (by decide +kernel)
  have lost := of_decide_eq_true lost
  exact ⟨c, reach, fun kept => lost.1 kept.1, lost.2⟩

end Chronon
