import Chronon.System.Alone
import Chronon.System.Protocol

/-!
# What one coordinator does to one due job

`enqueue_due_job` run to its end while nobody else touches the store and no call
fails. `enqueueDueJob_outcome` lists all it can do: leave an unclaimable row
alone, give the claim back, skip the fire time, or create a run. What a whole
tick keeps follows from what each of its jobs keeps (`runOneTick_keeps`).
-/

namespace Chronon
set_option autoImplicit false

/-- `claim_job_for_tick` takes the row at `now`. -/
def tickFree (now : DateTime) (row : Job) : Bool := row.enabled && !row.claimLeaseUntil.any (· ≥ now)

/-- `try_claim_run_once` refuses the row. -/
def onceTaken (instanceId : String) (now : DateTime) (row : Job) : Bool :=
  row.runOnceCompletedAt.isSome ||
    (row.runOnceClaimedAt.isSome && row.runOnceClaimExpiresAt.any (· > now) && row.runOnceClaimedBy != some instanceId)

/-- The active runs of a job as `count_active_runs` counts them. -/
def countedActive (s : Store) (jobId : String) : Int := activeCount (s.listRunsForJob jobId 10000)

/-- The misfire gate lets the fire time pass. -/
def passesGate (now : DateTime) (row : Job) : Bool :=
  shouldEnqueueForMisfire (row.nextRunAt.getD now) now row.misfirePolicy

/-- The job is at its limit, or a run-once job that somebody else has. -/
def heldBack (instanceId : String) (s : Store) (now : DateTime) (row : Job) : Bool :=
  decide (row.concurrency ≤ countedActive s row.jobId) ||
    (passesGate now row && decide (row.scheduleKind = .runOnce) && onceTaken instanceId now row)

/-- The row after its tick claim is given back. -/
def givenBack (row : Job) (stamp : DateTime) : Job :=
  { row with claimLeaseId := none, claimLeaseUntil := none, updatedAt := stamp }

/-- A run-once row after `mark_run_once_completed`; other rows stay. -/
def completedOnce (row : Job) (completedAt : DateTime) : Job :=
  if row.scheduleKind = .runOnce then
    { row with
      runOnceCompletedAt := some completedAt
      runOnceClaimedAt := none
      runOnceClaimedBy := none
      runOnceClaimExpiresAt := none }
  else row

/-- The row after its fire time is taken care of. -/
def fired (host : Host) (row : Job) (now completedAt stamp : DateTime) : Job :=
  { completedOnce row completedAt with
    nextRunAt := postTickNextRunAt host row now
    claimLeaseId := none
    claimLeaseUntil := none
    updatedAt := stamp }

/-- What `enqueue_due_job` does. -/
inductive Enqueued (host : Host) (instanceId jobId : String) (w w' : World) : Prop
  | unclaimed : (∀ row, w.job jobId = some row → tickFree w.clock row = false) → w'.store = w.store →
      Enqueued host instanceId jobId w w'
  | gaveBack (row : Job) (stamp : DateTime) : w.job jobId = some row → tickFree w.clock row = true →
      heldBack instanceId w.store w.clock row = true → w'.store = w.store.setJob (givenBack row stamp) →
      Enqueued host instanceId jobId w w'
  | skipped (row : Job) (completedAt stamp : DateTime) : w.job jobId = some row → tickFree w.clock row = true →
      heldBack instanceId w.store w.clock row = false → passesGate w.clock row = false →
      w'.store = w.store.setJob (fired host row w.clock completedAt stamp) → Enqueued host instanceId jobId w w'
  | created (row : Job) (completedAt stamp : DateTime) (runId : String) : w.job jobId = some row →
      tickFree w.clock row = true → heldBack instanceId w.store w.clock row = false → passesGate w.clock row = true →
      w.run runId = none →
      w'.store = (w.store.setJob (fired host row w.clock completedAt stamp)).setRun
        (tickRun row runId (row.nextRunAt.getD w.clock)) → Enqueued host instanceId jobId w w'

/-! ## What happens to the rows -/

section Rows

variable {host : Host} {instanceId jobId : String} {w w' : World}

theorem Store.lookup_setJob_of {s : Store} {row row' : Job} {id : String} (stored : s.jobs.lookup id = some row)
    (same : row'.jobId = row.jobId) (j : String) :
    (s.setJob row').jobs.lookup j = if id = j then some row' else s.jobs.lookup j := by
  rw [Store.lookup_setJob, same, Collections.Table.key_of_lookup stored]

theorem fired_jobId (host : Host) (row : Job) (now completedAt stamp : DateTime) :
    (fired host row now completedAt stamp).jobId = row.jobId := by
  simp only [fired, completedOnce]
  split <;> rfl

/-- The tick claim of a due row can be taken. -/
theorem tickFree_of_isDue {clock dueUntil : DateTime} {owned : List Nat} {row : Job}
    (due : Store.isDue clock owned dueUntil row = true) : tickFree clock row = true := by
  simp only [Store.isDue, Store.scheduleDue, Bool.and_eq_true] at due
  obtain ⟨⟨⟨⟨⟨enabled, -⟩, -⟩, -⟩, -⟩, expired⟩ := due
  rw [tickFree, enabled, Bool.true_and]
  cases lease : row.claimLeaseUntil with
  | none => rfl
  | some expiry =>
    rw [lease, Option.all_some, decide_eq_true_eq] at expired
    simpa using expired

/-- The jobs stay, or the one row is given back or fired. -/
theorem Enqueued.jobs (enqueued : Enqueued host instanceId jobId w w') :
    (∀ j, w'.job j = w.job j) ∨ ∃ row row', w.job jobId = some row ∧
      (∀ j, w'.job j = if jobId = j then some row' else w.job j) ∧
        ((∃ stamp, row' = givenBack row stamp) ∨ ∃ completedAt stamp, row' = fired host row w.clock completedAt stamp) := by
  cases enqueued with
  | unclaimed _ after => exact .inl fun j => World.job_congr after j
  | gaveBack row stamp stored _ _ after =>
    have kept : (givenBack row stamp).jobId = row.jobId := rfl
    refine .inr ⟨row, _, stored, fun j => ?_, .inl ⟨stamp, rfl⟩⟩
    rw [World.job, after]
    exact Store.lookup_setJob_of stored kept j
  | skipped row completedAt stamp stored _ _ _ after =>
    refine .inr ⟨row, _, stored, fun j => ?_, .inr ⟨completedAt, stamp, rfl⟩⟩
    rw [World.job, after]
    exact Store.lookup_setJob_of stored (fired_jobId _ _ _ _ _) j
  | created row completedAt stamp runId stored _ _ _ _ after =>
    refine .inr ⟨row, _, stored, fun j => ?_, .inr ⟨completedAt, stamp, rfl⟩⟩
    rw [World.job, after]
    exact Store.lookup_setJob_of stored (fired_jobId _ _ _ _ _) j

/-- The runs stay, or one run of the job is created. -/
theorem Enqueued.runs (enqueued : Enqueued host instanceId jobId w w') :
    (∀ id, w'.run id = w.run id) ∨ ∃ row runId scheduledFor, w.job jobId = some row ∧ w.run runId = none ∧
      ∀ id, w'.run id = if runId = id then some (tickRun row runId scheduledFor) else w.run id := by
  cases enqueued with
  | unclaimed _ after => exact .inl fun id => World.run_congr after id
  | gaveBack row stamp _ _ _ after =>
    refine .inl fun id => ?_
    rw [World.run, after]
    rfl
  | skipped row completedAt stamp _ _ _ _ after =>
    refine .inl fun id => ?_
    rw [World.run, after]
    rfl
  | created row completedAt stamp runId stored _ _ _ fresh after =>
    refine .inr ⟨row, runId, row.nextRunAt.getD w.clock, stored, fresh, fun id => ?_⟩
    rw [World.run, after, Store.lookup_setRun]
    rfl

end Rows

/-! ## The calls -/

section Calls

variable {around : Surroundings} {w w' : World} {id : String} {row : Job} {base : Store}

theorem Store.setJob_setJob (s : Store) {a b : Job} (same : a.jobId = b.jobId) : (s.setJob a).setJob b = s.setJob b := by
  simp only [Store.setJob, Collections.Table.insert_insert same]

theorem World.job_setJob (store : w.store = base.setJob row) : w.job row.jobId = some row := by
  rw [World.job, store, Store.lookup_setJob, if_pos rfl]

/-- A call that changes in place the row stored last. -/
theorem Alone.mutate {c : StoreCall} {r : Result c.Ret} {f : Job → Job} {stamp : DateTime}
    (calls : Alone around w (.store c) r w') (accepted : around.refuses c = none) (store : w.store = base.setJob row)
    (isRow : row.jobId = id) (isCall : (c.exec w.clock w.store).2 = (w.store.mutateJobAt id stamp f).2)
    (keeps : (f row).jobId = row.jobId) : w'.store = base.setJob { f row with updatedAt := stamp } := by
  have ran := congrArg Prod.snd (calls.exec accepted)
  have stored : w.store.jobs.lookup id = some row := by rw [← isRow]; exact World.job_setJob store
  rw [isCall] at ran
  simp only [Store.mutateJobAt, stored] at ran
  rw [← ran, store]
  exact Store.setJob_setJob base keeps.symm

theorem Alone.releaseTick {r : Result Unit} (calls : Alone around w (.store (.releaseJobTickClaim id)) r w')
    (accepted : around.refuses (.releaseJobTickClaim id) = none) (store : w.store = base.setJob row)
    (isRow : row.jobId = id) :
    w'.store = base.setJob (givenBack row w.clock) := calls.mutate accepted store isRow rfl rfl

theorem Alone.persist {next : Option DateTime} {r : Result Unit}
    (calls : Alone around w (.store (.persistPostTickJobState id next)) r w')
    (accepted : around.refuses (.persistPostTickJobState id next) = none) (store : w.store = base.setJob row)
    (isRow : row.jobId = id) :
    w'.store = base.setJob
      { row with nextRunAt := next, claimLeaseId := none, claimLeaseUntil := none, updatedAt := w.clock } :=
  calls.mutate accepted store isRow rfl rfl

theorem Alone.markCompleted {completedAt : DateTime} {r : Result Unit}
    (calls : Alone around w (.store (.markRunOnceCompleted id completedAt)) r w')
    (accepted : around.refuses (.markRunOnceCompleted id completedAt) = none) (store : w.store = base.setJob row)
    (isRow : row.jobId = id) :
    w'.store = base.setJob { row with
      runOnceCompletedAt := some completedAt
      runOnceClaimedAt := none
      runOnceClaimedBy := none
      runOnceClaimExpiresAt := none
      updatedAt := w.clock } :=
  calls.mutate accepted store isRow rfl rfl

/-- The claim is taken exactly of a free row. -/
theorem Alone.claimTick {claimId : String} {now : DateTime} {ttl : Int} {r : Result Bool}
    (calls : Alone around w (.store (.claimJobForTick id claimId now ttl)) r w')
    (accepted : around.refuses (.claimJobForTick id claimId now ttl) = none) :
    (r = .ok false ∧ w'.store = w.store ∧ ∀ row, w.job id = some row → tickFree now row = false) ∨
      ∃ row, w.job id = some row ∧ tickFree now row = true ∧ r = .ok true ∧ w'.store = w.store.setJob { row with
        claimLeaseId := some claimId
        claimLeaseUntil := some (now + seconds ttl)
        updatedAt := now } := by
  have ran := calls.exec accepted
  simp only [StoreCall.exec, Store.claimJobForTick] at ran
  simp only [World.job, tickFree]
  cases stored : w.store.jobs.lookup id with
  | none =>
    simp only [stored, Prod.mk.injEq] at ran
    exact .inl ⟨ran.1.symm, ran.2.symm, by rintro row ⟨⟩⟩
  | some row =>
    simp only [stored] at ran
    split at ran
    · rename_i disabled
      simp only [Prod.mk.injEq] at ran
      refine .inl ⟨ran.1.symm, ran.2.symm, ?_⟩
      rintro _ ⟨⟩
      rw [Bool.not_eq_true'] at disabled
      rw [disabled, Bool.false_and]
    · rename_i enabled
      rw [Bool.not_eq_true', Bool.not_eq_false] at enabled
      split at ran
      · rename_i leased
        simp only [Prod.mk.injEq] at ran
        refine .inl ⟨ran.1.symm, ran.2.symm, ?_⟩
        rintro _ ⟨⟩
        rw [leased, Bool.not_true, Bool.and_false]
      · rename_i free
        simp only [Prod.mk.injEq] at ran
        refine .inr ⟨row, rfl, ?_, ran.1.symm, ran.2.symm⟩
        rw [Bool.not_eq_true] at free
        rw [enabled, free]
        rfl

/-- The run-once claim is taken exactly of a row that nobody else has. -/
theorem Alone.tryClaimOnce {claimedBy : String} {now : DateTime} {ttl : Int} {r : Result Bool}
    (calls : Alone around w (.store (.tryClaimRunOnce id claimedBy now ttl)) r w')
    (accepted : around.refuses (.tryClaimRunOnce id claimedBy now ttl) = none) (stored : w.job id = some row) :
    (r = .ok false ∧ w'.store = w.store ∧ onceTaken claimedBy now row = true) ∨
      (onceTaken claimedBy now row = false ∧ r = .ok true ∧ w'.store = w.store.setJob { row with
        runOnceClaimedAt := some now
        runOnceClaimedBy := some claimedBy
        runOnceClaimExpiresAt := some (now + seconds ttl)
        updatedAt := now }) := by
  have ran := calls.exec accepted
  simp only [StoreCall.exec, Store.tryClaimRunOnce, show w.store.jobs.lookup id = some row from stored] at ran
  simp only [onceTaken]
  split at ran
  · rename_i completed
    simp only [Prod.mk.injEq] at ran
    exact .inl ⟨ran.1.symm, ran.2.symm, by rw [completed, Bool.true_or]⟩
  · rename_i uncompleted
    split at ran
    · rename_i claimed
      simp only [Prod.mk.injEq] at ran
      exact .inl ⟨ran.1.symm, ran.2.symm, by rw [claimed, Bool.or_true]⟩
    · rename_i unclaimed
      simp only [Prod.mk.injEq] at ran
      rw [Bool.not_eq_true] at uncompleted unclaimed
      exact .inr ⟨by rw [uncompleted, unclaimed]; rfl, ran.1.symm, ran.2.symm⟩

theorem Alone.listRuns {limit : Nat} {r : Result (List Run)}
    (calls : Alone around w (.store (.listRunsForJob id limit)) r w')
    (accepted : around.refuses (.listRunsForJob id limit) = none) :
    r = w.store.listRunsForJob id limit ∧ w'.store = w.store := by
  have ran := calls.exec accepted
  simp only [StoreCall.exec, Prod.mk.injEq] at ran
  exact ⟨ran.1.symm, ran.2.symm⟩

end Calls

/-! ## The sequence -/

section Sequence

variable {around : Surroundings} {host : Host} {instanceId jobId : String} {w w' : World} {base : Store} {held : Job}
  {out : Option (Result Bool)} {now : DateTime}

theorem giveUp_outcome (accepts : ∀ c, around.refuses c = none) (store : w.store = base.setJob held)
    (ends : Ends around (giveUp held.jobId) w out w') : ∃ stamp, w'.store = base.setJob (givenBack held stamp) := by
  obtain ⟨r, w₁, releases, -, rfl⟩ := ends
  exact ⟨w.clock, releases.releaseTick (accepts _) store rfl⟩

/-- The claim itself is forgotten in the end. -/
theorem fired_claimed {row : Job} (claimLeaseId : Option String) (claimLeaseUntil : Option DateTime)
    (updatedAt now completedAt stamp : DateTime) :
    fired host { row with claimLeaseId, claimLeaseUntil, updatedAt } now completedAt stamp =
      fired host row now completedAt stamp := by
  simp only [fired, completedOnce]
  split <;> rfl

/-- Nor is the run-once claim of a completed job kept. -/
theorem fired_once {row : Job} (once : row.scheduleKind = .runOnce) {claimLeaseId claimedBy : Option String}
    {claimLeaseUntil claimedAt expiresAt : Option DateTime} {updatedAt now completedAt stamp : DateTime} :
    fired host { row with
      claimLeaseId
      claimLeaseUntil
      runOnceClaimedAt := claimedAt
      runOnceClaimedBy := claimedBy
      runOnceClaimExpiresAt := expiresAt
      updatedAt } now completedAt stamp = fired host row now completedAt stamp := by
  simp only [fired, completedOnce, postTickNextRunAt, once, if_true, reduceCtorEq, if_false]

theorem skipDueJob_outcome (accepts : ∀ c, around.refuses c = none) (store : w.store = base.setJob held)
    (ends : Ends around (skipDueJob host held held.jobId now) w out w') :
    ∃ completedAt stamp, w'.store = base.setJob (fired host held now completedAt stamp) := by
  unfold skipDueJob at ends
  by_cases once : held.scheduleKind = .runOnce
  · rw [if_pos once] at ends
    obtain ⟨r, w₁, marks, r₁, w₂, persists, r₂, w₃, releases, -, rfl⟩ := ends
    have marked := marks.markCompleted (accepts _) store rfl
    have persisted := persists.persist (accepts _) marked rfl
    have released := releases.releaseTick (accepts _) persisted rfl
    refine ⟨now, w₂.clock, ?_⟩
    rw [released, fired, completedOnce, if_pos once]
    rfl
  · rw [if_neg once] at ends
    obtain ⟨r₁, w₂, persists, r₂, w₃, releases, -, rfl⟩ := ends
    have persisted := persists.persist (accepts _) store rfl
    have released := releases.releaseTick (accepts _) persisted rfl
    refine ⟨now, w₂.clock, ?_⟩
    rw [released, fired, completedOnce, if_neg once]
    rfl

/-- The run is created, and the fire time of the stored row taken care of. -/
theorem createTickRun_outcome (job : Job) (accepts : ∀ c, around.refuses c = none) (store : w.store = base.setJob held)
    (isJob : held.jobId = jobId) (kind : held.scheduleKind = job.scheduleKind)
    (next : postTickNextRunAt host held now = postTickNextRunAt host job now)
    (ends : Ends around (createTickRun host instanceId jobId job now) w out w') :
    ∃ completedAt stamp runId, w.run runId = none ∧
      w'.store = (base.setJob (fired host held now completedAt stamp)).setRun
        (tickRun job runId (job.nextRunAt.getD now)) := by
  obtain ⟨runId, w₁, draws, r, w₂, creates, rest⟩ := ends
  obtain ⟨fresh, -, same⟩ := draws.newUuid
  obtain ⟨rfl, after⟩ := creates.createRun (accepts _)
  have stored : w₂.store = (base.setRun (tickRun job runId (job.nextRunAt.getD now))).setJob held := by
    rw [after, same, store]
    rfl
  by_cases once : job.scheduleKind = .runOnce
  · replace rest : Ends around (if job.scheduleKind = .runOnce then _ else _) w₂ out w' := rest
    rw [if_pos once] at rest
    obtain ⟨at', w₃, reads, r₃, w₄, marks, r₄, w₅, persists, -, rfl⟩ := rest
    have marked := marks.markCompleted (accepts _) (reads.utcNow.2.trans stored) isJob
    have persisted := persists.persist (accepts _) marked isJob
    refine ⟨at', w₄.clock, runId, fresh, ?_⟩
    rw [persisted, fired, completedOnce, if_pos (kind.trans once), next]
    rfl
  · replace rest : Ends around (if job.scheduleKind = .runOnce then _ else _) w₂ out w' := rest
    rw [if_neg once] at rest
    obtain ⟨r₄, w₅, persists, -, rfl⟩ := rest
    have persisted := persists.persist (accepts _) stored isJob
    refine ⟨now, w₂.clock, runId, fresh, ?_⟩
    rw [persisted, fired, completedOnce, if_neg (by rwa [kind]), next]
    rfl

/-- Once the claim is held and the active runs are counted. -/
theorem enqueueCounted_outcome {row : Job} {claimLeaseId : Option String} {claimLeaseUntil : Option DateTime}
    {updatedAt : DateTime} (accepts : ∀ c, around.refuses c = none) (s : Store)
    (isHeld : held = { row with claimLeaseId, claimLeaseUntil, updatedAt }) (store : w.store = s.setJob held)
    (ends : Ends around (enqueueCounted host instanceId row.jobId held now (countedActive s row.jobId)) w out w') :
    (heldBack instanceId s now row = true ∧ ∃ stamp, w'.store = s.setJob (givenBack row stamp)) ∨
      (heldBack instanceId s now row = false ∧ passesGate now row = false ∧
        ∃ completedAt stamp, w'.store = s.setJob (fired host row now completedAt stamp)) ∨
      (heldBack instanceId s now row = false ∧ passesGate now row = true ∧
        ∃ completedAt stamp runId, w.run runId = none ∧
          w'.store = (s.setJob (fired host row now completedAt stamp)).setRun
            (tickRun row runId (row.nextRunAt.getD now))) := by
  have gate : shouldEnqueueForMisfire (held.nextRunAt.getD now) now held.misfirePolicy = passesGate now row := by
    rw [isHeld]
    rfl
  have limit : held.concurrency = row.concurrency := by rw [isHeld]
  have kind : held.scheduleKind = row.scheduleKind := by rw [isHeld]
  have isJob : held.jobId = row.jobId := by rw [isHeld]
  have gaveUp (back : heldBack instanceId s now row = true) (gives : Ends around (giveUp row.jobId) w out w') :
      heldBack instanceId s now row = true ∧ ∃ stamp, w'.store = s.setJob (givenBack row stamp) := by
    rw [← isJob] at gives
    obtain ⟨stamp, after⟩ := giveUp_outcome accepts store gives
    exact ⟨back, stamp, by rw [after, isHeld]; rfl⟩
  unfold enqueueCounted at ends
  rw [gate, limit, kind] at ends
  by_cases atLimit : countedActive s row.jobId ≥ row.concurrency
  · rw [if_pos atLimit] at ends
    exact .inl (gaveUp (by simp [heldBack, atLimit]) ends)
  · rw [if_neg atLimit] at ends
    by_cases passes : passesGate now row = true
    · rw [passes, if_neg (by simp)] at ends
      by_cases once : row.scheduleKind = .runOnce
      · rw [if_pos once] at ends
        obtain ⟨r, w₁, claims, rest⟩ := ends
        have stored : w.job row.jobId = some held := by rw [← isJob]; exact World.job_setJob store
        have taken : onceTaken instanceId now held = onceTaken instanceId now row := by
          rw [isHeld]
          rfl
        rcases claims.tryClaimOnce (accepts _) stored with ⟨rfl, same, refused⟩ | ⟨free, rfl, after₁⟩
        · rw [taken] at refused
          obtain ⟨r₂, w₂, releases, -, rfl⟩ := rest
          have released := releases.releaseTick (accepts _) (same.trans store) isJob
          refine .inl ⟨by simp [heldBack, passes, once, refused], w₁.clock, ?_⟩
          rw [released, isHeld]
          rfl
        · rw [taken] at free
          rw [store, Store.setJob_setJob s (by rw [isHeld])] at after₁
          obtain ⟨completedAt, stamp, runId, fresh, after⟩ :=
            createTickRun_outcome held accepts after₁ isJob rfl rfl rest
          have fresh' : w.run runId = none := by
            rw [World.run, store]
            rw [World.run, after₁] at fresh
            exact fresh
          refine .inr (.inr ⟨by simp [heldBack, atLimit, free], passes, completedAt, stamp, runId, fresh', ?_⟩)
          rw [after, isHeld, fired_once once]
          rfl
      · rw [if_neg once] at ends
        obtain ⟨completedAt, stamp, runId, fresh, after⟩ :=
          createTickRun_outcome held accepts store isJob rfl rfl ends
        refine .inr (.inr ⟨by simp [heldBack, atLimit, once], passes, completedAt, stamp, runId, fresh, ?_⟩)
        rw [after, isHeld, fired_claimed]
        rfl
    · rw [Bool.not_eq_true] at passes
      rw [passes, if_pos (by simp)] at ends
      rw [← isJob] at ends
      obtain ⟨completedAt, stamp, after⟩ := skipDueJob_outcome accepts store ends
      refine .inr (.inl ⟨by simp [heldBack, atLimit, passes], passes, completedAt, stamp, ?_⟩)
      rw [after, isHeld, fired_claimed]

/-- **One due job**: what `enqueue_due_job` does when nobody interferes. -/
theorem enqueueDueJob_outcome (accepts : ∀ c, around.refuses c = none)
    (ends : Ends around (enqueueDueJob host instanceId jobId) w out w') : Enqueued host instanceId jobId w w' := by
  obtain ⟨now, w₁, reads, uuid, w₂, draws, r, w₃, claims, rest⟩ := ends
  obtain ⟨rfl, same₁⟩ := reads.utcNow
  have same₂ : w₂.store = w.store := draws.newUuid.2.2.trans same₁
  rcases claims.claimTick (accepts _) with ⟨rfl, same₃, busy⟩ | ⟨row, stored, free, rfl, after⟩
  · obtain ⟨-, rfl⟩ := rest
    refine .unclaimed (fun row stored => busy row ?_) (same₃.trans same₂)
    rw [World.job_congr same₂]
    exact stored
  · rw [World.job_congr same₂] at stored
    obtain rfl : row.jobId = jobId := Collections.Table.key_of_lookup stored
    generalize isHeld : { row with
      claimLeaseId := some (instanceId ++ ":" ++ uuid)
      claimLeaseUntil := some (w.clock + seconds (jobClaimLeaseTtlSecs host.env))
      updatedAt := w.clock } = held at after
    have isJob : held.jobId = row.jobId := by rw [← isHeld]
    rw [same₂] at after
    obtain ⟨found, w₄, gets, rest⟩ := rest
    obtain ⟨rfl, same₄⟩ := gets.getJob (accepts _)
    have read : w₃.job row.jobId = some held := by rw [← isJob]; exact World.job_setJob after
    rw [read] at rest
    obtain ⟨listing, w₅, lists, rest⟩ := rest
    obtain ⟨rfl, same₅⟩ := lists.listRuns (accepts _)
    have store : w₅.store = w.store.setJob held := by rw [same₅, same₄, after]
    have counted : countedActive w₄.store row.jobId = countedActive w.store row.jobId := by
      rw [same₄, after]
      rfl
    replace rest : Ends around (enqueueCounted host instanceId row.jobId held w.clock (countedActive w₄.store row.jobId))
      w₅ out w' := rest
    rw [counted] at rest
    rcases enqueueCounted_outcome accepts w.store isHeld.symm store rest with
      ⟨back, stamp, after'⟩ | ⟨forward, late, completedAt, stamp, after'⟩ |
        ⟨forward, passes, completedAt, stamp, runId, fresh, after'⟩
    · exact .gaveBack row stamp stored free back after'
    · exact .skipped row completedAt stamp stored free forward late after'
    · refine .created row completedAt stamp runId stored free forward passes ?_ after'
      rw [World.run, store] at fresh
      exact fresh

end Sequence

/-! ## The tick -/

section Tick

variable {around : Surroundings} {host : Host} {instanceId : String} {w w' : World} {start : DateTime} {I : Store → Prop}

/-- What each job of the due list keeps, the list keeps. -/
theorem enqueueAll_keeps (accepts : ∀ c, around.refuses c = none) (forward : ∀ s t, around.passes s t → s ≤ t)
    (one : ∀ w w' jobId, start ≤ w.clock → I w.store → Enqueued host instanceId jobId w w' → I w'.store)
    {ids : List String} {out : Option Nat} (ends : Ends around (enqueueAll host instanceId ids) w out w')
    (started : start ≤ w.clock) (holds : I w.store) : I w'.store ∧ start ≤ w'.clock := by
  induction ids generalizing w out with
  | nil =>
    obtain ⟨-, rfl⟩ := ends
    exact ⟨holds, started⟩
  | cons jobId rest ih =>
    rcases Ends.bind ends with ⟨panics, -⟩ | ⟨r, w₁, first, ends⟩
    · exact ⟨one w w' jobId started holds (enqueueDueJob_outcome accepts panics), le_trans started (panics.later forward)⟩
    · have kept := one w w₁ jobId started holds (enqueueDueJob_outcome accepts first)
      have later := le_trans started (first.later forward)
      rcases Ends.bind ends with ⟨panics, -⟩ | ⟨n, w₂, others, -, rfl⟩
      · exact ih panics later kept
      · exact ih others later kept

/-- **One tick** keeps what each job it handles keeps. -/
theorem runOneTick_keeps {draining : Bool} {out : Option (TickResult × Bool)} (accepts : ∀ c, around.refuses c = none)
    (forward : ∀ s t, around.passes s t → s ≤ t)
    (one : ∀ w w' jobId, start ≤ w.clock → I w.store → Enqueued host instanceId jobId w w' → I w'.store)
    (ends : Ends around (runOneTick host instanceId draining) w out w') (started : start ≤ w.clock) (holds : I w.store) :
    I w'.store := by
  have quiet {op : Op} {r : Ans op} {w w' : World} (calls : Alone around w op r w') (other : ∀ c, op ≠ .store c)
      (holds : I w.store) : I w'.store := by
    rw [calls.other other]
    exact holds
  unfold runOneTick at ends
  split at ends
  · obtain ⟨r, w₁, sleeps, -, rfl⟩ := ends
    exact quiet sleeps (by rintro c ⟨⟩) holds
  · obtain ⟨owned, w₁, owns, ends⟩ := ends
    have holds₁ := quiet owns (by rintro c ⟨⟩) holds
    replace ends : Ends around (if owned.isEmpty = true then _ else _) w₁ out w' := ends
    split at ends
    · obtain ⟨r, w₂, sleeps, -, rfl⟩ := ends
      exact quiet sleeps (by rintro c ⟨⟩) holds₁
    · obtain ⟨now, w₂, reads, listing, w₃, lists, ends⟩ := ends
      have holds₃ : I w₃.store := by
        rw [lists.reads rfl, reads.utcNow.2]
        exact holds₁
      cases listing with
      | error e =>
        obtain ⟨r, w₄, sleeps, -, rfl⟩ := ends
        exact quiet sleeps (by rintro c ⟨⟩) holds₃
      | ok ids =>
        obtain ⟨next, w₄, nexts, ends⟩ := ends
        have holds₄ : I w₄.store := by
          rw [nexts.reads rfl]
          exact holds₃
        replace ends : Ends around (if ids.isEmpty = true then _ else _) w₄ out w' := ends
        split at ends
        · obtain ⟨r, w₅, sleeps, -, rfl⟩ := ends
          exact quiet sleeps (by rintro c ⟨⟩) holds₄
        · have started₄ : start ≤ w₄.clock := by
            calc start ≤ w.clock := started
              _ ≤ w₁.clock := forward _ _ owns.passes
              _ ≤ w₂.clock := forward _ _ reads.passes
              _ ≤ w₃.clock := forward _ _ lists.passes
              _ ≤ w₄.clock := forward _ _ nexts.passes
          rcases Ends.bind ends with ⟨panics, -⟩ | ⟨n, w₅, all, ends⟩
          · exact (enqueueAll_keeps accepts forward one panics started₄ holds₄).1
          · have holds₅ := (enqueueAll_keeps accepts forward one all started₄ holds₄).1
            split at ends
            · obtain ⟨r, w₆, yields, -, rfl⟩ := ends
              exact quiet yields (by rintro c ⟨⟩) holds₅
            · obtain ⟨r, w₆, sleeps, -, rfl⟩ := ends
              exact quiet sleeps (by rintro c ⟨⟩) holds₅

end Tick

end Chronon
