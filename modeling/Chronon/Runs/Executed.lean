import Chronon.Runs.Waiting
import Chronon.Runs.Work
import Chronon.Tick.Starvation

/-!
# From due to executed

Where no call fails and nobody else changes the store, ticks create a run of a due job
and slots of its pool execute it: each pass of a slot that takes another run takes one
in front of it, and what it stores afterwards is not in front.
-/

namespace Chronon
set_option autoImplicit false

open Concurrent Collections

/-- Passes of slots of one pool, one after the other. -/
inductive Passes (host : Host) (pool : String) : Nat → World → World → Prop
  | none {w : World} : Passes host pool 0 w w
  | pass {n : Nat} {workerId : String} {out : Option Unit} {w w₁ w' : World} :
      Ends .calm (workerSlot host pool workerId) w out w₁ → Passes host pool n w₁ w' → Passes host pool (n + 1) w w'

/-- Between two worlds, the run has been executed. -/
def ExecutedSince (w w' : World) (run : Run) : Prop :=
  ∃ e ∈ w.entriesSince w', ∃ request, executed e = some request ∧ request.runId = run.runId ∧ request.Uses run

/-- A task that leaves job `j` and run `id` alone, and puts no run in front of it. -/
def Defers (poolId id j : String) (t : DateTime) : Task Unit → Prop
  | .ret _ => True
  | .call .utcNow k => ∀ now, t < now → Defers poolId id j t (k now)
  | .call .newUuid k => ∀ new, new ≠ id → Defers poolId id j t (k new)
  | .call op k =>
    (∀ p state r, joins poolId t ⟨p, state, op, r⟩ = []) ∧ (∀ r, runWrite id op r = none) ∧ (∀ r, jobWrite j op r = none) ∧
      ∀ r, Defers poolId id j t (k r)

/-! ## One call -/

section Call

variable {poolId id j : String} {t : DateTime} {w w' w'' : World} {op : Op} {r : Ans op} {row : Run}

/-- A call of a task that runs alone, as a call among others. -/
theorem Alone.performed (calls : Alone .calm w op r w') :
    ∃ oracle v, perform 0 oracle w op = some (r, v) ∧ v.store = w'.store ∧ w.clock ≤ w'.clock := by
  obtain ⟨state, clock, answered, later, rfl⟩ := calls
  cases op with
  | store c =>
    obtain ⟨ran, isState⟩ := answered
    have answers : answer .quiet w (.store c) = some (r, state) := by
      rw [answer, ran]
      exact congrArg (fun state => some (r, state)) isState.symm
    exact ⟨.quiet, ⟨state, ⟨0, w.state, .store c, r⟩ :: w.log⟩, by rw [perform, answers], rfl, later⟩
  | _ =>
    obtain ⟨oracle, answered⟩ := answered
    exact ⟨oracle, ⟨state, _⟩, by rw [perform, answered], rfl, later⟩

theorem ahead_congr (same : ∀ id, w'.run id = w.run id) : ahead poolId t id w' = ahead poolId t id w := by
  ext other
  rw [mem_ahead, mem_ahead, same]

/-- What is kept by a call that defers. -/
structure Deferred (poolId id j : String) (t : DateTime) (row : Run) (w w' : World) : Prop where
  stored : w'.run id = some row
  job : w'.job j = w.job j
  later : t < w'.clock
  front : ahead poolId t id w' ⊆ ahead poolId t id w

theorem Deferred.trans (first : Deferred poolId id j t row w w') (rest : Deferred poolId id j t row w' w'') :
    Deferred poolId id j t row w w'' :=
  ⟨rest.stored, rest.job.trans first.job, rest.later, rest.front.trans first.front⟩

theorem Alone.deferred (calls : Alone .calm w op r w') (stored : w.run id = some row) (late : t < w.clock)
    (joinsNone : ∀ p state r, joins poolId t ⟨p, state, op, r⟩ = []) (runSame : ∀ r, runWrite id op r = none)
    (jobSame : ∀ r, jobWrite j op r = none) : Deferred poolId id j t row w w' := by
  obtain ⟨oracle, v, ran, same, later⟩ := calls.performed
  have runs : v.run = w'.run := by
    funext id
    rw [World.run, World.run, same]
  refine ⟨?_, ?_, lt_of_lt_of_le late later, ?_⟩
  · have step := perform_run ran id
    rw [runSame r, stored] at step
    rw [← runs]
    generalize v.run id = after at step
    cases step
    rfl
  · rw [World.job, ← same]
    exact perform_job_same ran (jobSame r)
  · rw [← ahead_congr fun other => congrFun runs other]
    intro other inside
    refine (joined ran inside).resolve_right ?_
    rw [joinsNone]
    exact List.not_mem_nil

/-- A task that defers. -/
theorem Defers.ends {m : Task Unit} {out : Option Unit} (defers : Defers poolId id j t m) (ends : Ends .calm m w out w')
    (stored : w.run id = some row) (late : t < w.clock) : Deferred poolId id j t row w w' := by
  induction m generalizing w with
  | ret _ =>
    obtain ⟨-, rfl⟩ := ends
    exact ⟨stored, rfl, late, Finset.Subset.refl _⟩
  | call op k ih =>
    have go {r : Ans op} {v : World} (calls : Alone .calm w op r v) (ends : Ends .calm (k r) v out w')
        (defers : Defers poolId id j t (k r)) (joinsNone : ∀ p state r, joins poolId t ⟨p, state, op, r⟩ = [])
        (runSame : ∀ r, runWrite id op r = none) (jobSame : ∀ r, jobWrite j op r = none) :
        Deferred poolId id j t row w w' := by
      have first := calls.deferred stored late joinsNone runSame jobSame
      exact first.trans (ih r defers ends first.stored first.later)
    cases op with
    | panic =>
      obtain ⟨-, rfl⟩ := ends
      exact ⟨stored, rfl, late, Finset.Subset.refl _⟩
    | utcNow =>
      obtain ⟨now, v, calls, ends⟩ := ends
      refine go calls ends (defers now ?_) (fun _ _ _ => rfl) (fun _ => rfl) fun _ => rfl
      rw [calls.utcNow.1]
      exact late
    | newUuid =>
      obtain ⟨new, v, calls, ends⟩ := ends
      refine go calls ends (defers new ?_) (fun _ _ _ => rfl) (fun _ => rfl) fun _ => rfl
      rintro rfl
      rw [calls.newUuid.1] at stored
      cases stored
    | _ =>
      obtain ⟨r, v, calls, ends⟩ := ends
      exact go calls ends (defers.2.2.2 r) defers.1 defers.2.1 defers.2.2.1

end Call

/-! ## What a slot does after its claim -/

section Slot

variable {poolId id j : String} {t : DateTime} {w w' : World} {row run : Run} {job : Job} {out : Option Unit}

theorem Defers.now {k : DateTime → Task Unit} (rest : ∀ now, t < now → Defers poolId id j t (k now)) :
    Defers poolId id j t (.call .utcNow k) := rest

theorem Defers.uuid {k : String → Task Unit} (rest : ∀ new, new ≠ id → Defers poolId id j t (k new)) :
    Defers poolId id j t (.call .newUuid k) := rest

/-- A run that is not queued is stored, and not run `id`. -/
theorem Defers.update {k : Result Unit → Task Unit} (other : run.runId ≠ id) (busy : run.status ≠ .queued)
    (rest : ∀ r, Defers poolId id j t (k r)) : Defers poolId id j t (.call (.store (.updateRun run)) k) := by
  have behind : inFront poolId t run = false := Bool.eq_false_of_not_eq_true fun front => busy (inFront_queued front)
  refine ⟨fun p state r => ?_, fun r => ?_, fun _ => rfl, rest⟩
  · rcases r with e | _
    · rfl
    · simp [joins, placed, behind]
  · rcases r with e | _
    · rfl
    · exact if_neg other

/-- A run is created for a later time. -/
theorem Defers.create {k : Result Unit → Task Unit} (other : run.runId ≠ id) (late : t < run.scheduledFor)
    (rest : ∀ r, Defers poolId id j t (k r)) : Defers poolId id j t (.call (.store (.createRun run)) k) := by
  have behind : inFront poolId t run = false := by
    rw [inFront, decide_eq_false (not_le.mpr late), Bool.and_false]
  refine ⟨fun p state r => ?_, fun r => ?_, fun _ => rfl, rest⟩
  · rcases r with e | _
    · rfl
    · simp [joins, placed, behind]
  · rcases r with e | _
    · rfl
    · exact if_neg other

theorem failUnstarted_defers (other : run.runId ≠ id) (reason : String) : Defers poolId id j t (failUnstarted run reason) :=
  .now fun _ _ => .update other nofun fun _ => trivial

theorem panicked_defers : Defers poolId id j t panicked := ⟨fun _ _ _ => rfl, fun _ => rfl, fun _ => rfl, nofun⟩

/-- A retry is scheduled for a later time. -/
theorem retryFailed_defers : Defers poolId id j t (retryFailed run job) := by
  unfold retryFailed
  split
  · refine .now fun now late => ?_
    dsimp only [Prog.bind]
    split
    · exact panicked_defers
    · rename_i scheduledFor dated
      exact .uuid fun new apart => .create apart (lt_of_lt_of_le late (le_of_retryTime dated)) fun _ => trivial
  · trivial

theorem finalizeFailedRun_defers {status : RunStatus} {error : String} {logs : Option CapturedLogs} (other : run.runId ≠ id) :
    Defers poolId id j t (finalizeFailedRun run job status error logs) := by
  unfold finalizeFailedRun
  split
  · exact panicked_defers
  · rename_i message _
    refine .now fun now _ => .update ?_ ?_ fun r => ?_
    · have same : (failedRun run status message logs now).runId = run.runId := by
        unfold failedRun
        cases logs <;> cases status <;> rfl
      rwa [same]
    · intro queued
      have failure := failedRun_failure run status message logs now
      rw [queued] at failure
      cases failure
    · cases r with
      | error e => trivial
      | ok _ => exact retryFailed_defers

theorem executeRun_defers (other : run.runId ≠ id) : Defers poolId id j t (executeRun run job) := by
  refine .now fun started _ => ⟨fun _ _ _ => rfl, fun _ => rfl, fun _ => rfl, fun ended => .now fun finished _ => ?_⟩
  dsimp only [Prog.bind]
  split
  · exact .now fun now _ => .update other nofun fun _ => trivial
  · exact finalizeFailedRun_defers other

theorem workClaimed_defers (other : run.runId ≠ id) : Defers poolId id j t (workClaimed run) := by
  unfold workClaimed
  split
  · exact failUnstarted_defers other _
  · refine ⟨fun _ _ _ => rfl, fun _ => rfl, fun _ => rfl, fun found => ?_⟩
    rcases found with e | _ | job
    · exact failUnstarted_defers other _
    · exact failUnstarted_defers other _
    · refine .now fun at' _ => .update other nofun fun r => ?_
      cases r with
      | error e => trivial
      | ok _ => exact executeRun_defers other

theorem ExecutedSince.call {op : Op} {r : Ans op} {m : Task Unit} {w'' : World} (calls : Alone .calm w op r w')
    (rest : Ends .calm m w' out w'') (done : ExecutedSince w' w'' run) : ExecutedSince w w'' run := by
  obtain ⟨e, inside, request⟩ := done
  refine ⟨e, ?_, request⟩
  rw [calls.entries rest]
  exact List.mem_cons_of_mem _ inside

/-- A slot executes the run it has claimed. -/
theorem workClaimed_executes (isJob : run.jobId = some j) (known : w.job j = some job) (stored : w.run run.runId = some run)
    (ends : Ends .calm (workClaimed run) w out w') : ExecutedSince w w' run := by
  unfold workClaimed at ends
  rw [isJob] at ends
  obtain ⟨found, w₁, looks, ends₁⟩ := ends
  refine .call looks ends₁ ?_
  obtain ⟨rfl, same₁⟩ := looks.getJob rfl
  rw [known] at ends₁
  obtain ⟨at', w₂, reads, ends₂⟩ := ends₁
  refine .call reads ends₂ ?_
  have stored₂ : w₂.run run.runId = some run := by
    rw [World.run_congr reads.utcNow.2, World.run_congr same₁]
    exact stored
  obtain ⟨r, w₃, updates, ends₃⟩ := ends₂
  refine .call updates ends₃ ?_
  obtain ⟨rfl, -⟩ := updates.updateRun rfl stored₂
  obtain ⟨started, w₄, reads', ends₄⟩ := ends₃
  refine .call reads' ends₄ ?_
  obtain ⟨ended, w₅, executes, rest⟩ := ends₄
  rw [ExecutedSince, executes.entries rest]
  exact ⟨_, List.mem_cons_self, _, rfl, rfl, rfl, rfl, rfl⟩

end Slot

/-! ## Passes -/

section Passes

variable {host : Host} {pool workerId id j : String} {t : DateTime} {w w' w'' : World} {row : Run} {job : Job} {out : Option Unit}
  {n : Nat}

/-- A claim that leaves the run waiting takes one in front of it. -/
theorem claim_shortens {now : DateTime} {ttl : Int} {r : Result (Option Run)} (waits : Waits pool id t row)
    (stored : w.run id = some row) (stays : w'.run id = some row) (soon : t ≤ now)
    (calls : Alone .calm w (.store (.claimNextQueued pool workerId now ttl)) r w') :
    (ahead pool t id w').card < (ahead pool t id w).card ∧ ahead pool t id w' ⊆ ahead pool t id w := by
  obtain ⟨oracle, v, ran, same, -⟩ := calls.performed
  have runs (other : String) : w'.run other = v.run other := by rw [World.run, World.run, same]
  obtain ⟨run, rfl, -, before, gone⟩ := claim_takes waits stored (by rw [← runs]; exact stays) soon ran
  have subset : ahead pool t id v ⊆ ahead pool t id w := fun other inside => (joined ran inside).resolve_right (by simp [joins, placed])
  rw [ahead_congr runs]
  exact ⟨Finset.card_lt_card ⟨subset, fun back => gone (back before)⟩, subset⟩

/-- What a pass of a slot does about a waiting run: it executes it, or takes one in front of it. -/
theorem workerSlot_serves (enabled : (host.env.disableWorker || host.env.interactive) = false)
    (waits : Waits pool id t row) (isJob : row.jobId = some j) (known : w.job j = some job) (stored : w.run id = some row)
    (late : t < w.clock) (ends : Ends .calm (workerSlot host pool workerId) w out w') :
    ExecutedSince w w' row ∨
      Deferred pool id j t row w w' ∧ (ahead pool t id w').card < (ahead pool t id w).card := by
  unfold workerSlot at ends
  rw [if_neg (by rw [enabled]; exact Bool.false_ne_true)] at ends
  obtain ⟨now, w₁, reads, ends₁⟩ := ends
  obtain ⟨isNow, same₁⟩ := reads.utcNow
  have late₁ : t < w₁.clock := lt_of_lt_of_le late reads.passes
  have stored₁ : w₁.run id = some row := by rw [World.run_congr same₁]; exact stored
  have known₁ : w₁.job j = some job := by rw [World.job_congr same₁]; exact known
  have soon : t ≤ now := by rw [isNow]; exact le_of_lt late
  have whole := ends₁
  obtain ⟨r, w₂, claims, ends₂⟩ := ends₁
  obtain ⟨isRow, isRun⟩ := Table.lookup_eq_some.mp stored₁
  obtain ⟨nothing, -, -⟩ | ⟨run, first, rfl, after⟩ := Sql.claimNextQueued_memory (claims.exec rfl)
  · exact absurd (waits.claimable now soon) (by simp [nothing row isRow])
  · let ttl := runWorkerLeaseTtlSecs host.env
    replace ends₂ : Ends .calm (workClaimed (Store.claimedRun run workerId now ttl)) w₂ out w' := ends₂
    have runs (other : String) : w₂.run other =
        if run.runId = other then some (Store.claimedRun run workerId now ttl) else w₁.run other := World.run_setRun after other
    have known₂ : w₂.job j = some job := by
      rw [World.job, after]
      exact known₁
    by_cases own : run.runId = id
    · left
      have same : run = row := List.inj_on_of_nodup_map w₁.store.runs.distinct first.inside isRow (own.trans isRun.symm)
      subst same
      have claimed : w₂.run run.runId = some (Store.claimedRun run workerId now ttl) := (runs _).trans (if_pos rfl)
      have ofJob : (Store.claimedRun run workerId now ttl).jobId = some j := isJob
      refine .call reads whole (.call claims ends₂ ?_)
      obtain ⟨e, inside, request, isRequest, sameRun, uses⟩ := workClaimed_executes ofJob known₂ claimed ends₂
      exact ⟨e, inside, request, isRequest, sameRun, uses.scriptName, uses.actorJson, uses.paramsJson⟩
    · right
      have stored₂ : w₂.run id = some row := (runs id).trans ((if_neg own).trans stored₁)
      obtain ⟨fewer, subset⟩ := claim_shortens waits stored₁ stored₂ soon claims
      have apart : (Store.claimedRun run workerId now ttl).runId ≠ id := own
      have rest : Deferred pool id j t row w₂ w' := (workClaimed_defers apart).ends ends₂ stored₂ (lt_of_lt_of_le late₁ claims.passes)
      refine ⟨⟨rest.stored, ?_, rest.later, ?_⟩, ?_⟩
      · rw [rest.job, known₂, known]
      · rw [ahead_congr (World.run_congr same₁)] at subset
        exact rest.front.trans subset
      · rw [ahead_congr (World.run_congr same₁)] at fewer
        exact lt_of_le_of_lt (Finset.card_le_card rest.front) fewer

theorem Passes.log (passes : Passes host pool n w w') : ∃ more, w'.log = more ++ w.log := by
  induction passes with
  | none => exact ⟨[], rfl⟩
  | pass first _ ih =>
    obtain ⟨more, isLog⟩ := first.log
    obtain ⟨more', isLog'⟩ := ih
    exact ⟨more' ++ more, by rw [isLog', isLog, List.append_assoc]⟩

/-- What has been executed in one of two parts. -/
theorem ExecutedSince.either {more more' : List LogEntry} (isLog : w'.log = more ++ w.log) (isLog' : w''.log = more' ++ w'.log)
    (done : ExecutedSince w w' row ∨ ExecutedSince w' w'' row) : ExecutedSince w w'' row := by
  have whole : w.entriesSince w'' = w.entriesSince w' ++ w'.entriesSince w'' := by
    rw [World.entriesSince_eq isLog, World.entriesSince_eq isLog', ← List.reverse_append]
    exact World.entriesSince_eq (by rw [isLog', isLog, List.append_assoc])
  rcases done with ⟨e, inside, request⟩ | ⟨e, inside, request⟩
  · exact ⟨e, by rw [whole]; exact List.mem_append_left _ inside, request⟩
  · exact ⟨e, by rw [whole]; exact List.mem_append_right _ inside, request⟩

/-- Enough passes execute a waiting run. -/
theorem Passes.executes (enabled : (host.env.disableWorker || host.env.interactive) = false) (waits : Waits pool id t row)
    (isJob : row.jobId = some j) (known : w.job j = some job) (stored : w.run id = some row) (late : t < w.clock)
    (passes : Passes host pool n w w') (enough : (ahead pool t id w).card < n) : ExecutedSince w w' row := by
  induction passes with
  | none => omega
  | @pass n workerId out w w₁ w' first rest ih =>
    obtain ⟨more, isLog⟩ := first.log
    obtain ⟨more', isLog'⟩ := rest.log
    rcases workerSlot_serves enabled waits isJob known stored late first with done | ⟨deferred, fewer⟩
    · exact .either isLog isLog' (.inl done)
    · exact .either isLog isLog' (.inr (ih (deferred.job.trans known) deferred.stored deferred.later (by omega)))

end Passes

/-! ## From the ticks on -/

/-- A row with the pool, script, actor and parameters of the target. -/
structure SameWork (row target : Job) : Prop where
  pool : row.pool = target.pool
  scriptName : row.scriptName = target.scriptName
  actorJson : row.actorJson = target.actorJson
  paramsJson : row.paramsJson = target.paramsJson

/-- A run of the target as a tick creates it. -/
structure MadeFor (target : Job) (run : Run) : Prop where
  queued : run.status = .queued
  free : run.claimLeaseUntil = none
  pool : run.poolId = some (jobExecutionPoolId target)
  scriptName : run.scriptName = target.scriptName
  actorJson : run.actorJson = target.actorJson
  paramsJson : run.paramsJson = target.paramsJson

/-- The runs of the target that are new since `w` have been created by ticks. -/
structure TickMade (w : World) (target : Job) (s : Store) : Prop where
  kept : ∃ row, s.jobs.lookup target.jobId = some row ∧ SameWork row target
  runs : ∀ id run, s.runs.lookup id = some run → run.jobId = some target.jobId → w.run id = some run ∨ MadeFor target run

section Ticks

variable {host : Host} {instanceId : String} {draining draining' : Bool} {w w' v v' : World} {target : Job} {n : Nat}

theorem SameWork.tickRun {row : Job} (same : SameWork row target) (runId : String) (t : DateTime) :
    MadeFor target (tickRun row runId t) := by
  refine ⟨rfl, rfl, ?_, same.scriptName, same.actorJson, same.paramsJson⟩
  change some (jobExecutionPoolId row) = some (jobExecutionPoolId target)
  rw [jobExecutionPoolId, same.pool]
  rfl

theorem TickMade.enqueued {jobId : String} (made : TickMade w target v.store) (enqueued : Enqueued host instanceId jobId v v') :
    TickMade w target v'.store := by
  obtain ⟨row, stored, same⟩ := made.kept
  constructor
  · rcases enqueued.jobs with kept | ⟨old, new, isOld, jobs, changed⟩
    · exact ⟨row, (kept target.jobId).trans stored, same⟩
    · by_cases own : jobId = target.jobId
      · subst own
        have isRow : row = old := Option.some.inj (stored.symm.trans isOld)
        subst isRow
        refine ⟨new, (jobs target.jobId).trans (if_pos rfl), ?_⟩
        rcases changed with ⟨stamp, rfl⟩ | ⟨completedAt, stamp, rfl⟩
        · exact ⟨same.pool, same.scriptName, same.actorJson, same.paramsJson⟩
        · unfold fired completedOnce
          dsimp only
          split <;> exact ⟨same.pool, same.scriptName, same.actorJson, same.paramsJson⟩
      · exact ⟨row, (jobs target.jobId).trans ((if_neg own).trans stored), same⟩
  · intro id run found ofTarget
    rcases enqueued.runs with kept | ⟨old, runId, t, isOld, -, runs⟩
    · exact made.runs id run ((kept id).symm.trans found) ofTarget
    · have isRun := (runs id).symm.trans found
      split at isRun
      · cases isRun
        have key : old.jobId = jobId := Table.key_of_lookup isOld
        have own : jobId = target.jobId := key.symm.trans (Option.some.inj ofTarget)
        subst own
        have isRow : row = old := Option.some.inj (stored.symm.trans isOld)
        subst isRow
        exact .inr (same.tickRun runId t)
      · exact made.runs id run isRun ofTarget

theorem Ticks.made {w₀ : World} (ticks : Ticks host instanceId n draining w draining' w') (made : TickMade w₀ target w.store) :
    TickMade w₀ target w'.store := by
  induction ticks with
  | none => exact made
  | tick first _ ih =>
    refine ih (runOneTick_keeps (I := TickMade w₀ target) (fun _ => rfl) (fun _ _ same => le_of_eq same) ?_ first (le_refl _) made)
    exact fun v v' jobId _ made enqueued => made.enqueued enqueued

theorem MadeFor.waits {run : Run} (made : MadeFor target run) :
    Waits (jobExecutionPoolId target) run.runId run.scheduledFor run := by
  refine ⟨rfl, fun now late => Sql.claimable_iff.mpr ⟨made.queued, late, ?_, ?_⟩, rfl⟩
  · rw [made.free]
    rfl
  · rw [made.pool, Sql.runPoolKey_eq]
    rfl

/-- **A due job is executed.** On a host with coordinator and worker, enough ticks at the time it is due (`Ticks`: the clock
stands) create a run of it, unless too many blocked jobs are ahead, and from its time on enough passes of slots of its pool
execute that run, with the script, actor and parameters of the job. -/
theorem due_job_executed (fits : tickBatchLimitFromEnv host.env < 4294967296)
    (enabled : (host.env.disableCoordinator || host.env.interactive) = false)
    (working : (host.env.disableWorker || host.env.interactive) = false) (runnable : Runnable instanceId draining target w)
    (few : (stuckAhead host instanceId target w).length < tickBatchLimitFromEnv host.env)
    (ticks : Ticks host instanceId (dueJobs instanceId draining w).length draining w draining' w') :
    ∃ run, w.run run.runId = none ∧ w'.run run.runId = some run ∧ run.jobId = some target.jobId ∧
      run.scriptName = target.scriptName ∧ run.actorJson = target.actorJson ∧ run.paramsJson = target.paramsJson ∧
      ∀ v v' m, v.store = w'.store → run.scheduledFor < v.clock →
        (ahead (jobExecutionPoolId target) run.scheduledFor run.runId v).card < m →
        Passes host (jobExecutionPoolId target) m v v' → ExecutedSince v v' run := by
  rw [stuckAhead, ← card_stuckIds] at few
  obtain ⟨run, isJob, new, created⟩ := ticks.serve fits enabled runnable few runnable.card_aheadIds
  have start : TickMade w target w.store :=
    ⟨⟨target, runnable.stored, rfl, rfl, rfl, rfl⟩, fun id run stored _ => .inl stored⟩
  have made := ticks.made start
  have isMade : MadeFor target run := by
    rcases made.runs run.runId run created isJob with old | isMade
    · rw [new] at old
      cases old
    · exact isMade
  refine ⟨run, new, created, isJob, isMade.scriptName, isMade.actorJson, isMade.paramsJson, ?_⟩
  intro v v' m same late enough passes
  obtain ⟨row, known, -⟩ := made.kept
  exact passes.executes working isMade.waits isJob ((World.job_congr same _).trans known) ((World.run_congr same _).trans created)
    late enough

end Ticks

/-- The earlier job fires first, and the minutely job in the second tick. -/
theorem due_job_executed_second : ∃ draining w' run, Ticks singleHost "A" 2 false (twoDue 2) draining w' ∧
    w'.run run.runId = some run ∧ run.jobId = some "j" ∧
      ∀ v v' m, v.store = w'.store → run.scheduledFor < v.clock →
        (ahead "general" run.scheduledFor run.runId v).card < m → Passes singleHost "general" m v v' → ExecutedSince v v' run := by
  obtain ⟨draining, w', ticks, -⟩ := exists_ticks (twoDue 2) [[.uuid "c1", .uuid "r1"], [.uuid "c2", .uuid "r2"]]
    (fun _ => true) (by decide +kernel)
  have runnable : Runnable "A" false minutelyJob (twoDue 2) := ⟨rfl, by decide, by decide, by decide, by rintro ⟨⟩⟩
  obtain ⟨run, -, created, isJob, -, -, -, executes⟩ :=
    due_job_executed (by decide) (by decide) (by decide) runnable (by decide +kernel) ticks
  exact ⟨draining, w', run, ticks, created, isJob, executes⟩

end Chronon
