import Chronon.Scheduler.TickLoop
import Chronon.Runtime.Worker
import Chronon.Axum.Handlers

/-!
# The system

Every task of a deployment over one in-memory store: coordinator ticks, the API
operations on jobs and runs, and the parties that execute runs. Any number of
them run, in any order, interleaved call by call.
-/

namespace Chronon
set_option autoImplicit false

open Concurrent

/-- A task that can be started. -/
inductive Proc where
  | tick (instanceId : String) (draining : Bool)
  | pause (jobId : String)
  | resume (jobId : String)
  | delete (jobId : String)
  | upsert (job : Job)
  | httpUpsert (req : Axum.UpsertJobRequest)
  | runNow (jobId : String) (paramsOverride actorOverride : Option Json)
  | slot (pool workerId : String)
  | renew (runId workerId : String)
  | reclaim
  | event (e : ExecutorEvent)

/-- The program of a task. -/
def Proc.code (host : Host) : Proc → Task Unit
  | .tick instanceId draining => (runOneTick host instanceId draining).done
  | .pause jobId => (CoordinatorService.pauseJob jobId).done
  | .resume jobId => (CoordinatorService.resumeJob jobId).done
  | .delete jobId => (CoordinatorService.deleteJob jobId).done
  | .upsert job => (CoordinatorService.upsertJob host job).done
  | .httpUpsert req => (Axum.upsertJob host req).done
  | .runNow jobId params actor => (CoordinatorService.runNowWithParamsAndActor jobId params actor).done
  | .slot pool workerId => workerSlot host pool workerId
  | .renew runId workerId => (renewLease host runId workerId).done
  | .reclaim => reclaimOnce
  | .event e => handleExecutorEvent e

/-- All tasks over one store. -/
def system (host : Host) : Machine Op Ans World Proc Oracle Env where
  code := Proc.code host
  exec := perform
  drift := drift

abbrev SystemConfig := Config Op Ans World

abbrev SystemLabel := Label Op Ans Proc Env

abbrev SystemChoice := Choice Proc Oracle Env

/-! ## Small deployments and schedules -/

/-- A store with one job and no run, all partitions owned by everybody. -/
def State.single (job : Job) (clock : DateTime) : State :=
  ⟨{ Store.new with
    jobs := Collections.Table.empty.insert job
    jobsByName := Collections.Table.empty.insert (job.jobName, job.jobId) }, clock, fun _ => [0]⟩

/-- A job that fires every minute, next at the first one. -/
def minutelyJob : Job :=
  { Job.new "j" 0 "poll" "noop" with
    cronExpr := some "* * * * *"
    concurrency := 2
    partitionHash := some 0
    nextRunAt := some (seconds 60) }

/-- A run-once job whose time has come. -/
def dueOnceJob : Job :=
  { Job.new "j" 0 "import" "noop" with
    scheduleKind := .runOnce
    concurrency := 2
    partitionHash := some 0
    nextRunAt := some (seconds 60) }

/-- The same with a run in the store. -/
def State.withRun (s : State) (run : Run) : State := { s with store := s.store.setRun run }

/-- `n` calls of task `p` that need no oracle. -/
def calls (p n : Nat) : List SystemChoice := List.replicate n (.call p .quiet)

/-- Task `p` draws an identifier. -/
def draw (p : Nat) (id : String) : List SystemChoice := [.call p (.uuid id)]

/-- Start a tick and run it up to its due list. -/
def startTick (p : Nat) (instanceId : String) (draining : Bool) : List SystemChoice :=
  .start p (.tick instanceId draining) :: calls p 4

/-- Take the next job of the due list, up to `claim_job_for_tick`. -/
def claimNext (p : Nat) (id : String) : List SystemChoice := calls p 1 ++ draw p id ++ calls p 1

/-- The rest of the sequence of a cron job that is enqueued, and the wait after its list. -/
def enqueueRest (p : Nat) (runId : String) : List SystemChoice := calls p 2 ++ draw p runId ++ calls p 3

/-- The same for a run-once job. -/
def enqueueOnce (p : Nat) (runId : String) : List SystemChoice := calls p 3 ++ draw p runId ++ calls p 5

/-- Start a worker slot and run it up to `claim_next_queued`. -/
def startSlot (p : Nat) (workerId : String) : List SystemChoice := .start p (.slot "general" workerId) :: calls p 2

/-- The script of slot `p` ends as told, and the slot reads the clock. -/
def runScript (p : Nat) (result : Result Unit) : List SystemChoice :=
  calls p 1 ++ [.call p (.outcome (some (.finished ⟨result, .default⟩)))] ++ calls p 2

/-- A schedule that can be played from `s` is a run, and ends as the test says. -/
theorem exists_run (host : Host) (P : SystemLabel → World → World → Prop) [∀ l w w', Decidable (P l w w')] (s : State)
    (choices : List SystemChoice) (test : SystemConfig → Bool)
    (played : ((system host).play P choices (.idle (.fresh s))).any test = true) :
    ∃ c, (system host).Reach P (.idle (.fresh s)) c ∧ test c = true :=
  Machine.Reach.of_play_any played

/-! ## What a call does to the rows -/

/-- The change an answered call has made to the job row `j`. -/
def jobWrite (j : String) : (op : Op) → Ans op → Option JobWrite
  | .store c, r => c.writesTo r j
  | _, _ => none

/-- The change an answered call has made to the run row `r`. -/
def runWrite (r : String) : (op : Op) → Ans op → Option RunWrite
  | .store c, a => c.runWrite a r
  | _, _ => none

/-- The calls that change the row `j`, with the answer they got. -/
inductive Wrote (j : String) : (op : Op) → Ans op → JobWrite → Prop
  | put {job : Job} : job.jobId = j → Wrote j (.store (.upsertJob job)) (.ok ()) (.put job)
  | drop {removed : Bool} : Wrote j (.store (.deleteJob j)) (.ok removed) .drop
  | pause : Wrote j (.store (.pauseJob j)) (.ok ()) (.enable false)
  | resume : Wrote j (.store (.resumeJob j)) (.ok ()) (.enable true)
  | claimOnce {claimedBy : String} {now : DateTime} {ttl : Int} :
      Wrote j (.store (.tryClaimRunOnce j claimedBy now ttl)) (.ok true) (.claimOnce claimedBy now ttl)
  | complete {completedAt : DateTime} :
      Wrote j (.store (.markRunOnceCompleted j completedAt)) (.ok ()) (.complete completedAt)
  | releaseOnce {claimedBy : String} {now : DateTime} :
      Wrote j (.store (.releaseRunOnceClaim j claimedBy now)) (.ok ()) (.releaseOnce claimedBy)
  | claimTick {claimId : String} {now : DateTime} {ttl : Int} :
      Wrote j (.store (.claimJobForTick j claimId now ttl)) (.ok true) (.claimTick claimId now ttl)
  | releaseTick : Wrote j (.store (.releaseJobTickClaim j)) (.ok ()) .releaseTick
  | persist {nextRunAt : Option DateTime} :
      Wrote j (.store (.persistPostTickJobState j nextRunAt)) (.ok ()) (.persist nextRunAt)

/-- A change of the row `j` names the call that made it. -/
theorem jobWrite_wrote {j : String} {op : Op} {r : Ans op} {w : JobWrite} (wrote : jobWrite j op r = some w) :
    Wrote j op r w := by
  cases op with
  | store c =>
    simp only [jobWrite, StoreCall.writesTo, StoreCall.jobWrite] at wrote
    split at wrote
    · rename_i target write isWrite
      split at wrote
      · rename_i same
        subst same
        cases wrote
        split at isWrite <;> cases isWrite
        · exact .put rfl
        · exact .drop
        · exact .pause
        · exact .resume
        · exact .claimOnce
        · exact .complete
        · exact .releaseOnce
        · exact .claimTick
        · exact .releaseTick
        · exact .persist
      · cases wrote
    · cases wrote
  | _ => cases wrote

/-- The calls that change the run row `id`, with the answer they got. -/
inductive RunWrote (id : String) : (op : Op) → Ans op → RunWrite → Prop
  | create {run : Run} : run.runId = id → RunWrote id (.store (.createRun run)) (.ok ()) (.create run)
  | update {run : Run} : run.runId = id → RunWrote id (.store (.updateRun run)) (.ok ()) (.update run)
  | claim {poolId workerId : String} {now : DateTime} {ttl : Int} {run : Run} : run.runId = id →
      RunWrote id (.store (.claimNextQueued poolId workerId now ttl)) (.ok (some run)) (.claim poolId workerId now ttl)
  | claimById {runId poolId workerId : String} {now : DateTime} {ttl : Int} {run : Run} : run.runId = id →
      RunWrote id (.store (.claimRunById runId poolId workerId now ttl)) (.ok (some run)) (.claim poolId workerId now ttl)
  | extend {workerId : String} {now : DateTime} {ttl : Int} :
      RunWrote id (.store (.renewRunLease id workerId now ttl)) (.ok true) (.extend workerId (now + seconds ttl))
  | reclaim {now : DateTime} {ids : List String} :
      RunWrote id (.store (.reclaimExpiredRunLeases now)) (.ok ids) (.reclaim now)

/-- A change of the run row `id` names the call that made it. -/
theorem runWrite_wrote {id : String} {op : Op} {r : Ans op} {w : RunWrite} (wrote : runWrite id op r = some w) :
    RunWrote id op r w := by
  cases op with
  | store c =>
    simp only [runWrite, StoreCall.runWrite] at wrote
    split at wrote
    · split at wrote
      · rename_i same; cases wrote; exact .create same
      · cases wrote
    · split at wrote
      · rename_i same; cases wrote; exact .update same
      · cases wrote
    · split at wrote
      · rename_i same; cases wrote; exact .claim same
      · cases wrote
    · split at wrote
      · rename_i same; cases wrote; exact .claimById same
      · cases wrote
    · split at wrote
      · rename_i same; subst same; cases wrote; exact .extend
      · cases wrote
    · cases wrote; exact .reclaim
    · cases wrote
  | _ => cases wrote

theorem perform_job {p : Nat} {oracle : Oracle} {w w' : World} {op : Op} {r : Ans op}
    (ran : perform p oracle w op = some (r, w')) (j : String) :
    JobStep j (jobWrite j op r) (w.job j) (w'.job j) := by
  obtain ⟨answered, -⟩ := perform_cases ran
  cases op with
  | store c => exact StoreCall.lookup_job_exec (answer_store answered).1 j
  | _ =>
    have same : w'.job j = w.job j := by
      rw [World.job, World.store, answer_other answered (by intro c h; cases h)]; rfl
    rw [same]
    exact .same

theorem perform_run {p : Nat} {oracle : Oracle} {w w' : World} {op : Op} {r : Ans op}
    (ran : perform p oracle w op = some (r, w')) (id : String) :
    RunStep id (runWrite id op r) (w.run id) (w'.run id) := by
  obtain ⟨answered, -⟩ := perform_cases ran
  cases op with
  | store c => exact StoreCall.lookup_run_exec (answer_store answered).1 id
  | _ =>
    have same : w'.run id = w.run id := by
      rw [World.run, World.store, answer_other answered (by intro c h; cases h)]; rfl
    rw [same]
    exact .same

/-- A job is read as it is stored. -/
theorem perform_getJob {p : Nat} {oracle : Oracle} {w w' : World} {jobId : String} {found : Option Job}
    (ran : perform p oracle w (.store (.getJob jobId)) = some (.ok found, w')) : w.job jobId = found := by
  have executed := (answer_store (perform_cases ran).1).1
  simp only [StoreCall.exec, Store.getJob, Prod.mk.injEq, Except.ok.injEq] at executed
  exact executed.1

theorem perform_getRun {p : Nat} {oracle : Oracle} {w w' : World} {runId : String} {found : Option Run}
    (ran : perform p oracle w (.store (.getRun runId)) = some (.ok found, w')) : w.run runId = found := by
  have executed := (answer_store (perform_cases ran).1).1
  simp only [StoreCall.exec, Store.getRun, Prod.mk.injEq, Except.ok.injEq] at executed
  exact executed.1

/-- A call that writes no job row `j` leaves it alone. -/
theorem perform_job_same {p : Nat} {oracle : Oracle} {w w' : World} {op : Op} {r : Ans op}
    (ran : perform p oracle w op = some (r, w')) {j : String} (untouched : jobWrite j op r = none) :
    w'.job j = w.job j := by
  have step := perform_job ran j
  rw [untouched] at step
  generalize w.job j = before at step
  generalize w'.job j = after at step
  cases step
  rfl

/-! ## What a step calls -/

/-- The task that makes the call of a step. -/
def caller : SystemLabel → Option Nat
  | .call p _ _ => some p
  | _ => none

/-- The row an `upsert_job` writes. -/
def upserted : SystemLabel → Option Job
  | .call _ (.store (.upsertJob job)) _ => some job
  | _ => none

/-- The job a `delete_job` names. -/
def deleted : SystemLabel → Option String
  | .call _ (.store (.deleteJob jobId)) _ => some jobId
  | _ => none

/-- The job a `release_job_tick_claim` names. -/
def released : SystemLabel → Option String
  | .call _ (.store (.releaseJobTickClaim jobId)) _ => some jobId
  | _ => none

/-- The job a `persist_post_tick_job_state` names. -/
def persisted : SystemLabel → Option String
  | .call _ (.store (.persistPostTickJobState jobId _)) _ => some jobId
  | _ => none

/-- The row a `create_run` inserts. -/
def inserted : SystemLabel → Option Run
  | .call _ (.store (.createRun run)) _ => some run
  | _ => none

/-- The row an `update_run` writes. -/
def updated : SystemLabel → Option Run
  | .call _ (.store (.updateRun run)) _ => some run
  | _ => none

theorem updated_eq_some {p : Nat} {op : Op} {r : Ans op} {run : Run} (isUpdate : updated (.call p op r) = some run) :
    op = .store (.updateRun run) := by
  cases op with
  | store c => cases c <;> first | (cases isUpdate; rfl) | cases isUpdate
  | _ => cases isUpdate

/-- The step an entry of the history records. -/
def Concurrent.Entry.label (e : LogEntry) : SystemLabel := .call e.pid e.op e.ans

/-- A step that does not replace the row `j`. -/
def NotUpserted (j : String) (l : SystemLabel) : Prop := ∀ job ∈ upserted l, job.jobId ≠ j

instance (j : String) (l : SystemLabel) : Decidable (NotUpserted j l) :=
  inferInstanceAs (Decidable (∀ job ∈ upserted l, _))

/-- A step that does not delete the row `j`. -/
def NotDeleted (j : String) (l : SystemLabel) : Prop := deleted l ≠ some j

instance (j : String) (l : SystemLabel) : Decidable (NotDeleted j l) := inferInstanceAs (Decidable (deleted l ≠ some j))

/-- A stored row that is not deleted stays stored. -/
theorem NotDeleted.present {j : String} {p : Nat} {oracle : Oracle} {w w' : World} {op : Op} {r : Ans op} {row : Job}
    (kept : NotDeleted j (.call p op r)) (ran : perform p oracle w op = some (r, w')) (stored : w.job j = some row) :
    ∃ row', w'.job j = some row' := by
  have step := perform_job ran j
  rw [stored] at step
  generalize w'.job j = after at step
  cases wrote : jobWrite j op r with
  | none =>
    rw [wrote] at step
    cases step
    exact ⟨row, rfl⟩
  | some write =>
    rw [wrote] at step
    cases step with
    | put _ => exact ⟨_, rfl⟩
    | write _ _ => exact ⟨_, rfl⟩
    | drop =>
      cases jobWrite_wrote wrote
      exact absurd rfl kept

end Chronon
