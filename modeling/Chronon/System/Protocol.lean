import Chronon.Concurrent.Rules
import Chronon.System.Machine

/-!
# What each task is doing

`Phase` is where a task stands, with what it has in hand: a coordinator's due
list and tick claim, an editor's job, a worker's copy of a run. `Move` is every
way a call takes a task from one phase to the next. That the programs follow
these moves is proved in `Conformance.lean`; results about the system are case
analyses over `Move`.
-/

namespace Chronon
set_option autoImplicit false

open Concurrent

/-- The rest of a due list, with the tick it came from. -/
structure Batch where
  instanceId : String
  dueUntil : DateTime
  ids : List String
  deriving DecidableEq

/-- A tick claim as its holder knows it. -/
structure TickClaim where
  jobId : String
  claimId : String
  now : DateTime
  ttl : Int
  deriving DecidableEq

/-- When the lease of a tick claim ends. -/
def TickClaim.leaseUntil (k : TickClaim) : DateTime := k.now + seconds k.ttl

/-- Where a task stands. -/
inductive Phase where
  /-- Nothing in hand. -/
  | quiet
  /-- A tick that has not read the partitions of its instance. -/
  | ticking (instanceId : String)
  /-- A tick of an instance that owns these partitions, and then with its reading of the clock. -/
  | owning (instanceId : String) (owned : List Nat)
  | tickOpened (instanceId : String) (owned : List Nat) (now : DateTime)
  /-- A tick that is over without a due list. -/
  | ticked
  /-- Between two jobs of a due list. -/
  | listed (b : Batch)
  /-- About to claim the first job of the list. -/
  | opened (b : Batch) (now : DateTime)
  | named (b : Batch) (now : DateTime) (claimId : String)
  /-- The tick claim `k` is held. -/
  | claimed (b : Batch) (k : TickClaim)
  | loaded (b : Batch) (k : TickClaim) (job : Job)
  | releasing (b : Batch) (k : TickClaim)
  | skipMark (b : Batch) (k : TickClaim) (job : Job)
  | skipPersist (b : Batch) (k : TickClaim) (job : Job)
  | skipRelease (b : Batch) (k : TickClaim)
  | tryOnce (b : Batch) (k : TickClaim) (job : Job)
  | drawing (b : Batch) (k : TickClaim) (job : Job)
  | creating (b : Batch) (k : TickClaim) (job : Job) (runId : String)
  | undoing (b : Batch) (k : TickClaim)
  | marking (b : Batch) (k : TickClaim) (job : Job)
  | persisting (b : Batch) (k : TickClaim) (job : Job)
  /-- An HTTP upsert that has not read the job yet. -/
  | naming
  /-- An upsert before the row to write is fixed; `copy` is the row the HTTP handler read. -/
  | editing (copy : Option Job)
  /-- An upsert that will write `job`. -/
  | writingJob (copy : Option Job) (job : Job)
  /-- A job operation that is a single call. -/
  | jobCall (w : JobWrite) (jobId : String)
  /-- A `run_now` that has yet to draw the identifier of its run. -/
  | ordering
  /-- A worker slot that has nothing claimed. -/
  | slotIdle (workerId : String)
  | slotOpened (workerId : String) (now : DateTime)
  /-- A copy of a run in hand, and the job once loaded; `worker` is the slot that claimed it,
  `none` for an executor event. -/
  | copied (worker : Option String) (run : Run) (job : Option Job)
  /-- A terminal failure is stored and the policy allows a retry. -/
  | retrying (run : Run) (job : Job)
  /-- About to insert a run under a drawn identifier. -/
  | inserting (runId : String) (retryOf : Option Run) (job : Option Job)
  | reclaiming (now : DateTime)

namespace Phase

/-- The tick claim a task holds. -/
def claim : Phase → Option TickClaim
  | .claimed _ k | .loaded _ k _ | .releasing _ k | .skipMark _ k _ | .skipPersist _ k _ | .tryOnce _ k _
  | .drawing _ k _ | .creating _ k _ _ | .undoing _ k | .marking _ k _ | .persisting _ k _ => some k
  | _ => none

/-- The rest of the due list a task works on. -/
def batch : Phase → Option Batch
  | .listed b | .opened b _ | .named b _ _ | .claimed b _ | .loaded b _ _ | .releasing b _ | .skipMark b _ _
  | .skipPersist b _ _ | .skipRelease b _ | .tryOnce b _ _ | .drawing b _ _ | .creating b _ _ _ | .undoing b _
  | .marking b _ _ | .persisting b _ _ => some b
  | _ => none

/-- The job a coordinator has loaded under its claim. -/
def copy : Phase → Option (TickClaim × Job)
  | .loaded _ k job | .skipMark _ k job | .skipPersist _ k job | .tryOnce _ k job | .drawing _ k job
  | .creating _ k job _ | .marking _ k job | .persisting _ k job => some (k, job)
  | _ => none

/-- The clock reading a task works with. -/
def reading : Phase → Option DateTime
  | .tickOpened _ _ now | .opened _ now | .named _ now _ | .slotOpened _ now | .reclaiming now => some now
  | .claimed _ k | .loaded _ k _ | .releasing _ k | .skipMark _ k _ | .skipPersist _ k _ | .skipRelease _ k
  | .tryOnce _ k _ | .drawing _ k _ | .creating _ k _ _ | .undoing _ k | .marking _ k _ | .persisting _ k _ =>
    some k.now
  | _ => none

end Phase

/-- The part of a run that neither its start nor its end changes. -/
def Run.identity (run : Run) : Run :=
  { run with
    startedAt := none
    finishedAt := none
    durationMs := none
    status := .queued
    stdoutText := none
    stderrText := none
    errorJson := none }

section Identity

variable {run run' : Run} (same : run'.identity = run.identity)
include same

theorem identity_runId : run'.runId = run.runId := by
  have parts := congrArg Run.runId same
  exact parts

theorem identity_jobId : run'.jobId = run.jobId := by
  have parts := congrArg Run.jobId same
  exact parts

theorem identity_attempt : run'.attempt = run.attempt := by
  have parts := congrArg Run.attempt same
  exact parts

theorem identity_claimedBy : run'.claimedBy = run.claimedBy := by
  have parts := congrArg Run.claimedBy same
  exact parts

theorem identity_claimLeaseUntil : run'.claimLeaseUntil = run.claimLeaseUntil := by
  have parts := congrArg Run.claimLeaseUntil same
  exact parts

end Identity

/-- The statuses of a failed attempt. -/
def RunStatus.isFailure : RunStatus → Bool
  | .failed | .timeout => true
  | _ => false

theorem RunStatus.terminal_of_failure {status : RunStatus} (failure : status.isFailure = true) :
    status.isTerminal = true := by
  cases status <;> first | rfl | cases failure

/-- A row as `Run::new` makes it: nobody has touched it yet. -/
structure Run.Unstarted (run : Run) : Prop where
  status : run.status = .queued
  claimedBy : run.claimedBy = none
  claimLeaseUntil : run.claimLeaseUntil = none
  startedAt : run.startedAt = none
  finishedAt : run.finishedAt = none

/-- What a start changes in a copy. -/
structure Run.Started (run run' : Run) : Prop where
  status : run'.status = .running
  startedAt : run'.startedAt.isSome = true
  finishedAt : run'.finishedAt = run.finishedAt

/-- What the end of a run leaves in a copy. -/
structure Run.Finished (run : Run) : Prop where
  status : run.status.isTerminal = true
  finishedAt : run.finishedAt.isSome = true

/-- Calls that change no job row and no run status, and whose answer is not kept. -/
def Silent : Op → Prop
  | .utcNow | .newUuid | .sleep _ | .yieldNow | .panic => True
  | .store (.minNextRunAtInPartitions _) | .store (.appendRevision _) | .store (.renewRunLease _ _ _ _) => True
  | _ => False

theorem Silent.jobWrite {op : Op} (quiet : Silent op) (j : String) (r : Ans op) : Chronon.jobWrite j op r = none := by
  cases op with
  | store c => cases c <;> first | exact quiet.elim | (cases r <;> rfl)
  | _ => rfl

/-- The row `job` has the fire time an upsert computed for it from the reading `t`. -/
def ScheduledAt (host : Host) (job : Job) (t : DateTime) : Prop :=
  job.scheduleKind = .cron → job.cronExpr.isSome → job.nextRunAt = cronNextRunAt host job t

/-- The fields of a job row that only coordinators write. -/
structure SameOwned (job copy : Job) : Prop where
  jobId : job.jobId = copy.jobId
  runOnceClaimedAt : job.runOnceClaimedAt = copy.runOnceClaimedAt
  runOnceClaimedBy : job.runOnceClaimedBy = copy.runOnceClaimedBy
  runOnceCompletedAt : job.runOnceCompletedAt = copy.runOnceCompletedAt
  runOnceClaimExpiresAt : job.runOnceClaimExpiresAt = copy.runOnceClaimExpiresAt
  claimLeaseId : job.claimLeaseId = copy.claimLeaseId
  claimLeaseUntil : job.claimLeaseUntil = copy.claimLeaseUntil

/-- What an HTTP upsert carries over from the row it read: the coordinators' fields, and the fire
time of a run-once job. -/
def CarriesOver (job copy : Job) : Prop :=
  SameOwned job copy ∧ (job.scheduleKind = .runOnce → job.nextRunAt = copy.nextRunAt)

/-- `active_count` from the answer of the listing. -/
def activeCount : Result (List Run) → Int
  | .ok runs => (runs.filter fun r => r.status.isActive).length
  | .error _ => 0

/-- Every way a call takes a task from phase to phase. -/
inductive Move (host : Host) : Phase → (op : Op) → Ans op → Phase → Prop
  | silent {φ : Phase} {op : Op} {r : Ans op} : Silent op → Move host φ op r φ
  -- a tick, up to the claim
  | own {instanceId : String} {owned : List Nat} : owned ≠ [] →
      Move host (.ticking instanceId) (.ownedPartitions instanceId) owned (.owning instanceId owned)
  | ownNone {instanceId : String} : Move host (.ticking instanceId) (.ownedPartitions instanceId) [] .ticked
  | openTick {instanceId : String} {owned : List Nat} {now : DateTime} :
      Move host (.owning instanceId owned) .utcNow now (.tickOpened instanceId owned now)
  | list {instanceId : String} {now dueUntil : DateTime} {owned : List Nat} {limit : Nat} {ids : List String} :
      Move host (.tickOpened instanceId owned now) (.store (.findDueJobIdsInPartitions owned dueUntil limit)) (.ok ids)
        (.listed ⟨instanceId, dueUntil, ids⟩)
  | listFailed {instanceId : String} {now dueUntil : DateTime} {owned : List Nat} {limit : Nat} {e : ChrononError} :
      Move host (.tickOpened instanceId owned now) (.store (.findDueJobIdsInPartitions owned dueUntil limit)) (.error e)
        .ticked
  | openJob {b : Batch} {now : DateTime} : Move host (.listed b) .utcNow now (.opened b now)
  | name {b : Batch} {now : DateTime} {uuid : String} :
      Move host (.opened b now) .newUuid uuid (.named b now (b.instanceId ++ ":" ++ uuid))
  | claim {b : Batch} {now : DateTime} {claimId jobId : String} {rest : List String} : b.ids = jobId :: rest →
      Move host (.named b now claimId) (.store (.claimJobForTick jobId claimId now (jobClaimLeaseTtlSecs host.env)))
        (.ok true) (.claimed { b with ids := rest } ⟨jobId, claimId, now, jobClaimLeaseTtlSecs host.env⟩)
  | claimRefused {b : Batch} {now : DateTime} {claimId jobId : String} {rest : List String} {r : Result Bool} :
      b.ids = jobId :: rest → r ≠ .ok true →
      Move host (.named b now claimId) (.store (.claimJobForTick jobId claimId now (jobClaimLeaseTtlSecs host.env))) r
        (.listed { b with ids := rest })
  -- the decision
  | load {b : Batch} {k : TickClaim} {job : Job} :
      Move host (.claimed b k) (.store (.getJob k.jobId)) (.ok (some job)) (.loaded b k job)
  | loadMissing {b : Batch} {k : TickClaim} :
      Move host (.claimed b k) (.store (.getJob k.jobId)) (.ok none) (.releasing b k)
  | loadFailed {b : Batch} {k : TickClaim} {e : ChrononError} :
      Move host (.claimed b k) (.store (.getJob k.jobId)) (.error e) (.listed b)
  | atLimit {b : Batch} {k : TickClaim} {job : Job} {r : Result (List Run)} : activeCount r ≥ job.concurrency →
      Move host (.loaded b k job) (.store (.listRunsForJob k.jobId 10000)) r (.releasing b k)
  | misfired {b : Batch} {k : TickClaim} {job : Job} {r : Result (List Run)} : activeCount r < job.concurrency →
      shouldEnqueueForMisfire (job.nextRunAt.getD k.now) k.now job.misfirePolicy = false →
      Move host (.loaded b k job) (.store (.listRunsForJob k.jobId 10000)) r
        (if job.scheduleKind = .runOnce then .skipMark b k job else .skipPersist b k job)
  | admitted {b : Batch} {k : TickClaim} {job : Job} {r : Result (List Run)} : activeCount r < job.concurrency →
      shouldEnqueueForMisfire (job.nextRunAt.getD k.now) k.now job.misfirePolicy = true →
      Move host (.loaded b k job) (.store (.listRunsForJob k.jobId 10000)) r
        (if job.scheduleKind = .runOnce then .tryOnce b k job else .drawing b k job)
  -- the run-once claim and the run
  | once {b : Batch} {k : TickClaim} {job : Job} :
      Move host (.tryOnce b k job) (.store (.tryClaimRunOnce k.jobId b.instanceId k.now (jobClaimLeaseTtlSecs host.env)))
        (.ok true) (.drawing b k job)
  | onceRefused {b : Batch} {k : TickClaim} {job : Job} {r : Result Bool} : r ≠ .ok true →
      Move host (.tryOnce b k job) (.store (.tryClaimRunOnce k.jobId b.instanceId k.now (jobClaimLeaseTtlSecs host.env)))
        r (.releasing b k)
  | draw {b : Batch} {k : TickClaim} {job : Job} {runId : String} :
      Move host (.drawing b k job) .newUuid runId (.creating b k job runId)
  | create {b : Batch} {k : TickClaim} {job : Job} {runId : String} :
      Move host (.creating b k job runId) (.store (.createRun (tickRun job runId (job.nextRunAt.getD k.now)))) (.ok ())
        (if job.scheduleKind = .runOnce then .marking b k job else .persisting b k job)
  | createFailed {b : Batch} {k : TickClaim} {job : Job} {runId : String} {e : ChrononError} :
      Move host (.creating b k job runId) (.store (.createRun (tickRun job runId (job.nextRunAt.getD k.now)))) (.error e)
        (if job.scheduleKind = .runOnce then .undoing b k else .releasing b k)
  | undo {b : Batch} {k : TickClaim} {at' : DateTime} {r : Result Unit} :
      Move host (.undoing b k) (.store (.releaseRunOnceClaim k.jobId b.instanceId at')) r (.releasing b k)
  | mark {b : Batch} {k : TickClaim} {job : Job} {at' : DateTime} {r : Result Unit} :
      Move host (.marking b k job) (.store (.markRunOnceCompleted k.jobId at')) r (.persisting b k job)
  | persist {b : Batch} {k : TickClaim} {job : Job} {r : Result Unit} :
      Move host (.persisting b k job)
        (.store (.persistPostTickJobState k.jobId (postTickNextRunAt host job k.now))) r (.listed b)
  | release {b : Batch} {k : TickClaim} {r : Result Unit} :
      Move host (.releasing b k) (.store (.releaseJobTickClaim k.jobId)) r (.listed b)
  -- the skip
  | skipMark {b : Batch} {k : TickClaim} {job : Job} {r : Result Unit} :
      Move host (.skipMark b k job) (.store (.markRunOnceCompleted k.jobId k.now)) r (.skipPersist b k job)
  | skipPersist {b : Batch} {k : TickClaim} {job : Job} {r : Result Unit} :
      Move host (.skipPersist b k job)
        (.store (.persistPostTickJobState k.jobId (postTickNextRunAt host job k.now))) r (.skipRelease b k)
  | skipRelease {b : Batch} {k : TickClaim} {r : Result Unit} :
      Move host (.skipRelease b k) (.store (.releaseJobTickClaim k.jobId)) r (.listed b)
  -- job operations
  | lookUp {jobName : String} {r : Result (Option Job)} :
      Move host .naming (.store (.getJobByName jobName)) r
        (.editing (match r with
          | .ok copy => copy
          | .error _ => none))
  | schedule {copy : Option Job} {job : Job} {t : DateTime} : ScheduledAt host job t →
      (∀ old, copy = some old → CarriesOver job old) →
      Move host (.editing copy) .utcNow t (.writingJob copy job)
  | stamp {copy : Option Job} {job : Job} {t : DateTime} :
      Move host (.writingJob copy job) .utcNow t (.writingJob copy { job with updatedAt := t })
  | checkStored {copy : Option Job} {job : Job} {r : Result (Option Job)} :
      Move host (.writingJob copy job) (.store (.getJob job.jobId)) r (.writingJob copy job)
  | checkName {copy : Option Job} {job : Job} {r : Result (Option Job)} :
      Move host (.writingJob copy job) (.store (.getJobByName job.jobName)) r
        (match r with
          | .ok none => .writingJob none job
          | _ => .quiet)
  | write {copy : Option Job} {job : Job} {r : Result Unit} :
      Move host (.writingJob copy job) (.store (.upsertJob job)) r .quiet
  | pause {jobId : String} {r : Result Unit} :
      Move host (.jobCall (.enable false) jobId) (.store (.pauseJob jobId)) r .quiet
  | resume {jobId : String} {r : Result Unit} :
      Move host (.jobCall (.enable true) jobId) (.store (.resumeJob jobId)) r .quiet
  | delete {jobId : String} {r : Result Bool} :
      Move host (.jobCall .drop jobId) (.store (.deleteJob jobId)) r .quiet
  -- run operations
  | readJob {jobId : String} {r : Result (Option Job)} : Move host .ordering (.store (.getJob jobId)) r .ordering
  | drawFirst {runId : String} : Move host .ordering .newUuid runId (.inserting runId none none)
  | insertFirst {runId : String} {run : Run} {r : Result Unit} : run.runId = runId → run.attempt = 1 →
      run.Unstarted →
      Move host (.inserting runId none none) (.store (.createRun run)) r .quiet
  | openSlot {workerId : String} {now : DateTime} : Move host (.slotIdle workerId) .utcNow now (.slotOpened workerId now)
  | take {workerId pool : String} {now : DateTime} {run : Run} :
      Move host (.slotOpened workerId now)
        (.store (.claimNextQueued pool workerId now (runWorkerLeaseTtlSecs host.env))) (.ok (some run))
        (.copied (some workerId) run none)
  | takeNone {workerId pool : String} {now : DateTime} {r : Result (Option Run)} : (∀ run, r ≠ .ok (some run)) →
      Move host (.slotOpened workerId now)
        (.store (.claimNextQueued pool workerId now (runWorkerLeaseTtlSecs host.env))) r .quiet
  | read {runId : String} {run : Run} :
      Move host .quiet (.store (.getRun runId)) (.ok (some run)) (.copied none run none)
  | readNone {runId : String} {r : Result (Option Run)} : (∀ run, r ≠ .ok (some run)) →
      Move host .quiet (.store (.getRun runId)) r .quiet
  | readJobOf {worker : Option String} {run : Run} {jobId : String} {r : Result (Option Job)} :
      run.jobId = some jobId →
      Move host (.copied worker run none) (.store (.getJob jobId)) r
        (.copied worker run (match r with
          | .ok job => job
          | .error _ => none))
  | start {worker : Option String} {run run' : Run} {job : Option Job} :
      (worker = none → run.status = .queued ∨ run.status = .claimed) → run'.identity = run.identity →
      run.Started run' →
      Move host (.copied worker run job) (.store (.updateRun run')) (.ok ()) (.copied worker run' job)
  | startFailed {worker : Option String} {run run' : Run} {job : Option Job} {e : ChrononError} :
      (worker = none → run.status = .queued ∨ run.status = .claimed) → run'.identity = run.identity →
      run.Started run' →
      Move host (.copied worker run job) (.store (.updateRun run')) (.error e) .quiet
  | execute {workerId : String} {run : Run} {job : Job} {timeoutMs : Option Int} {ended : Option JoinOutcome} :
      Move host (.copied (some workerId) run (some job))
        (.executeScript timeoutMs ⟨run.scriptName, run.actorJson, run.paramsJson, job.jobName, run.runId⟩) ended
        (.copied (some workerId) run (some job))
  | finish {worker : Option String} {run run' : Run} {job : Option Job} {r : Result Unit} :
      (worker = none → run.status.isTerminal = false) → run'.identity = run.identity → run'.Finished →
      Move host (.copied worker run job) (.store (.updateRun run')) r .quiet
  | fail {worker : Option String} {run run' : Run} {job : Job} :
      (worker = none → run.status.isTerminal = false) → run'.identity = run.identity → run'.Finished →
      run'.status.isFailure = true → job.retryPolicy.shouldRetry run'.attempt = true →
      Move host (.copied worker run (some job)) (.store (.updateRun run')) (.ok ()) (.retrying run' job)
  | drawRetry {run : Run} {job : Job} {runId : String} :
      Move host (.retrying run job) .newUuid runId (.inserting runId (some run) (some job))
  | retry {run : Run} {job : Job} {runId : String} {scheduledFor : DateTime} {r : Result Unit} :
      Move host (.inserting runId (some run) (some job)) (.store (.createRun (retryRun run runId scheduledFor))) r .quiet
  | openReclaim {now : DateTime} : Move host .quiet .utcNow now (.reclaiming now)
  | reclaim {now : DateTime} {r : Result (List String)} :
      Move host (.reclaiming now) (.store (.reclaimExpiredRunLeases now)) r .quiet

/-- The moves to a copy of a run. -/
inductive ToCopy (host : Host) : Phase → (op : Op) → Ans op → Option String → Run → Option Job → Prop
  | silent {op : Op} {r : Ans op} {worker : Option String} {run : Run} {job : Option Job} : Silent op →
      ToCopy host (.copied worker run job) op r worker run job
  | take {workerId pool : String} {now : DateTime} {run : Run} :
      ToCopy host (.slotOpened workerId now)
        (.store (.claimNextQueued pool workerId now (runWorkerLeaseTtlSecs host.env))) (.ok (some run)) (some workerId) run none
  | read {runId : String} {run : Run} : ToCopy host .quiet (.store (.getRun runId)) (.ok (some run)) none run none
  | readJob {worker : Option String} {run : Run} {jobId : String} {job : Option Job} : run.jobId = some jobId →
      ToCopy host (.copied worker run none) (.store (.getJob jobId)) (.ok job) worker run job
  | readNoJob {worker : Option String} {run : Run} {jobId : String} {e : ChrononError} : run.jobId = some jobId →
      ToCopy host (.copied worker run none) (.store (.getJob jobId)) (.error e) worker run none
  | start {worker : Option String} {run run' : Run} {job : Option Job} :
      (worker = none → run.status = .queued ∨ run.status = .claimed) → run'.identity = run.identity →
      run.Started run' → ToCopy host (.copied worker run job) (.store (.updateRun run')) (.ok ()) worker run' job
  | execute {workerId : String} {run : Run} {job : Job} {timeoutMs : Option Int} {ended : Option JoinOutcome} :
      ToCopy host (.copied (some workerId) run (some job))
        (.executeScript timeoutMs ⟨run.scriptName, run.actorJson, run.paramsJson, job.jobName, run.runId⟩) ended
        (some workerId) run (some job)

theorem Move.toCopy {host : Host} {φ : Phase} {op : Op} {r : Ans op} {worker : Option String} {run : Run}
    {job : Option Job} (move : Move host φ op r (.copied worker run job)) : ToCopy host φ op r worker run job := by
  generalize isCopy : Phase.copied worker run job = φ' at move
  cases move with
  | silent quiet =>
    subst isCopy
    exact .silent quiet
  | take =>
    cases isCopy
    exact .take
  | read =>
    cases isCopy
    exact .read
  | readJobOf isJob =>
    rename_i r
    cases r with
    | ok found =>
      cases isCopy
      exact .readJob isJob
    | error e =>
      cases isCopy
      exact .readNoJob isJob
  | start waits same started =>
    cases isCopy
    exact .start waits same started
  | execute =>
    cases isCopy
    exact .execute
  | misfired | admitted | create | createFailed => split at isCopy <;> cases isCopy
  | checkName => split at isCopy <;> cases isCopy
  | _ => cases isCopy

/-! ## Which phases make which writes -/

section Writes

variable {host : Host} {φ φ' : Phase} {op : Op} {r : Ans op} {j : String}

theorem Move.of_claimTick (move : Move host φ op r φ') {claimId : String} {now : DateTime} {ttl : Int}
    (wrote : Wrote j op r (.claimTick claimId now ttl)) :
    ∃ b rest, φ = .named b now claimId ∧ b.ids = j :: rest ∧
      φ' = .claimed { b with ids := rest } ⟨j, claimId, now, ttl⟩ := by
  cases wrote
  cases move with
  | silent quiet => exact quiet.elim
  | claim next => exact ⟨_, _, rfl, next, rfl⟩
  | claimRefused _ refused => exact absurd rfl refused

theorem Move.of_releaseTick (move : Move host φ op r φ') (wrote : Wrote j op r .releaseTick) :
    ∃ b k, k.jobId = j ∧ (φ = .releasing b k ∨ φ = .skipRelease b k) ∧ φ' = .listed b := by
  cases wrote
  cases move with
  | silent quiet => exact quiet.elim
  | release => exact ⟨_, _, rfl, .inl rfl, rfl⟩
  | skipRelease => exact ⟨_, _, rfl, .inr rfl, rfl⟩

theorem Move.of_persist (move : Move host φ op r φ') {next : Option DateTime} (wrote : Wrote j op r (.persist next)) :
    ∃ b k job, k.jobId = j ∧ next = postTickNextRunAt host job k.now ∧
      ((φ = .persisting b k job ∧ φ' = .listed b) ∨ (φ = .skipPersist b k job ∧ φ' = .skipRelease b k)) := by
  cases wrote
  cases move with
  | silent quiet => exact quiet.elim
  | persist => exact ⟨_, _, _, rfl, rfl, .inl ⟨rfl, rfl⟩⟩
  | skipPersist => exact ⟨_, _, _, rfl, rfl, .inr ⟨rfl, rfl⟩⟩

theorem Move.of_complete (move : Move host φ op r φ') {at' : DateTime} (wrote : Wrote j op r (.complete at')) :
    ∃ b k job, k.jobId = j ∧
      ((φ = .marking b k job ∧ φ' = .persisting b k job) ∨ (φ = .skipMark b k job ∧ φ' = .skipPersist b k job)) := by
  cases wrote
  cases move with
  | silent quiet => exact quiet.elim
  | mark => exact ⟨_, _, _, rfl, .inl ⟨rfl, rfl⟩⟩
  | skipMark => exact ⟨_, _, _, rfl, .inr ⟨rfl, rfl⟩⟩

theorem Move.of_put (move : Move host φ op r φ') {job : Job} (wrote : Wrote j op r (.put job)) :
    ∃ copy, φ = .writingJob copy job ∧ φ' = .quiet := by
  cases wrote
  cases move with
  | silent quiet => exact quiet.elim
  | write => exact ⟨_, rfl, rfl⟩

end Writes

/-- Where a task starts. -/
def Proc.phase : Proc → Phase
  | .tick instanceId _ => .ticking instanceId
  | .pause jobId => .jobCall (.enable false) jobId
  | .resume jobId => .jobCall (.enable true) jobId
  | .delete jobId => .jobCall .drop jobId
  | .upsert _ => .editing none
  | .httpUpsert _ => .naming
  | .runNow _ _ _ => .ordering
  | .slot _ workerId => .slotIdle workerId
  | _ => .quiet

/-- A task may end where it holds no tick claim, has no job left on its list and no claimed run. -/
def Phase.ended : Phase → Prop
  | .copied (some _) _ _ => False
  | φ => φ.claim = none ∧ ∀ b, φ.batch = some b → b.ids = []

/-- The protocol all tasks follow. -/
def protocol (host : Host) : Protocol Op Ans Proc Phase where
  start := Proc.phase
  ended := Phase.ended
  move := Move host

end Chronon
