import Chronon.Mem.Calls

/-!
# What the API shows of the store

A job without its actor and parameters, a revision without these, and a run by the
fields its response has and its lease, which decides on the claims that a response
shows. Every operation of the store makes what is shown from what is shown: it can
be performed on the store, or on what is shown of it.
-/

namespace Chronon
set_option autoImplicit false

open Collections

/-- A job without its actor and parameters. -/
def Job.shown (job : Job) : Job := { job with actorJson := .null, paramsJson := .null }

/-- A run by the fields of its response, and its lease. -/
def Run.shown (run : Run) : Run :=
  { Run.new run.runId run.scriptName run.scheduledFor with
    jobId := run.jobId
    startedAt := run.startedAt
    finishedAt := run.finishedAt
    durationMs := run.durationMs
    status := run.status
    attempt := run.attempt
    poolId := run.poolId
    claimedBy := run.claimedBy
    claimLeaseUntil := run.claimLeaseUntil }

def JobRevision.shown (revision : JobRevision) : JobRevision :=
  { revision with changedByActorJson := .null, snapshotJson := revision.snapshotJson.shown }

theorem Job.shown_jobId (job : Job) : job.shown.jobId = job.jobId := rfl

theorem Run.shown_runId (run : Run) : run.shown.runId = run.runId := rfl

/-- The revisions of a job, under its identifier. -/
def shownRevisions (e : String × List JobRevision) : String × List JobRevision := (e.1, e.2.map JobRevision.shown)

theorem shownRevisions_fst (e : String × List JobRevision) : (shownRevisions e).1 = e.1 := rfl

namespace Store

/-- The tables the API reads, as it shows them. -/
def shown (s : Store) : Store :=
  { new with
    jobs := s.jobs.mapRows Job.shown Job.shown_jobId
    jobsByName := s.jobsByName
    runs := s.runs.mapRows Run.shown Run.shown_runId
    revisions := s.revisions.mapRows shownRevisions shownRevisions_fst }

variable (s : Store)

theorem shown_job (jobId : String) : s.shown.jobs.lookup jobId = (s.jobs.lookup jobId).map Job.shown :=
  Table.lookup_mapRows s.jobs Job.shown Job.shown_jobId jobId

theorem shown_run (runId : String) : s.shown.runs.lookup runId = (s.runs.lookup runId).map Run.shown :=
  Table.lookup_mapRows s.runs Run.shown Run.shown_runId runId

theorem shown_name (jobName : String) : s.shown.jobsByName.lookup jobName = s.jobsByName.lookup jobName := rfl

theorem shown_setJob (job : Job) : (s.setJob job).shown = s.shown.setJob job.shown := by
  unfold shown setJob
  dsimp only
  rw [Table.mapRows_insert s.jobs Job.shown Job.shown_jobId]

theorem shown_setRun (run : Run) : (s.setRun run).shown = s.shown.setRun run.shown := by
  unfold shown setRun
  dsimp only
  rw [Table.mapRows_insert s.runs Run.shown Run.shown_runId]

/-! ## Reading -/

theorem shown_getJob (jobId : String) : s.shown.getJob jobId = (s.getJob jobId).map (Option.map Job.shown) :=
  congrArg Except.ok (s.shown_job jobId)

theorem shown_getJobByName (jobName : String) :
    s.shown.getJobByName jobName = (s.getJobByName jobName).map (Option.map Job.shown) := by
  unfold getJobByName
  rw [shown_name]
  cases s.jobsByName.lookup jobName with
  | none => rfl
  | some entry => exact s.shown_getJob entry.2

theorem shown_listJobs : s.shown.listJobs = (s.listJobs).map (List.map Job.shown) := rfl

theorem shown_getRun (runId : String) : s.shown.getRun runId = (s.getRun runId).map (Option.map Run.shown) :=
  congrArg Except.ok (s.shown_run runId)

/-- Runs are filtered and sorted by what is shown of them. -/
theorem shown_listRunsFiltered (jobId : Option String) (status : Option RunStatus) (offset limit : Nat) :
    s.shown.listRunsFiltered jobId status offset limit =
      (s.listRunsFiltered jobId status offset limit).map (List.map Run.shown) := by
  have filtered : s.shown.runs.rows.filter (fun r => jobId.all (fun id => r.jobId = some id) && status.all (r.status = ·)) =
      (s.runs.rows.filter fun r => jobId.all (fun id => r.jobId = some id) && status.all (r.status = ·)).map Run.shown :=
    List.filter_map
  have sorted (runs : List Run) : latestFirst (runs.map Run.shown) = (latestFirst runs).map Run.shown :=
    (List.map_insertionSort _ _ Run.shown runs fun _ _ _ _ => Iff.rfl).symm
  unfold listRunsFiltered
  dsimp only
  rw [filtered, sorted, ← List.map_drop, ← List.map_take]
  rfl

theorem shown_listRevisions (jobId : String) :
    s.shown.listRevisions jobId = (s.listRevisions jobId).map (List.map JobRevision.shown) := by
  have found : s.shown.revisions.lookup jobId =
      (s.revisions.lookup jobId).map shownRevisions := Table.lookup_mapRows s.revisions shownRevisions shownRevisions_fst jobId
  unfold listRevisions
  rw [found]
  cases s.revisions.lookup jobId <;> rfl

/-! ## Writing -/

theorem shown_upsertJob (job : Job) :
    s.shown.upsertJob job.shown = ((s.upsertJob job).1, (s.upsertJob job).2.shown) := by
  have previous : s.shown.jobs.lookup job.shown.jobId = (s.jobs.lookup job.jobId).map Job.shown := s.shown_job job.jobId
  have written (byName : Table (Prod.fst : String × String → String)) :
      ({ s with jobsByName := byName.insert (job.jobName, job.jobId), jobs := s.jobs.insert job } : Store).shown =
        { s.shown with
          jobsByName := byName.insert (job.shown.jobName, job.shown.jobId)
          jobs := s.shown.jobs.insert job.shown } := by
    unfold shown
    dsimp only
    rw [Table.mapRows_insert s.jobs Job.shown Job.shown_jobId]
    rfl
  have holder : s.shown.jobsByName.lookup job.shown.jobName = s.jobsByName.lookup job.jobName := s.shown_name job.jobName
  unfold upsertJob writeJob
  rw [previous, holder]
  cases s.jobsByName.lookup job.jobName with
  | none =>
    dsimp only
    rw [written]
    cases s.jobs.lookup job.jobId <;> rfl
  | some entry =>
    dsimp only
    by_cases other : entry.2 ≠ job.jobId
    · rw [if_pos other]
      exact if_pos other
    · rw [if_neg other]
      refine (if_neg other).trans ?_
      dsimp only
      rw [written]
      cases s.jobs.lookup job.jobId <;> rfl

theorem shown_mutateJobAt (jobId : String) (now : DateTime) {f : Job → Job} (same : ∀ job, (f job).shown = f job.shown) :
    s.shown.mutateJobAt jobId now f = ((s.mutateJobAt jobId now f).1, (s.mutateJobAt jobId now f).2.shown) := by
  unfold mutateJobAt
  rw [shown_job]
  cases s.jobs.lookup jobId with
  | none => rfl
  | some job =>
    have stamped : ({ f job with updatedAt := now } : Job).shown = { f job.shown with updatedAt := now } := by
      rw [← same job]
      rfl
    exact congrArg (Prod.mk _) ((s.shown_setJob _).trans (by rw [stamped])).symm

theorem shown_pauseJob (clock : DateTime) (jobId : String) :
    s.shown.pauseJob clock jobId = ((s.pauseJob clock jobId).1, (s.pauseJob clock jobId).2.shown) :=
  s.shown_mutateJobAt jobId clock fun _ => rfl

theorem shown_resumeJob (clock : DateTime) (jobId : String) :
    s.shown.resumeJob clock jobId = ((s.resumeJob clock jobId).1, (s.resumeJob clock jobId).2.shown) :=
  s.shown_mutateJobAt jobId clock fun _ => rfl

theorem shown_createRun (run : Run) :
    s.shown.createRun run.shown = ((s.createRun run).1, (s.createRun run).2.shown) :=
  congrArg (Prod.mk _) (s.shown_setRun run).symm

theorem shown_appendRevision (revision : JobRevision) :
    s.shown.appendRevision revision.shown = ((s.appendRevision revision).1, (s.appendRevision revision).2.shown) := by
  have earlier : s.shown.revisions.lookup revision.shown.jobId =
      (s.revisions.lookup revision.jobId).map shownRevisions :=
    Table.lookup_mapRows s.revisions shownRevisions shownRevisions_fst revision.jobId
  have written (revisions : List JobRevision) :
      ({ s with revisions := s.revisions.insert (revision.jobId, revisions ++ [revision]) } : Store).shown =
        { s.shown with
          revisions := s.shown.revisions.insert (revision.jobId, revisions.map JobRevision.shown ++ [revision.shown]) } := by
    unfold shown
    dsimp only
    rw [Table.mapRows_insert s.revisions shownRevisions shownRevisions_fst, shownRevisions, List.map_append]
    rfl
  unfold appendRevision
  dsimp only
  rw [earlier, written]
  cases s.revisions.lookup revision.jobId <;> rfl

theorem shown_tryClaimRunOnce (jobId claimedBy : String) (now : DateTime) (ttl : Int) :
    (s.tryClaimRunOnce jobId claimedBy now ttl).2.shown = (s.shown.tryClaimRunOnce jobId claimedBy now ttl).2 := by
  unfold tryClaimRunOnce
  rw [shown_job]
  cases s.jobs.lookup jobId with
  | none => rfl
  | some job =>
    have completed : job.shown.runOnceCompletedAt = job.runOnceCompletedAt := rfl
    have held : (job.shown.runOnceClaimedAt.isSome && job.shown.runOnceClaimExpiresAt.any (· > now) &&
        job.shown.runOnceClaimedBy != some claimedBy) = (job.runOnceClaimedAt.isSome &&
        job.runOnceClaimExpiresAt.any (· > now) && job.runOnceClaimedBy != some claimedBy) := rfl
    simp only [Option.map_some, completed, held]
    split
    · rfl
    · split
      · rfl
      · exact s.shown_setJob _

theorem shown_claimJobForTick (jobId claimId : String) (now : DateTime) (ttl : Int) :
    (s.claimJobForTick jobId claimId now ttl).2.shown = (s.shown.claimJobForTick jobId claimId now ttl).2 := by
  unfold claimJobForTick
  rw [shown_job]
  cases s.jobs.lookup jobId with
  | none => rfl
  | some job =>
    have enabled : job.shown.enabled = job.enabled := rfl
    have lease : job.shown.claimLeaseUntil = job.claimLeaseUntil := rfl
    simp only [Option.map_some, enabled, lease]
    split
    · rfl
    · split
      · rfl
      · exact s.shown_setJob _

theorem shown_deleteJob (jobId : String) : (s.deleteJob jobId).2.shown = (s.shown.deleteJob jobId).2 := by
  unfold deleteJob removeJob
  rw [shown_job]
  cases s.jobs.lookup jobId with
  | none => rfl
  | some job =>
    unfold shown
    dsimp only [Option.map_some]
    rw [Table.mapRows_erase s.jobs Job.shown Job.shown_jobId,
      Table.mapRows_erase s.revisions shownRevisions shownRevisions_fst]
    rfl

theorem shown_updateRun (run : Run) : (s.updateRun run).2.shown = (s.shown.updateRun run.shown).2 := by
  unfold updateRun
  rw [show s.shown.runs.lookup run.shown.runId = _ from s.shown_run run.runId]
  cases s.runs.lookup run.runId with
  | none => rfl
  | some _ => exact s.shown_setRun run

/-- The loop of `claim_next_queued` finds the same run by what is shown. -/
theorem shown_earlier (poolId : String) (now : DateTime) (runs : List Run) (candidate : Option Run) :
    (runs.map Run.shown).foldl (earlier poolId now) (candidate.map Run.shown) =
      (runs.foldl (earlier poolId now) candidate).map Run.shown := by
  induction runs generalizing candidate with
  | nil => rfl
  | cons run runs ih =>
    have next : earlier poolId now (candidate.map Run.shown) run.shown = (earlier poolId now candidate run).map Run.shown := by
      have free : claimable poolId now run.shown = claimable poolId now run := rfl
      unfold earlier
      rw [free]
      split
      · cases candidate with
        | none => rfl
        | some best =>
          have sooner : (run.shown.scheduledFor < best.shown.scheduledFor) = (run.scheduledFor < best.scheduledFor) := rfl
          simp only [Option.map_some, sooner]
          split <;> rfl
      · rfl
    rw [List.map_cons, List.foldl_cons, List.foldl_cons, next, ih]

theorem shown_claimNextQueued (poolId workerId : String) (now : DateTime) (ttl : Int) :
    (s.claimNextQueued poolId workerId now ttl).2.shown = (s.shown.claimNextQueued poolId workerId now ttl).2 := by
  have found : s.shown.runs.rows.foldl (earlier poolId now) none =
      (s.runs.rows.foldl (earlier poolId now) none).map Run.shown := shown_earlier poolId now s.runs.rows none
  unfold claimNextQueued
  rw [found]
  cases s.runs.rows.foldl (earlier poolId now) none with
  | none => rfl
  | some run => exact s.shown_setRun _

theorem shown_claimRunById (runId poolId workerId : String) (now : DateTime) (ttl : Int) :
    (s.claimRunById runId poolId workerId now ttl).2.shown = (s.shown.claimRunById runId poolId workerId now ttl).2 := by
  unfold claimRunById
  rw [shown_run]
  cases s.runs.lookup runId with
  | none => rfl
  | some run =>
    have free : claimable poolId now run.shown = claimable poolId now run := rfl
    simp only [Option.map_some, free]
    split
    · exact s.shown_setRun _
    · rfl

theorem shown_renewRunLease (runId workerId : String) (now : DateTime) (ttl : Int) :
    (s.renewRunLease runId workerId now ttl).2.shown = (s.shown.renewRunLease runId workerId now ttl).2 := by
  unfold renewRunLease
  rw [shown_run]
  cases s.runs.lookup runId with
  | none => rfl
  | some run =>
    have holder : run.shown.claimedBy = run.claimedBy := rfl
    have active : leased run.shown = leased run := rfl
    simp only [Option.map_some, holder, active]
    split
    · rfl
    · split
      · rfl
      · exact s.shown_setRun _

theorem shown_reclaimed (now : DateTime) (run : Run) : (reclaimed now run).shown = reclaimed now run.shown := by
  have expired : leaseExpired now run.shown = leaseExpired now run := rfl
  unfold reclaimed
  rw [expired]
  split <;> rfl

theorem shown_reclaimExpiredRunLeases (now : DateTime) :
    (s.reclaimExpiredRunLeases now).2.shown = (s.shown.reclaimExpiredRunLeases now).2 := by
  have rows : (s.runs.mapRows (reclaimed now) (reclaimed_runId now)).mapRows Run.shown Run.shown_runId =
      (s.runs.mapRows Run.shown Run.shown_runId).mapRows (reclaimed now) (reclaimed_runId now) :=
    Table.mapRows_comm s.runs fun run => shown_reclaimed now run
  unfold reclaimExpiredRunLeases shown
  dsimp only
  rw [rows]

end Store

/-- A call by what is shown of its arguments. -/
def StoreCall.shown : StoreCall → StoreCall
  | .upsertJob job => .upsertJob job.shown
  | .createRun run => .createRun run.shown
  | .updateRun run => .updateRun run.shown
  | .appendRevision revision => .appendRevision revision.shown
  | c => c

/-- What a change makes of what is shown depends on what is shown. -/
def FromShown (change : Store → Store) : Prop := ∀ s s', s.shown = s'.shown → (change s).shown = (change s').shown

theorem FromShown.of_shown {change : Store → Store} (g : Store → Store) (one : ∀ s, (change s).shown = g s.shown) :
    FromShown change := by
  intro s s' same
  rw [one, one, same]

theorem FromShown.mutateJobAt (jobId : String) (now : DateTime) (f : Job → Job) (same : ∀ job, (f job).shown = f job.shown) :
    FromShown fun s => (s.mutateJobAt jobId now f).2 :=
  .of_shown (fun s => (s.mutateJobAt jobId now f).2) fun s => (congrArg Prod.snd (s.shown_mutateJobAt jobId now same)).symm

/-- Every call of the store, whoever makes it, is such a change. -/
theorem StoreCall.fromShown (c : StoreCall) (clock : DateTime) : FromShown fun s => (c.exec clock s).2 := by
  have kept {change : Store → Store} (same : ∀ s, (change s).shown = s.shown) : FromShown change := .of_shown id same
  cases c with
  | upsertJob job =>
    exact .of_shown (fun s => (s.upsertJob job.shown).2) fun s => (congrArg Prod.snd (s.shown_upsertJob job)).symm
  | pauseJob jobId => exact .mutateJobAt jobId clock _ fun _ => rfl
  | resumeJob jobId => exact .mutateJobAt jobId clock _ fun _ => rfl
  | deleteJob jobId => exact .of_shown (fun s => (s.deleteJob jobId).2) fun s => s.shown_deleteJob jobId
  | createRun run =>
    exact .of_shown (fun s => (s.createRun run.shown).2) fun s => (congrArg Prod.snd (s.shown_createRun run)).symm
  | updateRun run => exact .of_shown (fun s => (s.updateRun run.shown).2) fun s => s.shown_updateRun run
  | claimNextQueued poolId workerId now ttl =>
    exact .of_shown (fun s => (s.claimNextQueued poolId workerId now ttl).2) fun s =>
      s.shown_claimNextQueued poolId workerId now ttl
  | claimRunById runId poolId workerId now ttl =>
    exact .of_shown (fun s => (s.claimRunById runId poolId workerId now ttl).2) fun s =>
      s.shown_claimRunById runId poolId workerId now ttl
  | renewRunLease runId workerId now ttl =>
    exact .of_shown (fun s => (s.renewRunLease runId workerId now ttl).2) fun s => s.shown_renewRunLease runId workerId now ttl
  | reclaimExpiredRunLeases now =>
    exact .of_shown (fun s => (s.reclaimExpiredRunLeases now).2) fun s => s.shown_reclaimExpiredRunLeases now
  | appendRevision revision =>
    exact .of_shown (fun s => (s.appendRevision revision.shown).2) fun s =>
      (congrArg Prod.snd (s.shown_appendRevision revision)).symm
  | tryClaimRunOnce jobId claimedBy now ttl =>
    exact .of_shown (fun s => (s.tryClaimRunOnce jobId claimedBy now ttl).2) fun s =>
      s.shown_tryClaimRunOnce jobId claimedBy now ttl
  | claimJobForTick jobId claimId now ttl =>
    exact .of_shown (fun s => (s.claimJobForTick jobId claimId now ttl).2) fun s => s.shown_claimJobForTick jobId claimId now ttl
  | markRunOnceCompleted jobId completedAt =>
    exact .mutateJobAt jobId clock _ fun _ => rfl
  | releaseRunOnceClaim jobId claimedBy now =>
    refine .mutateJobAt jobId now _ fun job => ?_
    have holder : job.shown.runOnceClaimedBy = job.runOnceClaimedBy := rfl
    rw [holder]
    split <;> rfl
  | releaseJobTickClaim jobId => exact .mutateJobAt jobId clock _ fun _ => rfl
  | persistPostTickJobState jobId nextRunAt => exact .mutateJobAt jobId clock _ fun _ => rfl
  | tryAcquireLeader instanceId ttl =>
    refine kept fun s => ?_
    simp only [exec, Store.tryAcquireLeader]
    split
    · split <;> rfl
    · rfl
  | renewLeaderLease instanceId ttl =>
    refine kept fun s => ?_
    simp only [exec, Store.renewLeaderLease]
    split
    · rfl
    · split <;> rfl
  | heartbeatWorker workerId at' =>
    refine kept fun s => ?_
    simp only [exec, Store.heartbeatWorker]
    split <;> rfl
  | _ => exact kept fun _ => rfl

end Chronon
