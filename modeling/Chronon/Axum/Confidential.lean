import Chronon.Axum.Served
import Chronon.Concurrent.Twins
import Chronon.System.Machine

/-!
# What the API never tells

The answers of the API do not depend on the actors and parameters that are stored, nor
on what scripts have printed or failed with. Two stores that differ in these only can
give the same answers to the same requests, whichever calls of which requests come
in between, and whatever others do to the store meanwhile, as long as what they change
of what is shown does not depend on the rest. Every call of the store is such a change
(`StoreCall.fromShown`), whether a tick, a worker or a reclaim makes it.
-/

namespace Chronon
set_option autoImplicit false

open Concurrent

/-! ## Related calls -/

section Alike

variable {ε α β γ δ : Type} {f : α → β} {g : γ → δ}

/-- The same error, or values that are shown alike. -/
def Alike (f : α → β) (r r' : Except ε α) : Prop := r.map f = r'.map f

theorem Alike.cases {r r' : Except ε α} (alike : Alike f r r') :
    (∃ e, r = .error e ∧ r' = .error e) ∨ ∃ a a', r = .ok a ∧ r' = .ok a' ∧ f a = f a' := by
  cases r with
  | error e =>
    cases r' with
    | error e' => exact .inl ⟨e, rfl, by rw [Except.error.inj alike]⟩
    | ok a' => cases alike
  | ok a =>
    cases r' with
    | error e' => cases alike
    | ok a' => exact .inr ⟨a, a', rfl, rfl, Except.ok.inj alike⟩

theorem Alike.cases_option {r r' : Except ε (Option α)} (alike : Alike (Option.map f) r r') :
    (∃ e, r = .error e ∧ r' = .error e) ∨ (r = .ok none ∧ r' = .ok none) ∨
      ∃ a a', r = .ok (some a) ∧ r' = .ok (some a') ∧ f a = f a' := by
  rcases alike.cases with failed | ⟨a, a', rfl, rfl, same⟩
  · exact .inl failed
  · cases a with
    | none =>
      cases a' with
      | none => exact .inr (.inl ⟨rfl, rfl⟩)
      | some a' => cases same
    | some a =>
      cases a' with
      | none => cases same
      | some a' => exact .inr (.inr ⟨a, a', rfl, rfl, Option.some.inj same⟩)

theorem Alike.bind {r r' : Except ε α} {k k' : α → Except ε γ} (alike : Alike f r r')
    (rest : ∀ a a', f a = f a' → Alike g (k a) (k' a')) : Alike g (r >>= k) (r' >>= k') := by
  rcases alike.cases with ⟨e, rfl, rfl⟩ | ⟨a, a', rfl, rfl, same⟩
  · rfl
  · exact rest a a' same

end Alike

/-- Jobs that are shown alike differ in their actor and parameters. -/
theorem Job.shown_eq {job job' : Job} (same : job.shown = job'.shown) :
    ∃ actorJson paramsJson, job' = { job with actorJson, paramsJson } := by
  refine ⟨job'.actorJson, job'.paramsJson, ?_⟩
  cases job
  cases job'
  cases same
  rfl

/-- The calls of two requests that look the same, with their answers. -/
inductive ShownPair : Pairing Op Ans
  | utcNow : ShownPair .utcNow .utcNow (· = ·)
  | newUuid : ShownPair .newUuid .newUuid (· = ·)
  | panic : ShownPair .panic .panic (· = ·)
  | getJob {id : String} : ShownPair (.store (.getJob id)) (.store (.getJob id)) (Alike (Option.map Job.shown))
  | getJobByName {name : String} :
      ShownPair (.store (.getJobByName name)) (.store (.getJobByName name)) (Alike (Option.map Job.shown))
  | listJobs : ShownPair (.store .listJobs) (.store .listJobs) (Alike (List.map Job.shown))
  | pauseJob {id : String} : ShownPair (.store (.pauseJob id)) (.store (.pauseJob id)) (· = ·)
  | resumeJob {id : String} : ShownPair (.store (.resumeJob id)) (.store (.resumeJob id)) (· = ·)
  | upsertJob {job job' : Job} : job.shown = job'.shown →
      ShownPair (.store (.upsertJob job)) (.store (.upsertJob job')) (· = ·)
  | createRun {run run' : Run} : run.shown = run'.shown →
      ShownPair (.store (.createRun run)) (.store (.createRun run')) (· = ·)
  | appendRevision {revision revision' : JobRevision} : revision.shown = revision'.shown →
      ShownPair (.store (.appendRevision revision)) (.store (.appendRevision revision')) (· = ·)
  | getRun {id : String} : ShownPair (.store (.getRun id)) (.store (.getRun id)) (Alike (Option.map Run.shown))
  | listRuns {jobId : Option String} {status : Option RunStatus} {offset limit : Nat} :
      ShownPair (.store (.listRunsFiltered jobId status offset limit)) (.store (.listRunsFiltered jobId status offset limit))
        (Alike (List.map Run.shown))
  | listRevisions {id : String} :
      ShownPair (.store (.listRevisions id)) (.store (.listRevisions id)) (Alike (List.map JobRevision.shown))

/-- Worlds that look the same: the store as it is shown, the clock, and the identifiers that have been drawn. -/
structure Looks (w w' : World) : Prop where
  store : w.store.shown = w'.store.shown
  clock : w.clock = w'.clock
  drawn : ∀ id, w.log.any (draws id) = w'.log.any (draws id)

section Answers

variable {p : Nat} {oracle : Oracle} {w w' v : World}

/-- The keys of the rows are shown. -/
theorem Looks.unused (looks : Looks w w') (id : String) : w.unused id = w'.unused id := by
  have runs := congrArg (fun s => (s.runs.lookup id).isNone) looks.store
  have jobs := congrArg (fun s => (s.jobs.lookup id).isNone) looks.store
  simp only [Store.shown_run, Store.shown_job, Option.isNone_map] at runs jobs
  unfold World.unused World.run World.job
  rw [runs, jobs, looks.drawn id]

/-- A call that answers alike, and leaves stores that look the same. -/
theorem Looks.store_call {c c' : StoreCall} {S : Result c.Ret → Result c'.Ret → Prop} {r : Result c.Ret} (looks : Looks w w')
    (alike : S (c.exec w.clock w.store).1 (c'.exec w'.clock w'.store).1)
    (left : (c.exec w.clock w.store).2.shown = (c'.exec w'.clock w'.store).2.shown)
    (ran : perform p oracle w (.store c) = some (r, v)) :
    ∃ r' v', perform p oracle w' (.store c') = some (r', v') ∧ S r r' ∧ Looks v v' := by
  cases ran
  exact ⟨_, _, rfl, alike, left, looks.clock, looks.drawn⟩

/-- A call that reads. -/
theorem Looks.read {c : StoreCall} (looks : Looks w w') (reads : ∀ clock s, (c.exec clock s).2 = s)
    {S : Result c.Ret → Result c.Ret → Prop} (alike : S (c.exec w.clock w.store).1 (c.exec w.clock w'.store).1)
    {r : Result c.Ret} (ran : perform p oracle w (.store c) = some (r, v)) :
    ∃ r' v', perform p oracle w' (.store c) = some (r', v') ∧ S r r' ∧ Looks v v' := by
  refine looks.store_call (by rwa [← looks.clock]) ?_ ran
  rw [reads, reads, looks.store]

/-- Two writes that are one write on what is shown. -/
theorem written {s s' : Store} (g f f' : Store → Result Unit × Store) (one : ∀ s, g s.shown = ((f s).1, (f s).2.shown))
    (other : ∀ s, g s.shown = ((f' s).1, (f' s).2.shown)) (same : s.shown = s'.shown) :
    (f s).1 = (f' s').1 ∧ (f s).2.shown = (f' s').2.shown := by
  have both : ((f s).1, (f s).2.shown) = ((f' s').1, (f' s').2.shown) := by rw [← one, ← other, same]
  exact Prod.mk.inj both

/-- Paired calls answer alike. -/
theorem Looks.answers {op op' : Op} {S : Ans op → Ans op' → Prop} {r : Ans op} (looks : Looks w w') (paired : ShownPair op op' S)
    (ran : perform p oracle w op = some (r, v)) :
    ∃ r' v', perform p oracle w' op' = some (r', v') ∧ S r r' ∧ Looks v v' := by
  cases paired with
  | utcNow =>
    cases ran
    exact ⟨_, _, rfl, looks.clock, looks.store, looks.clock, looks.drawn⟩
  | newUuid =>
    cases oracle with
    | uuid id =>
      simp only [perform, answer] at ran
      split at ran
      · rename_i answered
        split at answered
        · rename_i unused
          cases answered
          cases ran
          have unused' := unused
          rw [looks.unused] at unused'
          exact ⟨r, ⟨w'.state, ⟨p, w'.state, .newUuid, r⟩ :: w'.log⟩, by simp only [perform, answer, if_pos unused'], rfl,
            looks.store, looks.clock, fun other => congrArg (_ || ·) (looks.drawn other)⟩
        · cases answered
      · cases ran
    | quiet => cases ran
    | outcome ended => cases ran
  | panic => cases ran
  | @getJob id =>
    exact looks.read (fun _ _ => rfl)
      ((w.store.shown_getJob id).symm.trans (by rw [looks.store]; exact w'.store.shown_getJob id)) ran
  | @getJobByName name =>
    exact looks.read (fun _ _ => rfl)
      ((w.store.shown_getJobByName name).symm.trans (by rw [looks.store]; exact w'.store.shown_getJobByName name)) ran
  | listJobs =>
    exact looks.read (fun _ _ => rfl) (w.store.shown_listJobs.symm.trans (by rw [looks.store]; exact w'.store.shown_listJobs)) ran
  | @getRun id =>
    exact looks.read (fun _ _ => rfl)
      ((w.store.shown_getRun id).symm.trans (by rw [looks.store]; exact w'.store.shown_getRun id)) ran
  | @listRuns jobId status offset limit =>
    exact looks.read (fun _ _ => rfl) ((w.store.shown_listRunsFiltered jobId status offset limit).symm.trans
      (by rw [looks.store]; exact w'.store.shown_listRunsFiltered jobId status offset limit)) ran
  | @listRevisions id =>
    exact looks.read (fun _ _ => rfl)
      ((w.store.shown_listRevisions id).symm.trans (by rw [looks.store]; exact w'.store.shown_listRevisions id)) ran
  | @pauseJob id =>
    obtain ⟨answers, left⟩ := written (·.pauseJob w.clock id) (·.pauseJob w.clock id) (·.pauseJob w.clock id)
      (fun s => s.shown_pauseJob w.clock id) (fun s => s.shown_pauseJob w.clock id) looks.store
    exact looks.store_call (by rw [← looks.clock]; exact answers) (by rw [← looks.clock]; exact left) ran
  | @resumeJob id =>
    obtain ⟨answers, left⟩ := written (·.resumeJob w.clock id) (·.resumeJob w.clock id) (·.resumeJob w.clock id)
      (fun s => s.shown_resumeJob w.clock id) (fun s => s.shown_resumeJob w.clock id) looks.store
    exact looks.store_call (by rw [← looks.clock]; exact answers) (by rw [← looks.clock]; exact left) ran
  | @upsertJob job job' same =>
    obtain ⟨answers, left⟩ := written (·.upsertJob job.shown) (·.upsertJob job) (·.upsertJob job')
      (fun s => s.shown_upsertJob job) (fun s => same ▸ s.shown_upsertJob job') looks.store
    exact looks.store_call answers left ran
  | @createRun run run' same =>
    obtain ⟨answers, left⟩ := written (·.createRun run.shown) (·.createRun run) (·.createRun run')
      (fun s => s.shown_createRun run) (fun s => same ▸ s.shown_createRun run') looks.store
    exact looks.store_call answers left ran
  | @appendRevision revision revision' same =>
    obtain ⟨answers, left⟩ := written (·.appendRevision revision.shown)
      (·.appendRevision revision) (·.appendRevision revision') (fun s => s.shown_appendRevision revision)
      (fun s => same ▸ s.shown_appendRevision revision') looks.store
    exact looks.store_call answers left ran

end Answers

/-- Paired calls look the same. -/
theorem ShownPair.shown {op op' : Op} {S : Ans op → Ans op' → Prop} (paired : ShownPair op op' S) : op.shown = op'.shown := by
  cases paired with
  | upsertJob same => exact congrArg (fun job => Op.store (.upsertJob job)) same
  | createRun same => exact congrArg (fun run => Op.store (.createRun run)) same
  | appendRevision same => exact congrArg (fun revision => Op.store (.appendRevision revision)) same
  | _ => rfl

/-! ## Twin handlers -/

section Handlers

open Axum

variable {α β : Type}

/-- The same outcome. -/
abbrev Same (m m' : Task α) : Prop := Twin ShownPair (· = ·) m m'

theorem respondErr_twin (status : StatusCode) (error : String) :
    Same (respondErr status error : Task (StatusCode × ApiResponse α)) (respondErr status error) := by
  unfold respondErr
  split
  · exact .ret rfl
  · exact .call .panic fun never => nomatch never

/-- Answers that are made of what is shown. -/
theorem map_shown (f : α → α) (g : α → β) (sees : ∀ a, g (f a) = g a) {l l' : List α} (same : l.map f = l'.map f) :
    l.map g = l'.map g := by
  have isShown (l : List α) : l.map g = (l.map f).map g := by
    rw [List.map_map]
    exact (List.map_congr_left fun a _ => sees a).symm
  rw [isShown l, isShown l', same]

theorem jobPage_map (offset limit : Nat) (f : Job → Job) (jobs : List Job) :
    jobPage offset limit (jobs.map f) = (jobPage offset limit jobs).map f := by
  unfold jobPage
  rw [List.length_map]
  split
  · rfl
  · rw [List.map_drop, List.map_take]

theorem listJobs_twin (query : ListJobsQuery) : Same (Axum.listJobs query) (Axum.listJobs query) := by
  refine (Twin.perform .listJobs).bind fun r r' alike => ?_
  rcases alike.cases with ⟨e, rfl, rfl⟩ | ⟨jobs, jobs', rfl, rfl, same⟩
  · exact respondErr_twin _ _
  · have page (jobs : List Job) : (jobPage (query.offset.getD 0) (clampListLimit query.limit) (jobs.filter query.admits)).map
        Job.shown = jobPage (query.offset.getD 0) (clampListLimit query.limit) ((jobs.map Job.shown).filter query.admits) := by
      rw [List.filter_map, jobPage_map]
      rfl
    have both := (page jobs).trans ((congrArg (fun l => jobPage (query.offset.getD 0) (clampListLimit query.limit)
      (l.filter query.admits)) same).trans (page jobs').symm)
    have shown := map_shown Job.shown JobResponse.ofJob (fun _ => rfl) both
    dsimp only
    split
    · exact .ret (by rw [shown])
    · exact respondErr_twin _ _

theorem getJob_twin (jobId : String) : Same (Axum.getJob jobId) (Axum.getJob jobId) := by
  refine (Twin.perform .getJob).bind fun r r' alike => ?_
  rcases alike.cases_option with ⟨e, rfl, rfl⟩ | ⟨rfl, rfl⟩ | ⟨job, job', rfl, rfl, same⟩
  · exact respondErr_twin _ _
  · exact respondErr_twin _ _
  · obtain ⟨actorJson, paramsJson, rfl⟩ := Job.shown_eq same
    exact .ret rfl

theorem pauseJob_twin (req : JobActionRequest) : Same (Axum.pauseJob req) (Axum.pauseJob req) := by
  refine (Twin.perform .pauseJob).bind ?_
  rintro r _ rfl
  cases r with
  | error e => exact respondErr_twin _ _
  | ok _ => exact .ret rfl

theorem resumeJob_twin (req : JobActionRequest) : Same (Axum.resumeJob req) (Axum.resumeJob req) := by
  refine (Twin.perform .resumeJob).bind ?_
  rintro r _ rfl
  cases r with
  | error e => exact respondErr_twin _ _
  | ok _ => exact .ret rfl

theorem getJobRevisions_twin (jobId : String) : Same (Axum.getJobRevisions jobId) (Axum.getJobRevisions jobId) := by
  refine (Twin.perform .getJob).bind fun r r' alike => ?_
  rcases alike.cases_option with ⟨e, rfl, rfl⟩ | ⟨rfl, rfl⟩ | ⟨job, job', rfl, rfl, same⟩
  · exact respondErr_twin _ _
  · exact respondErr_twin _ _
  · refine (Twin.perform .listRevisions).bind fun r r' alike => ?_
    rcases alike.cases with ⟨e, rfl, rfl⟩ | ⟨revisions, revisions', rfl, rfl, same⟩
    · exact respondErr_twin _ _
    · have shown := map_shown JobRevision.shown (fun r => (⟨r.revisionId, r.revisionNumber, r.changedAt, .null,
        redactRevisionSnapshot r.snapshotJson⟩ : RevisionResponse)) (fun _ => rfl) same
      exact .ret (by rw [shown])

theorem listRuns_twin (query : ListRunsQuery) : Same (Axum.listRuns query) (Axum.listRuns query) := by
  refine (Twin.perform .listRuns).bind fun r r' alike => ?_
  rcases alike.cases with ⟨e, rfl, rfl⟩ | ⟨runs, runs', rfl, rfl, same⟩
  · exact respondErr_twin _ _
  · have shown := map_shown Run.shown RunResponse.ofRun (fun _ => rfl) same
    exact .ret (by rw [shown])

theorem getRun_twin (runId : String) : Same (Axum.getRun runId) (Axum.getRun runId) := by
  refine (Twin.perform .getRun).bind fun r r' alike => ?_
  rcases alike.cases_option with ⟨e, rfl, rfl⟩ | ⟨rfl, rfl⟩ | ⟨run, run', rfl, rfl, same⟩
  · exact respondErr_twin _ _
  · exact respondErr_twin _ _
  · have shown : RunResponse.ofRun run.shown = RunResponse.ofRun run'.shown := by rw [same]
    exact .ret (congrArg (fun response => (StatusCode.ok, ApiResponse.okay response)) shown)

/-- The run takes its actor from the job. -/
theorem runNow_twin (jobId : String) (params : Option Json) : Same (Axum.runNow jobId params) (Axum.runNow jobId params) := by
  refine Twin.bind (Q := (· = ·)) ?_ ?_
  · refine (Twin.perform .getJob).bind fun r r' alike => ?_
    rcases alike.cases_option with ⟨e, rfl, rfl⟩ | ⟨rfl, rfl⟩ | ⟨job, job', rfl, rfl, same⟩
    · exact .ret rfl
    · exact .ret rfl
    · obtain ⟨actorJson, paramsJson, rfl⟩ := Job.shown_eq same
      refine (Twin.perform .utcNow).bind ?_
      rintro now _ rfl
      refine (Twin.perform .newUuid).bind ?_
      rintro runId _ rfl
      refine (Twin.perform (.createRun rfl)).bind ?_
      rintro r _ rfl
      cases r <;> exact .ret rfl
  · rintro r _ rfl
    cases r with
    | error e => exact respondErr_twin _ _
    | ok runId => exact .ret rfl

/-! ## The upsert -/

theorem withActor_alike (req : UpsertJobRequest) {job job' : Job} (same : job.shown = job'.shown) :
    Alike Job.shown (withActor req job) (withActor req job') := by
  obtain ⟨actorJson, paramsJson, rfl⟩ := Job.shown_eq same
  unfold withActor
  cases given req.actorJson with
  | none => rfl
  | some actor =>
    dsimp only
    cases validateExternalActor actor <;> rfl

theorem withPool_alike (req : UpsertJobRequest) {job job' : Job} (same : job.shown = job'.shown) :
    Alike Job.shown (withPool req job) (withPool req job') := by
  obtain ⟨actorJson, paramsJson, rfl⟩ := Job.shown_eq same
  unfold withPool
  cases req.pool with
  | none => rfl
  | some raw =>
    dsimp only
    cases normalizePool raw <;> rfl

theorem edited_alike (req : UpsertJobRequest) {job job' : Job} (same : job.shown = job'.shown) :
    Alike Job.shown (edited req job) (edited req job') := by
  have fields : (withFields req job).shown = (withFields req job').shown := by
    obtain ⟨actorJson, paramsJson, rfl⟩ := Job.shown_eq same
    rfl
  refine (withActor_alike req fields).bind fun acted acted' same => ?_
  have policies : (withPolicies req acted).shown = (withPolicies req acted').shown := by
    obtain ⟨actorJson, paramsJson, rfl⟩ := Job.shown_eq same
    rfl
  refine (withPool_alike req policies).bind fun pooled pooled' same => ?_
  obtain ⟨actorJson, paramsJson, rfl⟩ := Job.shown_eq same
  change Alike Job.shown (.ok pooled.clampSecurityBounds) (.ok ({ pooled with actorJson, paramsJson } : Job).clampSecurityBounds)
  unfold Job.clampSecurityBounds
  dsimp only
  cases pooled.timeoutMs <;> rfl

theorem newRevision_twin {job job' : Job} (number : Int) (same : job.shown = job'.shown) :
    Twin ShownPair (fun r r' => r.shown = r'.shown) (CoordinatorService.newRevision job number)
      (CoordinatorService.newRevision job' number) := by
  obtain ⟨actorJson, paramsJson, rfl⟩ := Job.shown_eq same
  refine (Twin.perform .newUuid).bind ?_
  rintro revisionId _ rfl
  refine (Twin.perform .utcNow).bind ?_
  rintro changedAt _ rfl
  exact .ret rfl

/-- A revision, then the job. -/
theorem recorded_twin {job job' : Job} (number : Int) (same : job.shown = job'.shown) :
    Same
      (do
        let revision ← CoordinatorService.newRevision job number
        match ← call (.appendRevision revision) with
        | .error e => return .error e
        | .ok () => call (.upsertJob job))
      (do
        let revision ← CoordinatorService.newRevision job' number
        match ← call (.appendRevision revision) with
        | .error e => return .error e
        | .ok () => call (.upsertJob job')) := by
  refine (newRevision_twin number same).bind fun revision revision' sameRevision => ?_
  refine (Twin.perform (.appendRevision sameRevision)).bind ?_
  rintro r _ rfl
  cases r with
  | error e => exact .ret rfl
  | ok _ => exact Twin.perform (ShownPair.upsertJob same)

theorem storeJob_twin {job job' : Job} (same : job.shown = job'.shown) :
    Same (CoordinatorService.storeJob job) (CoordinatorService.storeJob job') := by
  obtain ⟨actorJson, paramsJson, rfl⟩ := Job.shown_eq same
  refine (Twin.perform .utcNow).bind ?_
  rintro updatedAt _ rfl
  have stamped : ({ job with updatedAt } : Job).shown = ({ job with actorJson, paramsJson, updatedAt } : Job).shown := rfl
  refine (Twin.perform .getJob).bind fun r r' alike => ?_
  rcases alike.cases_option with ⟨e, rfl, rfl⟩ | ⟨rfl, rfl⟩ | ⟨existing, existing', rfl, rfl, sameRow⟩
  · exact .ret rfl
  · refine (Twin.perform .getJobByName).bind fun r r' alike => ?_
    rcases alike.cases_option with ⟨e, rfl, rfl⟩ | ⟨rfl, rfl⟩ | ⟨holder, holder', rfl, rfl, sameHolder⟩
    · exact .ret rfl
    · exact recorded_twin 1 stamped
    · obtain ⟨_, _, rfl⟩ := Job.shown_eq sameHolder
      exact .ret rfl
  · obtain ⟨_, _, rfl⟩ := Job.shown_eq sameRow
    dsimp only
    split
    · exact .ret rfl
    · split
      · exact recorded_twin _ stamped
      · exact Twin.perform (ShownPair.upsertJob stamped)

theorem upsertJob_service_twin (host : Host) {job job' : Job} (same : job.shown = job'.shown) :
    Same (CoordinatorService.upsertJob host job) (CoordinatorService.upsertJob host job') := by
  have placed : (CoordinatorService.withPartition host job).shown = (CoordinatorService.withPartition host job').shown := by
    have fields (job : Job) : CoordinatorService.withPartition host job =
        { job with partitionHash := some (job.partitionHash.getD (partitionHashI64ForJobId host job.jobId)) } := by
      unfold CoordinatorService.withPartition
      split
      · rename_i missing
        rw [missing]
        rfl
      · rename_i hash isHash
        rw [isHash, Option.getD_some, ← isHash]
    obtain ⟨actorJson, paramsJson, rfl⟩ := Job.shown_eq same
    rw [fields, fields]
    rfl
  unfold CoordinatorService.upsertJob
  generalize CoordinatorService.withPartition host job = placedJob at placed
  generalize CoordinatorService.withPartition host job' = placedJob' at placed
  obtain ⟨actorJson, paramsJson, rfl⟩ := Job.shown_eq placed
  dsimp only
  split
  · split
    · exact .ret rfl
    · refine (Twin.perform .utcNow).bind ?_
      rintro now _ rfl
      exact storeJob_twin rfl
  · exact storeJob_twin rfl

theorem submit_twin (host : Host) {job job' : Job} (same : job.shown = job'.shown) :
    Same (submit host job) (submit host job') := by
  refine (upsertJob_service_twin host same).bind ?_
  rintro r _ rfl
  obtain ⟨actorJson, paramsJson, rfl⟩ := Job.shown_eq same
  cases r with
  | error e => exact respondErr_twin _ _
  | ok _ => exact .ret rfl

theorem upsertCopy_twin (host : Host) (req : UpsertJobRequest) {copy copy' : Job} (same : copy.shown = copy'.shown) :
    Same (upsertCopy host req copy) (upsertCopy host req copy') := by
  unfold upsertCopy
  rcases (edited_alike req same).cases with ⟨e, failed, failed'⟩ | ⟨job, job', edits, edits', same⟩
  · rw [failed, failed']
    exact respondErr_twin _ _
  · rw [edits, edits']
    obtain ⟨actorJson, paramsJson, rfl⟩ := Job.shown_eq same
    dsimp only
    split
    · split
      · refine (Twin.perform .utcNow).bind ?_
        rintro now _ rfl
        exact submit_twin host rfl
      · exact respondErr_twin _ _
    · exact submit_twin host rfl

theorem upsertJob_twin (host : Host) (req : UpsertJobRequest) : Same (Axum.upsertJob host req) (Axum.upsertJob host req) := by
  unfold Axum.upsertJob
  split
  · refine Twin.bind (Q := fun found found' => found.map Job.shown = found'.map Job.shown) ?_ ?_
    · refine (Twin.perform .getJobByName).bind fun r r' alike => ?_
      rcases alike.cases with ⟨e, rfl, rfl⟩ | ⟨found, found', rfl, rfl, same⟩
      · exact .ret rfl
      · exact .ret same
    · intro found found' same
      cases found with
      | none =>
        cases found' with
        | some _ => cases same
        | none =>
          refine (Twin.perform .utcNow).bind ?_
          rintro now _ rfl
          refine (Twin.perform .newUuid).bind ?_
          rintro jobId _ rfl
          exact upsertCopy_twin host req rfl
      | some existing =>
        cases found' with
        | none => cases same
        | some existing' =>
          obtain ⟨actorJson, paramsJson, rfl⟩ := Job.shown_eq (Option.some.inj same)
          exact upsertCopy_twin host req rfl
  · exact respondErr_twin _ _

/-! ## The routes -/

theorem answerWith_twin (body : ApiResponse α → Body) {handler : Task (StatusCode × ApiResponse α)} (twin : Same handler handler) :
    Same (answerWith body handler) (answerWith body handler) := by
  refine twin.bind ?_
  rintro response _ rfl
  exact .ret rfl

theorem extracted_twin (input : Except Rejection α) {handler : α → Task Response} (twin : ∀ a, Same (handler a) (handler a)) :
    Same (extracted input handler) (extracted input handler) := by
  cases input with
  | error rejection => exact .ret rfl
  | ok a => exact twin a

variable {Ctx : Type}

theorem route_twin (state : ChrononState Ctx) (request : ApiRequest) : Same (route state request) (route state request) := by
  cases request with
  | listJobs query => exact extracted_twin query fun query => answerWith_twin _ (listJobs_twin query)
  | upsertJob req => exact extracted_twin req fun req => answerWith_twin _ (upsertJob_twin state.host req)
  | pauseJob req => exact extracted_twin req fun req => answerWith_twin _ (pauseJob_twin req)
  | resumeJob req => exact extracted_twin req fun req => answerWith_twin _ (resumeJob_twin req)
  | runNow req => exact extracted_twin req fun req => answerWith_twin _ (runNow_twin req.jobId req.params)
  | getJob jobId => exact answerWith_twin _ (getJob_twin jobId)
  | getJobRevisions jobId => exact answerWith_twin _ (getJobRevisions_twin jobId)
  | listRuns query => exact extracted_twin query fun query => answerWith_twin _ (listRuns_twin query)
  | getRun runId => exact answerWith_twin _ (getRun_twin runId)
  | listScripts => exact .ret rfl

theorem chrononRouter_twin (state : ChrononState Ctx) (parts : Parts) (request : ApiRequest) :
    Same (chrononRouter state parts request) (chrononRouter state parts request) := by
  unfold chrononRouter
  cases requireAdmin state parts with
  | error message => exact .ret rfl
  | ok _ => exact route_twin state request

end Handlers

/-! ## Runs -/

/-- The same request, paired calls, or the same answer. -/
inductive RouterPair : Pairing RouterOp RouterAns
  | receive {incoming : Incoming} : RouterPair (.receive incoming) (.receive incoming) fun _ _ => True
  | task {op op' : Op} {S : Ans op → Ans op' → Prop} : ShownPair op op' S → RouterPair (.task op) (.task op') S
  | respond {response : Axum.Response} : RouterPair (.respond response) (.respond response) fun _ _ => True

/-- The worlds look the same, and the same has been seen. -/
structure SameSeen (w w' : Served) : Prop where
  looks : Looks w.world w'.world
  seen : w.seen = w'.seen

/-- Others change what is shown by what is shown. -/
def Discreet (e : Around) : Prop := ∀ change, e = .others change → FromShown change

theorem router_twins {Ctx : Type} (state : Axum.ChrononState Ctx) : (router state).Twins RouterPair SameSeen Discreet where
  code incoming := by
    refine (Twin.perform RouterPair.receive).bind fun _ _ _ => ?_
    refine ((chrononRouter_twin state incoming.parts incoming.request).embed fun _ _ _ => RouterPair.task).bind ?_
    rintro response _ rfl
    exact (Twin.perform RouterPair.respond).mono fun _ _ _ => trivial
  exec := by
    rintro p oracle w w' v op op' S r ⟨looks, seen⟩ paired runs
    cases paired with
    | @receive incoming =>
      cases runs
      exact ⟨(), _, rfl, trivial, looks, congrArg (Seen.request p incoming :: ·) seen⟩
    | @task op op' S paired =>
      obtain ⟨done, ran, isDone⟩ := Option.map_eq_some_iff.mp runs
      cases isDone
      obtain ⟨r', world', ran', answers, looks'⟩ := looks.answers paired ran
      exact ⟨r', ⟨world', .call p op'.shown :: w'.seen⟩, Option.map_eq_some_iff.mpr ⟨_, ran', rfl⟩, answers, looks',
        congrArg₂ (fun op seen => Seen.call p op :: seen) paired.shown seen⟩
    | @respond response =>
      cases runs
      exact ⟨(), _, rfl, trivial, looks, congrArg (Seen.response p response :: ·) seen⟩
  drift := by
    rintro e w w' v ⟨looks, seen⟩ discreet drifts
    have seen' := congrArg (Seen.around e :: ·) seen
    obtain ⟨clock, rfl, later, rfl⟩ | ⟨change, rfl, rfl⟩ := Served.drift_cases drifts
    · have later' : w'.world.clock ≤ clock := looks.clock ▸ later
      refine ⟨.advance clock, ⟨{ w'.world with state := { w'.world.state with clock } }, .around (.advance clock) :: w'.seen⟩, discreet, ?_,
        ⟨looks.store, rfl, looks.drawn⟩, seen'⟩
      simp only [router, Served.drift, Chronon.drift, if_pos later', Option.map_some]
    · exact ⟨.others change, _, discreet, rfl, ⟨discreet change rfl _ _ looks.store, looks.clock, looks.drawn⟩, seen'⟩

/-- **What is not shown is never told**: what can be seen of requests to the one store, their calls, their answers and what
others do meanwhile can be seen of the other. -/
theorem never_told {Ctx : Type} (state : Axum.ChrononState Ctx) {s s' : State} (alike : s.store.shown = s'.store.shown)
    (clock : s.clock = s'.clock) {c : Config RouterOp RouterAns Served}
    (reach : (router state).Reach (fun l _ _ => l.Within Discreet) (.idle (.fresh s)) c) :
    ∃ c', (router state).Reach (fun l _ _ => l.Within Discreet) (.idle (.fresh s')) c' ∧ c'.world.seen = c.world.seen := by
  have twins : TwinConfigs RouterPair SameSeen (.idle (.fresh s)) (.idle (.fresh s')) :=
    .idle ⟨⟨alike, clock, fun _ => rfl⟩, rfl⟩
  obtain ⟨c', reached, twins'⟩ := twins.reach (router_twins state) reach
  exact ⟨c', reached, twins'.world.seen.symm⟩

/-- A host that lets everybody in. -/
def openState : Axum.ChrononState Unit :=
  ((Axum.ChrononStateBuilder.builder .simple noopRegistry noopRegistry_names none).adminAuth Axum.AllowAllAdminAuth).state

/-- The same job with a secret among its parameters. -/
def secretJob : Job := { minutelyJob with paramsJson := .obj [("password", .str "hunter2")] }

/-- A worker takes the run. -/
def workerClaims : Around := .others fun s => ((StoreCall.claimRunById "r" "general" "w1" 1000000000 30).exec 0 s).2

/-- A run is asked for and shown, and a worker takes it. -/
theorem never_told_run_now : ∃ c c',
    (router openState).Reach (fun l _ _ => l.Within Discreet) (.idle (.fresh (.single secretJob 0))) c ∧ c.world.seen.length = 10 ∧
      (router openState).Reach (fun l _ _ => l.Within Discreet) (.idle (.fresh (.single minutelyJob 0))) c' ∧
        c'.world.seen = c.world.seen := by
  have played : ((router openState).play (fun l _ _ => l.Within fun _ => False)
      [.start 0 ⟨⟨"POST", "/jobs/run-now", []⟩, .runNow (.ok ⟨"j", none⟩)⟩, .call 0 .quiet, .call 0 .quiet, .call 0 .quiet,
        .call 0 (.uuid "r"), .call 0 .quiet, .call 0 .quiet, .start 1 ⟨⟨"GET", "/runs/r", []⟩, .getRun "r"⟩, .call 1 .quiet,
        .call 1 .quiet, .call 1 .quiet]
      (.idle (.fresh (.single secretJob 0)))).any (·.world.seen.length == 9) = true := by decide +kernel
  obtain ⟨c, reach, length⟩ := Machine.Reach.of_play_any played
  have byRequests : (router openState).Reach (fun l _ _ => l.Within Discreet) (.idle (.fresh (.single secretJob 0))) c :=
    reach.mono fun _ _ _ within => within.mono fun _ none => none.elim
  have discreet : Discreet workerClaims := by
    rintro _ ⟨⟩
    exact StoreCall.fromShown _ 0
  obtain ⟨d, moves, more⟩ : ∃ d, (router openState).step c (.env workerClaims) = some (.env workerClaims, d) ∧
      d.world.seen.length = c.world.seen.length + 1 := ⟨_, rfl, rfl⟩
  have claimed := byRequests.step moves fun e isEnv => Label.env.inj isEnv ▸ discreet
  have alike : (State.single secretJob 0).store.shown = (State.single minutelyJob 0).store.shown := rfl
  obtain ⟨c', reach', seen⟩ := never_told openState alike rfl claimed
  exact ⟨d, c', claimed, more.trans (congrArg (· + 1) (beq_iff_eq.mp length)), reach', seen⟩

end Chronon
