import Chronon.Edit.RunOnceDue
import Chronon.Tick.Outcome

/-!
# Actors of jobs written over HTTP

HTTP upserts, in-process upserts, ticks and HTTP `run_now`, one after another.
The actor policy inspects the actor a request sends. A request that sends none
keeps the actor of the row it edits, which an in-process writer may have given
any shape, and a new job gets no actor at all.
-/

namespace Chronon
set_option autoImplicit false

/-- An actor that external callers must not use. -/
def privileged (actor : Json) : Bool := Axum.isSystemShapedActor actor || Axum.isServiceUserShapedActor actor

/-- Who wrote a job. -/
inductive Writer where
  | http
  | inProcess
  deriving DecidableEq

/-- What was done: an accepted upsert with the job it stored, a tick, or a `run_now` over HTTP. -/
inductive Deed where
  | http (req : Axum.UpsertJobRequest) (jobId : String)
  | inProcess (jobId : String)
  | tick
  | runNow

structure WriteStep where
  before : World
  after : World
  deed : Deed

/-- Accepted upserts of both kinds, ticks and HTTP runs one after another, latest first. -/
inductive Written (host : Host) (w : World) : List WriteStep → World → Prop
  | start : Written host w [] w
  | http {history : List WriteStep} {before after : World} {req : Axum.UpsertJobRequest}
      {response : Axum.ApiResponse Axum.JobResponse} {data : Axum.JobResponse} : Written host w history before →
      Ends .calm (Axum.upsertJob host req) before (some (.ok, response)) after → response.data = some data →
      Written host w (⟨before, after, .http req data.jobId⟩ :: history) after
  | inProcess {history : List WriteStep} {before after : World} {job : Job} : Written host w history before →
      Ends .calm (CoordinatorService.upsertJob host job) before (some (.ok ())) after →
      Written host w (⟨before, after, .inProcess job.jobId⟩ :: history) after
  | tick {history : List WriteStep} {before after : World} {instanceId : String} {draining : Bool}
      {out : Option (TickResult × Bool)} : Written host w history before →
      Ends .calm (runOneTick host instanceId draining) before out after →
      Written host w (⟨before, after, .tick⟩ :: history) after
  | runNow {history : List WriteStep} {before after : World} {jobId : String} {params : Option Json}
      {out : Option (Axum.StatusCode × Axum.ApiResponse String)} : Written host w history before →
      Ends .calm (Axum.runNow jobId params) before out after →
      Written host w (⟨before, after, .runNow⟩ :: history) after
  | drift {history : List WriteStep} {before after : World} {e : Env} : Written host w history before →
      drift e before = some after → Written host w history after

/-- Who wrote job `j` last. -/
def lastWriter (j : String) : List WriteStep → Option Writer
  | [] => none
  | step :: older =>
    match step.deed with
    | .http _ jobId => if jobId = j then some .http else lastWriter j older
    | .inProcess jobId => if jobId = j then some .inProcess else lastWriter j older
    | .tick | .runNow => lastWriter j older

/-- The jobs that were written over HTTP last have no privileged actor. -/
def JobsSafe (history : List WriteStep) (w : World) : Prop :=
  ∀ j row, lastWriter j history = some .http → w.job j = some row → privileged row.actorJson = false

/-- The runs a step created have no privileged actor, if their job was written over HTTP last. -/
def WriteStep.RunsSafe (step : WriteStep) (older : List WriteStep) : Prop :=
  ∀ id run j, step.before.run id = none → step.after.run id = some run → run.jobId = some j →
    lastWriter j older = some .http → privileged run.actorJson = false

/-- So have all runs created in a history. -/
def RunsSafeThroughout : List WriteStep → Prop
  | [] => True
  | step :: older => step.RunsSafe older ∧ RunsSafeThroughout older

/-- A job created over HTTP without an actor has the default one. -/
def WriteStep.DefaultActor (defaultActor : Json) (step : WriteStep) : Prop :=
  ∀ req id row, step.deed = .http req id → step.before.job id = none → Axum.given req.actorJson = none →
    step.after.job id = some row → row.actorJson = defaultActor

/-- External callers do not drive privileged identities. -/
structure Confined (defaultActor : Json) (history : List WriteStep) (w : World) : Prop where
  jobs : JobsSafe history w
  runs : RunsSafeThroughout history
  created : ∀ step ∈ history, step.DefaultActor defaultActor

/-- A request without an actor edits a job without a privileged one, or there is no default to miss. -/
def WriteStep.ActorGiven (defaultActor : Json) (step : WriteStep) : Prop :=
  ∀ req id, step.deed = .http req id → Axum.given req.actorJson = none →
    (∀ row, step.before.store.getJobByName req.jobName = .ok (some row) → privileged row.actorJson = false) ∧
      (step.before.store.getJobByName req.jobName = .ok none → defaultActor = .null)

/-! ## Where actors come from -/

/-- Every job has the actor it had in `base`, and every new run that of its job there. -/
structure ActorsFrom (base s : Store) : Prop where
  jobs : ∀ j row', s.jobs.lookup j = some row' → ∃ row, base.jobs.lookup j = some row ∧ row'.actorJson = row.actorJson
  runs : ∀ id run, base.runs.lookup id = none → s.runs.lookup id = some run →
    ∃ j row, run.jobId = some j ∧ base.jobs.lookup j = some row ∧ run.actorJson = row.actorJson

section Actors

variable {around : Surroundings} {host : Host} {base : Store} {instanceId jobId : String} {w w' : World}

theorem ActorsFrom.refl (s : Store) : ActorsFrom s s := by
  refine ⟨fun j row stored => ⟨row, stored, rfl⟩, fun id run absent stored => ?_⟩
  rw [absent] at stored
  cases stored

theorem fired_actorJson (host : Host) (row : Job) (now completedAt stamp : DateTime) :
    (fired host row now completedAt stamp).actorJson = row.actorJson := by
  simp only [fired, completedOnce]
  split <;> rfl

theorem ActorsFrom.enqueued (actors : ActorsFrom base w.store) (enqueued : Enqueued host instanceId jobId w w') :
    ActorsFrom base w'.store := by
  constructor
  · intro j row' stored'
    rcases enqueued.jobs with same | ⟨row, after, stored, rows, change⟩
    · exact actors.jobs j row' ((same j).symm.trans stored')
    · rw [show w'.store.jobs.lookup j = w'.job j from rfl, rows j] at stored'
      split at stored'
      · rename_i named
        subst named
        cases stored'
        obtain ⟨first, inBase, sameActor⟩ := actors.jobs jobId row stored
        refine ⟨first, inBase, ?_⟩
        rcases change with ⟨stamp, rfl⟩ | ⟨completedAt, stamp, rfl⟩
        · exact sameActor
        · rw [fired_actorJson]
          exact sameActor
      · exact actors.jobs j row' stored'
  · intro id run absent stored'
    rcases enqueued.runs with same | ⟨row, runId, scheduledFor, stored, -, rows⟩
    · exact actors.runs id run absent ((same id).symm.trans stored')
    · rw [show w'.store.runs.lookup id = w'.run id from rfl, rows id] at stored'
      split at stored'
      · cases stored'
        obtain ⟨first, inBase, sameActor⟩ := actors.jobs jobId row stored
        have key : row.jobId = jobId := Collections.Table.key_of_lookup stored
        exact ⟨jobId, first, congrArg some key, inBase, sameActor⟩
      · exact actors.runs id run absent stored'

theorem tick_actors {draining : Bool} {out : Option (TickResult × Bool)}
    (ends : Ends .calm (runOneTick host instanceId draining) w out w') : ActorsFrom w.store w'.store :=
  runOneTick_keeps (fun _ => rfl) forward_calm (fun _ _ _ _ actors enqueued => ActorsFrom.enqueued actors enqueued) ends
    (le_refl _) (.refl _)

/-- Answering with an error makes no call. -/
theorem respondErr_same {α : Type} {status : Axum.StatusCode} {error : String}
    {out : Option (Axum.StatusCode × Axum.ApiResponse α)} (ends : Ends around (Axum.respondErr status error) w out w') :
    w' = w := by
  unfold Axum.respondErr at ends
  split at ends
  · exact ends.2
  · exact ends.2

theorem runNow_actors {params : Option Json} {out : Option (Axum.StatusCode × Axum.ApiResponse String)}
    (ends : Ends .calm (Axum.runNow jobId params) w out w') : ActorsFrom w.store w'.store := by
  obtain ⟨found, w₁, gets, rest⟩ := ends
  obtain ⟨rfl, same⟩ := gets.getJob rfl
  cases stored : w.job jobId with
  | none =>
    rw [stored] at rest
    rw [respondErr_same rest, same]
    exact .refl _
  | some job =>
    rw [stored] at rest
    obtain ⟨now, w₂, reads, runId, w₃, draws, r, w₄, creates, rest⟩ := rest
    obtain ⟨rfl, after⟩ := creates.createRun rfl
    obtain ⟨-, rfl⟩ := rest
    have same₃ : w₃.store = w.store := draws.newUuid.2.2.trans (reads.utcNow.2.trans same)
    have key : job.jobId = jobId := Collections.Table.key_of_lookup stored
    rw [after, same₃]
    refine ⟨fun j row found => ⟨row, found, rfl⟩, fun id run absent found => ?_⟩
    rw [Store.lookup_setRun] at found
    split at found
    · cases found
      exact ⟨jobId, job, congrArg some key, stored, rfl⟩
    · rw [absent] at found
      cases found

end Actors

/-! ## Sequences of writes -/

section Sequence

variable {host : Host} {w w' : World} {history : List WriteStep} {defaultActor : Json}

/-- An actor that was sent and accepted is not privileged. -/
theorem unprivileged_of_validated {actor : Json} (validated : Axum.validateExternalActor actor = .ok ()) :
    privileged actor = false := by
  unfold Axum.validateExternalActor at validated
  split at validated
  · cases validated
  · rename_i shape
    simpa only [privileged, Axum.isSystemShapedActor, Axum.isServiceUserShapedActor, Bool.not_eq_true] using shape

/-- The row an accepted request stores has no privileged actor. -/
theorem unprivileged_of_edited {before after : World} {req : Axum.UpsertJobRequest} {copy job : Job} {id : String}
    (copied : Copied req before copy) (edited : Edited req copy job)
    (given : WriteStep.ActorGiven defaultActor ⟨before, after, .http req id⟩) : privileged job.actorJson = false := by
  rw [edited.actorJson]
  cases isGiven : Axum.given req.actorJson with
  | some actor => exact unprivileged_of_validated (edited.validated actor isGiven)
  | none =>
    cases copied with
    | @existing old found _ =>
      have safe : privileged old.actorJson = false := (given req id rfl isGiven).1 old found
      exact safe
    | new _ _ => rfl

/-- The rows that stay as they are stay safe. -/
theorem JobsSafe.other {before after : World} (safe : JobsSafe history before) {j : String} {row : Job}
    (writer : lastWriter j history = some .http) (same : after.job j = before.job j) (stored : after.job j = some row) :
    privileged row.actorJson = false := safe j row writer (same.symm.trans stored)

theorem JobsSafe.actors {before after : World} (safe : JobsSafe history before)
    (actors : ActorsFrom before.store after.store) {j : String} {row : Job}
    (writer : lastWriter j history = some .http) (stored : after.job j = some row) : privileged row.actorJson = false := by
  obtain ⟨old, wasStored, same⟩ := actors.jobs j row stored
  rw [same]
  exact safe j old writer wasStored

/-- The jobs are safe in every state. -/
theorem Written.jobsSafe (written : Written host w history w') (given : ∀ step ∈ history, step.ActorGiven defaultActor) :
    JobsSafe history w' := by
  induction written with
  | start =>
    intro j row writer
    cases writer
  | drift _ drifts ih => exact fun j row writer => (ih given).other writer ((drift_cases drifts).2.1 j)
  | tick _ ends ih =>
    rw [List.forall_mem_cons] at given
    exact fun j row writer => (ih given.2).actors (tick_actors ends) writer
  | runNow _ ends ih =>
    rw [List.forall_mem_cons] at given
    exact fun j row writer => (ih given.2).actors (runNow_actors ends) writer
  | inProcess _ ends ih =>
    rw [List.forall_mem_cons] at given
    obtain ⟨written, stores, submitted⟩ := upsertJob_accepted ends
    intro j row writer stored
    simp only [lastWriter] at writer
    split at writer
    · cases writer
    · rename_i other
      rw [← submitted.jobId] at other
      exact (ih given.2).other writer ((stores.jobs j).trans (if_neg other)) stored
  | http _ ends isData ih =>
    rw [List.forall_mem_cons] at given
    obtain ⟨copy, job, written, copied, edited, stores, submitted, data', isData', isRow⟩ := httpUpsert_accepted ends
    cases isData.symm.trans isData'
    intro j row writer stored
    rw [stores.jobs j] at stored
    split at stored
    · cases stored
      rw [submitted.fields.2.2.2.2]
      exact unprivileged_of_edited copied edited given.1
    · rename_i other
      rw [← isRow] at other
      simp only [lastWriter, if_neg other] at writer
      exact (ih given.2) j row writer stored

/-- A step creates runs of safe jobs only with safe actors. -/
theorem JobsSafe.runs {step : WriteStep} (safe : JobsSafe history step.before)
    (actors : ActorsFrom step.before.store step.after.store) : step.RunsSafe history := by
  intro id run j absent stored isJob writer
  obtain ⟨j', row, isJob', wasStored, same⟩ := actors.runs id run absent stored
  rw [isJob] at isJob'
  cases isJob'
  rw [same]
  exact safe j row writer wasStored

theorem WriteStep.RunsSafe.of_same {step : WriteStep} (same : step.after.store.runs = step.before.store.runs) :
    step.RunsSafe history := by
  intro id run j absent stored
  rw [World.run, same] at stored
  rw [World.run, stored] at absent
  cases absent

/-- The runs of every step are safe. -/
theorem Written.runsSafe (written : Written host w history w') (given : ∀ step ∈ history, step.ActorGiven defaultActor) :
    RunsSafeThroughout history := by
  induction written with
  | start => trivial
  | drift _ _ ih => exact ih given
  | tick before ends ih =>
    rw [List.forall_mem_cons] at given
    exact ⟨(before.jobsSafe given.2).runs (tick_actors ends), ih given.2⟩
  | runNow before ends ih =>
    rw [List.forall_mem_cons] at given
    exact ⟨(before.jobsSafe given.2).runs (runNow_actors ends), ih given.2⟩
  | inProcess _ ends ih =>
    rw [List.forall_mem_cons] at given
    obtain ⟨_, stores, -⟩ := upsertJob_accepted ends
    exact ⟨.of_same stores.runs, ih given.2⟩
  | http _ ends _ ih =>
    rw [List.forall_mem_cons] at given
    obtain ⟨_, _, _, -, -, stores, -⟩ := httpUpsert_accepted ends
    exact ⟨.of_same stores.runs, ih given.2⟩

/-- A new job has no actor, which is the default only where there is none. -/
theorem defaultActor_of_given {before after : World} {req : Axum.UpsertJobRequest}
    {response : Axum.ApiResponse Axum.JobResponse} {data : Axum.JobResponse}
    (ends : Ends .calm (Axum.upsertJob host req) before (some (.ok, response)) after) (isData : response.data = some data)
    (given : WriteStep.ActorGiven defaultActor ⟨before, after, .http req data.jobId⟩) :
    WriteStep.DefaultActor defaultActor ⟨before, after, .http req data.jobId⟩ := by
  rintro _ _ row ⟨⟩ absent omitted stored
  obtain ⟨copy, job, written, copied, edited, stores, submitted, data', isData', isRow⟩ := httpUpsert_accepted ends
  cases isData.symm.trans isData'
  rw [show World.job after data.jobId = some written by rw [stores.jobs, if_pos isRow.symm]] at stored
  cases stored
  rw [submitted.fields.2.2.2.2, edited.actorJson, omitted]
  cases copied with
  | @existing old _ stored =>
    have isOld : data.jobId = old.jobId := by
      rw [isRow, submitted.jobId, edited.jobId]
      rfl
    rw [isOld, stored] at absent
    cases absent
  | new missing _ =>
    rw [(given req _ rfl omitted).2 missing]
    rfl

theorem Written.created (written : Written host w history w')
    (given : ∀ step ∈ history, step.ActorGiven defaultActor) : ∀ step ∈ history, step.DefaultActor defaultActor := by
  induction written with
  | start =>
    intro step inside
    cases inside
  | drift _ _ ih => exact ih given
  | http _ ends isData ih =>
    rw [List.forall_mem_cons] at given ⊢
    exact ⟨defaultActor_of_given ends isData given.1, ih given.2⟩
  | tick _ _ ih | runNow _ _ ih | inProcess _ _ ih =>
    rw [List.forall_mem_cons] at given ⊢
    exact ⟨by rintro _ _ _ ⟨⟩, ih given.2⟩

end Sequence

/-- **External callers cannot drive privileged identities** where every HTTP upsert sends an actor, or edits a job that
has no privileged one, or creates a job while the default actor is null: then no job written over HTTP last,
and no run a tick or `run_now` creates for it, has a privileged actor. -/
theorem external_callers_confined {host : Host} (httpUpsertActor : Option (Unit → Json)) {w w' : World}
    {history : List WriteStep} (written : Written host w history w')
    (given : ∀ step ∈ history, step.ActorGiven (Axum.defaultUpsertActorJson httpUpsertActor)) :
    Confined (Axum.defaultUpsertActorJson httpUpsertActor) history w' :=
  ⟨written.jobsSafe given, written.runsSafe given, written.created given⟩

/-- A run-once job with a system actor. -/
def systemJob : Job := { dueOnceJob with actorJson := .obj [("System", .obj [])] }

/-- It is created in process. -/
def systemWorld : World := playedTo (fun _ => none) (CoordinatorService.upsertJob .simple systemJob) emptyWorld [.uuid "rev"]

theorem system_written : Written .simple emptyWorld [⟨emptyWorld, systemWorld, .inProcess "j"⟩] systemWorld := by
  have ends := ends_acceptedJob .simple emptyWorld systemJob [.uuid "rev"] (by decide +kernel)
  exact Written.inProcess .start ends

/-- A request that sends an actor replaces the one of the system job. -/
theorem external_callers_confined_given :
    ∃ history w', Written .simple emptyWorld history w' ∧ lastWriter "j" history = some .http ∧
      Confined (Axum.defaultUpsertActorJson none) history w' := by
  obtain ⟨response, data, ends, isData, isJob⟩ := exists_acceptedRequest .simple systemWorld
    { importRequest with actorJson := some (.str "guest") } [.uuid "rev2"] "j" (by decide +kernel)
  have written := system_written.http ends isData
  refine ⟨_, _, written, ?_, external_callers_confined none written ?_⟩
  · simp only [lastWriter, isJob, if_true]
  · rw [List.forall_mem_cons, List.forall_mem_singleton]
    constructor
    · rintro _ _ ⟨⟩ omitted
      cases omitted
    · rintro _ _ ⟨⟩

/-- A request without an actor takes the system actor over, and a new job is stored without the default one. -/
theorem system_actor_kept :
    (∃ history w', Written .simple emptyWorld history w' ∧ ¬ Confined (Axum.defaultUpsertActorJson none) history w') ∧
      ∃ step, Written .simple emptyWorld [step] step.after ∧ step.before.job "j" = none ∧
        ¬ step.DefaultActor (Axum.defaultUpsertActorJson none) := by
  constructor
  · obtain ⟨response, data, ends, isData, isJob⟩ := exists_acceptedRequest .simple systemWorld importRequest
      [.uuid "rev2"] "j" (by decide +kernel)
    refine ⟨_, _, system_written.http ends isData, fun confined => ?_⟩
    have found : ((requested .simple systemWorld importRequest [.uuid "rev2"]).job "j").any
        (fun row => privileged row.actorJson) = true := by decide +kernel
    obtain ⟨row, stored, shape⟩ := (Option.any_eq_true _ _).mp found
    have safe := confined.jobs "j" row (by simp only [lastWriter, isJob, if_true]) stored
    rw [shape] at safe
    cases safe
  · obtain ⟨response, data, ends, isData, isJob⟩ := exists_acceptedRequest .simple emptyWorld importRequest
      [.uuid "j", .uuid "rev"] "j" (by decide +kernel)
    have new : emptyWorld.job "j" = none := by decide +kernel
    refine ⟨_, Written.http .start ends isData, new, fun isDefault => ?_⟩
    have found : ((requested .simple emptyWorld importRequest [.uuid "j", .uuid "rev"]).job "j").any
        (fun row => row.actorJson.isNull) = true := by decide +kernel
    obtain ⟨row, stored, isNull⟩ := (Option.any_eq_true _ _).mp found
    have isActor := isDefault importRequest "j" row (by rw [isJob]) new rfl stored
    rw [isActor] at isNull
    cases isNull

end Chronon
