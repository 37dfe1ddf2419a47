import Chronon.Concurrent.Rules
import Chronon.Edit.Accepted

/-!
# HTTP upserts side by side

Any number of `POST /jobs/upsert` requests over one in-memory store, call by
call. A request ends with its status; the statuses are collected next to the
world. Every request goes through the phases of `UpsertMove`: it looks the job
up, edits its copy under the number after the one it has read, checks the copy
against the store, appends the revision and writes the row.
-/

namespace Chronon
set_option autoImplicit false

open Concurrent

/-- The calls of a request, and the answer it ends with. -/
inductive ApiOp where
  | task (op : Op)
  | respond (status : Axum.StatusCode)

@[reducible] def ApiAns : ApiOp → Type
  | .task op => Ans op
  | .respond _ => Unit

/-- The world, and the requests that have been answered, latest first. -/
structure Api where
  world : World
  answers : List (Nat × Axum.StatusCode)

namespace Api

def fresh (s : State) : Api := ⟨.fresh s, []⟩

def perform (p : Nat) (oracle : Oracle) (w : Api) : (op : ApiOp) → Option (ApiAns op × Api)
  | .task op => (Chronon.perform p oracle w.world op).map fun done => (done.1, { w with world := done.2 })
  | .respond status => some ((), { w with answers := (p, status) :: w.answers })

def drift (e : Env) (w : Api) : Option Api := (Chronon.drift e w.world).map fun world => { w with world }

theorem perform_task {p : Nat} {oracle : Oracle} {w w' : Api} {op : Op} {r : Ans op}
    (ran : w.perform p oracle (.task op) = some (r, w')) :
    Chronon.perform p oracle w.world op = some (r, w'.world) ∧ w'.answers = w.answers := by
  obtain ⟨done, performed, same⟩ := Option.map_eq_some_iff.mp ran
  cases same
  exact ⟨performed, rfl⟩

theorem drift_cases {e : Env} {w w' : Api} (ran : drift e w = some w') :
    Chronon.drift e w.world = some w'.world ∧ w'.answers = w.answers := by
  obtain ⟨world, drifted, rfl⟩ := Option.map_eq_some_iff.mp ran
  exact ⟨drifted, rfl⟩

end Api

/-- The handler with the status it answers. -/
def answeredUpsert (host : Host) (req : Axum.UpsertJobRequest) : Prog ApiOp ApiAns Unit :=
  (Axum.upsertJob host req).embed .task (fun _ r => r) >>= fun response => .perform (ApiOp.respond response.1)

/-- All upsert requests over one store. -/
def upsertRequests (host : Host) : Machine ApiOp ApiAns Api Axum.UpsertJobRequest Oracle Env where
  code := answeredUpsert host
  exec := fun p oracle w op => w.perform p oracle op
  drift := Api.drift

abbrev ApiConfig := Config ApiOp ApiAns Api

abbrev ApiLabel := Label ApiOp ApiAns Axum.UpsertJobRequest Env

abbrev ApiChoice := Choice Axum.UpsertJobRequest Oracle Env

/-! ## The protocol of a request -/

/-- Where a request stands: it has yet to look the job up, it makes a new one, it edits a copy that will be stored
under an identifier, a name and a number, it checks that the name of a new job is free, it makes a revision, it
writes the row, or it has been refused or accepted and is to be answered. -/
inductive UpsertPhase where
  | looking (jobName : String)
  | creating (jobName : String)
  | editing (jobId jobName : String) (number : Int)
  | naming (job : Job)
  | revising (job : Job) (number : Int)
  | writing (job : Job)
  | stored
  | failed
  | answered

/-- The phases in which a request may be answered with a failure. -/
def UpsertPhase.GivenUp : UpsertPhase → Prop
  | .looking _ | .editing _ _ _ | .failed => True
  | _ => False

/-- Whether an accepted write is still to be answered. -/
def UpsertPhase.owes : UpsertPhase → Nat
  | .stored => 1
  | _ => 0

/-- A request is over: with success where its row has been written, and only there. -/
def Concluded (success : Prop) (φ : UpsertPhase) : Prop := (success ∧ φ = .stored) ∨ (¬ success ∧ φ.GivenUp)

inductive UpsertMove : UpsertPhase → (op : Op) → Ans op → UpsertPhase → Prop
  | reads {φ : UpsertPhase} {now : DateTime} : UpsertMove φ .utcNow now φ
  | finds {name : String} {row : Job} :
      UpsertMove (.looking name) (.store (.getJobByName name)) (.ok (some row))
        (.editing row.jobId row.jobName (min (row.currentRevision + 1) 2147483647))
  | misses {name : String} :
      UpsertMove (.looking name) (.store (.getJobByName name)) (.ok none) (.creating name)
  | draws {name id : String} : UpsertMove (.creating name) .newUuid id (.editing id name 1)
  | mismatches {id name : String} {number : Int} {existing : Job} :
      UpsertMove (.editing id name number) (.store (.getJob id)) (.ok (some existing)) .failed
  | unrevised {id name : String} {number : Int} {existing : Job} {φ : UpsertPhase} : existing.currentRevision = number →
      UpsertMove (.editing id name number) (.store (.getJob id)) (.ok (some existing)) φ
  | differs {job existing : Job} :
      UpsertMove (.editing job.jobId job.jobName job.currentRevision) (.store (.getJob job.jobId)) (.ok (some existing))
        (.revising job job.currentRevision)
  | isNew {job : Job} :
      UpsertMove (.editing job.jobId job.jobName job.currentRevision) (.store (.getJob job.jobId)) (.ok none) (.naming job)
  | taken {job holder : Job} :
      UpsertMove (.naming job) (.store (.getJobByName job.jobName)) (.ok (some holder)) .failed
  | free {job : Job} : UpsertMove (.naming job) (.store (.getJobByName job.jobName)) (.ok none) (.revising job 1)
  | identifies {job : Job} {number : Int} {id : String} :
      UpsertMove (.revising job number) .newUuid id (.revising job number)
  | appends {job : Job} {number : Int} {revision : JobRevision} : Records job number revision →
      UpsertMove (.revising job number) (.store (.appendRevision revision)) (.ok ()) (.writing job)
  | writes {job : Job} : UpsertMove (.writing job) (.store (.upsertJob job)) (.ok ()) .stored
  | refused {job : Job} {e : ChrononError} {φ : UpsertPhase} :
      UpsertMove (.writing job) (.store (.upsertJob job)) (.error e) φ
  | unread {φ φ' : UpsertPhase} {id : String} {e : ChrononError} : UpsertMove φ (.store (.getJob id)) (.error e) φ'
  | unfound {φ φ' : UpsertPhase} {name : String} {e : ChrononError} :
      UpsertMove φ (.store (.getJobByName name)) (.error e) φ'
  | unrecorded {φ φ' : UpsertPhase} {revision : JobRevision} {e : ChrononError} :
      UpsertMove φ (.store (.appendRevision revision)) (.error e) φ'

/-- The same with the answer. -/
def ApiMove : UpsertPhase → (op : ApiOp) → ApiAns op → UpsertPhase → Prop
  | φ, .task op, r, φ' => UpsertMove φ op r φ'
  | φ, .respond status, _, φ' => Concluded (status = .ok) φ ∧ φ' = .answered

def upsertProtocol : Protocol ApiOp ApiAns Axum.UpsertJobRequest UpsertPhase where
  start := fun req => .looking req.jobName
  ended := fun φ => φ = .answered
  move := ApiMove

section Follows

variable {host : Host}

/-- The phase an operation of the coordinator ends in. -/
abbrev Settles (r : Result Unit) (φ : UpsertPhase) : Prop := Concluded (r = .ok ()) φ

theorem Concluded.failure {e : ChrononError} {φ : UpsertPhase} (givenUp : φ.GivenUp) : Settles (.error e) φ :=
  .inr ⟨nofun, givenUp⟩

theorem recordRevision_follows (job : Job) (number : Int) :
    Follows UpsertMove (do
      let revision ← CoordinatorService.newRevision job number
      match ← call (.appendRevision revision) with
      | .error e => return .error e
      | .ok () => call (.upsertJob job) : Task (Result Unit)) (.revising job number) Settles := by
  refine fun id => ⟨_, .identifies, fun now => ⟨_, .reads, fun recorded => ?_⟩⟩
  cases recorded with
  | error e => exact ⟨.failed, .unrecorded, .failure trivial⟩
  | ok _ =>
    refine ⟨.writing job, .appends ⟨rfl, rfl, rfl⟩, fun written => ?_⟩
    cases written with
    | error e => exact ⟨.failed, .refused, .failure trivial⟩
    | ok _ => exact ⟨.stored, .writes, .inl ⟨rfl, rfl⟩⟩

theorem storeStamped_follows (job : Job) :
    Follows UpsertMove (CoordinatorService.storeJob job) (.editing job.jobId job.jobName job.currentRevision) Settles := by
  refine fun updatedAt => ⟨_, .reads, fun found => ?_⟩
  match found with
  | .error e => exact ⟨.failed, .unread, .failure trivial⟩
  | .ok (some existing) =>
    by_cases script : existing.scriptName = job.scriptName
    · by_cases same : existing.currentRevision = job.currentRevision
      · refine ⟨.writing { job with updatedAt }, .unrevised same, ?_⟩
        show Follows _ (if _ then _ else if _ then _ else _) _ _
        rw [if_neg (not_not.mpr script), if_neg (not_not.mpr same)]
        intro written
        cases written with
        | error e => exact ⟨.failed, .refused, .failure trivial⟩
        | ok _ => exact ⟨.stored, .writes, .inl ⟨rfl, rfl⟩⟩
      · refine ⟨.revising { job with updatedAt } job.currentRevision, @UpsertMove.differs { job with updatedAt } existing, ?_⟩
        show Follows _ (if _ then _ else if _ then _ else _) _ _
        rw [if_neg (not_not.mpr script), if_pos same]
        exact recordRevision_follows { job with updatedAt } job.currentRevision
    · refine ⟨.failed, .mismatches, ?_⟩
      show Follows _ (if _ then _ else if _ then _ else _) _ _
      rw [if_pos script]
      exact .failure trivial
  | .ok none =>
    refine ⟨.naming { job with updatedAt }, @UpsertMove.isNew { job with updatedAt }, fun holder => ?_⟩
    match holder with
    | .error e => exact ⟨.failed, .unfound, .failure trivial⟩
    | .ok (some _) => exact ⟨.failed, .taken, .failure trivial⟩
    | .ok none => exact ⟨_, .free, recordRevision_follows { job with updatedAt } 1⟩

/-- Partition, fire time and stamp aside, the job is stored as submitted. -/
theorem submitJob_follows (job : Job) :
    Follows UpsertMove (CoordinatorService.upsertJob host job) (.editing job.jobId job.jobName job.currentRevision)
      Settles := by
  unfold CoordinatorService.upsertJob
  rw [withPartition_fields]
  dsimp only
  split
  · cases CronExpr.parse host.cron _ job.timezone with
    | error e => exact .failure trivial
    | ok cron => exact fun now => ⟨_, .reads, storeStamped_follows _⟩
  · exact storeStamped_follows _

/-- The phase a handler ends in, by the status it answers. -/
abbrev Answers {α : Type} (response : Axum.StatusCode × Axum.ApiResponse α) (φ : UpsertPhase) : Prop :=
  Concluded (response.1 = .ok) φ

theorem respondFailure_follows {α : Type} {φ : UpsertPhase} {status : Axum.StatusCode} (error : String)
    (isFailure : status ≠ .ok) (givenUp : φ.GivenUp) :
    Follows UpsertMove (Axum.respondErr status error : Task (Axum.StatusCode × Axum.ApiResponse α)) φ Answers := by
  unfold Axum.respondErr
  split
  · exact .inr ⟨isFailure, givenUp⟩
  · exact fun never => nomatch never

theorem submitEdited_follows (job : Job) :
    Follows UpsertMove (Axum.submit host job) (.editing job.jobId job.jobName job.currentRevision) Answers := by
  refine (submitJob_follows job).bind fun r φ settles => ?_
  cases r with
  | ok _ =>
    rcases settles with ⟨-, rfl⟩ | ⟨isFailure, -⟩
    · exact .inl ⟨rfl, rfl⟩
    · exact (isFailure rfl).elim
  | error e =>
    rcases settles with ⟨⟨⟩, -⟩ | ⟨-, givenUp⟩
    exact respondFailure_follows _ (chrononStatus_ne_ok e) givenUp

/-- The edits keep the name and the number of the copy. -/
theorem edited_numbered {req : Axum.UpsertJobRequest} {copy job : Job} (edits : Axum.edited req copy = .ok job) :
    job.jobName = copy.jobName ∧ job.currentRevision = copy.currentRevision := by
  simp only [Axum.edited, bind, Except.bind, pure, Except.pure] at edits
  rcases withActor_cases req (Axum.withFields req copy) with ⟨_, failed, -⟩ | ⟨acted, -⟩
  · rw [failed] at edits
    cases edits
  · rw [acted] at edits
    dsimp only at edits
    rcases withPool_cases req (Axum.withPolicies req
      { Axum.withFields req copy with actorJson := (Axum.given req.actorJson).getD (Axum.withFields req copy).actorJson })
      with ⟨_, failed, -⟩ | ⟨pool, pooled⟩
    · rw [failed] at edits
      cases edits
    · rw [pooled] at edits
      cases edits
      unfold Job.clampSecurityBounds
      simp only [Job.setRetryPolicy]
      split <;> exact ⟨rfl, rfl⟩

theorem upsertEdited_follows (req : Axum.UpsertJobRequest) (copy : Job) :
    Follows UpsertMove (Axum.upsertCopy host req copy) (.editing copy.jobId copy.jobName copy.currentRevision)
      Answers := by
  unfold Axum.upsertCopy
  rcases edited_cases req copy with ⟨failure, failed, isFailure⟩ | ⟨job, edits, edited⟩
  · rw [failed]
    exact respondFailure_follows _ isFailure trivial
  · obtain ⟨name, number⟩ := edited_numbered edits
    rw [edits, ← edited.jobId, ← name, ← number]
    dsimp only
    split
    · cases CronExpr.parse host.cron _ job.timezone with
      | error e => exact respondFailure_follows _ nofun trivial
      | ok cron => exact fun now => ⟨_, .reads, submitEdited_follows { job with nextRunAt := cron.nextAfter now }⟩
    · exact submitEdited_follows job

/-- A handler answers with success exactly if it has written its row. -/
theorem upsertRequest_follows (req : Axum.UpsertJobRequest) :
    Follows UpsertMove (Axum.upsertJob host req) (.looking req.jobName) Answers := by
  unfold Axum.upsertJob
  split
  · intro found
    match found with
    | .error e =>
      exact ⟨.creating req.jobName, .unfound, fun now => ⟨_, .reads, fun id => ⟨_, .draws,
        upsertEdited_follows req (Job.new id now req.jobName req.scriptName)⟩⟩⟩
    | .ok (some row) => exact ⟨_, .finds, upsertEdited_follows req (Axum.bumped req row)⟩
    | .ok none =>
      exact ⟨.creating req.jobName, .misses, fun now => ⟨_, .reads, fun id => ⟨_, .draws,
        upsertEdited_follows req (Job.new id now req.jobName req.scriptName)⟩⟩⟩
  · exact respondFailure_follows _ nofun trivial

theorem upsertProtocol_governs : upsertProtocol.Governs (upsertRequests host) := by
  intro req
  have handled : Follows ApiMove ((Axum.upsertJob host req).embed ApiOp.task fun _ r => r) (id (.looking req.jobName)) _ :=
    Follows.embed (fun _ _ _ _ move => move) (upsertRequest_follows req)
  refine handled.bind ?_
  rintro response _ ⟨φ, rfl, answers⟩ _
  exact ⟨.answered, ⟨answers, rfl⟩, rfl⟩

end Follows

end Chronon
