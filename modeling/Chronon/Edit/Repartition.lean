import Chronon.Collections.Sorting
import Chronon.Edit.RunOnceDue
import Chronon.Leader.Cluster
import Chronon.System.Among

/-!
# Jobs and a changed partition count

The partition of a job is computed when it is first stored and kept by every
later write that starts from the stored row. Coordinators look for due jobs in the
partitions below the count they run with, so after the count is lowered the jobs
in the higher partitions are found no more (`found_after_repartition_iff`).
-/

namespace Chronon
set_option autoImplicit false

open Concurrent Collections

/-! ## Who writes the partition -/

/-- The row `j` is stored in partition `h`. -/
def PlacedIn (j : String) (h : Int) (w : World) : Prop := ∃ row, w.job j = some row ∧ row.partitionHash = some h

/-- What a task has done about the partition of a job: it has just written it, or it goes by another one. -/
inductive Placing where
  | pending
  | placed
  | astray

/-- The calls of a task that writes the row `j` into partition `h` only. It may go astray where it is told of another
partition, or given `j` for a new identifier. -/
inductive PlaceMove (j : String) (h : Int) : Placing → (op : Op) → Ans op → Placing → Prop
  | places {φ : Placing} {job : Job} : φ ≠ .astray → job.jobId = j → job.partitionHash = some h →
      PlaceMove j h φ (.store (.upsertJob job)) (.ok ()) .placed
  | passes {φ : Placing} {op : Op} {r : Ans op} : φ ≠ .astray →
      (∀ job, op = .store (.upsertJob job) → job.jobId = j → job.partitionHash = some h) → PlaceMove j h φ op r .pending
  | misreads {φ : Placing} {name : String} {row : Job} : row.jobId = j → row.partitionHash ≠ some h →
      PlaceMove j h φ (.store (.getJobByName name)) (.ok (some row)) .astray
  | draws {φ : Placing} : PlaceMove j h φ .newUuid j .astray
  | strays {op : Op} {r : Ans op} : PlaceMove j h .astray op r .astray

/-- The job, if it is `j`, is in partition `h`. -/
def Job.PlacedAs (job : Job) (j : String) (h : Int) : Prop := job.jobId = j → job.partitionHash = some h

/-- An upsert that is accepted has just written its row. -/
def Places (j : String) (job : Job) (r : Result Unit) (φ : Placing) : Prop := r = .ok () → job.jobId = j → φ = .placed

section Follows

variable {host : Host} {j : String} {h : Int} {φ : Placing} {job : Job} {α : Type}

theorem Follows.astray (m : Task α) : Follows (PlaceMove j h) m .astray fun _ ψ => ψ = .astray := by
  induction m with
  | ret a => rfl
  | call op k ih => exact fun r => ⟨.astray, .strays, ih r⟩

/-- A call that writes no job. -/
theorem Follows.passes {op : Op} {f : Ans op → Task α} {Q : α → Placing → Prop} (sound : φ ≠ .astray)
    (other : ∀ job, op ≠ .store (.upsertJob job)) (rest : ∀ r, Follows (PlaceMove j h) (f r) .pending Q) :
    Follows (PlaceMove j h) (Chronon.issue op >>= f) φ Q :=
  fun r => ⟨.pending, .passes sound fun job isUpsert => absurd isUpsert (other job), rest r⟩

theorem writeJob_places (sound : φ ≠ .astray) (kept : job.PlacedAs j h) :
    Follows (PlaceMove j h) (call (.upsertJob job)) φ (Places j job) := by
  intro r
  by_cases isIt : r = .ok () ∧ job.jobId = j
  · obtain ⟨rfl, isJob⟩ := isIt
    exact ⟨.placed, .places sound isJob (kept isJob), fun _ _ => rfl⟩
  · refine ⟨.pending, .passes sound fun job' same => ?_, fun isOk isJob => absurd ⟨isOk, isJob⟩ isIt⟩
    cases same
    exact kept

theorem reviseAndWrite_places (sound : φ ≠ .astray) (kept : job.PlacedAs j h) (number : Int) :
    Follows (PlaceMove j h) (do
      let revision ← CoordinatorService.newRevision job number
      match ← call (.appendRevision revision) with
      | .error e => return .error e
      | .ok () => call (.upsertJob job)) φ (Places j job) := by
  refine Follows.passes sound (by simp) fun revisionId => Follows.passes (by simp) (by simp) fun changedAt => ?_
  refine Follows.passes (by simp) (by simp) fun r => ?_
  cases r with
  | error e => rintro ⟨⟩
  | ok _ => exact writeJob_places (by simp) kept

theorem storeJob_places (sound : φ ≠ .astray) (kept : job.PlacedAs j h) :
    Follows (PlaceMove j h) (CoordinatorService.storeJob job) φ (Places j job) := by
  refine Follows.passes sound (by simp) fun updatedAt => Follows.passes (by simp) (by simp) fun found => ?_
  have stamped : ({ job with updatedAt } : Job).PlacedAs j h := kept
  match found with
  | .error e => rintro ⟨⟩
  | .ok (some existing) =>
    show Follows _ (if _ then _ else if _ then _ else _) _ _
    split
    · rintro ⟨⟩
    · split
      · exact reviseAndWrite_places (by simp) stamped _
      · exact writeJob_places (by simp) stamped
  | .ok none =>
    refine Follows.passes (by simp) (by simp) fun holder => ?_
    match holder with
    | .error e => rintro ⟨⟩
    | .ok (some _) => rintro ⟨⟩
    | .ok none => exact reviseAndWrite_places (by simp) stamped 1

/-- The partition a job is stored in. -/
theorem withPartition_placed (host : Host) (job : Job) :
    (CoordinatorService.withPartition host job).partitionHash =
      some (job.partitionHash.getD (partitionHashI64ForJobId host job.jobId)) := by
  unfold CoordinatorService.withPartition
  split
  · rename_i unset
    rw [unset]
    rfl
  · rename_i isSet
    rw [isSet]
    rfl

theorem upsertJob_places (sound : φ ≠ .astray)
    (kept : job.jobId = j → job.partitionHash.getD (partitionHashI64ForJobId host job.jobId) = h) :
    Follows (PlaceMove j h) (CoordinatorService.upsertJob host job) φ (Places j job) := by
  have placed := withPartition_placed host job
  unfold CoordinatorService.upsertJob
  rw [withPartition_fields host job, placed]
  dsimp only
  split
  · cases CronExpr.parse host.cron _ job.timezone with
    | error e => rintro ⟨⟩
    | ok cron =>
      exact Follows.passes sound (by simp) fun now => storeJob_places (by simp) fun isJob => congrArg some (kept isJob)
  · exact storeJob_places sound fun isJob => congrArg some (kept isJob)

/-! ## Handlers -/

theorem respondErr_places {β : Type} (status : Axum.StatusCode) (error : String) :
    Follows (PlaceMove j h) (Axum.respondErr status error : Task (Axum.StatusCode × Axum.ApiResponse β)) φ
      fun _ _ => True := by
  unfold Axum.respondErr
  split
  · trivial
  · exact fun never => nomatch never

theorem submit_places (sound : φ ≠ .astray) (kept : job.PlacedAs j h) :
    Follows (PlaceMove j h) (Axum.submit host job) φ fun _ _ => True := by
  refine (upsertJob_places sound fun isJob => ?_).bind fun r ψ _ => ?_
  · rw [kept isJob]
    rfl
  · cases r with
    | ok _ => trivial
    | error e => exact respondErr_places _ _

theorem upsertCopy_places {copy : Job} (req : Axum.UpsertJobRequest) (sound : φ ≠ .astray)
    (kept : copy.PlacedAs j h) :
    Follows (PlaceMove j h) (Axum.upsertCopy host req copy) φ fun _ _ => True := by
  unfold Axum.upsertCopy
  rcases edited_cases req copy with ⟨failure, failed, -⟩ | ⟨job, edits, edited⟩
  · rw [failed]
    exact respondErr_places _ _
  · have kept' : job.PlacedAs j h := fun isJob => edited.partitionHash.trans (kept (edited.jobId.symm.trans isJob))
    rw [edits]
    dsimp only
    split
    · split
      · exact Follows.passes sound (by simp) fun now => submit_places (by simp) kept'
      · exact respondErr_places _ _
    · exact submit_places sound kept'

theorem httpUpsert_places (req : Axum.UpsertJobRequest) :
    Follows (PlaceMove j h) (Axum.upsertJob host req) .pending fun _ _ => True := by
  have fresh : Follows (PlaceMove j h) (do
      let now ← utcNow
      let jobId ← newUuid
      Axum.upsertCopy host req (Job.new jobId now req.jobName req.scriptName)) .pending fun _ _ => True := by
    refine Follows.passes (by simp) (by simp) fun now jobId => ?_
    by_cases drawn : jobId = j
    · subst drawn
      exact ⟨.astray, .draws, (Follows.astray _).mono fun _ _ _ => trivial⟩
    · refine ⟨.pending, .passes (by simp) (by simp), upsertCopy_places req (by simp) fun isJob => ?_⟩
      exact absurd isJob drawn
  unfold Axum.upsertJob
  split
  · intro found
    match found with
    | .error e => exact ⟨.pending, .passes (by simp) (by simp), fresh⟩
    | .ok none => exact ⟨.pending, .passes (by simp) (by simp), fresh⟩
    | .ok (some row) =>
      by_cases other : row.jobId = j ∧ row.partitionHash ≠ some h
      · exact ⟨.astray, .misreads other.1 other.2, (Follows.astray _).mono fun _ _ _ => trivial⟩
      · refine ⟨.pending, .passes (by simp) (by simp), upsertCopy_places req (by simp) fun isJob => ?_⟩
        exact not_not.mp fun differs => other ⟨isJob, differs⟩
  · exact respondErr_places _ _

/-- A task that is not about to write a job. -/
def Phase.Writeless : Phase → Prop
  | .naming | .editing _ | .writingJob _ _ => False
  | _ => True

theorem Move.writeless {φ φ' : Phase} {op : Op} {r : Ans op} (move : Move host φ op r φ') (writeless : φ.Writeless) :
    (∀ job, op ≠ .store (.upsertJob job)) ∧ φ'.Writeless := by
  cases move with
  | silent quiet =>
    refine ⟨?_, writeless⟩
    rintro job rfl
    exact quiet
  | lookUp | schedule _ _ | stamp | checkStored | checkName | write => exact writeless.elim
  | misfired | admitted | create | createFailed =>
    refine ⟨by simp, ?_⟩
    split <;> trivial
  | _ => exact ⟨by simp, trivial⟩

/-- Tasks other than upserts write no job. -/
theorem Follows.writeless {m : Task α} {φ : Phase} {Q : α → Phase → Prop} (writeless : φ.Writeless)
    (follows : Follows (Move host) m φ Q) : Follows (PlaceMove j h) m .pending fun _ _ => True := by
  refine (Follows.sim (R := fun φ ψ => φ.Writeless ∧ ψ = .pending) ?_ ⟨writeless, rfl⟩ follows).mono fun _ _ _ => trivial
  rintro φ op r φ' _ ⟨writeless, rfl⟩ move
  obtain ⟨other, writeless'⟩ := move.writeless writeless
  exact ⟨.pending, .passes (by simp) fun job isUpsert => absurd isUpsert (other job), writeless', rfl⟩

end Follows

/-! ## Deployments -/

/-- The job a step submits in process. -/
def submitted : SystemLabel → Option Job
  | .start _ (.upsert job) => some job
  | _ => none

/-- Nobody deletes `j`, and an upsert in process starts from the partition of the stored row. -/
def FromStored (j : String) (l : SystemLabel) (w : World) : Prop :=
  NotDeleted j l ∧ ∀ job ∈ submitted l, job.jobId = j → ∃ row ∈ w.job j, job.partitionHash = row.partitionHash

/-- What follows on the same store: deployments with any settings, one after the other. -/
inductive Later (j : String) : State → State → Prop
  | refl {s : State} : Later j s s
  | deploy {s s' : State} {host : Host} {c : SystemConfig} : Later j s s' →
      (system host).Reach (fun l w _ => FromStored j l w) (.idle (.fresh s')) c → Later j s c.world.state

/-- Whether a task starts with the partition `h`, if it has one for `j`. -/
def Proc.placing (j : String) (h : Int) : Proc → Placing
  | .upsert job => if job.jobId = j ∧ job.partitionHash ≠ some h then .astray else .pending
  | _ => .pending

/-- The protocol of the partition. -/
def placeProtocol (j : String) (h : Int) : Protocol Op Ans Proc Placing where
  start := Proc.placing j h
  ended := fun _ => True
  move := PlaceMove j h

theorem placeProtocol_governs (host : Host) (j : String) (h : Int) : (placeProtocol j h).Governs (system host) := by
  intro proc
  have governed := protocol_governs host proc
  cases proc with
  | upsert job =>
    show Follows _ _ (if _ then _ else _) _
    split
    · exact (Follows.astray _).mono fun _ _ _ => trivial
    · rename_i agrees
      refine ((upsertJob_places (by simp) fun isJob => ?_).mono fun _ _ _ => trivial).done
      have isSet : job.partitionHash = some h := not_not.mp fun differs => agrees ⟨isJob, differs⟩
      rw [isSet]
      rfl
  | httpUpsert req => exact (httpUpsert_places req).done
  | _ =>
    refine Follows.writeless ?_ governed
    trivial

theorem JobWrite.partitionHash_onRow {write : JobWrite} {row : Job} {stamp : DateTime} (allowed : write.Allowed row) :
    (write.onRow stamp row).partitionHash = row.partitionHash := by
  cases write with
  | put _ => exact allowed.elim
  | releaseOnce _ =>
    simp only [onRow]
    split <;> rfl
  | _ => rfl

section Step

variable {j : String} {h : Int} {φ φ' : Placing} {p : Nat} {oracle : Oracle} {w w' : World} {op : Op} {r : Ans op}

theorem PlaceMove.upserts (move : PlaceMove j h φ op r φ') (sound : φ ≠ .astray) :
    ∀ job, op = .store (.upsertJob job) → job.PlacedAs j h := by
  intro job isUpsert
  cases move with
  | places _ _ placed =>
    cases isUpsert
    exact fun _ => placed
  | passes _ placed => exact placed job isUpsert
  | misreads _ _ => cases isUpsert
  | draws => cases isUpsert
  | strays => exact absurd rfl sound

/-- While the row is stored, it is read with its partition and `j` is not drawn. -/
theorem PlaceMove.sound (move : PlaceMove j h φ op r φ') (sound : φ ≠ .astray) (placed : PlacedIn j h w)
    (ran : perform p oracle w op = some (r, w')) : φ' ≠ .astray := by
  obtain ⟨row, stored, isPlace⟩ := placed
  obtain ⟨answered, -⟩ := perform_cases ran
  cases move with
  | places _ _ _ => rintro ⟨⟩
  | passes _ _ => rintro ⟨⟩
  | @misreads _ name found isJob elsewhere =>
    have read := (answer_store answered).1
    simp only [StoreCall.exec, Prod.mk.injEq] at read
    rcases getJobByName_cases w.store name with missing | ⟨row', named, stored'⟩
    · rw [missing] at read
      cases read.1
    · rw [named] at read
      cases read.1
      rw [isJob, ← World.job, stored] at stored'
      cases stored'
      exact absurd isPlace elsewhere
  | draws =>
    obtain ⟨-, absent, -⟩ := answer_newUuid answered
    rw [stored] at absent
    cases absent
  | strays => exact absurd rfl sound

/-- One call keeps the partition of a row that it does not delete. -/
theorem PlacedIn.step (placed : PlacedIn j h w) (kept : NotDeleted j (.call p op r))
    (upserts : ∀ job, op = .store (.upsertJob job) → job.PlacedAs j h) (ran : perform p oracle w op = some (r, w')) :
    PlacedIn j h w' := by
  obtain ⟨row, stored, isPlace⟩ := placed
  have step := perform_job ran j
  rw [stored] at step
  unfold PlacedIn
  generalize w'.job j = after at step
  cases wrote : jobWrite j op r with
  | none =>
    rw [wrote] at step
    cases step
    exact ⟨row, rfl, isPlace⟩
  | some write =>
    rw [wrote] at step
    cases step with
    | put isJob =>
      cases jobWrite_wrote wrote
      exact ⟨_, rfl, upserts _ rfl isJob⟩
    | drop =>
      cases jobWrite_wrote wrote
      exact absurd rfl kept
    | write stamp allowed => exact ⟨_, rfl, (JobWrite.partitionHash_onRow allowed).trans isPlace⟩

end Step

/-- Tasks that go by the partition of the stored row keep it. -/
def placeRules (host : Host) (j : String) (h : Int) :
    Rules (system host) (placeProtocol j h) fun l w _ => FromStored j l w where
  inv := PlacedIn j h
  guar := fun _ _ _ => True
  idle := fun _ _ => True
  holds := fun _ φ _ => φ ≠ .astray
  start := by
    rintro p proc w ⟨row, stored, placed⟩ - ⟨-, fromStored⟩ astray
    cases proc with
    | upsert job =>
      have goesAstray : (if job.jobId = j ∧ job.partitionHash ≠ some h then Placing.astray else .pending) = .astray := astray
      split at goesAstray
      · rename_i differs
        obtain ⟨row', stored', same⟩ := fromStored job rfl differs.1
        rw [Option.mem_def, stored] at stored'
        cases stored'
        exact differs.2 (same.trans placed)
      · cases goesAstray
    | _ => cases astray
  finish := fun _ _ _ => trivial
  own := by
    rintro p φ op r φ' oracle w w' placed sound move ran ⟨kept, -⟩
    exact ⟨placed.step kept (move.upserts sound) ran, trivial, move.sound sound placed ran⟩
  other := fun _ _ _ _ sound => sound
  otherIdle := fun _ _ _ _ _ => trivial
  drift := by
    rintro e w w' ⟨row, stored, placed⟩ drifts -
    refine ⟨⟨row, ?_, placed⟩, fun _ _ sound => sound, fun _ _ => trivial⟩
    rw [(drift_cases drifts).2.1 j, stored]

/-- **Deployments keep the partition.** -/
theorem Later.placed {j : String} {h : Int} {s s' : State} (later : Later j s s') (placed : PlacedIn j h (.fresh s)) :
    PlacedIn j h (.fresh s') := by
  induction later with
  | refl => exact placed
  | deploy _ reach ih =>
    have standing := (placeRules _ j h).sound (placeProtocol_governs _ j h)
      (Rules.Standing.initial (placeRules _ j h) ih fun _ => trivial) reach
    exact standing.inv

/-! ## The first write -/

section First

variable {others : State → State → Prop} {around : Surroundings} {host : Host} {job : Job} {w w' : World} {j : String}
  {h : Int}

/-- An accepted write leaves its row. -/
theorem PlaceMove.arrives {φ : Placing} {op : Op} {r : Ans op} (move : PlaceMove j h φ op r .placed)
    (calls : Alone around w op r w') : PlacedIn j h w' := by
  cases move with
  | @places _ job _ isJob placed =>
    rcases calls.store with ⟨e, -, isError, -⟩ | ⟨-, ran⟩
    · cases isError
    · rcases Store.writeJob_cases ran with ⟨⟨e, isError⟩, -⟩ | ⟨-, -, rows⟩
      · cases isError
      · exact ⟨job, by rw [World.job, rows j, if_pos isJob], placed⟩

/-- A task that ends with its write leaves the row where it wrote it. -/
theorem Among.placed {m : Task (Result Unit)} {φ : Placing}
    (follows : Follows (PlaceMove j h) m φ fun r ψ => r = .ok () → ψ = .placed) (now : φ = .placed → PlacedIn j h w)
    (among : Among others around m w (some (.ok ())) w') : PlacedIn j h w' := by
  induction m generalizing w φ with
  | ret a =>
    obtain ⟨isOk, rfl⟩ := among
    cases isOk
    exact now (follows rfl)
  | call op k ih =>
    cases op with
    | panic =>
      obtain ⟨isNone, -⟩ := among
      cases isNone
    | _ =>
      obtain ⟨state, r, t, -, calls, rest⟩ := among
      obtain ⟨φ', move, follows'⟩ := follows r
      refine ih r follows' ?_ rest
      rintro rfl
      exact move.arrives calls

/-- **The first write.** An accepted upsert stores the partition submitted, or the one of its own partition count. -/
theorem upsertJob_placed (among : Among others around (CoordinatorService.upsertJob host job) w (some (.ok ())) w') :
    PlacedIn job.jobId (job.partitionHash.getD (partitionHashI64ForJobId host job.jobId)) w' := by
  have follows := @upsertJob_places host job.jobId (job.partitionHash.getD (partitionHashI64ForJobId host job.jobId))
    .pending job (by simp) fun _ => rfl
  refine Among.placed (follows.mono fun r φ places isOk => places isOk rfl) ?_ among
  rintro ⟨⟩

end First

/-! ## The due query of a coordinator that owns all partitions -/

/-- The due query returns the job. -/
def Finds (s : Store) (clock : DateTime) (owned : List Nat) (dueUntil : DateTime) (limit : Nat) (id : String) : Prop :=
  ∃ ids, s.findDueJobIdsInPartitions clock owned dueUntil limit = .ok ids ∧ id ∈ ids

/-- The due rows that are listed before `row`. -/
def dueAhead (s : Store) (clock : DateTime) (owned : List Nat) (dueUntil : DateTime) (row : Job) : List Job :=
  sortedBefore (fun r => r.nextRunAt.getD dueUntil) Job.jobId (s.jobs.rows.filter (Store.isDue clock owned dueUntil)) row

/-- The row is due, its partition aside, and within the limit. -/
def DueWithin (s : Store) (clock : DateTime) (owned : List Nat) (dueUntil : DateTime) (limit : Nat) (row : Job) : Prop :=
  Store.scheduleDue dueUntil row = true ∧ row.claimLeaseUntil.all (· < clock) = true ∧
    (dueAhead s clock owned dueUntil row).length < limit

/-- A partition below the count. -/
def Below (h : Int) (numPartitions : Nat) : Prop := 0 ≤ h ∧ h < numPartitions

section Query

variable {s : Store} {id : String} {row : Job} {clock dueUntil : DateTime} {owned : List Nat} {limit : Nat} {h : Int}

/-- A row is returned if it is due and fewer due rows than the limit are listed before it. -/
theorem finds_iff (stored : s.jobs.lookup id = some row) (some_ : owned ≠ []) :
    Finds s clock owned dueUntil limit id ↔
      Store.isDue clock owned dueUntil row = true ∧ (dueAhead s clock owned dueUntil row).length < limit := by
  have isId : row.jobId = id := Table.key_of_lookup stored
  have distinct : ((s.jobs.rows.filter (Store.isDue clock owned dueUntil)).map Job.jobId).Nodup :=
    s.jobs.distinct.sublist (List.filter_sublist.map _)
  have inside (due : Store.isDue clock owned dueUntil row = true) :
      row ∈ s.jobs.rows.filter (Store.isDue clock owned dueUntil) :=
    List.mem_filter.mpr ⟨Table.mem_of_lookup stored, due⟩
  constructor
  · rintro ⟨ids, listed, member⟩
    obtain ⟨row', stored', due⟩ := Store.mem_findDue listed member
    rw [stored] at stored'
    cases stored'
    refine ⟨due, (mem_take_sorted_iff distinct (inside due)).mp ?_⟩
    unfold Store.findDueJobIdsInPartitions at listed
    split at listed
    · cases listed
      cases member
    · cases listed
      obtain ⟨other, taken, sameId⟩ := List.mem_map.mp member
      have among : other ∈ s.jobs.rows :=
        List.mem_of_mem_filter ((List.mem_insertionSort _).mp (List.mem_of_mem_take taken))
      have same := Table.lookup_of_mem among
      rw [sameId, stored] at same
      cases same
      exact taken
  · rintro ⟨due, room⟩
    have limited : limit ≠ 0 := by
      rintro rfl
      exact Nat.not_lt_zero _ room
    have taken := (mem_take_sorted_iff distinct (inside due)).mpr room
    unfold Finds Store.findDueJobIdsInPartitions
    rw [if_neg (by simp [some_, limited])]
    exact ⟨_, rfl, List.mem_map.mpr ⟨row, taken, isId⟩⟩

/-- Owning all partitions is owning those below the count. -/
theorem owns_range_iff {m : Nat} :
    ((List.range m).any fun p => h == (p : Int)) = true ↔ Below h m := by
  rw [List.any_eq_true]
  constructor
  · rintro ⟨p, inside, same⟩
    rw [List.mem_range] at inside
    have isP : h = p := by simpa using same
    unfold Below
    omega
  · rintro ⟨nonneg, below⟩
    refine ⟨h.toNat, List.mem_range.mpr (by omega), ?_⟩
    rw [beq_iff_eq]
    omega

theorem finds_all_iff {m : Nat} (stored : s.jobs.lookup id = some row) (positive : 0 < m)
    (placed : row.partitionHash = some h) :
    Finds s clock (List.range m) dueUntil limit id ↔ Below h m ∧ DueWithin s clock (List.range m) dueUntil limit row := by
  have some_ : List.range m ≠ [] := by
    rw [Ne, List.range_eq_nil]
    omega
  rw [finds_iff stored some_]
  unfold DueWithin Store.isDue
  rw [placed, Bool.and_eq_true, Bool.and_eq_true, Option.any_some, owns_range_iff]
  tauto

end Query

/-- `assign_all_embedded` makes the coordinator own the partitions below its own count, and leaves the store alone. -/
theorem assignAllEmbedded_owned {env : CoordHost} {p : Nat} {oracle : CoordOracle} {c c' : Cluster} {instanceId : String}
    (assigned : c.exec env p oracle (.assignAllEmbedded instanceId) = some ((), c')) :
    c'.owned instanceId = List.range (numPartitionsFromEnv env.host.env) ∧ c'.world.store = c.world.store := by
  cases assigned
  exact ⟨Function.update_self .., rfl⟩

/-- **Jobs and the partition count.** A job stored while the count was that of `host` stays in the partition it was
submitted with, or in that of its hash modulo this count, whatever the later deployments run with. A coordinator
that owns all of its own partitions finds the job when it is due exactly if this partition is below its count,
which it is for a job that was submitted without one unless the count has shrunk. -/
theorem found_after_repartition_iff {others : State → State → Prop} {around : Surroundings} {host : Host} {job : Job}
    {w w' : World} {s : State}
    (stored : Among others around (CoordinatorService.upsertJob host job) w (some (.ok ())) w')
    (later : Later job.jobId w'.state s) :
    ∃ row h, s.store.jobs.lookup job.jobId = some row ∧ row.partitionHash = some h ∧
      h = job.partitionHash.getD (host.xxh64 job.jobId % numPartitionsFromEnv host.env : Nat) ∧
      ∀ (env : CoordHost) (p : Nat) (oracle : CoordOracle) (c c' : Cluster) (instanceId : String),
        c.world.store = s.store → c.exec env p oracle (.assignAllEmbedded instanceId) = some ((), c') →
        (∀ (clock dueUntil : DateTime) (limit : Nat),
          Finds c'.world.store clock (c'.owned instanceId) dueUntil limit job.jobId ↔
            Below h (numPartitionsFromEnv env.host.env) ∧
              DueWithin c'.world.store clock (c'.owned instanceId) dueUntil limit row) ∧
        (job.partitionHash = none → numPartitionsFromEnv host.env ≤ numPartitionsFromEnv env.host.env →
          Below h (numPartitionsFromEnv env.host.env)) := by
  obtain ⟨first, isFirst, firstPlaced⟩ := upsertJob_placed stored
  obtain ⟨row, isStored, placed⟩ := later.placed ⟨first, isFirst, firstPlaced⟩
  have positive : 0 < numPartitionsFromEnv host.env := natFromEnv_pos _ (by decide)
  have isHash : partitionHashI64ForJobId host job.jobId = (host.xxh64 job.jobId % numPartitionsFromEnv host.env : Nat) := by
    rw [partitionHashI64ForJobId, partitionIndexForJobId, max_eq_left positive]
  rw [isHash] at placed
  refine ⟨row, _, isStored, placed, rfl, fun env p oracle c c' instanceId sameStore assigned => ⟨?_, ?_⟩⟩
  · obtain ⟨owns, kept⟩ := assignAllEmbedded_owned assigned
    have stored' : c'.world.store.jobs.lookup job.jobId = some row := by
      rw [kept, sameStore]
      exact isStored
    intro clock dueUntil limit
    rw [owns]
    exact finds_all_iff stored' (natFromEnv_pos _ (by decide)) placed
  · intro unset grown
    have small := Nat.mod_lt (host.xxh64 job.jobId) positive
    rw [unset, Option.getD_none]
    unfold Below
    omega

/-- A deployment with that partition count. The hash is the one of `"j"`. -/
def countedHost (numPartitions : Option Nat) : Host :=
  { Host.simple with xxh64 := fun _ => 7280368273352894986, env := { EnvVars.unset with numPartitions } }

/-- A due job that is submitted without a partition. -/
def unplacedJob : Job := { dueOnceJob with partitionHash := none }

/-- The world after it was stored under the default count. -/
def unplacedStored : World :=
  playedTo (fun _ => none) (CoordinatorService.upsertJob (countedHost none) unplacedJob) emptyWorld [.uuid "rev"]

/-- The coordinator that starts then, with the partitions below `numPartitions`. -/
def embedded (numPartitions : Nat) : Cluster :=
  { Cluster.fresh unplacedStored.state with
    world := (World.fresh unplacedStored.state).assign "A" (List.range numPartitions)
    log := [⟨0, (Cluster.fresh unplacedStored.state).snapshot, .assignAllEmbedded "A", ()⟩] }

/-- After the count has doubled, the job is found. -/
theorem found_after_repartition_doubled :
    Ends .calm (CoordinatorService.upsertJob (countedHost none) unplacedJob) emptyWorld (some (.ok ())) unplacedStored ∧
      Finds (embedded 128).world.store (seconds 60) ((embedded 128).owned "A") (seconds 60) 1 "j" := by
  have ends := ends_acceptedJob (countedHost none) emptyWorld unplacedJob [.uuid "rev"] (by decide +kernel)
  have first : Among Eq .calm (CoordinatorService.upsertJob (countedHost none) unplacedJob) emptyWorld (some (.ok ()))
      unplacedStored := ends.among fun _ => rfl
  obtain ⟨row, h, isStored, placed, isHash, found⟩ := found_after_repartition_iff first .refl
  obtain ⟨finds, grown⟩ := found ⟨countedHost (some 128), none⟩ 0 (.base .quiet) (.fresh unplacedStored.state)
    (embedded 128) "A" rfl rfl
  have due : ((embedded 128).world.job "j").any (fun row =>
      Store.scheduleDue (seconds 60) row && row.claimLeaseUntil.all (· < seconds 60) &&
        decide ((dueAhead (embedded 128).world.store (seconds 60) (List.range 128) (seconds 60) row).length < 1)) = true := by
    decide +kernel
  rw [show (embedded 128).world.job "j" = some row from isStored, Option.any_some, Bool.and_eq_true, Bool.and_eq_true,
    decide_eq_true_eq] at due
  exact ⟨ends, (finds _ _ _).mpr ⟨grown rfl (by decide), due.1.1, due.1.2, due.2⟩⟩

/-- After the count has gone down to four, the due job in partition ten is not. -/
theorem lost_by_repartition :
    Ends .calm (CoordinatorService.upsertJob (countedHost none) unplacedJob) emptyWorld (some (.ok ())) unplacedStored ∧
      (∃ row, unplacedStored.job "j" = some row ∧ row.partitionHash = some 10 ∧
        Store.scheduleDue (seconds 60) row = true ∧ row.claimLeaseUntil = none) ∧
      (Cluster.fresh unplacedStored.state).exec ⟨countedHost (some 4), none⟩ 0 (.base .quiet) (.assignAllEmbedded "A") =
        some ((), embedded 4) ∧
      ∀ limit, ¬ Finds (embedded 4).world.store (seconds 60) ((embedded 4).owned "A") (seconds 60) limit "j" := by
  have ends := ends_acceptedJob (countedHost none) emptyWorld unplacedJob [.uuid "rev"] (by decide +kernel)
  refine ⟨ends, ⟨_, rfl, rfl, by decide +kernel, rfl⟩, rfl, fun limit found => ?_⟩
  obtain ⟨⟨-, below⟩, -⟩ := (finds_all_iff (m := 4) (h := 10) rfl (by decide) rfl).mp found
  exact absurd below (by decide)

end Chronon
