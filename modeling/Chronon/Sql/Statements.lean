import Chronon.Concurrent.Crossing
import Chronon.Sql.Store
import Chronon.System.World

/-!
# The SQL store, statement by statement

`delete_job` is three statements, and `upsert_job` asks for the holder of the name
after a violation, all without a transaction. Here the calls of a deletion and of
an upsert are spelled out; with nobody in between and no failure they are the calls
again (`deleteJob_exec`, `upsertJob_exec`).
-/

namespace Chronon
set_option autoImplicit false

open Concurrent Collections

namespace Sql

/-- The statements of the two operations. -/
inductive Statement where
  | selectJob (jobId : String)
  | selectJobNamed (jobName : String)
  | insertRevision (revision : JobRevision)
  | insertJob (job : Job)
  | deleteRevisions (jobId : String)
  | deleteJob (jobId : String)

namespace Statement

@[reducible] def Ret : Statement → Type
  | .selectJob _ | .selectJobNamed _ => Option Job
  | _ => Unit

/-- What SQLite says where a unique column is taken. -/
def taken (column : String) : ChrononError := .storageError ("UNIQUE constraint failed: " ++ column)

theorem revisions_distinct (d : Db) (jobId : String) :
    ((d.revisions.rows.filter fun r => r.jobId ≠ jobId).map JobRevision.revisionId).Nodup :=
  (List.filter_sublist.map JobRevision.revisionId).nodup d.revisions.distinct

theorem names_erase (d : Db) (jobId : String) : ((d.jobs.erase jobId).rows.map Job.jobName).Nodup :=
  (List.filter_sublist.map Job.jobName).nodup d.names

/-- One statement. An `INSERT` is refused where its key, or the name of another job, is taken. -/
def exec (d : Db) : (q : Statement) → Result q.Ret × Db
  | .selectJob jobId => (d.getJob jobId, d)
  | .selectJobNamed jobName => (d.getJobByName jobName, d)
  | .insertRevision revision =>
    match d.revisions.lookup revision.revisionId with
    | some _ => (.error (taken "chronon_job_revision.revision_id"), d)
    | none => (.ok (), { d with revisions := d.revisions.insert revision })
  | .insertJob job =>
    match d.upsertJob job with
    | (.error _, _) => (.error (taken "chronon_job.job_name"), d)
    | (.ok (), d') => (.ok (), d')
  | .deleteRevisions jobId =>
    (.ok (), { d with revisions := ⟨d.revisions.rows.filter fun r => r.jobId ≠ jobId, revisions_distinct d jobId⟩ })
  | .deleteJob jobId => (.ok (), { d with jobs := d.jobs.erase jobId, names := names_erase d jobId })

end Statement

/-- What the two operations do: statements, the clock and new identifiers. -/
inductive Step where
  | statement (q : Statement)
  | utcNow
  | newUuid
  | outside

@[reducible] def Step.Answer : Step → Type
  | .statement q => Result q.Ret
  | .utcNow => DateTime
  | .newUuid => String
  | .outside => Empty

/-- One step, where the statements that `refuses` names fail. A statement that fails has changed nothing. -/
def step (refuses : Statement → Option ChrononError) (d : Db) : (op : Step) → op.Answer → Db → Prop
  | .statement q, r, d' =>
    match refuses q with
    | some e => r = .error e ∧ d' = d
    | none => q.exec d = (r, d')
  | .utcNow, _, d' | .newUuid, _, d' => d' = d
  | .outside, _, _ => False

/-- One step as a program. -/
def single (op : Step) : Prog Step Step.Answer op.Answer := .perform op

def query (q : Statement) : Prog Step Step.Answer (Result q.Ret) := single (.statement q)

/-- `message.contains`. -/
def mentionsUnique (message : String) : Bool :=
  ["UNIQUE", "unique", "duplicate"].any fun text => decide (text.toList <:+: message.toList)

/-- The rest of `upsert_job` after a `StorageError`. -/
def nameTaken (job : Job) (message : String) : Prog Step Step.Answer (Result Unit) := do
  if mentionsUnique message then
    match ← query (.selectJobNamed job.jobName) with
    | .error e => return .error e
    | .ok (some existing) =>
      if existing.jobId ≠ job.jobId then return .error (.jobNameTaken job.jobName existing.jobId)
      else return .error (.storageError message)
    | .ok none => return .error (.storageError message)
  else return .error (.storageError message)

/-- `upsert_job`. -/
def upsertJob (job : Job) : Prog Step Step.Answer (Result Unit) := do
  match ← query (.insertJob job) with
  | .error (.storageError message) => nameTaken job message
  | .error e => return .error e
  | .ok () => return .ok ()

/-- `delete_job`. -/
def deleteJob (jobId : String) : Prog Step Step.Answer (Result Bool) := do
  match ← query (.selectJob jobId) with
  | .error e => return .error e
  | .ok none => return .ok false
  | .ok (some _) =>
    match ← query (.deleteRevisions jobId) with
    | .error e => return .error e
    | .ok () =>
      match ← query (.deleteJob jobId) with
      | .error e => return .error e
      | .ok () => return .ok true

/-- The calls of the two operations, statement by statement. -/
def statements : (op : Op) → Prog Step Step.Answer (Ans op)
  | .store (.getJob jobId) => query (.selectJob jobId)
  | .store (.getJobByName jobName) => query (.selectJobNamed jobName)
  | .store (.appendRevision revision) => query (.insertRevision revision)
  | .store (.upsertJob job) => upsertJob job
  | .store (.deleteJob jobId) => deleteJob jobId
  | .utcNow => single .utcNow
  | .newUuid => single .newUuid
  | _ => .call .outside fun never => nomatch never

/-! ## What the statements do -/

/-- The row `j` is stored. -/
def Db.hasRow (j : String) (d : Db) : Bool := (d.jobs.lookup j).isSome

/-- Revisions are recorded for `j`. -/
def Db.hasRevisions (j : String) (d : Db) : Bool := d.revisions.rows.any (·.jobId == j)

/-- No statement fails. -/
def reliable : Statement → Option ChrononError := fun _ => none

theorem Db.upsertJob_cases (d : Db) (job : Job) :
    (∃ holder, d.nameHolder job = some holder ∧ d.upsertJob job = (.error (.jobNameTaken job.jobName holder.jobId), d)) ∨
      (d.nameHolder job = none ∧ ∃ d', d.upsertJob job = (.ok (), d') ∧ d'.jobs = d.jobs.insert job ∧
        d'.revisions = d.revisions) := by
  unfold Db.upsertJob
  split
  · rename_i holder held
    exact .inl ⟨holder, held, rfl⟩
  · rename_i free
    exact .inr ⟨free, _, rfl, rfl, rfl⟩

section Query

variable {refuses : Statement → Option ChrononError} {d d' : Db} {q : Statement}

/-- One statement fails, or it runs. -/
theorem query_cases {r : Result q.Ret} (steps : step refuses d (.statement q) r d') :
    (∃ e, refuses q = some e ∧ r = .error e ∧ d' = d) ∨ (refuses q = none ∧ q.exec d = (r, d')) := by
  unfold step at steps
  dsimp only at steps
  split at steps
  · rename_i e refused
    exact .inl ⟨e, refused, steps⟩
  · rename_i accepted
    exact .inr ⟨accepted, steps⟩

theorem query_refused {e : ChrononError} (refused : refuses q = some e) : step refuses d (.statement q) (.error e) d := by
  simp only [step, refused, and_self]

theorem query_accepted (accepted : refuses q = none) : step refuses d (.statement q) (q.exec d).1 (q.exec d).2 := by
  simp only [step, accepted]

end Query

namespace Step

variable {refuses : Statement → Option ChrononError} {j : String} {d d' : Db}

/-- The row `j` is written. -/
def writes (j : String) : Turn Step Answer → Bool
  | ⟨_, .statement (.insertJob job), .ok ()⟩ => job.jobId == j
  | _ => false

/-- A revision of `j` is appended. -/
def appends (j : String) : Turn Step Answer → Bool
  | ⟨_, .statement (.insertRevision revision), .ok ()⟩ => revision.jobId == j
  | _ => false

/-- The row `j` is deleted. -/
def removes (j : String) : Turn Step Answer → Bool
  | ⟨_, .statement (.deleteJob jobId), .ok ()⟩ => jobId == j
  | _ => false

/-- The revisions of `j` are deleted. -/
def drops (j : String) : Turn Step Answer → Bool
  | ⟨_, .statement (.deleteRevisions jobId), .ok ()⟩ => jobId == j
  | _ => false

/-- Steps that delete no row. -/
def KeepsRows (op : Step) : Prop := ∀ jobId, op ≠ .statement (.deleteJob jobId)

/-- Steps that delete no revisions. -/
def KeepsRevisions (op : Step) : Prop := ∀ jobId, op ≠ .statement (.deleteRevisions jobId)

/-- The steps of an upsert delete nothing. -/
def Spares (op : Step) : Prop := op.KeepsRows ∧ op.KeepsRevisions

theorem KeepsRows.not_removes {op : Step} {own : Bool} {r : op.Answer} (keeps : op.KeepsRows) :
    removes j ⟨own, op, r⟩ = false := by
  cases op with
  | statement q =>
    cases q with
    | deleteJob jobId => exact absurd rfl (keeps jobId)
    | _ => rfl
  | _ => rfl

theorem KeepsRevisions.not_drops {op : Step} {own : Bool} {r : op.Answer} (keeps : op.KeepsRevisions) :
    drops j ⟨own, op, r⟩ = false := by
  cases op with
  | statement q =>
    cases q with
    | deleteRevisions jobId => exact absurd rfl (keeps jobId)
    | _ => rfl
  | _ => rfl

/-- No step of an upsert is a deletion. -/
theorem Spares.not_removes {turn : Turn Step Answer} (spares : turn.op.Spares) :
    removes j turn = false ∧ drops j turn = false :=
  ⟨spares.1.not_removes, spares.2.not_drops⟩

/-- One step on the row `j`, also where it fails. -/
theorem row_step {op : Step} {r : op.Answer} (own : Bool) (steps : step refuses d op r d') :
    Db.hasRow j d' = ((Db.hasRow j d && !removes j ⟨own, op, r⟩) || writes j ⟨own, op, r⟩) := by
  cases op with
  | statement q =>
    rcases query_cases steps with ⟨e, -, rfl, rfl⟩ | ⟨-, ran⟩
    · cases q <;> simp [removes, writes]
    · cases q with
      | insertJob job =>
        rcases d.upsertJob_cases job with ⟨holder, -, refused⟩ | ⟨-, d₁, written, jobs, -⟩
        · rw [Statement.exec, refused] at ran
          cases ran
          simp [removes, writes]
        · rw [Statement.exec, written] at ran
          cases ran
          simp only [Db.hasRow, jobs, Table.lookup_insert, removes, writes]
          by_cases same : job.jobId = j <;> simp [same]
      | deleteJob jobId =>
        cases ran
        simp only [Db.hasRow, removes, writes]
        by_cases same : jobId = j
        · simp [same, Table.lookup_erase_self]
        · simp [same, Table.lookup_erase_ne]
      | insertRevision revision =>
        simp only [Statement.exec] at ran
        split at ran <;> cases ran <;> simp [removes, writes, Db.hasRow]
      | _ =>
        cases ran
        simp [removes, writes, Db.hasRow]
  | outside => exact steps.elim
  | utcNow | newUuid =>
    cases steps
    simp [removes, writes]

/-- One step on the revisions of `j`, also where it fails. -/
theorem revisions_step {op : Step} {r : op.Answer} (own : Bool) (steps : step refuses d op r d') :
    Db.hasRevisions j d' = ((Db.hasRevisions j d && !drops j ⟨own, op, r⟩) || appends j ⟨own, op, r⟩) := by
  cases op with
  | statement q =>
    rcases query_cases steps with ⟨e, -, rfl, rfl⟩ | ⟨-, ran⟩
    · cases q <;> simp [drops, appends]
    · cases q with
      | insertJob job =>
        rcases d.upsertJob_cases job with ⟨holder, -, refused⟩ | ⟨-, d₁, written, -, revisions⟩
        · rw [Statement.exec, refused] at ran
          cases ran
          simp [drops, appends]
        · rw [Statement.exec, written] at ran
          cases ran
          simp [drops, appends, Db.hasRevisions, revisions]
      | deleteRevisions jobId =>
        cases ran
        rw [Bool.eq_iff_iff]
        simp only [Db.hasRevisions, drops, appends, List.any_eq_true, List.mem_filter, Bool.or_false, Bool.and_eq_true,
          Bool.not_eq_true', beq_eq_false_iff_ne, beq_iff_eq, decide_eq_true_eq]
        constructor
        · rintro ⟨row, ⟨inside, other⟩, rfl⟩
          exact ⟨⟨row, inside, rfl⟩, other.symm⟩
        · rintro ⟨⟨row, inside, rfl⟩, other⟩
          exact ⟨row, ⟨inside, other.symm⟩, rfl⟩
      | insertRevision revision =>
        simp only [Statement.exec] at ran
        split at ran
        · cases ran
          simp [drops, appends]
        · rename_i fresh
          cases ran
          rw [Bool.eq_iff_iff]
          simp only [Db.hasRevisions, drops, appends, Bool.not_false, Bool.and_true, Bool.or_eq_true, List.any_eq_true,
            Table.insert, Table.mem_put]
          constructor
          · rintro ⟨row, rfl | ⟨inside, -⟩, own⟩
            · exact .inr own
            · exact .inl ⟨row, inside, own⟩
          · rintro (⟨row, inside, own⟩ | own)
            · exact ⟨row, .inr ⟨inside, Table.lookup_eq_none.mp fresh row inside⟩, own⟩
            · exact ⟨revision, .inl rfl, own⟩
      | _ =>
        cases ran
        simp [drops, appends, Db.hasRevisions]
  | outside => exact steps.elim
  | utcNow | newUuid =>
    cases steps
    simp [drops, appends]

theorem row_kept (d : Db) (own : Bool) (op : Step) (r : op.Answer) (d' : Db) (keeps : op.KeepsRows)
    (steps : step reliable d op r d') : Db.hasRow j d' = (Db.hasRow j d || writes j ⟨own, op, r⟩) := by
  rw [row_step own steps, keeps.not_removes, Bool.not_false, Bool.and_true]

theorem revisions_kept (d : Db) (own : Bool) (op : Step) (r : op.Answer) (d' : Db) (keeps : op.KeepsRevisions)
    (steps : step reliable d op r d') :
    Db.hasRevisions j d' = (Db.hasRevisions j d || appends j ⟨own, op, r⟩) := by
  rw [revisions_step own steps, keeps.not_drops, Bool.not_false, Bool.and_true]

/-- The row is gone after its deletion. -/
theorem deleteJob_none {r : Result Unit} (steps : step reliable d (.statement (.deleteJob j)) r d') :
    r = .ok () ∧ Db.hasRow j d' = false := by
  cases steps
  exact ⟨rfl, by simp [Db.hasRow, Table.lookup_erase_self]⟩

theorem deleteRevisions_none {r : Result Unit} (steps : step reliable d (.statement (.deleteRevisions j)) r d') :
    r = .ok () ∧ Db.hasRevisions j d' = false := by
  cases steps
  refine ⟨rfl, ?_⟩
  rw [Db.hasRevisions, List.any_eq_false]
  intro row inside
  have other := (List.mem_filter.mp inside).2
  simpa using other

/-- With nobody in between and no failure, the statements of `delete_job` are the deletion. -/
theorem deleteJob_exec {r : Result Bool} (runs : Runs (step reliable) (deleteJob j) d r d') : d.deleteJob j = (r, d') := by
  obtain ⟨found, _, ran, rest⟩ := runs
  cases ran
  cases stored : d.jobs.lookup j with
  | none =>
    rw [Db.getJob, stored] at rest
    obtain ⟨rfl, rfl⟩ := rest
    simp only [Db.deleteJob, stored]
  | some row =>
    rw [Db.getJob, stored] at rest
    obtain ⟨_, _, drops, rest⟩ := rest
    cases drops
    obtain ⟨_, _, deletes, rest⟩ := rest
    cases deletes
    obtain ⟨rfl, rfl⟩ := rest
    simp only [Db.deleteJob, stored]

/-- The holder of a name is the row found under it. -/
theorem named_of_holder {job holder : Job} (held : d.nameHolder job = some holder) :
    d.getJobByName job.jobName = .ok (some holder) ∧ holder.jobId ≠ job.jobId := by
  have holds := List.find?_some held
  rw [decide_eq_true_eq] at holds
  have inside := List.mem_of_find?_eq_some held
  refine ⟨?_, holds.2⟩
  rw [Db.getJobByName]
  cases found : d.jobs.rows.find? fun row => row.jobName = job.jobName with
  | none => exact absurd (decide_eq_true holds.1) (List.find?_eq_none.mp found holder inside)
  | some row =>
    have named := List.find?_some found
    rw [decide_eq_true_eq] at named
    have same := List.inj_on_of_nodup_map d.names (List.mem_of_find?_eq_some found) inside (named.trans holds.1.symm)
    rw [same]

/-- The error of a name that is taken says so. -/
theorem taken_mentionsUnique :
    ∃ message, Statement.taken "chronon_job.job_name" = .storageError message ∧ mentionsUnique message = true :=
  ⟨_, rfl, by decide⟩

theorem nameTaken_exec {job holder : Job} {message : String} {r : Result Unit} (mentions : mentionsUnique message = true)
    (held : d.nameHolder job = some holder) (runs : Runs (step reliable) (nameTaken job message) d r d') :
    r = .error (.jobNameTaken job.jobName holder.jobId) ∧ d' = d := by
  obtain ⟨found, other⟩ := named_of_holder held
  rw [nameTaken, if_pos mentions] at runs
  obtain ⟨_, _, looked, rest⟩ := runs
  cases looked
  rw [found] at rest
  have answered : Runs (step reliable)
      (if holder.jobId ≠ job.jobId then return .error (.jobNameTaken job.jobName holder.jobId)
        else return .error (.storageError message)) d r d' := rest
  rw [if_pos other] at answered
  exact answered

/-- The statements of `upsert_job` are the upsert, the answer to a name that is taken included. -/
theorem upsertJob_exec {job : Job} {r : Result Unit} (runs : Runs (step reliable) (upsertJob job) d r d') :
    d.upsertJob job = (r, d') := by
  obtain ⟨written, _, ran, rest⟩ := runs
  have executed : (Statement.insertJob job).exec d = (_, _) := ran
  rcases d.upsertJob_cases job with ⟨holder, held, refused⟩ | ⟨-, d₁, written, -⟩
  · rw [Statement.exec, refused] at executed
    cases executed
    obtain ⟨message, isMessage, mentions⟩ := taken_mentionsUnique
    rw [isMessage] at rest
    obtain ⟨rfl, rfl⟩ := nameTaken_exec mentions held rest
    exact refused
  · rw [Statement.exec, written] at executed
    cases executed
    obtain ⟨rfl, rfl⟩ := rest
    exact written

/-- One step, computed: the clock shows `now` and `id` is the next identifier. -/
def exec (refuses : Statement → Option ChrononError) (now : DateTime) (id : String) (d : Db) :
    (op : Step) → Option (op.Answer × Db)
  | .statement q =>
    match refuses q with
    | some e => some (.error e, d)
    | none => some (q.exec d)
  | .utcNow => some (now, d)
  | .newUuid => some (id, d)
  | .outside => none

theorem exec_sound (refuses : Statement → Option ChrononError) (now : DateTime) (id : String) (d : Db) (op : Step)
    (r : op.Answer) (d' : Db) (ran : exec refuses now id d op = some (r, d')) : step refuses d op r d' := by
  cases op with
  | statement q =>
    dsimp only [exec] at ran
    cases refused : refuses q with
    | some e =>
      rw [refused] at ran
      cases ran
      exact query_refused refused
    | none =>
      rw [refused] at ran
      have executed := query_accepted (d := d) refused
      rwa [Option.some.inj ran] at executed
  | outside => cases ran
  | _ =>
    cases ran
    rfl

end Step

end Sql

end Chronon
