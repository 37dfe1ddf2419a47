import Chronon.Concurrent.Crossing
import Chronon.Mem.Lookup
import Chronon.System.World

/-!
# The in-memory store, lock by lock

A deletion takes two lock sections, an upsert reads, appends and writes in sections
of their own. Here the calls of both are spelled out section by section; with nobody
in between they are the calls again (`lockSections_exec`).
-/

namespace Chronon
set_option autoImplicit false

open Concurrent Collections

/-- What is done under one lock, or under two that are held together. `outside` is any call that neither operation
makes. -/
inductive LockSection where
  | getJob (jobId : String)
  | indexed (jobName : String)
  | writeJob (job : Job)
  | appendRevision (revision : JobRevision)
  | removeRow (jobId : String)
  | dropRevisions (jobId : String)
  | utcNow
  | newUuid
  | outside

namespace LockSection

@[reducible] def Answer : LockSection → Type
  | .getJob _ => Option Job
  | .indexed _ => Option String
  | .writeJob _ => Result Unit
  | .appendRevision _ | .dropRevisions _ => Unit
  | .removeRow _ => Bool
  | .utcNow => DateTime
  | .newUuid => String
  | .outside => Empty

/-- One section. The clock and the identifiers are not determined. -/
def step (s : Store) : (op : LockSection) → op.Answer → Store → Prop
  | .getJob jobId, r, t => r = s.jobs.lookup jobId ∧ t = s
  | .indexed jobName, r, t => r = (s.jobsByName.lookup jobName).map Prod.snd ∧ t = s
  | .writeJob job, r, t => s.writeJob job = (r, t)
  | .appendRevision revision, _, t => t = (s.appendRevision revision).2
  | .removeRow jobId, r, t => r = (s.jobs.lookup jobId).isSome ∧ t = ((NameWrite.delete jobId).commit s).1
  | .dropRevisions jobId, _, t => t = s.dropRevisions jobId
  | .utcNow, _, t | .newUuid, _, t => t = s
  | .outside, _, _ => False

end LockSection

/-- One section as a program. -/
def section_ (op : LockSection) : Prog LockSection LockSection.Answer op.Answer := .perform op

/-- The calls of the two operations, section by section. -/
def lockSections : (op : Op) → Prog LockSection LockSection.Answer (Ans op)
  | .store (.getJob jobId) => do
    let found ← section_ (.getJob jobId)
    return .ok found
  | .store (.getJobByName jobName) => do
    match ← section_ (.indexed jobName) with
    | some jobId =>
      let found ← section_ (.getJob jobId)
      return .ok found
    | none => return .ok none
  | .store (.appendRevision revision) => do
    section_ (.appendRevision revision)
    return .ok ()
  | .store (.upsertJob job) => section_ (.writeJob job)
  | .store (.deleteJob jobId) => do
    if ← section_ (.removeRow jobId) then
      section_ (.dropRevisions jobId)
      return .ok true
    else return .ok false
  | .utcNow => section_ .utcNow
  | .newUuid => section_ .newUuid
  | _ => .call .outside fun never => nomatch never

/-! ## What the sections do -/

/-- The row `j` is stored. -/
def Store.hasRow (j : String) (s : Store) : Bool := (s.jobs.lookup j).isSome

/-- Revisions are recorded for `j`. -/
def Store.hasRevisions (j : String) (s : Store) : Bool := !(s.history j).isEmpty

namespace LockSection

variable {j : String} {s t : Store}

/-- The row `j` is written. -/
def writes (j : String) : Turn LockSection Answer → Bool
  | ⟨_, .writeJob job, .ok ()⟩ => job.jobId == j
  | _ => false

/-- A revision of `j` is appended. -/
def appends (j : String) : Turn LockSection Answer → Bool
  | ⟨_, .appendRevision revision, ()⟩ => revision.jobId == j
  | _ => false

/-- The row `j` is removed. -/
def removes (j : String) : Turn LockSection Answer → Bool
  | ⟨_, .removeRow jobId, removed⟩ => removed && jobId == j
  | _ => false

/-- The revisions of `j` are dropped. -/
def drops (j : String) : Turn LockSection Answer → Bool
  | ⟨_, .dropRevisions jobId, ()⟩ => jobId == j
  | _ => false

/-- Sections that remove no row. -/
def KeepsRows (op : LockSection) : Prop := ∀ jobId, op ≠ .removeRow jobId

/-- Sections that drop no revisions. -/
def KeepsRevisions (op : LockSection) : Prop := ∀ jobId, op ≠ .dropRevisions jobId

theorem row_kept (s : Store) (own : Bool) (op : LockSection) (r : op.Answer) (t : Store) (keeps : op.KeepsRows)
    (steps : step s op r t) : Store.hasRow j t = (Store.hasRow j s || writes j ⟨own, op, r⟩) := by
  cases op with
  | writeJob job =>
    rcases Store.writeJob_cases steps with ⟨⟨e, rfl⟩, rfl⟩ | ⟨rfl, -, rows⟩
    · simp [writes]
    · simp only [Store.hasRow, rows j, writes]
      by_cases same : job.jobId = j <;> simp [same]
  | removeRow jobId => exact absurd rfl (keeps jobId)
  | outside => exact steps.elim
  | getJob _ | indexed _ =>
    obtain ⟨-, rfl⟩ := steps
    simp [writes]
  | appendRevision _ | dropRevisions _ =>
    subst steps
    simp [writes, Store.hasRow, Store.appendRevision, Store.dropRevisions]
  | utcNow | newUuid =>
    subst steps
    simp [writes]

theorem revisions_kept (s : Store) (own : Bool) (op : LockSection) (r : op.Answer) (t : Store) (keeps : op.KeepsRevisions)
    (steps : step s op r t) : Store.hasRevisions j t = (Store.hasRevisions j s || appends j ⟨own, op, r⟩) := by
  cases op with
  | appendRevision revision =>
    subst steps
    simp only [Store.hasRevisions, Store.history_appendRevision, appends]
    by_cases same : revision.jobId = j <;> simp [same]
  | dropRevisions jobId => exact absurd rfl (keeps jobId)
  | outside => exact steps.elim
  | getJob _ | indexed _ =>
    obtain ⟨-, rfl⟩ := steps
    simp [appends]
  | writeJob job => simp [appends, Store.hasRevisions, Store.history_congr (Store.writeJob_revisions steps)]
  | removeRow jobId =>
    obtain ⟨-, rfl⟩ := steps
    have same : ((NameWrite.delete jobId).commit s).1.revisions = s.revisions := by
      dsimp only [NameWrite.commit]
      split <;> rfl
    simp [appends, Store.hasRevisions, Store.history_congr same]
  | utcNow | newUuid =>
    subst steps
    simp [appends]

/-- A row is found and removed, or it was not there. -/
theorem removeRow_cases {removed : Bool} (steps : step s (.removeRow j) removed t) :
    removed = Store.hasRow j s ∧ Store.hasRow j t = false ∧ (removed = false → t = s) := by
  obtain ⟨rfl, rfl⟩ := steps
  dsimp only [NameWrite.commit]
  cases stored : s.jobs.lookup j with
  | none => exact ⟨by rw [Store.hasRow, stored], by rw [Store.hasRow, stored]; rfl, fun _ => rfl⟩
  | some job =>
    refine ⟨by rw [Store.hasRow, stored], ?_, by rintro ⟨⟩⟩
    simp [Store.hasRow, Table.lookup_erase_self]

theorem dropRevisions_none {u : Unit} (steps : step s (.dropRevisions j) u t) : Store.hasRevisions j t = false := by
  subst steps
  simp [Store.hasRevisions, Store.history, Store.dropRevisions, Table.lookup_erase_self]

/-- The sections of an upsert remove nothing. -/
def Spares (op : LockSection) : Prop := op.KeepsRows ∧ op.KeepsRevisions

/-- No section of an upsert is a removal. -/
theorem Spares.not_removes {turn : Turn LockSection Answer} (spares : turn.op.Spares) :
    removes j turn = false ∧ drops j turn = false := by
  obtain ⟨own, op, r⟩ := turn
  cases op with
  | removeRow jobId => exact absurd rfl (spares.1 jobId)
  | dropRevisions jobId => exact absurd rfl (spares.2 jobId)
  | _ => exact ⟨rfl, rfl⟩

/-- With nobody in between, the sections are the call. -/
theorem lockSections_exec {c : StoreCall} {r : Result c.Ret} (clock : DateTime)
    (runs : Runs step (lockSections (.store c)) s r t) : c.exec clock s = (r, t) := by
  cases c with
  | getJob jobId =>
    obtain ⟨_, _, ⟨rfl, rfl⟩, rfl, rfl⟩ := runs
    rfl
  | getJobByName jobName =>
    obtain ⟨found, u, ⟨isFound, same⟩, rest⟩ := runs
    subst same
    cases held : u.jobsByName.lookup jobName with
    | none =>
      rw [held] at isFound
      subst isFound
      obtain ⟨rfl, rfl⟩ := rest
      simp only [StoreCall.exec, Store.getJobByName, held]
    | some entry =>
      rw [held] at isFound
      subst isFound
      obtain ⟨_, _, ⟨rfl, rfl⟩, rfl, rfl⟩ := rest
      simp only [StoreCall.exec, Store.getJobByName, Store.getJob, held]
  | appendRevision revision =>
    obtain ⟨_, _, rfl, rfl, rfl⟩ := runs
    rfl
  | upsertJob job =>
    obtain ⟨_, _, writes, rfl, rfl⟩ := runs
    exact writes
  | deleteJob jobId =>
    obtain ⟨removed, u, ⟨rfl, rfl⟩, rest⟩ := runs
    simp only [StoreCall.exec, Store.deleteJob, Store.removeJob]
    cases stored : s.jobs.lookup jobId with
    | none =>
      simp only [stored] at rest
      obtain ⟨rfl, rfl⟩ := rest
      simp [NameWrite.commit, stored]
    | some job =>
      simp only [stored] at rest
      obtain ⟨_, _, rfl, rfl, rfl⟩ := rest
      simp [NameWrite.commit, stored, Store.dropRevisions]
  | _ =>
    obtain ⟨_, _, impossible, _⟩ := runs
    exact impossible.elim

/-- One section, computed: the clock shows `now` and `id` is the next identifier. -/
def exec (now : DateTime) (id : String) (s : Store) : (op : LockSection) → Option (op.Answer × Store)
  | .getJob jobId => some (s.jobs.lookup jobId, s)
  | .indexed jobName => some ((s.jobsByName.lookup jobName).map Prod.snd, s)
  | .writeJob job => some (s.writeJob job)
  | .appendRevision revision => some ((), (s.appendRevision revision).2)
  | .removeRow jobId => some ((s.jobs.lookup jobId).isSome, ((NameWrite.delete jobId).commit s).1)
  | .dropRevisions jobId => some ((), s.dropRevisions jobId)
  | .utcNow => some (now, s)
  | .newUuid => some (id, s)
  | .outside => none

theorem exec_sound (now : DateTime) (id : String) (s : Store) (op : LockSection) (r : op.Answer) (t : Store)
    (ran : exec now id s op = some (r, t)) : step s op r t := by
  cases op with
  | writeJob job => exact Option.some.inj ran
  | outside => cases ran
  | getJob _ | indexed _ | removeRow _ =>
    cases ran
    exact ⟨rfl, rfl⟩
  | _ =>
    cases ran
    rfl

end LockSection

end Chronon
