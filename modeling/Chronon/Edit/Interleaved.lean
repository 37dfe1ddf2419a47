import Chronon.Axum.Requests
import Chronon.Edit.RunOnceDue
import Chronon.Mem.Names

/-!
# Interleaved upserts of one job

The revision number of an upsert comes from the row its request has looked up;
the revision is appended and the row written several calls later. As long as
no request looks the job up while another is between its lookup and its write,
nothing is lost: every successful request has its revision, and the row is the
last of them. Two requests that read the same number both use it.
-/

namespace Chronon
set_option autoImplicit false

open Concurrent

/-! ## What is asked of a run -/

/-- A lookup takes the job in hand, a write puts it down. -/
def handles (e : LogEntry) (before : Bool) : Bool :=
  match e with
  | ⟨_, _, .store (.getJobByName _), _⟩ => true
  | ⟨_, _, .store (.upsertJob _), _⟩ => false
  | _ => before

/-- Request `p` has looked the job up and has yet to write it. -/
def midEdit (p : Nat) (log : Log) : Bool := track handles false p log

/-- The row a call has written. -/
def rowWritten (e : LogEntry) : Option Job :=
  match e with
  | ⟨_, _, .store (.upsertJob job), .ok ()⟩ => some job
  | _ => none

/-- The rows written, oldest first. -/
def rowsWritten (log : Log) : List Job := (log.filterMap rowWritten).reverse

/-- Who has written them, latest first. -/
def writers (log : Log) : List Nat := (log.filter fun e => (rowWritten e).isSome).map Entry.pid

/-- The requests answered with success. -/
def successes (answers : List (Nat × Axum.StatusCode)) : List Nat := (answers.filter (·.2 = .ok)).map Prod.fst

/-- The requests are for the job `n`, and an identifier that is drawn has no revisions. -/
def RequestsFor (n : String) (l : ApiLabel) (w : Api) : Prop :=
  match l with
  | .start _ req => req.jobName = n
  | .call _ (.task .newUuid) id => w.world.store.history id = []
  | _ => True

/-- The number of the job can be raised. -/
def Store.Raisable (s : Store) (n : String) : Prop :=
  match s.getJobByName n with
  | .ok (some row) => row.currentRevision < 2147483647
  | _ => True

/-- The job is looked up while no other request has it in hand, and not at its last number. -/
def LooksAlone (n : String) (l : ApiLabel) (w : Api) : Prop :=
  match l with
  | .call p (.task (.store (.getJobByName _))) _ =>
    (∀ q, q ≠ p → midEdit q w.world.log = false) ∧ w.world.store.Raisable n
  | _ => True

/-- The steps of requests for `n` that edit it one after another. -/
structure OneAtATime (n : String) (l : ApiLabel) (w : Api) : Prop where
  named : RequestsFor n l w
  alone : LooksAlone n l w

/-- The revisions of a row: those `before`, and one for each of the rows written since. -/
structure Accounts (before now : List JobRevision) (row : Job) (rows : List Job) : Prop where
  added : ∃ added, now = before ++ added ∧ added.map (·.snapshotJson) = rows
  distinct : (now.map (·.revisionNumber)).Nodup
  largest : ∀ revision ∈ now, revision.revisionNumber ≤ row.currentRevision
  last : rows ≠ [] →
    ∃ last, now.getLast? = some last ∧ last.revisionNumber = row.currentRevision ∧ last.snapshotJson = row

/-- The job `n` has one more revision than in `s` for each request answered with success. -/
structure NothingLost (n : String) (s : Store) (w : Api) : Prop where
  missing : w.world.store.getJobByName n = .ok none → successes w.answers = []
  stored : ∀ row, w.world.store.getJobByName n = .ok (some row) → ∃ rows,
    rows.length = (successes w.answers).length ∧
      Accounts (s.history row.jobId) (w.world.store.history row.jobId) row rows

/-- Every request that has made a call has been answered. -/
def AllAnswered (c : ApiConfig) : Prop := ∀ p ∈ c.world.world.log.map Entry.pid, c.finished p = true

/-! ## The assertions of the phases -/

/-- What is on record when nobody has the job in hand. -/
structure Saved (n : String) (s : Store) (w : World) : Prop where
  missing : (∀ id row, w.job id = some row → row.jobName ≠ n) → rowsWritten w.log = []
  stored : ∀ id row, w.job id = some row → row.jobName = n →
    Accounts (s.history id) (w.store.history id) row (rowsWritten w.log)

/-- A copy is to be stored under the number after that of the row, or under 1 as a new job. -/
inductive Drafted (n id : String) (number : Int) (w : World) : Prop
  | bumped {row : Job} : w.job id = some row → row.jobName = n → number = row.currentRevision + 1 → Drafted n id number w
  | new : (∀ id row, w.job id = some row → row.jobName ≠ n) → w.job id = none → w.store.history id = [] →
      number = 1 → Drafted n id number w

/-- The revision of `job` is on record, its row is not yet written. -/
structure Recorded (n : String) (s : Store) (job : Job) (w : World) : Prop where
  name : job.jobName = n
  only : ∀ id row, w.job id = some row → row.jobName = n → id = job.jobId
  accounts : Accounts (s.history job.jobId) (w.store.history job.jobId) job (rowsWritten w.log ++ [job])

/-- What holds in a phase of request `p`. -/
def UpsertPhase.Holds (n : String) (s : Store) (p : Nat) (φ : UpsertPhase) (w : World) : Prop :=
  match φ with
  | .looking name => name = n ∧ (midEdit p w.log = true → Saved n s w)
  | .creating name =>
    midEdit p w.log = true ∧ Saved n s w ∧ name = n ∧ ∀ id row, w.job id = some row → row.jobName ≠ n
  | .editing id name number => midEdit p w.log = true ∧ Saved n s w ∧ name = n ∧ Drafted n id number w
  | .naming job => midEdit p w.log = true ∧ Saved n s w ∧ job.jobName = n ∧ Drafted n job.jobId job.currentRevision w
  | .revising job number =>
    midEdit p w.log = true ∧ Saved n s w ∧ job.jobName = n ∧ Drafted n job.jobId job.currentRevision w ∧
      number = job.currentRevision
  | .writing job => midEdit p w.log = true ∧ Recorded n s job w
  | .stored | .failed | .answered => midEdit p w.log = true → Saved n s w

/-- The accepted writes of a request are its successes, and one that is still to be answered. -/
def Tally (p : Nat) (φ : UpsertPhase) (w : Api) : Prop :=
  (writers w.world.log).count p = (successes w.answers).count p + φ.owes

/-- What holds between any two calls. -/
structure InOrder (n : String) (s : Store) (w : World) : Prop where
  names : w.store.NamesExact
  grown : ∀ id, s.history id <+: w.store.history id
  alone : ∀ p q, midEdit p w.log = true → midEdit q w.log = true → p = q
  saved : (∀ p, midEdit p w.log = false) → Saved n s w

/-- The rows, the revisions and the writes are the same. -/
structure SameRows (w w' : World) : Prop where
  job : ∀ id, w'.job id = w.job id
  history : ∀ id, w'.store.history id = w.store.history id
  written : rowsWritten w'.log = rowsWritten w.log

section Assertions

variable {n : String} {s : Store} {w w' : World} {p : Nat}

theorem Saved.congr (saved : Saved n s w) (same : SameRows w w') : Saved n s w' := by
  constructor
  · intro missing
    rw [same.written]
    exact saved.missing fun id row stored => missing id row ((same.job id).trans stored)
  · intro id row stored name
    rw [same.history, same.written]
    exact saved.stored id row ((same.job id).symm.trans stored) name

theorem Drafted.congr {id : String} {number : Int} (drafted : Drafted n id number w) (same : SameRows w w') :
    Drafted n id number w' := by
  cases drafted with
  | bumped stored name isNext => exact .bumped ((same.job id).trans stored) name isNext
  | new missing absent blank isFirst =>
    refine .new ?_ ((same.job id).trans absent) ((same.history id).trans blank) isFirst
    exact fun id row stored => missing id row ((same.job id).symm.trans stored)

theorem Recorded.congr {job : Job} (recorded : Recorded n s job w) (same : SameRows w w') : Recorded n s job w' := by
  refine ⟨recorded.name, fun id row stored => recorded.only id row ((same.job id).symm.trans stored), ?_⟩
  rw [same.history, same.written]
  exact recorded.accounts

/-- The assertion of a phase is about the rows, the writes and its own request. -/
theorem UpsertPhase.Holds.congr {φ : UpsertPhase} (holds : φ.Holds n s p w) (same : SameRows w w')
    (own : midEdit p w'.log = midEdit p w.log) : φ.Holds n s p w' := by
  have missing (free : ∀ id row, w.job id = some row → row.jobName ≠ n) :
      ∀ id row, w'.job id = some row → row.jobName ≠ n :=
    fun id row stored => free id row ((same.job id).symm.trans stored)
  unfold UpsertPhase.Holds at holds ⊢
  rw [own]
  cases φ with
  | looking name => exact ⟨holds.1, fun mid => (holds.2 mid).congr same⟩
  | creating name => exact ⟨holds.1, holds.2.1.congr same, holds.2.2.1, missing holds.2.2.2⟩
  | editing id name number => exact ⟨holds.1, holds.2.1.congr same, holds.2.2.1, holds.2.2.2.congr same⟩
  | naming job => exact ⟨holds.1, holds.2.1.congr same, holds.2.2.1, holds.2.2.2.congr same⟩
  | revising job number =>
    exact ⟨holds.1, holds.2.1.congr same, holds.2.2.1, holds.2.2.2.1.congr same, holds.2.2.2.2⟩
  | writing job => exact ⟨holds.1, holds.2.congr same⟩
  | stored | failed | answered => exact fun mid => (holds mid).congr same

/-- A request without the job in hand says nothing of the rows. -/
theorem UpsertPhase.Holds.free {φ : UpsertPhase} (holds : φ.Holds n s p w) (before : midEdit p w.log = false)
    (after : midEdit p w'.log = false) : φ.Holds n s p w' := by
  unfold UpsertPhase.Holds at holds ⊢
  rw [before] at holds
  rw [after]
  cases φ with
  | looking name => exact ⟨holds.1, nofun⟩
  | stored | failed | answered => nofun
  | _ => exact absurd holds.1 nofun

/-- A request that may be answered leaves nothing behind. -/
theorem UpsertPhase.Holds.concluded {φ : UpsertPhase} {success : Prop} (holds : φ.Holds n s p w)
    (concluded : Concluded success φ) : UpsertPhase.answered.Holds n s p w := by
  rcases concluded with ⟨-, rfl⟩ | ⟨-, givenUp⟩
  · exact holds
  · cases φ with
    | looking name => exact holds.2
    | editing id name number => exact fun _ => holds.2.1
    | failed => exact holds
    | _ => exact givenUp.elim

end Assertions

/-! ## The calls -/

/-- The revision of the next number is appended. -/
theorem Accounts.append {before now : List JobRevision} {row job : Job} {rows : List Job} {revision : JobRevision}
    (accounts : Accounts before now row rows) (records : Records job job.currentRevision revision)
    (next : row.currentRevision < job.currentRevision) :
    Accounts before (now ++ [revision]) job (rows ++ [job]) := by
  obtain ⟨added, isNow, snapshots⟩ := accounts.added
  refine ⟨⟨added ++ [revision], ?_, ?_⟩, ?_, ?_, fun _ => ⟨revision, List.getLast?_concat, ?_⟩⟩
  · rw [isNow, List.append_assoc]
  · rw [List.map_append, snapshots, List.map_singleton, records.snapshotJson]
  · rw [List.map_append, List.map_singleton, List.nodup_append]
    refine ⟨accounts.distinct, List.nodup_singleton _, ?_⟩
    intro number inside number' isLast same
    obtain ⟨earlier, isEarlier, rfl⟩ := List.mem_map.mp inside
    rw [List.mem_singleton.mp isLast, records.revisionNumber] at same
    have bound := accounts.largest earlier isEarlier
    omega
  · intro earlier inside
    rcases List.mem_append.mp inside with before | isLast
    · exact le_trans (accounts.largest earlier before) (le_of_lt next)
    · rw [List.mem_singleton.mp isLast, records.revisionNumber]
  · exact ⟨records.revisionNumber, records.snapshotJson⟩

/-- The first revision of a new job. -/
theorem Accounts.first {job : Job} {revision : JobRevision} (records : Records job job.currentRevision revision) :
    Accounts [] [revision] job [job] := by
  have nothing : Accounts [] [] { job with currentRevision := job.currentRevision - 1 } [] :=
    ⟨⟨[], rfl, rfl⟩, List.nodup_nil, by simp, fun any => absurd rfl any⟩
  apply nothing.append records
  show job.currentRevision - 1 < job.currentRevision
  omega

section Calls

variable {n : String} {s : Store} {p : Nat} {oracle : Oracle} {w w' : World} {φ φ' : UpsertPhase}

theorem midEdit_own {op : Op} {r : Ans op} (ran : perform p oracle w op = some (r, w')) :
    midEdit p w'.log = handles ⟨p, w.state, op, r⟩ (midEdit p w.log) := track_own_call ran

theorem midEdit_other {q : Nat} {op : Op} {r : Ans op} (ran : perform p oracle w op = some (r, w')) (other : q ≠ p) :
    midEdit q w'.log = midEdit q w.log := track_other_call ran (Ne.symm other)

/-- A call that writes no row and leaves the store alone. -/
theorem SameRows.of_read {op : Op} {r : Ans op} (ran : perform p oracle w op = some (r, w'))
    (same : w'.store = w.store) (unwritten : rowWritten ⟨p, w.state, op, r⟩ = none) :
    SameRows w w' ∧ writers w'.log = writers w.log := by
  obtain ⟨-, log⟩ := perform_cases ran
  refine ⟨⟨fun id => World.job_congr same id, fun id => by rw [same], ?_⟩, ?_⟩
  · rw [rowsWritten, log, List.filterMap_cons_none unwritten]
    rfl
  · rw [writers, log, List.filter_cons_of_neg (by rw [unwritten]; nofun)]
    rfl

/-- A job found by its name is stored under its own identifier. -/
theorem stored_of_named {row : Job} (names : w.store.NamesExact) (found : w.store.getJobByName n = .ok (some row)) :
    w.job row.jobId = some row ∧ row.jobName = n := by
  obtain ⟨id, stored, name⟩ := (names.getJobByName n row).mp found
  refine ⟨?_, name⟩
  rw [Collections.Table.key_of_lookup stored]
  exact stored

theorem unnamed_of_missing (names : w.store.NamesExact) (missing : w.store.getJobByName n = .ok none) (id : String)
    (row : Job) (stored : w.job id = some row) : row.jobName ≠ n := by
  intro name
  have found := (names.getJobByName n row).mpr ⟨id, stored, name⟩
  rw [missing] at found
  cases found

/-- What a call of request `p` keeps and makes true. -/
structure Stepped (n : String) (s : Store) (p : Nat) (φ φ' : UpsertPhase) (w w' : World) : Prop where
  names : w'.store.NamesExact
  grown : ∀ id, s.history id <+: w'.store.history id
  after : φ'.Holds n s p w'
  outside : midEdit p w.log = false → midEdit p w'.log = false → SameRows w w'
  opens : midEdit p w.log = false → midEdit p w'.log = true → ∀ q, q ≠ p → midEdit q w.log = false
  closes : midEdit p w.log = true → midEdit p w'.log = false → Saved n s w'
  written : (writers w'.log).count p + φ.owes = (writers w.log).count p + φ'.owes

/-- A call of a request that has the job in hand. -/
theorem Stepped.of_midEdit (mid : midEdit p w.log = true) (names : w'.store.NamesExact)
    (grown : ∀ id, s.history id <+: w'.store.history id) (after : φ'.Holds n s p w')
    (closes : midEdit p w'.log = false → Saved n s w')
    (written : (writers w'.log).count p + φ.owes = (writers w.log).count p + φ'.owes) : Stepped n s p φ φ' w w' := by
  refine ⟨names, grown, after, ?_, ?_, fun _ => closes, written⟩
  · intro free
    simp [mid] at free
  · intro free
    simp [mid] at free

/-- A call that neither looks the job up nor writes anything. -/
theorem Stepped.of_read {op : Op} {r : Ans op} (inv : InOrder n s w) (ran : perform p oracle w op = some (r, w'))
    (same : w'.store = w.store) (unwritten : rowWritten ⟨p, w.state, op, r⟩ = none)
    (own : midEdit p w'.log = midEdit p w.log) (owes : φ'.owes = φ.owes) (after : φ'.Holds n s p w) :
    Stepped n s p φ φ' w w' := by
  obtain ⟨rows, writes⟩ := SameRows.of_read ran same unwritten
  refine ⟨?_, fun id => ?_, after.congr rows own, fun _ _ => rows, ?_, ?_, ?_⟩
  · rw [same]
    exact inv.names
  · rw [same]
    exact inv.grown id
  · intro before mid
    simp [own, before] at mid
  · intro before mid
    simp [own, before] at mid
  · rw [writes, owes]

/-- A lookup by name, with what it makes of the record. -/
theorem Stepped.of_lookup {r : Result (Option Job)} {name : String} (inv : InOrder n s w)
    (ran : perform p oracle w (.store (.getJobByName name)) = some (r, w'))
    (alone : ∀ q, q ≠ p → midEdit q w.log = false) (owes : φ'.owes = φ.owes)
    (after : SameRows w w' → midEdit p w'.log = true → φ'.Holds n s p w') : Stepped n s p φ φ' w w' := by
  have same : w'.store = w.store := (congrArg Prod.snd (answer_store (perform_cases ran).1).1).symm
  obtain ⟨rows, writes⟩ := SameRows.of_read ran same rfl
  have own : midEdit p w'.log = true := midEdit_own ran
  refine ⟨?_, fun id => ?_, after rows own, fun _ _ => rows, fun _ _ => alone, ?_, ?_⟩
  · rw [same]
    exact inv.names
  · rw [same]
    exact inv.grown id
  · intro _ free
    simp [own] at free
  · rw [writes, owes]

/-- The revision of a copy is appended. -/
theorem recorded_of_append {job : Job} {revision : JobRevision} (inv : InOrder n s w) (saved : Saved n s w)
    (name : job.jobName = n) (drafted : Drafted n job.jobId job.currentRevision w)
    (records : Records job job.currentRevision revision) (rows : ∀ id, w'.job id = w.job id)
    (written : rowsWritten w'.log = rowsWritten w.log) (store : w'.store = (w.store.appendRevision revision).2) :
    Recorded n s job w' := by
  have now : w'.store.history job.jobId = w.store.history job.jobId ++ [revision] := by
    rw [store, Store.history_appendRevision, if_pos records.jobId]
  cases drafted with
  | @bumped row stored named isNext =>
    refine ⟨name, fun id other found named' => ?_, ?_⟩
    · exact inv.names.unique ((rows id).symm.trans found) stored (named'.trans named.symm)
    · rw [now, written]
      exact (saved.stored _ row stored named).append records (by omega)
  | new missing absent blank isFirst =>
    refine ⟨name, fun id other found named' => ?_, ?_⟩
    · exact (missing id other ((rows id).symm.trans found) named').elim
    · have fresh : s.history job.jobId = [] := by
        have grown := inv.grown job.jobId
        rw [blank] at grown
        exact List.prefix_nil.mp grown
      rw [now, written, blank, fresh, saved.missing missing]
      exact .first records

/-- Its row is written: nobody else has the name. -/
theorem Recorded.write {job : Job} {r : Result Unit} {t : Store} (recorded : Recorded n s job w)
    (names : w.store.NamesExact) (ran : w.store.writeJob job = (r, t)) :
    r = .ok () ∧ t.NamesExact ∧ (∀ id, t.history id = w.store.history id) ∧
      ∀ id, t.jobs.lookup id = if job.jobId = id then some job else w.job id := by
  rcases names.writeJob ran with ⟨holder, row, other, stored, name, -, -⟩ | ⟨isOk, jobs, exact⟩
  · exact (other (recorded.only holder row stored (name.trans recorded.name))).elim
  · refine ⟨isOk, exact, Store.history_congr (Store.writeJob_revisions ran), fun id => ?_⟩
    rw [jobs]
    exact Collections.Table.lookup_insert _ _ id

theorem Recorded.saved {job : Job} (recorded : Recorded n s job w)
    (history : ∀ id, w'.store.history id = w.store.history id)
    (rows : ∀ id, w'.job id = if job.jobId = id then some job else w.job id)
    (written : rowsWritten w'.log = rowsWritten w.log ++ [job]) : Saved n s w' := by
  constructor
  · intro missing
    exact (missing job.jobId job (by rw [rows, if_pos rfl]) recorded.name).elim
  · intro id row stored name
    rw [history, written]
    rw [rows] at stored
    split at stored
    · rename_i own
      cases stored
      rw [← own]
      exact recorded.accounts
    · rename_i other
      exact (other (recorded.only id row stored name).symm).elim

end Calls

/-! ## The steps of a request -/

section Steps

variable {n : String} {s : Store} {p : Nat} {oracle : Oracle} {w w' : Api} {φ φ' : UpsertPhase}

/-- What a store call that only reads has answered, and left. -/
theorem read_answer {w w' : World} {c : StoreCall} {r : Result c.Ret}
    (ran : perform p oracle w (.store c) = some (r, w')) (reads : (c.exec w.clock w.store).2 = w.store) :
    (c.exec w.clock w.store).1 = r ∧ w'.store = w.store := by
  obtain ⟨exec, -⟩ := answer_store (perform_cases ran).1
  rw [exec] at reads ⊢
  exact ⟨rfl, reads⟩

/-- When the job is looked up, everything is on record. -/
theorem InOrder.at_lookup {w : World} (inv : InOrder n s w) (own : midEdit p w.log = true → Saved n s w)
    (alone : ∀ q, q ≠ p → midEdit q w.log = false) : Saved n s w := by
  by_cases mid : midEdit p w.log = true
  · exact own mid
  · refine inv.saved fun q => ?_
    by_cases same : q = p
    · rw [same]
      exact Bool.eq_false_iff.mpr mid
    · exact alone q same

/-- What one call of a request does. -/
theorem upsert_step {op : Op} {r : Ans op} (inv : InOrder n s w.world) (holds : φ.Holds n s p w.world)
    (move : UpsertMove φ op r φ') (ran : perform p oracle w.world op = some (r, w'.world))
    (allowed : OneAtATime n (.call p (.task op) r) w) : Stepped n s p φ φ' w.world w'.world := by
  cases move with
  | reads =>
    have same := answer_other (perform_cases ran).1 (by rintro c ⟨⟩)
    exact .of_read inv ran (congrArg State.store same) rfl (midEdit_own ran) rfl holds
  | @finds name row =>
    obtain ⟨rfl, own⟩ := holds
    obtain ⟨alone, raisable⟩ := allowed.alone
    obtain ⟨found, -⟩ := read_answer ran rfl
    have found : w.world.store.getJobByName name = .ok (some row) := found
    have saved := inv.at_lookup own alone
    refine .of_lookup inv ran alone rfl fun rows mid => ?_
    obtain ⟨stored, named⟩ := stored_of_named inv.names found
    have bound : row.currentRevision < 2147483647 := by
      rw [Store.Raisable, found] at raisable
      exact raisable
    refine ⟨mid, saved.congr rows, named, (Drafted.bumped stored named ?_).congr rows⟩
    omega
  | @misses name =>
    obtain ⟨rfl, own⟩ := holds
    obtain ⟨alone, -⟩ := allowed.alone
    obtain ⟨missing, -⟩ := read_answer ran rfl
    refine .of_lookup inv ran alone rfl fun rows mid => ?_
    refine ⟨mid, (inv.at_lookup own alone).congr rows, rfl, fun id row stored => ?_⟩
    exact unnamed_of_missing inv.names missing id row ((rows.job id).symm.trans stored)
  | @draws name id =>
    obtain ⟨mid, saved, rfl, missing⟩ := holds
    have same := answer_other (perform_cases ran).1 (by rintro c ⟨⟩)
    obtain ⟨-, absent, -⟩ := answer_newUuid (perform_cases ran).1
    refine .of_read inv ran (congrArg State.store same) rfl (midEdit_own ran) rfl ⟨mid, saved, rfl, ?_⟩
    exact .new missing absent allowed.named rfl
  | mismatches =>
    exact .of_read inv ran (read_answer ran rfl).2 rfl (midEdit_own ran) rfl fun _ => holds.2.1
  | @unrevised id name number existing _ same =>
    obtain ⟨-, -, -, drafted⟩ := holds
    obtain ⟨found, -⟩ := read_answer ran rfl
    have found : w.world.job id = some existing := Except.ok.inj found
    cases drafted with
    | bumped stored _ isNext =>
      rw [stored] at found
      cases found
      omega
    | new _ absent _ _ =>
      rw [absent] at found
      cases found
  | @differs job existing =>
    obtain ⟨mid, saved, name, drafted⟩ := holds
    exact .of_read inv ran (read_answer ran rfl).2 rfl (midEdit_own ran) rfl ⟨mid, saved, name, drafted, rfl⟩
  | isNew => exact .of_read inv ran (read_answer ran rfl).2 rfl (midEdit_own ran) rfl holds
  | taken => exact .of_lookup inv ran allowed.alone.1 rfl fun rows _ _ => holds.2.1.congr rows
  | @free job =>
    obtain ⟨mid, saved, rfl, drafted⟩ := holds
    obtain ⟨missing, -⟩ := read_answer ran rfl
    have unnamed := unnamed_of_missing inv.names missing
    refine .of_lookup inv ran allowed.alone.1 rfl fun rows mid' => ?_
    refine ⟨mid', saved.congr rows, rfl, drafted.congr rows, ?_⟩
    cases drafted with
    | bumped stored named _ => exact (unnamed _ _ stored named).elim
    | new _ _ _ isFirst => exact isFirst.symm
  | identifies =>
    have same := answer_other (perform_cases ran).1 (by rintro c ⟨⟩)
    exact .of_read inv ran (congrArg State.store same) rfl (midEdit_own ran) rfl holds
  | @appends job number revision records =>
    obtain ⟨mid, saved, name, drafted, rfl⟩ := holds
    obtain ⟨answered, log⟩ := perform_cases ran
    have store : w'.world.store = (w.world.store.appendRevision revision).2 :=
      (congrArg Prod.snd (answer_store answered).1).symm
    have own : midEdit p w'.world.log = midEdit p w.world.log := midEdit_own ran
    have rows : ∀ id, w'.world.job id = w.world.job id := fun id => by rw [World.job, store]; rfl
    have written : rowsWritten w'.world.log = rowsWritten w.world.log := by rw [rowsWritten, log]; rfl
    refine .of_midEdit mid ?_ (fun id => ?_) ⟨own.trans mid, ?_⟩ (fun free => ?_) ?_
    · rw [store]
      exact inv.names.of_eq rfl rfl
    · rw [store, Store.history_appendRevision]
      split
      · exact (inv.grown id).trans (List.prefix_append _ _)
      · exact inv.grown id
    · exact recorded_of_append inv saved name drafted records rows written store
    · simp [own, mid] at free
    · rw [writers, log]
      rfl
  | @writes job =>
    obtain ⟨mid, recorded⟩ := holds
    obtain ⟨answered, log⟩ := perform_cases ran
    obtain ⟨-, names, history, rows⟩ := recorded.write inv.names (answer_store answered).1
    have saved : Saved n s w'.world := by
      refine recorded.saved history rows ?_
      rw [rowsWritten, log]
      exact List.reverse_cons
    refine .of_midEdit mid names (fun id => ?_) (fun _ => saved) (fun _ => saved) ?_
    · have grown := inv.grown id
      rw [← history id] at grown
      exact grown
    · rw [writers, log]
      exact List.count_cons_self
  | refused =>
    obtain ⟨isOk, -⟩ := holds.2.write inv.names (answer_store (perform_cases ran).1).1
    cases isOk
  | unread =>
    obtain ⟨isOk, -⟩ := read_answer ran rfl
    cases isOk
  | @unfound _ _ name e =>
    obtain ⟨isOk, -⟩ := read_answer ran rfl
    have isOk : w.world.store.getJobByName name = .error e := isOk
    rcases getJobByName_cases w.world.store name with found | ⟨row, found, -⟩ <;> rw [found] at isOk <;> cases isOk
  | unrecorded =>
    have isOk := (answer_store (perform_cases ran).1).1
    cases isOk

/-- What a call of request `q` leaves of the others. -/
structure SparesRequests (q : Nat) (w w' : Api) : Prop where
  others : ∀ p, p ≠ q → midEdit p w'.world.log = midEdit p w.world.log
  outside : midEdit q w.world.log = false → midEdit q w'.world.log = false → SameRows w.world w'.world
  writers : ∀ p, p ≠ q → (writers w'.world.log).count p = (writers w.world.log).count p
  successes : ∀ p, p ≠ q → (successes w'.answers).count p = (successes w.answers).count p

theorem count_writers_other {q : Nat} {w w' : World} {op : Op} {r : Ans op}
    (ran : perform p oracle w op = some (r, w')) (other : q ≠ p) :
    (writers w'.log).count q = (writers w.log).count q := by
  rw [writers, (perform_cases ran).2, List.filter_cons]
  split
  · rw [List.map_cons, List.count_cons_of_ne (Ne.symm other)]
    rfl
  · rfl

/-- The invariant after a call. -/
theorem InOrder.step {w w' : World} (inv : InOrder n s w) (stepped : Stepped n s p φ φ' w w')
    (others : ∀ q, q ≠ p → midEdit q w'.log = midEdit q w.log) : InOrder n s w' where
  names := stepped.names
  grown := stepped.grown
  alone := by
    have same (q : Nat) (mid : midEdit p w'.log = true) (mid' : midEdit q w'.log = true) : q = p := by
      by_contra other
      rw [others q other] at mid'
      cases before : midEdit p w.log with
      | false =>
        rw [stepped.opens before mid q other] at mid'
        cases mid'
      | true => exact other (inv.alone q p mid' before)
    intro q q' mid mid'
    by_cases isOwn : q = p
    · subst isOwn
      exact (same q' mid mid').symm
    · by_cases isOwn' : q' = p
      · subst isOwn'
        exact same q mid' mid
      · rw [others q isOwn] at mid
        rw [others q' isOwn'] at mid'
        exact inv.alone q q' mid mid'
  saved := by
    intro free
    cases before : midEdit p w.log with
    | true => exact stepped.closes before (free p)
    | false =>
      refine Saved.congr (inv.saved fun q => ?_) (stepped.outside before (free p))
      by_cases isOwn : q = p
      · rw [isOwn]
        exact before
      · rw [← others q isOwn]
        exact free q

theorem Store.NamesExact.drift {e : Env} {w w' : World} (names : w.store.NamesExact) (drifts : drift e w = some w') :
    w'.store.NamesExact := by
  obtain ⟨-, jobs, -, -⟩ := drift_cases drifts
  intro name id
  rw [(drift_untouched drifts).2, names name id]
  exact exists_congr fun row => by rw [show w'.store.jobs.lookup id = w.store.jobs.lookup id from jobs id]

theorem SameRows.of_drift {e : Env} {w w' : World} (drifts : drift e w = some w') : SameRows w w' := by
  obtain ⟨-, jobs, -, log⟩ := drift_cases drifts
  refine ⟨jobs, Store.history_congr (drift_untouched drifts).1, ?_⟩
  rw [log]

theorem InOrder.drift {e : Env} {w w' : World} (inv : InOrder n s w) (drifts : drift e w = some w') :
    InOrder n s w' := by
  have rows := SameRows.of_drift drifts
  obtain ⟨-, -, -, log⟩ := drift_cases drifts
  refine ⟨inv.names.drift drifts, fun id => ?_, ?_, fun free => ?_⟩
  · rw [rows.history]
    exact inv.grown id
  · rw [log]
    exact inv.alone
  · rw [log] at free
    exact (inv.saved free).congr rows

/-- A request in phase `φ`: its assertion, and its account. -/
def UpsertPhase.Stands (n : String) (s : Store) (p : Nat) (φ : UpsertPhase) (w : Api) : Prop :=
  φ.Holds n s p w.world ∧ Tally p φ w

/-- The calls of the others leave it alone: while it has the job in hand, nobody else has. -/
theorem UpsertPhase.Stands.other {q : Nat} (stands : φ.Stands n s p w) (other : p ≠ q) (inv : InOrder n s w.world)
    (inv' : InOrder n s w'.world) (spares : SparesRequests q w w') : φ.Stands n s p w' := by
  obtain ⟨holds, tally⟩ := stands
  have own := spares.others p other
  constructor
  · cases mid : midEdit p w.world.log with
    | false => exact holds.free mid (own.trans mid)
    | true =>
      have before : midEdit q w.world.log = false := Bool.eq_false_iff.mpr fun mid' => other (inv.alone p q mid mid')
      have after : midEdit q w'.world.log = false :=
        Bool.eq_false_iff.mpr fun mid' => other (inv'.alone p q (own.trans mid) mid')
      exact holds.congr (spares.outside before after) own
  · unfold Tally at tally ⊢
    rw [spares.writers p other, spares.successes p other, tally]

theorem UpsertPhase.Stands.drift {e : Env} (stands : φ.Stands n s p w) (drifts : Api.drift e w = some w') :
    φ.Stands n s p w' := by
  obtain ⟨holds, tally⟩ := stands
  obtain ⟨drifted, answers⟩ := Api.drift_cases drifts
  obtain ⟨-, -, -, log⟩ := drift_cases drifted
  refine ⟨holds.congr (.of_drift drifted) (by rw [log]), ?_⟩
  unfold Tally
  rw [log, answers]
  exact tally

theorem UpsertPhase.Stands.call {op : Op} {r : Ans op} (inv : InOrder n s w.world) (stands : φ.Stands n s p w)
    (move : UpsertMove φ op r φ') (ran : w.perform p oracle (.task op) = some (r, w'))
    (allowed : OneAtATime n (.call p (.task op) r) w) :
    InOrder n s w'.world ∧ SparesRequests p w w' ∧ φ'.Stands n s p w' := by
  obtain ⟨holds, tally⟩ := stands
  obtain ⟨performed, answers⟩ := Api.perform_task ran
  have stepped := upsert_step inv holds move performed allowed
  have others (q : Nat) (other : q ≠ p) : midEdit q w'.world.log = midEdit q w.world.log := midEdit_other performed other
  refine ⟨inv.step stepped others, ⟨others, stepped.outside, fun q => count_writers_other performed, ?_⟩, stepped.after, ?_⟩
  · intro q _
    rw [answers]
  · have written := stepped.written
    unfold Tally at tally ⊢
    rw [answers]
    omega

theorem UpsertPhase.Stands.respond {status : Axum.StatusCode} (inv : InOrder n s w.world) (stands : φ.Stands n s p w)
    (concluded : Concluded (status = .ok) φ) (isAnswered : w' = { w with answers := (p, status) :: w.answers }) :
    InOrder n s w'.world ∧ SparesRequests p w w' ∧ UpsertPhase.answered.Stands n s p w' := by
  obtain ⟨holds, tally⟩ := stands
  subst isAnswered
  refine ⟨inv, ⟨fun _ _ => rfl, fun _ _ => ⟨fun _ => rfl, fun _ => rfl, rfl⟩, fun _ _ => rfl, ?_⟩,
    holds.concluded concluded, ?_⟩
  · intro q other
    rw [successes, List.filter_cons]
    split
    · rw [List.map_cons, List.count_cons_of_ne (Ne.symm other)]
      rfl
    · rfl
  · unfold Tally at tally ⊢
    rw [tally]
    rcases concluded with ⟨rfl, rfl⟩ | ⟨isFailure, givenUp⟩
    · exact List.count_cons_self.symm
    · have owes : φ.owes = 0 := by cases φ <;> first | rfl | exact givenUp.elim
      rw [owes, successes, successes, List.filter_cons_of_neg (by simpa using isFailure)]
      rfl

/-- One request at a time. -/
def upsertRules (host : Host) (n : String) (s : Store) :
    Rules (upsertRequests host) upsertProtocol fun l w _ => OneAtATime n l w where
  inv w := InOrder n s w.world
  guar := SparesRequests
  idle p w := UpsertPhase.answered.Stands n s p w
  holds p φ w := φ.Stands n s p w
  start := by
    rintro p req w - ⟨holds, tally⟩ allowed
    exact ⟨⟨allowed.named, holds⟩, tally⟩
  finish := by
    rintro p φ w - rfl stands
    exact stands
  own := by
    rintro p φ op r φ' oracle w w' inv stands move ran allowed
    cases op with
    | task op => exact stands.call inv move ran allowed
    | respond status =>
      obtain ⟨concluded, rfl⟩ := move
      cases ran
      exact stands.respond inv concluded rfl
  other := fun other inv inv' spares stands => stands.other other inv inv' spares
  otherIdle := fun other inv inv' spares stands => stands.other other inv inv' spares
  drift := by
    intro _ w w' inv drifts _
    refine ⟨inv.drift (Api.drift_cases drifts).1, fun p φ stands => stands.drift drifts, fun p stands => ?_⟩
    exact stands.drift drifts

end Steps

/-- A task without a call has written nothing and has nothing in hand. -/
theorem writers_absent {p : Nat} {log : Log} (absent : p ∉ log.map Entry.pid) : (writers log).count p = 0 := by
  refine List.count_eq_zero.mpr fun inside => absent ?_
  obtain ⟨e, member, rfl⟩ := List.mem_map.mp inside
  exact List.mem_map_of_mem (List.mem_filter.mp member).1

theorem midEdit_absent {p : Nat} {log : Log} (absent : p ∉ log.map Entry.pid) : midEdit p log = false :=
  track_absent fun _ inside own => absent (own ▸ List.mem_map_of_mem inside)

theorem length_rowsWritten (log : Log) : (rowsWritten log).length = (writers log).length := by
  rw [rowsWritten, writers, List.length_reverse, List.length_map]
  induction log with
  | nil => rfl
  | cons e log ih =>
    rw [List.filterMap_cons, List.filter_cons]
    cases rowWritten e with
    | none => exact ih
    | some row => exact congrArg Nat.succ ih

section Answered

variable {host : Host} {n : String} {s : Store} {c : ApiConfig}

/-- A request that has been answered is over. -/
theorem AllAnswered.stands (answered : AllAnswered c) (standing : (upsertRules host n s).Standing c) {p : Nat}
    (inside : p ∈ c.world.world.log.map Entry.pid) : UpsertPhase.answered.Stands n s p c.world := by
  refine standing.free fun op k waiting => ?_
  have finished := answered p inside
  rw [Config.finished, waiting] at finished
  cases finished

/-- When all are answered, everything is on record. -/
theorem AllAnswered.saved (answered : AllAnswered c) (standing : (upsertRules host n s).Standing c) :
    Saved n s c.world.world := by
  by_cases free : ∀ p, midEdit p c.world.world.log = false
  · exact standing.inv.saved free
  · obtain ⟨p, mid⟩ := not_forall.mp free
    have inside : p ∈ c.world.world.log.map Entry.pid := by
      by_contra absent
      exact mid (midEdit_absent absent)
    exact (answered.stands standing inside).1 (Bool.not_eq_false _ ▸ mid)

/-- Every request has written as many rows as it has succeeded. -/
theorem AllAnswered.accounted (answered : AllAnswered c) (standing : (upsertRules host n s).Standing c) (p : Nat) :
    (writers c.world.world.log).count p = (successes c.world.answers).count p := by
  by_cases inside : p ∈ c.world.world.log.map Entry.pid
  · exact (answered.stands standing inside).2
  · have none := writers_absent inside
    have tally : ∃ φ, Tally p φ c.world := by
      cases found : c.threads p with
      | none => exact ⟨_, (standing.resting p found).2⟩
      | some code =>
        obtain ⟨φ, stands, -⟩ := standing.running p code found
        exact ⟨φ, stands.2⟩
    obtain ⟨φ, tally⟩ := tally
    unfold Tally at tally
    omega

end Answered

/-- **No upsert is lost** in a run whose requests look the job up one after another, each after the one before has
written: once all are answered, there is one more revision for each success, their numbers are distinct, and the row
is the last and largest of them. -/
theorem upserts_lose_nothing {host : Host} {n : String} {s : State} (names : s.store.NamesExact)
    (numbered : ∀ row, s.store.getJobByName n = .ok (some row) →
      ((s.store.history row.jobId).map (·.revisionNumber)).Nodup ∧
        ∀ revision ∈ s.store.history row.jobId, revision.revisionNumber ≤ row.currentRevision)
    {c : ApiConfig} (reach : (upsertRequests host).Reach (fun l w _ => OneAtATime n l w) (.idle (.fresh s)) c)
    (answered : AllAnswered c) : NothingLost n s.store c.world := by
  have saved : Saved n s.store (World.fresh s) := by
    refine ⟨fun _ => rfl, fun id row stored name => ?_⟩
    have key : row.jobId = id := Collections.Table.key_of_lookup stored
    subst key
    obtain ⟨distinct, largest⟩ := numbered row ((names.getJobByName n row).mpr ⟨_, stored, name⟩)
    exact ⟨⟨[], (List.append_nil _).symm, rfl⟩, distinct, largest, fun any => (any rfl).elim⟩
  have initial : InOrder n s.store (World.fresh s) := ⟨names, fun _ => List.prefix_refl _, nofun, fun _ => saved⟩
  have start : (upsertRules host n s.store).Standing (.idle (.fresh s)) :=
    .initial _ initial fun _ => ⟨fun _ => saved, rfl⟩
  have standing := (upsertRules host n s.store).sound upsertProtocol_governs start reach
  have final : Saved n s.store c.world.world := answered.saved standing
  have same : (rowsWritten c.world.world.log).length = (successes c.world.answers).length := by
    rw [length_rowsWritten]
    exact (List.perm_iff_count.mpr (answered.accounted standing)).length_eq
  constructor
  · intro missing
    rw [final.missing (unnamed_of_missing standing.inv.names missing)] at same
    exact List.length_eq_zero_iff.mp same.symm
  · intro row found
    obtain ⟨stored, name⟩ := stored_of_named standing.inv.names found
    exact ⟨_, same, final.stored _ row stored name⟩

/-! ## Small runs -/

section Decidable

variable (n : String) (l : ApiLabel) (w : Api)

instance : Decidable (RequestsFor n l w) := by
  unfold RequestsFor
  split <;> infer_instance

instance (s : Store) : Decidable (s.Raisable n) := by
  unfold Store.Raisable
  split <;> infer_instance

theorem others_idle_iff (p : Nat) (log : Log) :
    (∀ q, q ≠ p → midEdit q log = false) ↔ ∀ q ∈ log.map Entry.pid, q ≠ p → midEdit q log = false :=
  forall_track (Q := fun q mid => q ≠ p → mid = false) fun _ _ => rfl

instance (p : Nat) (log : Log) : Decidable (∀ q, q ≠ p → midEdit q log = false) :=
  decidable_of_iff' _ (others_idle_iff p log)

instance : Decidable (LooksAlone n l w) := by
  unfold LooksAlone
  split <;> infer_instance

instance : Decidable (OneAtATime n l w) :=
  decidable_of_iff (RequestsFor n l w ∧ LooksAlone n l w)
    ⟨fun allowed => ⟨allowed.1, allowed.2⟩, fun allowed => ⟨allowed.named, allowed.alone⟩⟩

instance (c : ApiConfig) : Decidable (AllAnswered c) := inferInstanceAs (Decidable (∀ p ∈ _, _))

end Decidable

/-- A schedule that can be played from the empty store is a run, and ends as the test says. -/
theorem exists_upsert_run (P : ApiLabel → Api → Api → Prop) [∀ l w w', Decidable (P l w w')] (choices : List ApiChoice)
    (test : ApiConfig → Bool)
    (played : ((upsertRequests .simple).play P choices (.idle (.fresh emptyWorld.state))).any test = true) :
    ∃ c, (upsertRequests .simple).Reach P (.idle (.fresh emptyWorld.state)) c ∧ test c = true :=
  Machine.Reach.of_play_any played

/-- `k` calls of request `p` that need no oracle. -/
def requestCalls (p k : Nat) : List ApiChoice := List.replicate k (.call p .quiet)

/-- Request `p` draws an identifier. -/
def requestDraws (p : Nat) (id : String) : List ApiChoice := [.call p (.uuid id)]

/-- Request `p` creates the job, up to its answer. -/
def createsJob (p : Nat) : List ApiChoice :=
  .start p importRequest :: (requestCalls p 2 ++ requestDraws p "j" ++ requestCalls p 3 ++ requestDraws p "first" ++
    requestCalls p 3)

/-- Request `p` looks the job up. -/
def looksJobUp (p : Nat) : List ApiChoice := .start p importRequest :: requestCalls p 1

/-- It records its revision under this identifier, writes the row and is answered. -/
def storesEdit (p : Nat) (id : String) : List ApiChoice := requestDraws p id ++ requestCalls p 4

/-- The second request looks the job up when the first has written it, and before it is answered. -/
def oneByOne : List ApiChoice :=
  createsJob 0 ++ looksJobUp 1 ++ requestCalls 0 1 ++ requestCalls 1 2 ++ storesEdit 1 "second"

theorem upserts_lose_nothing_twice :
    ∃ c, (upsertRequests .simple).Reach (fun l w _ => OneAtATime "import" l w) (.idle (.fresh emptyWorld.state)) c ∧
      (successes c.world.answers).length = 2 ∧ NothingLost "import" Store.new c.world := by
  obtain ⟨c, reach, ends⟩ := exists_upsert_run (fun l w _ => OneAtATime "import" l w) oneByOne
    (fun c => decide (AllAnswered c ∧ (successes c.world.answers).length = 2)) (by decide +kernel)
  obtain ⟨answered, both⟩ := of_decide_eq_true ends
  refine ⟨c, reach, both, ?_⟩
  exact upserts_lose_nothing (s := emptyWorld.state) Store.namesExact_new (by rintro _ ⟨⟩) reach answered

/-- The revision numbers on record for the job `n`. -/
def World.numbers (w : World) (n : String) : List Int :=
  match w.store.getJobByName n with
  | .ok (some row) => (w.store.history row.jobId).map (·.revisionNumber)
  | _ => []

theorem NothingLost.numbers_nodup {n : String} {s : Store} {w : Api} (nothing : NothingLost n s w) :
    (w.world.numbers n).Nodup := by
  unfold World.numbers
  split
  · rename_i row found
    obtain ⟨_, -, accounts⟩ := nothing.stored row found
    exact accounts.distinct
  · exact List.nodup_nil

/-- Two requests look the job up, find the same number, and both check their copies before either writes. -/
def sameNumber : List ApiChoice :=
  createsJob 0 ++ requestCalls 0 1 ++ looksJobUp 1 ++ looksJobUp 2 ++ requestCalls 1 2 ++ requestCalls 2 2 ++
    storesEdit 1 "second" ++ storesEdit 2 "third"

/-- All three succeed, and two revisions have one number. -/
theorem upserts_share_number :
    ∃ c, (upsertRequests .simple).Reach (fun l w _ => RequestsFor "import" l w) (.idle (.fresh emptyWorld.state)) c ∧
      AllAnswered c ∧ (successes c.world.answers).length = 3 ∧ ¬ NothingLost "import" Store.new c.world := by
  obtain ⟨c, reach, ends⟩ := exists_upsert_run (fun l w _ => RequestsFor "import" l w) sameNumber
    (fun c => decide (AllAnswered c ∧ (successes c.world.answers).length = 3 ∧ c.world.world.numbers "import" = [1, 2, 2]))
    (by decide +kernel)
  obtain ⟨answered, all, numbers⟩ := of_decide_eq_true ends
  refine ⟨c, reach, answered, all, fun nothing => ?_⟩
  have distinct := nothing.numbers_nodup
  rw [numbers] at distinct
  exact absurd distinct (by decide)

end Chronon
