import Chronon.Edit.Accepted
import Chronon.Mem.Sections
import Chronon.Sql.Statements

/-!
# Deletions that fail or cross an upsert

`delete_job` removes a job and its revisions in separate steps, an upsert appends a
revision and then writes the row. A deletion alone has changed nothing when an early
statement of it fails; a deletion and an upsert that cross leave a row with revisions
or nothing exactly when the upsert's two writes fall on the same side of the
deletion's two (`deletion_all_or_nothing_iff`).
-/

namespace Chronon
set_option autoImplicit false

open Concurrent Collections

/-! ## An upsert alone -/

/-- The calls of an upsert. -/
def UpsertCall : Op → Prop
  | .store (.getJob _) | .store (.getJobByName _) | .store (.appendRevision _) | .store (.upsertJob _) => True
  | .utcNow | .newUuid => True
  | _ => False

/-- Stores in which an upsert of `j`, alone, does as it should: reads change nothing and find a missing row missing,
a name that is found free stays so, and a write under a free name goes through. -/
structure StoresJobs {σ : Type} (step : σ → (op : Op) → Ans op → σ → Prop) (j : String) (row revised : σ → Bool)
    (free : String → σ → Prop) (sound : σ → Prop) : Prop where
  utcNow : ∀ {s r t}, step s .utcNow r t → t = s
  newUuid : ∀ {s r t}, step s .newUuid r t → t = s
  getJob : ∀ {s r t}, row s = false → step s (.store (.getJob j)) r t → r = .ok none ∧ t = s
  getJobByName : ∀ {name s r t}, sound s → step s (.store (.getJobByName name)) r t →
    t = s ∧ (r = .ok none → free name s)
  append : ∀ {revision s r t}, revision.jobId = j → step s (.store (.appendRevision revision)) r t →
    ((∃ e, r = .error e) ∧ t = s) ∨
      (r = .ok () ∧ revised t = true ∧ row t = row s ∧ ∀ name, free name s → free name t)
  write : ∀ {job s r t}, job.jobId = j → free job.jobName s → row s = false → step s (.store (.upsertJob job)) r t →
    row t = true ∧ revised t = revised s

section Upsert

variable {host : Host} {job : Job} {j : String}

theorem reviseAndWrite_issues (job : Job) (number : Int) :
    (do let revision ← CoordinatorService.newRevision job number
        match ← call (.appendRevision revision) with
        | .error e => return .error e
        | .ok () => call (.upsertJob job) : Task (Result Unit)).Issues UpsertCall := by
  refine ⟨trivial, fun revisionId => ⟨trivial, fun changedAt => ⟨trivial, fun r => ?_⟩⟩⟩
  cases r with
  | error e => trivial
  | ok _ => exact ⟨trivial, fun _ => trivial⟩

theorem storeJob_issues (job : Job) : (CoordinatorService.storeJob job).Issues UpsertCall := by
  refine ⟨trivial, fun updatedAt => ⟨trivial, fun found => ?_⟩⟩
  match found with
  | .error e => trivial
  | .ok (some existing) =>
    show Prog.Issues _ (if _ then _ else if _ then _ else _)
    split
    · trivial
    · split
      · exact reviseAndWrite_issues { job with updatedAt } _
      · exact ⟨trivial, fun _ => trivial⟩
  | .ok none =>
    refine ⟨trivial, fun holder => ?_⟩
    match holder with
    | .error e => trivial
    | .ok (some _) => trivial
    | .ok none => exact reviseAndWrite_issues { job with updatedAt } 1

theorem upsertJob_issues (host : Host) (job : Job) : (CoordinatorService.upsertJob host job).Issues UpsertCall := by
  unfold CoordinatorService.upsertJob
  dsimp only
  split
  · split
    · trivial
    · exact ⟨trivial, fun now => storeJob_issues _⟩
  · exact storeJob_issues _

variable {σ : Type} {step : σ → (op : Op) → Ans op → σ → Prop} {row revised : σ → Bool} {free : String → σ → Prop}
  {sound : σ → Prop} {s s' : σ} {r : Result Unit}

theorem storeJob_alone (stores : StoresJobs step j row revised free sound) (isJob : job.jobId = j)
    (missing : row s = false) (isSound : sound s) (runs : Runs step (CoordinatorService.storeJob job) s r s') :
    (row s' = true ∧ revised s' = true) ∨ (row s' = false ∧ revised s' = revised s) := by
  subst isJob
  obtain ⟨updatedAt, _, reads, runs⟩ := runs
  obtain rfl := stores.utcNow reads
  obtain ⟨found, _, gets, runs⟩ := runs
  obtain ⟨rfl, rfl⟩ := stores.getJob missing gets
  obtain ⟨holder, _, names, runs⟩ := runs
  obtain ⟨rfl, isFree⟩ := stores.getJobByName isSound names
  match holder with
  | .error e =>
    obtain ⟨-, rfl⟩ := runs
    exact .inr ⟨missing, rfl⟩
  | .ok (some _) =>
    obtain ⟨-, rfl⟩ := runs
    exact .inr ⟨missing, rfl⟩
  | .ok none =>
    obtain ⟨revisionId, _, draws, runs⟩ := runs
    obtain rfl := stores.newUuid draws
    obtain ⟨changedAt, _, reads, runs⟩ := runs
    obtain rfl := stores.utcNow reads
    obtain ⟨recorded, t, appends, runs⟩ := runs
    rcases stores.append rfl appends with ⟨⟨e, rfl⟩, rfl⟩ | ⟨rfl, isRevised, sameRow, keeps⟩
    · obtain ⟨-, rfl⟩ := runs
      exact .inr ⟨missing, rfl⟩
    · obtain ⟨written, _, writes, -, rfl⟩ := runs
      obtain ⟨isStored, sameRevised⟩ := stores.write (by rfl) (keeps _ (isFree rfl)) (sameRow.trans missing) writes
      exact .inl ⟨isStored, sameRevised.trans isRevised⟩

/-- An upsert of a job that is not stored, with nobody in between, stores it with a revision or leaves everything as
it was. -/
theorem upsertJob_alone (stores : StoresJobs step j row revised free sound) (isJob : job.jobId = j)
    (missing : row s = false) (isSound : sound s) (runs : Runs step (CoordinatorService.upsertJob host job) s r s') :
    (row s' = true ∧ revised s' = true) ∨ (row s' = false ∧ revised s' = revised s) := by
  unfold CoordinatorService.upsertJob at runs
  rw [withPartition_fields] at runs
  dsimp only at runs
  split at runs
  · split at runs
    · obtain ⟨-, rfl⟩ := runs
      exact .inr ⟨missing, rfl⟩
    · obtain ⟨now, _, reads, runs⟩ := runs
      obtain rfl := stores.utcNow reads
      refine storeJob_alone stores ?_ missing isSound runs
      exact isJob
  · refine storeJob_alone stores ?_ missing isSound runs
    exact isJob

end Upsert

section Whole

variable {row row' revised revised' written : Bool} {A B : Prop}

/-- A deletion that has removed everything: what is left was brought about afterwards. -/
theorem whole_iff_of_cleared (rowAfter : row' = true ↔ A) (revisedAfter : revised' = true ↔ B)
    (stored : row = true ∨ written = true) :
    (row' = revised') ↔ (A ↔ B) ∧ (row = false → revised = true → written = true) := by
  rw [← rowAfter, ← revisedAfter, Bool.eq_iff_iff, iff_self_and]
  rintro - missing -
  rcases stored with present | wrote
  · rw [missing] at present
    cases present
  · exact wrote

/-- A deletion that found no job: the upsert ran as if alone. -/
theorem whole_iff_of_missing (notA : ¬ A) (notB : ¬ B) (missing : row = false) (wrote : row' = written)
    (alone : (row' = true ∧ revised' = true) ∨ (row' = false ∧ revised' = revised)) :
    (row' = revised') ↔ (A ↔ B) ∧ (row = false → revised = true → written = true) := by
  subst wrote
  have both : A ↔ B := ⟨fun holds => absurd holds notA, fun holds => absurd holds notB⟩
  rcases alone with ⟨rfl, rfl⟩ | ⟨rfl, rfl⟩
  · simp [both]
  · cases revised' <;> simp [both, missing]

end Whole

section Missing

variable {Op' σ : Type} {Ans' : Op' → Type} {f : (op : Op) → Prog Op' Ans' (Ans op)}
  {step : σ → (op : Op') → Ans' op → σ → Prop} {row revised : σ → Bool} {free : String → σ → Prop} {sound : σ → Prop}
  {allowed : Op' → Prop} {host : Host} {job : Job}
  {writes appends removes drops : Turn Op' Ans' → Bool} {q : Prog Op' Ans' (Result Unit)} {s t s' : σ} {r : Result Unit}
  {before rest : List (Turn Op' Ans')} {own : Turn Op' Ans'}

/-- A deletion whose only turn, in the middle of an upsert, finds no job. -/
theorem whole_iff_of_not_found
    (stores : StoresJobs (fun s op r t => Runs step (f op) s r t) job.jobId row revised free sound)
    (effect : ∀ s own op r t, allowed op → step s op r t → row t = (row s || writes ⟨own, op, r⟩))
    (spares : ∀ turn : Turn Op' Ans', allowed turn.op → removes turn = false ∧ drops turn = false)
    (issues : ((CoordinatorService.upsertJob host job).implement f).Issues allowed) (isSound : sound s)
    (first : Advances step ((CoordinatorService.upsertJob host job).implement f) s before q t) (missing : row t = false)
    (quiet : removes own = false ∧ drops own = false ∧ writes own = false) (last : Advances step q t rest (.ret r) s') :
    (row s' = revised s') ↔
      (After removes writes (before ++ own :: rest) ↔ After drops appends (before ++ own :: rest)) ∧
        (row s = false → revised s = true → (before ++ own :: rest).any writes = true) := by
  obtain ⟨remaining, early⟩ := first.issues issues
  have all : ∀ turn ∈ before ++ own :: rest, removes turn = false ∧ drops turn = false := by
    rw [List.forall_mem_append, List.forall_mem_cons]
    exact ⟨fun turn inside => spares turn (early turn inside).2, ⟨quiet.1, quiet.2.1⟩,
      fun turn inside => spares turn ((last.issues remaining).2 turn inside).2⟩
  have absent : row s = false := by
    have rowBefore := first.observed effect issues
    rw [missing, eq_comm, Bool.or_eq_false_iff] at rowBefore
    exact rowBefore.1
  have whole := first.trans last
  refine whole_iff_of_missing (not_after fun turn inside => (all turn inside).1)
    (not_after fun turn inside => (all turn inside).2) absent ?_ (upsertJob_alone stores rfl absent isSound (Runs.implement.mp whole.runs))
  rw [whole.observed effect issues, absent, Bool.false_or, List.any_append, List.any_append, List.any_cons, quiet.2.2,
    Bool.false_or]

end Missing

/-! ## In memory -/

namespace LockSection

variable {j : String} {s : Store}

theorem spares_of_upsert (op : Op) (upserts : UpsertCall op) : (lockSections op).Issues Spares := by
  have one {op : LockSection} (rows : op.KeepsRows) (revisions : op.KeepsRevisions) : (section_ op).Issues Spares :=
    ⟨⟨rows, revisions⟩, fun _ => trivial⟩
  cases op with
  | store c =>
    cases c with
    | getJobByName jobName =>
      refine Prog.Issues.bind (one (by simp [KeepsRows]) (by simp [KeepsRevisions])) fun found => ?_
      cases found with
      | none => trivial
      | some jobId => exact ⟨⟨by simp [KeepsRows], by simp [KeepsRevisions]⟩, fun _ => trivial⟩
    | getJob _ | appendRevision _ | upsertJob _ =>
      exact ⟨⟨by simp [KeepsRows], by simp [KeepsRevisions]⟩, fun _ => trivial⟩
    | _ => exact upserts.elim
  | utcNow | newUuid => exact ⟨⟨by simp [KeepsRows], by simp [KeepsRevisions]⟩, fun _ => trivial⟩
  | _ => exact upserts.elim

/-- Alone, an upsert of a missing job does as it should. -/
theorem storesJobs (j : String) :
    StoresJobs (fun s op r t => Runs step (lockSections op) s r t) j (Store.hasRow j) (Store.hasRevisions j)
      (fun name s => s.jobsByName.lookup name = none) Store.NamesExact where
  utcNow := by
    rintro s r t ⟨_, _, rfl, rfl, rfl⟩
    rfl
  newUuid := by
    rintro s r t ⟨_, _, rfl, rfl, rfl⟩
    rfl
  getJob := by
    rintro s r t missing ⟨_, _, ⟨rfl, rfl⟩, rfl, rfl⟩
    refine ⟨?_, rfl⟩
    rw [Store.hasRow, Option.isSome_eq_false_iff, Option.isNone_iff_eq_none] at missing
    exact congrArg Except.ok missing
  getJobByName := by
    rintro name s r t names ⟨found, u, ⟨isFound, same⟩, rest⟩
    subst same
    cases held : u.jobsByName.lookup name with
    | none =>
      rw [held] at isFound
      subst isFound
      obtain ⟨-, rfl⟩ := rest
      exact ⟨rfl, fun _ => rfl⟩
    | some entry =>
      rw [held] at isFound
      subst isFound
      obtain ⟨_, _, ⟨rfl, rfl⟩, rfl, rfl⟩ := rest
      obtain ⟨row, stored, -⟩ := names.row held
      refine ⟨rfl, fun isNone => ?_⟩
      rw [stored] at isNone
      cases isNone
  append := by
    rintro revision s r t rfl ⟨_, _, rfl, rfl, rfl⟩
    refine .inr ⟨rfl, ?_, rfl, fun _ isFree => isFree⟩
    simp [Store.hasRevisions, Store.history_appendRevision]
  write := by
    rintro job s r t rfl isFree missing ⟨_, _, writes, rfl, rfl⟩
    rcases Store.writeJob_cases writes with ⟨⟨e, rfl⟩, -⟩ | ⟨-, -, rows⟩
    · obtain ⟨-, holder, held, -⟩ := Store.writeJob_refused writes
      rw [isFree] at held
      cases held
    · refine ⟨by simp [Store.hasRow, rows], ?_⟩
      simp [Store.hasRevisions, Store.history_congr (Store.writeJob_revisions writes)]

section Crossed

variable {host : Host} {job : Job} {s' : Store} {turns : List (Turn LockSection Answer)} {removed : Result Bool}
  {r : Result Unit}

/-- **In memory.** -/
theorem crossed_iff (names : s.NamesExact)
    (crossed : Crossed step ((CoordinatorService.deleteJob job.jobId).implement lockSections)
      ((CoordinatorService.upsertJob host job).implement lockSections) s turns removed r s') :
    (Store.hasRow job.jobId s' = Store.hasRevisions job.jobId s') ↔
      (After (removes job.jobId) (writes job.jobId) turns ↔ After (drops job.jobId) (appends job.jobId) turns) ∧
        (Store.hasRow job.jobId s = false → Store.hasRevisions job.jobId s = true → turns.any (writes job.jobId) = true) := by
  have spares : ((CoordinatorService.upsertJob host job).implement lockSections).Issues Spares :=
    (upsertJob_issues host job).implement spares_of_upsert
  -- the sections of the deletion cut the upsert in parts, none of which removes anything
  obtain ⟨before, q₁, t, found, t', rest, rfl, advances, own, crossed⟩ := crossed.next
  obtain ⟨spares₁, spared⟩ := advances.issues spares
  have keepsRows (q : Prog LockSection Answer (Result Unit)) (issues : q.Issues Spares) : q.Issues KeepsRows :=
    issues.mono fun _ => And.left
  have rowBefore : Store.hasRow job.jobId t = (Store.hasRow job.jobId s || before.any (writes job.jobId)) :=
    advances.observed row_kept (keepsRows _ spares)
  have quiet : ∀ turn ∈ before, removes job.jobId turn = false ∧ drops job.jobId turn = false :=
    fun turn inside => (spared turn inside).2.not_removes
  obtain ⟨isFound, gone, unchanged⟩ := removeRow_cases own
  cases found with
  | false =>
    obtain rfl := unchanged rfl
    obtain ⟨-, last⟩ := crossed.returned
    exact whole_iff_of_not_found (storesJobs job.jobId) (fun s own op r t ok => row_kept s own op r t ok.1)
      (fun turn ok => ok.not_removes) spares names advances isFound.symm ⟨rfl, rfl, rfl⟩ last
  | true =>
    have rows : Store.hasRow job.jobId s' = (Store.hasRow job.jobId t' || rest.any (writes job.jobId)) := by
      refine crossed.observed row_kept ?_ (keepsRows _ spares₁)
      exact ⟨by simp [KeepsRows], fun _ => trivial⟩
    obtain ⟨between, q₂, u, ⟨⟩, u', last, rfl, advances₂, own₂, crossed'⟩ := crossed.next
    obtain ⟨spares₂, spared₂⟩ := advances₂.issues spares₁
    have revised : Store.hasRevisions job.jobId s' = (Store.hasRevisions job.jobId u' || last.any (appends job.jobId)) := by
      refine crossed'.observed revisions_kept ?_ (spares₂.mono fun _ => And.right)
      trivial
    have noDrop : ∀ turn ∈ before ++ ⟨true, .removeRow job.jobId, true⟩ :: between, drops job.jobId turn = false := by
      rw [List.forall_mem_append, List.forall_mem_cons]
      exact ⟨fun turn inside => (quiet turn inside).2, rfl, fun turn inside => (spared₂ turn inside).2.not_removes.2⟩
    refine whole_iff_of_cleared ?_ ?_ ?_
    · rw [after_first (fun turn inside => (quiet turn inside).1) (by simp [removes]), rows, gone, Bool.false_or]
    · rw [← List.cons_append, ← List.append_assoc, after_first noDrop (by simp [drops]), revised,
        dropRevisions_none own₂, Bool.false_or]
    · rw [← isFound, eq_comm, Bool.or_eq_true] at rowBefore
      refine rowBefore.imp_right fun wrote => ?_
      rw [List.any_append, wrote, Bool.true_or]

end Crossed

end LockSection

/-! ## In SQL -/

namespace Sql

namespace Step

variable {j : String} {d d' : Db}

theorem spares_query {q : Statement} (keeps : (Step.statement q).Spares) : (query q).Issues Spares :=
  ⟨keeps, fun _ => trivial⟩

theorem spares_of_upsert (op : Op) (upserts : UpsertCall op) : (statements op).Issues Spares := by
  cases op with
  | store c =>
    cases c with
    | upsertJob job =>
      refine (spares_query ⟨by simp [KeepsRows], by simp [KeepsRevisions]⟩).bind fun written => ?_
      match written with
      | .ok () => trivial
      | .error (.storageError message) =>
        show (nameTaken job message).Issues Spares
        unfold nameTaken
        split
        · refine (spares_query ⟨by simp [KeepsRows], by simp [KeepsRevisions]⟩).bind fun found => ?_
          match found with
          | .error e => trivial
          | .ok none => trivial
          | .ok (some existing) =>
            show Prog.Issues _ (if _ then _ else _)
            split <;> trivial
        · trivial
      | .error (.scriptNotFound _) | .error (.jobNotFound _) | .error (.runNotFound _) | .error (.invalidCron _)
      | .error (.invalidTimezone _) | .error (.paramError _) | .error (.scriptMismatch _ _ _) | .error (.jobNameTaken _ _)
      | .error (.identity _) | .error (.internal _) | .error (.internalSource _) => trivial
    | getJob _ | getJobByName _ | appendRevision _ => exact spares_query ⟨by simp [KeepsRows], by simp [KeepsRevisions]⟩
    | _ => exact upserts.elim
  | utcNow | newUuid => exact ⟨⟨by simp [KeepsRows], by simp [KeepsRevisions]⟩, fun _ => trivial⟩
  | _ => exact upserts.elim

/-- Alone, an upsert of a missing job does as it should. -/
theorem storesJobs (j : String) :
    StoresJobs (fun d op r d' => Runs (step reliable) (statements op) d r d') j (Db.hasRow j) (Db.hasRevisions j)
      (fun name d => ∀ row ∈ d.jobs.rows, row.jobName ≠ name) (fun _ => True) where
  utcNow := by
    rintro s r t ⟨_, _, rfl, rfl, rfl⟩
    rfl
  newUuid := by
    rintro s r t ⟨_, _, rfl, rfl, rfl⟩
    rfl
  getJob := by
    rintro s r t missing ⟨_, _, ran, rfl, rfl⟩
    cases ran
    refine ⟨?_, rfl⟩
    rw [Db.hasRow, Option.isSome_eq_false_iff, Option.isNone_iff_eq_none] at missing
    exact congrArg Except.ok missing
  getJobByName := by
    rintro name s r t - ⟨_, _, ran, rfl, rfl⟩
    cases ran
    refine ⟨rfl, fun isNone => ?_⟩
    have unused := List.find?_eq_none.mp (Except.ok.inj isNone)
    simpa using unused
  append := by
    rintro revision s r t rfl ⟨_, _, ran, rfl, rfl⟩
    have records := revisions_step (j := revision.jobId) true ran
    have executed : (Statement.insertRevision revision).exec s = (r, t) := ran
    simp only [Statement.exec] at executed
    split at executed
    · cases executed
      exact .inl ⟨⟨_, rfl⟩, rfl⟩
    · cases executed
      refine .inr ⟨rfl, ?_, rfl, fun _ isFree => isFree⟩
      rw [records, appends, beq_self_eq_true, Bool.or_true]
  write := by
    rintro job s r t rfl isFree missing ⟨_, _, ran, rest⟩
    rcases s.upsertJob_cases job with ⟨holder, held, -⟩ | ⟨-, d', written, jobs, revisions⟩
    · have named := List.find?_some held
      rw [decide_eq_true_eq] at named
      exact absurd named.1 (isFree holder (List.mem_of_find?_eq_some held))
    · have executed : (Statement.insertJob job).exec s = (_, _) := ran
      rw [Statement.exec, written] at executed
      cases executed
      obtain ⟨-, rfl⟩ := rest
      refine ⟨?_, ?_⟩
      · rw [Db.hasRow, jobs, Table.lookup_insert_self]
        rfl
      · rw [Db.hasRevisions, revisions]
        rfl

section Crossed

variable {host : Host} {job : Job} {turns : List (Turn Step Answer)} {removed : Result Bool} {r : Result Unit}

/-- **In SQL.** -/
theorem crossed_iff (crossed : Crossed (step reliable) ((CoordinatorService.deleteJob job.jobId).implement statements)
      ((CoordinatorService.upsertJob host job).implement statements) d turns removed r d') :
    (Db.hasRow job.jobId d' = Db.hasRevisions job.jobId d') ↔
      (After (removes job.jobId) (writes job.jobId) turns ↔ After (drops job.jobId) (appends job.jobId) turns) ∧
        (Db.hasRow job.jobId d = false → Db.hasRevisions job.jobId d = true → turns.any (writes job.jobId) = true) := by
  have spares : ((CoordinatorService.upsertJob host job).implement statements).Issues Spares :=
    (upsertJob_issues host job).implement spares_of_upsert
  have keepsRows (q : Prog Step Answer (Result Unit)) (issues : q.Issues Spares) : q.Issues KeepsRows :=
    issues.mono fun _ => And.left
  obtain ⟨before, q₁, t, found, t', rest, rfl, advances, own, crossed⟩ := crossed.next
  obtain ⟨spares₁, spared⟩ := advances.issues spares
  have rowBefore : Db.hasRow job.jobId t = (Db.hasRow job.jobId d || before.any (writes job.jobId)) :=
    advances.observed row_kept (keepsRows _ spares)
  have quiet : ∀ turn ∈ before, removes job.jobId turn = false ∧ drops job.jobId turn = false :=
    fun turn inside => (spared turn inside).2.not_removes
  have isFound : found = .ok (t.jobs.lookup job.jobId) ∧ t' = t := by
    cases own
    exact ⟨rfl, rfl⟩
  obtain ⟨rfl, rfl⟩ := isFound
  cases stored : t'.jobs.lookup job.jobId with
  | none =>
    rw [stored] at crossed
    obtain ⟨-, last⟩ := crossed.returned
    have missing : Db.hasRow job.jobId t' = false := by
      rw [Db.hasRow, stored]
      rfl
    exact whole_iff_of_not_found (storesJobs job.jobId) (fun d own op r d' ok => row_kept d own op r d' ok.1)
      (fun turn ok => ok.not_removes) spares trivial advances missing ⟨rfl, rfl, rfl⟩ last
  | some row =>
    rw [stored] at crossed
    -- what was appended before this statement is lost, what is written before the next one too
    obtain ⟨between, q₂, u, dropped, u', rest₂, rfl, advances₂, own₂, crossed'⟩ := crossed.next
    obtain ⟨spares₂, spared₂⟩ := advances₂.issues spares₁
    obtain ⟨rfl, none_⟩ := deleteRevisions_none own₂
    have revised : Db.hasRevisions job.jobId d' = (Db.hasRevisions job.jobId u' || rest₂.any (appends job.jobId)) := by
      refine crossed'.observed revisions_kept ?_ (spares₂.mono fun _ => And.right)
      refine ⟨by simp [KeepsRevisions], fun deleted => ?_⟩
      cases deleted <;> trivial
    obtain ⟨between', q₃, v, deleted, v', last, rfl, advances₃, own₃, crossed₃⟩ := crossed'.next
    obtain ⟨spares₃, spared₃⟩ := advances₃.issues spares₂
    obtain ⟨rfl, gone⟩ := deleteJob_none own₃
    have rows : Db.hasRow job.jobId d' = (Db.hasRow job.jobId v' || last.any (writes job.jobId)) := by
      refine crossed₃.observed row_kept ?_ (keepsRows _ spares₃)
      trivial
    have noDrop : ∀ turn ∈ before ++ ⟨true, .statement (.selectJob job.jobId), .ok (some row)⟩ :: between,
        drops job.jobId turn = false := by
      rw [List.forall_mem_append, List.forall_mem_cons]
      exact ⟨fun turn inside => (quiet turn inside).2, rfl, fun turn inside => (spared₂ turn inside).2.not_removes.2⟩
    have noRemoval : ∀ turn ∈ before ++ ⟨true, .statement (.selectJob job.jobId), .ok (some row)⟩ ::
        (between ++ ⟨true, .statement (.deleteRevisions job.jobId), .ok ()⟩ :: between'), removes job.jobId turn = false := by
      rw [List.forall_mem_append, List.forall_mem_cons, List.forall_mem_append, List.forall_mem_cons]
      exact ⟨fun turn inside => (quiet turn inside).1, rfl, fun turn inside => (spared₂ turn inside).2.not_removes.1, rfl,
        fun turn inside => (spared₃ turn inside).2.not_removes.1⟩
    refine whole_iff_of_cleared ?_ ?_ ?_
    · rw [← List.cons_append, ← List.append_assoc, ← List.cons_append, ← List.append_assoc,
        after_first (by simpa using noRemoval) (by simp [removes]), rows, gone, Bool.false_or]
    · rw [← List.cons_append, ← List.append_assoc, after_first noDrop (by simp [drops]), revised, none_, Bool.false_or]
    · rw [Db.hasRow, stored, eq_comm, Option.isSome_some, Bool.or_eq_true] at rowBefore
      refine rowBefore.imp_right fun wrote => ?_
      rw [List.any_append, wrote, Bool.true_or]

end Crossed

end Step

end Sql

/-! ## Statements that fail -/

namespace Sql

section Failing

variable {refuses : Statement → Option ChrononError} {j : String} {d d' : Db}

/-- The row `j` and all its revision rows are as before. -/
def Db.SameJob (j : String) (d d' : Db) : Prop :=
  d'.jobs.lookup j = d.jobs.lookup j ∧
    ∀ revision, revision.jobId = j → (revision ∈ d'.revisions.rows ↔ revision ∈ d.revisions.rows)

theorem Db.SameJob.refl (j : String) (d : Db) : d.SameJob j d := ⟨rfl, fun _ _ => Iff.rfl⟩

/-- Without the revisions everything is as before only if there were none. -/
theorem Db.sameJob_cleared (d : Db) (j : String) :
    d.SameJob j ((Statement.deleteRevisions j).exec d).2 ↔ Db.hasRevisions j d = false := by
  rw [Db.hasRevisions, List.any_eq_false]
  constructor
  · rintro ⟨-, same⟩ revision inside own
    have isOwn : revision.jobId = j := by simpa using own
    have kept := (List.mem_filter.mp ((same revision isOwn).mpr inside)).2
    simp [isOwn] at kept
  · intro none_
    refine ⟨rfl, fun revision own => ⟨fun inside => (List.mem_filter.mp inside).1, fun inside => ?_⟩⟩
    exact absurd (by simp [own]) (none_ revision inside)

/-- **A deletion that fails.** It has changed nothing unless the statement that fails is the last one and there were
revisions to delete. -/
theorem deleteJob_error_iff {e : ChrononError} (runs : Runs (step refuses) (deleteJob j) d (.error e) d') :
    d.SameJob j d' ↔
      refuses (.selectJob j) ≠ none ∨ refuses (.deleteRevisions j) ≠ none ∨ Db.hasRevisions j d = false := by
  obtain ⟨found, d₁, selects, runs⟩ := runs
  rcases query_cases selects with ⟨e', refused, rfl, rfl⟩ | ⟨selected, ran⟩
  · obtain ⟨-, rfl⟩ := runs
    exact ⟨fun _ => .inl (by simp [refused]), fun _ => .refl j d'⟩
  · cases ran
    cases stored : d.jobs.lookup j with
    | none =>
      rw [Db.getJob, stored] at runs
      obtain ⟨failed, -⟩ := runs
      cases failed
    | some row =>
      rw [Db.getJob, stored] at runs
      obtain ⟨dropped, d₂, drops, runs⟩ := runs
      rcases query_cases drops with ⟨e', refused, rfl, rfl⟩ | ⟨accepted, ran⟩
      · obtain ⟨-, rfl⟩ := runs
        exact ⟨fun _ => .inr (.inl (by simp [refused])), fun _ => .refl j d'⟩
      · cases ran
        obtain ⟨deleted, d₃, deletes, runs⟩ := runs
        rcases query_cases deletes with ⟨e', refused, rfl, rfl⟩ | ⟨-, ran⟩
        · obtain ⟨-, rfl⟩ := runs
          refine (d.sameJob_cleared j).trans ⟨fun none_ => .inr (.inr none_), ?_⟩
          rintro (selectFailed | dropFailed | none_)
          · exact absurd selected selectFailed
          · exact absurd accepted dropFailed
          · exact none_
        · cases ran
          obtain ⟨failed, -⟩ := runs
          cases failed

/-- The revisions cannot be deleted. -/
theorem deleteJob_fails_early {row : Job} {e : ChrononError} (stored : d.jobs.lookup j = some row)
    (selected : refuses (.selectJob j) = none) (refused : refuses (.deleteRevisions j) = some e) :
    Runs (step refuses) (deleteJob j) d (.error e) d := by
  refine ⟨_, _, query_accepted selected, ?_⟩
  rw [Statement.exec, Db.getJob, stored]
  exact ⟨_, _, query_refused refused, rfl, rfl⟩

/-- The revisions are deleted, and the row cannot be. -/
theorem deleteJob_fails_late {row : Job} {e : ChrononError} (stored : d.jobs.lookup j = some row)
    (selected : refuses (.selectJob j) = none) (accepted : refuses (.deleteRevisions j) = none)
    (refused : refuses (.deleteJob j) = some e) :
    Runs (step refuses) (deleteJob j) d (.error e) ((Statement.deleteRevisions j).exec d).2 := by
  refine ⟨_, _, query_accepted selected, ?_⟩
  rw [Statement.exec, Db.getJob, stored]
  exact ⟨_, _, query_accepted accepted, _, _, query_refused refused, rfl, rfl⟩

end Failing

end Sql

/-! ## All or nothing -/

/-- One step, where any statement may fail, each time anew. -/
def Sql.faulty (d : Db) (op : Step) (r : op.Answer) (d' : Db) : Prop := ∃ refuses, Sql.step refuses d op r d'

/-- **Deletions.** A failed deletion has changed nothing unless only its last statement failed and there were revisions.
After a deletion and an upsert of the same job, in any order of their steps, the job has a row and revisions or neither
exactly when the upsert's row comes after the removal of the row where its revision comes after the removal of the
revisions, and it writes its row where there were revisions alone. If statements fail, it depends on what was written
and deleted last. -/
theorem deletion_all_or_nothing_iff (host : Host) (job : Job) :
    (∀ refuses d d' e, Runs (Sql.step refuses) (Sql.deleteJob job.jobId) d (.error e) d' →
      (d.SameJob job.jobId d' ↔ refuses (.selectJob job.jobId) ≠ none ∨ refuses (.deleteRevisions job.jobId) ≠ none ∨
        Sql.Db.hasRevisions job.jobId d = false)) ∧
      (∀ calls turns removed r s',
        Crossed LockSection.step ((CoordinatorService.deleteJob job.jobId).implement lockSections)
          ((CoordinatorService.upsertJob host job).implement lockSections) (Store.new.called calls) turns removed r s' →
        (Store.hasRow job.jobId s' = Store.hasRevisions job.jobId s' ↔
          (After (LockSection.removes job.jobId) (LockSection.writes job.jobId) turns ↔
            After (LockSection.drops job.jobId) (LockSection.appends job.jobId) turns) ∧
            (Store.hasRow job.jobId (Store.new.called calls) = false →
              Store.hasRevisions job.jobId (Store.new.called calls) = true →
              turns.any (LockSection.writes job.jobId) = true))) ∧
      (∀ d turns removed r d',
        Crossed (Sql.step Sql.reliable) ((CoordinatorService.deleteJob job.jobId).implement Sql.statements)
          ((CoordinatorService.upsertJob host job).implement Sql.statements) d turns removed r d' →
        (Sql.Db.hasRow job.jobId d' = Sql.Db.hasRevisions job.jobId d' ↔
          (After (Sql.Step.removes job.jobId) (Sql.Step.writes job.jobId) turns ↔
            After (Sql.Step.drops job.jobId) (Sql.Step.appends job.jobId) turns) ∧
            (Sql.Db.hasRow job.jobId d = false → Sql.Db.hasRevisions job.jobId d = true →
              turns.any (Sql.Step.writes job.jobId) = true))) ∧
      (∀ d turns removed r d',
        Crossed Sql.faulty ((CoordinatorService.deleteJob job.jobId).implement Sql.statements)
          ((CoordinatorService.upsertJob host job).implement Sql.statements) d turns removed r d' →
        (Sql.Db.hasRow job.jobId d' = Sql.Db.hasRevisions job.jobId d' ↔
          standing (Sql.Step.removes job.jobId) (Sql.Step.writes job.jobId) (Sql.Db.hasRow job.jobId d) turns =
            standing (Sql.Step.drops job.jobId) (Sql.Step.appends job.jobId) (Sql.Db.hasRevisions job.jobId d) turns)) := by
  refine ⟨fun refuses d d' e runs => Sql.deleteJob_error_iff runs, fun calls turns removed r s' crossed => ?_,
    fun d turns removed r d' crossed => Sql.Step.crossed_iff crossed, fun d turns removed r d' crossed => ?_⟩
  · exact LockSection.crossed_iff (.of_new calls) crossed
  · rw [crossed.standing fun _ own _ _ _ ⟨_, steps⟩ => Sql.Step.row_step own steps,
      crossed.standing fun _ own _ _ _ ⟨_, steps⟩ => Sql.Step.revisions_step own steps]

/-- What the first upsert of a job has recorded. -/
def firstRevision : JobRevision := ⟨"rev", "j", 1, 0, dueOnceJob.actorJson, dueOnceJob⟩

def recordedCalls : List (DateTime × StoreCall) := [(0, .appendRevision firstRevision), (0, .upsertJob dueOnceJob)]

def recordedDb : Sql.Db := ((Sql.Statement.insertRevision firstRevision).exec (Sql.Db.empty.upsertJob dueOnceJob).2).2

/-- The database is locked when the revisions are to be deleted. -/
def lockedEarly : Sql.Statement → Option ChrononError
  | .deleteRevisions _ => some (.storageError "database is locked")
  | _ => none

/-- The database is locked when the row is to be deleted. -/
def lockedLate : Sql.Statement → Option ChrononError
  | .deleteJob _ => some (.storageError "database is locked")
  | _ => none

/-- The deletion first, then the upsert; or a deletion that fails early. -/
theorem deletion_all_or_nothing_in_turn :
    (∃ e d', Runs (Sql.step lockedEarly) (Sql.deleteJob "j") recordedDb (.error e) d' ∧ recordedDb.SameJob "j" d') ∧
      (∃ turns removed r s',
        Crossed LockSection.step ((CoordinatorService.deleteJob "j").implement lockSections)
          ((CoordinatorService.upsertJob .simple dueOnceJob).implement lockSections) (Store.new.called recordedCalls) turns
          removed r s' ∧
        Store.hasRow "j" s' = Store.hasRevisions "j" s') ∧
      (∃ turns removed r d',
        Crossed (Sql.step Sql.reliable) ((CoordinatorService.deleteJob "j").implement Sql.statements)
          ((CoordinatorService.upsertJob .simple dueOnceJob).implement Sql.statements) recordedDb turns removed r d' ∧
        Sql.Db.hasRow "j" d' = Sql.Db.hasRevisions "j" d') ∧
      (∃ turns removed r d',
        Crossed Sql.faulty ((CoordinatorService.deleteJob "j").implement Sql.statements)
          ((CoordinatorService.upsertJob .simple dueOnceJob).implement Sql.statements) recordedDb turns removed r d' ∧
        Sql.Db.hasRow "j" d' = Sql.Db.hasRevisions "j" d') := by
  obtain ⟨alone, inMemory, inSql, failing⟩ := deletion_all_or_nothing_iff .simple dueOnceJob
  refine ⟨?_, ?_, ?_, ?_⟩
  · have runs : Runs (Sql.step lockedEarly) (Sql.deleteJob "j") recordedDb _ _ := Sql.deleteJob_fails_early rfl rfl rfl
    exact ⟨_, _, runs, (alone _ _ _ _ runs).mpr (.inr (.inl nofun))⟩
  · obtain ⟨turns, removed, r, s', crossed, sides⟩ := exists_crossed (LockSection.exec_sound 5 "id")
      [true, true, false, false, false, false, false, false, false]
      (m := (CoordinatorService.deleteJob "j").implement lockSections)
      (q := (CoordinatorService.upsertJob .simple dueOnceJob).implement lockSections)
      (s := Store.new.called recordedCalls)
      (fun turns _ => decide
        (After (LockSection.removes "j") (LockSection.writes "j") turns ↔
          After (LockSection.drops "j") (LockSection.appends "j") turns))
      (by decide +kernel)
    have stored : Store.hasRow "j" (Store.new.called recordedCalls) = true := by decide +kernel
    refine ⟨turns, removed, r, s', crossed, (inMemory _ _ _ _ _ crossed).mpr ⟨of_decide_eq_true sides, fun missing => ?_⟩⟩
    exact absurd (stored.symm.trans missing) nofun
  · obtain ⟨turns, removed, r, d', crossed, sides⟩ := exists_crossed (Sql.Step.exec_sound Sql.reliable 5 "id")
      [true, true, true, false, false, false, false, false, false, false]
      (m := (CoordinatorService.deleteJob "j").implement Sql.statements)
      (q := (CoordinatorService.upsertJob .simple dueOnceJob).implement Sql.statements)
      (s := recordedDb)
      (fun turns _ => decide
        (After (Sql.Step.removes "j") (Sql.Step.writes "j") turns ↔
          After (Sql.Step.drops "j") (Sql.Step.appends "j") turns))
      (by decide +kernel)
    have stored : Sql.Db.hasRow "j" recordedDb = true := by decide +kernel
    refine ⟨turns, removed, r, d', crossed, (inSql _ _ _ _ _ crossed).mpr ⟨of_decide_eq_true sides, fun missing => ?_⟩⟩
    exact absurd (stored.symm.trans missing) nofun
  · obtain ⟨turns, removed, r, d', crossed, stands⟩ := exists_crossed
      (fun d op r d' ran => (⟨_, Sql.Step.exec_sound lockedEarly 5 "id" d op r d' ran⟩ : Sql.faulty d op r d'))
      [true, true, false, false, false]
      (m := (CoordinatorService.deleteJob "j").implement Sql.statements)
      (q := (CoordinatorService.upsertJob .simple dueOnceJob).implement Sql.statements)
      (s := recordedDb)
      (fun turns _ => standing (Sql.Step.removes "j") (Sql.Step.writes "j") (Sql.Db.hasRow "j" recordedDb) turns ==
        standing (Sql.Step.drops "j") (Sql.Step.appends "j") (Sql.Db.hasRevisions "j" recordedDb) turns)
      (by decide +kernel)
    exact ⟨turns, removed, r, d', crossed, (failing _ _ _ _ _ crossed).mpr (eq_of_beq stands)⟩

/-- The row is kept without its revisions: by a failure, and where the upsert reads the row before the deletion and
writes it afterwards. -/
theorem deletion_leaves_half :
    (∃ e d', Runs (Sql.step lockedLate) (Sql.deleteJob "j") recordedDb (.error e) d' ∧ ¬ recordedDb.SameJob "j" d') ∧
      (∃ turns removed r s',
        Crossed LockSection.step ((CoordinatorService.deleteJob "j").implement lockSections)
          ((CoordinatorService.upsertJob .simple dueOnceJob).implement lockSections) (Store.new.called recordedCalls) turns
          removed r s' ∧
        (Store.hasRow "j" s' && !Store.hasRevisions "j" s') = true) ∧
      (∃ turns removed r d',
        Crossed (Sql.step Sql.reliable) ((CoordinatorService.deleteJob "j").implement Sql.statements)
          ((CoordinatorService.upsertJob .simple dueOnceJob).implement Sql.statements) recordedDb turns removed r d' ∧
        (Sql.Db.hasRow "j" d' && !Sql.Db.hasRevisions "j" d') = true) := by
  refine ⟨?_, ?_, ?_⟩
  · have runs : Runs (Sql.step lockedLate) (Sql.deleteJob "j") recordedDb _ _ := Sql.deleteJob_fails_late rfl rfl rfl rfl
    refine ⟨_, _, runs, fun same => ?_⟩
    have revised : Sql.Db.hasRevisions "j" recordedDb = true := by decide +kernel
    exact absurd (revised.symm.trans ((recordedDb.sameJob_cleared "j").mp same)) nofun
  · exact exists_crossed (LockSection.exec_sound 5 "id") [false, false, true, true, false]
      (fun _ s' => Store.hasRow "j" s' && !Store.hasRevisions "j" s') (by decide +kernel)
  · exact exists_crossed (Sql.Step.exec_sound Sql.reliable 5 "id") [false, false, true, true, true, false]
      (fun _ d' => Sql.Db.hasRow "j" d' && !Sql.Db.hasRevisions "j" d') (by decide +kernel)

end Chronon
