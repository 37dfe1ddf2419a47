import Chronon.Mem.Names
import Mathlib.Logic.Relation

/-!
# `get_job_by_name` against its writers, lock by lock

`write_job` and `remove_job` take the lock of `jobs`, then the one of
`jobs_by_name`, and change both maps under both; `remove_job` drops the
revisions under a third lock afterwards. The lookup takes its two locks one
after the other and holds neither in between.
-/

namespace Chronon
set_option autoImplicit false

open Collections

/-- The operations that change names. -/
inductive NameWrite where
  | upsert (job : Job)
  | delete (jobId : String)

/-- `revisions.write().remove(job_id)`. -/
def Store.dropRevisions (s : Store) (jobId : String) : Store := { s with revisions := s.revisions.erase jobId }

/-- What is done under the locks of `jobs` and `jobs_by_name`: the maps after it, and the job whose revisions are
to be dropped then. -/
def NameWrite.commit (s : Store) : NameWrite → Store × List String
  | .upsert job => ((s.writeJob job).2, [])
  | .delete jobId =>
    match s.jobs.lookup jobId with
    | none => (s, [])
    | some job => ({ s with jobs := s.jobs.erase jobId, jobsByName := s.jobsByName.erase job.jobName }, [jobId])

/-- The maps, the write that holds the lock of `jobs`, and the deletions that have yet to drop their revisions. -/
structure LockedStore where
  store : Store
  jobsLock : Option NameWrite
  deleted : List String

/-- One lock acquisition of a writer, with what is done under it. -/
inductive Acquires : LockedStore → LockedStore → Prop
  | jobs {l : LockedStore} (w : NameWrite) : l.jobsLock = none → Acquires l { l with jobsLock := some w }
  | jobsByName {l : LockedStore} {w : NameWrite} : l.jobsLock = some w →
      Acquires l ⟨(w.commit l.store).1, none, (w.commit l.store).2 ++ l.deleted⟩
  | revisions {l : LockedStore} {jobId : String} : jobId ∈ l.deleted →
      Acquires l { l with store := l.store.dropRevisions jobId, deleted := l.deleted.erase jobId }

/-- Where a call of `get_job_by_name` stands: before the call, before its first lock, between its locks, with its
answer, and after it. The stores its locks were taken on are kept. -/
inductive Lookup where
  | idle
  | called
  | indexed (index : Store) (jobId : String)
  | answered (index : Store) (jobs : Option Store) (job : Option Job)
  | returned (index : Store) (jobs : Option Store) (job : Option Job)

/-- The call is under way. -/
def Lookup.running : Lookup → Bool
  | .idle | .returned _ _ _ => false
  | _ => true

/-- The locks, the lookup, and every store there has been since it was called. -/
structure Lookups where
  locks : LockedStore
  lookup : Lookup
  seen : List Store

/-- One step: a lock acquisition of some writer or of the lookup of `n`, or its call or return. -/
inductive LookupStep (n : String) : Lookups → Lookups → Prop
  | writer {l l' : LockedStore} {at' : Lookup} {seen : List Store} : Acquires l l' →
      LookupStep n ⟨l, at', seen⟩ ⟨l', at', if at'.running then l'.store :: seen else seen⟩
  | call {l : LockedStore} {seen : List Store} : LookupStep n ⟨l, .idle, seen⟩ ⟨l, .called, [l.store]⟩
  | named {l : LockedStore} {seen : List Store} {entry : String × String} :
      l.store.jobsByName.lookup n = some entry →
      LookupStep n ⟨l, .called, seen⟩ ⟨l, .indexed l.store entry.2, seen⟩
  | unnamed {l : LockedStore} {seen : List Store} : l.store.jobsByName.lookup n = none →
      LookupStep n ⟨l, .called, seen⟩ ⟨l, .answered l.store none none, seen⟩
  | jobs {l : LockedStore} {seen : List Store} {index : Store} {jobId : String} : l.jobsLock = none →
      LookupStep n ⟨l, .indexed index jobId, seen⟩ ⟨l, .answered index (some l.store) (l.store.jobs.lookup jobId), seen⟩
  | return {l : LockedStore} {seen : List Store} {index : Store} {jobs : Option Store} {job : Option Job} :
      LookupStep n ⟨l, .answered index jobs job, seen⟩ ⟨l, .returned index jobs job, seen⟩

/-- The job that held the name when the index was read is stored under another name when `jobs` is read. -/
def RenamedBetween (n : String) (index : Store) (jobs : Option Store) : Prop :=
  ∃ holder later row, index.jobsByName.lookup n = some (n, holder) ∧ jobs = some later ∧
    later.jobs.lookup holder = some row ∧ row.jobName ≠ n

/-- The answer is one an atomic lookup gives at some point of the call: never a job of another name, and `None` only
if the name was free at some point. -/
structure AtomicAnswer (n : String) (seen : List Store) (job : Option Job) : Prop where
  point : ∃ s ∈ seen, s.getJobByName n = .ok job
  named : ∀ row, job = some row → row.jobName = n
  missing : job = none → ∃ s ∈ seen, ∀ id row, s.jobs.lookup id = some row → row.jobName ≠ n

/-! ## The writers -/

section Writers

variable {s : Store} {l l' : LockedStore} {n id : String}

/-- `upsert_job` is its commit. -/
theorem commit_upsert (job : Job) : (s.upsertJob job).2 = ((NameWrite.upsert job).commit s).1 := rfl

/-- `delete_job` is its commit and the dropping of the revisions. -/
theorem commit_delete (jobId : String) :
    (s.deleteJob jobId).2 = ((NameWrite.delete jobId).commit s).2.foldl Store.dropRevisions ((NameWrite.delete jobId).commit s).1 := by
  simp only [Store.deleteJob, Store.removeJob, NameWrite.commit]
  cases s.jobs.lookup jobId <;> rfl

theorem Store.NamesExact.commit (exact : s.NamesExact) (w : NameWrite) : (w.commit s).1.NamesExact := by
  cases w with
  | upsert job =>
    have ran : s.writeJob job = ((s.writeJob job).1, (s.writeJob job).2) := rfl
    obtain ⟨_, _, -, -, -, -, same⟩ | ⟨-, -, after⟩ := exact.writeJob ran
    · exact exact.of_eq (congrArg Store.jobs same) (congrArg Store.jobsByName same)
    · exact after
  | delete jobId =>
    dsimp only [NameWrite.commit]
    split
    · exact exact
    · exact Indexes.erase exact ‹_›

theorem Acquires.exact (acquires : Acquires l l') (exact : l.store.NamesExact) : l'.store.NamesExact := by
  cases acquires with
  | jobs w _ => exact exact
  | @jobsByName w _ => exact exact.commit w
  | revisions _ => exact exact.of_eq rfl rfl

theorem index_erase (name : String) (held : s.jobsByName.lookup n = some (n, id)) :
    (s.jobsByName.erase name).lookup n = some (n, id) ∨ (s.jobsByName.erase name).lookup n = none := by
  by_cases same : name = n
  · subst same
    exact .inr (Table.lookup_erase_self _ _)
  · rw [Table.lookup_erase_ne same]
    exact .inl held

/-- A name stays with its holder, or it is given up. -/
theorem Acquires.index (acquires : Acquires l l') (held : l.store.jobsByName.lookup n = some (n, id)) :
    l'.store.jobsByName.lookup n = some (n, id) ∨ l'.store.jobsByName.lookup n = none := by
  cases acquires with
  | jobs w _ => exact .inl held
  | revisions _ => exact .inl held
  | @jobsByName w _ =>
    cases w with
    | upsert job =>
      dsimp only [NameWrite.commit]
      cases ran : l.store.writeJob job with
      | mk r s' =>
        cases r with
        | error e =>
          rw [(Store.writeJob_refused ran).1]
          exact .inl held
        | ok _ =>
          obtain ⟨own, kept, written, isKept⟩ := Store.writeJob_index ran
          rw [written, Table.lookup_insert]
          dsimp only
          split
          · rename_i same
            subst same
            rw [own id held]
            exact .inl rfl
          · rcases isKept with rfl | ⟨previous, -, -, rfl⟩
            · exact .inl held
            · exact index_erase _ held
    | delete jobId =>
      dsimp only [NameWrite.commit]
      split
      · exact .inl held
      · exact index_erase _ held

end Writers

/-! ## The lookup -/

/-- What holds at every point of a lookup of `n`. -/
structure LookupInv (n : String) (c : Lookups) : Prop where
  exact : c.locks.store.NamesExact
  seenExact : ∀ s ∈ c.seen, s.NamesExact
  now : c.lookup.running = true → c.locks.store ∈ c.seen
  indexed : ∀ index jobId, c.lookup = .indexed index jobId → index.jobsByName.lookup n = some (n, jobId) ∧
    (c.locks.store.jobsByName.lookup n = some (n, jobId) ∨ ∃ s ∈ c.seen, s.jobsByName.lookup n = none)
  answered : ∀ index jobs job, c.lookup = .answered index jobs job ∨ c.lookup = .returned index jobs job →
    ((∃ s ∈ c.seen, s.getJobByName n = .ok job) ∧ ¬ RenamedBetween n index jobs) ∨
      (RenamedBetween n index jobs ∧ ∃ row, job = some row ∧ row.jobName ≠ n)

section Run

variable {n : String} {c c' : Lookups} {l l' : LockedStore} {at' : Lookup} {seen : List Store}

theorem getJobByName_of_unused {s : Store} (unused : s.jobsByName.lookup n = none) : s.getJobByName n = .ok none := by
  rw [Store.getJobByName, unused]

/-- Before the first lock there is nothing to keep but the points. -/
theorem LookupInv.early (exact : c.locks.store.NamesExact) (seenExact : ∀ s ∈ c.seen, s.NamesExact)
    (now : c.lookup.running = true → c.locks.store ∈ c.seen) (early : c.lookup = .idle ∨ c.lookup = .called) :
    LookupInv n c := by
  refine ⟨exact, seenExact, now, fun index jobId isIndexed => ?_, fun index jobs job isAnswer => ?_⟩
  · rcases early with early | early <;> cases early.symm.trans isIndexed
  · rcases early with early | early <;> rcases isAnswer with isAnswer | isAnswer <;> cases early.symm.trans isAnswer

/-- With the answer there is only the answer to account for. -/
theorem LookupInv.of_answer {index : Store} {jobs : Option Store} {job : Option Job}
    (exact : c.locks.store.NamesExact) (seenExact : ∀ s ∈ c.seen, s.NamesExact)
    (now : c.lookup.running = true → c.locks.store ∈ c.seen)
    (isAnswer : c.lookup = .answered index jobs job ∨ c.lookup = .returned index jobs job)
    (decided : ((∃ s ∈ c.seen, s.getJobByName n = .ok job) ∧ ¬ RenamedBetween n index jobs) ∨
      (RenamedBetween n index jobs ∧ ∃ row, job = some row ∧ row.jobName ≠ n)) : LookupInv n c := by
  refine ⟨exact, seenExact, now, fun _ _ isIndexed => ?_, fun _ _ _ same => ?_⟩
  · rcases isAnswer with isAnswer | isAnswer <;> cases isAnswer.symm.trans isIndexed
  · rcases isAnswer with isAnswer | isAnswer <;> rcases same with same | same <;> cases isAnswer.symm.trans same <;>
      exact decided

/-- Writers take nothing back from what the lookup has seen. -/
theorem LookupInv.writer (inv : LookupInv n ⟨l, at', seen⟩) (acquires : Acquires l l') :
    LookupInv n ⟨l', at', if at'.running then l'.store :: seen else seen⟩ := by
  have exact' := acquires.exact inv.exact
  have more {s : Store} (inside : s ∈ seen) : s ∈ if at'.running then l'.store :: seen else seen := by
    split
    · exact List.mem_cons_of_mem _ inside
    · exact inside
  refine ⟨exact', fun s inside => ?_, fun running => ?_, fun index jobId isIndexed => ?_, fun index jobs job is => ?_⟩
  · dsimp only at inside
    split at inside
    · rcases List.mem_cons.mp inside with rfl | inside
      · exact exact'
      · exact inv.seenExact s inside
    · exact inv.seenExact s inside
  · dsimp only at running ⊢
    rw [if_pos running]
    exact List.mem_cons_self
  · obtain ⟨held, still | ⟨s, inside, unused⟩⟩ := inv.indexed index jobId isIndexed
    · refine ⟨held, (acquires.index still).imp_right fun unused => ⟨l'.store, ?_, unused⟩⟩
      dsimp only at isIndexed
      subst isIndexed
      exact List.mem_cons_self
    · exact ⟨held, .inr ⟨s, more inside, unused⟩⟩
  · rcases inv.answered index jobs job is with ⟨⟨s, inside, point⟩, kept⟩ | renamed
    · exact .inl ⟨⟨s, more inside, point⟩, kept⟩
    · exact .inr renamed

/-- The second lock: the job is gone, still has the name, or has another one. -/
theorem LookupInv.jobs {index : Store} {jobId : String} (inv : LookupInv n ⟨l, .indexed index jobId, seen⟩) :
    LookupInv n ⟨l, .answered index (some l.store) (l.store.jobs.lookup jobId), seen⟩ := by
  obtain ⟨held, since⟩ := inv.indexed index jobId rfl
  refine .of_answer inv.exact inv.seenExact (fun _ => inv.now rfl) (.inl rfl) ?_
  have kept (named : ∀ row, l.store.jobs.lookup jobId = some row → row.jobName = n) :
      ¬ RenamedBetween n index (some l.store) := by
    rintro ⟨holder, later, row, holds, ⟨⟩, found, other⟩
    rw [held] at holds
    cases holds
    exact other (named row found)
  cases found : l.store.jobs.lookup jobId with
  | none =>
    refine .inl ⟨?_, kept (by rw [found]; rintro _ ⟨⟩)⟩
    rcases since with still | ⟨s, inside, unused⟩
    · obtain ⟨row, stored, -⟩ := inv.exact.row still
      rw [found] at stored
      cases stored
    · exact ⟨s, inside, getJobByName_of_unused unused⟩
  | some row =>
    by_cases named : row.jobName = n
    · refine .inl ⟨⟨l.store, inv.now rfl, (inv.exact.getJobByName n row).mpr ⟨jobId, found, named⟩⟩, kept ?_⟩
      rw [found]
      rintro _ ⟨⟩
      exact named
    · exact .inr ⟨⟨jobId, l.store, row, held, rfl, found, named⟩, row, rfl, named⟩

theorem LookupInv.step (inv : LookupInv n c) (steps : LookupStep n c c') : LookupInv n c' := by
  cases steps with
  | writer acquires => exact inv.writer acquires
  | call =>
    refine .early inv.exact (fun s inside => ?_) (fun _ => List.mem_singleton_self _) (.inr rfl)
    cases List.mem_singleton.mp inside
    exact inv.exact
  | @named l seen entry held =>
    refine ⟨inv.exact, inv.seenExact, fun _ => inv.now rfl, fun index jobId isIndexed => ?_,
      fun index jobs job isAnswer => ?_⟩
    · cases isIndexed
      have own : entry.1 = n := Table.key_of_lookup held
      subst own
      exact ⟨held, .inl held⟩
    · rcases isAnswer with isAnswer | isAnswer <;> cases isAnswer
  | @unnamed l seen unused =>
    refine .of_answer inv.exact inv.seenExact (fun _ => inv.now rfl) (.inl rfl)
      (.inl ⟨⟨l.store, inv.now rfl, getJobByName_of_unused unused⟩, ?_⟩)
    rintro ⟨_, _, _, -, isNone, -⟩
    cases isNone
  | jobs _ => exact inv.jobs
  | @«return» l seen index jobs job =>
    refine .of_answer inv.exact inv.seenExact (fun running => ?_) (.inr rfl) (inv.answered index jobs job (.inl rfl))
    cases running

theorem LookupInv.run (calls : List (DateTime × StoreCall))
    (run : Relation.ReflTransGen (LookupStep n) ⟨⟨Store.new.called calls, none, []⟩, .idle, []⟩ c) : LookupInv n c := by
  induction run with
  | refl =>
    refine .early (.of_new calls) (fun s inside => ?_) (fun running => ?_) (.inl rfl)
    · cases inside
    · cases running
  | tail _ steps ih => exact ih.step steps

end Run

/-- **Lookups by name are linearizable** against any interleaving of upserts and deletions, from any store there can
be, exactly if the job found in the index has not got another name by the time `jobs` is read. -/
theorem lookup_by_name_atomic_iff (calls : List (DateTime × StoreCall)) {n : String} {c : Lookups} {index : Store}
    {jobs : Option Store} {job : Option Job}
    (run : Relation.ReflTransGen (LookupStep n) ⟨⟨Store.new.called calls, none, []⟩, .idle, []⟩ c)
    (returned : c.lookup = .returned index jobs job) :
    AtomicAnswer n c.seen job ↔ ¬ RenamedBetween n index jobs := by
  have inv := LookupInv.run calls run
  rcases inv.answered index jobs job (.inr returned) with ⟨⟨s, inside, point⟩, kept⟩ | ⟨renamed, row, rfl, other⟩
  · refine ⟨fun _ => kept, fun _ => ⟨⟨s, inside, point⟩, ?_, ?_⟩⟩
    · rintro row rfl
      obtain ⟨_, -, named⟩ := ((inv.seenExact s inside).getJobByName n row).mp point
      exact named
    · rintro rfl
      refine ⟨s, inside, fun id row found named => ?_⟩
      have isFound := ((inv.seenExact s inside).getJobByName n row).mpr ⟨id, found, named⟩
      rw [point] at isFound
      cases isFound
  · exact ⟨fun answer => (other (answer.named row rfl)).elim, fun kept => (kept renamed).elim⟩

/-- A job named `import`, and the same under another name. -/
def importJob : Job := Job.new "j" 0 "import" "noop"

def movedJob : Job := { importJob with jobName := "export" }

/-- The lookup comes to its second lock; `between` is what the writers do before it. -/
theorem exists_lookup (between : LockedStore)
    (writers : Relation.ReflTransGen Acquires ⟨Store.new.called [(0, .upsertJob importJob)], none, []⟩ between)
    (free : between.jobsLock = none) :
    ∃ c, Relation.ReflTransGen (LookupStep "import")
        ⟨⟨Store.new.called [(0, .upsertJob importJob)], none, []⟩, .idle, []⟩ c ∧
      c.lookup = .returned (Store.new.called [(0, .upsertJob importJob)]) (some between.store)
        (between.store.jobs.lookup "j") := by
  have first : Relation.ReflTransGen (LookupStep "import")
      ⟨⟨Store.new.called [(0, .upsertJob importJob)], none, []⟩, .idle, []⟩
      ⟨⟨Store.new.called [(0, .upsertJob importJob)], none, []⟩,
        .indexed (Store.new.called [(0, .upsertJob importJob)]) "j", [Store.new.called [(0, .upsertJob importJob)]]⟩ :=
    .tail (.tail .refl .call) (@LookupStep.named _ _ _ ("import", "j") rfl)
  have second {l : LockedStore}
      (writers : Relation.ReflTransGen Acquires ⟨Store.new.called [(0, .upsertJob importJob)], none, []⟩ l) :
      ∃ seen, Relation.ReflTransGen (LookupStep "import")
        ⟨⟨Store.new.called [(0, .upsertJob importJob)], none, []⟩, .idle, []⟩
        ⟨l, .indexed (Store.new.called [(0, .upsertJob importJob)]) "j", seen⟩ := by
    induction writers with
    | refl => exact ⟨_, first⟩
    | tail _ acquires ih =>
      obtain ⟨seen, run⟩ := ih
      exact ⟨_, run.tail (.writer acquires)⟩
  obtain ⟨seen, run⟩ := second writers
  exact ⟨_, (run.tail (.jobs free)).tail .return, rfl⟩

/-- Nobody writes, and the job found has the name. -/
theorem lookup_by_name_atomic_quiet :
    ∃ c index jobs job, Relation.ReflTransGen (LookupStep "import")
        ⟨⟨Store.new.called [(0, .upsertJob importJob)], none, []⟩, .idle, []⟩ c ∧
      c.lookup = .returned index jobs job ∧ AtomicAnswer "import" c.seen job := by
  obtain ⟨c, run, returned⟩ := exists_lookup _ .refl rfl
  refine ⟨c, _, _, _, run, returned, (lookup_by_name_atomic_iff _ run returned).mpr ?_⟩
  rintro ⟨holder, later, row, held, isLater, found, other⟩
  cases held
  cases isLater
  cases found
  exact other rfl

/-- The job is renamed between the two locks, and the lookup of its old name returns it under the new one. -/
theorem lookup_returns_renamed :
    ∃ c index jobs job, Relation.ReflTransGen (LookupStep "import")
        ⟨⟨Store.new.called [(0, .upsertJob importJob)], none, []⟩, .idle, []⟩ c ∧
      c.lookup = .returned index jobs (some job) ∧ job.jobName = "export" ∧ ¬ AtomicAnswer "import" c.seen (some job) := by
  obtain ⟨c, run, returned⟩ := exists_lookup _ (.tail (.tail .refl (.jobs (.upsert movedJob) rfl)) (.jobsByName rfl)) rfl
  refine ⟨c, _, _, movedJob, run, returned, rfl, fun answer => ?_⟩
  exact absurd (answer.named movedJob rfl) (by decide)

end Chronon
