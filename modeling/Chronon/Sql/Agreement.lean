import Chronon.Sql.Choices

/-!
# The in-memory and the SQL store agree

On claims and leases the two stores may give the same answers and come to the
same rows, from every state that claims reach from unclaimed jobs. On rows that
are missing or already there they differ: SQL refuses a second `create_run` and
accepts an update of a job that is not stored, memory the other way round.
-/

namespace Chronon.Sql
set_option autoImplicit false

open Collections Relational

/-! ## Claims and leases -/

/-- The stores agree on a call, from states with the same rows. -/
structure Agree (c : ClaimCall) (clock : DateTime) (s : Store) (d : Db) : Prop where
  /-- What SQL may do, memory may do. -/
  sql : ∀ r d', c.InSql clock d r d' → ∃ s', c.InMemory clock s r s' ∧ Same s' d'
  /-- What memory may do, SQL may do. -/
  memory : ∀ r s', c.InMemory clock s r s' → ∃ d', c.InSql clock d r d' ∧ Same s' d'
  /-- Whatever the order, the answers are the same up to rows with equal times. -/
  alike : ∀ r d' r' s', c.InSql clock d r d' → c.call.exec clock s = (r', s') → c.Alike s r r'
  /-- So are the rows, unless two different runs were claimed. -/
  rows : ∀ r d' r' s', c.InSql clock d r d' → c.call.exec clock s = (r', s') →
    (∀ poolId workerId now ttl, c = .claimNextQueued poolId workerId now ttl → r = r') → Same s' d'

section Agree

variable {s : Store} {d : Db} {c : ClaimCall} {clock : DateTime}

/-- A call whose outcome both stores determine. -/
theorem Agree.of_eq (out : Result c.call.Ret × Db) (sql : ∀ r d', c.InSql clock d r d' ↔ out = (r, d'))
    (agrees : ∀ s₀, Reordered s s₀ → (c.call.exec clock s₀).1 = out.1 ∧ Same (c.call.exec clock s₀).2 out.2)
    (alike : ∀ r, c.Alike s r r) : Agree c clock s d where
  sql r d' ran := by
    rw [sql] at ran
    subst ran
    obtain ⟨answer, same⟩ := agrees s (.refl s)
    exact ⟨_, ⟨s, .refl s, Prod.ext answer rfl⟩, same⟩
  memory r s' ran := by
    obtain ⟨s₀, other, ran⟩ := ran
    obtain ⟨answer, same⟩ := agrees s₀ other
    rw [ran] at answer same
    exact ⟨out.2, (sql _ _).mpr (Prod.ext answer.symm rfl), same⟩
  alike r d' r' s' ran ranHere := by
    rw [sql] at ran
    subst ran
    obtain ⟨answer, -⟩ := agrees s (.refl s)
    rw [ranHere] at answer
    have isAnswer : r' = r := answer
    subst isAnswer
    exact alike r'
  rows r d' r' s' ran ranHere _ := by
    rw [sql] at ran
    subst ran
    obtain ⟨-, same⟩ := agrees s (.refl s)
    rwa [ranHere] at same

theorem agree_findDue (same : Same s d) (clock : DateTime) (owned : List Nat) (dueUntil : DateTime) (limit : Nat) :
    Agree (.findDueJobIdsInPartitions owned dueUntil limit) clock s d where
  sql := by
    rintro r d' ⟨ran, rfl⟩
    obtain ⟨s₀, other, answer⟩ := (findDue_agrees same clock owned dueUntil limit r).mp ran
    exact ⟨s₀, ⟨s₀, other, Prod.ext answer rfl⟩, same.reordered other⟩
  memory := by
    rintro r s' ⟨s', other, ran⟩
    cases ran
    exact ⟨d, ⟨(findDue_agrees same clock owned dueUntil limit _).mpr ⟨s', other, rfl⟩, rfl⟩, same.reordered other⟩
  alike := by
    rintro r d' r' s' ⟨ran, rfl⟩ ranHere
    cases ranHere
    rw [findDue_sql_iff] at ran
    simp only [ClaimCall.Alike, findDue_eq]
    split at ran
    · rename_i nothing
      rw [ran, if_pos nothing]
    · rename_i some_
      rw [if_neg some_]
      obtain ⟨rows, permuted, ordered, rfl⟩ := ran
      have dues := map_filter_perm (isDue_unstamped clock owned dueUntil) same.jobRows
      obtain ⟨out, isPerm, isOrdered, ids, -⟩ := exists_in_order dues.symm (fun _ => ⟨rfl, rfl⟩) permuted ordered
      have here := dueRows_perm s clock owned dueUntil
      have due : ∀ j, j ∈ s.jobs.rows.filter (Store.isDue clock owned dueUntil) → j.nextRunAt.isSome = true := by
        intro j inside
        obtain ⟨t, next, -⟩ := fireTime_of_isDue (List.mem_filter.mp inside).2
        rw [next]
        rfl
      have times := fireTimes_unique (a := out) (b := dueRows s clock owned dueUntil)
        (fun j inside => (List.mem_append.mp inside).elim (fun l => due j (isPerm.mem_iff.mp l))
          fun r => due j (here.mem_iff.mp r)) isOrdered (dueRows_ordered s clock owned dueUntil)
        ((isPerm.trans here.symm).map _)
      have stored : ∀ rows : List Job, (∀ j ∈ rows, j ∈ s.jobs.rows) →
          (rows.map (·.jobId)).map (fun id => (s.jobs.lookup id).bind (·.nextRunAt)) = rows.map (·.nextRunAt) := by
        intro rows inside
        rw [List.map_map]
        refine List.map_congr_left fun j member => ?_
        simp only [Function.comp_apply, Table.lookup_of_mem (inside j member), Option.bind_some]
      have insideOut : ∀ j ∈ out, j ∈ s.jobs.rows := fun j inside => (List.mem_filter.mp (isPerm.mem_iff.mp inside)).1
      have insideHere : ∀ j ∈ dueRows s clock owned dueUntil, j ∈ s.jobs.rows :=
        fun j inside => (List.mem_filter.mp (here.mem_iff.mp inside)).1
      simp only [Except.map]
      rw [List.map_take, ← ids, ← List.map_take, stored _ fun j inside => insideOut j (List.mem_of_mem_take inside),
        stored _ fun j inside => insideHere j (List.mem_of_mem_take inside), List.map_take, List.map_take, times]
  rows := by
    rintro r d' r' s' ⟨-, rfl⟩ ranHere -
    cases ranHere
    exact same

theorem agree_claimNextQueued (same : Same s d) (clock : DateTime) (poolId workerId : String) (now : DateTime) (ttl : Int) :
    Agree (.claimNextQueued poolId workerId now ttl) clock s d := by
  have nothingIff : ∀ {s₀ : Store}, Reordered s s₀ → ((∀ run ∈ s₀.runs.rows, Store.claimable poolId now run = false) ↔
      ∀ run ∈ d.runs.rows, Store.claimable poolId now run = false) := by
    intro s₀ other
    have rows := (same.reordered other).runRows
    exact ⟨fun all run inside => all run (rows.mem_iff.mpr inside), fun all run inside => all run (rows.mem_iff.mp inside)⟩
  refine ⟨?_, ?_, ?_, ?_⟩
  · intro r d' ran
    rcases claimNextQueued_sql_iff.mp ran with ⟨nothing, rfl, rfl⟩ | ⟨run, earliest, rfl, rfl⟩
    · have empty := foldl_earlier_none poolId now s.runs.rows
      refine ⟨s, ⟨s, .refl s, ?_⟩, same⟩
      cases ranHere : s.claimNextQueued poolId workerId now ttl with
      | mk r s' =>
        rcases claimNextQueued_memory ranHere with ⟨-, rfl, rfl⟩ | ⟨run, picked, -⟩
        · exact ranHere
        · have taken := (nothingIff (.refl s)).mpr nothing run picked.inside
          rw [picked.free] at taken
          cases taken
    · have here := earliest.perm same.runRows.symm
      obtain ⟨s₀, other, picked⟩ := exists_picked here workerId ttl
      refine ⟨_, ⟨s₀, other, picked⟩, (same.reordered other).claimed ?_ workerId now ttl⟩
      exact ((same.reordered other).runRows).mem_iff.mpr earliest.inside
  · rintro r s' ⟨s₀, other, ran⟩
    have same₀ := same.reordered other
    rcases claimNextQueued_memory ran with ⟨nothing, rfl, rfl⟩ | ⟨run, earliest, rfl, rfl⟩
    · exact ⟨d, claimNextQueued_sql_iff.mpr (.inl ⟨(nothingIff other).mp nothing, rfl, rfl⟩), same₀⟩
    · exact ⟨_, claimNextQueued_sql_iff.mpr (.inr ⟨run, earliest.perm same₀.runRows, rfl, rfl⟩),
        same₀.claimed earliest.inside workerId now ttl⟩
  · intro r d' r' s' ran ranHere
    rcases claimNextQueued_sql_iff.mp ran with ⟨nothing, rfl, rfl⟩ | ⟨run, earliest, rfl, rfl⟩
    · rcases claimNextQueued_memory ranHere with ⟨-, rfl, rfl⟩ | ⟨run, picked, -⟩
      · rfl
      · have taken := (nothingIff (.refl s)).mpr nothing run picked.inside
        rw [picked.free] at taken
        cases taken
    · rcases claimNextQueued_memory ranHere with ⟨nothing, -, -⟩ | ⟨run', picked, rfl, rfl⟩
      · have taken := (nothingIff (.refl s)).mp nothing run earliest.inside
        rw [earliest.free] at taken
        cases taken
      · have here := earliest.perm same.runRows.symm
        have times : run.scheduledFor = run'.scheduledFor :=
          le_antisymm (here.first run' picked.inside picked.free) (picked.first run here.inside here.free)
        simp only [ClaimCall.Alike, Except.map, Option.map_some, Store.claimedRun, times]
  · intro r d' r' s' ran ranHere chosen
    have isAnswer := chosen poolId workerId now ttl rfl
    subst isAnswer
    rcases claimNextQueued_sql_iff.mp ran with ⟨-, rfl, rfl⟩ | ⟨run, earliest, rfl, rfl⟩
    · rcases claimNextQueued_memory ranHere with ⟨-, -, rfl⟩ | ⟨run, -, isSome, -⟩
      · exact same
      · cases isSome
    · rcases claimNextQueued_memory ranHere with ⟨-, isNone, -⟩ | ⟨run', picked, isRun, rfl⟩
      · cases isNone
      · have here := earliest.perm same.runRows.symm
        have claimed := congrArg Run.runId (Option.some.inj (Except.ok.inj isRun))
        have ids : run.runId = run'.runId := claimed
        have both : run = run' := Option.some.inj
          ((Table.lookup_of_mem here.inside).symm.trans (by rw [ids]; exact Table.lookup_of_mem picked.inside))
        subst both
        exact same.claimed picked.inside workerId now ttl

theorem agree_reclaim (same : Same s d) (clock now : DateTime) : Agree (.reclaimExpiredRunLeases now) clock s d := by
  refine ⟨?_, ?_, ?_, ?_⟩
  · rintro r d' ⟨⟨rows, permuted, rfl⟩, rfl⟩
    rw [selected_leaseExpired] at permuted
    obtain ⟨s₀, other, answer⟩ := exists_reclaimed (permuted.trans (same.runRows.symm.filter _))
    exact ⟨_, ⟨s₀, other, Prod.ext answer rfl⟩, reclaim_rows (same.reordered other) now⟩
  · rintro r s' ⟨s₀, other, ran⟩
    cases ran
    refine ⟨_, ⟨⟨s₀.runs.rows.filter (Store.leaseExpired now), ?_, rfl⟩, rfl⟩, reclaim_rows (same.reordered other) now⟩
    rw [selected_leaseExpired]
    exact (same.reordered other).runRows.filter _
  · rintro r d' r' s' ⟨⟨rows, permuted, rfl⟩, -⟩ ranHere
    cases ranHere
    rw [selected_leaseExpired] at permuted
    exact congrArg Except.ok (List.toFinset_eq_of_perm _ _ ((permuted.trans (same.runRows.symm.filter _)).map _))
  · rintro r d' r' s' ⟨-, rfl⟩ ranHere -
    cases ranHere
    exact reclaim_rows same now

/-- **Claims and leases**, call by call. -/
theorem agree_of_same (same : Same s d) (ends : Ends s) (clock : DateTime) (c : ClaimCall) : Agree c clock s d := by
  cases c with
  | findDueJobIdsInPartitions owned dueUntil limit => exact agree_findDue same clock owned dueUntil limit
  | minNextRunAtInPartitions owned =>
    refine .of_eq (d.minNextRunAtInPartitions owned, d) (fun r d' => ?_) (fun s₀ other => ?_) fun _ => rfl
    · rw [Prod.mk.injEq, eq_comm (a := d)]
      rfl
    · exact ⟨minNextRunAt_agrees (same.reordered other) owned, same.reordered other⟩
  | claimJobForTick jobId claimId now ttl =>
    exact .of_eq (d.claimJobForTick jobId claimId now ttl) (fun _ _ => Iff.rfl)
      (fun s₀ other => claimJobForTick_agrees (same.reordered other) jobId claimId now ttl) fun _ => rfl
  | tryClaimRunOnce jobId claimedBy now ttl =>
    exact .of_eq (d.tryClaimRunOnce jobId claimedBy now ttl) (fun _ _ => Iff.rfl)
      (fun s₀ other => tryClaimRunOnce_agrees (same.reordered other) (ends.reordered other) jobId claimedBy now ttl)
      fun _ => rfl
  | claimRunById runId poolId workerId now ttl =>
    exact .of_eq (d.claimRunById runId poolId workerId now ttl) (fun _ _ => Iff.rfl)
      (fun s₀ other => claimRunById_agrees (same.reordered other) runId poolId workerId now ttl) fun _ => rfl
  | claimNextQueued poolId workerId now ttl => exact agree_claimNextQueued same clock poolId workerId now ttl
  | renewRunLease runId workerId now ttl =>
    exact .of_eq (d.renewRunLease runId workerId now ttl) (fun _ _ => Iff.rfl)
      (fun s₀ other => renewRunLease_agrees (same.reordered other) runId workerId now ttl) fun _ => rfl
  | reclaimExpiredRunLeases now => exact agree_reclaim same clock now
  | tryAcquireLeader instanceId ttl =>
    exact .of_eq (d.tryAcquireLeader clock instanceId ttl) (fun _ _ => Iff.rfl)
      (fun s₀ other => tryAcquireLeader_agrees (same.reordered other) clock instanceId ttl) fun _ => rfl
  | renewLeaderLease instanceId ttl =>
    exact .of_eq (d.renewLeaderLease clock instanceId ttl) (fun _ _ => Iff.rfl)
      (fun s₀ other => renewLeaderLease_agrees (same.reordered other) clock instanceId ttl) fun _ => rfl

end Agree

theorem upsert_of_put {c : StoreCall} {r : Result c.Ret} {id : String} {job : Job}
    (put : c.jobWrite r = some (id, .put job)) : c = .upsertJob job := by
  unfold StoreCall.jobWrite at put
  split at put <;> cases put
  rfl

/-- No claim operation puts a whole row. -/
theorem ClaimCall.noPut (c : ClaimCall) (r : Result c.call.Ret) (id : String) (job : Job) :
    c.call.writesTo r id ≠ some (.put job) := by
  intro put
  simp only [StoreCall.writesTo] at put
  split at put
  · rename_i target write isWrite
    split at put
    · cases put
      have isUpsert := upsert_of_put isWrite
      cases c <;> cases isUpsert
    · cases put
  · cases put

/-- A change of a row, other than putting a new one, leaves a claim with an end. -/
theorem ends_onRow {write : JobWrite} {row : Job} (allowed : write.Allowed row) (stamp : DateTime)
    (ends : row.runOnceClaimedAt.isSome = true → row.runOnceClaimExpiresAt.isSome = true) :
    (write.onRow stamp row).runOnceClaimedAt.isSome = true → (write.onRow stamp row).runOnceClaimExpiresAt.isSome = true := by
  cases write with
  | put job => exact allowed.elim
  | releaseOnce claimedBy =>
    simp only [JobWrite.onRow]
    split
    · intro claimed
      cases claimed
    · exact ends
  | claimOnce claimedBy now ttl => exact fun _ => rfl
  | complete completedAt =>
    intro claimed
    cases claimed
  | _ => exact ends

/-- From jobs upserted without claim fields, every claim that is taken has an end. -/
theorem Reachable.ends {s : Store} (reachable : Reachable s) : Ends s := by
  induction reachable with
  | start unclaimed =>
    intro id job found claimed
    rw [(unclaimed job (Table.mem_of_lookup found)).runOnceClaimedAt] at claimed
    cases claimed
  | upsert _ unclaimed ran ih =>
    rcases Store.writeJob_cases ran with ⟨-, rfl⟩ | ⟨-, -, rows⟩
    · exact ih
    · intro id row found claimed
      rw [rows id] at found
      split at found
      · cases found
        rw [unclaimed.runOnceClaimedAt] at claimed
        cases claimed
      · exact ih id row found claimed
  | @call s s' c clock r _ ran ih =>
    obtain ⟨s₀, other, ran⟩ := ran
    intro id row found
    have step := StoreCall.lookup_job_exec ran id
    have noPut := c.noPut r id
    rw [found] at step
    generalize c.call.writesTo r id = write at step noPut
    generalize before : s₀.jobs.lookup id = old at step
    cases step with
    | same => exact ih.reordered other id row before
    | put _ => exact absurd rfl (noPut row)
    | write stamp allowed => exact ends_onRow allowed stamp (ih.reordered other id _ before)

/-- **The stores agree on claims and leases.** From states with the same rows that the claim operations
reach from jobs upserted without claim fields, every operation with every argument and clock reading may give
the same answers and come to the same rows in both stores. -/
theorem stores_agree_on_claims {s : Store} {d : Db} (reachable : Reachable s) (same : Same s d) (clock : DateTime)
    (c : ClaimCall) : Agree c clock s d := agree_of_same same reachable.ends clock c

/-- A due run-once job in both stores. -/
def onceStore : Store := { Store.new with jobs := Table.empty.insert dueOnce }
where dueOnce : Job :=
  { Job.new "j" 0 "import" "noop" with scheduleKind := .runOnce, partitionHash := some 0, nextRunAt := some (seconds 60) }

def onceDb : Db :=
  { Db.empty with
    jobs := Table.empty.insert onceStore.dueOnce
    names := List.nodup_singleton _ }

theorem onceStore_same : Same onceStore onceDb := ⟨fun _ => rfl, fun _ => rfl, rfl⟩

theorem onceStore_reachable : Reachable onceStore := by
  refine .start fun job inside => ?_
  obtain rfl : job = onceStore.dueOnce := List.mem_singleton.mp inside
  exact ⟨rfl, rfl, rfl, rfl, rfl⟩

/-- Both claim the job, at the instant it is due and for the same instance. -/
theorem stores_agree_on_claims_once :
    Agree (.tryClaimRunOnce "j" "inst" (seconds 60) 5) (seconds 60) onceStore onceDb ∧
      (onceDb.tryClaimRunOnce "j" "inst" (seconds 60) 5).1 = .ok true :=
  ⟨stores_agree_on_claims onceStore_reachable onceStore_same (seconds 60) _, by decide +kernel⟩

/-! ## Missing and duplicate rows -/

/-- The operations that may find their row missing, or already there. -/
inductive RowCall where
  | createRun (run : Run)
  | markRunOnceCompleted (jobId : String) (completedAt : DateTime)
  | releaseRunOnceClaim (jobId claimedBy : String) (now : DateTime)
  | releaseJobTickClaim (jobId : String)
  | persistPostTickJobState (jobId : String) (nextRunAt : Option DateTime)
  | pauseJob (jobId : String)
  | resumeJob (jobId : String)
  | updateRun (run : Run)
  | deleteJob (jobId : String)

namespace RowCall

/-- The method of `SchedulerStore`. -/
@[reducible] def call : RowCall → StoreCall
  | .createRun run => .createRun run
  | .markRunOnceCompleted jobId completedAt => .markRunOnceCompleted jobId completedAt
  | .releaseRunOnceClaim jobId claimedBy now => .releaseRunOnceClaim jobId claimedBy now
  | .releaseJobTickClaim jobId => .releaseJobTickClaim jobId
  | .persistPostTickJobState jobId nextRunAt => .persistPostTickJobState jobId nextRunAt
  | .pauseJob jobId => .pauseJob jobId
  | .resumeJob jobId => .resumeJob jobId
  | .updateRun run => .updateRun run
  | .deleteJob jobId => .deleteJob jobId

/-- What it does in SQL. -/
def inSql (clock : DateTime) (d : Db) : (c : RowCall) → Result c.call.Ret × Db
  | .createRun run => d.createRun run
  | .markRunOnceCompleted jobId completedAt => d.markRunOnceCompleted jobId completedAt
  | .releaseRunOnceClaim jobId claimedBy now => d.releaseRunOnceClaim jobId claimedBy now
  | .releaseJobTickClaim jobId => d.releaseJobTickClaim clock jobId
  | .persistPostTickJobState jobId nextRunAt => d.persistPostTickJobState clock jobId nextRunAt
  | .pauseJob jobId => d.pauseJob clock jobId
  | .resumeJob jobId => d.resumeJob clock jobId
  | .updateRun run => d.updateRun run
  | .deleteJob jobId => d.deleteJob jobId

/-- The row is not as the operation expects it: there already for `create_run`, missing for the others. -/
def Unexpected (s : Store) : RowCall → Prop
  | .createRun run => s.runs.lookup run.runId ≠ none
  | .updateRun run => s.runs.lookup run.runId = none
  | .markRunOnceCompleted jobId _ | .releaseRunOnceClaim jobId _ _ | .releaseJobTickClaim jobId
  | .persistPostTickJobState jobId _ | .pauseJob jobId | .resumeJob jobId | .deleteJob jobId => s.jobs.lookup jobId = none

/-- `create_run` fails in both stores, the others give the same answer. -/
def SameAnswer : (c : RowCall) → Result c.call.Ret → Result c.call.Ret → Prop
  | .createRun _, inMemory, inSql => (∃ e, inMemory = .error e) ∧ ∃ e, inSql = .error e
  | _, inMemory, inSql => inMemory = inSql

/-- The stores agree on a call that finds its row not as it expects it, and nothing changes. -/
def AgreesOnRow (clock : DateTime) (s : Store) (d : Db) (c : RowCall) : Prop :=
  c.Unexpected s → c.SameAnswer (c.call.exec clock s).1 (c.inSql clock d).1 ∧
    (c.call.exec clock s).2 = s ∧ (c.inSql clock d).2 = d

/-- The operations that look whether their row is there in both stores. -/
def looksInBoth : RowCall → Bool
  | .pauseJob _ | .resumeJob _ | .updateRun _ | .deleteJob _ => true
  | _ => false

end RowCall

section Missing

variable {s : Store} {d : Db}

theorem Same.missingJob (same : Same s d) {id : String} (missing : s.jobs.lookup id = none) : d.jobs.lookup id = none := by
  have both := same.jobs id
  rw [missing, Option.map_none, eq_comm, Option.map_eq_none_iff] at both
  exact both

/-- An update of a job that is not stored changes nothing. -/
theorem updateJobs_missing {id : String} (missing : d.jobs.lookup id = none) {set : Job → Job}
    (keeps : ∀ j, (set j).jobId = j.jobId ∧ (set j).jobName = j.jobName) : d.updateJobs (Db.jobIs id) set keeps = d := by
  have same : ∀ j ∈ d.jobs.rows, onRow (Db.jobIs id) set j = j := by
    intro j inside
    have other := Table.lookup_eq_none.mp missing j inside
    simp [onRow, other]
  have jobs : update d.jobs (Db.jobIs id) set (fun j => (keeps j).1) = d.jobs := Table.mapRows_eq_self _ same
  simp only [Db.updateJobs, jobs]

theorem updateRuns_missing {id : String} (missing : d.runs.lookup id = none) {set : Run → Run}
    (keeps : ∀ r, (set r).runId = r.runId) : d.updateRuns (Db.runIs id) set keeps = d := by
  have same : ∀ r ∈ d.runs.rows, onRow (Db.runIs id) set r = r := by
    intro r inside
    have other := Table.lookup_eq_none.mp missing r inside
    simp [onRow, other]
  have runs : update d.runs (Db.runIs id) set keeps = d.runs := Table.mapRows_eq_self _ same
  simp only [Db.updateRuns, runs]

theorem setEnabled_missing {clock : DateTime} {id : String} (missing : d.jobs.lookup id = none) (enabled : Bool) :
    d.setEnabled clock id enabled = (.error (.jobNotFound id), d) := by
  simp only [Db.setEnabled, updateJobs_missing missing, missing]

theorem mutateJob_missing {clock : DateTime} {id : String} (missing : s.jobs.lookup id = none) (f : Job → Job) :
    s.mutateJobAt id clock f = (.error (.jobNotFound id), s) := by
  simp only [Store.mutateJobAt, missing]

theorem failed_ne_ok {out : Result Unit × Store} {e : ChrononError} (failed : out = (.error e, s)) : ¬ out.1 = .ok () := by
  rw [failed]
  rintro ⟨⟩

/-- An operation that finds its row not as it expects it, and answers differently. -/
theorem not_agrees_of_missing {c : RowCall} {clock : DateTime} (missing : c.Unexpected s)
    (differ : ¬ c.SameAnswer (c.call.exec clock s).1 (c.inSql clock d).1) (blind : c.looksInBoth = false) :
    c.AgreesOnRow clock s d ↔ (c.Unexpected s → c.looksInBoth = true) := by
  constructor
  · exact fun agrees => absurd (agrees missing).1 differ
  · intro looks
    rw [looks missing] at blind
    cases blind

/-- Two failures with the same error. -/
theorem agree_missing {out : Result Unit × Store} {out' : Result Unit × Db} {e : ChrononError} (inMemory : out = (.error e, s))
    (inSql : out' = (.error e, d)) : out.1 = out'.1 ∧ out.2 = s ∧ out'.2 = d := by
  rw [inMemory, inSql]
  exact ⟨rfl, rfl, rfl⟩

end Missing

/-- **Missing and duplicate rows.** The stores agree exactly on the operations that look for the row in both:
`create_run` of a stored run and the four job updates that only one side checks are where they differ. -/
theorem stores_agree_on_rows_iff {s : Store} {d : Db} (same : Same s d) (clock : DateTime) (c : RowCall) :
    c.AgreesOnRow clock s d ↔ (c.Unexpected s → c.looksInBoth = true) := by
  by_cases unexpected : c.Unexpected s
  · cases c with
    | createRun run =>
      refine not_agrees_of_missing unexpected ?_ rfl
      rintro ⟨⟨e, failed⟩, -⟩
      cases failed
    | markRunOnceCompleted jobId completedAt =>
      exact not_agrees_of_missing unexpected (failed_ne_ok (mutateJob_missing unexpected _)) rfl
    | releaseRunOnceClaim jobId claimedBy now =>
      exact not_agrees_of_missing unexpected (failed_ne_ok (mutateJob_missing unexpected _)) rfl
    | releaseJobTickClaim jobId =>
      exact not_agrees_of_missing unexpected (failed_ne_ok (mutateJob_missing unexpected _)) rfl
    | persistPostTickJobState jobId nextRunAt =>
      exact not_agrees_of_missing unexpected (failed_ne_ok (mutateJob_missing unexpected _)) rfl
    | pauseJob jobId =>
      refine iff_of_true (fun _ => ?_) fun _ => rfl
      exact agree_missing (mutateJob_missing unexpected _) (setEnabled_missing (same.missingJob unexpected) false)
    | resumeJob jobId =>
      refine iff_of_true (fun _ => ?_) fun _ => rfl
      exact agree_missing (mutateJob_missing unexpected _) (setEnabled_missing (same.missingJob unexpected) true)
    | updateRun run =>
      have missing : s.runs.lookup run.runId = none := unexpected
      have missing' : d.runs.lookup run.runId = none := (same.runs run.runId).symm.trans missing
      refine iff_of_true (fun _ => ?_) fun _ => rfl
      refine agree_missing (e := .runNotFound run.runId) ?_ ?_
      · simp only [StoreCall.exec, Store.updateRun, missing]
      · simp only [RowCall.inSql, Db.updateRun, updateRuns_missing missing', missing']
    | deleteJob jobId =>
      have missing : s.jobs.lookup jobId = none := unexpected
      have missing' := same.missingJob missing
      refine iff_of_true (fun _ => ?_) fun _ => rfl
      have inMemory : s.deleteJob jobId = (.ok false, s) := by simp only [Store.deleteJob, Store.removeJob, missing]
      have inSql : d.deleteJob jobId = (.ok false, d) := by simp only [Db.deleteJob, missing']
      exact ⟨(congrArg Prod.fst inMemory).trans (congrArg Prod.fst inSql).symm, congrArg Prod.snd inMemory,
        congrArg Prod.snd inSql⟩
  · exact iff_of_true (fun missing => absurd missing unexpected) fun missing => absurd missing unexpected

theorem onceStore_other : onceStore.jobs.lookup "other" = none := by decide +kernel

/-- Pausing a job that is not stored fails in both. -/
theorem stores_agree_on_rows_iff_pause :
    (RowCall.pauseJob "other").AgreesOnRow 0 onceStore onceDb ∧ (RowCall.pauseJob "other").Unexpected onceStore :=
  ⟨(stores_agree_on_rows_iff onceStore_same 0 (.pauseJob "other")).mpr fun _ => rfl, onceStore_other⟩

/-- Completing a job that is not stored succeeds in SQL and fails in memory, and a second `create_run` under one
identifier replaces the row in memory. -/
theorem stores_differ_on_rows :
    ¬ (RowCall.markRunOnceCompleted "other" 0).AgreesOnRow 0 onceStore onceDb ∧
      ¬ (RowCall.createRun (Run.new "r" "noop" 60)).AgreesOnRow 0
        (onceStore.setRun (Run.new "r" "noop" 0)) { onceDb with runs := Table.empty.insert (Run.new "r" "noop" 0) } := by
  refine ⟨fun agrees => ?_, fun agrees => ?_⟩
  · have fails : onceStore.markRunOnceCompleted 0 "other" 0 = (.error (.jobNotFound "other"), onceStore) := rfl
    exact failed_ne_ok fails (agrees onceStore_other).1
  · have stored : (onceStore.setRun (Run.new "r" "noop" 0)).runs.lookup "r" ≠ none := by decide +kernel
    obtain ⟨⟨⟨e, failed⟩, -⟩, -⟩ := agrees stored
    cases failed

end Chronon.Sql
