import Chronon.System.Among
import Chronon.Runs.Events

/-!
# The attempts of a failing job

A chain of attempts: each is claimed, fails, and `finalize_failed_run` is called
once, while others work on the same store. They may change everything but what a
run hands on to its retry. The chain goes on as long as a call creates a retry.

A call creates none when the policy is exhausted, when the redaction of its
error text panics, or when the time of the retry cannot be represented.
`allowed_attempts_iff` says that a chain whose retries can be dated has all its
attempts, and its calls insert no other run, exactly when no text but the last
one panics.
-/

namespace Chronon
set_option autoImplicit false

open Concurrent Collections

/-- What a run hands on to its retry. -/
structure Lineage where
  jobId : Option String
  scriptName : String
  actorJson : Json
  paramsJson : Json
  poolId : Option String
  placementJson : Option Json
  parentRunId : Option String
  rootRunId : Option String

def Run.lineage (run : Run) : Lineage where
  jobId := run.jobId
  scriptName := run.scriptName
  actorJson := run.actorJson
  paramsJson := run.paramsJson
  poolId := run.poolId
  placementJson := run.placementJson
  parentRunId := run.parentRunId
  rootRunId := run.rootRunId

/-- Both are the same attempt of a chain. -/
structure Run.SameAttempt (run run' : Run) : Prop where
  runId : run'.runId = run.runId
  attempt : run'.attempt = run.attempt
  lineage : run'.lineage = run.lineage

/-- What others do: time passes, and stored runs stay the same attempts. -/
structure OthersWork (s s' : State) : Prop where
  forward : s.clock ≤ s'.clock
  kept : ∀ id run, s.store.runs.lookup id = some run → ∃ run', s'.store.runs.lookup id = some run' ∧ run.SameAttempt run'

/-- A claim operation answers with this run. -/
inductive Claims (runId : String) (s : State) (claimed : Run) (s' : State) : Prop
  | nextQueued (poolId workerId : String) (now : DateTime) (ttl : Int) :
      s.store.claimNextQueued poolId workerId now ttl = (.ok (some claimed), s'.store) → claimed.runId = runId →
      s'.clock = s.clock → Claims runId s claimed s'
  | byId (poolId workerId : String) (now : DateTime) (ttl : Int) :
      s.store.claimRunById runId poolId workerId now ttl = (.ok (some claimed), s'.store) → s'.clock = s.clock →
      Claims runId s claimed s'

/-- A call of `finalize_failed_run` with this copy of a run. -/
structure Attempt where
  copy : Run
  error : String
  before : World
  after : World

/-- A run that the call has inserted. -/
def insertedRun (e : LogEntry) : Option Run :=
  match e with
  | ⟨_, _, .store (.createRun run), .ok ()⟩ => some run
  | _ => none

/-- A terminal row that the call has stored. -/
def storedFailure (e : LogEntry) : Option Run :=
  match e with
  | ⟨_, _, .store (.updateRun run), .ok ()⟩ => some run
  | _ => none

namespace Attempt

/-- The failed row. -/
def failure (a : Attempt) : Option Run := ((a.before.entriesSince a.after).filterMap storedFailure).head?

/-- The runs that the call has inserted. -/
def inserted (a : Attempt) : List Run := (a.before.entriesSince a.after).filterMap insertedRun

/-- The times that the call has read, the last of them for the retry. -/
def readings (a : Attempt) : List DateTime := (a.before.entriesSince a.after).filterMap clockReading

/-- The time of the retry, if there may be one, can be represented. -/
def Dated (p : RetryPolicy) (a : Attempt) : Prop :=
  p.shouldRetry a.copy.attempt = true → ∀ now, a.readings.getLast? = some now →
    (retryTime p a.copy.attempt now).isSome = true

end Attempt

/-- The run is claimed, fails or times out, and is finalized once. -/
structure Tries (p : RetryPolicy) (runId : String) (s : State) (a : Attempt) (s' : State) : Prop where
  claimed : ∃ s₁ claimed s₂, OthersWork s s₁ ∧ Claims runId s₁ claimed s₂ ∧ claimed.SameAttempt a.copy ∧
    OthersWork s₂ a.before.state
  finalized : ∃ job status logs out, job.retryPolicy = p ∧ (status = .failed ∨ status = .timeout) ∧
    Among OthersWork .calm (finalizeFailedRun a.copy job status a.error logs) a.before out a.after
  later : OthersWork a.after.state s'

/-- The attempts of a chain, from the run `runId` to one whose call inserts no run. -/
inductive Attempts (p : RetryPolicy) : String → State → List Attempt → State → Prop
  | last {runId : String} {s s' : State} {a : Attempt} :
      Tries p runId s a s' → a.inserted = [] → Attempts p runId s [a] s'
  | retry {runId : String} {s s₁ s' : State} {a : Attempt} {next : Run} {rest : List Attempt} :
      Tries p runId s a s₁ → next ∈ a.inserted → Attempts p next.runId s₁ rest s' →
      Attempts p runId s (a :: rest) s'

/-- The retry of a failed attempt: queued, with the next number, not before the failure. -/
structure Retries (copy failed next : Run) : Prop where
  queued : next.status = .queued
  unleased : next.claimLeaseUntil = none
  attempt : next.attempt = copy.attempt + 1
  lineage : next.lineage = copy.lineage
  later : ∃ moment, failed.finishedAt = some moment ∧ moment ≤ next.scheduledFor

/-- `b` is the attempt that the failure of `a` has led to, and the only one. -/
def Attempt.FollowedBy (a b : Attempt) : Prop :=
  ∃ failed next, a.failure = some failed ∧ a.inserted = [next] ∧ Retries a.copy failed next ∧ next.SameAttempt b.copy

/-- What holds of the attempts of a chain, the first of which has number `k`. -/
structure Chained (first : Run) (k : Nat) (s : State) (attempts : List Attempt) (s' : State) : Prop where
  numbers : attempts.map (·.copy.attempt) = (List.range attempts.length).map fun i : Nat => ((k + i : Nat) : Int)
  starts : ∃ a rest, attempts = a :: rest ∧ first.SameAttempt a.copy
  fresh : ∀ b ∈ attempts.tail, s.store.runs.lookup b.copy.runId = none
  distinct : (attempts.map (·.copy.runId)).Nodup
  stored : ∀ a ∈ attempts, ∃ row, s'.store.runs.lookup a.copy.runId = some row ∧ a.copy.SameAttempt row
  inherited : ∀ a ∈ attempts, a.copy.lineage = first.lineage
  followed : attempts.IsChain Attempt.FollowedBy
  inserted : (attempts.flatMap (·.inserted)).map (·.runId) = attempts.tail.map (·.copy.runId)

/-- The job gets exactly the attempts that the policy allows. -/
structure AllowedAttempts (p : RetryPolicy) (first : Run) (attempts : List Attempt) (s' : State) : Prop where
  count : attempts.length = p.maxAttempts + 1
  numbers : attempts.map (·.copy.attempt) = (List.range (p.maxAttempts + 1)).map fun i : Nat => (i : Int) + 1
  bounded : ∀ a ∈ attempts, a.copy.attempt + 1 ≤ 2147483647
  distinct : (attempts.map (·.copy.runId)).Nodup
  stored : ∀ a ∈ attempts, ∃ row, s'.store.runs.lookup a.copy.runId = some row ∧ a.copy.SameAttempt row
  inherited : ∀ a ∈ attempts, a.copy.lineage = first.lineage
  followed : attempts.IsChain Attempt.FollowedBy
  /-- All calls together have inserted the later attempts and nothing else. -/
  inserted : (attempts.flatMap (·.inserted)).map (·.runId) = attempts.tail.map (·.copy.runId)

/-! ## What others leave alone -/

section Others

variable {s s' s'' : State} {run run' run'' claimed : Run} {runId id : String}

theorem Run.SameAttempt.refl (run : Run) : run.SameAttempt run := ⟨rfl, rfl, rfl⟩

theorem Run.SameAttempt.trans (first : run.SameAttempt run') (then_ : run'.SameAttempt run'') : run.SameAttempt run'' :=
  ⟨then_.runId.trans first.runId, then_.attempt.trans first.attempt, then_.lineage.trans first.lineage⟩

theorem Run.SameAttempt.symm (same : run.SameAttempt run') : run'.SameAttempt run :=
  ⟨same.runId.symm, same.attempt.symm, same.lineage.symm⟩

theorem OthersWork.refl (s : State) : OthersWork s s := ⟨le_refl _, fun _ run stored => ⟨run, stored, .refl run⟩⟩

theorem OthersWork.trans (first : OthersWork s s') (then_ : OthersWork s' s'') : OthersWork s s'' := by
  refine ⟨le_trans first.forward then_.forward, fun id run stored => ?_⟩
  obtain ⟨run', stored', same⟩ := first.kept id run stored
  obtain ⟨run'', stored'', same'⟩ := then_.kept id run' stored'
  exact ⟨run'', stored'', same.trans same'⟩

/-- A run that is not there was not there before. -/
theorem OthersWork.absent (work : OthersWork s s') (absent : s'.store.runs.lookup id = none) :
    s.store.runs.lookup id = none := by
  cases stored : s.store.runs.lookup id with
  | none => rfl
  | some run =>
    obtain ⟨run', stored', -⟩ := work.kept id run stored
    rw [absent] at stored'
    cases stored'

/-- Every store call works so, if it creates runs under new identifiers and updates them as the same attempts. -/
theorem OthersWork.of_exec {c : StoreCall} {r : Result c.Ret} (time : s.clock ≤ s'.clock)
    (ran : c.exec s.clock s.store = (r, s'.store))
    (creates : ∀ run, c = .createRun run → s.store.runs.lookup run.runId = none)
    (updates : ∀ run old, c = .updateRun run → s.store.runs.lookup run.runId = some old → old.SameAttempt run) :
    OthersWork s s' := by
  refine ⟨time, fun id old stored => ?_⟩
  have step := StoreCall.lookup_run_exec ran id
  rw [stored] at step
  generalize isWrite : c.runWrite r id = write at step
  generalize s'.store.runs.lookup id = row' at step ⊢
  cases step with
  | same => exact ⟨old, rfl, .refl old⟩
  | @create _ run isRun =>
    refine absurd stored ?_
    have isCreate : c = .createRun run := by
      unfold StoreCall.runWrite at isWrite
      split at isWrite <;> (try split at isWrite) <;> cases isWrite
      rfl
    rw [← isRun, creates run isCreate]
    rintro ⟨⟩
  | @update _ run isRun =>
    have isUpdate : c = .updateRun run := by
      unfold StoreCall.runWrite at isWrite
      split at isWrite <;> (try split at isWrite) <;> cases isWrite
      rfl
    exact ⟨run, rfl, updates run old isUpdate (isRun ▸ stored)⟩
  | claim => exact ⟨_, rfl, rfl, rfl, rfl⟩
  | extend => exact ⟨_, rfl, rfl, rfl, rfl⟩
  | @reclaim _ now =>
    refine ⟨Store.reclaimed now old, rfl, ?_⟩
    unfold Store.reclaimed
    split
    · exact ⟨rfl, rfl, rfl⟩
    · exact .refl old

/-- A call that is not one of the store only takes time. -/
theorem OthersWork.of_alone {w w' : World} {op : Op} {r : Ans op} (calls : Alone .calm w op r w')
    (other : ∀ c, op ≠ .store c) : OthersWork w.state w'.state := by
  refine ⟨calls.passes, fun id run stored => ⟨run, ?_, .refl run⟩⟩
  have same : w'.state.store = w.state.store := calls.other other
  rw [same]
  exact stored

/-- A run is inserted that was not there at first. -/
theorem OthersWork.insert (work : OthersWork s s') (absent : s.store.runs.lookup run.runId = none)
    (time : s'.clock ≤ s''.clock) (after : s''.store = s'.store.setRun run) : OthersWork s s'' := by
  refine ⟨le_trans work.forward time, fun id old stored => ?_⟩
  rw [after, Store.lookup_setRun, if_neg]
  · exact work.kept id old stored
  · rintro rfl
    rw [absent] at stored
    cases stored

/-- A claimed run is the stored one, and it stays stored. -/
theorem Claims.cases (claims : Claims runId s claimed s') :
    OthersWork s s' ∧ claimed.runId = runId ∧ ∃ row, s.store.runs.lookup runId = some row ∧ row.SameAttempt claimed := by
  cases claims with
  | nextQueued poolId workerId now ttl ran isId time =>
    have works : OthersWork s s' := .of_exec (c := .claimNextQueued poolId workerId now ttl) (le_of_eq time.symm) ran
      (by rintro run ⟨⟩) (by rintro run old ⟨⟩)
    obtain ⟨isNone, -⟩ | ⟨row, stored, -, isSome, -⟩ := Store.claimNextQueued_cases ran
    · cases isNone
    · have isClaimed := Option.some.inj (Except.ok.inj isSome)
      have key : row.runId = runId := by rw [← isId, isClaimed]; rfl
      rw [key] at stored
      refine ⟨works, isId, row, stored, ?_⟩
      rw [isClaimed]
      exact ⟨rfl, rfl, rfl⟩
  | byId poolId workerId now ttl ran time =>
    have works : OthersWork s s' := .of_exec (c := .claimRunById runId poolId workerId now ttl) (le_of_eq time.symm) ran
      (by rintro run ⟨⟩) (by rintro run old ⟨⟩)
    obtain ⟨isNone, -⟩ | ⟨row, stored, -, isSome, -⟩ := Store.claimRunById_cases ran
    · cases isNone
    · have isClaimed := Option.some.inj (Except.ok.inj isSome)
      have key : row.runId = runId := Table.key_of_lookup stored
      refine ⟨works, by rw [isClaimed]; exact key, row, stored, ?_⟩
      rw [isClaimed]
      exact ⟨rfl, rfl, rfl⟩

end Others

/-! ## One call -/

/-- What a call of `finalize_failed_run` leads to. -/
inductive Handled (p : RetryPolicy) (a : Attempt) : Prop
  | panicked : safeMessage a.error = none → a.inserted = [] → OthersWork a.before.state a.after.state → Handled p a
  | exhausted : (safeMessage a.error).isSome = true → p.shouldRetry a.copy.attempt = false → a.inserted = [] →
      OthersWork a.before.state a.after.state → Handled p a
  | undated (now : DateTime) : p.shouldRetry a.copy.attempt = true → a.readings.getLast? = some now →
      retryTime p a.copy.attempt now = none → a.inserted = [] → OthersWork a.before.state a.after.state → Handled p a
  | retried (failed next : Run) : (safeMessage a.error).isSome = true → p.shouldRetry a.copy.attempt = true →
      a.failure = some failed → a.inserted = [next] → Retries a.copy failed next → a.before.run next.runId = none →
      a.after.run next.runId = some next → OthersWork a.before.state a.after.state → Handled p a

section Call

variable {p : RetryPolicy} {copy row : Run} {error : String} {w w' : World} {job : Job} {status : RunStatus}
  {logs : Option CapturedLogs} {out : Option Unit}

/-- The terminal row is the same attempt, and finished now. -/
theorem failedRun_sameAttempt (failure : status = .failed ∨ status = .timeout) (message : String) (now : DateTime) :
    copy.SameAttempt (failedRun copy status message logs now) ∧
      (failedRun copy status message logs now).finishedAt = some now := by
  unfold failedRun
  rcases failure with rfl | rfl <;> cases logs <;> exact ⟨⟨rfl, rfl, rfl⟩, rfl⟩

/-- The retry carries the next number while it fits. -/
theorem retryRun_retries {failed : Run} {runId : String} {moment scheduledFor : DateTime}
    (ofJob : failed.jobId.isSome = true) (same : copy.SameAttempt failed) (number : 0 < failed.attempt)
    (fits : failed.attempt < 2147483647) (finished : failed.finishedAt = some moment) (later : moment ≤ scheduledFor) :
    Retries copy failed (retryRun failed runId scheduledFor) := by
  obtain ⟨jobId, isJob⟩ := Option.isSome_iff_exists.mp ofJob
  refine ⟨rfl, rfl, ?_, ?_, moment, finished, later⟩
  · have next : wrapI32 (failed.attempt + 1) = failed.attempt + 1 := by
      unfold wrapI32
      omega
    rw [show (retryRun failed runId scheduledFor).attempt = wrapI32 (failed.attempt + 1) from rfl, next, same.attempt]
  · rw [← same.lineage]
    simp only [Run.lineage, retryRun, Run.forJob, Run.new, isJob, Option.getD_some]

theorem finalizeFailedRun_handled (policy : job.retryPolicy = p) (fits : p.maxAttempts < 2147483647)
    (failure : status = .failed ∨ status = .timeout) (ofJob : copy.jobId.isSome = true)
    (stored : w.run copy.runId = some row) (same : row.SameAttempt copy)
    (among : Among OthersWork .calm (finalizeFailedRun copy job status error logs) w out w') :
    Handled p ⟨copy, error, w, w'⟩ := by
  subst policy
  unfold finalizeFailedRun at among
  split at among
  · rename_i panics
    obtain ⟨-, rfl⟩ := among
    refine .panicked panics ?_ (.refl _)
    simp only [Attempt.inserted, World.entriesSince_self, List.filterMap_nil]
  · rename_i message safe
    have isSafe : (safeMessage error).isSome = true := by rw [safe]; rfl
    obtain ⟨s₁, now, w₁, work₁, reads, rest⟩ := among
    have entries := Among.entries reads rest
    obtain ⟨s₂, r, w₂, work₂, updates, rest⟩ := rest
    rw [Among.entries updates rest] at entries
    obtain ⟨isFailed, finished⟩ : copy.SameAttempt (failedRun copy status message logs now) ∧
        (failedRun copy status message logs now).finishedAt = some now := failedRun_sameAttempt failure message now
    generalize failedRun copy status message logs now = failed at updates rest isFailed finished entries
    have work₂' := work₂
    have work₂ : OthersWork w.state s₂ := (work₁.trans (.of_alone reads (by rintro c ⟨⟩))).trans work₂
    obtain ⟨old, found, isOld⟩ := work₂.kept copy.runId row stored
    have known : (⟨s₂, w₁.log⟩ : World).run failed.runId = some old := by
      rw [isFailed.runId]
      exact found
    obtain ⟨rfl, after⟩ := updates.updateRun rfl known
    have work₃ : OthersWork w.state w₂.state := by
      refine work₂.trans (.of_exec updates.passes (updates.exec rfl) (by rintro run ⟨⟩) ?_)
      rintro run old' ⟨⟩ stored'
      rw [show s₂.store.runs.lookup failed.runId = some old from known] at stored'
      obtain rfl := Option.some.inj stored'
      exact (isOld.symm.trans same).trans isFailed
    simp only [retryFailed] at rest
    split at rest
    · rename_i allowed
      obtain ⟨s₃, now', w₃, work₄, reads', rest⟩ := rest
      rw [Among.entries reads' rest] at entries
      dsimp only [Prog.bind] at rest
      have work₅ : OthersWork w.state w₃.state := work₃.trans (work₄.trans (.of_alone reads' (by rintro c ⟨⟩)))
      rw [isFailed.attempt] at rest
      have number := allowed
      rw [isFailed.attempt] at allowed
      split at rest
      · rename_i undated
        obtain ⟨-, rfl⟩ := rest
        rw [World.entriesSince_self] at entries
        refine .undated now' allowed ?_ undated ?_ work₅
        · rw [Attempt.readings, entries]
          rfl
        · rw [Attempt.inserted, entries]
          rfl
      · rename_i scheduledFor dated
        obtain ⟨s₄, runId, w₄, work₆, draws, rest⟩ := rest
        rw [Among.entries draws rest] at entries
        obtain ⟨s₅, r, w₅, work₇, creates, rest⟩ := rest
        rw [Among.entries creates rest] at entries
        obtain ⟨-, rfl⟩ := rest
        rw [World.entriesSince_self] at entries
        obtain ⟨rfl, inserted⟩ := creates.createRun rfl
        have fresh : w.run runId = none := (work₅.trans work₆).absent draws.newUuid.1
        have work₈ : OthersWork w.state s₅ := ((work₅.trans work₆).trans (.of_alone draws (by rintro c ⟨⟩))).trans work₇
        simp only [RetryPolicy.shouldRetry, Bool.and_eq_true, decide_eq_true_eq] at number
        have later : now ≤ scheduledFor := by
          calc now = s₁.clock := reads.utcNow.1
            _ ≤ w₁.state.clock := reads.passes
            _ ≤ s₂.clock := work₂'.forward
            _ ≤ w₂.state.clock := updates.passes
            _ ≤ s₃.clock := work₄.forward
            _ = now' := reads'.utcNow.1.symm
            _ ≤ scheduledFor := le_of_retryTime dated
        have sameJob : failed.jobId = copy.jobId := congrArg Lineage.jobId isFailed.lineage
        rw [← sameJob] at ofJob
        have retries : Retries copy failed (retryRun failed runId scheduledFor) :=
          retryRun_retries ofJob isFailed number.1 (by omega) finished later
        generalize isNext : retryRun failed runId scheduledFor = next at creates inserted entries retries
        have nextId : next.runId = runId := by rw [← isNext]; rfl
        refine .retried failed next isSafe allowed ?_ ?_ retries (by rw [nextId]; exact fresh) ?_ ?_
        · rw [Attempt.failure, entries]
          rfl
        · rw [Attempt.inserted, entries]
          rfl
        · rw [World.run_setRun inserted, if_pos rfl]
        · exact work₈.insert (by rw [nextId]; exact fresh) creates.passes inserted
    · rename_i spent
      obtain ⟨-, rfl⟩ := rest
      rw [Bool.not_eq_true, isFailed.attempt] at spent
      refine .exhausted isSafe spent ?_ work₃
      rw [Attempt.inserted, entries, World.entriesSince_self]
      rfl

end Call

/-! ## The chain -/

section Chain

variable {p : RetryPolicy} {runId : String} {s s' s₁ : State} {a : Attempt} {attempts : List Attempt} {row : Run} {k : Nat}

/-- An attempt starts from the stored run, and is handled. -/
theorem Tries.handled (tries : Tries p runId s a s') (fits : p.maxAttempts < 2147483647)
    (stored : s.store.runs.lookup runId = some row) (ofJob : row.jobId.isSome = true) :
    OthersWork s a.before.state ∧ row.SameAttempt a.copy ∧ Handled p a := by
  obtain ⟨s₁, claimed, s₂, work₁, claims, copied, work₂⟩ := tries.claimed
  obtain ⟨job, status, logs, out, policy, failure, among⟩ := tries.finalized
  obtain ⟨work, -, row₁, stored₁, same₁⟩ := claims.cases
  obtain ⟨row₁', stored₁', same⟩ := work₁.kept runId row stored
  rw [stored₁] at stored₁'
  obtain rfl := Option.some.inj stored₁'
  have works : OthersWork s a.before.state := (work₁.trans work).trans work₂
  have isCopy : row.SameAttempt a.copy := (same.trans same₁).trans copied
  have key : row.runId = runId := Table.key_of_lookup stored
  obtain ⟨row', stored', same'⟩ := works.kept runId row stored
  have ofJob' : a.copy.jobId.isSome = true := by
    rw [show a.copy.jobId = row.jobId from congrArg Lineage.jobId isCopy.lineage]
    exact ofJob
  rw [← key, ← isCopy.runId] at stored'
  exact ⟨works, isCopy, finalizeFailedRun_handled policy fits failure ofJob' stored' (same'.symm.trans isCopy) among⟩

theorem Handled.works (handled : Handled p a) : OthersWork a.before.state a.after.state := by
  cases handled with
  | panicked _ _ work | exhausted _ _ _ work | undated _ _ _ _ _ work | retried _ _ _ _ _ _ _ _ _ work => exact work

theorem shouldRetry_iff (positive : 0 < k) : p.shouldRetry k = true ↔ k ≤ p.maxAttempts := by
  simp only [RetryPolicy.shouldRetry, Bool.and_eq_true, decide_eq_true_eq]
  omega

/-- A chain of one attempt. -/
theorem Chained.single (stored : s.store.runs.lookup runId = some row) (number : row.attempt = k)
    (isCopy : row.SameAttempt a.copy) (works : OthersWork s s') (isLast : a.inserted = []) : Chained row k s [a] s' := by
  obtain ⟨row', stored', same'⟩ := works.kept runId row stored
  have key : row.runId = runId := Table.key_of_lookup stored
  refine ⟨?_, ⟨a, [], rfl, isCopy⟩, by rintro b ⟨⟩, List.nodup_singleton _, ?_, ?_, .singleton a,
    by rw [List.flatMap_singleton, isLast]; rfl⟩
  · rw [List.map_singleton, isCopy.attempt, number]
    rfl
  · intro b inside
    obtain rfl := List.mem_singleton.mp inside
    exact ⟨row', by rw [isCopy.runId, key]; exact stored', isCopy.symm.trans same'⟩
  · intro b inside
    obtain rfl := List.mem_singleton.mp inside
    exact isCopy.lineage

/-- A chain goes on from the retry of its first attempt. -/
theorem Chained.cons {failed next row₁ : Run} (stored : s.store.runs.lookup runId = some row) (number : row.attempt = k)
    (isCopy : row.SameAttempt a.copy) (before : OthersWork s s₁) (after : OthersWork s₁ s')
    (isFailure : a.failure = some failed) (isSuccessor : a.inserted = [next]) (retries : Retries a.copy failed next)
    (fresh : s.store.runs.lookup next.runId = none) (same : next.SameAttempt row₁)
    (chained : Chained row₁ (k + 1) s₁ attempts s') : Chained row k s (a :: attempts) s' := by
  obtain ⟨b, rest, rfl, isNext⟩ := chained.starts
  have key : row.runId = runId := Table.key_of_lookup stored
  have nextId : b.copy.runId = next.runId := isNext.runId.trans same.runId
  have lineage : row₁.lineage = row.lineage := by rw [same.lineage, retries.lineage, isCopy.lineage]
  have new : ∀ c ∈ b :: rest, s.store.runs.lookup c.copy.runId = none := by
    intro c inside
    rcases List.mem_cons.mp inside with rfl | later
    · rw [nextId]
      exact fresh
    · exact before.absent (chained.fresh c later)
  refine ⟨?_, ⟨a, _, rfl, isCopy⟩, new, ?_, ?_, ?_, ?_, ?_⟩
  · have length : (a :: b :: rest).length = (b :: rest).length + 1 := rfl
    rw [List.map_cons, chained.numbers, isCopy.attempt, number, length, List.range_succ_eq_map, List.map_cons, List.map_map]
    refine congrArg₂ List.cons rfl (List.map_congr_left fun i _ => ?_)
    simp only [Function.comp_apply, Nat.succ_eq_add_one]
    omega
  · rw [List.map_cons, List.nodup_cons]
    refine ⟨fun inside => ?_, chained.distinct⟩
    obtain ⟨c, member, isId⟩ := List.mem_map.mp inside
    have absent := new c member
    rw [isId, isCopy.runId, key, stored] at absent
    cases absent
  · intro c inside
    rcases List.mem_cons.mp inside with rfl | later
    · obtain ⟨row', stored', same'⟩ := (before.trans after).kept runId row stored
      exact ⟨row', by rw [isCopy.runId, key]; exact stored', isCopy.symm.trans same'⟩
    · exact chained.stored c later
  · intro c inside
    rcases List.mem_cons.mp inside with rfl | later
    · exact isCopy.lineage
    · exact (chained.inherited c later).trans lineage
  · exact .cons_cons ⟨failed, next, isFailure, isSuccessor, retries, same.trans isNext⟩ chained.followed
  · rw [List.flatMap_cons, List.map_append, chained.inserted, isSuccessor, List.map_singleton, ← nextId]
    rfl

/-- **The chain**, from the attempt with number `k`: it is what its calls make of it, and if its retries can be dated, it
is complete exactly when no error text but the last one panics. -/
theorem Attempts.chained (chain : Attempts p runId s attempts s') (fits : p.maxAttempts < 2147483647)
    (stored : s.store.runs.lookup runId = some row) (ofJob : row.jobId.isSome = true) (number : row.attempt = k)
    (positive : 0 < k) (within : k ≤ p.maxAttempts + 1) (dated : ∀ a ∈ attempts, a.Dated p) :
    OthersWork s s' ∧ Chained row k s attempts s' ∧ (attempts.length + k = p.maxAttempts + 2 ↔
      ∀ a ∈ attempts.take (p.maxAttempts + 1 - k), (safeMessage a.error).isSome = true) := by
  induction chain generalizing row k with
  | @last runId s s' a tries isLast =>
    obtain ⟨work, isCopy, handled⟩ := tries.handled fits stored ofJob
    have works : OthersWork s s' := (work.trans handled.works).trans tries.later
    refine ⟨works, .single stored number isCopy works isLast, ?_⟩
    have isNumber : a.copy.attempt = k := isCopy.attempt.trans number
    cases handled with
    | panicked panics _ _ =>
      rcases Nat.lt_or_ge p.maxAttempts k with spent | more
      · have none_ : p.maxAttempts + 1 - k = 0 := by omega
        rw [none_, List.take_zero]
        refine iff_of_true ?_ (by rintro b ⟨⟩)
        rw [List.length_singleton]
        omega
      · refine iff_of_false ?_ fun safe => ?_
        · rw [List.length_singleton]
          omega
        · have first := safe a (List.mem_take_iff_getElem.mpr ⟨0, by simp; omega, rfl⟩)
          rw [panics] at first
          cases first
    | exhausted safe spent _ _ =>
      rw [isNumber, Bool.eq_false_iff, ne_eq, shouldRetry_iff positive] at spent
      have none_ : p.maxAttempts + 1 - k = 0 := by omega
      rw [none_, List.take_zero]
      refine iff_of_true ?_ (by rintro b ⟨⟩)
      rw [List.length_singleton]
      omega
    | undated now allowed reading undated _ _ =>
      have isDated := dated a List.mem_cons_self allowed now reading
      rw [undated] at isDated
      cases isDated
    | retried _ _ _ _ _ isSuccessor _ _ _ _ =>
      rw [isLast] at isSuccessor
      cases isSuccessor
  | @retry runId s s₁ s' a next rest tries isSuccessor _ ih =>
    obtain ⟨work, isCopy, handled⟩ := tries.handled fits stored ofJob
    have isNumber : a.copy.attempt = k := isCopy.attempt.trans number
    cases handled with
    | panicked _ isNone _ | exhausted _ _ isNone _ | undated _ _ _ _ isNone _ =>
      rw [isNone] at isSuccessor
      cases isSuccessor
    | retried failed next' safe allowed isFailure isSuccessor' retries fresh inserted work' =>
      obtain rfl : next = next' := by rwa [isSuccessor', List.mem_singleton] at isSuccessor
      rw [isNumber, shouldRetry_iff positive] at allowed
      obtain ⟨row₁, stored₁, same⟩ := tries.later.kept next.runId next inserted
      have isJob : row₁.jobId = row.jobId := by
        have lineages : row₁.lineage = row.lineage := by rw [same.lineage, retries.lineage, isCopy.lineage]
        exact congrArg Lineage.jobId lineages
      have number₁ : row₁.attempt = (k + 1 : Nat) := by rw [same.attempt, retries.attempt, isNumber]; rfl
      obtain ⟨after, chained, complete⟩ := ih stored₁ (by rw [isJob]; exact ofJob) number₁ (by omega) (by omega)
        fun b inside => dated b (List.mem_cons_of_mem a inside)
      have before : OthersWork s s₁ := (work.trans work').trans tries.later
      refine ⟨before.trans after, chained.cons stored number isCopy before after isFailure isSuccessor' retries
        (work.absent fresh) same, ?_⟩
      have lengths : (a :: rest).length + k = p.maxAttempts + 2 ↔ rest.length + (k + 1) = p.maxAttempts + 2 := by
        rw [List.length_cons]
        omega
      have split : p.maxAttempts + 1 - k = (p.maxAttempts + 1 - (k + 1)) + 1 := by omega
      rw [lengths, complete, split, List.take_succ_cons, List.forall_mem_cons, and_iff_right safe]

/-- The attempts of a first run. -/
theorem Attempts.allowed_iff {first : Run} (chain : Attempts p first.runId s attempts s')
    (small : p.maxAttempts ≤ maxRetryAttempts) (stored : s.store.runs.lookup first.runId = some first)
    (ofJob : first.jobId.isSome = true) (isFirst : first.attempt = 1) (dated : ∀ a ∈ attempts, a.Dated p) :
    AllowedAttempts p first attempts s' ↔ ∀ a ∈ attempts.take p.maxAttempts, (safeMessage a.error).isSome = true := by
  have limit : p.maxAttempts ≤ 100 := small
  have number : first.attempt = (1 : Nat) := isFirst
  obtain ⟨-, chained, complete⟩ := chain.chained (by omega) stored ofJob number Nat.one_pos (by omega) dated
  rw [Nat.add_sub_cancel] at complete
  rw [← complete]
  constructor
  · intro allowed
    rw [allowed.count]
  · intro count
    have isCount : attempts.length = p.maxAttempts + 1 := by omega
    have numbers := chained.numbers
    rw [isCount] at numbers
    have numbers' : attempts.map (·.copy.attempt) = (List.range (p.maxAttempts + 1)).map fun i : Nat => (i : Int) + 1 := by
      rw [numbers]
      refine List.map_congr_left fun i _ => ?_
      omega
    refine ⟨isCount, numbers', fun a inside => ?_, chained.distinct, chained.stored, chained.inherited, chained.followed,
      chained.inserted⟩
    have isNumber : a.copy.attempt ∈ attempts.map (·.copy.attempt) := List.mem_map_of_mem inside
    rw [numbers', List.mem_map] at isNumber
    obtain ⟨i, within, isAttempt⟩ := isNumber
    rw [List.mem_range] at within
    omega

/-- A call that takes no time reads the time it is called at. -/
theorem readings_still {m : Task Unit} {out : Option Unit} {s : State} {copy : Run} {error : String} {w' : World}
    (ends : Ends .still m ⟨s, []⟩ out w') : ∀ now ∈ Attempt.readings ⟨copy, error, ⟨s, []⟩, w'⟩, now = s.clock := by
  suffices all : w'.clock = s.clock ∧ ∀ e ∈ w'.log, ∀ now, clockReading e = some now → now = s.clock by
    intro now inside
    rw [Attempt.readings, World.entriesSince_eq (List.append_nil w'.log).symm, List.mem_filterMap] at inside
    obtain ⟨e, member, isReading⟩ := inside
    exact all.2 e (List.mem_reverse.mp member) now isReading
  refine ends.keeps (I := fun v => v.clock = s.clock ∧ ∀ e ∈ v.log, ∀ now, clockReading e = some now → now = s.clock)
    ?_ ⟨rfl, by rintro e ⟨⟩⟩
  rintro v v' op r calls ⟨stands, earlier⟩
  have passes : v.clock = v'.clock := calls.passes
  refine ⟨passes.symm.trans stands, ?_⟩
  rw [calls.log, List.forall_mem_cons]
  refine ⟨fun now isReading => ?_, earlier⟩
  cases op with
  | utcNow =>
    cases isReading
    exact calls.utcNow.1.trans stands
  | _ => cases isReading

/-- Whatever its error text, a queued run can be tried, and be finalized at once. -/
theorem Tries.exists {job : Job} (policy : job.retryPolicy = p) (error : String) (stored : s.store.runs.lookup runId = some row)
    (queued : row.status = .queued) (unleased : row.claimLeaseUntil = none) :
    ∃ a, Tries p runId s a a.after.state ∧ a.after.clock = s.clock ∧ a.error = error ∧ ∀ now ∈ a.readings, now = s.clock := by
  have free : Store.claimable (row.poolId.getD "general") row.scheduledFor row = true := by
    unfold Store.claimable Store.poolOk
    rw [queued, unleased]
    cases row.poolId <;> simp
  let claimed := Store.claimedRun row "w" row.scheduledFor 0
  let s₂ : State := { s with store := s.store.setRun claimed }
  have claims : Claims runId s claimed s₂ := by
    refine .byId (row.poolId.getD "general") "w" row.scheduledFor 0 ?_ rfl
    simp only [Store.claimRunById, stored, if_pos free]
    rfl
  obtain ⟨out, w', ends⟩ : ∃ out w', Ends .still (finalizeFailedRun claimed job .failed error none) ⟨s₂, []⟩ out w' :=
    Ends.exists Eq.refl _ _
  refine ⟨⟨claimed, error, ⟨s₂, []⟩, w'⟩, ⟨⟨s, claimed, s₂, .refl s, claims, .refl claimed, .refl s₂⟩, ?_, ?_⟩,
    ends.still.1, rfl, readings_still ends⟩
  · exact ⟨job, .failed, none, out, policy, .inl rfl, ends.calm.among OthersWork.refl⟩
  · exact .refl _

/-- Every queued run has a chain; `n` bounds the retries that are left. -/
theorem Attempts.exists {job : Job} (policy : job.retryPolicy = p) (fits : p.maxAttempts < 2147483647) (error : String)
    (n : Nat) (enough : p.maxAttempts < k + n) (stored : s.store.runs.lookup runId = some row)
    (queued : row.status = .queued) (unleased : row.claimLeaseUntil = none) (ofJob : row.jobId.isSome = true)
    (number : row.attempt = k) (positive : 0 < k) :
    ∃ attempts s', Attempts p runId s attempts s' ∧
      ∀ a ∈ attempts, a.error = error ∧ ∀ now ∈ a.readings, now = s.clock := by
  induction n generalizing s runId row k with
  | zero =>
    obtain ⟨a, tries, -, isTried⟩ := Tries.exists policy error stored queued unleased
    obtain ⟨-, isCopy, handled⟩ := tries.handled fits stored ofJob
    refine ⟨[a], _, .last tries ?_, fun b inside => by rw [List.mem_singleton.mp inside]; exact isTried⟩
    cases handled with
    | panicked _ isLast _ | exhausted _ _ isLast _ | undated _ _ _ _ isLast _ => exact isLast
    | retried _ _ _ allowed _ _ _ _ _ _ =>
      rw [isCopy.attempt, number, shouldRetry_iff positive] at allowed
      omega
  | succ n ih =>
    obtain ⟨a, tries, time, isTried⟩ := Tries.exists policy error stored queued unleased
    obtain ⟨-, isCopy, handled⟩ := tries.handled fits stored ofJob
    cases handled with
    | panicked _ isLast _ | exhausted _ _ isLast _ | undated _ _ _ _ isLast _ =>
      exact ⟨[a], _, .last tries isLast, fun b inside => by rw [List.mem_singleton.mp inside]; exact isTried⟩
    | retried failed next _ _ _ isSuccessor retries _ inserted _ =>
      have lineage : next.lineage = row.lineage := retries.lineage.trans isCopy.lineage
      have isJob : next.jobId = row.jobId := congrArg Lineage.jobId lineage
      have number₁ : next.attempt = (k + 1 : Nat) := by rw [retries.attempt, isCopy.attempt, number]; rfl
      obtain ⟨attempts, s', chain, all⟩ := ih (by omega) inserted retries.queued retries.unleased
        (by rw [isJob]; exact ofJob) number₁ (by omega)
      have isNext : next ∈ a.inserted := by rw [isSuccessor]; exact List.mem_cons_self
      rw [show a.after.state.clock = s.clock from time] at all
      exact ⟨a :: attempts, s', .retry tries isNext chain, List.forall_mem_cons.mpr ⟨isTried, all⟩⟩

end Chain

/-- **A failing job gets exactly its allowed attempts**, exactly when no error text of an attempt that is to be retried
makes the redaction panic. The times of its retries can be represented. -/
theorem allowed_attempts_iff {q : RetryPolicy} {first : Run} {s s' : State} {attempts : List Attempt}
    (stored : s.store.runs.lookup first.runId = some first) (ofJob : first.jobId.isSome = true)
    (isFirst : first.attempt = 1) (chain : Attempts q.clampSecurityBounds first.runId s attempts s')
    (dated : ∀ a ∈ attempts, a.Dated q.clampSecurityBounds) :
    AllowedAttempts q.clampSecurityBounds first attempts s' ↔
      ∀ a ∈ attempts.take q.clampSecurityBounds.maxAttempts, (safeMessage a.error).isSome = true :=
  chain.allowed_iff (min_le_right _ _) stored ofJob isFirst dated

/-- A policy that allows one retry, without a delay. -/
def onceMore : RetryPolicy := { RetryPolicy.default with maxAttempts := 1, baseDelayMs := 0 }

/-- A first run of the job with this policy. -/
def firstRun : Run := Run.forJob "r" "j" "noop" 0

def firstState : State := (State.single (retriedJob 1) 0).withRun firstRun

theorem firstState_chain (error : String) : ∃ attempts s',
    Attempts onceMore.clampSecurityBounds firstRun.runId firstState attempts s' ∧ (∀ a ∈ attempts, a.error = error) ∧
      ∀ a ∈ attempts, a.Dated onceMore.clampSecurityBounds := by
  have policy : (retriedJob 1).retryPolicy = onceMore.clampSecurityBounds := rfl
  have stored : firstState.store.runs.lookup firstRun.runId = some firstRun := rfl
  obtain ⟨attempts, s', chain, all⟩ := Attempts.exists policy (by decide) error 1 (by decide) stored rfl rfl rfl (k := 1) rfl
    Nat.one_pos
  refine ⟨attempts, s', chain, fun a inside => (all a inside).1, fun a inside _ now isLast => ?_⟩
  rw [(all a inside).2 now (List.mem_of_getLast? isLast), retryTime_undelayed rfl]
  decide

/-- Both attempts fail with a harmless text. -/
theorem allowed_attempts_twice : ∃ attempts s',
    Attempts onceMore.clampSecurityBounds firstRun.runId firstState attempts s' ∧
      AllowedAttempts onceMore.clampSecurityBounds firstRun attempts s' := by
  obtain ⟨attempts, s', chain, errors, dated⟩ := firstState_chain "boom"
  refine ⟨attempts, s', chain, (allowed_attempts_iff rfl rfl rfl chain dated).mpr fun a inside => ?_⟩
  rw [errors a (List.mem_of_mem_take inside)]
  decide +kernel

/-- An error text whose redaction ends inside a character: the run gets no second attempt. -/
theorem attempt_lost_by_redaction : ∃ attempts s',
    Attempts onceMore.clampSecurityBounds firstRun.runId firstState attempts s' ∧
      (∀ a ∈ attempts, a.Dated onceMore.clampSecurityBounds) ∧
      ¬ AllowedAttempts onceMore.clampSecurityBounds firstRun attempts s' := by
  obtain ⟨attempts, s', chain, errors, dated⟩ := firstState_chain "token=aaaaaaaé"
  refine ⟨attempts, s', chain, dated, fun allowed => ?_⟩
  have safe := (chain.allowed_iff (by decide) rfl rfl rfl dated).mp allowed
  obtain ⟨a, rest, rfl⟩ : ∃ a rest, attempts = a :: rest := by cases chain <;> exact ⟨_, _, rfl⟩
  have first := safe a List.mem_cons_self
  rw [errors a List.mem_cons_self] at first
  exact absurd first (by decide +kernel)

end Chronon
