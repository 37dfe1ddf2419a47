import Chronon.Tick.Claims

/-!
# A cron fire is enqueued once

One coordinator runs ticks on a cron job. The fire time it stores after a run
is the next one after its own reading of the clock, not after the fire it has
just enqueued: with a due list that looks ahead, the reading can lie before the
stored fire time, and the same fire is stored again. As long as no fire lies
between the two, stored fire times only move forward.
-/

namespace Chronon
set_option autoImplicit false

open Concurrent

/-! ## Fires -/

/-- `find_next_occurrence` returns the least fire strictly after its argument. -/
structure CronLib.NextIsLeast (lib : CronLib) (fires : lib.Cron → lib.Tz → DateTime → Prop) : Prop where
  next : ∀ {cron tz after t}, lib.findNext cron tz after = some t →
    fires cron tz t ∧ after < t ∧ ∀ u, fires cron tz u → after < u → t ≤ u
  last : ∀ {cron tz after}, lib.findNext cron tz after = none → ∀ u, fires cron tz u → u ≤ after

/-- A fire of the schedule of `job`. -/
def Job.Fires {lib : CronLib} (fires : lib.Cron → lib.Tz → DateTime → Prop) (job : Job) (t : DateTime) : Prop :=
  ∃ expr cron, job.cronExpr = some expr ∧ CronExpr.parse lib expr job.timezone = .ok cron ∧
    fires cron.schedule cron.timezone t

/-- No fire of `job` lies after the reading `now` and up to its stored fire time. -/
def FireReached {lib : CronLib} (fires : lib.Cron → lib.Tz → DateTime → Prop) (job : Job) (now : DateTime) : Prop :=
  ∀ t, job.Fires fires t → now < t → job.nextRunAt.getD now < t

/-- **The exact condition**: the next fire after `now` is later than the stored one if and only if no fire
lies in between. -/
theorem fireReached_iff {host : Host} {fires : host.cron.Cron → host.cron.Tz → DateTime → Prop}
    (least : host.cron.NextIsLeast fires) (job : Job) (now : DateTime) :
    FireReached fires job now ↔ ∀ t, cronNextRunAt host job now = some t → job.nextRunAt.getD now < t := by
  unfold cronNextRunAt
  constructor
  · intro reached t next
    split at next
    · cases next
    · rename_i expr isExpr
      split at next
      · rename_i cron parsed
        obtain ⟨isFire, after, -⟩ := least.next next
        exact reached t ⟨expr, cron, isExpr, parsed, isFire⟩ after
      · cases next
  · rintro ahead t ⟨expr, cron, isExpr, parsed, isFire⟩ after
    rw [isExpr] at ahead
    simp only [parsed] at ahead
    cases found : cron.nextAfter now with
    | none => exact absurd after (not_lt_of_ge (least.last found t isFire))
    | some u => exact lt_of_lt_of_le (ahead u found) ((least.next found).2.2 t isFire after)

/-! ## The setting -/

/-- The task that makes a due query. -/
def lister : SystemLabel → Option Nat
  | .call p (.store (.findDueJobIdsInPartitions _ _ _)) _ => some p
  | _ => none

/-- Only task `c` makes due queries. -/
def OnlyCoordinator (c : Nat) (l : SystemLabel) : Prop := ∀ p ∈ lister l, p = c

instance (c : Nat) (l : SystemLabel) : Decidable (OnlyCoordinator c l) := inferInstanceAs (Decidable (∀ p ∈ lister l, _))

/-- A tick creates a run of `j` only when its reading of the clock has reached the fire. -/
def CreatesWhenReached {lib : CronLib} (fires : lib.Cron → lib.Tz → DateTime → Prop) (j : String) (l : SystemLabel)
    (w : World) : Prop :=
  ∀ p ∈ caller l, (inserted l).isSome → ∀ k ∈ holding p w.log, k.jobId = j → ∀ job ∈ loaded p w.log,
    FireReached fires job k.now

/-- Every fire time a tick stores for `j` is later than what ticks have created runs for. -/
def PersistsAhead (j : String) : Log → Prop
  | [] => True
  | e :: older =>
    (match e with
      | ⟨_, _, .store (.persistPostTickJobState jobId next), _⟩ =>
        jobId = j → ∀ t ∈ next, ∀ run ∈ tickCreated j older, run.scheduledFor < t
      | _ => True) ∧ PersistsAhead j older

/-- No two runs created by ticks are for the same fire. -/
def FiresOnce (j : String) (log : Log) : Prop := ((tickCreated j log).map Run.scheduledFor).Nodup

instance (j : String) (log : Log) : Decidable (FiresOnce j log) := inferInstanceAs (Decidable (List.Nodup _))

/-! ## The invariant -/

/-- The stored fire time is later than every fire enqueued so far. -/
def Ahead (j : String) (w : World) : Prop :=
  ∀ row, w.job j = some row → ∀ t, row.nextRunAt = some t → ∀ run ∈ tickCreated j w.log, run.scheduledFor < t

/-- A fire time is stored. -/
def Scheduled (j : String) (w : World) : Prop := ∀ row, w.job j = some row → row.nextRunAt ≠ none

/-- What the coordinator knows. -/
def FireFact (host : Host) (j : String) (w : World) : Phase → Prop
  | .claimed _ k => Ahead j w ∧ (k.jobId = j → Scheduled j w)
  | .loaded _ k job | .drawing _ k job | .creating _ k job _ => Ahead j w ∧
      (k.jobId = j → job.scheduleKind = .cron ∧ ∀ run ∈ tickCreated j w.log, run.scheduledFor < job.nextRunAt.getD k.now)
  | .tryOnce _ k _ | .skipMark _ k _ | .marking _ k _ | .undoing _ k => Ahead j w ∧ k.jobId ≠ j
  | .persisting _ k job | .skipPersist _ k job => (k.jobId ≠ j → Ahead j w) ∧
      (k.jobId = j → ∀ t, postTickNextRunAt host job k.now = some t →
        ∀ run ∈ tickCreated j w.log, run.scheduledFor < t)
  | _ => Ahead j w

/-- What every reachable world satisfies. -/
structure FireInv (j : String) (w : World) : Prop where
  cron : ∀ row, w.job j = some row → row.scheduleKind = .cron
  once : FiresOnce j w.log
  persisted : PersistsAhead j w.log

/-- What a task asserts; `c` is the coordinator. -/
structure FireHolds (host : Host) (j : String) (c p : Nat) (φ : Phase) (w : World) : Prop where
  linked : Linked p φ w
  only : φ.batch ≠ none → p = c
  pending : ∀ b, φ.batch = some b →
    b.ids.Nodup ∧ (∀ k, φ.claim = some k → k.jobId ∉ b.ids) ∧ (j ∈ b.ids → Scheduled j w)
  fact : p = c → FireFact host j w φ

/-- A step that neither enqueues a fire of `j` nor moves its stored fire time. -/
structure Calm (j : String) (w w' : World) : Prop where
  created : tickCreated j w'.log = tickCreated j w.log
  row : ∀ row', w'.job j = some row' →
    ∃ row, w.job j = some row ∧ row'.nextRunAt = row.nextRunAt ∧ row'.scheduleKind = row.scheduleKind

namespace Calm

variable {host : Host} {j : String} {w w' : World}

theorem ahead (calm : Calm j w w') (ahead : Ahead j w) : Ahead j w' := by
  intro row' stored' t next run isCreated
  obtain ⟨row, stored, same, -⟩ := calm.row row' stored'
  exact ahead row stored t (same.symm.trans next) run (calm.created ▸ isCreated)

theorem scheduled (calm : Calm j w w') (scheduled : Scheduled j w) : Scheduled j w' := by
  intro row' stored'
  obtain ⟨row, stored, same, -⟩ := calm.row row' stored'
  exact same ▸ scheduled row stored

theorem fact {φ : Phase} (calm : Calm j w w') (fact : FireFact host j w φ) : FireFact host j w' φ := by
  cases φ with
  | claimed _ k => exact ⟨calm.ahead fact.1, fun onJob => calm.scheduled (fact.2 onJob)⟩
  | loaded _ k job | drawing _ k job | creating _ k job _ => exact ⟨calm.ahead fact.1, calm.created ▸ fact.2⟩
  | tryOnce _ k _ | skipMark _ k _ | marking _ k _ | undoing _ k => exact ⟨calm.ahead fact.1, fact.2⟩
  | persisting _ k job | skipPersist _ k job =>
    exact ⟨fun other => calm.ahead (fact.1 other), calm.created ▸ fact.2⟩
  | _ => exact calm.ahead fact

end Calm

section Step

variable {host : Host} {fires : host.cron.Cron → host.cron.Tz → DateTime → Prop} {j : String} {c p : Nat}
  {oracle : Oracle} {w w' : World} {φ φ' : Phase} {op : Op} {r : Ans op} {row' : Job}

/-- A row that is not upserted was there before, and only `persist_post_tick_job_state` moves its fire time. -/
theorem NotUpserted.job (kept : NotUpserted j (.call p op r)) (ran : perform p oracle w op = some (r, w'))
    (stored' : w'.job j = some row') :
    ∃ row, w.job j = some row ∧ row'.scheduleKind = row.scheduleKind ∧
      (row'.nextRunAt = row.nextRunAt ∨ ∃ next, Wrote j op r (.persist next)) := by
  have step := perform_job ran j
  rw [stored'] at step
  generalize stored : w.job j = before at step
  cases wrote : jobWrite j op r with
  | none =>
    rw [wrote] at step
    cases step
    exact ⟨row', rfl, rfl, .inl rfl⟩
  | some write =>
    rw [wrote] at step
    have call := jobWrite_wrote wrote
    cases step with
    | put same =>
      cases call
      exact absurd same (kept _ rfl)
    | write stamp allowed =>
      rename_i row
      refine ⟨row, rfl, ?_⟩
      cases write with
      | put job => exact allowed.elim
      | drop => exact allowed.elim
      | releaseOnce claimedBy => simp only [JobWrite.onRow]; split <;> exact ⟨rfl, .inl rfl⟩
      | persist next => exact ⟨rfl, .inr ⟨next, call⟩⟩
      | _ => exact ⟨rfl, .inl rfl⟩

/-- Storing a fire time on a stored row stores it. -/
theorem perform_persist {next : Option DateTime} {r : Result Unit}
    (ran : perform p oracle w (.store (.persistPostTickJobState j next)) = some (r, w'))
    (stored' : w'.job j = some row') : row'.nextRunAt = next := by
  have executed := (answer_store (perform_cases ran).1).1
  obtain ⟨missing, -, same⟩ | ⟨job, found, -, after⟩ := Store.mutateJobAt_cases executed
  · have absent : w.store.jobs.lookup j = some row' := by rw [← same]; exact stored'
    rw [absent] at missing
    cases missing
  · have stored : w'.store.jobs.lookup j = some row' := stored'
    have isStore : w'.store = _ := after
    have isKey := Collections.Table.key_of_lookup found
    rw [isStore, Store.lookup_setJob, if_pos isKey] at stored
    cases stored
    rfl

/-- A step that writes no fire time of `j` and creates no run of it is calm. -/
theorem NotUpserted.calm (kept : NotUpserted j (.call p op r)) (ran : perform p oracle w op = some (r, w'))
    (unwritten : ∀ next, ¬ Wrote j op r (.persist next)) (created : tickCreated j w'.log = tickCreated j w.log) :
    Calm j w w' := by
  refine ⟨created, fun row' stored' => ?_⟩
  obtain ⟨row, stored, kind, same | ⟨next, wrote⟩⟩ := kept.job ran stored'
  · exact ⟨row, stored, same, kind⟩
  · exact absurd wrote (unwritten next)

theorem NotUpserted.scheduled (kept : NotUpserted j (.call p op r)) (ran : perform p oracle w op = some (r, w'))
    (unwritten : ∀ next, ¬ Wrote j op r (.persist next)) (scheduled : Scheduled j w) : Scheduled j w' := by
  intro row' stored'
  obtain ⟨row, stored, -, same | ⟨next, wrote⟩⟩ := kept.job ran stored'
  · exact same ▸ scheduled row stored
  · exact absurd wrote (unwritten next)

theorem FireHolds.pending_step (holds : FireHolds host j c p φ w) (move : Move host φ op r φ')
    (ran : perform p oracle w op = some (r, w')) (kept : NotUpserted j (.call p op r)) :
    ∀ b, φ'.batch = some b →
      b.ids.Nodup ∧ (∀ k, φ'.claim = some k → k.jobId ∉ b.ids) ∧ (j ∈ b.ids → Scheduled j w') := by
  intro b isBatch
  have pending := holds.pending
  have later : (∀ next, ¬ Wrote j op r (.persist next)) → Scheduled j w → Scheduled j w' :=
    fun unwritten => kept.scheduled ran unwritten
  have same : (∀ next, ¬ Wrote j op r (.persist next)) → φ.batch = some b →
      (∀ k, φ'.claim = some k → φ.claim = some k) →
      b.ids.Nodup ∧ (∀ k, φ'.claim = some k → k.jobId ∉ b.ids) ∧ (j ∈ b.ids → Scheduled j w') := by
    intro unwritten isBatch claims
    obtain ⟨nodup, claim, scheduled⟩ := pending b isBatch
    exact ⟨nodup, fun k claim' => claim k (claims k claim'), fun listed => later unwritten (scheduled listed)⟩
  cases move with
  | silent quiet =>
    refine same (fun next wrote => ?_) isBatch fun _ claim => claim
    cases wrote
    exact quiet
  | list =>
    cases isBatch
    have executed := (answer_store (perform_cases ran).1).1
    simp only [StoreCall.exec, Prod.mk.injEq] at executed
    refine ⟨Store.findDue_nodup executed.1, fun k none_ => (by cases none_), fun listed => ?_⟩
    refine later (fun next wrote => by cases wrote) fun row stored none_ => ?_
    obtain ⟨row₁, stored₁, due⟩ := Store.mem_findDue executed.1 listed
    have isRow : w.store.jobs.lookup j = some row := stored
    rw [isRow] at stored₁
    cases stored₁
    have due := Store.scheduleDue_of_isDue due
    simp [Store.scheduleDue, none_] at due
  | claim next =>
    rename_i b₁ now claimId jobId rest
    cases isBatch
    obtain ⟨nodup, -, scheduled⟩ := pending b₁ rfl
    rw [next] at nodup scheduled
    refine ⟨nodup.of_cons, fun k claim => ?_, fun listed => ?_⟩
    · cases claim
      exact (List.nodup_cons.mp nodup).1
    · exact later (fun next wrote => by cases wrote) (scheduled (List.mem_cons_of_mem _ listed))
  | claimRefused next _ =>
    rename_i b₁ now claimId jobId rest r _
    cases isBatch
    obtain ⟨nodup, -, scheduled⟩ := pending b₁ rfl
    rw [next] at nodup scheduled
    exact ⟨nodup.of_cons, fun k none_ => (by cases none_),
      fun listed => later (fun next wrote => by cases wrote) (scheduled (List.mem_cons_of_mem _ listed))⟩
  | persist | skipPersist =>
    cases isBatch
    obtain ⟨nodup, claim, scheduled⟩ := pending b rfl
    refine ⟨nodup, fun k none_ => (by cases none_), fun listed => ?_⟩
    refine later (fun next wrote => ?_) (scheduled listed)
    cases wrote
    exact claim _ rfl listed
  | misfired | admitted | create =>
    refine same (fun next wrote => by cases wrote) ?_ ?_
    · split at isBatch <;> exact isBatch
    · split <;> exact fun _ claim => claim
  | createFailed => cases (perform_cases ran).1
  | checkName => split at isBatch <;> cases isBatch
  | _ => exact same (fun next wrote => by cases wrote) isBatch fun k claim => (by first | exact claim | cases claim)

/-- Skipping a fire means that its time has passed. -/
theorem misfire_late {scheduledFor now : DateTime} {policy : MisfirePolicy}
    (skips : shouldEnqueueForMisfire scheduledFor now policy = false) : scheduledFor < now := by
  simp only [shouldEnqueueForMisfire] at skips
  split at skips
  · cases skips
  · split at skips
    · cases skips
    · rename_i late
      by_contra early
      refine late (max_eq_left ?_)
      have ahead : 0 ≤ scheduledFor - now := Int.sub_nonneg_of_le (not_lt.mp early)
      rw [numSeconds, ← Int.neg_sub, Int.neg_tdiv]
      exact Int.neg_nonpos_of_nonneg (Int.tdiv_nonneg ahead (by decide))

theorem cronNextRunAt_after (least : host.cron.NextIsLeast fires) {job : Job} {now t : DateTime}
    (next : cronNextRunAt host job now = some t) : now < t := by
  unfold cronNextRunAt at next
  split at next
  · cases next
  · split at next
    · exact (least.next next).2.1
    · cases next

/-- The fire time stored after a cron job is the next one. -/
theorem postTickNextRunAt_cron {job : Job} (cron : job.scheduleKind = .cron) (now : DateTime) :
    postTickNextRunAt host job now = cronNextRunAt host job now := if_pos cron

theorem FireHolds.fact_step (least : host.cron.NextIsLeast fires) (inv : FireInv j w)
    (holds : FireHolds host j c p φ w) (coordinator : p = c) (move : Move host φ op r φ')
    (ran : perform p oracle w op = some (r, w')) (kept : NotUpserted j (.call p op r))
    (reached : CreatesWhenReached fires j (.call p op r) w) : FireFact host j w' φ' := by
  have fact := holds.fact coordinator
  have linked := holds.linked
  have log := (perform_cases ran).2
  have calm : (∀ next, ¬ Wrote j op r (.persist next)) →
      tickCreated j (⟨p, w.state, op, r⟩ :: w.log) = tickCreated j w.log →
      ∀ ψ, FireFact host j w ψ → FireFact host j w' ψ := by
    intro unwritten created ψ fact
    exact (kept.calm ran unwritten (by rw [log]; exact created)).fact fact
  have stays : (∀ b k job runId, φ = .creating b k job runId → k.jobId ≠ j) →
      tickCreated j w'.log = tickCreated j w.log := by
    intro elsewhere
    rcases linked.created (j := j) move ran with same | ⟨b, k, job, runId, isPhase, onJob, -⟩
    · exact same
    · exact absurd onJob (elsewhere b k job runId isPhase)
  cases move with
  | silent quiet =>
    refine calm (fun next wrote => ?_) (tickCreated_silent _ quiet) φ fact
    cases wrote
    exact quiet
  | claim next =>
    rename_i b now claimId jobId rest
    refine calm (fun next wrote => by cases wrote) rfl _ ⟨fact, fun onJob => ?_⟩
    refine (holds.pending b rfl).2.2 ?_
    have onJob : jobId = j := onJob
    rw [next, onJob]
    exact List.mem_cons_self
  | load =>
    rename_i b k job
    refine calm (fun next wrote => by cases wrote) rfl _ ⟨fact.1, fun onJob => ?_⟩
    have stored : w.job j = some job := onJob ▸ perform_getJob ran
    refine ⟨inv.cron job stored, fun run created => ?_⟩
    obtain ⟨t, next⟩ := Option.ne_none_iff_exists'.mp (fact.2 onJob job stored)
    rw [next]
    exact fact.1 job stored t next run created
  | loadMissing => exact calm (fun next wrote => by cases wrote) rfl _ fact.1
  | loadFailed => cases (perform_cases ran).1
  | atLimit _ => exact calm (fun next wrote => by cases wrote) rfl _ fact.1
  | misfired _ late =>
    rename_i b k job r _
    refine calm (fun next wrote => by cases wrote) rfl _ ?_
    split
    · rename_i kind
      exact ⟨fact.1, fun onJob => by rw [(fact.2 onJob).1] at kind; cases kind⟩
    · refine ⟨fun _ => fact.1, fun onJob t next run created => ?_⟩
      rw [postTickNextRunAt_cron (fact.2 onJob).1] at next
      calc run.scheduledFor < job.nextRunAt.getD k.now := (fact.2 onJob).2 run created
        _ < k.now := misfire_late late
        _ < t := cronNextRunAt_after least next
  | admitted _ _ =>
    refine calm (fun next wrote => by cases wrote) rfl _ ?_
    split
    · rename_i kind
      exact ⟨fact.1, fun onJob => by rw [(fact.2 onJob).1] at kind; cases kind⟩
    · exact fact
  | once => exact calm (fun next wrote => by cases wrote) rfl _ ⟨fact.1, fun onJob => absurd onJob fact.2⟩
  | onceRefused _ => exact calm (fun next wrote => by cases wrote) rfl _ fact.1
  | draw => exact calm (fun next wrote => by cases wrote) rfl _ fact
  | create =>
    rename_i b k job runId
    by_cases onJob : k.jobId = j
    · obtain ⟨cron, older⟩ := fact.2 onJob
      rw [if_neg (by rw [cron]; decide)]
      refine ⟨fun other => absurd onJob other, fun _ t next run created => ?_⟩
      rw [postTickNextRunAt_cron cron] at next
      -- the condition: the next fire after the reading is not the one just enqueued
      have later : job.nextRunAt.getD k.now < t :=
        (fireReached_iff least job k.now).mp (reached p rfl rfl k linked.holds onJob job (linked.copies k job rfl).1) t next
      rw [linked.tickCreated_create ran onJob, List.mem_cons] at created
      rcases created with rfl | before
      · exact later
      · exact lt_trans (older run before) later
    · have unmade := stays fun _ _ _ _ isPhase => (by cases isPhase; exact onJob)
      have ahead := (kept.calm ran (fun next wrote => by cases wrote) unmade).ahead fact.1
      split
      · exact ⟨ahead, onJob⟩
      · exact ⟨fun _ => ahead, fun onJob' => absurd onJob' onJob⟩
  | createFailed => cases (perform_cases ran).1
  | undo => exact calm (fun next wrote => by cases wrote) rfl _ fact.1
  | mark => exact calm (fun next wrote => by cases wrote) rfl _ ⟨fun _ => fact.1, fun onJob => absurd onJob fact.2⟩
  | skipMark => exact calm (fun next wrote => by cases wrote) rfl _ ⟨fun _ => fact.1, fun onJob => absurd onJob fact.2⟩
  | persist | skipPersist =>
    rename_i b k job r
    by_cases onJob : k.jobId = j
    · intro row' stored' t next run created
      subst onJob
      rw [perform_persist ran stored'] at next
      rw [log] at created
      exact fact.2 rfl t next run created
    · refine calm (fun next wrote => ?_) rfl _ (fact.1 onJob)
      cases wrote
      exact onJob rfl
  | checkName => refine calm (fun next wrote => by cases wrote) rfl _ ?_; split <;> exact fact
  | insertFirst _ _ _ | retry =>
    have unmade := stays fun _ _ _ _ isPhase => by cases isPhase
    exact (kept.calm ran (fun next wrote => by cases wrote) unmade).ahead fact
  | _ => exact calm (fun next wrote => by cases wrote) rfl _ fact

theorem FireInv.step (inv : FireInv j w) (holds : FireHolds host j c p φ w) (move : Move host φ op r φ')
    (ran : perform p oracle w op = some (r, w')) (kept : NotUpserted j (.call p op r)) : FireInv j w' := by
  refine ⟨?_, ?_, ?_⟩
  · intro row' stored'
    obtain ⟨row, stored, kind, -⟩ := kept.job ran stored'
    exact kind.trans (inv.cron row stored)
  · rcases holds.linked.created (j := j) move ran with same | ⟨b, k, job, runId, rfl, onJob, added⟩
    · rw [FiresOnce, same]
      exact inv.once
    · have older := ((holds.fact (holds.only nofun)).2 onJob).2
      rw [FiresOnce, added, List.map_cons, List.nodup_cons]
      refine ⟨fun again => ?_, inv.once⟩
      obtain ⟨run, created, same⟩ := List.mem_map.mp again
      exact absurd same (ne_of_lt (older run created))
  · rw [(perform_cases ran).2]
    cases move with
    | silent quiet =>
      refine ⟨?_, inv.persisted⟩
      split
      · rename_i isPersist
        cases isPersist
        exact quiet.elim
      · trivial
    | persist | skipPersist =>
      rename_i b k job r
      have fact := holds.fact (holds.only nofun)
      exact ⟨fun onJob t next => fact.2 onJob t next, inv.persisted⟩
    | _ => exact ⟨trivial, inv.persisted⟩

theorem FireHolds.only_step (holds : FireHolds host j c p φ w) (move : Move host φ op r φ')
    (alone : OnlyCoordinator c (.call p op r)) : φ'.batch ≠ none → p = c := by
  have only := holds.only
  cases move with
  | list => exact fun _ => alone p rfl
  | silent _ => exact only
  | checkName => split <;> exact only
  | _ => first | exact only | exact fun _ => only nofun

theorem FireHolds.calm (holds : FireHolds host j c p φ w) (move : Move host φ op r φ')
    (ran : perform p oracle w op = some (r, w')) (kept : NotUpserted j (.call p op r)) (other : p ≠ c) :
    Calm j w w' := by
  refine kept.calm ran (fun next wrote => ?_) ?_
  · obtain ⟨b, k, job, -, -, ⟨rfl, -⟩ | ⟨rfl, -⟩⟩ := move.of_persist wrote
    all_goals exact other (holds.only nofun)
  · rcases holds.linked.created (j := j) move ran with same | ⟨b, k, job, runId, rfl, -, -⟩
    · exact same
    · exact absurd (holds.only nofun) other

end Step

/-- The steps of one coordinator's ticks on a job that is not upserted. -/
def RefireSetting (j : String) (c : Nat) (l : SystemLabel) : Prop := NotUpserted j l ∧ OnlyCoordinator c l

instance (j : String) (c : Nat) (l : SystemLabel) : Decidable (RefireSetting j c l) := inferInstanceAs (Decidable (_ ∧ _))

/-- The rules behind single firing. -/
def fireRules (host : Host) {fires : host.cron.Cron → host.cron.Tz → DateTime → Prop}
    (least : host.cron.NextIsLeast fires) (j : String) (c : Nat) :
    Rules (system host) (protocol host) fun l w _ => RefireSetting j c l ∧ CreatesWhenReached fires j l w where
  inv := FireInv j
  guar q w w' := (∃ oracle op r, perform q oracle w op = some (r, w')) ∧ (q ≠ c → Calm j w w')
  idle p w := holding p w.log = none ∧ (p = c → Ahead j w)
  holds := FireHolds host j c
  start := by
    intro p proc w _ idle _
    refine ⟨.start idle.1, ?_, ?_, fun coordinator => ?_⟩
    · cases proc <;> exact fun some_ => absurd rfl some_
    · cases proc <;> exact fun b none_ => by cases none_
    · have ahead := idle.2 coordinator
      cases proc <;> exact ahead
  finish := by
    intro p φ w _ ended holds
    refine ⟨holds.linked.finish ended, fun coordinator => ?_⟩
    have fact := holds.fact coordinator
    unfold protocol Phase.ended at ended
    cases φ <;> first | exact fact | (cases ended.1)
  own := by
    intro p φ op r φ' oracle w w' inv holds move ran allowed
    obtain ⟨⟨kept, alone⟩, reached⟩ := allowed
    refine ⟨inv.step holds move ran kept, ⟨⟨_, _, _, ran⟩, holds.calm move ran kept⟩, ?_⟩
    exact ⟨holds.linked.own move ran, holds.only_step move alone, holds.pending_step move ran kept,
      fun coordinator => holds.fact_step least inv coordinator move ran kept reached⟩
  other := by
    rintro p q φ w w' apart _ _ ⟨⟨_, _, _, ran⟩, calm⟩ holds
    have calm : p = c → Calm j w w' := fun coordinator => calm (coordinator ▸ Ne.symm apart)
    refine ⟨holds.linked.other ran apart, holds.only, fun b isBatch => ?_, fun coordinator => ?_⟩
    · obtain ⟨nodup, claim, scheduled⟩ := holds.pending b isBatch
      have coordinator := holds.only (by rw [isBatch]; nofun)
      exact ⟨nodup, claim, fun listed => (calm coordinator).scheduled (scheduled listed)⟩
    · exact (calm coordinator).fact (holds.fact coordinator)
  otherIdle := by
    rintro p q w w' apart _ _ ⟨⟨_, _, _, ran⟩, calm⟩ idle
    refine ⟨?_, fun coordinator => (calm (coordinator ▸ Ne.symm apart)).ahead (idle.2 coordinator)⟩
    rw [holding, track_other_call ran (Ne.symm apart)]
    exact idle.1
  drift := by
    intro e w w' inv drifts _
    obtain ⟨-, jobs, -, log⟩ := drift_cases drifts
    have calm : Calm j w w' := ⟨by rw [log], fun row stored => ⟨row, by rw [← jobs]; exact stored, rfl, rfl⟩⟩
    refine ⟨⟨fun row stored => inv.cron row (by rw [← jobs]; exact stored), ?_, ?_⟩, fun p φ holds => ?_, fun p idle => ?_⟩
    · rw [log]; exact inv.once
    · rw [log]; exact inv.persisted
    · refine ⟨holds.linked.drift drifts, holds.only, fun b isBatch => ?_, fun coordinator => calm.fact (holds.fact coordinator)⟩
      obtain ⟨nodup, claim, scheduled⟩ := holds.pending b isBatch
      exact ⟨nodup, claim, fun listed => calm.scheduled (scheduled listed)⟩
    · exact ⟨by rw [log]; exact idle.1, fun coordinator => calm.ahead (idle.2 coordinator)⟩

/-- **A cron fire is enqueued once** by one coordinator, in every run in which each enqueue finds that its
reading of the clock has reached the fire. -/
theorem cron_fires_once (host : Host) {fires : host.cron.Cron → host.cron.Tz → DateTime → Prop}
    (least : host.cron.NextIsLeast fires) (j : String) (coordinator : Nat) {s : State} {row : Job} {c : SystemConfig}
    (stored : s.store.jobs.lookup j = some row) (cron : row.scheduleKind = .cron)
    (reach : (system host).Reach (fun l w _ => RefireSetting j coordinator l ∧ CreatesWhenReached fires j l w)
      (.idle (.fresh s)) c) : FiresOnce j c.world.log ∧ PersistsAhead j c.world.log := by
  have start : FireInv j (.fresh s) := by
    refine ⟨fun row' stored' => ?_, List.nodup_nil, trivial⟩
    have isRow : s.store.jobs.lookup j = some row' := stored'
    rw [stored] at isRow
    cases isRow
    exact cron
  have standing := (fireRules host least j coordinator).sound (protocol_governs host)
    (Rules.Standing.initial (fireRules host least j coordinator) start
      fun _ => ⟨rfl, fun _ _ _ _ _ run created => by cases created⟩) reach
  exact ⟨standing.inv.once, standing.inv.persisted⟩

/-- The fires of the two schedules. -/
def CronLib.simpleFires (cron : CronLib.simple.Cron) (_ : CronLib.simple.Tz) (t : DateTime) : Prop :=
  ∃ n : Int, t = n * seconds cron.1

theorem CronLib.simple_least : CronLib.simple.NextIsLeast CronLib.simpleFires where
  next := by
    intro cron tz after t next
    have positive : 0 < seconds cron.1 := Int.mul_pos cron.2 (by decide)
    cases next
    refine ⟨⟨_, rfl⟩, Int.lt_ediv_add_one_mul_self after positive, ?_⟩
    rintro u ⟨n, rfl⟩ later
    exact Int.mul_le_mul_of_nonneg_right (Int.ediv_lt_of_lt_mul positive later) (le_of_lt positive)
  last none_ := by cases none_

/-- A tick creates a run of `j` only at or after the stored fire time. -/
def CreatesOnTime (j : String) (l : SystemLabel) (w : World) : Prop :=
  ∀ p ∈ caller l, (inserted l).isSome → ∀ k ∈ holding p w.log, k.jobId = j → ∀ job ∈ loaded p w.log,
    job.nextRunAt.getD k.now ≤ k.now

instance (j : String) (l : SystemLabel) (w : World) : Decidable (CreatesOnTime j l w) :=
  inferInstanceAs (Decidable (∀ p ∈ caller l, _))

theorem CreatesOnTime.reached {lib : CronLib} {fires : lib.Cron → lib.Tz → DateTime → Prop} {j : String}
    {l : SystemLabel} {w : World} (onTime : CreatesOnTime j l w) : CreatesWhenReached fires j l w :=
  fun p calls creates k held onJob job isCopy _ _ later =>
    lt_of_le_of_lt (onTime p calls creates k held onJob job isCopy) later

/-- Two fires, each enqueued at its minute. -/
theorem cron_fires_once_twice :
    ∃ c, (system .simple).Reach (fun l w _ => RefireSetting "j" 0 l ∧ CreatesWhenReached CronLib.simpleFires "j" l w)
        (.idle (.fresh (.single minutelyJob (seconds 60)))) c ∧
      ((tickCreated "j" c.world.log).length == 2) = true ∧ FiresOnce "j" c.world.log ∧
        PersistsAhead "j" c.world.log := by
  obtain ⟨c, reach, holds⟩ := exists_run .simple (fun l w _ => RefireSetting "j" 0 l ∧ CreatesOnTime "j" l w)
    (.single minutelyJob (seconds 60))
    (startTick 0 "a" true ++ claimNext 0 "u0" ++ enqueueRest 0 "r0" ++ [.env (.advance (seconds 120))] ++
      startTick 0 "a" true ++ claimNext 0 "u1" ++ enqueueRest 0 "r1")
    (fun c => (tickCreated "j" c.world.log).length == 2) (by decide +kernel)
  have reach : (system .simple).Reach
      (fun l w _ => RefireSetting "j" 0 l ∧ CreatesWhenReached CronLib.simpleFires "j" l w)
      (.idle (.fresh (.single minutelyJob (seconds 60)))) c :=
    reach.mono fun l w _ allowed => ⟨allowed.1, allowed.2.reached⟩
  exact ⟨c, reach, holds, cron_fires_once .simple CronLib.simple_least "j" 0 rfl rfl reach⟩

/-- A draining coordinator looks 50 ms ahead and enqueues a fire 20 ms before its time. The fire time it
stores is the next one after its reading, which is the same fire; the next tick enqueues it again. -/
theorem cron_fires_twice :
    CronLib.simple.NextIsLeast CronLib.simpleFires ∧
    ∃ c, (system .simple).Reach (fun l _ _ => RefireSetting "j" 0 l)
        (.idle (.fresh (.single minutelyJob (seconds 60 - milliseconds 20)))) c ∧ ¬ FiresOnce "j" c.world.log := by
  refine ⟨CronLib.simple_least, ?_⟩
  obtain ⟨c, reach, twice⟩ := exists_run .simple (fun l _ _ => RefireSetting "j" 0 l)
    (.single minutelyJob (seconds 60 - milliseconds 20))
    (startTick 0 "a" true ++ claimNext 0 "u0" ++ enqueueRest 0 "r0" ++ startTick 0 "a" true ++ claimNext 0 "u1" ++ enqueueRest 0 "r1")
    (fun c => decide (¬ FiresOnce "j" c.world.log)) (by decide +kernel)
  exact ⟨c, reach, of_decide_eq_true twice⟩

end Chronon
