import Chronon.Tick.Claims

/-!
# Tick claims are exclusive

While no lease runs out, a tick claim that is only given up by its holder
belongs to one task at a time, and the stored claim is that task's
(`HoldsAlone`). One call preserves this whatever the task is doing
(`HoldsAlone.step`).
-/

namespace Chronon
set_option autoImplicit false

open Concurrent

/-- Every holder of a tick claim on `j` is within its lease. -/
def LeasesHold (j : String) (w : World) : Prop :=
  ∀ p, ∀ k ∈ holding p w.log, k.jobId = j → w.clock ≤ k.leaseUntil

instance (j : String) (w : World) : Decidable (LeasesHold j w) :=
  decidable_of_iff (∀ p ∈ w.log.map Entry.pid, ∀ k ∈ holding p w.log, k.jobId = j → w.clock ≤ k.leaseUntil)
    (forall_track (Q := fun _ (held : Option TickClaim) => ∀ k ∈ held, k.jobId = j → w.clock ≤ k.leaseUntil)
      (by simp)).symm

/-- A step that does not replace or delete the row `j`. -/
def Untouched (j : String) (l : SystemLabel) : Prop := NotUpserted j l ∧ NotDeleted j l

instance (j : String) (l : SystemLabel) : Decidable (Untouched j l) :=
  inferInstanceAs (Decidable (NotUpserted j l ∧ NotDeleted j l))

/-- Whoever holds the tick claim of `j` is the only holder, and the row says so. -/
def HoldsAlone (j : String) (w : World) (row : Job) : Prop :=
  ∀ p k, holding p w.log = some k → k.jobId = j →
    row.claimLeaseId = some k.claimId ∧ row.claimLeaseUntil = some k.leaseUntil ∧
      ∀ q k', holding q w.log = some k' → k'.jobId = j → q = p

/-- An untouched row stays, changed in place. -/
theorem Untouched.job {j : String} {p : Nat} {oracle : Oracle} {w w' : World} {op : Op} {r : Ans op} {row : Job}
    (untouched : Untouched j (.call p op r)) (ran : perform p oracle w op = some (r, w')) (stored : w.job j = some row) :
    (jobWrite j op r = none ∧ w'.job j = some row) ∨
    (∃ write stamp, jobWrite j op r = some write ∧ write.Allowed row ∧ w'.job j = some (write.onRow stamp row)) := by
  have step := perform_job ran j
  rw [stored] at step
  cases wrote : jobWrite j op r with
  | none =>
    rw [wrote] at step
    generalize w'.job j = after at step
    cases step
    exact .inl ⟨rfl, rfl⟩
  | some write =>
    rw [wrote] at step
    generalize w'.job j = after at step
    cases step with
    | put same =>
      cases jobWrite_wrote wrote
      exact absurd same (untouched.1 _ rfl)
    | drop =>
      cases jobWrite_wrote wrote
      exact absurd rfl untouched.2
    | write stamp allowed => exact .inr ⟨write, stamp, rfl, allowed, rfl⟩

/-- A call that changes the row does so in place. -/
theorem Untouched.written {j : String} {p : Nat} {oracle : Oracle} {w w' : World} {op : Op} {r : Ans op} {row row' : Job}
    {write : JobWrite} (untouched : Untouched j (.call p op r)) (ran : perform p oracle w op = some (r, w'))
    (stored : w.job j = some row) (stored' : w'.job j = some row') (wrote : jobWrite j op r = some write) :
    write.Allowed row ∧ ∃ stamp, row' = write.onRow stamp row := by
  rcases untouched.job ran stored with ⟨none_, -⟩ | ⟨write', stamp, wrote', allowed, changed⟩
  · rw [none_] at wrote
    cases wrote
  · rw [wrote'] at wrote
    cases wrote
    rw [stored'] at changed
    cases changed
    exact ⟨allowed, stamp, rfl⟩

/-- The holders of `j` after a call: those before it, and the caller if it has just claimed `j`. -/
theorem holding_cases {j : String} {p q : Nat} {oracle : Oracle} {w w' : World} {op : Op} {r : Ans op} {k : TickClaim}
    (ran : perform p oracle w op = some (r, w')) (after : holding q w'.log = some k) (onJob : k.jobId = j) :
    holding q w.log = some k ∨ (q = p ∧ jobWrite j op r = some (.claimTick k.claimId k.now k.ttl)) := by
  by_cases own : p = q
  · subst own
    rw [holding, track_own_call ran] at after
    rcases claimAfter_cases after with before | wrote
    · exact .inl before
    · exact .inr ⟨rfl, onJob ▸ wrote⟩
  · rw [holding, track_other_call ran own] at after
    exact .inl after

/-- A row whose claim fields are unchanged, with no new holder. -/
theorem HoldsAlone.same {j : String} {w w' : World} {row row' : Job} (alone : HoldsAlone j w row)
    (id : row'.claimLeaseId = row.claimLeaseId) (until_ : row'.claimLeaseUntil = row.claimLeaseUntil)
    (before : ∀ q k, holding q w'.log = some k → k.jobId = j → holding q w.log = some k) : HoldsAlone j w' row' := by
  intro q k after onJob
  obtain ⟨isId, isUntil, only⟩ := alone q k (before q k after onJob) onJob
  exact ⟨id.trans isId, until_.trans isUntil,
    fun q' k' after' onJob' => only q' k' (before q' k' after' onJob') onJob'⟩

/-- A stored lease that has ended by a reading not ahead of the clock is nobody's. -/
theorem HoldsAlone.nobody {j : String} {w : World} {row : Job} {now : DateTime} (alone : HoldsAlone j w row)
    (leases : LeasesHold j w) (read : now ≤ w.clock) (ended : ∀ u, row.claimLeaseUntil = some u → u < now) (q : Nat)
    (k : TickClaim) (held : holding q w.log = some k) : k.jobId ≠ j := by
  intro onJob
  have before := ended _ (alone q k held onJob).2.1
  have inTime := leases q k held onJob
  exact lt_irrefl _ (lt_of_lt_of_le before (read.trans inTime))

/-- **One call keeps tick claims exclusive**, if claims are taken with a reading that is not ahead of
the clock and the claim of `j` is only given up by its holder or when none is stored. -/
theorem HoldsAlone.step {j : String} {p : Nat} {oracle : Oracle} {w w' : World} {op : Op} {r : Ans op} {row row' : Job}
    (alone : HoldsAlone j w row) (leases : LeasesHold j w) (untouched : Untouched j (.call p op r))
    (ran : perform p oracle w op = some (r, w')) (stored : w.job j = some row) (stored' : w'.job j = some row')
    (read : ∀ claimId now ttl, Wrote j op r (.claimTick claimId now ttl) → now ≤ w.clock)
    (gives : (Wrote j op r .releaseTick ∨ ∃ next, Wrote j op r (.persist next)) →
      (∃ k, holding p w.log = some k ∧ k.jobId = j) ∨ row.claimLeaseId = none) :
    HoldsAlone j w' row' := by
  have kept : (∀ k : TickClaim, jobWrite j op r ≠ some (.claimTick k.claimId k.now k.ttl)) →
      ∀ q k, holding q w'.log = some k → k.jobId = j → holding q w.log = some k := by
    intro noClaim q k after onJob
    rcases holding_cases ran after onJob with before | ⟨-, wrote⟩
    · exact before
    · exact absurd wrote (noClaim k)
  rcases untouched.job ran stored with ⟨none_, same⟩ | ⟨write, stamp, wrote, allowed, changed⟩
  · rw [stored'] at same
    cases same
    exact alone.same rfl rfl (kept fun k wrote => by rw [none_] at wrote; cases wrote)
  · rw [stored'] at changed
    cases changed
    have call := jobWrite_wrote wrote
    cases write with
    | claimTick claimId now ttl =>
      -- a stored lease would have to lie both before and after the clock
      have nobody := alone.nobody leases (read claimId now ttl call) allowed.2
      have mine : ∀ q k, holding q w'.log = some k → k.jobId = j → q = p ∧ k = ⟨j, claimId, now, ttl⟩ := by
        intro q k after onJob
        rcases holding_cases ran after onJob with before | ⟨rfl, wrote'⟩
        · exact absurd onJob (nobody q k before)
        · rw [wrote] at wrote'
          cases wrote'
          exact ⟨rfl, by rw [← onJob]⟩
      intro q k after onJob
      obtain ⟨rfl, rfl⟩ := mine q k after onJob
      exact ⟨rfl, rfl, fun q' k' after' onJob' => (mine q' k' after' onJob').1⟩
    | releaseTick | persist next =>
      have gone : holding p w'.log = none := by
        rw [holding, track_own_call ran]
        cases call
        rfl
      intro q k after onJob
      have before := kept (fun k wrote' => by rw [wrote] at wrote'; cases wrote') q k after onJob
      rcases gives (by first | exact .inl call | exact .inr ⟨_, call⟩) with ⟨k', held, onJob'⟩ | free
      · obtain rfl := (alone q k before onJob).2.2 p k' held onJob'
        rw [gone] at after
        cases after
      · rw [(alone q k before onJob).1] at free
        cases free
    | put job => exact allowed.elim
    | drop => exact allowed.elim
    | releaseOnce claimedBy =>
      refine alone.same ?_ ?_ (kept fun k wrote' => by rw [wrote] at wrote'; cases wrote')
      all_goals simp only [JobWrite.onRow]; split <;> rfl
    | enable _ | claimOnce _ _ _ | complete _ =>
      exact alone.same rfl rfl (kept fun k wrote' => by rw [wrote] at wrote'; cases wrote')

/-! ## Exclusivity over whole runs -/

/-- The claim a task took last, after one of its calls. -/
def lastClaimAfter (e : LogEntry) (last : Option TickClaim) : Option TickClaim :=
  match e with
  | ⟨_, _, .store (.claimJobForTick jobId claimId now ttl), .ok true⟩ => some ⟨jobId, claimId, now, ttl⟩
  | _ => last

/-- The claim a task took last, whether or not it has given it up. -/
def lastClaim (p : Nat) (log : Log) : Option TickClaim := track lastClaimAfter none p log

/-- The claim of a task that has yet to decide, after one of its calls. -/
def decidingAfter (e : LogEntry) (held : Option TickClaim) : Option TickClaim :=
  match e with
  | ⟨_, _, .store (.createRun _), .ok ()⟩ => none
  | e => claimAfter e held

/-- The claim a task holds while it has neither created a run nor given the claim up. -/
def deciding (p : Nat) (log : Log) : Option TickClaim := track decidingAfter none p log

/-- A release comes before the lease that the task took has run out. -/
def ReleasedInTime (j : String) (l : SystemLabel) (w : World) : Prop :=
  ∀ p ∈ caller l, released l = some j → ∀ k ∈ lastClaim p w.log, w.clock ≤ k.leaseUntil

instance (j : String) (l : SystemLabel) (w : World) : Decidable (ReleasedInTime j l w) :=
  inferInstanceAs (Decidable (∀ p ∈ caller l, _))

/-- Steps in which the job `j` is neither upserted nor deleted and no tick lease on it runs out. -/
def TickSetting (j : String) (l : SystemLabel) (w w' : World) : Prop :=
  Untouched j l ∧ LeasesHold j w' ∧ ReleasedInTime j l w

instance (j : String) (l : SystemLabel) (w w' : World) : Decidable (TickSetting j l w w') :=
  inferInstanceAs (Decidable (_ ∧ _))

/-- A task that has already given up its claim (`skip_due_job` releases after it persists) releases only
when no claim is stored. -/
def TrailingReleaseFree (j : String) (l : SystemLabel) (w : World) : Prop :=
  ∀ p ∈ caller l, released l = some j → holding p w.log = none → ∀ row ∈ w.job j, row.claimLeaseId = none

instance (j : String) (l : SystemLabel) (w : World) : Decidable (TrailingReleaseFree j l w) :=
  inferInstanceAs (Decidable (∀ p ∈ caller l, _))

/-- At most one task is between its claim of `j` and its decision, and the stored claim is its own. -/
def DecidesAlone (j : String) (w : World) : Prop :=
  ∀ p k, deciding p w.log = some k → k.jobId = j →
    (∃ row, w.job j = some row ∧ row.claimLeaseId = some k.claimId) ∧
      ∀ q k', deciding q w.log = some k' → k'.jobId = j → q = p

/-- A deciding task holds its claim. -/
theorem holding_of_deciding {p : Nat} {log : Log} {k : TickClaim} (undecided : deciding p log = some k) :
    holding p log = some k := by
  induction log with
  | nil => cases undecided
  | cons e log ih =>
    by_cases own : e.pid = p
    · rw [deciding, track_own own] at undecided
      rw [holding, track_own own]
      unfold decidingAfter at undecided
      split at undecided
      · cases undecided
      · unfold claimAfter at undecided ⊢
        split at undecided
        · exact undecided
        · cases undecided
        · cases undecided
        · exact ih undecided
    · rw [deciding, track_other own] at undecided
      rw [holding, track_other own]
      exact ih undecided

/-- What every reachable world satisfies: the row is there, its claim is its holder's, and leases hold. -/
structure ExclusiveInv (j : String) (w : World) : Prop where
  stored : ∃ row, w.job j = some row ∧ HoldsAlone j w row
  leases : LeasesHold j w

/-- The claim of `j` is given up by its holder, or by a trailing release that finds none. -/
theorem HoldsAlone.move {host : Host} {j : String} {p : Nat} {oracle : Oracle} {w w' : World} {φ φ' : Phase} {op : Op}
    {r : Ans op} {row row' : Job} (alone : HoldsAlone j w row) (leases : LeasesHold j w) (linked : Linked p φ w)
    (move : Move host φ op r φ') (ran : perform p oracle w op = some (r, w')) (untouched : Untouched j (.call p op r))
    (free : TrailingReleaseFree j (.call p op r) w) (stored : w.job j = some row) (stored' : w'.job j = some row') :
    HoldsAlone j w' row' := by
  refine alone.step leases untouched ran stored stored' ?_ ?_
  · intro claimId now ttl wrote
    obtain ⟨b, rest, rfl, -, -⟩ := move.of_claimTick wrote
    exact linked.reads now rfl
  · rintro (released | ⟨next, persisted⟩)
    · obtain ⟨b, k, onJob, rfl | rfl, -⟩ := move.of_releaseTick released
      · exact .inl ⟨k, linked.holds, onJob⟩
      · cases released
        exact .inr (free p rfl rfl linked.holds row stored)
    · obtain ⟨b, k, job, onJob, -, ⟨rfl, -⟩ | ⟨rfl, -⟩⟩ := move.of_persist persisted
      · exact .inl ⟨k, linked.holds, onJob⟩
      · exact .inl ⟨k, linked.holds, onJob⟩

theorem ExclusiveInv.step {host : Host} {j : String} {p : Nat} {oracle : Oracle} {w w' : World} {φ φ' : Phase}
    {op : Op} {r : Ans op} (inv : ExclusiveInv j w) (linked : Linked p φ w) (move : Move host φ op r φ')
    (ran : perform p oracle w op = some (r, w')) (setting : TickSetting j (.call p op r) w w')
    (free : TrailingReleaseFree j (.call p op r) w) : ExclusiveInv j w' := by
  obtain ⟨row, stored, alone⟩ := inv.stored
  obtain ⟨row', stored'⟩ := setting.1.2.present ran stored
  exact ⟨⟨row', stored', alone.move inv.leases linked move ran setting.1 free stored stored'⟩, setting.2.1⟩

/-- The rules behind exclusivity: a task's assertion is its link, a step's guarantee the step itself. -/
def exclusiveRules (host : Host) (j : String) :
    Rules (system host) (protocol host) fun l w w' => TickSetting j l w w' ∧ TrailingReleaseFree j l w where
  inv := ExclusiveInv j
  guar q w w' := ∃ oracle op r, perform q oracle w op = some (r, w')
  idle p w := holding p w.log = none
  holds := Linked
  start _ idle _ := .start idle
  finish _ ended linked := linked.finish ended
  own inv linked move ran allowed :=
    ⟨inv.step linked move ran allowed.1 allowed.2, ⟨_, _, _, ran⟩, linked.own move ran⟩
  other apart _ _ := fun ⟨_, _, _, ran⟩ linked => linked.other ran apart
  otherIdle apart _ _ := fun ⟨_, _, _, ran⟩ idle => by
    rw [holding, track_other_call ran (Ne.symm apart)]; exact idle
  drift inv drifts allowed := by
    obtain ⟨-, jobs, -, log⟩ := drift_cases drifts
    obtain ⟨row, stored, alone⟩ := inv.stored
    refine ⟨⟨⟨row, by rw [jobs]; exact stored, ?_⟩, allowed.1.2.1⟩, fun _ _ linked => linked.drift drifts, ?_⟩
    · exact alone.same rfl rfl fun q k after _ => by rwa [log] at after
    · intro p idle
      rw [log]
      exact idle

/-- **Tick claims are exclusive** in every run in which no trailing release finds a claim. -/
theorem tick_claims_exclusive (host : Host) (j : String) {s : State} {row : Job} {c : SystemConfig}
    (stored : s.store.jobs.lookup j = some row)
    (reach : (system host).Reach (fun l w w' => TickSetting j l w w' ∧ TrailingReleaseFree j l w)
      (.idle (.fresh s)) c) : DecidesAlone j c.world := by
  have start : ExclusiveInv j (.fresh s) :=
    ⟨⟨row, stored, fun p k held => by cases held⟩, fun p k held => by cases held⟩
  have standing := (exclusiveRules host j).sound (protocol_governs host)
    (Rules.Standing.initial (exclusiveRules host j) start fun _ => rfl) reach
  obtain ⟨row', stored', alone⟩ := standing.inv.stored
  intro p k undecided onJob
  obtain ⟨id, -, only⟩ := alone p k (holding_of_deciding undecided) onJob
  exact ⟨⟨row', stored', id⟩, fun q k' undecided' => only q k' (holding_of_deciding undecided')⟩

/-- A cron job that is overdue by more than its misfire window. -/
def overdueJob : Job :=
  { Job.new "j" 0 "nightly" "noop" with
    cronExpr := some "* * * * *"
    partitionHash := some 0
    misfirePolicyJson := MisfirePolicy.toJson ⟨false, 60⟩
    nextRunAt := some (seconds 60) }

/-- One coordinator skips the job and another claims it after the first has released it. -/
theorem tick_claims_exclusive_skip :
    ∃ c, (system .simple).Reach (fun l w w' => TickSetting "j" l w w' ∧ TrailingReleaseFree "j" l w)
        (.idle (.fresh (.single overdueJob (seconds 1000)))) c ∧
      (deciding 1 c.world.log).isSome = true ∧ DecidesAlone "j" c.world := by
  obtain ⟨c, reach, holds⟩ := exists_run .simple (fun l w w' => TickSetting "j" l w w' ∧ TrailingReleaseFree "j" l w)
    (.single overdueJob (seconds 1000))
    (startTick 0 "a" false ++ startTick 1 "b" false ++ claimNext 0 "u0" ++ calls 0 4 ++ claimNext 1 "u1")
    (fun c => (deciding 1 c.world.log).isSome) (by decide +kernel)
  exact ⟨c, reach, holds, tick_claims_exclusive .simple "j" rfl reach⟩

/-- Three coordinators with the job on their due lists. The first skips it; the second claims it before
the first one's trailing release, which clears that claim; so the third claims it too. -/
theorem tick_claims_overlap :
    ∃ c, (system .simple).Reach (TickSetting "j") (.idle (.fresh (.single overdueJob (seconds 1000)))) c ∧
      ¬ DecidesAlone "j" c.world := by
  obtain ⟨c, reach, both⟩ := exists_run .simple (TickSetting "j") (.single overdueJob (seconds 1000))
    (startTick 0 "a" false ++ startTick 1 "b" false ++ startTick 2 "c" false ++
      claimNext 0 "u0" ++ calls 0 3 ++ claimNext 1 "u1" ++ calls 0 1 ++ claimNext 2 "u2")
    (fun c => (deciding 1 c.world.log).any (·.jobId = "j") && (deciding 2 c.world.log).any (·.jobId = "j"))
    (by decide +kernel)
  refine ⟨c, reach, fun alone => ?_⟩
  simp only [Bool.and_eq_true, Option.any_eq_true, decide_eq_true_eq] at both
  obtain ⟨⟨k, first, onJob⟩, k', second, onJob'⟩ := both
  cases (alone 1 k first onJob).2 2 k' second onJob'

end Chronon
