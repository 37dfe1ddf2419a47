import Chronon.Tick.Exclusive

/-!
# Superseded tick claims

What the claim fields and the fire time of a row would be if
`release_job_tick_claim` and `persist_post_tick_job_state` took effect only
for a coordinator whose claim has not been superseded (`fenced`). The store
identifies the caller of neither, so the stored row is the fenced one exactly
as long as superseded callers find nothing to change
(`fencedThroughout_iff_spare`). A lease keeps others away while it lasts; so
the row is fenced if whoever lets its lease run out gives the claim up before
somebody else takes it (`tick_claims_fenced`).
-/

namespace Chronon
set_option autoImplicit false

open Concurrent

/-- The fields a tick claim protects, and the task that claimed last. -/
structure FencedRow where
  owner : Option Nat
  claimLeaseId : Option String
  claimLeaseUntil : Option DateTime
  nextRunAt : Option DateTime
  deriving DecidableEq

namespace FencedRow

def ofRow (owner : Option Nat) (row : Job) : FencedRow := ⟨owner, row.claimLeaseId, row.claimLeaseUntil, row.nextRunAt⟩

/-- Another task has claimed since `p` did. -/
def superseded (f : FencedRow) (p : Nat) : Bool := f.owner.any (· != p)

/-- A write by `p`, fenced. -/
def write (p : Nat) (f : FencedRow) : JobWrite → FencedRow
  | .claimTick claimId now ttl => ⟨some p, some claimId, some (now + seconds ttl), f.nextRunAt⟩
  | .releaseTick => if f.superseded p then f else ⟨f.owner, none, none, f.nextRunAt⟩
  | .persist next => if f.superseded p then f else ⟨f.owner, none, none, next⟩
  | .put job => .ofRow f.owner job
  | _ => f

end FencedRow

/-- The fenced row after a history that started in `s`. -/
def fenced (j : String) (s : State) : Log → FencedRow
  | [] => (s.store.jobs.lookup j).elim ⟨none, none, none, none⟩ (.ofRow none)
  | e :: older =>
    match jobWrite j e.op e.ans with
    | some write => (fenced j s older).write e.pid write
    | none => fenced j s older

/-- The stored row, if there is one, is the fenced one. -/
def Agrees (row : Option Job) (f : FencedRow) : Prop := ∀ r ∈ row, FencedRow.ofRow f.owner r = f

instance (row : Option Job) (f : FencedRow) : Decidable (Agrees row f) := inferInstanceAs (Decidable (∀ r ∈ row, _))

/-- Every call of the history found the row fenced. -/
def FencedBefore (j : String) (s : State) : Log → Prop
  | [] => True
  | e :: older => Agrees (e.found.store.jobs.lookup j) (fenced j s older) ∧ FencedBefore j s older

/-- **Tick claims are fenced**: the row is the fenced one now and was at every call. -/
def FencedThroughout (j : String) (s : State) (w : World) : Prop :=
  Agrees (w.job j) (fenced j s w.log) ∧ FencedBefore j s w.log

/-- What a superseded writer must have found for its write to change nothing. -/
def FencedRow.Spared (f : FencedRow) (p : Nat) (row : Option Job) : JobWrite → Prop
  | .releaseTick => f.superseded p → ∀ r ∈ row, r.claimLeaseId = none ∧ r.claimLeaseUntil = none
  | .persist next => f.superseded p →
      ∀ r ∈ row, r.claimLeaseId = none ∧ r.claimLeaseUntil = none ∧ r.nextRunAt = next
  | _ => True

instance (f : FencedRow) (p : Nat) (row : Option Job) : (write : JobWrite) → Decidable (f.Spared p row write)
  | .releaseTick => inferInstanceAs (Decidable (f.superseded p → _))
  | .persist _ => inferInstanceAs (Decidable (f.superseded p → _))
  | .put _ | .drop | .enable _ | .claimOnce _ _ _ | .complete _ | .releaseOnce _ | .claimTick _ _ _ => isTrue trivial

/-- Every release and every post-tick write by a superseded coordinator found no claim on the row, and
the latter the fire time it was about to store. -/
def SupersededSpare (j : String) (s : State) : Log → Prop
  | [] => True
  | e :: older =>
    (∀ write ∈ jobWrite j e.op e.ans, (fenced j s older).Spared e.pid (e.found.store.jobs.lookup j) write) ∧
      SupersededSpare j s older

instance SupersededSpare.decide (j : String) (s : State) : (log : Log) → Decidable (SupersededSpare j s log)
  | [] => isTrue trivial
  | e :: older =>
    have := SupersededSpare.decide j s older
    inferInstanceAs (Decidable ((∀ write ∈ jobWrite j e.op e.ans, _) ∧ SupersededSpare j s older))

/-- A write in place leaves the stored row fenced if and only if it spares what a superseded writer must. -/
theorem FencedRow.write_onRow {f : FencedRow} {row : Job} (agrees : ofRow f.owner row = f) (p : Nat) (stamp : DateTime)
    (write : JobWrite) (allowed : write.Allowed row) :
    ofRow (f.write p write).owner (write.onRow stamp row) = f.write p write ↔ f.Spared p (some row) write := by
  obtain ⟨owner, id, until_, due⟩ := f
  simp only [ofRow, FencedRow.mk.injEq, true_and] at agrees
  obtain ⟨rfl, rfl, rfl⟩ := agrees
  cases write with
  | releaseTick =>
    simp only [FencedRow.write]
    split
    · rename_i late
      constructor
      · rintro same - r ⟨⟩
        simp only [ofRow, JobWrite.onRow, FencedRow.mk.injEq] at same
        exact ⟨same.2.1.symm, same.2.2.1.symm⟩
      · intro spared
        obtain ⟨id, until_⟩ := spared late row rfl
        simp only [ofRow, JobWrite.onRow, id, until_]
    · rename_i own
      exact ⟨fun _ late => absurd late own, fun _ => rfl⟩
  | persist next =>
    simp only [FencedRow.write]
    split
    · rename_i late
      constructor
      · rintro same - r ⟨⟩
        simp only [ofRow, JobWrite.onRow, FencedRow.mk.injEq] at same
        exact ⟨same.2.1.symm, same.2.2.1.symm, same.2.2.2.symm⟩
      · intro spared
        obtain ⟨id, until_, due⟩ := spared late row rfl
        simp only [ofRow, JobWrite.onRow, id, until_, due]
    · rename_i own
      exact ⟨fun _ late => absurd late own, fun _ => rfl⟩
  | claimTick claimId now ttl => exact ⟨fun _ => trivial, fun _ => rfl⟩
  | releaseOnce claimedBy =>
    refine ⟨fun _ => trivial, fun _ => ?_⟩
    simp only [JobWrite.onRow, FencedRow.write]
    split <;> rfl
  | put job => exact allowed.elim
  | drop => exact allowed.elim
  | enable _ | claimOnce _ _ _ | complete _ => exact ⟨fun _ => trivial, fun _ => rfl⟩

section Step

variable {host : Host} {j : String} {s : State} {p : Nat} {oracle : Oracle} {w w' : World} {op : Op} {r : Ans op}

/-- One call keeps the row fenced if and only if it spares what it must. -/
theorem Agrees.step (agrees : Agrees (w.job j) (fenced j s w.log)) (ran : perform p oracle w op = some (r, w')) :
    Agrees (w'.job j) (fenced j s w'.log) ↔
      ∀ write ∈ jobWrite j op r, (fenced j s w.log).Spared p (w.job j) write := by
  have step := perform_job ran j
  rw [(perform_cases ran).2]
  simp only [fenced]
  generalize w.job j = before at agrees step ⊢
  generalize w'.job j = after at step ⊢
  generalize jobWrite j op r = change at step ⊢
  cases step with
  | same => exact ⟨fun _ _ none_ => (by cases none_), fun _ => agrees⟩
  | put _ =>
    refine ⟨?_, ?_⟩
    · rintro - write ⟨⟩
      trivial
    · rintro - row ⟨⟩
      rfl
  | drop =>
    refine ⟨?_, fun _ _ none_ => (by cases none_)⟩
    rintro - write ⟨⟩
    trivial
  | write stamp allowed =>
    rename_i write row
    have exact_ := FencedRow.write_onRow (agrees row rfl) p stamp write allowed
    constructor
    · rintro same write' ⟨⟩
      exact exact_.mp (same _ rfl)
    · rintro spared row' ⟨⟩
      exact exact_.mpr (spared write rfl)

end Step

/-- In every run the row is fenced throughout if and only if no superseded coordinator had anything to
change. -/
theorem fencedThroughout_iff_spare (host : Host) (j : String) {s : State} {c : SystemConfig}
    (reach : (system host).Reach (fun _ _ _ => True) (.idle (.fresh s)) c) :
    FencedThroughout j s c.world ↔ SupersededSpare j s c.world.log := by
  induction reach with
  | refl =>
    refine ⟨fun _ => trivial, fun _ => ⟨fun row stored => ?_, trivial⟩⟩
    have stored : s.store.jobs.lookup j = some row := stored
    show FencedRow.ofRow (fenced j s []).owner row = fenced j s []
    simp only [fenced, stored, Option.elim_some]
    rfl
  | @step c₁ _ _ _ _ moves _ ih =>
    obtain ⟨p, proc, rfl, -, rfl⟩ | ⟨p, oracle, op, r, k, w', rfl, -, ran, rfl⟩ | ⟨e, w', rfl, drifts, rfl⟩ :=
      Machine.step_cases moves
    · exact ih
    · have log := (perform_cases ran).2
      have whole : FencedThroughout j s w' ↔
          Agrees (w'.job j) (fenced j s w'.log) ∧ FencedThroughout j s c₁.world := by
        rw [FencedThroughout, log]
        rfl
      have spare : SupersededSpare j s w'.log ↔
          (∀ write ∈ jobWrite j op r, (fenced j s c₁.world.log).Spared p (c₁.world.job j) write) ∧
            SupersededSpare j s c₁.world.log := by
        rw [log]
        rfl
      rw [whole, spare, ih]
      refine and_congr_left fun before => ?_
      exact Agrees.step (ih.mpr before).1 ran
    · obtain ⟨-, jobs, -, log⟩ := drift_cases drifts
      simp only [FencedThroughout, jobs, log]
      exact ih

/-! ## Whose writes come in time -/

/-- The task that claimed the job `j` last. -/
def lastClaimer (j : String) : Log → Option Nat
  | [] => none
  | e :: older =>
    match jobWrite j e.op e.ans with
    | some (.claimTick _ _ _) => some e.pid
    | _ => lastClaimer j older

/-- The fenced row belongs to whoever claimed the job last. -/
theorem fenced_owner (j : String) (s : State) (log : Log) : (fenced j s log).owner = lastClaimer j log := by
  induction log with
  | nil =>
    simp only [fenced, lastClaimer]
    cases s.store.jobs.lookup j <;> rfl
  | cons e older ih =>
    simp only [fenced, lastClaimer]
    cases jobWrite j e.op e.ans with
    | none => exact ih
    | some write =>
      cases write with
      | claimTick claimId now ttl => rfl
      | releaseTick | persist next =>
        simp only [FencedRow.write]
        split <;> exact ih
      | _ => exact ih

/-- Task `p` holds a claim on `j` whose lease has not ended. -/
def HoldsLease (j : String) (p : Nat) (w : World) : Prop :=
  ∃ k ∈ holding p w.log, k.jobId = j ∧ w.clock ≤ k.leaseUntil

instance (j : String) (p : Nat) (w : World) : Decidable (HoldsLease j p w) :=
  inferInstanceAs (Decidable (∃ k ∈ holding p w.log, _))

/-- A release or a post-tick write on `j` comes within the lease of the claim its caller holds or, where
that lease has ended or the claim has been given up, before anybody else has claimed the job. -/
def BeforeTakeover (j : String) (l : SystemLabel) (w : World) : Prop :=
  ∀ p ∈ caller l, released l = some j ∨ persisted l = some j → HoldsLease j p w ∨ lastClaimer j w.log = some p

instance (j : String) (l : SystemLabel) (w : World) : Decidable (BeforeTakeover j l w) :=
  inferInstanceAs (Decidable (∀ p ∈ caller l, _))

/-- Leases protect claims: a holder whose lease has not ended has claimed last, and the row carries its
lease. -/
def LeasesProtect (j : String) (w : World) (row : Job) : Prop :=
  ∀ p k, holding p w.log = some k → k.jobId = j →
    k.leaseUntil < w.clock ∨ (lastClaimer j w.log = some p ∧ row.claimLeaseUntil = some k.leaseUntil)

section Protect

variable {host : Host} {j : String} {s : State} {p : Nat} {oracle : Oracle} {w w' : World} {op : Op} {r : Ans op}
  {row row' : Job}

/-- Whoever releases the job, or writes to it after its tick, has claimed it last. -/
theorem LeasesProtect.last (protect : LeasesProtect j w row) (turn : BeforeTakeover j (.call p op r) w)
    (gives : Wrote j op r .releaseTick ∨ ∃ next, Wrote j op r (.persist next)) : lastClaimer j w.log = some p := by
  have named : released (.call p op r) = some j ∨ persisted (.call p op r) = some j := by
    rcases gives with released | ⟨next, persisted⟩
    · cases released
      exact .inl rfl
    · cases persisted
      exact .inr rfl
  rcases turn p rfl named with ⟨k, held, onJob, inTime⟩ | last
  · rcases protect p k held onJob with ended | ⟨last, -⟩
    · exact absurd inTime (not_le.mpr ended)
    · exact last
  · exact last

/-- After a call that is no claim, the same task has claimed last. -/
theorem lastClaimer_same (ran : perform p oracle w op = some (r, w'))
    (noClaim : ∀ claimId now ttl, jobWrite j op r ≠ some (.claimTick claimId now ttl)) :
    lastClaimer j w'.log = lastClaimer j w.log := by
  rw [(perform_cases ran).2, lastClaimer]
  split
  · rename_i claimId now ttl wrote
    exact absurd wrote (noClaim claimId now ttl)
  · rfl

/-- A call that neither claims the job nor touches its lease. -/
theorem LeasesProtect.same (protect : LeasesProtect j w row) (until_ : row'.claimLeaseUntil = row.claimLeaseUntil)
    (ran : perform p oracle w op = some (r, w'))
    (noClaim : ∀ claimId now ttl, jobWrite j op r ≠ some (.claimTick claimId now ttl)) : LeasesProtect j w' row' := by
  intro q k after onJob
  rw [perform_clock ran, lastClaimer_same ran noClaim, until_]
  rcases holding_cases ran after onJob with before | ⟨-, wrote⟩
  · exact protect q k before onJob
  · exact absurd wrote (noClaim _ _ _)

/-- A claim: it finds the leases of all other holders ended. -/
theorem LeasesProtect.claim (protect : LeasesProtect j w row) {claimId : String} {now : DateTime} {ttl : Int}
    {stamp : DateTime} (ran : perform p oracle w op = some (r, w'))
    (wrote : jobWrite j op r = some (.claimTick claimId now ttl)) (read : now ≤ w.clock)
    (allowed : (JobWrite.claimTick claimId now ttl).Allowed row) :
    LeasesProtect j w' ((JobWrite.claimTick claimId now ttl).onRow stamp row) := by
  have mine : lastClaimer j w'.log = some p := by
    rw [(perform_cases ran).2, lastClaimer]
    simp only [wrote]
  have ended : ∀ q k, holding q w.log = some k → k.jobId = j → k.leaseUntil < w'.clock := by
    intro q k before onJob
    rw [perform_clock ran]
    rcases protect q k before onJob with ended | ⟨-, stored⟩
    · exact ended
    · exact lt_of_lt_of_le (allowed.2 _ stored) read
  intro q k after onJob
  rcases holding_cases ran after onJob with before | ⟨rfl, wrote'⟩
  · exact .inl (ended q k before onJob)
  · rw [wrote] at wrote'
    cases wrote'
    exact .inr ⟨mine, rfl⟩

/-- A claim given up by the task that took it last. -/
theorem LeasesProtect.give (protect : LeasesProtect j w row) (ran : perform p oracle w op = some (r, w'))
    (last : lastClaimer j w.log = some p)
    (gives : Wrote j op r .releaseTick ∨ ∃ next, Wrote j op r (.persist next)) : LeasesProtect j w' row' := by
  have gone : holding p w'.log = none := by
    rw [holding, track_own_call ran]
    rcases gives with released | ⟨next, persisted⟩
    · cases released
      rfl
    · cases persisted
      rfl
  have noClaim : ∀ claimId now ttl, jobWrite j op r ≠ some (.claimTick claimId now ttl) := by
    intro claimId now ttl wrote
    have claims := jobWrite_wrote wrote
    rcases gives with released | ⟨next, persisted⟩
    · cases released
      cases claims
    · cases persisted
      cases claims
  intro q k after onJob
  rcases holding_cases ran after onJob with before | ⟨-, wrote⟩
  · rw [perform_clock ran]
    rcases protect q k before onJob with ended | ⟨last', -⟩
    · exact .inl ended
    · rw [last] at last'
      cases last'
      rw [gone] at after
      cases after
  · exact absurd wrote (noClaim _ _ _)

/-- **One call keeps claims protected**, if they are taken with a reading that is not ahead of the clock and
given up before anybody else claims. -/
theorem LeasesProtect.step (protect : LeasesProtect j w row) (untouched : Untouched j (.call p op r))
    (turn : BeforeTakeover j (.call p op r) w) (ran : perform p oracle w op = some (r, w'))
    (read : ∀ claimId now ttl, Wrote j op r (.claimTick claimId now ttl) → now ≤ w.clock)
    (stored : w.job j = some row) (stored' : w'.job j = some row') : LeasesProtect j w' row' := by
  rcases untouched.job ran stored with ⟨none_, same⟩ | ⟨write, stamp, wrote, allowed, changed⟩
  · rw [stored'] at same
    cases same
    exact protect.same rfl ran fun _ _ _ wrote => by rw [none_] at wrote; cases wrote
  · rw [stored'] at changed
    cases changed
    have call := jobWrite_wrote wrote
    cases write with
    | claimTick claimId now ttl => exact protect.claim ran wrote (read claimId now ttl call) allowed
    | releaseTick => exact protect.give ran (protect.last turn (.inl call)) (.inl call)
    | persist next => exact protect.give ran (protect.last turn (.inr ⟨next, call⟩)) (.inr ⟨next, call⟩)
    | put job => exact allowed.elim
    | drop => exact allowed.elim
    | releaseOnce claimedBy =>
      refine protect.same ?_ ran fun _ _ _ wrote' => by rw [wrote] at wrote'; cases wrote'
      simp only [JobWrite.onRow]
      split <;> rfl
    | enable _ | claimOnce _ _ _ | complete _ =>
      exact protect.same rfl ran fun _ _ _ wrote' => by rw [wrote] at wrote'; cases wrote'

/-- A row that is not there is neither claimed nor released. -/
theorem Untouched.absent (untouched : Untouched j (.call p op r)) (ran : perform p oracle w op = some (r, w'))
    (missing : w.job j = none) : w'.job j = none := by
  have step := perform_job ran j
  rw [missing] at step
  cases wrote : jobWrite j op r with
  | none =>
    rw [wrote] at step
    generalize w'.job j = after at step
    cases step
    rfl
  | some write =>
    rw [wrote] at step
    generalize w'.job j = after at step
    cases step with
    | put same =>
      cases jobWrite_wrote wrote
      exact absurd same (untouched.1 _ rfl)
    | drop => rfl

/-- A write by the task that claimed last needs to spare nothing. -/
theorem FencedRow.Spared.of_last {write : JobWrite}
    (last : Wrote j op r .releaseTick ∨ (∃ next, Wrote j op r (.persist next)) → lastClaimer j w.log = some p)
    (wrote : jobWrite j op r = some write) : (fenced j s w.log).Spared p (w.job j) write := by
  have call := jobWrite_wrote wrote
  have own : lastClaimer j w.log = some p → ¬ (fenced j s w.log).superseded p = true := by
    intro isLast
    simp [FencedRow.superseded, fenced_owner, isLast]
  cases write with
  | releaseTick => exact fun late => absurd late (own (last (.inl call)))
  | persist next => exact fun late => absurd late (own (last (.inr ⟨next, call⟩)))
  | _ => trivial

end Protect

/-- What every reachable world satisfies: claims are protected, and no superseded coordinator had anything
to change. -/
structure FencingInv (j : String) (s : State) (w : World) : Prop where
  protect : ∀ row, w.job j = some row → LeasesProtect j w row
  spare : SupersededSpare j s w.log

/-- Steps in which the job is neither upserted nor deleted, and a tick claim on it that has run out is
given up before somebody else takes it. -/
def FencingSetting (j : String) (l : SystemLabel) (w _w' : World) : Prop := Untouched j l ∧ BeforeTakeover j l w

instance (j : String) (l : SystemLabel) (w w' : World) : Decidable (FencingSetting j l w w') :=
  inferInstanceAs (Decidable (Untouched j l ∧ BeforeTakeover j l w))

theorem FencingInv.step {host : Host} {j : String} {s : State} {p : Nat} {oracle : Oracle} {w w' : World}
    {φ φ' : Phase} {op : Op} {r : Ans op} (inv : FencingInv j s w) (linked : Linked p φ w) (move : Move host φ op r φ')
    (ran : perform p oracle w op = some (r, w')) (setting : FencingSetting j (.call p op r) w w') :
    FencingInv j s w' := by
  obtain ⟨untouched, turn⟩ := setting
  refine ⟨fun row' stored' => ?_, ?_⟩
  · cases stored : w.job j with
    | none =>
      rw [untouched.absent ran stored] at stored'
      cases stored'
    | some row =>
      refine (inv.protect row stored).step untouched turn ran ?_ stored stored'
      intro claimId now ttl wrote
      obtain ⟨b, rest, rfl, -, -⟩ := move.of_claimTick wrote
      exact linked.reads now rfl
  · rw [(perform_cases ran).2]
    refine ⟨fun write wrote => ?_, inv.spare⟩
    show (fenced j s w.log).Spared p (w.job j) write
    cases stored : w.job j with
    | none => cases write <;> first | trivial | (rintro - row ⟨⟩)
    | some row =>
      rw [← stored]
      exact .of_last (fun gives => (inv.protect row stored).last turn gives) wrote

/-- The rules behind fencing. -/
def fencingRules (host : Host) (j : String) (s : State) :
    Rules (system host) (protocol host) (FencingSetting j) where
  inv := FencingInv j s
  guar q w w' := ∃ oracle op r, perform q oracle w op = some (r, w')
  idle p w := holding p w.log = none
  holds := Linked
  start _ idle _ := .start idle
  finish _ ended linked := linked.finish ended
  own inv linked move ran allowed := ⟨inv.step linked move ran allowed, ⟨_, _, _, ran⟩, linked.own move ran⟩
  other apart _ _ := fun ⟨_, _, _, ran⟩ linked => linked.other ran apart
  otherIdle apart _ _ := fun ⟨_, _, _, ran⟩ idle => by
    rw [holding, track_other_call ran (Ne.symm apart)]; exact idle
  drift inv drifts _ := by
    obtain ⟨later, jobs, -, log⟩ := drift_cases drifts
    refine ⟨⟨fun row stored q k after onJob => ?_, by rw [log]; exact inv.spare⟩, fun _ _ linked => linked.drift drifts,
      ?_⟩
    · rw [jobs] at stored
      rw [log] at after ⊢
      rcases inv.protect row stored q k after onJob with ended | last
      · exact .inl (lt_of_lt_of_le ended later)
      · exact .inr last
    · intro p idle
      rw [log]
      exact idle

/-- **Tick claims are fenced** in every run, whatever leases expire, in which nobody releases the job or
writes to it after its tick once its lease has ended and somebody else has claimed the job. -/
theorem tick_claims_fenced (host : Host) (j : String) {s : State} {c : SystemConfig}
    (reach : (system host).Reach (FencingSetting j) (.idle (.fresh s)) c) : FencedThroughout j s c.world := by
  have start : FencingInv j s (.fresh s) := by
    refine ⟨fun row _ p k held => ?_, trivial⟩
    cases held
  have standing := (fencingRules host j s).sound (protocol_governs host)
    (Rules.Standing.initial (fencingRules host j s) start fun _ => rfl) reach
  exact (fencedThroughout_iff_spare host j (reach.mono fun _ _ _ _ => trivial)).mpr standing.inv.spare

/-- The lease of the first coordinator expires, and it goes on before the second claims the job. -/
theorem tick_claims_fenced_late :
    ∃ c, (system .simple).Reach (FencingSetting "j") (.idle (.fresh (.single minutelyJob (seconds 60)))) c ∧
      lastClaimer "j" c.world.log = some 1 ∧ FencedThroughout "j" (.single minutelyJob (seconds 60)) c.world := by
  obtain ⟨c, reach, second⟩ := exists_run .simple (FencingSetting "j") (.single minutelyJob (seconds 60))
    (startTick 0 "a" false ++ startTick 1 "b" false ++ claimNext 0 "u0" ++ [.env (.advance (seconds 66))] ++
      enqueueRest 0 "r0" ++ [.env (.advance (seconds 120))] ++ claimNext 1 "u1" ++ enqueueRest 1 "r1")
    (fun c => decide (lastClaimer "j" c.world.log = some 1)) (by decide +kernel)
  exact ⟨c, reach, of_decide_eq_true second, tick_claims_fenced .simple "j" reach⟩

/-- The lease of the first coordinator expires after it created its run. The second claims the job; the
first one's post-tick write then clears that claim. -/
theorem tick_claims_unfenced :
    ∃ c, (system .simple).Reach (fun _ _ _ => True) (.idle (.fresh (.single minutelyJob (seconds 60)))) c ∧
      ¬ FencedThroughout "j" (.single minutelyJob (seconds 60)) c.world := by
  obtain ⟨c, reach, cleared⟩ := exists_run .simple (fun _ _ _ => True) (.single minutelyJob (seconds 60))
    (startTick 0 "a" false ++ startTick 1 "b" false ++ claimNext 0 "u0" ++ calls 0 2 ++ draw 0 "r0" ++ calls 0 1 ++
      [.env (.advance (seconds 66))] ++ claimNext 1 "u1" ++ calls 0 1)
    (fun c => decide (¬ Agrees (c.world.job "j") (fenced "j" (.single minutelyJob (seconds 60)) c.world.log)))
    (by decide +kernel)
  exact ⟨c, reach, fun fenced => of_decide_eq_true cleared fenced.1⟩

end Chronon
