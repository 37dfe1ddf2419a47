import Chronon.System.Conformance

/-!
# Tick claims in the history

The tick claim a task holds, read off its calls: taken by a successful
`claim_job_for_tick`, given up by `release_job_tick_claim` or
`persist_post_tick_job_state`.
-/

namespace Chronon
set_option autoImplicit false

open Concurrent

/-- The tick claim a task holds after one of its calls. -/
def claimAfter (e : LogEntry) (held : Option TickClaim) : Option TickClaim :=
  match e with
  | ⟨_, _, .store (.claimJobForTick jobId claimId now ttl), .ok true⟩ => some ⟨jobId, claimId, now, ttl⟩
  | ⟨_, _, .store (.releaseJobTickClaim _), _⟩ => none
  | ⟨_, _, .store (.persistPostTickJobState _ _), _⟩ => none
  | _ => held

/-- The tick claim task `p` holds: it is between a successful claim and the call that gives it up. -/
def holding (p : Nat) (log : Log) : Option TickClaim := track claimAfter none p log

theorem claimAfter_silent {p : Nat} {s : State} {op : Op} {r : Ans op} {held : Option TickClaim}
    (quiet : Silent op) : claimAfter ⟨p, s, op, r⟩ held = held := by
  cases op with
  | store c => cases c <;> first | rfl | exact quiet.elim
  | _ => rfl

/-- The phase of a task says which claim it holds. -/
theorem Move.claimAfter {host : Host} {φ φ' : Phase} {op : Op} {r : Ans op} {p : Nat} {oracle : Oracle} {w w' : World}
    (move : Move host φ op r φ') (ran : perform p oracle w op = some (r, w')) :
    claimAfter ⟨p, w.state, op, r⟩ φ.claim = φ'.claim := by
  cases move with
  | silent quiet => exact claimAfter_silent quiet
  | loadFailed => cases (perform_cases ran).1
  | claimRefused _ refused =>
    rename_i r _
    cases r with
    | error e => rfl
    | ok won =>
      cases won with
      | true => exact absurd rfl refused
      | false => rfl
  | misfired | admitted | create | createFailed => split <;> rfl
  | checkName => split <;> rfl
  | _ => rfl

/-- The clock reading `t`. -/
inductive ReadsClock (t : DateTime) : (op : Op) → Ans op → Prop
  | now : ReadsClock t .utcNow t

/-- The reading a task works with is the one it had, or the one it has just made. -/
theorem Move.reading_cases {host : Host} {φ φ' : Phase} {op : Op} {r : Ans op} (move : Move host φ op r φ') :
    ∀ t ∈ φ'.reading, t ∈ φ.reading ∨ ReadsClock t op r := by
  intro t read
  cases move with
  | openTick | openJob | openSlot | openReclaim =>
    cases read
    exact .inr .now
  | misfired | admitted | create | createFailed => split at read <;> exact .inl read
  | checkName => split at read <;> cases read
  | silent _ => exact .inl read
  | _ => first | exact .inl read | cases read

/-- Readings are not ahead of the clock. -/
theorem Move.reading_le {host : Host} {φ φ' : Phase} {op : Op} {r : Ans op} {p : Nat} {oracle : Oracle}
    {w w' : World} (move : Move host φ op r φ') (ran : perform p oracle w op = some (r, w'))
    (reads : ∀ t ∈ φ.reading, t ≤ w.clock) : ∀ t ∈ φ'.reading, t ≤ w'.clock := by
  intro t read
  rw [perform_clock ran]
  rcases move.reading_cases t read with before | reading
  · exact reads t before
  · cases reading
    have answered := (perform_cases ran).1
    simp only [answer, Option.some.injEq, Prod.mk.injEq] at answered
    exact le_of_eq answered.1.symm

/-- The job row a task loaded last, after one of its calls. -/
def loadedAfter (e : LogEntry) (last : Option Job) : Option Job :=
  match e with
  | ⟨_, _, .store (.getJob _), .ok job⟩ => job
  | _ => last

/-- The job row task `p` loaded last. -/
def loaded (p : Nat) (log : Log) : Option Job := track loadedAfter none p log

theorem loadedAfter_silent {p : Nat} {s : State} {op : Op} {r : Ans op} {last : Option Job} (quiet : Silent op) :
    loadedAfter ⟨p, s, op, r⟩ last = last := by
  cases op with
  | store c => cases c <;> first | rfl | exact quiet.elim
  | _ => rfl

/-- The copy a coordinator decides by is the row it loaded last. -/
theorem Move.copy_loaded {host : Host} {φ φ' : Phase} {op : Op} {r : Ans op} {p : Nat} {oracle : Oracle} {w w' : World}
    {last : Option Job} (move : Move host φ op r φ') (ran : perform p oracle w op = some (r, w'))
    (copies : ∀ k job, φ.copy = some (k, job) → last = some job ∧ job.jobId = k.jobId) :
    ∀ k job, φ'.copy = some (k, job) → loadedAfter ⟨p, w.state, op, r⟩ last = some job ∧ job.jobId = k.jobId := by
  intro k job isCopy
  cases move with
  | silent quiet => rw [loadedAfter_silent quiet]; exact copies k job isCopy
  | load =>
    cases isCopy
    exact ⟨rfl, Collections.Table.key_of_lookup (perform_getJob ran)⟩
  | misfired | admitted | create => split at isCopy <;> exact copies k job isCopy
  | createFailed => cases (perform_cases ran).1
  | checkName => split at isCopy <;> cases isCopy
  | _ => first | exact copies k job isCopy | cases isCopy

/-- What ties the phase of a task to the history and the clock. -/
structure Linked (p : Nat) (φ : Phase) (w : World) : Prop where
  holds : holding p w.log = φ.claim
  reads : ∀ t ∈ φ.reading, t ≤ w.clock
  copies : ∀ k job, φ.copy = some (k, job) → loaded p w.log = some job ∧ job.jobId = k.jobId

section Linked

variable {host : Host} {p q : Nat} {φ φ' : Phase} {op : Op} {r : Ans op} {oracle : Oracle} {w w' : World}

theorem Linked.own (linked : Linked p φ w) (move : Move host φ op r φ')
    (ran : perform p oracle w op = some (r, w')) : Linked p φ' w' :=
  ⟨by rw [holding, track_own_call ran, ← move.claimAfter ran, ← linked.holds]; rfl, move.reading_le ran linked.reads,
    by rw [loaded, track_own_call ran]; exact move.copy_loaded ran linked.copies⟩

theorem Linked.other (linked : Linked p φ w) (ran : perform q oracle w op = some (r, w')) (apart : p ≠ q) :
    Linked p φ w' :=
  ⟨by rw [holding, track_other_call ran (Ne.symm apart)]; exact linked.holds,
    fun t read => by rw [perform_clock ran]; exact linked.reads t read,
    by rw [loaded, track_other_call ran (Ne.symm apart)]; exact linked.copies⟩

theorem Linked.drift {e : Env} (linked : Linked p φ w) (drifts : Chronon.drift e w = some w') : Linked p φ w' := by
  obtain ⟨later, -, -, log⟩ := drift_cases drifts
  exact ⟨by rw [log]; exact linked.holds, fun t read => (linked.reads t read).trans later,
    by rw [log]; exact linked.copies⟩

theorem Linked.start {proc : Proc} (idle : holding p w.log = none) : Linked p proc.phase w := by
  cases proc <;> exact ⟨idle, fun t none_ => (by cases none_), fun k job none_ => (by cases none_)⟩

theorem Linked.finish (linked : Linked p φ w) (ended : φ.ended) : holding p w.log = none := by
  rw [linked.holds]
  unfold Phase.ended at ended
  split at ended
  · rfl
  · exact ended.1

end Linked

/-! ## Created runs -/

/-- The run an entry created. -/
def createdRun (e : LogEntry) : Option Run :=
  match e with
  | ⟨_, _, .store (.createRun run), .ok ()⟩ => some run
  | _ => none

theorem createdRun_eq_some {p : Nat} {s : State} {op : Op} {r : Ans op} {run : Run}
    (created : createdRun ⟨p, s, op, r⟩ = some run) :
    op = .store (.createRun run) ∧ HEq r (Except.ok () : Result Unit) := by
  unfold createdRun at created
  split at created
  · rename_i same
    cases same
    cases created
    exact ⟨rfl, HEq.rfl⟩
  · cases created

/-- The runs of job `j` created by a task while it holds a tick claim. -/
def tickCreated (j : String) : Log → List Run
  | [] => []
  | e :: older =>
    match e with
    | ⟨p, _, .store (.createRun run), .ok ()⟩ =>
      if (holding p older).isSome ∧ run.jobId = some j then run :: tickCreated j older else tickCreated j older
    | _ => tickCreated j older

theorem tickCreated_silent {j : String} {p : Nat} {s : State} {op : Op} {r : Ans op} (log : Log) (quiet : Silent op) :
    tickCreated j (⟨p, s, op, r⟩ :: log) = tickCreated j log := by
  cases op with
  | store c => cases c <;> first | rfl | exact quiet.elim
  | _ => rfl

section Created

variable {host : Host} {j : String} {p : Nat} {φ φ' : Phase} {op : Op} {r : Ans op} {oracle : Oracle} {w w' : World}

/-- A tick about to create a run of `j` adds it to the created ones. -/
theorem Linked.tickCreated_create {b : Batch} {k : TickClaim} {job : Job} {runId : String}
    (linked : Linked p (.creating b k job runId) w)
    (ran : perform p oracle w (.store (.createRun (tickRun job runId (job.nextRunAt.getD k.now)))) = some (.ok (), w'))
    (onJob : k.jobId = j) :
    tickCreated j w'.log = tickRun job runId (job.nextRunAt.getD k.now) :: tickCreated j w.log := by
  rw [(perform_cases ran).2]
  refine if_pos ?_
  rw [linked.holds]
  exact ⟨rfl, congrArg some ((linked.copies k job rfl).2.trans onJob)⟩

/-- The only step that adds to the created runs of `j` is the one of a task about to create one. -/
theorem Linked.created (linked : Linked p φ w) (move : Move host φ op r φ')
    (ran : perform p oracle w op = some (r, w')) :
    tickCreated j w'.log = tickCreated j w.log ∨
      ∃ b k job runId, φ = .creating b k job runId ∧ k.jobId = j ∧
        tickCreated j w'.log = tickRun job runId (job.nextRunAt.getD k.now) :: tickCreated j w.log := by
  have unheld : φ.claim = none → ∀ (run : Run) (r : Result Unit),
      tickCreated j (⟨p, w.state, .store (.createRun run), r⟩ :: w.log) = tickCreated j w.log := by
    intro free run r
    cases r with
    | error e => rfl
    | ok => exact if_neg fun held => by rw [linked.holds, free] at held; cases held.1
  have log := (perform_cases ran).2
  cases move with
  | silent quiet => rw [log]; exact .inl (tickCreated_silent _ quiet)
  | insertFirst _ _ _ => rw [log]; exact .inl (unheld rfl _ _)
  | retry => rw [log]; exact .inl (unheld rfl _ _)
  | create =>
    rename_i b k job runId
    by_cases onJob : k.jobId = j
    · exact .inr ⟨b, k, job, runId, rfl, onJob, linked.tickCreated_create ran onJob⟩
    · rw [log]
      refine .inl (if_neg fun both => onJob ?_)
      have isJob : job.jobId = j := Option.some.inj both.2
      exact (linked.copies k job rfl).2.symm.trans isJob
  | _ => rw [log]; exact .inl rfl

end Created

/-! ## Due queries -/

/-- What a due query returned. -/
def dueIds (e : LogEntry) : List String :=
  match e with
  | ⟨_, _, .store (.findDueJobIdsInPartitions _ _ _), .ok ids⟩ => ids
  | _ => []

/-- A listed job passed the due filter. -/
theorem perform_due {j : String} {p : Nat} {oracle : Oracle} {w w' : World} {op : Op} {r : Ans op}
    (ran : perform p oracle w op = some (r, w')) (listed : j ∈ dueIds ⟨p, w.state, op, r⟩) :
    ∃ row owned dueUntil, w.job j = some row ∧ Store.isDue w.clock owned dueUntil row = true := by
  unfold dueIds at listed
  split at listed
  · rename_i owned dueUntil limit ids isDue
    cases isDue
    have executed := (answer_store (perform_cases ran).1).1
    simp only [StoreCall.exec, Prod.mk.injEq] at executed
    obtain ⟨row, stored, due⟩ := Store.mem_findDue executed.1 listed
    exact ⟨row, owned, dueUntil, stored, due⟩
  · cases listed

/-! ## Claims and writes -/

/-- A task that holds a claim after a call held it before, or has just taken it. -/
theorem claimAfter_cases {p : Nat} {s : State} {op : Op} {r : Ans op} {held : Option TickClaim} {k : TickClaim}
    (after : Chronon.claimAfter ⟨p, s, op, r⟩ held = some k) :
    held = some k ∨ jobWrite k.jobId op r = some (.claimTick k.claimId k.now k.ttl) := by
  simp only [Chronon.claimAfter] at after
  split at after
  · rename_i isClaim
    cases after
    cases isClaim
    exact .inr (if_pos rfl)
  · cases after
  · cases after
  · exact .inl after

end Chronon
