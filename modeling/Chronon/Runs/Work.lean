import Chronon.Runs.Chains

/-!
# What a run does is fixed when it is created

Slots, event handlers and the retry path write whole rows back from copies, next
to jobs that may have been edited or deleted since. The part of a run that says
what to execute, for whom and when is the same in every copy: it is that of the
row `create_run` inserted. A retry passes its payload on, so a chain of retries
has the payload of its first run.
-/

namespace Chronon
set_option autoImplicit false

open Concurrent

/-- What a run executes, and for whom. -/
structure Payload where
  jobId : Option String
  scriptName : String
  actorJson : Json
  paramsJson : Json
  poolId : Option String

/-- The payload, the time it is scheduled for, and the attempt. -/
structure Work where
  payload : Payload
  scheduledFor : DateTime
  attempt : Int

def Run.payload (run : Run) : Payload := ⟨run.jobId, run.scriptName, run.actorJson, run.paramsJson, run.poolId⟩

def Run.work (run : Run) : Work := ⟨run.payload, run.scheduledFor, run.attempt⟩

/-- Run `id` as it was created, or as it was stored at the beginning. -/
def createdAs (s : State) (id : String) : Log → Option Run
  | [] => s.store.runs.lookup id
  | e :: older =>
    match createdRun e with
    | some run => if run.runId = id then some run else createdAs s id older
    | none => createdAs s id older

/-- What a call executes. -/
def executed (e : LogEntry) : Option ExecuteScriptRequest :=
  match e with
  | ⟨_, _, .executeScript _ request, _⟩ => some request
  | _ => none

/-- An execution uses the script, actor and parameters of `run`. -/
structure ExecuteScriptRequest.Uses (request : ExecuteScriptRequest) (run : Run) : Prop where
  scriptName : request.scriptName = run.scriptName
  actorJson : request.actorJson = run.actorJson
  paramsJson : request.paramsJson = run.paramsJson

/-- The chain of retries that starts with run `first`. -/
inductive Chain (log : Log) (first : String) : String → Prop
  | first : Chain log first first
  | retry {id : String} {run : Run} : Chain log first id → run ∈ retriesOf id log → Chain log first run.runId

/-! ## The invariant -/

/-- Run `run` has the work run `run.runId` was created with. -/
def Genuine (s : State) (log : Log) (run : Run) : Prop :=
  ∃ first, createdAs s run.runId log = some first ∧ run.work = first.work

structure WorkInv (s : State) (w : World) : Prop where
  once : DrawnOnce w.log
  stored : ∀ id, (w.run id).map Run.work = (createdAs s id w.log).map Run.work
  executed : ∀ e ∈ w.log, ∀ request ∈ executed e,
    ∃ first, createdAs s request.runId w.log = some first ∧ request.Uses first
  retried : ∀ id, ∀ run ∈ retriesOf id w.log, createdAs s run.runId w.log = some run ∧
    ∃ parent, createdAs s id w.log = some parent ∧ run.payload = parent.payload

/-- What a task asserts. -/
structure WorkHolds (s : State) (p : Nat) (φ : Phase) (w : World) : Prop where
  fresh : InsertsFresh p φ w
  hand : ∀ run, φ.hand = some run → Genuine s w.log run
  named : ∀ worker run job, φ = .copied worker run (some job) → run.jobId ≠ none
  owing : ∀ run, φ.retryOf = some run → owes p w.log = some run ∧ run.jobId ≠ none

theorem identity_work {run run' : Run} (same : run'.identity = run.identity) : run'.work = run.work := by
  have parts := congrArg Run.work same
  exact parts

/-- A retry passes the payload on. -/
theorem retryRun_payload {run : Run} (named : run.jobId ≠ none) (runId : String) (scheduledFor : DateTime) :
    (retryRun run runId scheduledFor).payload = run.payload := by
  obtain ⟨jobId, isJob⟩ := Option.ne_none_iff_exists'.mp named
  simp only [Run.payload, retryRun, Run.forJob, Run.new, isJob, Option.getD_some]

section Step

variable {host : Host} {s : State} {p q : Nat} {id : String} {oracle : Oracle} {w w' : World} {φ φ' : Phase} {op : Op}
  {r : Ans op}

/-- A stored run was created, or stored at the beginning. -/
theorem WorkInv.genuine {row : Run} (inv : WorkInv s w) (found : w.run id = some row) : Genuine s w.log row := by
  have same := inv.stored id
  obtain rfl : row.runId = id := Collections.Table.key_of_lookup found
  rw [found, Option.map_some] at same
  obtain ⟨first, created, work⟩ := Option.map_eq_some_iff.mp same.symm
  exact ⟨first, created, work.symm⟩

/-- How a run was created does not change. -/
theorem WorkInv.createdAs_later {first : Run} (inv : WorkInv s w) (ran : perform p oracle w op = some (r, w'))
    (creates : ∀ run, op = .store (.createRun run) → Drew p run.runId w.log ∧ w.run run.runId = none)
    (created : createdAs s id w.log = some first) : createdAs s id w'.log = some first := by
  rw [(perform_cases ran).2, createdAs]
  split
  · rename_i run isCreated
    rw [if_neg, created]
    rintro rfl
    have same := inv.stored run.runId
    rw [(creates run (createdRun_eq_some isCreated).1).2, created] at same
    cases same
  · exact created

theorem Genuine.later {run : Run} (genuine : Genuine s w.log run) (inv : WorkInv s w)
    (ran : perform p oracle w op = some (r, w'))
    (creates : ∀ run, op = .store (.createRun run) → Drew p run.runId w.log ∧ w.run run.runId = none) :
    Genuine s w'.log run := by
  obtain ⟨first, created, work⟩ := genuine
  exact ⟨first, inv.createdAs_later ran creates created, work⟩

theorem Genuine.same {log : Log} {run run' : Run} (genuine : Genuine s log run) (id : run'.runId = run.runId)
    (work : run'.work = run.work) : Genuine s log run' := by
  obtain ⟨first, created, isWork⟩ := genuine
  exact ⟨first, by rw [id]; exact created, work.trans isWork⟩

theorem Genuine.identity {log : Log} {run run' : Run} (genuine : Genuine s log run)
    (same : run'.identity = run.identity) : Genuine s log run' :=
  genuine.same (identity_runId same) (identity_work same)

/-- What a created run was created as. -/
theorem createdAs_created {run : Run} (ran : perform p oracle w (.store (.createRun run)) = some (.ok (), w')) :
    createdAs s run.runId w'.log = some run := by
  rw [(perform_cases ran).2]
  simp [createdAs, createdRun]

theorem createdAs_same (ran : perform p oracle w op = some (r, w'))
    (uncreated : ∀ run, createdRun ⟨p, w.state, op, r⟩ = some run → run.runId ≠ id) :
    createdAs s id w'.log = createdAs s id w.log := by
  rw [(perform_cases ran).2, createdAs]
  split
  · rename_i run isCreated
    rw [if_neg (uncreated run isCreated)]
  · rfl

/-- The stored rows have the work they were created with. -/
theorem WorkInv.stored_step (inv : WorkInv s w) (holds : WorkHolds s p φ w) (move : Move host φ op r φ')
    (ran : perform p oracle w op = some (r, w')) (id : String) :
    (w'.run id).map Run.work = (createdAs s id w'.log).map Run.work := by
  have creates := holds.fresh.created move
  cases before : w.run id with
  | none =>
    cases after : w'.run id with
    | some row =>
      cases perform_run_new ran before after with
      | create isRun => rw [← isRun, createdAs_created ran]
    | none =>
      have same := inv.stored id
      rw [createdAs_same ran, ← same, before]
      rintro run isCreated rfl
      obtain ⟨rfl, ok⟩ := createdRun_eq_some isCreated
      obtain rfl := eq_of_heq ok
      have appears := perform_run ran run.runId
      rw [before, after] at appears
      simp only [runWrite, StoreCall.runWrite, if_true] at appears
      cases appears
  | some old =>
    obtain ⟨first, created, work⟩ := (inv.genuine before).later inv ran creates
    have isRun : old.runId = id := Collections.Table.key_of_lookup before
    rw [isRun] at created
    have kept : ∀ row, w'.run id = some row → row.work = old.work →
        (w'.run id).map Run.work = (createdAs s id w'.log).map Run.work := by
      intro row after same
      rw [after, created, Option.map_some, Option.map_some, same, work]
    obtain ⟨row', after, rfl | wrote | ⟨_, _, _, _, -, -, rfl⟩ | ⟨_, _, -, rfl, -⟩ | ⟨now, -, rfl⟩⟩ :=
      perform_run_some ran before creates
    · exact kept _ after rfl
    · cases wrote with
      | update onRun =>
        obtain ⟨worker, run, job, rfl, same⟩ := move.of_updateRun
        obtain ⟨first', created', work'⟩ := ((holds.hand run rfl).later inv ran creates).identity same
        rw [onRun] at created'
        rw [after, created', Option.map_some, Option.map_some, work']
    · exact kept _ after rfl
    · exact kept _ after rfl
    · refine kept _ after ?_
      unfold Store.reclaimed
      split <;> rfl

/-- Executions use what their run was created with. -/
theorem WorkInv.executed_step (inv : WorkInv s w) (holds : WorkHolds s p φ w) (move : Move host φ op r φ')
    (ran : perform p oracle w op = some (r, w')) : ∀ e ∈ w'.log, ∀ request ∈ Chronon.executed e,
      ∃ first, createdAs s request.runId w'.log = some first ∧ request.Uses first := by
  have creates := holds.fresh.created move
  intro e inside request isRequest
  rw [(perform_cases ran).2, List.mem_cons] at inside
  rcases inside with rfl | before
  · cases op with
    | executeScript timeoutMs request' =>
      obtain rfl : request' = request := Option.some.inj isRequest
      cases move with
      | silent quiet => exact quiet.elim
      | execute =>
        obtain ⟨first, created, work⟩ := (holds.hand _ rfl).later inv ran creates
        exact ⟨first, created, congrArg (·.payload.scriptName) work, congrArg (·.payload.actorJson) work,
          congrArg (·.payload.paramsJson) work⟩
    | _ => cases isRequest
  · obtain ⟨first, created, uses⟩ := inv.executed e before request isRequest
    exact ⟨first, inv.createdAs_later ran creates created, uses⟩

/-- A new retry is one of a run that its task has in hand. -/
theorem WorkInv.retried_step (inv : WorkInv s w) (holds : WorkHolds s p φ w) (move : Move host φ op r φ')
    (ran : perform p oracle w op = some (r, w')) (id : String) : ∀ run ∈ retriesOf id w'.log,
      createdAs s run.runId w'.log = some run ∧
        ∃ parent, createdAs s id w'.log = some parent ∧ run.payload = parent.payload := by
  have creates := holds.fresh.created move
  have old : ∀ run ∈ retriesOf id w.log, createdAs s run.runId w'.log = some run ∧
      ∃ parent, createdAs s id w'.log = some parent ∧ run.payload = parent.payload := by
    intro run inside
    obtain ⟨created, parent, isParent, payload⟩ := inv.retried id run inside
    exact ⟨inv.createdAs_later ran creates created, parent, inv.createdAs_later ran creates isParent, payload⟩
  cases isCreated : createdRun ⟨p, w.state, op, r⟩ with
  | none =>
    rw [retriesOf_same ran isCreated]
    exact old
  | some run =>
    obtain ⟨rfl, ok⟩ := createdRun_eq_some isCreated
    obtain rfl := eq_of_heq ok
    rw [retriesOf_create ran]
    split
    · rename_i retry
      rw [List.forall_mem_cons]
      refine ⟨⟨createdAs_created ran, ?_⟩, old⟩
      obtain ⟨parent, owed, onRun⟩ := (Option.any_eq_true _ _).mp retry.2
      rcases move.created_cases with first | ⟨runId, failed, job, scheduledFor, rfl, rfl⟩
      · exact absurd first retry.1
      · obtain ⟨mine, named⟩ := holds.owing failed rfl
        rw [mine] at owed
        have same := Option.some.inj owed
        subst same
        obtain ⟨first, created, work⟩ := (holds.hand failed rfl).later inv ran creates
        obtain rfl : failed.runId = id := beq_iff_eq.mp onRun
        exact ⟨first, created, (retryRun_payload named _ _).trans (congrArg (·.payload) work)⟩
    · exact old

theorem WorkInv.step (inv : WorkInv s w) (holds : WorkHolds s p φ w) (move : Move host φ op r φ')
    (ran : perform p oracle w op = some (r, w')) : WorkInv s w' :=
  ⟨inv.once.step ran, inv.stored_step holds move ran, inv.executed_step holds move ran, inv.retried_step holds move ran⟩

/-! ## The tasks -/

theorem WorkHolds.hand_own (holds : WorkHolds s p φ w) (inv : WorkInv s w) (move : Move host φ op r φ')
    (ran : perform p oracle w op = some (r, w')) : ∀ run, φ'.hand = some run → Genuine s w'.log run := by
  have creates := holds.fresh.created move
  intro run hand
  rcases Phase.hand_cases hand with ⟨worker, job, rfl⟩ | isParent
  · cases move.toCopy with
    | take =>
      obtain ⟨old, stored, -, rfl, -⟩ := perform_take ran
      exact ((inv.genuine stored).later inv ran creates).same rfl rfl
    | read => exact (inv.genuine (perform_getRun ran)).later inv ran creates
    | silent _ | readJob _ | readNoJob _ | execute => exact (holds.hand run rfl).later inv ran creates
    | start _ same _ => exact ((holds.hand _ rfl).later inv ran creates).identity same
  · cases move.toRetry isParent with
    | silent _ isParent => exact (holds.hand run (Phase.hand_of_retryOf isParent)).later inv ran creates
    | draw => exact (holds.hand run rfl).later inv ran creates
    | fail same _ _ => exact ((holds.hand _ rfl).later inv ran creates).identity same

theorem WorkHolds.named_own {worker : Option String} {run : Run} {job : Job} (holds : WorkHolds s p φ w)
    (copy : ToCopy host φ op r worker run (some job)) : run.jobId ≠ none := by
  cases copy with
  | silent _ | execute => exact holds.named _ _ _ rfl
  | readJob isJob =>
    rw [isJob]
    exact Option.some_ne_none _
  | start _ same _ =>
    rw [identity_jobId same]
    exact holds.named _ _ _ rfl

theorem WorkHolds.owing_own (holds : WorkHolds s p φ w) (move : Move host φ op r φ')
    (ran : perform p oracle w op = some (r, w')) (run : Run) (isParent : φ'.retryOf = some run) :
    owes p w'.log = some run ∧ run.jobId ≠ none := by
  have own : owes p w'.log = owesAfter ⟨p, w.state, op, r⟩ (owes p w.log) := track_own_call ran
  rw [own]
  cases move.toRetry isParent with
  | silent quiet isParent =>
    rw [owesAfter_silent quiet]
    exact holds.owing run isParent
  | draw => exact holds.owing run rfl
  | fail same failure _ =>
    rw [identity_jobId same]
    exact ⟨by simp [owesAfter, failure], holds.named _ _ _ rfl⟩

theorem WorkHolds.own (holds : WorkHolds s p φ w) (inv : WorkInv s w) (move : Move host φ op r φ')
    (ran : perform p oracle w op = some (r, w')) : WorkHolds s p φ' w' :=
  ⟨holds.fresh.own move ran, holds.hand_own inv move ran, fun _ _ _ isCopy => holds.named_own (isCopy ▸ move).toCopy,
    holds.owing_own move ran⟩

theorem WorkHolds.other (holds : WorkHolds s p φ w) (inv : WorkInv s w) (steps : FreshStep q w w') (apart : p ≠ q) :
    WorkHolds s p φ w' := by
  obtain ⟨oracle, op, r, ran, creates⟩ := steps.stepped
  refine ⟨holds.fresh.other inv.once steps apart, fun run hand => (holds.hand run hand).later inv ran creates,
    holds.named, fun run isParent => ?_⟩
  rw [owes_other ran apart]
  exact holds.owing run isParent

theorem WorkHolds.start {proc : Proc} : WorkHolds s p proc.phase w := by
  refine ⟨.start, ?_, ?_, ?_⟩
  all_goals cases proc <;> intros <;> rename_i absurd_ <;> cases absurd_

end Step

/-- The rules behind fixed work. -/
def workRules (host : Host) (s : State) : Rules (system host) (protocol host) fun _ _ _ => True where
  inv := WorkInv s
  guar := FreshStep
  idle _ _ := True
  holds := WorkHolds s
  start _ _ _ := .start
  finish _ _ _ := trivial
  own inv holds move ran _ :=
    ⟨inv.step holds move ran, ⟨_, _, _, ran, holds.fresh.created move⟩, holds.own inv move ran⟩
  other apart inv _ steps holds := holds.other inv steps apart
  otherIdle _ _ _ _ _ := trivial
  drift := by
    intro e w w' inv drifts _
    obtain ⟨-, -, runs, log⟩ := drift_cases drifts
    refine ⟨⟨?_, fun id => ?_, ?_, ?_⟩, fun p φ holds => ⟨holds.fresh.drift drifts, ?_, holds.named, ?_⟩, fun _ _ => trivial⟩
    all_goals rw [log]
    · exact inv.once
    · rw [runs]
      exact inv.stored id
    · exact inv.executed
    · exact inv.retried
    · exact holds.hand
    · exact holds.owing

/-- Along a chain, every run has the payload of the first. -/
theorem WorkInv.chain {s : State} {w : World} {a b : String} {first : Run} (inv : WorkInv s w)
    (created : createdAs s a w.log = some first) (chain : Chain w.log a b) :
    ∃ last, createdAs s b w.log = some last ∧ last.payload = first.payload := by
  induction chain with
  | first => exact ⟨first, created, rfl⟩
  | retry _ retried ih =>
    obtain ⟨parent, isParent, payload⟩ := ih
    obtain ⟨isRun, parent', isParent', payload'⟩ := inv.retried _ _ retried
    rw [isParent] at isParent'
    cases isParent'
    exact ⟨_, isRun, payload'.trans payload⟩

theorem work_reachable (host : Host) {s : State} {c : SystemConfig}
    (reach : (system host).Reach (fun _ _ _ => True) (.idle (.fresh s)) c) : (workRules host s).Standing c := by
  have start : (workRules host s).inv (.fresh s) :=
    ⟨.nil, fun _ => rfl, fun _ inside => (by cases inside), fun _ _ inside => (by cases inside)⟩
  exact (workRules host s).sound (protocol_governs host)
    (Rules.Standing.initial (workRules host s) start fun _ => trivial) reach

/-- A run is created once. -/
theorem createdAs_kept {host : Host} {s : State} {c c' : SystemConfig} {id : String} {first : Run}
    (standing : (workRules host s).Standing c) (created : createdAs s id c.world.log = some first)
    (later : (system host).Reach (fun _ _ _ => True) c c') : createdAs s id c'.world.log = some first := by
  induction later with
  | refl => exact created
  | step before moves _ ih =>
    have standing := (workRules host s).sound (protocol_governs host) standing before
    obtain ⟨p, proc, rfl, -, rfl⟩ | ⟨p, oracle, op, r, k, w, rfl, waiting, runs, rfl⟩ | ⟨e, w, rfl, drifts, rfl⟩ :=
      Machine.step_cases moves
    · exact ih
    · obtain ⟨φ, holds, follows⟩ := standing.running p _ waiting
      obtain ⟨φ', move, -⟩ := follows r
      exact standing.inv.createdAs_later runs (holds.fresh.created move) ih
    · rw [(drift_cases drifts).2.2.2]
      exact ih

/-- **The work of a run is fixed when it is created.** In every run of any tasks, a stored run keeps the job, script,
actor, parameters, pool, time and attempt it was created with, every execution uses the script, actor and
parameters its run was created with, and the retries of a run have its payload, along chains of any length. -/
theorem run_work_fixed (host : Host) {s : State} {c c' : SystemConfig}
    (reach : (system host).Reach (fun _ _ _ => True) (.idle (.fresh s)) c)
    (later : (system host).Reach (fun _ _ _ => True) c c') :
    (∀ id row, c.world.run id = some row → ∃ first row', createdAs s id c.world.log = some first ∧
        row.work = first.work ∧ c'.world.run id = some row' ∧ row'.work = first.work) ∧
      (∀ e ∈ c.world.log, ∀ request ∈ executed e,
        ∃ first, createdAs s request.runId c.world.log = some first ∧ request.Uses first) ∧
      ∀ a b first, createdAs s a c.world.log = some first → Chain c.world.log a b →
        ∃ last, createdAs s b c.world.log = some last ∧ last.payload = first.payload := by
  have standing := work_reachable host reach
  refine ⟨fun id row stored => ?_, standing.inv.executed, fun a b first created => standing.inv.chain created⟩
  obtain ⟨first, created, work⟩ := standing.inv.genuine stored
  have isRun : row.runId = id := Collections.Table.key_of_lookup stored
  rw [isRun] at created
  have same := (work_reachable host (reach.trans later)).inv.stored id
  rw [createdAs_kept standing created later, Option.map_some] at same
  obtain ⟨row', stored', work'⟩ := Option.map_eq_some_iff.mp same
  exact ⟨first, row', created, work, stored', work'⟩

/-- A run fails and is retried, while its job is deleted. -/
theorem run_work_fixed_retry :
    ∃ c, (system .simple).Reach (fun _ _ _ => True) (.idle (.fresh (retriedAtFire 1))) c ∧
      Chain c.world.log "r" "r2" ∧ (c.world.job "j").isNone = true ∧
      ∃ first last, createdAs (retriedAtFire 1) "r" c.world.log = some first ∧
        createdAs (retriedAtFire 1) "r2" c.world.log = some last ∧ last.payload = first.payload := by
  obtain ⟨c, reach, ends⟩ := exists_run .simple (fun _ _ _ => True) (retriedAtFire 1)
    (startTick 0 "c" false ++ claimNext 0 "t" ++ enqueueRest 0 "r" ++ startSlot 1 "a" ++ calls 1 3 ++
      (.start 2 (.delete "j") :: calls 2 1) ++ failScript 1 "r2")
    (fun c => (c.world.job "j").isNone && (createdAs (retriedAtFire 1) "r" c.world.log).isSome &&
      (retriesOf "r" c.world.log).map Run.runId == ["r2"]) (by decide +kernel)
  simp only [Bool.and_eq_true, beq_iff_eq] at ends
  obtain ⟨⟨gone, isCreated⟩, retried⟩ := ends
  obtain ⟨first, created⟩ := Option.isSome_iff_exists.mp isCreated
  obtain ⟨run, inside, isRun⟩ := List.mem_map.mp (by rw [retried]; exact List.mem_singleton_self "r2")
  have chain : Chain c.world.log "r" "r2" := isRun ▸ .retry .first inside
  obtain ⟨last, isLast, payload⟩ := (run_work_fixed .simple reach .refl).2.2 "r" "r2" first created chain
  exact ⟨c, reach, chain, gone, first, last, created, isLast, payload⟩

end Chronon
