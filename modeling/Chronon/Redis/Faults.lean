import Chronon.Redis.Hands

/-!
# Operations that are cut short

One call of an operation fails, before it has taken effect or after, or the
client stops there. Nothing is undone: runs that the operation has inserted,
popped or reset by then and not put into a ready set stay out of it, and no
later reclaim looks for them.
-/

namespace Chronon.Composite
set_option autoImplicit false

open Concurrent Redis Collections

/-- What can go wrong at a call. -/
inductive Fault where
  /-- The call fails without effect. -/
  | refused (e : ChrononError)
  /-- The call takes effect, and fails all the same. -/
  | lost (e : ChrononError)
  /-- The call is answered, and the client stops. -/
  | stopped

/-- How an operation ends whose call `c` is struck in state `t`, with `k` left to do: its result, unless it stopped, and
the state it leaves. -/
inductive Struck (layer : RedisQueueLayer) {α : Type} (t : State) (c : Op) (k : Ans c → Prog Op Ans (Result α)) :
    Fault → Option (Result α) → State → Prop where
  | refused {e : ChrononError} {a : Result α} {s' : State} : Runs (Step layer) (k (.error e)) t a s' →
      Struck layer t c k (.refused e) (some a) s'
  | lost {e : ChrononError} {r : Ans c} {t' : State} {a : Result α} {s' : State} : Step layer t c r t' →
      Runs (Step layer) (k (.error e)) t' a s' → Struck layer t c k (.lost e) (some a) s'
  | stopped {r : Ans c} {s' : State} : Step layer t c r s' → Struck layer t c k .stopped none s'

/-- Every queued run is in its ready set, or some reclaim that nothing disturbs puts it back. -/
def Recovers (layer : RedisQueueLayer) (s : State) : Prop :=
  ∀ run, s.run run.runId = some run → run.status = .queued → Listed layer anyScore s run ∨
    ∃ now r s', Runs (Step layer) (reclaimExpiredRunLeases now).run s r s' ∧ Listed layer anyScore s' run

/-- A `create_run` that returns an error has left no queued row. -/
def LeavesNoRow (op : Client) (s : State) (outcome : Option (Result op.Ret)) (s' : State) : Prop :=
  ∀ run e, op = .createRun run → outcome = some (.error e) → s.run run.runId = none →
    ∀ row, s'.run run.runId = some row → row.status ≠ .queued

/-- The runs an operation may have taken and not settled when it comes to the call `c`. -/
def InHand : Op → Run → Prop
  | .claimRunById runId _ _ _ _, run => run.runId = runId
  | .claimRunsByIds runIds _ _ _ _, run => run.runId ∈ runIds
  -- the rest of a batch, or of what a reclaim has reset, comes after this run
  | .getRun _, _ | .enqueueRun _ _ _, _ => True
  | _, _ => False

/-- No run is in hand at the call `c`, but for the ones it settles, and it takes none, as far as it takes effect. -/
def Spares (layer : RedisQueueLayer) (t : State) (c : Op) : Fault → Prop
  | .refused _ => ∀ run, InHand c run → ¬Stranded layer anyScore t run
  | _ => (∀ run, InHand c run → Stranded layer anyScore t run → SettledBy c run) ∧ ∀ run, ¬TakenBy layer anyScore t c run

/-- The insert of the row fails without effect. -/
def InsertRefused (run : Run) (c : Op) (fault : Fault) : Prop := ∃ e, fault = .refused e ∧ c = .createRun run

/-- A `create_run` of a new queued run does not fail once its row is in: it stops, or the insert is refused. -/
def FailsEarly (op : Client) (s : State) (c : Op) (fault : Fault) : Prop :=
  ∀ run, op = .createRun run → run.status = .queued → s.run run.runId = none →
    fault = .stopped ∨ InsertRefused run c fault

/-! ## Errors end an operation -/

section Propagates

variable {α β : Type}

/-- Every failed call is the end of the program. -/
def Propagates : Prog Op Ans (Result α) → Prop
  | .ret _ => True
  | .call _ k => (∀ e, k (.error e) = .ret (.error e)) ∧ ∀ r, Propagates (k r)

theorem Propagates.andThen {m : Task α} {f : α → Task β} (first : Propagates m.run) (rest : ∀ a, Propagates (f a).run) :
    Propagates (m >>= f).run := by
  have parts : ∀ m : Prog Op Ans (Result α), Propagates m → Propagates (m >>= ExceptT.bindCont f) := by
    intro m
    induction m with
    | ret r =>
      intro _
      cases r with
      | error e => trivial
      | ok a => exact rest a
    | call op k ih =>
      rintro ⟨ends, goes⟩
      refine ⟨fun e => ?_, fun r => ih r (goes r)⟩
      have same : (k (.error e)).bind (ExceptT.bindCont f) = .ret (.error e) := by
        rw [ends e]
        rfl
      exact same
  exact parts m.run first

theorem Propagates.issue (op : Op) : Propagates (issue op).run := ⟨fun _ => rfl, fun _ => trivial⟩

theorem requeueMismatch_propagates (runId poolId : String) (now : DateTime) :
    Propagates (requeueMismatch runId poolId now).run := by
  rw [requeueMismatch_eq]
  refine Propagates.andThen (.issue _) fun found => ?_
  cases found with
  | none => trivial
  | some run =>
    simp only
    split
    · exact .issue _
    · trivial

theorem reconcileEach_propagates (poolId : String) (now : DateTime) (ids : List String) :
    Propagates (reconcileEach poolId now ids).run := by
  induction ids with
  | nil => trivial
  | cons runId rest ih => exact .andThen (requeueMismatch_propagates runId poolId now) fun _ => ih

theorem claimOne_propagates (runId poolId workerId : String) (now : DateTime) (ttl : Int) :
    Propagates (claimOne runId poolId workerId now ttl).run := by
  refine Propagates.andThen (.issue _) fun claimed => ?_
  cases claimed with
  | none => exact .andThen (requeueMismatch_propagates runId poolId now) fun _ => trivial
  | some run => trivial

theorem claimSingly_propagates (poolId workerId : String) (now : DateTime) (ttl : Int) (attempts : Nat) :
    Propagates (claimSingly poolId workerId now ttl attempts).run := by
  induction attempts with
  | zero => trivial
  | succ attempts ih =>
    refine Propagates.andThen (.issue _) fun ids => ?_
    split
    · trivial
    · refine .andThen (claimOne_propagates _ poolId workerId now ttl) fun claimed => ?_
      cases claimed with
      | none => exact ih
      | some run => trivial

theorem claimInBatches_propagates (batch : Nat) (poolId workerId : String) (now : DateTime) (ttl : Int)
    (attempts : Nat) : Propagates (claimInBatches batch poolId workerId now ttl attempts).run := by
  induction attempts with
  | zero => trivial
  | succ attempts ih =>
    refine Propagates.andThen (.issue _) fun ids => ?_
    split
    · trivial
    · refine .andThen (.issue _) fun claimed => .andThen (reconcileEach_propagates poolId now _) fun _ => ?_
      cases claimed.head? with
      | none => exact ih
      | some run => trivial

theorem enqueueReclaimed_propagates (ids : List String) : Propagates (enqueueReclaimed ids).run := by
  induction ids with
  | nil => trivial
  | cons runId rest ih =>
    refine Propagates.andThen (.issue _) fun found => ?_
    cases found with
    | none => exact ih
    | some run => exact .andThen (.issue _) fun _ => ih

theorem Client.propagates (op : Client) : Propagates op.code.run := by
  cases op with
  | createRun run =>
    refine Propagates.andThen (.issue _) fun _ => ?_
    split
    · exact .issue _
    · trivial
  | claimNextQueued claimBatch poolId workerId now ttl =>
    simp only [Client.code, Composite.claimNextQueued]
    split
    · exact claimSingly_propagates poolId workerId now ttl 64
    · exact claimInBatches_propagates _ poolId workerId now ttl 64
  | reclaimExpiredRunLeases now =>
    exact .andThen (.issue _) fun ids => .andThen (enqueueReclaimed_propagates ids) fun _ => trivial
  | updateRun run | claimRunById runId poolId workerId now ttl | renewRunLease runId workerId now ttl => exact .issue _

/-- Wherever an operation is struck by an error, it returns it at once. -/
theorem Propagates.comes {step : State → (op : Op) → Ans op → State → Prop} {m : Prog Op Ans (Result α)} {s t : State}
    {c : Op} {k : Ans c → Prog Op Ans (Result α)} (propagates : Propagates m) (comes : Comes step m s (.call c k) t)
    (e : ChrononError) : k (.error e) = .ret (.error e) := by
  generalize isRest : Prog.call c k = rest at comes
  induction comes with
  | refl =>
    subst isRest
    exact propagates.1 e
  | call _ _ ih => exact ih (propagates.2 _) isRest

end Propagates

/-! ## No reclaim recovers a run -/

section Recovers

variable {layer : RedisQueueLayer} {s s' : State} {run : Run}

/-- A reclaim adds the runs it reset, and no other. -/
theorem enqueueReclaimed_spares {ids : List String} {done : Result Unit} (outside : run.runId ∉ ids)
    (runs : Runs (Step layer) (enqueueReclaimed ids).run s done s') (stranded : Stranded layer anyScore s run) :
    Stranded layer anyScore s' run := by
  induction ids generalizing s with
  | nil =>
    obtain ⟨-, rfl⟩ := Runs.pure.mp runs
    exact stranded
  | cons runId rest ih =>
    rw [List.mem_cons, not_or] at outside
    have runs := (Runs.past fun _ _ => Runs.issue.trans Step.getRun).mp runs
    cases found : s.run runId with
    | none =>
      rw [found] at runs
      exact ih outside.2 runs stranded
    | some row =>
      rw [found] at runs
      have isRow : row.runId = runId := Table.key_of_lookup found
      have rest := (Runs.past fun _ _ => Runs.issue.trans Step.enqueueRun).mp runs
      refine ih outside.2 rest ((Step.enqueueRun.mpr ⟨rfl, rfl⟩).leftOut.mpr (.inl ⟨stranded, fun here => ?_⟩))
      exact outside.1 (here.2.symm.trans isRow)

theorem reclaim_spares {now : DateTime} {done : Result (List String)}
    (runs : Runs (Step layer) (reclaimExpiredRunLeases now).run s done s') (stranded : Stranded layer anyScore s run) :
    Stranded layer anyScore s' run := by
  rcases Runs.andThen.mp runs with ⟨e, -, failed⟩ | ⟨ids, t, reset, rest⟩
  · exact (Runs.issue.mp failed).leftOut.mpr (.inl ⟨stranded, id⟩)
  · have reset := Runs.issue.mp reset
    have between : Stranded layer anyScore t run := reset.leftOut.mpr (.inl ⟨stranded, id⟩)
    have outside : run.runId ∉ ids := by
      obtain ⟨order, answered⟩ := reset
      simp only [answer] at answered
      split at answered
      · rename_i listing
        cases answered
        rw [listing.mem_iff]
        intro inside
        obtain ⟨old, kept, isRun⟩ := List.mem_map.mp inside
        obtain ⟨stored, expired⟩ := List.mem_filter.mp kept
        have same : old = run := by
          have found : s.rows.lookup run.runId = some run := stranded.stored
          have found' := Table.lookup_of_mem stored
          rw [isRun, found] at found'
          exact (Option.some.inj found').symm
        rw [same, Store.leaseExpired, Bool.and_eq_true] at expired
        rcases Store.status_of_leased expired.1 with status | status <;> rw [stranded.queued] at status <;> cases status
      · cases answered
    rcases Runs.andThen.mp rest with ⟨e, -, failed⟩ | ⟨_, u, added, done⟩
    · exact enqueueReclaimed_spares outside failed between
    · obtain ⟨-, rfl⟩ := Runs.pure.mp done
      exact enqueueReclaimed_spares outside added between

/-- No reclaim recovers a run that is queued and in no ready set. -/
theorem recovers_iff : Recovers layer s ↔ ∀ run, ¬Stranded layer anyScore s run := by
  constructor
  · intro recovers run stranded
    rcases recovers run stranded.stored stranded.queued with listed | ⟨now, r, s', runs, listed⟩
    · exact stranded.unlisted listed
    · exact (reclaim_spares runs stranded).unlisted listed
  · intro none_ run stored queued
    by_contra lost
    exact none_ run ⟨stored, queued, fun listed => lost (.inl listed)⟩

end Recovers

/-! ## A `create_run` that is cut short -/

section Create

variable {layer : RedisQueueLayer} {s t s' : State} {run : Run} {c : Op} {k : Ans c → Prog Op Ans (Result Unit)}

theorem Comes.issue {α : Type} {op : Op} {f : op.Ret → Task α} {rest : Prog Op Ans (Result α)}
    (comes : Comes (Step layer) (Composite.issue op >>= f).run s rest t) :
    (rest = (Composite.issue op >>= f).run ∧ t = s) ∨ (∃ e, rest = .ret (.error e)) ∨
      ∃ a u, Step layer s op (.ok a) u ∧ Comes (Step layer) (f a).run u rest t := by
  cases comes with
  | refl => exact .inl ⟨rfl, rfl⟩
  | call steps rest =>
    rename_i r
    cases r with
    | error e =>
      cases rest with
      | refl => exact .inr (.inl ⟨e, rfl⟩)
    | ok a => exact .inr (.inr ⟨a, _, steps, rest⟩)

theorem Step.inserted {r : Ans (.createRun run)} (steps : Step layer s (.createRun run) r s')
    (new : s.run run.runId = none) : s'.run run.runId = some run := by
  obtain ⟨order, answered⟩ := steps
  have new : s.rows.lookup run.runId = none := new
  simp only [answer, Sql.createRun, new] at answered
  cases answered
  exact Table.lookup_insert_self s.rows run

/-- The two calls of a `create_run` of a new run. -/
theorem createRun_comes (new : s.run run.runId = none)
    (comes : Comes (Step layer) (createRun run).run s (.call c k) t) :
    (c = .createRun run ∧ t = s) ∨
      (c = .enqueueRun (Sql.runPoolKey run.poolId) run.runId run.scheduledFor ∧ t.run run.runId = some run) := by
  rcases Comes.issue comes with ⟨same, rfl⟩ | ⟨e, absurd_⟩ | ⟨_, u, steps, rest⟩
  · injection same with isCreate
    exact .inl ⟨isCreate, rfl⟩
  · cases absurd_
  · split at rest
    · cases rest with
      | refl => exact .inr ⟨rfl, steps.inserted new⟩
      | call _ rest => cases rest
    · cases rest

/-- The row of a `create_run` that returns an error is stored, unless the insert was refused. -/
theorem createRun_errs {fault : Fault} {e : ChrononError} (new : s.run run.runId = none)
    (comes : Comes (Step layer) (createRun run).run s (.call c k) t)
    (struck : Struck layer t c k fault (some (.error e)) s') :
    (InsertRefused run c fault ∧ s'.run run.runId = none) ∨ (¬InsertRefused run c fault ∧ s'.run run.runId = some run) := by
  have ends := (Client.createRun run).propagates.comes comes
  have kept : ∀ {u : State} {a : Result Unit} {e' : ChrononError}, Runs (Step layer) (k (.error e')) u a s' → s' = u := by
    intro u a e' runs
    rw [ends] at runs
    exact runs.2
  rcases createRun_comes new comes with ⟨rfl, rfl⟩ | ⟨rfl, stored⟩
  · cases struck with
    | refused runs =>
      rw [kept runs]
      exact .inl ⟨⟨_, rfl, rfl⟩, new⟩
    | lost steps runs =>
      rw [kept runs]
      exact .inr ⟨by rintro ⟨_, ⟨⟩, -⟩, steps.inserted new⟩
  · cases struck with
    | refused runs =>
      rw [kept runs]
      exact .inr ⟨by rintro ⟨_, -, ⟨⟩⟩, stored⟩
    | lost steps runs =>
      rw [kept runs, (Step.enqueueRun.mp steps).2]
      exact .inr ⟨by rintro ⟨_, ⟨⟩, -⟩, stored⟩

end Create

/-! ## What is in hand at a call -/

/-- Before every call of an operation, what is queued and in no ready set is what it keeps. -/
structure Carries (layer : RedisQueueLayer) (φ : Phase) (t : State) : Prop where
  proper : φ.Proper
  kept : ∀ run, Stranded layer anyScore t run → φ.Keeps run

section InHand

variable {layer : RedisQueueLayer} {s s' t : State} {φ φ' : Phase} {c : Op} {r : Ans c} {run : Run}

theorem Carries.step (carries : Carries layer φ t) (move : Move φ c r φ') (steps : Step layer t c r s') :
    Carries layer φ' s' := by
  refine ⟨carries.proper.step move steps, fun run after => ?_⟩
  rcases carries.proper.stranded move steps after with before | takes
  · exact (carries.kept run before).step before after trivial move steps
  · exact move.keeps carries.proper.ne_lost steps after takes

theorem Carries.inHand (carries : Carries layer φ t) (moves : ∀ r, ∃ φ', Move φ c r φ')
    (stranded : Stranded layer anyScore t run) : InHand c run := by
  have kept := carries.kept run stranded
  have proper := carries.proper
  cases c with
  | getRun _ | enqueueRun _ _ _ => trivial
  | createRun created =>
    obtain ⟨_, move⟩ := moves (.ok ())
    cases move with
    | create => exact kept
    | astray => exact proper
  | updateRun updated =>
    obtain ⟨_, move⟩ := moves (.ok ())
    cases move with
    | update => exact kept
    | astray => exact proper
  | claimRunById runId poolId workerId now ttl =>
    obtain ⟨_, move⟩ := moves (.ok none)
    cases move with
    | claimDirectly => exact kept.elim
    | claimNone => exact List.mem_singleton.mp kept
    | astray => exact proper.elim
  | claimRunsByIds runIds poolId workerId now ttl =>
    obtain ⟨_, move⟩ := moves (.ok [])
    cases move with
    | claimAll => exact kept
    | astray => exact proper.elim
  | renewRunLease runId workerId now ttl =>
    obtain ⟨_, move⟩ := moves (.ok false)
    cases move with
    | renew => exact kept
    | astray => exact proper
  | reclaimExpiredRunLeases now =>
    obtain ⟨_, move⟩ := moves (.ok [])
    cases move with
    | reclaim => exact kept
    | astray => exact proper
  | claimNextRunIds poolId count now =>
    obtain ⟨_, move⟩ := moves (.ok [])
    cases move with
    | pop ended _ => exact ended run kept
    | overflow many => exact absurd many (Nat.not_lt_zero count)
    | astray => exact proper

/-- Only what is in hand can be out of its ready set at a call. -/
theorem Client.inHand {op : Client} {k : Ans c → Prog Op Ans (Result op.Ret)} (listed : AllListed layer anyScore s)
    (comes : Comes (Step layer) op.code.run s (.call c k) t) (stranded : Stranded layer anyScore t run) :
    InHand c run := by
  have unstranded : ∀ run, ¬Stranded layer anyScore s run :=
    fun run stranded => stranded.unlisted (listed run stranded.stored stranded.queued)
  by_cases isUpdate : ∃ updated, op = .updateRun updated
  · obtain ⟨updated, rfl⟩ := isUpdate
    cases comes with
    | refl => exact absurd stranded (unstranded run)
    | call _ rest => cases rest
  · have start : Carries layer op.phase s := by
      refine ⟨?_, fun run stranded => absurd stranded (unstranded run)⟩
      cases op with
      | updateRun updated => exact absurd ⟨updated, rfl⟩ isUpdate
      | _ => trivial
    have keeps : ∀ φ c r φ' t t', Carries layer φ t → Move φ c r φ' → Step layer t c r t' → Carries layer φ' t' :=
      fun _ _ _ _ _ _ carries move steps => carries.step move steps
    obtain ⟨φ, carries, follows⟩ := Follows.comes keeps op.follows start comes
    refine carries.inHand (fun r => ?_) stranded
    obtain ⟨φ', move, -⟩ := follows r
    exact ⟨φ', move⟩

end InHand

/-- **What a fault leaves behind.** From a state where every queued run is in its ready set, for every operation, every
call of it that is struck and every way of striking it: afterwards every queued run is in its ready set or put back by a
reclaim, and a `create_run` that returned an error has left no queued row, exactly when no run is in hand at the call and
none is taken by it, and it does not make a `create_run` fail whose row is already in. -/
theorem fault_recovers_iff (layer : RedisQueueLayer) (op : Client) {s t s' : State} {c : Op}
    {k : Ans c → Prog Op Ans (Result op.Ret)} {fault : Fault} {outcome : Option (Result op.Ret)}
    (listed : AllListed layer anyScore s) (comes : Comes (Step layer) op.code.run s (.call c k) t)
    (struck : Struck layer t c k fault outcome s') :
    (Recovers layer s' ∧ LeavesNoRow op s outcome s') ↔ (Spares layer t c fault ∧ FailsEarly op s c fault) := by
  have ends := op.propagates.comes comes
  have inHand : ∀ run, Stranded layer anyScore t run → InHand c run := fun run => Client.inHand listed comes
  have effect : (∀ run, ¬LeftOut layer anyScore t c run) ↔
      (∀ run, InHand c run → Stranded layer anyScore t run → SettledBy c run) ∧ ∀ run, ¬TakenBy layer anyScore t c run := by
    constructor
    · intro none_
      refine ⟨fun run _ stranded => ?_, fun run taken => none_ run (.inr taken)⟩
      by_contra unsettled
      exact none_ run (.inl ⟨stranded, unsettled⟩)
    · rintro ⟨settled, untaken⟩ run (⟨stranded, unsettled⟩ | taken)
      · exact unsettled (settled run (inHand run stranded) stranded)
      · exact untaken run taken
  rw [recovers_iff]
  refine and_congr ?_ ?_
  · cases struck with
    | refused runs =>
      rw [ends] at runs
      obtain ⟨-, rfl⟩ := runs
      exact ⟨fun none_ run _ => none_ run, fun none_ run stranded => none_ run (inHand run stranded) stranded⟩
    | lost steps runs =>
      rw [ends] at runs
      obtain ⟨-, rfl⟩ := runs
      exact (forall_congr' fun run => not_congr steps.leftOut).trans effect
    | stopped steps => exact (forall_congr' fun run => not_congr steps.leftOut).trans effect
  · constructor
    · rintro leaves run rfl queued new
      cases outcome with
      | none =>
        cases struck
        exact .inl rfl
      | some result =>
        have isError : ∃ e, result = .error e := by
          cases struck with
          | refused runs =>
            rw [ends] at runs
            exact ⟨_, runs.1⟩
          | lost _ runs =>
            rw [ends] at runs
            exact ⟨_, runs.1⟩
        obtain ⟨e, rfl⟩ := isError
        rcases createRun_errs new comes struck with ⟨refused, -⟩ | ⟨-, stored⟩
        · exact .inr refused
        · exact absurd queued (leaves run e rfl rfl new run stored)
    · rintro early run e rfl rfl new row stored queued
      rcases createRun_errs new comes struck with ⟨-, absent⟩ | ⟨unrefused, isRun⟩
      · rw [absent] at stored
        cases stored
      · rw [isRun] at stored
        cases stored
        rcases early run rfl queued new with rfl | refused
        · cases struck
        · exact unrefused refused

/-- A reclaim whose first call is refused harms nothing. -/
theorem fault_recovers_iff_refused :
    ∃ c k, Comes (Step .plain) (Client.reclaimExpiredRunLeases (seconds 60)).code.run
        (.holding .plain [Run.new "r" "noop" 0]) (.call c k) (.holding .plain [Run.new "r" "noop" 0]) ∧
      Struck .plain (.holding .plain [Run.new "r" "noop" 0]) c k (.refused (.storageError "down"))
        (some (.error (.storageError "down"))) (.holding .plain [Run.new "r" "noop" 0]) ∧
      Recovers .plain (.holding .plain [Run.new "r" "noop" 0]) := by
  have struck : Struck .plain (.holding .plain [Run.new "r" "noop" 0]) (.reclaimExpiredRunLeases (seconds 60))
      (fun r => (ExceptT.bindCont (fun ids => enqueueReclaimed ids >>= fun _ => pure ids) r : Prog Op Ans _))
      (.refused (.storageError "down")) (some (.error (.storageError "down")))
      (.holding .plain [Run.new "r" "noop" 0]) := .refused ⟨rfl, rfl⟩
  refine ⟨_, _, .refl, struck, ?_⟩
  have listed : AllListed .plain anyScore (.holding .plain [Run.new "r" "noop" 0]) :=
    State.holding_listed (fun _ => trivial) _
  exact ((fault_recovers_iff .plain (.reclaimExpiredRunLeases (seconds 60)) listed .refl struck).mpr
    ⟨fun run inHand => inHand.elim, fun run isCreate => by cases isCreate⟩).1

/-- **A queued run is lost.** The row of a new run is inserted and Redis refuses to add it: `create_run` returns an error
with a queued row in the table that is in no ready set and that no reclaim puts back. -/
theorem create_run_strands :
    AllListed .plain anyScore .empty ∧
      ∃ c t s', ∃ k : Ans c → Prog Op Ans (Result Unit),
        Comes (Step .plain) (Client.createRun (Run.new "r" "noop" 0)).code.run .empty (.call c k) t ∧
        Struck .plain t c k (.refused (.storageError "down")) (some (.error (.storageError "down"))) s' ∧
        ¬Recovers .plain s' ∧
        ¬LeavesNoRow (.createRun (Run.new "r" "noop" 0)) .empty (some (.error (.storageError "down"))) s' := by
  refine ⟨fun run stored => (by cases stored), .enqueueRun "general" "r" 0,
    ⟨Table.empty.insert (Run.new "r" "noop" 0), fun _ => .empty⟩, _, _, .call ⟨[], rfl⟩ .refl, .refused ⟨rfl, rfl⟩, ?_, ?_⟩
  · rw [recovers_iff]
    intro safe
    refine safe (Run.new "r" "noop" 0) ⟨rfl, rfl, ?_⟩
    rintro ⟨score, found, -⟩
    cases found
  · intro leaves
    exact leaves (Run.new "r" "noop" 0) _ rfl rfl rfl (Run.new "r" "noop" 0) rfl rfl

end Chronon.Composite
