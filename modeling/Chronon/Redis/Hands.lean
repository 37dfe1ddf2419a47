import Chronon.Redis.Taken

/-!
# What an operation has in hand

`Phase` is where an operation stands, with the runs it has popped, reset or is
about to add; `Move` is how a call takes it on. `Phase.Keeps` are the queued
runs that the operation will still claim or add: whatever a phase keeps, the
next phase keeps too, unless the call has settled it (`Phase.Keeps.step`).
-/

namespace Chronon.Composite
set_option autoImplicit false

open Concurrent Redis Collections

/-- Where an operation stands. -/
inductive Phase where
  /-- Nothing in hand. -/
  | free
  /-- An `update_run` that has not written its row. -/
  | writing (run : Run)
  /-- Popped from the ready set of a pool, not claimed yet. -/
  | popped (poolId : String) (now : DateTime) (ids : List String)
  /-- Popped and not claimed, to be looked up one by one. -/
  | unclaimed (poolId : String) (now : DateTime) (ids : List String)
  /-- Reset to queued, to be added one by one. -/
  | reset (ids : List String)
  /-- About to add a run, and what comes after it. -/
  | adding (poolId runId : String) (scheduledFor : DateTime) (next : Phase)
  /-- After an answer that no call gives. -/
  | lost

namespace Phase

/-- The operation will claim or add this queued run. -/
def Keeps : Phase → Run → Prop
  | .popped _ _ ids, run => run.runId ∈ ids
  | .unclaimed poolId now ids, run => run.runId ∈ ids ∧ Store.claimable poolId now run = false
  | .reset ids, run => run.runId ∈ ids
  | .adding poolId runId scheduledFor next, run =>
    (poolId = Sql.runPoolKey run.poolId ∧ runId = run.runId ∧ scheduledFor = run.scheduledFor) ∨ next.Keeps run
  | _, _ => False

/-- An operation returns with nothing to keep. -/
def ended (φ : Phase) : Prop := ∀ run, ¬φ.Keeps run

/-- A phase of a run without failures, in which updates write no queued row. -/
def Proper : Phase → Prop
  | .lost => False
  | .writing run => run.status ≠ .queued
  | .adding _ _ _ next => next.Proper
  | _ => True

/-- After a popped run that was not claimed is looked up. -/
def checked (poolId : String) (now : DateTime) (rest : List String) : Option Run → Phase
  | none => .unclaimed poolId now rest
  | some run =>
    if mismatched poolId now run then
      .adding (Sql.runPoolKey run.poolId) run.runId run.scheduledFor (.unclaimed poolId now rest)
    else .unclaimed poolId now rest

/-- After a reset run is looked up. -/
def readBack (rest : List String) : Option Run → Phase
  | none => .reset rest
  | some run => .adding (Sql.runPoolKey run.poolId) run.runId run.scheduledFor (.reset rest)

/-- After a row is inserted. -/
def inserted (run : Run) : Phase :=
  if run.status = .queued then .adding (Sql.runPoolKey run.poolId) run.runId run.scheduledFor .free else .free

end Phase

/-- Every way a call takes an operation from phase to phase. -/
inductive Move : Phase → (op : Op) → Ans op → Phase → Prop
  | create {run : Run} : Move .free (.createRun run) (.ok ()) (.inserted run)
  | createFailed {run : Run} {e : ChrononError} : Move .free (.createRun run) (.error e) .free
  | update {run : Run} {r : Result Unit} : Move (.writing run) (.updateRun run) r .free
  | claimDirectly {runId poolId workerId : String} {now : DateTime} {ttl : Int} {claimed : Option Run} :
      Move .free (.claimRunById runId poolId workerId now ttl) (.ok claimed) .free
  | renew {runId workerId : String} {now : DateTime} {ttl : Int} {renewed : Bool} :
      Move .free (.renewRunLease runId workerId now ttl) (.ok renewed) .free
  | pop {φ : Phase} {poolId : String} {count : Nat} {now : DateTime} {ids : List String} : φ.ended → ids.length ≤ count →
      Move φ (.claimNextRunIds poolId count now) (.ok ids) (.popped poolId now ids)
  | claim {runId poolId workerId : String} {now : DateTime} {ttl : Int} {claimed : Run} :
      Move (.popped poolId now [runId]) (.claimRunById runId poolId workerId now ttl) (.ok (some claimed)) .free
  | claimNone {runId poolId workerId : String} {now : DateTime} {ttl : Int} :
      Move (.popped poolId now [runId]) (.claimRunById runId poolId workerId now ttl) (.ok none)
        (.unclaimed poolId now [runId])
  | claimAll {ids : List String} {poolId workerId : String} {now : DateTime} {ttl : Int} {claimed : List Run} :
      Move (.popped poolId now ids) (.claimRunsByIds ids poolId workerId now ttl) (.ok claimed)
        (.unclaimed poolId now (unclaimedIds ids claimed))
  | check {poolId runId : String} {now : DateTime} {rest : List String} {found : Option Run} :
      Move (.unclaimed poolId now (runId :: rest)) (.getRun runId) (.ok found) (.checked poolId now rest found)
  | reclaim {now : DateTime} {ids : List String} : Move .free (.reclaimExpiredRunLeases now) (.ok ids) (.reset ids)
  | read {runId : String} {rest : List String} {found : Option Run} :
      Move (.reset (runId :: rest)) (.getRun runId) (.ok found) (.readBack rest found)
  | add {poolId runId : String} {scheduledFor : DateTime} {next : Phase} :
      Move (.adding poolId runId scheduledFor next) (.enqueueRun poolId runId scheduledFor) (.ok ()) next
  -- answers that no call gives
  | failed {φ : Phase} {op : Op} {e : ChrononError} : (∀ run, op ≠ .createRun run) → (∀ run, op ≠ .updateRun run) →
      Move φ op (.error e) .lost
  | overflow {φ : Phase} {poolId : String} {count : Nat} {now : DateTime} {ids : List String} : count < ids.length →
      Move φ (.claimNextRunIds poolId count now) (.ok ids) .lost
  | astray {op : Op} {r : Ans op} : Move .lost op r .lost

def Client.phase : Client → Phase
  | .updateRun run => .writing run
  | _ => .free

def protocol : Protocol Op Ans Client Phase where
  start := Client.phase
  ended := Phase.ended
  move := Move

/-! ## The programs follow the protocol -/

theorem Phase.ended_free : Phase.ended .free := fun _ kept => kept

theorem Phase.ended_lost : Phase.ended .lost := fun _ kept => kept

/-- What is left to do at the end of a part of an operation. -/
def Post {α : Type} (post : α → Phase → Prop) : Result α → Phase → Prop
  | .error _, φ => φ = .free ∨ φ = .lost
  | .ok a, φ => post a φ

section Conformance

variable {α β : Type}

/-- Sequencing of fallible parts. -/
theorem Follows.andThen (post : α → Phase → Prop) {m : Task α} {f : α → Task β} {φ : Phase} {post' : β → Phase → Prop}
    (first : Follows Move m.run φ (Post post)) (rest : ∀ a ψ, post a ψ → Follows Move (f a).run ψ (Post post')) :
    Follows Move (m >>= f).run φ (Post post') := by
  refine first.bind fun r ψ ended => ?_
  cases r with
  | error e => exact ended
  | ok a => exact rest a ψ ended

/-- A call that fails in no run. -/
theorem Follows.call {op : Op} {φ : Phase} {post : op.Ret → Phase → Prop} (created : ∀ run, op ≠ .createRun run)
    (updated : ∀ run, op ≠ .updateRun run) (answers : ∀ a, ∃ ψ, Move φ op (.ok a) ψ ∧ post a ψ) :
    Follows Move (issue op).run φ (Post post) := by
  intro r
  cases r with
  | error e => exact ⟨_, .failed created updated, .inr rfl⟩
  | ok a => exact answers a

/-- Nothing is owed after an impossible answer. -/
theorem Follows.astray (m : Task α) : Follows Move m.run .lost (Post fun _ φ => φ.ended) := by
  have stays : ∀ m : Prog Op Ans (Result α), Follows Move m .lost fun _ φ => φ = .lost := by
    intro m
    induction m with
    | ret a => rfl
    | call op k ih => exact fun r => ⟨_, .astray, ih r⟩
  refine (stays m).mono ?_
  rintro r _ rfl
  cases r with
  | error e => exact .inr rfl
  | ok a => exact Phase.ended_lost

theorem requeueMismatch_follows (poolId runId : String) (now : DateTime) (rest : List String) :
    Follows Move (requeueMismatch runId poolId now).run (.unclaimed poolId now (runId :: rest))
      (Post fun _ φ => φ = .unclaimed poolId now rest) := by
  rw [requeueMismatch_eq]
  refine Follows.andThen (fun found φ => φ = .checked poolId now rest found)
    (Follows.call (by rintro _ ⟨⟩) (by rintro _ ⟨⟩) fun found => ⟨_, .check, rfl⟩) ?_
  rintro found _ rfl
  cases found with
  | none => exact rfl
  | some run =>
    simp only [Phase.checked]
    split
    · exact Follows.call (by rintro _ ⟨⟩) (by rintro _ ⟨⟩) fun _ => ⟨_, .add, rfl⟩
    · exact rfl

theorem Phase.ended_unclaimed (poolId : String) (now : DateTime) : Phase.ended (.unclaimed poolId now []) :=
  fun _ kept => (by cases kept.1)

theorem Phase.ended_popped (poolId : String) (now : DateTime) : Phase.ended (.popped poolId now []) :=
  fun _ kept => (by cases kept)

theorem Phase.ended_reset : Phase.ended (.reset []) := fun _ kept => (by cases kept)

theorem claimOne_follows (runId poolId workerId : String) (now : DateTime) (ttl : Int) :
    Follows Move (claimOne runId poolId workerId now ttl).run (.popped poolId now [runId]) (Post fun _ φ => φ.ended) := by
  refine Follows.andThen
    (fun claimed φ => if claimed.isSome then φ = .free else φ = .unclaimed poolId now [runId])
    (Follows.call (by rintro _ ⟨⟩) (by rintro _ ⟨⟩) fun claimed => ?_) fun claimed ψ stands => ?_
  · cases claimed with
    | none => exact ⟨_, .claimNone, rfl⟩
    | some run => exact ⟨_, .claim, rfl⟩
  · cases claimed with
    | none =>
      obtain rfl := stands
      refine Follows.andThen _ (requeueMismatch_follows poolId runId now []) ?_
      rintro _ _ rfl
      exact Phase.ended_unclaimed poolId now
    | some run =>
      obtain rfl := stands
      exact Phase.ended_free

theorem reconcileEach_follows (poolId : String) (now : DateTime) (ids : List String) :
    Follows Move (reconcileEach poolId now ids).run (.unclaimed poolId now ids)
      (Post fun _ φ => φ = .unclaimed poolId now []) := by
  induction ids with
  | nil => exact rfl
  | cons runId rest ih =>
    refine Follows.andThen _ (requeueMismatch_follows poolId runId now rest) ?_
    rintro _ _ rfl
    exact ih

/-- A pop, whatever it answers. -/
theorem Follows.pop {φ : Phase} (ended : φ.ended) (poolId : String) (count : Nat) (now : DateTime) :
    Follows Move (issue (.claimNextRunIds poolId count now)).run φ
      (Post fun ids ψ => (ids.length ≤ count ∧ ψ = .popped poolId now ids) ∨ ψ = .lost) := by
  refine Follows.call (by rintro _ ⟨⟩) (by rintro _ ⟨⟩) fun ids => ?_
  by_cases few : ids.length ≤ count
  · exact ⟨_, .pop ended few, .inl ⟨few, rfl⟩⟩
  · exact ⟨_, .overflow (not_le.mp few), .inr rfl⟩

theorem claimSingly_follows (poolId workerId : String) (now : DateTime) (ttl : Int) (attempts : Nat) {φ : Phase}
    (ended : φ.ended) :
    Follows Move (claimSingly poolId workerId now ttl attempts).run φ (Post fun _ φ => φ.ended) := by
  induction attempts generalizing φ with
  | zero => exact ended
  | succ attempts ih =>
    refine Follows.andThen _ (Follows.pop ended poolId 1 now) ?_
    rintro ids ψ (⟨few, rfl⟩ | rfl)
    · match ids with
      | [] => exact Phase.ended_popped poolId now
      | [runId] =>
        refine Follows.andThen _ (claimOne_follows runId poolId workerId now ttl) fun claimed ψ ended => ?_
        cases claimed with
        | none => exact ih ended
        | some run => exact ended
      | _ :: _ :: _ => exact absurd few (by simp)
    · exact Follows.astray _

theorem claimInBatches_follows (batch : Nat) (poolId workerId : String) (now : DateTime) (ttl : Int) (attempts : Nat)
    {φ : Phase} (ended : φ.ended) :
    Follows Move (claimInBatches batch poolId workerId now ttl attempts).run φ (Post fun _ φ => φ.ended) := by
  induction attempts generalizing φ with
  | zero => exact ended
  | succ attempts ih =>
    refine Follows.andThen _ (Follows.pop ended poolId batch now) ?_
    rintro ids ψ (⟨-, rfl⟩ | rfl)
    · split
      · rename_i empty
        rw [List.isEmpty_iff] at empty
        subst empty
        exact Phase.ended_popped poolId now
      · refine Follows.andThen (fun claimed φ => φ = .unclaimed poolId now (unclaimedIds ids claimed))
          (Follows.call (by rintro _ ⟨⟩) (by rintro _ ⟨⟩) fun claimed => ⟨_, .claimAll, rfl⟩) ?_
        rintro claimed _ rfl
        refine Follows.andThen _ (reconcileEach_follows poolId now (unclaimedIds ids claimed)) ?_
        rintro _ _ rfl
        cases claimed.head? with
        | none => exact ih (Phase.ended_unclaimed poolId now)
        | some run => exact Phase.ended_unclaimed poolId now
    · exact Follows.astray _

theorem createRun_follows (run : Run) : Follows Move (createRun run).run .free (Post fun _ φ => φ.ended) := by
  refine Follows.andThen (fun _ φ => φ = .inserted run) ?_ ?_
  · intro r
    cases r with
    | error e => exact ⟨_, .createFailed, .inl rfl⟩
    | ok => exact ⟨_, .create, rfl⟩
  · rintro _ _ rfl
    unfold Phase.inserted
    split
    · exact Follows.call (by rintro _ ⟨⟩) (by rintro _ ⟨⟩) fun _ => ⟨_, .add, Phase.ended_free⟩
    · exact Phase.ended_free

theorem enqueueReclaimed_follows (ids : List String) :
    Follows Move (enqueueReclaimed ids).run (.reset ids) (Post fun _ φ => φ = .reset []) := by
  induction ids with
  | nil => exact rfl
  | cons runId rest ih =>
    refine Follows.andThen (fun found φ => φ = .readBack rest found)
      (Follows.call (by rintro _ ⟨⟩) (by rintro _ ⟨⟩) fun found => ⟨_, .read, rfl⟩) ?_
    rintro found _ rfl
    cases found with
    | none => exact ih
    | some run =>
      refine Follows.andThen (fun _ φ => φ = .reset rest)
        (Follows.call (by rintro _ ⟨⟩) (by rintro _ ⟨⟩) fun _ => ⟨_, .add, rfl⟩) ?_
      rintro _ _ rfl
      exact ih

theorem reclaimExpiredRunLeases_follows (now : DateTime) :
    Follows Move (reclaimExpiredRunLeases now).run .free (Post fun _ φ => φ.ended) := by
  refine Follows.andThen (fun ids φ => φ = .reset ids)
    (Follows.call (by rintro _ ⟨⟩) (by rintro _ ⟨⟩) fun ids => ⟨_, .reclaim, rfl⟩) ?_
  rintro ids _ rfl
  refine Follows.andThen _ (enqueueReclaimed_follows ids) ?_
  rintro _ _ rfl
  exact Phase.ended_reset

theorem Client.follows (op : Client) : Follows Move op.code.run op.phase (Post fun _ φ => φ.ended) := by
  cases op with
  | createRun run => exact createRun_follows run
  | updateRun run =>
    intro r
    refine ⟨_, .update, ?_⟩
    cases r with
    | error e => exact .inl rfl
    | ok => exact Phase.ended_free
  | claimNextQueued claimBatch poolId workerId now ttl =>
    simp only [Client.code, Composite.claimNextQueued]
    split
    · exact claimSingly_follows poolId workerId now ttl 64 Phase.ended_free
    · exact claimInBatches_follows _ poolId workerId now ttl 64 Phase.ended_free
  | claimRunById runId poolId workerId now ttl =>
    exact Follows.call (by rintro _ ⟨⟩) (by rintro _ ⟨⟩) fun _ => ⟨_, .claimDirectly, Phase.ended_free⟩
  | renewRunLease runId workerId now ttl =>
    exact Follows.call (by rintro _ ⟨⟩) (by rintro _ ⟨⟩) fun _ => ⟨_, .renew, Phase.ended_free⟩
  | reclaimExpiredRunLeases now => exact reclaimExpiredRunLeases_follows now

end Conformance

theorem protocol_governs (layer : RedisQueueLayer) : protocol.Governs (composite layer) := by
  intro op
  refine Concurrent.Follows.done ((Client.follows op).mono fun r φ post => ?_)
  cases r with
  | error e =>
    rcases post with rfl | rfl
    · exact Phase.ended_free
    · exact Phase.ended_lost
  | ok a => exact post

/-! ## What a phase keeps -/

section Keeps

variable {layer : RedisQueueLayer} {fits : Run → Int → Prop} {s s' : State} {run : Run} {op : Op} {r : Ans op}
  {φ φ' : Phase}

/-- Only a duplicate or a missing row is an error. -/
theorem Step.succeeds {e : ChrononError} (created : ∀ run, op ≠ .createRun run) (updated : ∀ run, op ≠ .updateRun run) :
    ¬Step layer s op (.error e) s' := by
  rintro ⟨order, answered⟩
  cases op with
  | createRun run => exact created run rfl
  | updateRun run => exact updated run rfl
  | claimRunsByIds runIds poolId workerId now ttl | reclaimExpiredRunLeases now =>
    simp only [answer] at answered
    split at answered <;> cases answered
  | _ => cases answered

theorem Step.popped {poolId : String} {count : Nat} {now : DateTime} {ids : List String}
    (steps : Step layer s (.claimNextRunIds poolId count now) (.ok ids) s') : ids.length ≤ count := by
  obtain ⟨ok, -⟩ := Step.claimNextRunIds.mp steps
  cases ok
  exact layer.length_claimNextRunIds s.keys poolId count now

theorem Step.read {runId : String} {found : Option Run} (steps : Step layer s (.getRun runId) (.ok found) s') :
    found = s.run runId ∧ s' = s := by
  obtain ⟨ok, same⟩ := Step.getRun.mp steps
  exact ⟨Except.ok.inj ok, same⟩

theorem Step.enqueued {poolId runId : String} {scheduledFor : DateTime} {done : Unit}
    (steps : Step layer s (.enqueueRun poolId runId scheduledFor) (.ok done) s') :
    s' = { s with keys := layer.enqueueRun s.keys poolId runId scheduledFor } := by
  obtain ⟨order, answered⟩ := steps
  simp only [answer, Option.some.injEq, Prod.mk.injEq, true_and] at answered
  exact answered.symm

/-- A claim claims what it can, and returns nothing that is still queued. -/
theorem Claims.spared {ids : List String} {poolId workerId : String} {now : DateTime} {ttl : Int} {claimed : List Run}
    (claims : Claims workerId now ttl (s.claimableIds poolId now ids) s claimed s') (after : Stranded layer fits s' run)
    (named : run.runId ∈ ids) : Store.claimable poolId now run = false ∧ ∀ row ∈ claimed, row.runId ≠ run.runId := by
  obtain ⟨old, found, isRun⟩ := Option.map_eq_some_iff.mp ((claims.rows _).symm.trans after.stored)
  unfold Sql.claimRow at isRun
  split at isRun
  · have status : run.status = .claimed := by rw [← isRun]; rfl
    rw [after.queued] at status
    cases status
  · rename_i unclaimed
    subst isRun
    rw [List.contains_iff_mem] at unclaimed
    refine ⟨?_, fun row inside same => unclaimed (same ▸ (claims.returned row inside).1)⟩
    rw [← Bool.not_eq_true]
    exact fun free => unclaimed ((mem_claimableIds_of_stored found).mpr ⟨named, free⟩)

theorem Step.claimedById {runId poolId workerId : String} {now : DateTime} {ttl : Int} {claimed : Option Run}
    (steps : Step layer s (.claimRunById runId poolId workerId now ttl) (.ok claimed) s')
    (after : Stranded layer fits s' run) (named : run.runId ∈ [runId]) :
    claimed = none ∧ Store.claimable poolId now run = false := by
  obtain ⟨_, ok, claims, -⟩ := Step.claimRunById steps
  cases ok
  obtain ⟨unclaimable, others⟩ := claims.spared after named
  refine ⟨?_, unclaimable⟩
  cases claimed with
  | none => rfl
  | some row =>
    have isRow := (mem_claimableIds.mp (claims.returned row (List.mem_singleton_self row)).1).1
    rw [List.mem_singleton] at isRow named
    exact absurd (isRow.trans named.symm) (others row (List.mem_singleton_self row))

theorem Step.claimedByIds {ids : List String} {poolId workerId : String} {now : DateTime} {ttl : Int}
    {claimed : List Run} (steps : Step layer s (.claimRunsByIds ids poolId workerId now ttl) (.ok claimed) s')
    (after : Stranded layer fits s' run) (named : run.runId ∈ ids) :
    run.runId ∈ unclaimedIds ids claimed ∧ Store.claimable poolId now run = false := by
  obtain ⟨_, ok, claims, -⟩ := Step.claimRunsByIds steps
  cases ok
  obtain ⟨unclaimable, others⟩ := claims.spared after named
  refine ⟨List.mem_filter.mpr ⟨named, ?_⟩, unclaimable⟩
  rw [Bool.not_eq_true', ← Bool.not_eq_true, List.contains_iff_mem, List.mem_map]
  rintro ⟨row, inside, same⟩
  exact others row inside same

/-- **A kept run stays kept** as long as it is queued and unlisted. -/
theorem Phase.Keeps.step (kept : φ.Keeps run) (before : Stranded layer fits s run) (after : Stranded layer fits s' run)
    (fit : fits run (timestampMillis run.scheduledFor)) (move : Move φ op r φ') (steps : Step layer s op r s') :
    φ'.Keeps run := by
  cases move with
  | create | createFailed | update | claimDirectly | renew | reclaim | astray => exact kept.elim
  | pop ended _ => exact absurd kept (ended run)
  | claim => cases (steps.claimedById after kept).1
  | claimNone => exact ⟨kept, (steps.claimedById after kept).2⟩
  | claimAll => exact steps.claimedByIds after kept
  | check =>
    obtain ⟨inside, unclaimable⟩ := kept
    obtain ⟨rfl, -⟩ := steps.read
    rcases List.mem_cons.mp inside with rfl | inside
    · rw [before.stored]
      simp only [Phase.checked, mismatched_iff.mpr ⟨before.queued, unclaimable⟩, if_true]
      exact .inl ⟨rfl, rfl, rfl⟩
    · unfold Phase.checked
      split
      · exact ⟨inside, unclaimable⟩
      · split
        · exact .inr ⟨inside, unclaimable⟩
        · exact ⟨inside, unclaimable⟩
  | read =>
    obtain ⟨rfl, -⟩ := steps.read
    rcases List.mem_cons.mp kept with rfl | inside
    · rw [before.stored]
      exact .inl ⟨rfl, rfl, rfl⟩
    · unfold Phase.readBack
      split
      · exact inside
      · exact .inr inside
  | add =>
    rcases kept with ⟨rfl, rfl, rfl⟩ | kept
    · refine absurd ⟨_, ?_, fit⟩ after.unlisted
      rw [steps.enqueued, RedisQueueLayer.lookup_enqueueRun, if_pos ⟨rfl, rfl⟩]
    · exact kept
  | failed created updated => exact absurd steps (Step.succeeds created updated)
  | overflow many => exact absurd steps.popped (not_le.mpr many)

/-- What a call takes, the operation keeps. -/
theorem Move.keeps (move : Move φ op r φ') (here : φ ≠ .lost) (steps : Step layer s op r s')
    (after : Stranded layer fits s' run) (takes : Takes run.runId op r) : φ'.Keeps run := by
  cases takes with
  | create named =>
    rename_i created
    cases move with
    | create =>
      have isRun : created = run := by
        obtain ⟨order, answered⟩ := steps
        simp only [answer, Sql.createRun] at answered
        split at answered
        · cases answered
        · cases answered
          have stored := after.stored
          rw [State.run, ← named] at stored
          exact Option.some.inj ((Table.lookup_insert_self _ created).symm.trans stored)
      subst isRun
      rw [Phase.inserted, if_pos after.queued]
      exact .inl ⟨rfl, rfl, rfl⟩
    | astray => exact absurd rfl here
  | pop inside =>
    cases move with
    | pop _ _ => exact inside
    | overflow many => exact absurd steps.popped (not_le.mpr many)
    | astray => exact absurd rfl here
  | reset inside =>
    cases move with
    | reclaim => exact inside
    | astray => exact absurd rfl here

theorem Phase.Proper.ne_lost (proper : φ.Proper) : φ ≠ .lost := by
  rintro rfl
  exact proper

theorem Phase.Proper.step (proper : φ.Proper) (move : Move φ op r φ') (steps : Step layer s op r s') : φ'.Proper := by
  cases move with
  | failed created updated => exact absurd steps (Step.succeeds created updated)
  | overflow many => exact absurd steps.popped (not_le.mpr many)
  | astray => exact proper
  | add => exact proper
  | create =>
    unfold Phase.inserted
    split <;> trivial
  | check =>
    unfold Phase.checked
    split
    · trivial
    · split <;> trivial
  | read =>
    unfold Phase.readBack
    split <;> trivial
  | _ => trivial

/-- A run that is stranded after a call was stranded before, or has been taken. -/
theorem Phase.Proper.stranded (proper : φ.Proper) (move : Move φ op r φ') (steps : Step layer s op r s')
    (after : Stranded layer anyScore s' run) : Stranded layer anyScore s run ∨ Takes run.runId op r := by
  rcases steps.stranded after with before | takes | misplaces | rfl
  · exact .inl before
  · exact .inr takes
  · cases misplaces with
    | enqueue unfit => exact absurd trivial unfit
  · cases move with
    | update => exact absurd after.queued proper
    | failed _ updated => exact absurd rfl (updated run)
    | astray => exact proper.elim

end Keeps

end Chronon.Composite
