import Chronon.Scheduler.TickLoop

/-!
# `chronon-scheduler/src/leader.rs` and `chronon-runtime/src/coordinator.rs`

The election step of a coordinator, and the loop that ticks while its instance
leads. Both run next to each other and share the `is_leader` flag and the owned
partitions of the instance, each access to which is a call of its own. The loops
themselves are their passes started again and again.
-/

namespace Chronon
set_option autoImplicit false

open Concurrent

/-- The calls of a coordinator: those every task makes, and the accesses to the flag and the owned partitions. -/
inductive CoordOp where
  | base (op : Op)
  | loadLeader (instanceId : String)
  | storeLeader (instanceId : String) (leads : Bool)
  | assignAllEmbedded (instanceId : String)
  | releaseAll (instanceId : String)

@[reducible] def CoordAns : CoordOp → Type
  | .base op => Ans op
  | .loadLeader _ => Bool
  | .storeLeader _ _ => Unit
  | .assignAllEmbedded _ => Unit
  | .releaseAll _ => Unit

abbrev CoordTask (α : Type) := Prog CoordOp CoordAns α

/-- A task among the coordinators. -/
def base {α : Type} (m : Task α) : CoordTask α := m.embed CoordOp.base fun _ r => r

/-- Issue one call. -/
def access (op : CoordOp) : CoordTask (CoordAns op) := Prog.perform op

/-- A deployment with `CHRONON_LEADER_TTL_S`. -/
structure CoordHost where
  host : Host
  leaderTtlS : Option Int

/-- `leader_ttl_secs_from_env`. -/
def leaderTtlSecsFromEnv (env : CoordHost) : Int := intFromEnv env.leaderTtlS 30

/-- `am_i_leader`, over `current_leader`. -/
def amILeader (instanceId : String) : Task (Result Bool) := do
  match ← call .getLeader with
  | .error e => return .error e
  | .ok none => return .ok false
  | .ok (some leader) =>
    let now ← utcNow
    return .ok (decide (leader.leaderLeaseUntil > now) && leader.leaderInstanceId == instanceId)

namespace LeaderElector

/-- The step of a leader: renew, then check the stored row, whatever the renewal answered. -/
def keepLeading (env : CoordHost) (instanceId : String) : CoordTask Unit := do
  let _ ← base (call (.renewLeaderLease instanceId (leaderTtlSecsFromEnv env)))
  match ← base (amILeader instanceId) with
  | .ok true => return ()
  | _ =>
    access (.releaseAll instanceId)
    access (.storeLeader instanceId false)

/-- The step of a standby. -/
def campaign (env : CoordHost) (instanceId : String) : CoordTask Unit := do
  match ← base (call (.tryAcquireLeader instanceId (leaderTtlSecsFromEnv env))) with
  | .ok true =>
    access (.assignAllEmbedded instanceId)
    access (.storeLeader instanceId true)
  | _ => return ()

/-- `LeaderElector::step_once`. -/
def stepOnce (env : CoordHost) (instanceId : String) : CoordTask Unit := do
  let wasLeader ← access (.loadLeader instanceId)
  if wasLeader then keepLeading env instanceId else campaign env instanceId

/-- What `run_election_loop` does once it is shut down. -/
def shutDown (instanceId : String) : CoordTask Unit := do
  let leads ← access (.loadLeader instanceId)
  if leads then access (.releaseAll instanceId)

end LeaderElector

/-- One pass of `run_coordinator_tick_loop`; the result is `draining` afterwards. -/
def coordinatorPass (env : CoordHost) (instanceId : String) (draining : Bool) : CoordTask Bool := do
  let leads ← access (.loadLeader instanceId)
  if leads then
    let ticked ← base (runOneTick env.host instanceId draining)
    return ticked.2
  else
    base (sleep (milliseconds (tickIntervalMsFromEnv env.host.env)))
    return draining

end Chronon
