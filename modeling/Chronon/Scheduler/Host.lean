import Chronon.System.World

/-!
# `chronon-scheduler/src/cron.rs` and `partitioning.rs`

The crates the scheduler rests on are parameters: the cron and timezone
parsers with their next-occurrence search (`CronLib`), and the hash that
spreads jobs over partitions. `EnvVars` holds the environment variables after
parsing, `none` standing for one that is unset or does not parse.
-/

namespace Chronon
set_option autoImplicit false

/-- `croner` and `chrono_tz`. `findNext` is `find_next_occurrence` without the
start itself, taken to UTC. -/
structure CronLib where
  Cron : Type
  Tz : Type
  parse : String → Except String Cron
  parseTz : String → Option Tz
  utc : Tz
  findNext : Cron → Tz → DateTime → Option DateTime

/-- The environment variables, parsed. -/
structure EnvVars where
  numPartitions : Option Nat
  tickIntervalMs : Option Nat
  tickBatchLimit : Option Nat
  jobClaimLeaseTtlS : Option Int
  runLeaseTtlS : Option Int
  runLeaseRenewS : Option Nat
  disableCoordinator : Bool
  disableWorker : Bool
  interactive : Bool

/-- No variable is set. -/
def EnvVars.unset : EnvVars := ⟨none, none, none, none, none, none, false, false, false⟩

/-- The libraries, the environment and the registered scripts of a deployment. -/
structure Host where
  cron : CronLib
  xxh64 : String → Nat
  env : EnvVars
  registry : List String

/-! ## `cron.rs` -/

/-- `CronExpr`. -/
structure CronExpr (lib : CronLib) where
  expr : String
  schedule : lib.Cron
  timezone : lib.Tz

namespace CronExpr

variable {lib : CronLib}

/-- `CronExpr::parse`. -/
def parse (lib : CronLib) (expr : String) (timezone : Option String) : Result (CronExpr lib) :=
  match lib.parse expr with
  | .error e => .error (.invalidCron (expr ++ ": " ++ e))
  | .ok schedule =>
    match timezone with
    | some name =>
      match lib.parseTz name with
      | some tz => .ok ⟨expr, schedule, tz⟩
      | none => .error (.invalidTimezone name)
    | none => .ok ⟨expr, schedule, lib.utc⟩

/-- `CronExpr::next_after`. -/
def nextAfter (cron : CronExpr lib) (after : DateTime) : Option DateTime :=
  lib.findNext cron.schedule cron.timezone after

end CronExpr

/-- Two real schedules, `* * * * *` and `0 * * * *`, in UTC. -/
def CronLib.simple : CronLib where
  Cron := { period : Int // 0 < period }
  Tz := Unit
  parse expr :=
    if expr = "* * * * *" then .ok ⟨60, by decide⟩
    else if expr = "0 * * * *" then .ok ⟨3600, by decide⟩
    else .error "unsupported"
  parseTz name := if name = "UTC" then some () else none
  utc := ()
  findNext period _ after := some ((after / seconds period.1 + 1) * seconds period.1)

/-- A deployment with that library, no environment variable set and one script. -/
def Host.simple : Host := ⟨.simple, fun _ => 0, .unset, ["noop"]⟩

/-! ## `partitioning.rs` -/

/-- `partition_index_for_job_id`. -/
def partitionIndexForJobId (host : Host) (jobId : String) (numPartitions : Nat) : Nat :=
  host.xxh64 jobId % max numPartitions 1

/-- A variable that must be at least one, or its default. -/
def natFromEnv (value : Option Nat) (default : Nat) : Nat := (value.filter (1 ≤ ·)).getD default

theorem natFromEnv_pos (value : Option Nat) {default : Nat} (positive : 0 < default) : 0 < natFromEnv value default := by
  unfold natFromEnv
  cases chosen : value.filter (1 ≤ ·) with
  | none => exact positive
  | some n =>
    have atLeast := (Option.filter_eq_some_iff.mp chosen).2
    rw [decide_eq_true_eq] at atLeast
    exact atLeast

def intFromEnv (value : Option Int) (default : Int) : Int := (value.filter (1 ≤ ·)).getD default

def numPartitionsFromEnv (env : EnvVars) : Nat := natFromEnv env.numPartitions 64

def tickIntervalMsFromEnv (env : EnvVars) : Nat := natFromEnv env.tickIntervalMs 250

def tickBatchLimitFromEnv (env : EnvVars) : Nat := natFromEnv env.tickBatchLimit 500

def jobClaimLeaseTtlSecs (env : EnvVars) : Int := intFromEnv env.jobClaimLeaseTtlS 5

def runWorkerLeaseTtlSecs (env : EnvVars) : Int := intFromEnv env.runLeaseTtlS 300

def runWorkerLeaseRenewSecs (env : EnvVars) : Nat := natFromEnv env.runLeaseRenewS 1

/-- `partition_hash_i64_for_job_id`. -/
def partitionHashI64ForJobId (host : Host) (jobId : String) : Int :=
  partitionIndexForJobId host jobId (numPartitionsFromEnv host.env)

/-- `DEFAULT_POOL`. -/
def defaultPool : String := "general"

/-- `job_execution_pool_id`. -/
def jobExecutionPoolId (job : Job) : String :=
  ((job.pool.map trim).filter (· ≠ "")).getD defaultPool

/-! ## Calls -/

/-- Issue one call. -/
def issue (op : Op) : Task (Ans op) := Concurrent.Prog.perform op

/-- A store call. -/
def call (c : StoreCall) : Task (Result c.Ret) := issue (.store c)

/-- `Utc::now`. -/
def utcNow : Task DateTime := issue .utcNow

/-- `Uuid::new_v4().to_string()`. -/
def newUuid : Task String := issue .newUuid

/-- `tokio::time::sleep`, in nanoseconds. -/
def sleep (duration : Int) : Task Unit := issue (.sleep duration)

/-- A panic ends the task where it stands. -/
def panicked {α : Type} : Task α := .call .panic fun never => nomatch never

end Chronon
