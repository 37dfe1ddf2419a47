import Chronon.Concurrent.Rules
import Chronon.Tick.RunOnce
import Chronon.Tick.Refire
import Chronon.Tick.Staleness
import Chronon.Tick.Fencing
import Chronon.Edit.Schedule
import Chronon.Edit.Owned
import Chronon.Runs.Chains
import Chronon.Runs.Recovery
import Chronon.Runs.Limit
import Chronon.Leader.Deposed
import Chronon.Redis.Stranding
import Chronon.Redis.Faults
import Chronon.Redis.Agreement
import Chronon.Sql.Agreement
import Chronon.Runs.Reasons
import Chronon.Runs.Overlap
import Chronon.Edit.RunOnceDue
import Chronon.Edit.Leftover
import Chronon.Tick.Traces
import Chronon.Tick.Starvation
import Chronon.Tick.Sleeping
import Chronon.Edit.Privilege
import Chronon.Mem.Lookup
import Chronon.Edit.Revisions
import Chronon.Edit.Remote
import Chronon.Runs.Sanitized
import Chronon.Leases.Fair
import Chronon.Runtime.Loops
import Chronon.Axum.Requests
import Chronon.Edit.Interleaved
import Chronon.Runs.Draining
import Chronon.Sql.Batch
import Chronon.Runs.Backoff
import Chronon.Runs.Attempts
import Chronon.Runs.Counting
import Chronon.Leases.Renewal
import Chronon.Edit.Repartition
import Chronon.Concurrent.Crossing
import Chronon.Mem.Sections
import Chronon.Sql.Statements
import Chronon.Edit.Deletion
import Chronon.Redis.Keys
import Chronon.Text.Slices
import Chronon.Telemetry.LogCapture
import Chronon.Telemetry.Accounting
import Chronon.Relational.Rows
import Chronon.Sql.Columns
import Chronon.Sql.ReadBack
import Chronon.Text.Edits
import Chronon.Core.Userinfo
import Chronon.Core.Redaction
import Chronon.Core.Cuts
import Chronon.Core.Sanitizing
import Chronon.Core.Secrets
import Chronon.Executor.Lifecycle
import Chronon.Text.JsonText
import Chronon.Collections.OrderedMap
import Chronon.Macros.Syntax
import Chronon.Macros.Derive
import Chronon.Macros.Expand
import Chronon.Macros.Accepted
import Chronon.Macros.Calls
import Chronon.Concurrent.Twins
import Chronon.Axum.Router
import Chronon.Mem.Shown
import Chronon.Axum.Confidential
import Chronon.Axum.Pages
import Chronon.Runs.Waiting
import Chronon.Runs.Executed
import Chronon.Executor.Registry
