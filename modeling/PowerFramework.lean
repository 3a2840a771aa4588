import PowerFramework.Catalog.Exactness
import PowerFramework.Catalog.Freshness
import PowerFramework.Catalog.Index
import PowerFramework.Catalog.Rendering
import PowerFramework.Domain.Serving
import PowerFramework.Egress.Redirects
import PowerFramework.Egress.Request
import PowerFramework.Generation.Runs
import PowerFramework.Handoff.Crash
import PowerFramework.Handoff.Independence
import PowerFramework.Handoff.Lifecycle
import PowerFramework.Ingestion.Append
import PowerFramework.Ingestion.Import
import PowerFramework.Ledger.Acceptance
import PowerFramework.Ledger.AppendIntegrity
import PowerFramework.Ledger.Idempotency
import PowerFramework.Ledger.Rotation
import PowerFramework.Lib.BoundedSearch
import PowerFramework.Lib.Crash
import PowerFramework.Lib.JsonText
import PowerFramework.Lib.Path
import PowerFramework.Lib.PythonValue
import PowerFramework.Lib.Realpath
import PowerFramework.Lib.Run
import PowerFramework.Lib.Segments
import PowerFramework.Lib.Sha256
import PowerFramework.Lib.SortedSet
import PowerFramework.Locks.Deadlock
import PowerFramework.Memory.History
import PowerFramework.Memory.KeyedRuns
import PowerFramework.Native.RollBack
import PowerFramework.Retrieval.Execution
import PowerFramework.Retrieval.Named
import PowerFramework.Retrieval.Packing
import PowerFramework.Retrieval.Sanitising
import PowerFramework.Search.Boundary
import PowerFramework.Search.Chunking
import PowerFramework.Search.Chunks
import PowerFramework.Semantic.Content
import PowerFramework.Source.Projection
import PowerFramework.Source.Slice
import PowerFramework.State.Acceptance
import PowerFramework.State.Approvals
import PowerFramework.State.CycleReports
import PowerFramework.State.Gates
import PowerFramework.State.Raid
import PowerFramework.State.Readiness
import PowerFramework.Task.Appending
import PowerFramework.Task.Steps
import PowerFramework.TaskStore.Artifacts
import PowerFramework.TaskStore.CrashAtomicity
import PowerFramework.TaskStore.Durability
import PowerFramework.TaskStore.Lockout
import PowerFramework.Temporal.Statuses
import PowerFramework.Upkeep.Applying
import PowerFramework.Upkeep.Retention
import PowerFramework.Vault.Caches
import PowerFramework.Vault.NotePaths
import PowerFramework.Vault.Pruning
