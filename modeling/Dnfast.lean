import Dnfast.Core.Inventory
import Dnfast.Core.PlanAgreement
import Dnfast.Reason.Runs
import Dnfast.State.Run
import Dnfast.State.Records
import Dnfast.Executor.Recovery
import Dnfast.Group.Once
import Dnfast.Solver.Coverage
import Dnfast.Solver.Compact
import Dnfast.Solver.Consumed
import Dnfast.Cli.Autoremove
import Dnfast.Trust.Combined
import Dnfast.Trust.ReadsSpec
import Dnfast.Planning.Digest
import Dnfast.Planning.LazyManifest
import Dnfast.Planning.FileProviders
import Dnfast.Planning.Reuse
import Dnfast.Json.Weight
import Dnfast.Planning.Writers
import Dnfast.Native.Calls
import Dnfast.Executor.Incremental
import Dnfast.Executor.Recheck
import Dnfast.Executor.Published
import Dnfast.Executor.Memo
import Dnfast.Planning.Freshness
import Dnfast.Native.Replacement
import Dnfast.Executor.Vendor
import Dnfast.Executor.ModuleExcludes
import Dnfast.Executor.Artifacts
import Dnfast.Executor.Daemon
import Dnfast.Refresh.Atomic
import Dnfast.Cli.Refresh
import Dnfast.Group.Removal
import Dnfast.State.Log
import Dnfast.Core.VersionTokens
import Dnfast.Core.Inspect
import Dnfast.Solver.Cycles
import Dnfast.Solver.Listing
import Dnfast.Metadata.ScanChunks
import Dnfast.Planning.Buckets
import Dnfast.Repo.Expire
import Dnfast.Cli.GroupPackages
import Dnfast.Planning.ModuleMutation
import Dnfast.Planning.ModuleOwners
import Dnfast.Native.ExecutorFd
import Dnfast.Cache.ArtifactRuns
import Dnfast.Cache.Damage
import Dnfast.Repo.Variables
import Dnfast.Planning.Selector
import Dnfast.Repo.Agreement
import Dnfast.Repo.KeyBundle
import Dnfast.Repo.Loader
import Dnfast.Repo.Setopts
