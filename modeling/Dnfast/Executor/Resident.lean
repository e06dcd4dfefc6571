import Dnfast.Executor.Pool

/-! # The resident planner

`dnfast-executor`, `resident.rs`: the planner of the daemon keeps a pool over the installed packages
and the repositories of the planning snapshot, and answers requests from it as long as the pool is
current (`ensure`). Three pieces of state say how far the RPM database has been verified: the startup
state, which one build of a pool takes up (`pendingInstalled`), the cookie that was verified last, and
the generation that the pool is bound to.

A call finds one `World`: the files of the database with their receipts, the planning store, the
process-wide inventory cache and the clock. A read of the database goes through the cache, and a second
read of the same call finds what the first one did. Any operation outside may fail (`fault`). What a
call leaves in the files is part of what the next call finds.

The log of a planner is what it found out about the database so far: it is no part of the source, and
no function reads it. -/

namespace Dnfast.Executor

open Except (okOr refuseIf)
open Cache (RpmDbVerifiedGeneration RpmDbStartupState RpmdbFiles)
open Core (Action Architecture InstalledInventory PackageSpec PlanIntegrity TransactionIntent)
open Native (CachedInventory InventorySnapshot)
open Planning (PlanningSnapshot inventorySha256 policySha256)

/-- The operations outside that may fail. -/
inductive External where
  | currentDigest
  | isCurrent
  | readCached
  | openSnapshot
  | isCurrentPending
  | readPending
  | openContext
  | addInstalled
  | readOpened
  | verifyInstalled
  | readVerified
  | workspace
  | loadRepository (id : String)
  | setModuleExcludes
  | prepareSolver
  | receipts
  | publishCurrent
  | readRefreshed
  | prefetch
  deriving DecidableEq

structure World where
  files : RpmdbFiles
  store : Planning.Store
  cache : Option CachedInventory
  now : UInt64
  /-- The solv cache has the installed packages of the cookie and the inventory. -/
  installedSolv : InventorySnapshot → Bool
  fault : External → Option DaemonError

def World.run (w : World) (operation : External) : Except DaemonError Unit :=
  match w.fault operation with
  | none => .ok ()
  | some e => .error e

/-- `read_installed_inventory_snapshot`. -/
def World.readSnapshot (w : World) (operation : External) : Except DaemonError InventorySnapshot := do
  w.run operation
  (Native.readSnapshotFromContext w.files.db w.cache).1.mapError .inventory

/-- What a planner found out about the files of the database: a receipt that is not current, a full
verification that succeeded, and a request that goes on with a pool over these files. -/
inductive Finding where
  | missed (files : RpmdbFiles)
  | verified
  | accepted (files : RpmdbFiles)

structure PendingInstalled where
  architecture : Architecture
  context : NativeContext
  snapshot : InventorySnapshot
  receiptGeneration : Option RpmDbVerifiedGeneration

structure ResidentPlanner where
  cached : Option ResidentPool
  verifiedRpmdbCookie : Option String
  pendingInstalled : Option PendingInstalled
  log : List Finding

/-- `ResidentPlanner::default`. -/
def ResidentPlanner.new : ResidentPlanner := ⟨none, none, none, []⟩

section
variable (out : Outside)

/-- `same_inventory_generation`. -/
def sameInventoryGeneration (before after : InventorySnapshot) : Bool :=
  before.rpmdbCookie = after.rpmdbCookie &&
    inventorySha256 out.lib.crates before.inventory = inventorySha256 out.lib.crates after.inventory

def openSystem (w : World) : Except DaemonError PlanningSnapshot := do
  w.run .openSnapshot
  (Planning.openSnapshot out.lib w.store).mapError .snapshot

def currentSystemDigest (w : World) : Except DaemonError String := do
  w.run .currentDigest
  (Planning.currentDigest w.store).mapError .snapshot

def isCurrent (w : World) (operation : External) (generation : RpmDbVerifiedGeneration) :
    Except DaemonError Bool := do
  w.run operation
  (w.files.isCurrent out.lib.crates.sha256 generation).mapError .cache

/-! ## The installed packages -/

/-- `add_installed_rpmdb`: what was loaded before is replaced. -/
def addInstalledRpmdb (w : World) (context : NativeContext) : Except DaemonError NativeContext := do
  w.run .addInstalled
  let db ← w.files.db.mapError .native
  return { context with installed := some (.rpmdb db) }

def openInstalledContext (w : World) (architecture : Architecture) :
    Except DaemonError (NativeContext × InventorySnapshot) := do
  w.run .openContext
  let context ← addInstalledRpmdb w (.open architecture)
  let snapshot ← w.readSnapshot .readOpened
  return (context, snapshot)

def verifyRpmdbUnchanged (w : World) (before : InventorySnapshot) :
    Except DaemonError InventorySnapshot := do
  w.run .verifyInstalled
  let after ← w.readSnapshot .readVerified
  refuseIf (!sameInventoryGeneration out before after)
    (.planning "RPMDB changed while full verification was in progress")
  return after

/-- `load_installed_solv_cache`. -/
def loadInstalledSolvCache (w : World) (snapshot : InventorySnapshot) (context : NativeContext) :
    Except DaemonError NativeContext :=
  if w.installedSolv snapshot then do
    w.run .addInstalled
    return { context with installed := some (.solv snapshot.rpmdbCookie snapshot.inventory) }
  else addInstalledRpmdb w context

/-! ## Startup -/

def nativeAbi : UInt32 := 4

def rpmdbReceiptBinding (snapshot : InventorySnapshot) (architecture : Architecture) : String :=
  (out.lib.crates.sha256 ("dnfast-rpmdb-verification-receipt-v2\nnative_abi=" ++
    nativeAbi.toNat.repr ++ "\narchitecture=" ++ architecture.asRpmArch ++ "\nrpmdb_cookie=" ++
    snapshot.rpmdbCookie ++ "\ninventory_sha256=" ++
    (inventorySha256 out.lib.crates snapshot.inventory).asStr ++ "\n").asBytes).asStr

/-- The conditions on the startup state of the current receipt. -/
def startupStateHolds (state : RpmDbStartupState) (architecture : Architecture)
    (published : InstalledInventory) : Bool :=
  state.schema = "dnfast-rpmdb-startup-state-v1" && state.nativeAbi = nativeAbi &&
    state.architecture = architecture.asRpmArch && state.rpmdbCookie != "" &&
    state.rpmdbCookie.utf8ByteSize ≤ 4096 &&
    state.inventorySha256 = (inventorySha256 out.lib.crates published).asStr

/-- The state that the current receipt vouches for, if it does. -/
def startupReceipt (w : World) (architecture : Architecture) (published : InstalledInventory) :
    Except DaemonError (Option (InventorySnapshot × RpmDbVerifiedGeneration)) := do
  w.run .receipts
  match ← (w.files.currentReceipt out.lib.crates.sha256).mapError .cache with
  | .hit ⟨some state, generation⟩ =>
    let candidate : InventorySnapshot := ⟨published, state.rpmdbCookie⟩
    let check ← (w.files.check out.lib.crates.sha256
      (rpmdbReceiptBinding out candidate architecture)).mapError .cache
    return if startupStateHolds out state architecture published ∧ check = .hit generation then
      some (candidate, generation) else none
  | .hit ⟨none, _⟩ | .miss _ | .unsupported => return none

/-- The verification at startup, when no current receipt vouches for the database. -/
def startupVerify (w : World) (architecture : Architecture) :
    Except DaemonError (InventorySnapshot × Option RpmDbVerifiedGeneration) := do
  w.run .openContext
  let before ← w.readSnapshot .readOpened
  match ← (w.files.check out.lib.crates.sha256
    (rpmdbReceiptBinding out before architecture)).mapError .cache with
  | .hit generation =>
    w.run .publishCurrent
    (w.files.publishCurrent out.lib.crates.sha256 generation).mapError .cache
    return (before, some generation)
  | .miss generation _ =>
    let snapshot ← verifyRpmdbUnchanged out w before
    w.run .publishCurrent
    (w.files.publishCurrent out.lib.crates.sha256 generation).mapError .cache
    return (snapshot, some generation)
  | .unsupported =>
    let snapshot ← verifyRpmdbUnchanged out w before
    return (snapshot, none)

/-- `startupVerify` verified the whole database. -/
def startupVerified (w : World) (architecture : Architecture) : Bool :=
  match (do w.run .openContext; w.readSnapshot .readOpened) with
  | .error _ => false
  | .ok before =>
    match w.files.check out.lib.crates.sha256 (rpmdbReceiptBinding out before architecture) with
    | .ok (.miss _ _) | .ok .unsupported => (verifyRpmdbUnchanged out w before).isOk
    | _ => false

/-- The installed packages that startup leaves for the first pool. -/
def startupState (w : World) (architecture : Architecture) : Except DaemonError PendingInstalled := do
  let published ← openSystem out w
  refuseIf (published.payload.policy.solver.baseArch ≠ architecture)
    (.planning "root-published architecture differs from the native process")
  let (snapshot, generation) ← match ← startupReceipt out w architecture
      published.payload.inventory with
    | some (candidate, generation) => do
      w.run .openContext
      pure (candidate, some generation)
    | none => startupVerify out w architecture
  let context ← loadInstalledSolvCache w snapshot (.open architecture)
  return ⟨architecture, context, snapshot, generation⟩

/-- No current receipt vouches for the database, and the verification at startup succeeds. -/
def startupVerifies (w : World) (architecture : Architecture) : Bool :=
  match openSystem out w with
  | .error _ => false
  | .ok published =>
    published.payload.policy.solver.baseArch = architecture &&
      (match startupReceipt out w architecture published.payload.inventory with
      | .ok none => startupVerified out w architecture
      | _ => false)

namespace ResidentPlanner

def logged (s : ResidentPlanner) (findings : List Finding) : ResidentPlanner :=
  { s with log := s.log ++ findings }

def verifyStartup (w : World) (architecture : Architecture) (s : ResidentPlanner) :
    Except DaemonError Unit × ResidentPlanner :=
  let s := s.logged (if startupVerifies out w architecture then [.verified] else [])
  match startupState out w architecture with
  | .error e => (.error e, s)
  | .ok pending => (.ok (), { s with
      verifiedRpmdbCookie := some pending.snapshot.rpmdbCookie
      pendingInstalled := some pending })

end ResidentPlanner

/-! ## Building a pool -/

/-- What a build starts from: a context with the installed packages, how they were read, whether they
have to be verified in any case, and the generation whose receipt is current. -/
structure Opened where
  context : NativeContext
  current : InventorySnapshot
  requireFullVerify : Bool
  generation : Option RpmDbVerifiedGeneration

/-- The startup state is for the architecture, and its receipt is not current. -/
def pendingMissed (w : World) (architecture : Architecture) (pending : Option PendingInstalled) :
    Bool :=
  match pending with
  | some pending =>
    pending.architecture = architecture &&
      (match pending.receiptGeneration with
      | some generation =>
        (match isCurrent out w .isCurrentPending generation with
        | .ok current => !current
        | .error _ => false)
      | none => false)
  | none => false

/-- The start of `build_pool`. -/
def openPool (w : World) (architecture : Architecture) (pending : Option PendingInstalled) :
    Except DaemonError Opened :=
  let anew (requireFullVerify : Bool) : Except DaemonError Opened := do
    let (context, snapshot) ← openInstalledContext w architecture
    return ⟨context, snapshot, requireFullVerify, none⟩
  match pending with
  | some pending =>
    if pending.architecture = architecture then do
      let receiptCurrent ← match pending.receiptGeneration with
        | some generation => isCurrent out w .isCurrentPending generation
        | none => .ok false
      if receiptCurrent then
        return ⟨pending.context, pending.snapshot, false, pending.receiptGeneration⟩
      else
        let live ← w.readSnapshot .readPending
        if sameInventoryGeneration out pending.snapshot live then
          return ⟨pending.context, live, pending.receiptGeneration.isSome, none⟩
        else anew pending.receiptGeneration.isSome
    else anew false
  | none => anew false

/-- The database has to be verified before it is accepted. -/
def Opened.needsVerify (o : Opened) (verifiedRpmdbCookie : Option String) : Bool :=
  o.requireFullVerify || verifiedRpmdbCookie ≠ some o.current.rpmdbCookie

def Opened.verify (o : Opened) (w : World) (verifiedRpmdbCookie : Option String) :
    Except DaemonError InventorySnapshot :=
  if o.needsVerify verifiedRpmdbCookie then verifyRpmdbUnchanged out w o.current else .ok o.current

def loadRepository (w : World) (r : Planning.PlanningRepository) (context : NativeContext) :
    Except DaemonError NativeContext := do
  refuseIf (r.priority.toNat ≥ 2 ^ 31 ∨ r.cost.toNat ≥ 2 ^ 31)
    (.planning "out of range integral type conversion attempted")
  w.run (.loadRepository r.id)
  return { context with repositories := context.repositories ++ [r] }

def moduleArtifactPolicy (snapshot : PlanningSnapshot) (ids : List String) :
    Except DaemonError (List (String × Bool)) :=
  Except.mapError DaemonError.snapshot do
    let selected ← snapshot.selectedRepositories ids
    out.artifactPolicies selected snapshot.payload.moduleState snapshot.payload.policy.solver.baseArch

/-- The rest of `build_pool`, over the installed packages. -/
def fillPool (w : World) (snapshot : PlanningSnapshot) (ids : List String)
    (integrity : PlanIntegrity) (o : Opened) (current : InventorySnapshot) :
    Except DaemonError ResidentPool := do
  refuseIf (inventorySha256 out.lib.crates current.inventory ≠
    inventorySha256 out.lib.crates snapshot.payload.inventory)
    (.planning "root-published planning snapshot has stale RPMDB inventory")
  let selected ← selectedRepositories snapshot integrity
  let policies ← moduleArtifactPolicy out snapshot ids
  w.run .workspace
  let context ← selected.foldlM (fun context r => loadRepository w r context) o.context
  let excludes := (policies.filter (·.2)).map (·.1)
  w.run .setModuleExcludes
  w.run .prepareSolver
  return {
    snapshot := snapshot
    repositoryIds := ids
    integrity := integrity
    policy := snapshot.payload.policy.solver
    repositories := selected
    moduleArtifactPolicy := policies
    context := { context with moduleExcludes := excludes, prepared := true }
    inventory := current.inventory
    rpmdbCookie := current.rpmdbCookie
    rpmdbGeneration := o.generation
    lastSolve := none }

def buildPool (w : World) (snapshot : PlanningSnapshot) (ids : List String)
    (integrity : PlanIntegrity) (verifiedRpmdbCookie : Option String)
    (pending : Option PendingInstalled) : Except DaemonError ResidentPool := do
  let o ← openPool out w snapshot.payload.policy.solver.baseArch pending
  let current ← o.verify out w verifiedRpmdbCookie
  fillPool out w snapshot ids integrity o current

/-- What `buildPool` finds out about the database. -/
def buildFindings (w : World) (architecture : Architecture) (verifiedRpmdbCookie : Option String)
    (pending : Option PendingInstalled) : List Finding :=
  (if pendingMissed out w architecture pending then [.missed w.files] else []) ++
    match openPool out w architecture pending with
    | .error _ => []
    | .ok o =>
      if o.needsVerify verifiedRpmdbCookie ∧ (o.verify out w verifiedRpmdbCookie).isOk then
        [.verified]
      else []

/-! ## Requests -/

/-- How `ensure` finds the pool: current, or not, with or without a receipt that was missed. -/
inductive Freshness where
  | current
  | outdated (receiptMissed : Bool)
  deriving DecidableEq

def freshness (w : World) (repositories : List String) (digest : String)
    (cached : Option ResidentPool) : Except DaemonError Freshness :=
  match cached with
  | none => .ok (.outdated false)
  | some pool =>
    if pool.repositoryIds = repositories ∧ pool.integrity.planningSnapshotSha256.asStr = digest then
      match pool.rpmdbGeneration with
      | some generation => do
        return if ← isCurrent out w .isCurrent generation then .current else .outdated true
      | none => do
        let current ← w.readSnapshot .readCached
        return if pool.rpmdbCookie = current.rpmdbCookie then .current else .outdated false
    else .ok (.outdated false)

namespace ResidentPlanner

/-- The second half of `ensure`: a new pool. -/
def rebuild (w : World) (repositories : List String) (s : ResidentPlanner) :
    Except DaemonError Unit × ResidentPlanner :=
  let bound : Except DaemonError (PlanningSnapshot × PlanIntegrity) := do
    let snapshot ← openSystem out w
    let integrity ←
      (Planning.integrityForRepositories out.lib snapshot repositories).mapError .snapshot
    return (snapshot, integrity)
  match bound with
  | .error e => (.error e, s)
  | .ok (snapshot, integrity) =>
    let findings := buildFindings out w snapshot.payload.policy.solver.baseArch
      s.verifiedRpmdbCookie s.pendingInstalled
    match buildPool out w snapshot repositories integrity s.verifiedRpmdbCookie
      s.pendingInstalled with
    | .error e => (.error e, { s.logged findings with pendingInstalled := none })
    | .ok pool => (.ok (), { s.logged (findings ++ [.accepted w.files]) with
        pendingInstalled := none
        verifiedRpmdbCookie := some pool.rpmdbCookie
        cached := some pool })

def ensure (w : World) (repositories : List String) (s : ResidentPlanner) :
    Except DaemonError Unit × ResidentPlanner :=
  match (do freshness out w repositories (← currentSystemDigest w) s.cached) with
  | .error e => (.error e, s)
  | .ok .current => (.ok (), s.logged [.accepted w.files])
  | .ok (.outdated false) => s.rebuild out w repositories
  | .ok (.outdated true) =>
    -- a receipt that is not current is not followed by an acceptance of the cookie alone
    ({ s.logged [.missed w.files] with verifiedRpmdbCookie := none } : ResidentPlanner).rebuild
      out w repositories

def invalidate (s : ResidentPlanner) : ResidentPlanner :=
  { s with cached := none, pendingInstalled := none }

def warm (w : World) (repositories : List String) (s : ResidentPlanner) :
    Except DaemonError Unit × ResidentPlanner :=
  s.ensure out w repositories

end ResidentPlanner

/-! ## Solving -/

def intentOf (action : Action) (packages : List String) : Except DaemonError TransactionIntent := do
  let packages ← (packages.mapM PackageSpec.parse).mapError DaemonError.intent
  (TransactionIntent.new action packages).mapError DaemonError.intent

/-- What the prefetch found: the snapshot that it read, and for every absolute selector the ordinals
that each repository has. -/
structure PrefetchedFileSelectors where
  snapshotSha256 : String
  selectors : List (Nat × List (String × List UInt32))

/-- `spawn_file_selector_prefetch`, by what its thread returns. -/
def prefetchFileSelectors (w : World) (names repositoryIds : List String) :
    Except DaemonError PrefetchedFileSelectors := do
  w.run .prefetch
  let snapshot ← (Planning.openSnapshot out.lib w.store).mapError .snapshot
  let digest ← (snapshot.digest out.lib).mapError .snapshot
  let integrity ← (Planning.integrityForRepositories out.lib snapshot repositoryIds).mapError .snapshot
  let repositories ← selectedRepositories snapshot integrity
  let selectors ← (names.zipIdx.filter (isAbsolute ·.1)).mapM fun (selector, index) => do
    let ordinals ← scan out repositories selector
    return (index, ordinals.map fun (repository, ordinals) => (repository.id, ordinals))
  return ⟨digest, selectors⟩

/-- The repositories of the pool that prefetched ordinals are for. -/
def prefetchedOrdinals (pool : ResidentPool) (found : List (String × List UInt32)) :
    Except DaemonError (List (Planning.PlanningRepository × List UInt32)) :=
  found.mapM fun (id, ordinals) => do
    let repository ← okOr (pool.repositories.find? (·.id = id))
      (.planning "prefetched repository differs from resident selection")
    return (repository, ordinals)

def mappedFileSelectorsFromPrefetch (pool : ResidentPool) (names : List String)
    (prefetched : PrefetchedFileSelectors) : Except DaemonError (List MappedSelector) := do
  let mapped ← prefetched.selectors.mapM fun (index, found) => do
    let requested ← okOr names[index]? (.planning "prefetched file selector index changed")
    mappedSelector out pool index requested (prefetchedOrdinals pool found)
  return mapped.filterMap id

/-- Every absolute selector has a provider in the primary metadata. -/
def everyAbsoluteIsPrimary (pool : ResidentPool) (names : List String) : Except DaemonError Bool :=
  names.foldlM (fun allPrimary selector =>
    if !allPrimary || !isAbsolute selector then .ok allPrimary
    else (out.hasProvider pool.context selector).mapError .native) true

/-- The mapped selectors of a request, from its prefetch if it has one. -/
def requestSelectors (pool : ResidentPool) (names : List String)
    (prefetch : Option (Except DaemonError PrefetchedFileSelectors)) :
    Except DaemonError (List MappedSelector) := do
  let primary ← everyAbsoluteIsPrimary out pool names
  match prefetch with
  | some prefetch =>
    if primary then return []
    else
      let prefetched ← prefetch
      if prefetched.snapshotSha256 = pool.integrity.planningSnapshotSha256.asStr then
        mappedFileSelectorsFromPrefetch out pool names prefetched
      else mappedFileSelectors out pool names
  | none => mappedFileSelectors out pool names

/-- The plan that is solved on a pool. -/
def solveOn (pool : ResidentPool) (intent : TransactionIntent) (now : UInt64)
    (prefetch : Option (Except DaemonError PrefetchedFileSelectors)) :
    Except DaemonError Solver.CanonicalSolverPlan := do
  let names := intent.packages.map (·.asStr)
  let mapped ← requestSelectors out pool names prefetch
  let result ← nativeSolve out pool intent.action names pool.policy mapped
  planFor out pool intent now result

/-- The plan that is returned with what the pool says of it. -/
def ResidentPool.solved (pool : ResidentPool) (plan : Solver.CanonicalSolverPlan) : SolvedPlan where
  plan := plan
  integrity := pool.integrity
  policy := pool.policy
  repositories := pool.repositories
  inventory := pool.inventory
  rpmdbCookie := pool.rpmdbCookie

/-- The last plan of the pool, if it is for the request and has not expired. -/
def ResidentPool.remembered (pool : ResidentPool) (action : Action) (names : List String)
    (now : UInt64) : Option Solver.CanonicalSolverPlan :=
  (pool.lastSolve.filter fun entry => entry.action = action ∧ entry.packages = names ∧
    entry.plan.proposal.expiresAtUnix > now).map (·.plan)

namespace ResidentPlanner

/-- `solve`, after `ensure`. -/
def solveCached (w : World) (intent : TransactionIntent)
    (prefetch : Option (Except DaemonError PrefetchedFileSelectors)) (s : ResidentPlanner) :
    Except DaemonError SolvedPlan × ResidentPlanner :=
  match s.cached with
  | none => (.error (.planning "resident pool"), s)
  | some pool =>
    let names := intent.packages.map (·.asStr)
    match pool.remembered intent.action names w.now with
    | some plan => (.ok (pool.solved plan), s)
    | none =>
      match solveOn out pool intent w.now prefetch with
      | .error e => (.error e, s)
      | .ok plan => (.ok (pool.solved plan), { s with
          cached := some { pool with lastSolve := some ⟨intent.action, names, plan⟩ } })

def solve (w : World) (action : Action) (packages repositories : List String)
    (s : ResidentPlanner) : Except DaemonError SolvedPlan × ResidentPlanner :=
  match intentOf action packages with
  | .error e => (.error e, s)
  | .ok intent =>
    let names := intent.packages.map (·.asStr)
    let prefetch := if s.cached.isNone ∧ names.any isAbsolute then
      some (prefetchFileSelectors out w names repositories) else none
    match s.ensure out w repositories with
    | (.error e, s) => (.error e, s)
    | (.ok (), s) => s.solveCached out w intent prefetch

/-! ## After a transaction -/

/-- The pool over the database after a transaction. -/
def refreshedPool (w : World) (inventory : InstalledInventory) (publishedSnapshot : String)
    (pool : ResidentPool) : Except DaemonError ResidentPool := do
  let context ← addInstalledRpmdb w pool.context
  let current ← w.readSnapshot .readRefreshed
  refuseIf (inventorySha256 out.lib.crates current.inventory ≠
    inventorySha256 out.lib.crates inventory)
    (.execution "published inventory differs from the post-transaction RPMDB")
  let integrity ← (PlanIntegrity.new pool.integrity.policySha256.asStr
    pool.integrity.trustSha256.asStr (inventorySha256 out.lib.crates inventory).asStr
    pool.integrity.metadataSha256.asStr publishedSnapshot
    pool.integrity.selectedRepositories).mapError .domain
  return { pool with
    context := context
    integrity := integrity
    inventory := inventory
    rpmdbCookie := current.rpmdbCookie
    rpmdbGeneration := none
    lastSolve := none }

def refreshAfterMutation (w : World) (inventory : InstalledInventory)
    (sourceSnapshot publishedSnapshot : String) (s : ResidentPlanner) :
    Except DaemonError Unit × ResidentPlanner :=
  match s.cached with
  | none =>
    (.error (.execution "resident solver pool disappeared after transaction"), s.invalidate)
  | some pool =>
    if pool.integrity.planningSnapshotSha256.asStr ≠ sourceSnapshot then (.ok (), s.invalidate)
    else
      match refreshedPool out w inventory publishedSnapshot pool with
      | .error e => (.error e, s.invalidate)
      | .ok pool => (.ok (), { s with
          cached := some pool
          verifiedRpmdbCookie := some pool.rpmdbCookie })

end ResidentPlanner

end

end Dnfast.Executor
