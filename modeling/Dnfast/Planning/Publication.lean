import Dnfast.Planning.Store

/-! # Publications

`dnfast-planning`, `publisher.rs`. There are three writers of the planning store. A refresh makes a
snapshot from the configuration and the cache, or takes the repositories of the current one over; the
other two write the current snapshot again with another inventory or with another module state. Each
holds the publication lock from its first look at the store to its end, so a history of the store is a
sequence of publications.

`Publication.snapshot` says what a publication has to store, without the store: from the current
snapshot and from a reader of the contents that it describes. -/

namespace Dnfast.Planning

open Durable
open Core (isLowerDigest InstalledInventory Architecture)
open Except (refuseIf okOr)
open LazyIndex (refuse)

/-! ## Module states -/

def PlanningError.text : PlanningError → String
  | .notRoot => "dnfast planning publication requires EUID 0"
  | .unsafeRoot message => "planning root is unsafe: " ++ message
  | .unsafeSnapshot message => "planning snapshot is unsafe: " ++ message
  | .input message => "planning input is invalid: " ++ message
  | .cache message => "planning cache is invalid: " ++ message
  | .io message => "planning publication failed: " ++ message

/-- `role` of the module metadata. -/
def moduleRole (e : PlanningError) : PlanningError :=
  .input ("module metadata materialization failed: " ++ e.text)

namespace PlanningSnapshot

def selectedRepositories (s : PlanningSnapshot) (ids : List String) :
    Except PlanningError (List PlanningRepository) := do
  let requested := (if ids = [] then s.payload.allowedRepositories.map (·.id) else ids).insertionSort
    (· ≤ ·)
  refuseIf (¬ requested.IsChain (· ≠ ·)) (.input "selected repository identifiers are duplicate")
  requested.mapM fun id => okOr (s.payload.allowedRepositories.find? (·.id = id))
    (.input "selected repository is not root-published and enabled")

end PlanningSnapshot

section
variable (lib : Library) (host : Host)
  (reader : PlanningBytes → Except PlanningError (List UInt8))

/-- `module_metadata` of a repository with a module descriptor, parsed. -/
def parseModuleMetadata (r : PlanningRepository) (descriptor : PlanningBytes) :
    Except PlanningError (List lib.RawModule) := do
  let repomd ← (reader r.repomd).mapError moduleRole
  let records ← (host.parseRepomdRecords repomd).mapError PlanningError.input
  let record ← okOr (records.modules.filter fun record =>
      record.checksum = descriptor.sha256 && record.size = descriptor.size)
    (.input "module metadata descriptor differs from checksum-bound repomd")
  let payload ← (reader descriptor).mapError moduleRole
  lib.parseModules record payload

def repositoryModules (r : PlanningRepository) : Except PlanningError (List lib.RawModule) :=
  match r.modules with
  | none => .ok []
  | some descriptor => parseModuleMetadata lib host reader r descriptor

/-- `module_catalog(&[])?.validate_state(..)`. -/
def validateModuleState (s : PlanningSnapshot) (state : ModuleState) : Except PlanningError Unit := do
  let repositories ← s.selectedRepositories []
  let raw ← repositories.mapM (repositoryModules lib host reader)
  lib.validateState raw.flatten s.payload.policy.solver.baseArch state

end

/-! ## Storing a snapshot -/

section
variable (lib : Library) (occasion : Occasion)

def storeSnapshot (snapshot : PlanningSnapshot) : Program String := do
  let bytes ← checking (snapshot.canonicalBytes lib)
  let digest := (lib.crates.sha256 bytes).asStr
  publishSnapshot occasion digest bytes
  garbageCollect occasion digest
  garbageCollectBlobs lib occasion
  return digest

end

/-! ## Onto the current snapshot -/

section
variable (lib : Library)

/-- The snapshot written again with another payload. -/
def PlanningSnapshot.renewed (current : PlanningSnapshot) (payload : PlanningPayload) :
    Except PlanningError PlanningSnapshot :=
  PlanningSnapshot.newWithRefreshedRepositories lib.crates current.publishedAtUnix
    current.refreshedRepositoryIds payload

def withInventory (current : PlanningSnapshot) (inventory : InstalledInventory) :
    Except PlanningError PlanningSnapshot := do
  let _source ← current.digest lib
  current.renewed lib { current.payload with inventory }

def checkExpected (expected : String) (current : PlanningSnapshot) : Except PlanningError Unit := do
  let digest ← current.digest lib
  refuseIf (digest ≠ expected) (.input "planning snapshot changed during module mutation")

def withModuleState (host : Host) (reader : PlanningBytes → Except PlanningError (List UInt8))
    (current : PlanningSnapshot) (expected : String) (moduleState : ModuleState) :
    Except PlanningError PlanningSnapshot := do
  checkExpected lib expected current
  validateModuleState lib host reader current moduleState
  current.renewed lib { current.payload with moduleState }

variable (occasion : Occasion)

def publishInventoryOntoCurrent (inventory : InstalledInventory) : Program String := do
  let current ← reading (openSnapshot lib)
  let snapshot ← checking (withInventory lib current inventory)
  storeSnapshot lib occasion snapshot

def publishModuleStateOntoCurrent (expected : String) (moduleState : ModuleState) :
    Program String := do
  let current ← reading (openSnapshot lib)
  let snapshot ← reading fun s =>
    withModuleState lib occasion.host (materialize lib s) current expected moduleState
  storeSnapshot lib occasion snapshot

end

/-! ## A refresh -/

structure Refresh where
  profile : MutationProfile
  inventory : InstalledInventory
  publishedAtUnix : UInt64
  hostArchitecture : Architecture
  refreshedGenerations : Option (List (String × String))

namespace Refresh

def refreshedRepositoryIds (r : Refresh) : Option (List String) :=
  r.refreshedGenerations.map (·.map (·.1))

/-- The checks of `publish_after_verified_refresh`. -/
def check (r : Refresh) : Run Unit :=
  match r.refreshedGenerations with
  | none => .ok ()
  | some generations =>
    refuse (generations = [] ∨ ¬ generations.IsChain (·.1 < ·.1) ∨
      ∃ g ∈ generations, !isLowerDigest g.2) "verified refresh generations are absent or noncanonical"

/-- `reuse_unchanged_generations`, when there is something to take over. -/
def reuse (lib : Library) (host : Host) (r : Refresh)
    (reader : PlanningBytes → Except PlanningError (List UInt8)) (current : Option PlanningSnapshot) :
    Run (Option PlanningSnapshot) :=
  match current, r.refreshedGenerations with
  | some current, some generations =>
    reuseUnchangedGenerations lib.crates host lib.indexJson reader r.profile current r.inventory
      r.publishedAtUnix r.hostArchitecture r.refreshedRepositoryIds generations
  | _, _ => .ok none

def moduleState (current : Option PlanningSnapshot) : ModuleState :=
  (current.map (·.payload.moduleState)).getD ⟨[]⟩

def rebuilt (lib : Library) (host : Host) (r : Refresh) (current : Option PlanningSnapshot) :
    Run PlanningSnapshot :=
  snapshotFrom lib.crates host r.profile ⟨r.inventory, moduleState current⟩ r.publishedAtUnix
    r.hostArchitecture r.refreshedRepositoryIds

end Refresh

section
variable (lib : Library) (occasion : Occasion)

/-- The auxiliary objects of a generation. -/
def AuxiliaryPayloads.toList (a : AuxiliaryPayloads) : List VerifiedBytes :=
  a.group.toList ++ a.modules.toList ++ a.updateinfo.toList

/-- `repository_payload` with a store for blobs. -/
def storeRepository (validAtUnix : UInt64) (r : RepoConfig) : Program PlanningRepository := do
  let staged ← Exec.lift (stageRepository lib.crates occasion.host r validAtUnix)
  publishBlobDeferred lib occasion staged.fileProvides.sha256 staged.index
  let repository ← Exec.lift (finishRepository lib.crates occasion.host r staged)
  publishVerifiedBlobDeferred lib occasion staged.generation.repomd
  publishVerifiedFileDeferred lib occasion staged.generation.primary
  publishVerifiedFileDeferred lib occasion staged.generation.filelists
  Exec.forEach (publishVerifiedBlobDeferred lib occasion) staged.auxiliary.toList
  return repository

/-- `snapshot_from` with a store for blobs. -/
def storeSnapshotFrom (r : Refresh) (moduleState : ModuleState) : Program PlanningSnapshot := do
  let configuration ← Exec.lift (normalizedConfiguration r.profile)
  let policy ← Exec.lift (planningPolicy r.profile r.hostArchitecture)
  let repositories ← Exec.mapEach (storeRepository lib occasion r.publishedAtUnix)
    (enabledRepositories r.profile)
  syncBlobs
  Exec.lift (newSnapshot lib.crates r.publishedAtUnix r.refreshedRepositoryIds
    ⟨policy, r.inventory, repositories, configuration, moduleState⟩)

def currentSnapshot (s : Store) : Except PlanningError (Option PlanningSnapshot) := do
  match ← readIfPresent currentPointerName 65 s.files with
  | none => return none
  | some _ => (openSnapshot lib s).map some

def refreshSnapshot (r : Refresh) (current : Option PlanningSnapshot) : Program PlanningSnapshot := do
  match ← Exec.observe fun s => r.reuse lib occasion.host (materialize lib s) current with
  | some reused => return reused
  | none => storeSnapshotFrom lib occasion r (Refresh.moduleState current)

def publish (r : Refresh) : Program String := do
  Exec.lift r.check
  let current ← reading (currentSnapshot lib)
  let snapshot ← refreshSnapshot lib occasion r current
  reading fun s => validateModuleState lib occasion.host (materialize lib s) snapshot
    snapshot.payload.moduleState
  storeSnapshot lib occasion snapshot

end

/-! ## Histories -/

inductive Publication where
  | refresh (r : Refresh)
  | inventory (inventory : InstalledInventory)
  | moduleState (expected : String) (moduleState : ModuleState)

namespace Publication
variable (lib : Library)

def run (occasion : Occasion) : Publication → Program String
  | .refresh r => publish lib occasion r
  | .inventory i => publishInventoryOntoCurrent lib occasion i
  | .moduleState expected m => publishModuleStateOntoCurrent lib occasion expected m

/-- The snapshot that a publication has to store. -/
def snapshot (host : Host) (reader : PlanningBytes → Except PlanningError (List UInt8))
    (current : Option PlanningSnapshot) : Publication → Run PlanningSnapshot
  | .refresh r => do
    r.check
    match ← r.reuse lib host reader current with
    | some reused => return reused
    | none => r.rebuilt lib host current
  | .inventory i => liftRun do
    let current ← okOr current (osError .noent)
    withInventory lib current i
  | .moduleState expected m => liftRun do
    let current ← okOr current (osError .noent)
    withModuleState lib host reader current expected m

end Publication

end Dnfast.Planning
