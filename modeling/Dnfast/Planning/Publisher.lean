import Dnfast.Planning.Manifest

/-! # What a publication computes

`dnfast-planning`, `publisher.rs`. A planning snapshot is made from the configuration, the key bundles,
the metadata cache and the installed inventory: `snapshotFrom` builds every repository from the cache,
`reuseUnchangedGenerations` takes the repositories of the current snapshot over when nothing they
were made from has changed, and `revalidateSnapshot` builds a snapshot again to compare it.

What the publisher reads outside the planning store is a `Host`. The solver's own cache, which a
publication warms up, is left out: nothing here reads it. -/

namespace Dnfast.Planning

open Core (Sha256Digest InstalledInventory SolverPolicy RepoPreference Architecture DomainError
  isLowerDigest)
open Trust (RepoTrustPolicy SigningSubkeyRule)
open LazyIndex (refuse fail)

/-! ## Configuration -/

inductive MetadataExpire where
  | afterSeconds (seconds : UInt64)
  | never
  deriving DecidableEq

structure RepoConfig where
  id : String
  enabled : Bool
  baseurl : List String
  metalink : Option String
  mirrorlist : Option String
  priority : UInt16
  cost : UInt32
  metadataExpire : MetadataExpire
  sslverify : Bool
  gpgcheck : Bool
  pkgGpgcheck : Bool
  repoGpgcheck : Bool
  excludepkgs : List String
  includepkgs : List String
  gpgkey : List String
  allowedFingerprints : List String
  keyBundleDigest : Option Sha256Digest
  deriving DecidableEq

structure MainConfig where
  installWeakDeps : Bool
  best : Bool
  excludepkgs : List String
  includepkgs : List String
  protectedPackages : List String
  installonlypkgs : List String
  installonlyLimit : UInt32
  deriving DecidableEq

structure MutationProfile where
  main : MainConfig
  repositories : List RepoConfig
  deriving DecidableEq

/-! ## The host -/

structure KeyBundle where
  paths : List String
  digest : Sha256Digest
  certificates : List (List UInt8)
  deriving DecidableEq

/-- The content of a file that the cache has checked. -/
structure VerifiedBytes where
  bytes : List UInt8
  fits : bytes.length < 2 ^ 63
  deriving DecidableEq

structure AuxiliaryRecord where
  checksum : String
  size : UInt64
  deriving DecidableEq

structure RepomdRecords where
  group : Option AuxiliaryRecord
  modules : Option AuxiliaryRecord
  updateinfo : Option AuxiliaryRecord
  deriving DecidableEq

structure CurrentGenerationIdentity where
  digest : String
  repomdAuthentication : RepomdAuthentication
  deriving DecidableEq

/-- A generation that the cache has stored, under the digest of its `repomd`. -/
structure CacheObject where
  repository : String
  origin : String
  repomd : VerifiedBytes
  primary : VerifiedBytes
  filelists : VerifiedBytes
  primaryIdentities : Option (List LazyIndex.PrimaryPackageIdentity)
  primaryFiles : Option (List UInt8)
  deriving DecidableEq

structure VerifiedCompleteGeneration extends CacheObject where
  digest : String
  repomdAuthentication : RepomdAuthentication
  deriving DecidableEq

/-- What a publication reads outside the planning store: the key files, the metadata cache (its
pointers, its objects and its auxiliary objects), and what the parsers of metadata and `base64`
compute. -/
structure Host where
  keyBundleDigest : String → List String → Except String KeyBundle
  currentPointer : String → Except String CurrentGenerationIdentity
  object : String → Except String CacheObject
  auxiliary : AuxiliaryRecord → Except String VerifiedBytes
  parseRepomdRecords : List UInt8 → Except String RepomdRecords
  validatePrimaryRecord : List UInt8 → List UInt8 → Except String (List LazyIndex.PrimaryPackageIdentity)
  base64Encode : List UInt8 → String

def inputError (message : String) : Fault PlanningError := .error (.input message)

def cacheError (message : String) : Fault PlanningError := .error (.cache message)

/-- A computation that does not panic. -/
def liftRun {α : Type} (x : Except PlanningError α) : Run α := x.mapError .error

/-! ## Policy -/

def RepoPreference.new (repoId : String) (priority cost : UInt32) :
    Except DomainError RepoPreference :=
  if repoId = "" then .error (.empty "repo_id") else .ok ⟨priority, cost, repoId⟩

def RepoTrustPolicy.new (repoId : String) (keyBundleSha256 : Sha256Digest)
    (fingerprints : List String) (rule : SigningSubkeyRule) (validAtUnix : UInt64) :
    Except DomainError RepoTrustPolicy :=
  let allowed := (fingerprints.map (·.map Char.toUpper)).insertionSort (· ≤ ·)
  if hname : repoId = "" then .error (.empty "repo_id")
  else if hsome : allowed = [] then .error (.empty "allowed_primary_fingerprints")
  else if horder : allowed.IsChain (· < ·) then
    if hhex : ∀ fingerprint ∈ allowed, fingerprint.toList.length = 40 ∧
        fingerprint.toList.all Core.isAsciiHexdigit = true then
      .ok ⟨repoId, keyBundleSha256, allowed, rule, validAtUnix, hname, hsome, horder, hhex⟩
    else .error (.invalidDigest "allowed_primary_fingerprints")
  else .error (.duplicate "primary fingerprint")

def policyFor (host : Architecture) (profile : MutationProfile) (preferences : List RepoPreference) :
    Run SolverPolicy :=
  if host = .noarch then fail "host RPM architecture cannot be noarch"
  else
    .ok { SolverPolicy.fedora44 host profile.main.protectedPackages profile.main.installonlypkgs with
      repoPreferences := preferences.insertionSort (· ≤ ·)
      excludes := profile.main.excludepkgs.toFinset }

def configurationOf (r : RepoConfig) : PlanningConfiguration where
  id := r.id
  enabled := r.enabled
  baseurl := r.baseurl
  metalink := r.metalink
  mirrorlist := r.mirrorlist
  priority := r.priority.toUInt32
  cost := r.cost
  excludes := r.excludepkgs
  includes := r.includepkgs
  gpgkey := r.gpgkey
  allowedFingerprints := r.allowedFingerprints
  repoGpgcheck := r.repoGpgcheck

def normalizedConfiguration (profile : MutationProfile) : Run (List PlanningConfiguration) := do
  let result := (profile.repositories.map configurationOf).insertionSort (·.id ≤ ·.id)
  refuse (¬ result.IsChain (·.id ≠ ·.id)) "configuration repository identifiers are duplicate"
  return result

def enabledRepositories (profile : MutationProfile) : List RepoConfig :=
  (profile.repositories.filter (·.enabled)).insertionSort (·.id ≤ ·.id)

/-- The checks of the profile that both ways to a snapshot make, and the policy. -/
def planningPolicy (profile : MutationProfile) (host : Architecture) : Run PlanningPolicy := do
  let enabled := enabledRepositories profile
  refuse (enabled = [] ∨ ¬ enabled.IsChain (·.id ≠ ·.id))
    "enabled repositories are absent or duplicate"
  refuse (!profile.main.installWeakDeps ∨ profile.main.best ∨ profile.main.includepkgs ≠ [])
    "mutation policy cannot be represented safely"
  let preferences ← liftRun
    ((enabled.mapM fun r => RepoPreference.new r.id r.priority.toUInt32 r.cost).mapError domain)
  let solver ← policyFor host profile preferences
  return ⟨solver, profile.main.includepkgs, profile.main.installonlyLimit⟩

/-! ## Keys and trust -/

def checkTrustPolicy (r : RepoConfig) : Run Unit :=
  refuse (!r.sslverify ∨ !r.gpgcheck ∨ !r.pkgGpgcheck ∨ r.allowedFingerprints = [] ∨ r.gpgkey = [])
    "repository trust policy is incomplete"

section
variable (crates : Crates) (host : Host)

def liveKeyBundle (r : RepoConfig) : Run KeyBundle := do
  let bundle ← (host.keyBundleDigest r.id r.gpgkey).mapError inputError
  refuse (r.keyBundleDigest ≠ some bundle.digest)
    "repository key bundle changed after profile validation"
  return bundle

def trustAt (r : RepoConfig) (bundle : KeyBundle) (validAtUnix : UInt64) : Run RepoTrustPolicy :=
  liftRun ((RepoTrustPolicy.new r.id bundle.digest r.allowedFingerprints .authorizedSubkeys
    validAtUnix).mapError domain)

def planningKeys (bundle : KeyBundle) : List PlanningKey :=
  (bundle.paths.zip bundle.certificates).map fun (path, certificate) =>
    ⟨path, host.base64Encode certificate⟩

/-! ## The cache -/

def openVerifiedCompleteGeneration (digest : String) : Run VerifiedCompleteGeneration := do
  let object ← (host.object digest).mapError cacheError
  Except.refuseIf ((crates.sha256 object.repomd.bytes).asStr ≠ digest)
    (cacheError "verified generation manifest mismatch")
  return ⟨object, digest, .transportOnly⟩

def openCurrentVerifiedCompleteGeneration (repository : String) :
    Run VerifiedCompleteGeneration := do
  let pointer ← (host.currentPointer repository).mapError cacheError
  let generation ← openVerifiedCompleteGeneration crates host pointer.digest
  Except.refuseIf (generation.repository ≠ repository)
    (cacheError "repository identity mismatch")
  return { generation with repomdAuthentication := pointer.repomdAuthentication }

def openAuxiliary (record : AuxiliaryRecord) : Run VerifiedBytes := do
  let payload ← (host.auxiliary record).mapError cacheError
  Except.refuseIf (payload.bytes.length ≠ record.size.toNat ∨
    (crates.sha256 payload.bytes).asStr ≠ record.checksum)
    (cacheError "auxiliary metadata object verification failed")
  return payload

/-- An auxiliary object of the generation, when `repomd` has a record of it. -/
def openRecorded : Option AuxiliaryRecord → Run (Option VerifiedBytes)
  | none => .ok none
  | some record => (openAuxiliary crates host record).map some

/-! ## Building a repository -/

def PlanningBytes.fromVerified (payload : VerifiedBytes) : PlanningBytes :=
  ⟨(crates.sha256 payload.bytes).asStr, UInt64.ofNat payload.bytes.length, ""⟩

structure AuxiliaryPayloads where
  group : Option VerifiedBytes
  modules : Option VerifiedBytes
  updateinfo : Option VerifiedBytes
  deriving DecidableEq

def openAuxiliaries (records : RepomdRecords) : Run AuxiliaryPayloads := do
  let group ← openRecorded crates host records.group
  let modules ← openRecorded crates host records.modules
  let updateinfo ← openRecorded crates host records.updateinfo
  return ⟨group, modules, updateinfo⟩

/-- The packages of primary, retained by the cache or parsed again. -/
def primaryIdentities (g : VerifiedCompleteGeneration) :
    Run (List LazyIndex.PrimaryPackageIdentity) :=
  match g.primaryIdentities with
  | some identities => .ok identities
  | none => (host.validatePrimaryRecord g.repomd.bytes g.primary.bytes).mapError inputError

def indexSource (g : VerifiedCompleteGeneration)
    (identities : List LazyIndex.PrimaryPackageIdentity) : LazyIndex.IndexSource :=
  ⟨identities, (crates.sha256 g.primary.bytes).asStr, (crates.sha256 g.filelists.bytes).asStr,
    g.primaryFiles⟩

/-- What `repository_payload` has once the index is built. -/
structure Staged where
  generation : VerifiedCompleteGeneration
  auxiliary : AuxiliaryPayloads
  trust : RepoTrustPolicy
  bundle : KeyBundle
  index : List UInt8
  fileProvides : PlanningBytes

def stageRepository (r : RepoConfig) (validAtUnix : UInt64) : Run Staged := do
  checkTrustPolicy r
  let bundle ← liveKeyBundle host r
  let trust ← trustAt r bundle validAtUnix
  let generation ← openCurrentVerifiedCompleteGeneration crates host r.id
  let records ← (host.parseRepomdRecords generation.repomd.bytes).mapError cacheError
  let auxiliary ← openAuxiliaries crates host records
  let identities ← primaryIdentities host generation
  let (index, fileProvides) ← LazyIndex.build crates (indexSource crates generation identities)
  return ⟨generation, auxiliary, trust, bundle, index, fileProvides⟩

def Staged.repository (r : RepoConfig) (staged : Staged) : PlanningRepository where
  id := r.id
  priority := r.priority.toUInt32
  cost := r.cost
  generationSha256 := staged.generation.digest
  origin := ⟨staged.generation.origin, (crates.sha256 staged.generation.origin.asBytes).asStr⟩
  repomd := .fromVerified crates staged.generation.repomd
  primary := .fromVerified crates staged.generation.primary
  filelists := .fromVerified crates staged.generation.filelists
  fileProvides := some staged.fileProvides
  group := staged.auxiliary.group.map (.fromVerified crates)
  modules := staged.auxiliary.modules.map (.fromVerified crates)
  updateinfo := staged.auxiliary.updateinfo.map (.fromVerified crates)
  trust := staged.trust
  keys := planningKeys host staged.bundle
  repomdAuthentication := staged.generation.repomdAuthentication

/-- `generation_payload` after the index: the last check, and the record. -/
def finishRepository (r : RepoConfig) (staged : Staged) : Run PlanningRepository := do
  Except.refuseIf (staged.generation.repository ≠ r.id)
    (cacheError "cache generation repository differs from configuration")
  return staged.repository crates host r

/-- `repository_payload` without a store for blobs. -/
def repositoryPayload (validAtUnix : UInt64) (r : RepoConfig) : Run PlanningRepository := do
  let staged ← stageRepository crates host r validAtUnix
  finishRepository crates host r staged

/-! ## The full reconstruction -/

structure SnapshotHostState where
  inventory : InstalledInventory
  moduleState : ModuleState

/-- The snapshot under the repositories that were refreshed, or under all of them. -/
def newSnapshot (publishedAtUnix : UInt64) (refreshedRepositoryIds : Option (List String))
    (payload : PlanningPayload) : Run PlanningSnapshot :=
  match refreshedRepositoryIds with
  | some ids =>
    liftRun (PlanningSnapshot.newWithRefreshedRepositories crates publishedAtUnix ids payload)
  | none => liftRun (PlanningSnapshot.new crates publishedAtUnix payload)

/-- `snapshot_from` without a store for blobs. -/
def snapshotFrom (profile : MutationProfile) (hostState : SnapshotHostState)
    (publishedAtUnix : UInt64) (hostArchitecture : Architecture)
    (refreshedRepositoryIds : Option (List String)) : Run PlanningSnapshot := do
  let configuration ← normalizedConfiguration profile
  let policy ← planningPolicy profile hostArchitecture
  let repositories ← (enabledRepositories profile).mapM (repositoryPayload crates host publishedAtUnix)
  newSnapshot crates publishedAtUnix refreshedRepositoryIds
    ⟨policy, hostState.inventory, repositories, configuration, hostState.moduleState⟩

/-! ## Taking repositories over -/

variable (json : IndexJson) (materialize : PlanningBytes → Except PlanningError (List UInt8))

def auxiliaryDescriptorMatches : Option AuxiliaryRecord → Option PlanningBytes → Bool
  | none, none => true
  | some record, some descriptor => record.checksum = descriptor.sha256 && record.size = descriptor.size
  | _, _ => false

/-- The metadata of a repository is still described by its record, and its index need not be
rebuilt. -/
def unchangedMetadata (configured : RepoConfig) (previous : PlanningRepository) : Run Bool := do
  let repomd ← liftRun (materialize previous.repomd)
  let records ← (host.parseRepomdRecords repomd).mapError cacheError
  if !auxiliaryDescriptorMatches records.group previous.group ∨
      !auxiliaryDescriptorMatches records.modules previous.modules ∨
      !auxiliaryDescriptorMatches records.updateinfo previous.updateinfo ∨
      previous.priority ≠ configured.priority.toUInt32 ∨ previous.cost ≠ configured.cost then
    return false
  else
    match previous.fileProvides with
    | none => return false
    | some descriptor => do
      let manifest ← liftRun (materialize descriptor)
      currentIndexValid json previous manifest

/-- The record that is taken over, when the cache still points to its generation. A repository that
was refreshed gets its trust policy and its authentication anew. -/
def takenOver (refreshedGenerations : List (String × String)) (trust : RepoTrustPolicy)
    (identity : CurrentGenerationIdentity) (previous : PlanningRepository) :
    Option PlanningRepository :=
  if previous.generationSha256 ≠ identity.digest then none
  else
    match refreshedGenerations.find? (·.1 = previous.id) with
    | some (_, verifiedDigest) =>
      if verifiedDigest = identity.digest then
        some { previous with trust, repomdAuthentication := identity.repomdAuthentication }
      else none
    | none =>
      if previous.repomdAuthentication = identity.repomdAuthentication then some previous else none

def reuseRepository (current : PlanningSnapshot) (publishedAtUnix : UInt64)
    (refreshedGenerations : List (String × String)) (configured : RepoConfig) :
    Run (Option PlanningRepository) := do
  checkTrustPolicy configured
  match current.payload.allowedRepositories.find? (·.id = configured.id) with
  | none => return none
  | some previous => do
    if !(← unchangedMetadata host json materialize configured previous) then return none
    else do
      let bundle ← liveKeyBundle host configured
      let trust ← trustAt configured bundle publishedAtUnix
      if previous.keys ≠ planningKeys host bundle then return none
      else do
        let identity ← (host.currentPointer configured.id).mapError cacheError
        return takenOver refreshedGenerations trust identity previous

/-- The loop over the enabled repositories: it ends at the first that cannot be taken over. -/
def reuseRepositories (current : PlanningSnapshot) (publishedAtUnix : UInt64)
    (refreshedGenerations : List (String × String)) :
    List RepoConfig → Run (Option (List PlanningRepository))
  | [] => return some []
  | configured :: rest => do
    match ← reuseRepository host json materialize current publishedAtUnix refreshedGenerations
        configured with
    | none => return none
    | some reused => do
      let others ← reuseRepositories current publishedAtUnix refreshedGenerations rest
      return others.map (reused :: ·)

def reuseUnchangedGenerations (profile : MutationProfile) (current : PlanningSnapshot)
    (inventory : InstalledInventory) (publishedAtUnix : UInt64) (hostArchitecture : Architecture)
    (refreshedRepositoryIds : Option (List String)) (refreshedGenerations : List (String × String)) :
    Run (Option PlanningSnapshot) := do
  if current.schemaVersion ≠ snapshotSchemaVersion then return none
  else do
    let configuration ← normalizedConfiguration profile
    if current.payload.configuration ≠ configuration then return none
    else do
      let policy ← planningPolicy profile hostArchitecture
      if current.payload.policy ≠ policy ∨
          current.payload.allowedRepositories.length ≠ (enabledRepositories profile).length then
        return none
      else do
        match ← reuseRepositories host json materialize current publishedAtUnix refreshedGenerations
            (enabledRepositories profile) with
        | none => return none
        | some repositories => do
          refuse (refreshedRepositoryIds ≠ some (refreshedGenerations.map (·.1)))
            "verified refresh identities differ from repository selection"
          let snapshot ← newSnapshot crates publishedAtUnix refreshedRepositoryIds
            ⟨policy, inventory, repositories, configuration, current.payload.moduleState⟩
          return some snapshot

/-! ## Revalidation -/

def requireSameSourcePayload (expected refreshed : PlanningSnapshot) : Run Unit :=
  refuse (expected.payload ≠ refreshed.payload)
    "root configuration, key bundle, or verified cache generation changed"

def requireCurrentSnapshot (expected current : PlanningSnapshot) : Run Unit :=
  Except.refuseIf (expected ≠ current)
    (.error (.unsafeSnapshot "current planning snapshot changed during revalidation"))

/-- `revalidate_snapshot`, with what `open_snapshot` returns. -/
def revalidateSnapshot (profile : MutationProfile) (hostArchitecture : Architecture)
    (openSnapshot : Run PlanningSnapshot) (snapshot : PlanningSnapshot) : Run Unit := do
  let refreshed ← snapshotFrom crates host profile
    ⟨snapshot.payload.inventory, snapshot.payload.moduleState⟩ snapshot.publishedAtUnix
    hostArchitecture none
  requireSameSourcePayload snapshot refreshed
  let current ← openSnapshot
  requireCurrentSnapshot snapshot current

end

end Dnfast.Planning
