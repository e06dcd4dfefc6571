import Dnfast.Core.Inventory
import Dnfast.Core.Policy
import Dnfast.Data.Bytes
import Dnfast.Trust.Artifact

/-! # Planning snapshots

`dnfast-planning`, `model.rs`. A `PlanningSnapshot` is everything a plan is computed from: the policy
of the solver, the installed inventory, the enabled repositories with descriptors of their metadata,
and the module state. `validateRepository` and `PlanningSnapshot.validate` say which snapshots may be
published.

What the crates `sha2`, `base64` and `url` compute is a parameter (`Crates`). The storage that a
snapshot is attached to is a parameter of the functions that read blobs. -/

namespace Dnfast.Planning

open Except (refuseIf okOr)
open Core (Sha256Digest InstalledInventory SolverPolicy isLowerDigest)
open Trust (RepoTrustPolicy SigningSubkeyRule)

inductive PlanningError where
  | notRoot
  | unsafeRoot (message : String)
  | unsafeSnapshot (message : String)
  | input (message : String)
  | cache (message : String)
  | io (message : String)
  deriving DecidableEq, Repr

/-- A parsed URL. -/
structure Url where
  scheme : String
  hostStr : Option String
  username : String
  password : Option String
  query : Option String
  fragment : Option String
  asStr : String

/-- What the crates `sha2`, `base64` and `url` compute. -/
structure Crates where
  sha256 : List UInt8 → Sha256Digest
  base64Decode : String → Option (List UInt8)
  urlParse : String → Option Url

/-! ## Data -/

inductive RepomdAuthentication where
  | transportOnly
  | openPgp (primaryFingerprint signingFingerprint keyBundleSha256 signatureSha256 : String)
  deriving DecidableEq, Repr

structure PlanningOrigin where
  repomdUrl : String
  sha256 : String
  deriving DecidableEq, Repr

structure PlanningBytes where
  sha256 : String
  size : UInt64
  base64 : String
  deriving DecidableEq, Repr

structure PlanningKey where
  bundlePath : String
  certificateBase64 : String
  deriving DecidableEq, Repr

attribute [ext] RepoTrustPolicy InstalledInventory

instance : DecidableEq RepoTrustPolicy := fun _ _ => decidable_of_iff' _ RepoTrustPolicy.ext_iff
instance : DecidableEq InstalledInventory := fun _ _ => decidable_of_iff' _ InstalledInventory.ext_iff

structure PlanningRepository where
  id : String
  priority : UInt32
  cost : UInt32
  generationSha256 : String
  origin : PlanningOrigin
  repomd : PlanningBytes
  primary : PlanningBytes
  filelists : PlanningBytes
  fileProvides : Option PlanningBytes
  group : Option PlanningBytes
  modules : Option PlanningBytes
  updateinfo : Option PlanningBytes
  trust : RepoTrustPolicy
  keys : List PlanningKey
  repomdAuthentication : RepomdAuthentication
  deriving DecidableEq

structure PlanningConfiguration where
  id : String
  enabled : Bool
  baseurl : List String
  metalink : Option String
  mirrorlist : Option String
  priority : UInt32
  cost : UInt32
  excludes : List String
  includes : List String
  gpgkey : List String
  allowedFingerprints : List String
  repoGpgcheck : Bool
  deriving DecidableEq

structure PlanningPolicy where
  solver : SolverPolicy
  includedPackages : List String
  installonlyLimit : UInt32
  deriving DecidableEq

structure ModuleStateEntry where
  name : String
  stream : Option String
  disabled : Bool
  deriving DecidableEq, Repr

structure ModuleState where
  entries : List ModuleStateEntry
  deriving DecidableEq, Repr

structure PlanningPayload where
  policy : PlanningPolicy
  inventory : InstalledInventory
  allowedRepositories : List PlanningRepository
  configuration : List PlanningConfiguration
  moduleState : ModuleState
  deriving DecidableEq

structure PlanningSnapshot where
  schemaVersion : UInt32
  publishedAtUnix : UInt64
  refreshedRepositoryIds : List String
  payload : PlanningPayload
  deriving DecidableEq

def legacySnapshotSchemaVersion : UInt32 := 3
def externalSnapshotSchemaVersion : UInt32 := 4
def extendedSnapshotSchemaVersion : UInt32 := 5
def moduleStateSnapshotSchemaVersion : UInt32 := 6
def snapshotSchemaVersion : UInt32 := 7
def maxSnapshotBytes : Nat := 128 * 1024 * 1024

def domain (e : Core.DomainError) : PlanningError := .input e.toString

/-! ## The digest of a trust policy -/

def signingSubkeyRuleName : SigningSubkeyRule → String
  | .primaryOnly => "primary_only"
  | .authorizedSubkeys => "authorized_subkeys"

def trustValue (t : RepoTrustPolicy) : Json.Value :=
  .obj [("allowed_primary_fingerprints", .arr (t.allowedPrimaryFingerprints.map .str)),
    ("key_bundle_sha256", .str t.keyBundleSha256.asStr), ("repo_id", .str t.repoId),
    ("require_package_signature", .bool true), ("schema_version", .num 1),
    ("signing_subkey_rule", .str (signingSubkeyRuleName t.signingSubkeyRule)),
    ("valid_at_unix", .num t.validAtUnix.toNat)]

instance : Core.Serialize RepoTrustPolicy := ⟨trustValue⟩

section
variable (crates : Crates)

def trustSha256 (t : RepoTrustPolicy) : Sha256Digest := crates.sha256 (Core.canonicalEncode t)

/-! ## Checks of other crates -/

def RepomdAuthentication.validFingerprint (value : String) : Bool :=
  value.toList.length == 40 && value.toList.all fun c => Core.isAsciiHexdigit c && !c.isLower

def RepomdAuthentication.validate : RepomdAuthentication → Except String Unit
  | .transportOnly => .ok ()
  | .openPgp primary signing bundle signature =>
    refuseIf (!validFingerprint primary || !validFingerprint signing || !isLowerDigest bundle ||
      !isLowerDigest signature)
      "cache error: Corrupt(\"invalid repomd authentication evidence\")"

/-- `SelectedOrigin::parse`. -/
def selectedOrigin (value : String) : Except String String := do
  let parsed ← okOr (crates.urlParse value) "invalid selected repository origin"
  refuseIf (parsed.scheme ≠ "https" ∨ parsed.hostStr = none ∨ parsed.username ≠ "" ∨
    parsed.password ≠ none ∨ parsed.query ≠ none ∨ parsed.fragment ≠ none ∨
    '\\' ∈ value.toList ∨ parsed.asStr ≠ value ∨
    ¬ "/repodata/repomd.xml".toList <:+ value.toList) "invalid selected repository origin"
  let base := value.toList.take (value.toList.length - "/repodata/repomd.xml".toList.length)
  refuseIf (base = [] ∨ base.getLast? = some '/') "invalid selected repository origin"
  return value

/-- `valid_id` of `dnfast-repo`. -/
def validId (id : String) : Bool :=
  id != "" && id.toList.length ≤ 255 &&
    id.toList.all fun c => c.isAlphanum || c ∈ ['_', '.', ':', '-']

/-- The components of an absolute path: repeated separators and `.` do not count. -/
def pathComponents (path : List Char) : List (List Char) :=
  (path.splitOn '/').filter fun part => part ≠ [] && part ≠ ['.']

def validateGpgkeyBundlePath (repository path : String) : Except Unit Unit := do
  refuseIf (!validId repository) ()
  let parts := pathComponents path.toList
  refuseIf (path.toList.head? ≠ some '/' ∨ ['.', '.'] ∈ parts) ()
  let root := pathComponents ("/etc/dnfast/keys/".toList ++ repository.toList)
  refuseIf (¬ (root <+: parts ∧ parts ≠ root) ∧
    ¬ (parts ≠ [] ∧ parts.dropLast = pathComponents "/etc/pki/rpm-gpg".toList)) ()

/-! ## Validation -/

def PlanningBytes.validateShape (schema : UInt32) (b : PlanningBytes) : Except PlanningError Unit :=
  refuseIf (b.size = 0 ∨ !isLowerDigest b.sha256 ∨
    (schema = legacySnapshotSchemaVersion ∧ b.base64 = ""))
    (.input "snapshot payload descriptor is invalid")

/-- `u64::try_from(..)` of a length. -/
def lengthBytes (n : Nat) : Except PlanningError (List UInt8) :=
  if n < 2 ^ 64 then .ok (n.beBytes 8)
  else .error (.input "out of range integral type conversion attempted")

/-- The bytes that `frame` adds to the digest. -/
def frame (name : String) (bytes : List UInt8) : Except PlanningError (List UInt8) := do
  let nameLength ← lengthBytes name.utf8ByteSize
  let length ← lengthBytes bytes.length
  return nameLength ++ name.asBytes ++ length ++ bytes

/-- The loop over the keys: what it adds to the digest of the bundle. -/
def keyFrame (id : String) (key : PlanningKey) : Except PlanningError (List UInt8) := do
  (validateGpgkeyBundlePath id key.bundlePath).mapError
    (fun _ => .input "key bundle path differs from repository")
  let certificate ← okOr (crates.base64Decode key.certificateBase64)
    (.input "key certificate is not base64")
  frame key.bundlePath certificate

def validateRepository (schema : UInt32) (r : PlanningRepository) : Except PlanningError Unit := do
  refuseIf (r.id = "" ∨ r.generationSha256 ≠ r.repomd.sha256 ∨ r.trust.repoId ≠ r.id ∨
    r.keys = [] ∨ ¬ r.keys.IsChain (·.bundlePath < ·.bundlePath))
    (.input "repository payload is not canonical")
  refuseIf (schema < extendedSnapshotSchemaVersion ∧
    (r.fileProvides ≠ none ∨ r.group ≠ none ∨ r.modules ≠ none))
    (.input "legacy snapshot contains unbound extended metadata")
  refuseIf (schema < snapshotSchemaVersion ∧ r.updateinfo ≠ none)
    (.input "legacy snapshot contains unbound updateinfo metadata")
  forM [r.repomd, r.primary, r.filelists] (PlanningBytes.validateShape schema)
  forM (r.group.toList ++ r.modules.toList) (PlanningBytes.validateShape schema)
  forM r.updateinfo.toList (PlanningBytes.validateShape schema)
  forM r.fileProvides.toList (PlanningBytes.validateShape schema)
  refuseIf ((crates.sha256 r.origin.repomdUrl.asBytes).asStr ≠ r.origin.sha256)
    (.input "selected origin digest differs")
  let _ ← (selectedOrigin crates r.origin.repomdUrl).mapError PlanningError.input
  r.repomdAuthentication.validate.mapError PlanningError.input
  let frames ← r.keys.mapM (keyFrame crates r.id)
  refuseIf ((crates.sha256 ("dnfast-key-bundle-v1".asBytes ++ frames.flatten)).asStr ≠
    r.trust.keyBundleSha256.asStr) (.input "key bundle differs from trust policy")

/-- `char::is_control`. -/
def isControl (c : Char) : Bool := c.toNat < 0x20 || (0x7f ≤ c.toNat && c.toNat < 0xa0)

/-- `char::is_whitespace`. -/
def isWhitespace (c : Char) : Bool :=
  (9 ≤ c.toNat && c.toNat ≤ 13) || (0x2000 ≤ c.toNat && c.toNat ≤ 0x200a) ||
    c.toNat ∈ [0x20, 0x85, 0xa0, 0x1680, 0x2028, 0x2029, 0x202f, 0x205f, 0x3000]

def identifier (value kind : String) : Except PlanningError Unit :=
  refuseIf (value = "" ∨ value.utf8ByteSize > 4096 ∨ value.toList.head? = some '-' ∨
    value.toList.any isControl ∨ value.toList.any isWhitespace) (.input (kind ++ " is invalid"))

def ModuleStateEntry.validate (e : ModuleStateEntry) : Except PlanningError Unit := do
  identifier e.name "module state name"
  forM e.stream.toList (identifier · "module state stream")
  refuseIf (e.disabled = e.stream.isSome) (.input "module state entry has an invalid mode")

def ModuleState.validate (s : ModuleState) : Except PlanningError Unit := do
  refuseIf (¬ s.entries.IsChain (·.name < ·.name)) (.input "module state is not canonical")
  forM s.entries ModuleStateEntry.validate

namespace PlanningSnapshot

/-- The repository stands in the configuration, with the same preferences, keys and trust. -/
def validateConfigured (configuration : List PlanningConfiguration) (r : PlanningRepository) :
    Except PlanningError Unit := do
  let c ← okOr (configuration.find? (·.id = r.id))
    (.input "allowed repository is absent from configuration")
  refuseIf (!c.enabled ∨ c.priority ≠ r.priority ∨ c.cost ≠ r.cost ∨
    c.gpgkey ≠ r.keys.map (·.bundlePath)) (.input "allowed repository differs from configuration")
  let fingerprints := (c.allowedFingerprints.map (·.map Char.toUpper)).insertionSort (· ≤ ·)
  refuseIf (fingerprints ≠ r.trust.allowedPrimaryFingerprints)
    (.input "repository trust differs from configuration")
  if c.repoGpgcheck then
    match r.repomdAuthentication with
    | .openPgp primary _ bundle _ =>
      refuseIf (¬ (primary ∈ fingerprints ∧ bundle = r.trust.keyBundleSha256.asStr))
        (.input "repository requires authenticated repomd metadata")
    | .transportOnly => throw (.input "repository requires authenticated repomd metadata")

def validate (s : PlanningSnapshot) : Except PlanningError Unit := do
  refuseIf (s.schemaVersion ∉ [legacySnapshotSchemaVersion, externalSnapshotSchemaVersion,
    extendedSnapshotSchemaVersion, moduleStateSnapshotSchemaVersion, snapshotSchemaVersion])
    (.input "unsupported snapshot schema")
  refuseIf (s.payload.allowedRepositories = [] ∨ ¬ s.refreshedRepositoryIds.IsChain (· < ·) ∨
    ¬ s.refreshedRepositoryIds ⊆ s.payload.allowedRepositories.map (·.id) ∨
    ¬ s.payload.allowedRepositories.IsChain (·.id < ·.id) ∨
    ¬ s.payload.configuration.IsChain (·.id < ·.id)) (.input "repositories are not canonical")
  s.payload.policy.solver.validate.mapError domain
  s.payload.moduleState.validate
  refuseIf (s.schemaVersion < moduleStateSnapshotSchemaVersion ∧ s.payload.moduleState.entries ≠ [])
    (.input "legacy snapshot contains module state")
  forM s.payload.allowedRepositories fun r => do
    validateRepository crates s.schemaVersion r
    validateConfigured s.payload.configuration r

def newWithRefreshedRepositories (publishedAtUnix : UInt64) (refreshedRepositoryIds : List String)
    (payload : PlanningPayload) : Except PlanningError PlanningSnapshot := do
  let value : PlanningSnapshot :=
    ⟨snapshotSchemaVersion, publishedAtUnix, refreshedRepositoryIds, payload⟩
  value.validate crates
  return value

def new (publishedAtUnix : UInt64) (payload : PlanningPayload) :
    Except PlanningError PlanningSnapshot :=
  newWithRefreshedRepositories crates publishedAtUnix (payload.allowedRepositories.map (·.id))
    payload

end PlanningSnapshot

end

/-! ## Specifications -/

section
variable {crates : Crates} {schema : UInt32} {r : PlanningRepository} {s : PlanningSnapshot}

theorem PlanningBytes.validateShape_eq_ok {b : PlanningBytes} : b.validateShape schema = .ok () ↔
    b.size ≠ 0 ∧ isLowerDigest b.sha256 = true ∧
      ¬ (schema = legacySnapshotSchemaVersion ∧ b.base64 = "") := by
  rw [PlanningBytes.validateShape, Except.refuseIf_eq_ok, not_or, not_or, Bool.not_eq_true',
    Bool.not_eq_false]

theorem validateRepository_eq_ok : validateRepository crates schema r = .ok () ↔
    (r.id ≠ "" ∧ r.generationSha256 = r.repomd.sha256 ∧ r.trust.repoId = r.id ∧ r.keys ≠ [] ∧
      r.keys.IsChain (·.bundlePath < ·.bundlePath)) ∧
    ¬ (schema < extendedSnapshotSchemaVersion ∧
      (r.fileProvides ≠ none ∨ r.group ≠ none ∨ r.modules ≠ none)) ∧
    ¬ (schema < snapshotSchemaVersion ∧ r.updateinfo ≠ none) ∧
    (∀ b ∈ [r.repomd, r.primary, r.filelists] ++ (r.group.toList ++ r.modules.toList) ++
      r.updateinfo.toList ++ r.fileProvides.toList, b.validateShape schema = .ok ()) ∧
    (crates.sha256 r.origin.repomdUrl.asBytes).asStr = r.origin.sha256 ∧
    (∃ origin, selectedOrigin crates r.origin.repomdUrl = .ok origin) ∧
    r.repomdAuthentication.validate = .ok () ∧
    ∃ frames, r.keys.mapM (keyFrame crates r.id) = .ok frames ∧
      (crates.sha256 ("dnfast-key-bundle-v1".asBytes ++ frames.flatten)).asStr =
        r.trust.keyBundleSha256.asStr := by
  simp only [validateRepository, Except.check_bind_eq_ok, Except.refuseIf_eq_ok, Except.forM_eq_ok,
    Except.mapError_eq_ok, not_or, not_not, List.forall_mem_append]
  simp only [Except.bind_eq_ok, Except.mapError_eq_ok, Except.refuseIf_eq_ok, not_not]
  constructor
  · rintro ⟨hcanonical, hold, hnew, hparts, hmore, hupdate, hprovides, horigin, origin, hselected,
      ⟨⟩, hauthentication, frames, hframes, hbundle⟩
    exact ⟨hcanonical, hold, hnew, ⟨⟨⟨hparts, hmore⟩, hupdate⟩, hprovides⟩, horigin,
      ⟨origin, hselected⟩, hauthentication, frames, hframes, hbundle⟩
  · rintro ⟨hcanonical, hold, hnew, ⟨⟨⟨hparts, hmore⟩, hupdate⟩, hprovides⟩, horigin,
      ⟨origin, hselected⟩, hauthentication, frames, hframes, hbundle⟩
    exact ⟨hcanonical, hold, hnew, hparts, hmore, hupdate, hprovides, horigin, origin, hselected,
      (), hauthentication, frames, hframes, hbundle⟩

theorem PlanningSnapshot.validate_eq_ok : s.validate crates = .ok () ↔
    s.schemaVersion ∈ [legacySnapshotSchemaVersion, externalSnapshotSchemaVersion,
      extendedSnapshotSchemaVersion, moduleStateSnapshotSchemaVersion, snapshotSchemaVersion] ∧
    (s.payload.allowedRepositories ≠ [] ∧ s.refreshedRepositoryIds.IsChain (· < ·) ∧
      s.refreshedRepositoryIds ⊆ s.payload.allowedRepositories.map (·.id) ∧
      s.payload.allowedRepositories.IsChain (·.id < ·.id) ∧
      s.payload.configuration.IsChain (·.id < ·.id)) ∧
    s.payload.policy.solver.validate = .ok () ∧ s.payload.moduleState.validate = .ok () ∧
    ¬ (s.schemaVersion < moduleStateSnapshotSchemaVersion ∧ s.payload.moduleState.entries ≠ []) ∧
    ∀ r ∈ s.payload.allowedRepositories, validateRepository crates s.schemaVersion r = .ok () ∧
      PlanningSnapshot.validateConfigured s.payload.configuration r = .ok () := by
  simp only [PlanningSnapshot.validate, Except.check_bind_eq_ok, Except.refuseIf_eq_ok,
    Except.forM_eq_ok, Except.mapError_eq_ok, not_or, not_not]

end

end Dnfast.Planning
