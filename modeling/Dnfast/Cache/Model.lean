import Std.Data.ExtTreeMap
import Dnfast.Cache.Receipt
import Dnfast.Data.SortDedup
import Dnfast.Json.Fields
import Dnfast.Json.Parse
import Dnfast.Metadata.Records

/-! # The metadata cache

`dnfast-cache`, `model.rs`, `loading.rs` and `auxiliary.rs`: a generation of a repository is a directory
with its files under the digest of its `repomd.xml`, and a repository has a directory under the digest
of its identifier, with the file `current` that names a generation and says how its `repomd.xml` was
authenticated. Staging directories and temporary files are not part of the store: nothing reads them. -/

namespace Dnfast.Cache

open Std (ExtTreeMap)
open Except (refuseIf okOr)
open Core (isLowerDigest)
open Metadata (Parsers MetadataRecord AuxiliaryRecord Package CompletePackage FileListPackage)
open Planning (Crates RepomdAuthentication)
open Planning.LazyIndex (PrimaryPackageIdentity)

/-! ## Data -/

inductive SnapshotIntegrity where
  | searchOnly
  | completeMetadata
  deriving DecidableEq

structure FileRecord where
  name : String
  sha256 : String
  size : UInt64
  deriving DecidableEq

structure Manifest where
  version : UInt32
  repomd : FileRecord
  primary : FileRecord
  searchIndex : FileRecord
  repository : FileRecord
  integrity : SnapshotIntegrity
  filelists : Option FileRecord
  filelistsIndex : Option FileRecord
  solverInputs : Option FileRecord
  primaryIdentities : Option FileRecord
  primaryFiles : Option FileRecord
  sourceOrigin : Option FileRecord
  deriving DecidableEq

structure CurrentPointer where
  version : UInt32
  digest : String
  repomdAuthentication : RepomdAuthentication
  deriving DecidableEq

structure CompleteSnapshot where
  digest : String
  repository : String
  integrity : SnapshotIntegrity
  packages : List Package
  solverInputs : List CompletePackage
  filelists : List FileListPackage
  sourceOrigin : Option String
  deriving DecidableEq

structure VerifiedCompleteGeneration where
  digest : String
  repository : String
  origin : String
  repomd : List UInt8
  primary : List UInt8
  filelists : List UInt8
  primaryIdentities : Option (List PrimaryPackageIdentity)
  primaryFiles : Option (List UInt8)
  repomdAuthentication : RepomdAuthentication
  deriving DecidableEq

/-- What `serde_json` writes and reads. -/
structure CacheJson where
  manifestToVec : Manifest → List UInt8
  manifestFromSlice : List UInt8 → Except String Manifest
  /-- `VersionProbe`. -/
  versionFromSlice : List UInt8 → Except String (Option UInt32)
  packagesToVec : List Package → List UInt8
  packagesFromSlice : List UInt8 → Except String (List Package)
  identitiesToVec : List PrimaryPackageIdentity → List UInt8
  identitiesFromSlice : List UInt8 → Except String (List PrimaryPackageIdentity)
  solverInputsFromSlice : List UInt8 → Except String (List CompletePackage)
  filelistsFromSlice : List UInt8 → Except String (List FileListPackage)

/-- What the cache takes from other crates. -/
structure Library where
  crates : Crates
  parsers : Parsers
  json : CacheJson

/-! ## The store -/

abbrev Files := ExtTreeMap String (List UInt8)

/-- The directory of a repository. -/
structure RepositoryDir where
  repoId : Option (List UInt8)
  current : Option (List UInt8)
  deriving DecidableEq

structure CacheStore where
  objects : ExtTreeMap String Files
  repos : ExtTreeMap String RepositoryDir
  auxiliary : ExtTreeMap String (List UInt8)

namespace CacheStore

def empty : CacheStore := ⟨∅, ∅, ∅⟩

end CacheStore

def maxManifestBytes : Nat := 8 * 1024 * 1024
def maxObjectFileBytes : Nat := 16 * 1024 * 1024 * 1024
def maxAuxiliaryBytes : Nat := 512 * 1024 * 1024

def notFound : CacheError := .io "No such file or directory (os error 2)"

/-- `read_owned_retained`, as far as it depends on the content. -/
def readBounded (content : Option (List UInt8)) (maximum : Nat) : Except CacheError (List UInt8) := do
  let bytes ← okOr content notFound
  refuseIf (bytes.length > maximum) (.corrupt "cache file exceeds limit")
  return bytes

def fromUtf8 (bytes : List UInt8) : Except CacheError String :=
  okOr (String.ofBytes? bytes) (.corrupt "invalid utf-8 sequence")

/-! ## Objects -/

def validateName (name : String) : Except CacheError Unit :=
  refuseIf (name = "" ∨ '/' ∈ name.toList ∨ '\\' ∈ name.toList ∨
    name ∈ [".", "..", "manifest.json"]) (.corrupt "unsafe or reserved manifest path")

section
variable (lib : Library)

def sha256 (bytes : List UInt8) : String := (lib.crates.sha256 bytes).asStr

def verifyFile (object : Files) (record : FileRecord) : Except CacheError (List UInt8) := do
  validateName record.name
  refuseIf (record.size.toNat > maxObjectFileBytes) (.corrupt "object file exceeds global limit")
  let bytes ← readBounded object[record.name]? record.size.toNat
  refuseIf (bytes.length ≠ record.size.toNat ∨ sha256 lib bytes ≠ record.sha256)
    (.corrupt ("object verification failed: " ++ record.name))
  return bytes

/-- The file names that a manifest of its version and integrity may have, with their records. -/
def Manifest.records (m : Manifest) : Except CacheError (List (FileRecord × String)) := do
  let required := [(m.repomd, "repomd.xml"), (m.primary, "primary"), (m.searchIndex, "packages.json"),
    (m.repository, "repo-id")]
  let origin := (m.sourceOrigin.map (·, "source-origin")).toList
  match m.integrity with
  | .searchOnly =>
    refuseIf (m.filelists.isSome ∨ m.filelistsIndex.isSome ∨ m.solverInputs.isSome ∨
      m.primaryIdentities.isSome ∨ m.primaryFiles.isSome)
      (.corrupt "search-only manifest has complete records")
    return required ++ origin
  | .completeMetadata =>
    let filelists ← okOr m.filelists (.corrupt "missing filelists")
    let identities ← (if m.version = 4 ∨ m.version = 5 then do
        let record ← okOr m.primaryIdentities (.corrupt "missing primary identity projection")
        return [(record, "primary-identities.json")]
      else do
        refuseIf m.primaryIdentities.isSome
          (.corrupt "legacy manifest contains primary identity projection")
        return [] : Except CacheError (List (FileRecord × String)))
    let primaryFiles ← (if m.version = 5 then do
        let record ← okOr m.primaryFiles (.corrupt "missing primary file projection")
        return [(record, "primary-files.bin")]
      else do
        refuseIf m.primaryFiles.isSome
          (.corrupt "legacy manifest contains primary file projection")
        return [] : Except CacheError (List (FileRecord × String)))
    let legacy ← (if m.version = 2 then do
        let index ← okOr m.filelistsIndex (.corrupt "missing filelists index")
        let inputs ← okOr m.solverInputs (.corrupt "missing solver inputs")
        return [(index, "filelists-index.json"), (inputs, "solver-inputs.json")]
      else do
        refuseIf (m.filelistsIndex.isSome ∨ m.solverInputs.isSome)
          (.corrupt "raw-metadata manifest contains legacy derived indexes")
        return [] : Except CacheError (List (FileRecord × String)))
    return required ++ origin ++ [(filelists, "filelists")] ++ identities ++ primaryFiles ++ legacy

/-- `add_record`. The exact names differ, so a record with its name is no alias. -/
def checkRecord (entry : FileRecord × String) : Except CacheError Unit := do
  validateName entry.1.name
  refuseIf (entry.1.name ≠ entry.2) (.corrupt "manifest filename mismatch or alias")

def validateManifest (object : Files) (m : Manifest) : Except CacheError Unit := do
  let records ← m.records
  forM records checkRecord
  refuseIf (object.keys.toFinset ≠ ("manifest.json" :: records.map (·.2)).toFinset)
    (.corrupt "object file set does not match manifest")

def readManifestBytes (s : CacheStore) (digest : String) : Except CacheError (Files × List UInt8) := do
  refuseIf (!isLowerDigest digest) (.corrupt "invalid object digest")
  let object ← okOr s.objects[digest]? notFound
  let bytes ← readBounded object["manifest.json"]? maxManifestBytes
  return (object, bytes)

/-- The start of `open_search_index` and of `open_by_digest`. -/
def openManifest (s : CacheStore) (digest : String) : Except CacheError (Files × Manifest) := do
  let (object, bytes) ← readManifestBytes s digest
  let probe ← (lib.json.versionFromSlice bytes).mapError .corrupt
  refuseIf (probe = none ∨ probe = some 1) .cacheUpgradeRequired
  refuseIf (probe ∉ [some 2, some 3, some 4, some 5]) (.corrupt "unsupported manifest version")
  let manifest ← (lib.json.manifestFromSlice bytes).mapError .corrupt
  validateManifest object manifest
  refuseIf (manifest.repomd.sha256 ≠ digest) (.corrupt "manifest identity mismatch")
  return (object, manifest)

def openSearchIndex (s : CacheStore) (digest : String) :
    Except CacheError (String × List Package) := do
  let (object, manifest) ← openManifest lib s digest
  let repomd ← verifyFile lib object manifest.repomd
  let _ ← verifyFile lib object manifest.primary
  let record ← (lib.parsers.parseRepomd repomd).mapError .corrupt
  refuseIf (record.checksum ≠ manifest.primary.sha256 ∨ record.size ≠ manifest.primary.size)
    (.corrupt "primary bytes differ from repomd record")
  let index ← verifyFile lib object manifest.searchIndex
  let packages ← (lib.json.packagesFromSlice index).mapError .corrupt
  let repository ← fromUtf8 (← verifyFile lib object manifest.repository)
  return (repository, packages)

/-- `open_inputs` for complete metadata: the join of primary and filelists, and the projections. -/
def openCompleteInputs (object : Files) (repomd primary : List UInt8) (m : Manifest) :
    Except CacheError (List CompletePackage × List FileListPackage × List Package) := do
  let records ← (lib.parsers.parseRepomdRecords repomd).mapError .corrupt
  let opened ← (lib.parsers.decodeRecord primary records.primary).mapError .corrupt
  let filelists ← okOr m.filelists (.corrupt "missing filelists")
  let compressed ← verifyFile lib object filelists
  let parsed ← (lib.parsers.parseFilelistsRecord compressed records.filelists).mapError .corrupt
  let parsedSolver ← (lib.parsers.parsePrimaryRecords opened).mapError .corrupt
  if m.version = 4 ∨ m.version = 5 then
    let record ← okOr m.primaryIdentities (.corrupt "missing primary identity projection")
    let bytes ← verifyFile lib object record
    let projected ← (lib.json.identitiesFromSlice bytes).mapError .corrupt
    refuseIf (projected ≠ parsedSolver.map Metadata.primaryIdentity)
      (.corrupt "primary identity projection mismatch")
  if m.version = 2 then
    let solver ← okOr m.solverInputs (.corrupt "missing solver inputs")
    let files ← okOr m.filelistsIndex (.corrupt "missing filelists index")
    let solverInputs ← (lib.json.solverInputsFromSlice (← verifyFile lib object solver)).mapError .corrupt
    refuseIf (parsedSolver ≠ solverInputs) (.corrupt "solver inputs mismatch")
    let stored ← (lib.json.filelistsFromSlice (← verifyFile lib object files)).mapError .corrupt
    refuseIf (parsed ≠ stored) (.corrupt "filelists index mismatch")
  else
    refuseIf (m.solverInputs.isSome ∨ m.filelistsIndex.isSome)
      (.corrupt "raw-metadata manifest contains legacy derived indexes")
  (lib.parsers.validateFilelistsGeneration parsedSolver parsed).mapError .corrupt
  return (parsedSolver, parsed, parsedSolver.map Metadata.searchPackage)

def openInputs (object : Files) (repomd primary : List UInt8) (m : Manifest) :
    Except CacheError (List CompletePackage × List FileListPackage × List Package) :=
  match m.integrity with
  | .searchOnly => do
    refuseIf (m.filelists.isSome ∨ m.filelistsIndex.isSome ∨ m.solverInputs.isSome)
      (.corrupt "search-only manifest has solver inputs")
    let record ← (lib.parsers.parseRepomd repomd).mapError .corrupt
    let opened ← (lib.parsers.decodePrimary primary record).mapError .corrupt
    let packages ← (lib.parsers.parsePrimary opened).mapError .corrupt
    return ([], [], packages)
  | .completeMetadata => openCompleteInputs lib object repomd primary m

/-- A recorded origin. -/
def readOrigin (object : Files) (record : FileRecord) : Except CacheError String := do
  let value ← fromUtf8 (← verifyFile lib object record)
  (Planning.selectedOrigin lib.crates value).mapError .corrupt

def openByDigest (s : CacheStore) (digest : String) : Except CacheError CompleteSnapshot := do
  let (object, manifest) ← openManifest lib s digest
  let repomd ← verifyFile lib object manifest.repomd
  refuseIf (sha256 lib repomd ≠ digest) (.corrupt "repomd object mismatch")
  let primary ← verifyFile lib object manifest.primary
  let index ← verifyFile lib object manifest.searchIndex
  let packages ← (lib.json.packagesFromSlice index).mapError .corrupt
  let repository ← fromUtf8 (← verifyFile lib object manifest.repository)
  let sourceOrigin ← manifest.sourceOrigin.mapM (readOrigin lib object)
  let (solverInputs, filelists, parsed) ← openInputs lib object repomd primary manifest
  refuseIf (packages ≠ parsed) (.corrupt "search index does not match primary")
  return ⟨digest, repository, manifest.integrity, packages, solverInputs, filelists, sourceOrigin⟩

/-! ## Complete generations -/

/-- The loop of `validate_primary_files` over the records. -/
def checkPrimaryFiles (packageCount : Nat) : List (List UInt8) → Option (List UInt8) → Bool
  | [], _ => true
  | record :: rest, previous =>
    Nat.ofBeBytes (record.drop 32) < packageCount && previous.all (· < record) &&
      checkPrimaryFiles packageCount rest (some record)

def validatePrimaryFiles (bytes : List UInt8) (packageCount : Nat) : Except CacheError Unit := do
  refuseIf (bytes.length % 36 ≠ 0) (.corrupt "primary file projection has a partial record")
  refuseIf (!checkPrimaryFiles packageCount (bytes.toChunks 36) none)
    (.corrupt "primary file projection records are invalid")

def openVerifiedCompleteGeneration (s : CacheStore) (digest : String) :
    Except CacheError VerifiedCompleteGeneration := do
  let (object, bytes) ← readManifestBytes s digest
  let manifest ← (lib.json.manifestFromSlice bytes).mapError .corrupt
  validateManifest object manifest
  refuseIf (manifest.version ∉ [2, 3, 4, 5] ∨ manifest.repomd.sha256 ≠ digest ∨
    manifest.integrity ≠ .completeMetadata) (.corrupt "verified generation manifest mismatch")
  let repomd ← verifyFile lib object manifest.repomd
  let primary ← verifyFile lib object manifest.primary
  let filelistsRecord ← okOr manifest.filelists (.corrupt "missing filelists")
  let filelists ← verifyFile lib object filelistsRecord
  let identities ← manifest.primaryIdentities.mapM fun record => do
    (lib.json.identitiesFromSlice (← verifyFile lib object record)).mapError .corrupt
  let primaryFiles ← manifest.primaryFiles.mapM (verifyFile lib object)
  match identities, primaryFiles with
  | some identities, some primaryFiles => validatePrimaryFiles primaryFiles identities.length
  | _, _ => .ok ()
  let records ← (lib.parsers.parseRepomdRecords repomd).mapError .corrupt
  refuseIf (records.primary.checksum ≠ manifest.primary.sha256 ∨
    records.primary.size ≠ manifest.primary.size ∨
    records.filelists.checksum ≠ filelistsRecord.sha256 ∨
    records.filelists.size ≠ filelistsRecord.size)
    (.corrupt "metadata bytes differ from repomd records")
  let repository ← fromUtf8 (← verifyFile lib object manifest.repository)
  let originRecord ← okOr manifest.sourceOrigin (.corrupt "missing selected origin")
  let origin ← readOrigin lib object originRecord
  return ⟨digest, repository, origin, repomd, primary, filelists, identities, primaryFiles,
    .transportOnly⟩

/-! ## Pointers -/

def repositoryKey (repository : String) : String := sha256 lib repository.asBytes

end

def authenticationValue : RepomdAuthentication → Json.Value
  | .transportOnly => .obj [("kind", .str "transport_only")]
  | .openPgp primary signing bundle signature =>
    .obj [("kind", .str "open_pgp"), ("primary_fingerprint", .str primary),
      ("signing_fingerprint", .str signing), ("key_bundle_sha256", .str bundle),
      ("signature_sha256", .str signature)]

def authenticationOf : Json.Value → Option RepomdAuthentication
  | .obj ms => do
    let kind ← (Json.field ms "kind").bind Json.stringOf
    if kind = "transport_only" then
      if Json.onlyFields ms ["kind"] then some .transportOnly else none
    else if kind = "open_pgp" then
      if Json.onlyFields ms ["kind", "primary_fingerprint", "signing_fingerprint",
          "key_bundle_sha256", "signature_sha256"] then
        let primary ← (Json.field ms "primary_fingerprint").bind Json.stringOf
        let signing ← (Json.field ms "signing_fingerprint").bind Json.stringOf
        let bundle ← (Json.field ms "key_bundle_sha256").bind Json.stringOf
        let signature ← (Json.field ms "signature_sha256").bind Json.stringOf
        return .openPgp primary signing bundle signature
      else none
    else none
  | _ => none

def CurrentPointer.value (p : CurrentPointer) : Json.Value :=
  .obj [("version", .num p.version.toNat), ("digest", .str p.digest),
    ("repomd_authentication", authenticationValue p.repomdAuthentication)]

def CurrentPointer.ofValue : Json.Value → Option CurrentPointer
  | .obj ms =>
    if Json.onlyFields ms ["version", "digest", "repomd_authentication"] then do
      let version ← (Json.field ms "version").bind Json.u32Of
      let digest ← (Json.field ms "digest").bind Json.stringOf
      let authentication ← (Json.field ms "repomd_authentication").bind authenticationOf
      return ⟨version, digest, authentication⟩
    else none
  | _ => none

/-- `serde_json::to_vec` of a pointer. -/
def CurrentPointer.bytes (p : CurrentPointer) : List UInt8 := p.value.render

/-- `str::trim`. -/
def trim (text : List Char) : List Char :=
  ((text.dropWhile Metadata.isUnicodeWhitespace).reverse.dropWhile
    Metadata.isUnicodeWhitespace).reverse

/-- `str::lines` finds one line. -/
def isOneLine (text : List Char) : Bool :=
  text ≠ [] && ((text.splitOn '\n').length = 1 ||
    (text.splitOn '\n').length = 2 && text.getLast? = some '\n')

/-- The digest of a pointer from before there was authentication. -/
def legacyDigest (bytes : List UInt8) : Option String := do
  let text ← String.ofBytes? bytes
  let digest := String.ofList (trim text.toList)
  if isOneLine text.toList && isLowerDigest digest then some digest else none

/-- A pointer file. Only canonical documents are read, so the parser of `serde_json` agrees with this
one on them. -/
def readPointer (bytes : List UInt8) : Except CacheError CurrentPointer :=
  match legacyDigest bytes with
  | some digest => .ok ⟨1, digest, .transportOnly⟩
  | none => do
    let pointer ← okOr ((Json.parse bytes).bind CurrentPointer.ofValue)
      (.corrupt "invalid current digest")
    refuseIf (pointer.version ≠ 1 ∨ !isLowerDigest pointer.digest ∨ pointer.bytes ≠ bytes)
      (.corrupt "invalid current digest")
    pointer.repomdAuthentication.validate.mapError .corrupt
    return pointer

section
variable (lib : Library)

def currentPointer (s : CacheStore) (repository : String) : Except CacheError CurrentPointer :=
  match s.repos[repositoryKey lib repository]?.bind (·.current) with
  | none => .error (.missingSnapshot repository)
  | some content => do
    let bytes ← readBounded (some content) 2048
    readPointer bytes

def openCurrentVerifiedCompleteGeneration (s : CacheStore) (repository : String) :
    Except CacheError VerifiedCompleteGeneration := do
  let pointer ← currentPointer lib s repository
  let generation ← openVerifiedCompleteGeneration lib s pointer.digest
  refuseIf (generation.repository ≠ repository) (.corrupt "repository identity mismatch")
  return { generation with repomdAuthentication := pointer.repomdAuthentication }

/-- The turn of the loop of `repositories` for a directory. -/
def repositoryOf (entry : String × RepositoryDir) : Except CacheError String := do
  refuseIf (!isLowerDigest entry.1) (.corrupt "invalid repository cache key")
  let id ← fromUtf8 (← readBounded entry.2.repoId maxManifestBytes)
  refuseIf (sha256 lib id.asBytes ≠ entry.1) (.corrupt "repository cache key mismatch")
  return id

def repositories (s : CacheStore) : Except CacheError (List String) := do
  let ids ← s.repos.toList.mapM (repositoryOf lib)
  return ids.sortDedup

/-! ## Auxiliary objects -/

def validateRecord (record : AuxiliaryRecord) : Except CacheError Unit :=
  refuseIf (!isLowerDigest record.checksum ∨ record.size = 0 ∨ record.size.toNat > maxAuxiliaryBytes)
    (.corrupt "invalid auxiliary metadata record")

def openAuxiliary (s : CacheStore) (record : AuxiliaryRecord) : Except CacheError (List UInt8) := do
  validateRecord record
  let payload ← okOr s.auxiliary[record.checksum]? (.missingSnapshot record.checksum)
  let bytes ← readBounded (some payload) record.size.toNat
  refuseIf (bytes.length ≠ record.size.toNat ∨ sha256 lib bytes ≠ record.checksum)
    (.corrupt "auxiliary metadata object verification failed")
  return bytes

end

end Dnfast.Cache
