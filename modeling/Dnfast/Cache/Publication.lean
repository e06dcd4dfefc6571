import Dnfast.Cache.Model
import Dnfast.Durable.Ensures

/-! # Publication into the metadata cache

`dnfast-cache`, `publication.rs` and `auxiliary.rs`. An object is staged and gets its name in one step,
and so does a pointer; the directory of a repository and its file `repo-id` are made in place. -/

namespace Dnfast.Cache

open Durable
open Except (refuseIf)
open Metadata (AuxiliaryRecord Package CompletePackage FileListPackage PrimaryFileRecord)
open Planning (RepomdAuthentication)
open Planning.LazyIndex (PrimaryPackageIdentity)

abbrev Program := Exec CacheStore CacheError

/-- The input of `publish_generation`. -/
structure Publication where
  repository : String
  repomd : List UInt8
  primary : List UInt8
  packages : List Package
  solverInputs : Option (List CompletePackage)
  primaryIdentities : Option (List PrimaryPackageIdentity)
  primaryFiles : Option (List PrimaryFileRecord)
  filelistsBytes : Option (List UInt8)
  filelists : Option (List FileListPackage)
  integrity : SnapshotIntegrity
  sourceOrigin : Option String
  repomdAuthentication : RepomdAuthentication

structure Snapshot where
  digest : String
  packages : List Package
  deriving DecidableEq

section
variable (lib : Library)

/-! ## Objects -/

/-- `write_verified`, by the record it returns. -/
def fileRecord (name : String) (bytes : List UInt8) : FileRecord :=
  ⟨name, sha256 lib bytes, UInt64.ofNat bytes.length⟩

namespace Publication

/-- The files that are staged before the manifest, in their order. -/
def stagedFiles (p : Publication) : List (String × List UInt8) :=
  [("repo-id", p.repository.asBytes), ("repomd.xml", p.repomd), ("primary", p.primary),
    ("packages.json", lib.json.packagesToVec p.packages)] ++
  (p.filelistsBytes.map ("filelists", ·)).toList ++
  (p.primaryIdentities.map fun identities =>
    ("primary-identities.json", lib.json.identitiesToVec identities)).toList ++
  (p.primaryFiles.map fun records =>
    ("primary-files.bin", Planning.encodePrimaryFiles records)).toList ++
  (p.sourceOrigin.map fun origin => ("source-origin", origin.asBytes)).toList

def manifest (p : Publication) : Manifest where
  version := 5
  repomd := fileRecord lib "repomd.xml" p.repomd
  primary := fileRecord lib "primary" p.primary
  searchIndex := fileRecord lib "packages.json" (lib.json.packagesToVec p.packages)
  repository := fileRecord lib "repo-id" p.repository.asBytes
  integrity := p.integrity
  filelists := p.filelistsBytes.map (fileRecord lib "filelists")
  filelistsIndex := none
  solverInputs := none
  primaryIdentities := p.primaryIdentities.map fun identities =>
    fileRecord lib "primary-identities.json" (lib.json.identitiesToVec identities)
  primaryFiles := p.primaryFiles.map fun records =>
    fileRecord lib "primary-files.bin" (Planning.encodePrimaryFiles records)
  sourceOrigin := p.sourceOrigin.map fun origin => fileRecord lib "source-origin" origin.asBytes

/-- The object that is staged. -/
def object (p : Publication) : Files :=
  Std.ExtTreeMap.ofList
    (p.stagedFiles lib ++ [("manifest.json", lib.json.manifestToVec (p.manifest lib))])

def digest (p : Publication) : String := sha256 lib p.repomd

/-- `snapshot_from_input`. -/
def snapshot (p : Publication) : Except CacheError CompleteSnapshot := do
  let sourceOrigin ← (p.sourceOrigin.mapM (Planning.selectedOrigin lib.crates)).mapError .corrupt
  return ⟨p.digest lib, p.repository, p.integrity, p.packages, p.solverInputs.getD [],
    p.filelists.getD [], sourceOrigin⟩

end Publication

/-- `rename` of the staged object. Another process may have made the object meanwhile. -/
def renameObject (digest : String) (object : Files) : Program Bool :=
  Exec.step fun s =>
    if s.objects.contains digest then .ok (false, s)
    else .ok (true, { s with objects := s.objects.insert digest object })

/-- `write_object`: each file is created and written below the staging directory. -/
def writeObject (p : Publication) : Program Bool := do
  Exec.sync
  Exec.forEach (fun _ => Exec.sync) (p.stagedFiles lib)
  Exec.sync
  Exec.sync
  let published ← renameObject (p.digest lib) (p.object lib)
  if published then Exec.sync
  return published

/-! ## Pointers -/

def modifyRepository (key : String) (f : RepositoryDir → RepositoryDir) (s : CacheStore) : CacheStore :=
  { s with repos := s.repos.modify key f }

/-- `create_private_tree` for the directory of a repository. -/
def createRepositoryDir (key : String) : Program Unit :=
  Exec.change fun s =>
    if s.repos.contains key then s else { s with repos := s.repos.insert key ⟨none, none⟩ }

/-- `write_synced`: the file is created empty, and written in one step. -/
def writeRepoId (key : String) (bytes : List UInt8) : Program Unit := do
  Exec.change (modifyRepository key fun d => { d with repoId := some [] })
  Exec.change (modifyRepository key fun d => { d with repoId := some bytes })
  Exec.sync

def readRepoId (key : String) : Program (Option (List UInt8)) :=
  Exec.observe fun s => .ok (s.repos[key]?.bind (·.repoId))

def checkRepoId (repository : String) (content : List UInt8) : Except CacheError Unit := do
  let bytes ← readBounded (some content) maxManifestBytes
  let stored ← fromUtf8 bytes
  refuseIf (stored ≠ repository) (.corrupt "repository identity mismatch")

def publishRepositoryPointer (repository digest : String) (authentication : RepomdAuthentication) :
    Program Unit := do
  let key := repositoryKey lib repository
  createRepositoryDir key
  match ← readRepoId key with
  | some content => Exec.lift (checkRepoId repository content)
  | none => do
    writeRepoId key repository.asBytes
    Exec.sync
  -- the temporary file is created, written and synced
  Exec.sync
  Exec.change (modifyRepository key fun d =>
    { d with current := some (CurrentPointer.bytes ⟨1, digest, authentication⟩) })
  Exec.sync

/-! ## Generations -/

/-- What `publish_generation` returns for an object that was there before. -/
def reopen (p : Publication) (s : CacheStore) : Except CacheError CompleteSnapshot :=
  if p.integrity = .completeMetadata ∧ p.solverInputs = none ∧ p.filelists = none then do
    let generation ← openVerifiedCompleteGeneration lib s (p.digest lib)
    let (storedRepository, storedPackages) ← openSearchIndex lib s (p.digest lib)
    refuseIf (generation.repository ≠ p.repository ∨ storedRepository ≠ p.repository ∨
      storedPackages ≠ p.packages) (.corrupt "existing object identity or search index mismatch")
    let snapshot ← p.snapshot lib
    return { snapshot with sourceOrigin := some generation.origin }
  else openByDigest lib s (p.digest lib)

/-- The object of a publication is written unless it is there. -/
def storeObject (p : Publication) : Program Bool := do
  let present ← Exec.observe fun s => .ok (s.objects.contains (p.digest lib))
  if present then return false else writeObject lib p

/-- The snapshot of a new object is the input's; one that was there before is opened. -/
def loadPublished (p : Publication) (published : Bool) : Program CompleteSnapshot :=
  if published then Exec.lift (p.snapshot lib) else Exec.observe (reopen lib p)

def publishGeneration (p : Publication) : Program CompleteSnapshot := do
  Exec.sync
  let published ← storeObject lib p
  let loaded ← loadPublished lib p published
  Exec.lift (refuseIf (loaded.repository ≠ p.repository ∨ loaded.integrity ≠ p.integrity)
    (.corrupt "existing object identity mismatch"))
  publishRepositoryPointer lib p.repository (p.digest lib) p.repomdAuthentication
  return loaded

/-! ## The entry points -/

/-- The input of `publish`, when it is valid. -/
def searchPublication (repository : String) (repomd primary : List UInt8) :
    Except CacheError Publication := do
  let record ← (lib.parsers.parseRepomd repomd).mapError .corrupt
  let opened ← (lib.parsers.decodePrimary primary record).mapError .corrupt
  let packages ← (lib.parsers.parsePrimary opened).mapError .corrupt
  return ⟨repository, repomd, primary, packages, none, none, none, none, none, .searchOnly, none,
    .transportOnly⟩

/-- The input of `publish_complete_with_origin_and_authentication`. -/
def completePublication (repository : String) (repomd primary filelists : List UInt8)
    (sourceOrigin : Option String) (authentication : RepomdAuthentication) :
    Except CacheError Publication := do
  authentication.validate.mapError .corrupt
  let origin ← (sourceOrigin.mapM (Planning.selectedOrigin lib.crates)).mapError .corrupt
  let records ← (lib.parsers.parseRepomdRecords repomd).mapError .corrupt
  let opened ← (lib.parsers.decodeRecord primary records.primary).mapError .corrupt
  let solverInputs ← (lib.parsers.parsePrimaryRecords opened).mapError .corrupt
  let filelistInputs ← (lib.parsers.parseFilelistsRecord filelists records.filelists).mapError .corrupt
  (lib.parsers.validateFilelistsGeneration solverInputs filelistInputs).mapError .corrupt
  return ⟨repository, repomd, primary, solverInputs.map Metadata.searchPackage, some solverInputs,
    some (solverInputs.map Metadata.primaryIdentity),
    some (Metadata.primaryFileRecords lib.crates solverInputs), some filelists, some filelistInputs,
    .completeMetadata, origin, authentication⟩

/-- The input of `publish_verified_complete_fast`. -/
def fastPublication (repository : String) (repomd primary filelists : List UInt8)
    (sourceOrigin : Option String) (authentication : RepomdAuthentication) :
    Except CacheError Publication := do
  authentication.validate.mapError .corrupt
  let origin ← (sourceOrigin.mapM (Planning.selectedOrigin lib.crates)).mapError .corrupt
  let records ← (lib.parsers.parseRepomdRecords repomd).mapError .corrupt
  let validated ← (lib.parsers.validatePrimaryRecord primary records.primary).mapError .corrupt
  (lib.parsers.validateFilelistsRecordIdentities filelists records.filelists
    validated.identities).mapError .corrupt
  return ⟨repository, repomd, primary, validated.packages, none, some validated.identities,
    some validated.primaryFiles, some filelists, none, .completeMetadata, origin, authentication⟩

def publish (repository : String) (repomd primary : List UInt8) : Program Snapshot := do
  let p ← Exec.lift (searchPublication lib repository repomd primary)
  let snapshot ← publishGeneration lib p
  return ⟨snapshot.digest, snapshot.packages⟩

def publishCompleteWithOriginAndAuthentication (repository : String)
    (repomd primary filelists : List UInt8) (sourceOrigin : Option String)
    (authentication : RepomdAuthentication) : Program CompleteSnapshot := do
  let p ← Exec.lift (completePublication lib repository repomd primary filelists sourceOrigin
    authentication)
  publishGeneration lib p

def publishCompleteWithOrigin (repository : String) (repomd primary filelists : List UInt8)
    (sourceOrigin : Option String) : Program CompleteSnapshot :=
  publishCompleteWithOriginAndAuthentication lib repository repomd primary filelists sourceOrigin
    .transportOnly

def publishComplete (repository : String) (repomd primary filelists : List UInt8) :
    Program CompleteSnapshot :=
  publishCompleteWithOrigin lib repository repomd primary filelists none

def publishVerifiedCompleteFast (repository : String) (repomd primary filelists : List UInt8)
    (sourceOrigin : Option String) (authentication : RepomdAuthentication) : Program Snapshot := do
  let p ← Exec.lift (fastPublication lib repository repomd primary filelists sourceOrigin
    authentication)
  let snapshot ← publishGeneration lib p
  return ⟨snapshot.digest, snapshot.packages⟩

/-- The part of `reuse_current_verified_complete` before the pointer is written. -/
def reusable (repository : String) (repomd : List UInt8) (selectedOrigin : String)
    (authentication : RepomdAuthentication) (s : CacheStore) : Except CacheError (Option Snapshot) := do
  authentication.validate.mapError .corrupt
  let _ ← (Planning.selectedOrigin lib.crates selectedOrigin).mapError CacheError.corrupt
  match currentPointer lib s repository with
  | .error (.missingSnapshot _) => return none
  | .error e => .error e
  | .ok pointer =>
    if pointer.digest ≠ sha256 lib repomd then return none
    else do
      let generation ← openVerifiedCompleteGeneration lib s (sha256 lib repomd)
      let (storedRepository, packages) ← openSearchIndex lib s (sha256 lib repomd)
      refuseIf (generation.repository ≠ repository ∨ storedRepository ≠ repository ∨
        generation.repomd ≠ repomd) (.corrupt "current complete generation identity mismatch")
      return some ⟨sha256 lib repomd, packages⟩

def reuseCurrentVerifiedComplete (repository : String) (repomd : List UInt8) (selectedOrigin : String)
    (authentication : RepomdAuthentication) : Program (Option Snapshot) := do
  match ← Exec.observe (reusable lib repository repomd selectedOrigin authentication) with
  | none => return none
  | some snapshot => do
    publishRepositoryPointer lib repository snapshot.digest authentication
    return some snapshot

/-! ## Auxiliary objects -/

/-- `rename` of the staged payload. -/
def renameAuxiliary (checksum : String) (bytes : List UInt8) : Program Unit :=
  Exec.change fun s =>
    if s.auxiliary.contains checksum then s
    else { s with auxiliary := s.auxiliary.insert checksum bytes }

def publishAuxiliary (record : AuxiliaryRecord) (bytes : List UInt8) : Program (List UInt8) := do
  Exec.lift (validateRecord record)
  Exec.lift (refuseIf (bytes.length ≠ record.size.toNat ∨ sha256 lib bytes ≠ record.checksum)
    (.corrupt "auxiliary metadata differs from repomd record"))
  Exec.sync
  let present ← Exec.observe fun s => .ok (s.auxiliary.contains record.checksum)
  if !present then
    Exec.sync
    renameAuxiliary record.checksum bytes
    Exec.sync
  Exec.observe fun s => openAuxiliary lib s record

end

end Dnfast.Cache
