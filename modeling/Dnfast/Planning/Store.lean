import Dnfast.Durable.Folder
import Dnfast.Durable.Rules
import Dnfast.Planning.Publisher
import Dnfast.State.Fs

/-! # The planning store

`dnfast-planning`, `snapshot_store.rs` and `fs.rs`. Below the planning root lie the pointer `current`,
the directory `snapshots`, with one directory for each snapshot under the digest of its file, and
`blobs/sha256`, with the content that snapshots describe. A snapshot is staged beside the others,
renamed, and then named by the pointer. Old snapshots are collected, and after them the blobs that no
snapshot refers to.

Each system call that changes the store is a durable step. What survives a power loss is what was
flushed: the content of a file, and the entries of a directory. `sync_blobs` flushes the directory of
blobs; nothing flushes a blob, nor the directory that `blobs/sha256` is made in.

Owners, modes and links are left out: `recheck` and `validate_regular` compare them with what the store
itself sets. -/

namespace Dnfast.Planning

open Durable
open Core (isLowerDigest Architecture)
open State (Errno)
open LazyIndex (refuse)

/-! ## Files and directories -/

structure File where
  bytes : List UInt8
  flushed : Bool
  deriving DecidableEq

/-- What a power loss leaves of a file. -/
def File.restore (file : File) : File := if file.flushed then file else ⟨[], false⟩

/-- The directory of a snapshot. `kept` is its `snapshot.json` as of its last flush. -/
structure SnapshotDirectory where
  mtime : Nat
  file : Option File
  kept : Option File
  deriving DecidableEq

def SnapshotDirectory.restore (d : SnapshotDirectory) : SnapshotDirectory :=
  { d with file := d.kept.map File.restore, kept := d.kept.map File.restore }

/-- The planning root. `snapshotsKept` and `blobsKept` say that the entries of `snapshots` and of
`blobs/sha256` were flushed; a missing `snapshots` is as good as an empty one. -/
structure Store where
  files : Folder File
  snapshots : Folder SnapshotDirectory
  snapshotsKept : Bool
  blobs : Option (Folder File)
  blobsKept : Bool

namespace Store

def empty : Store := ⟨.empty, .empty, false, none, false⟩

/-- What the next boot finds. -/
def powerLoss (s : Store) : Store where
  files := s.files.restore File.restore
  snapshots := if s.snapshotsKept then s.snapshots.restore SnapshotDirectory.restore else .empty
  snapshotsKept := s.snapshotsKept
  blobs := if s.blobsKept then s.blobs.map (Folder.restore File.restore) else none
  blobsKept := s.blobsKept

end Store

/-- What `serde_json`, the crates and the module parser compute. -/
structure Library where
  crates : Crates
  indexJson : IndexJson
  toVec : PlanningSnapshot → List UInt8
  fromSlice : List UInt8 → Except String PlanningSnapshot
  RawModule : Type
  parseModules : AuxiliaryRecord → List UInt8 → Except PlanningError (List RawModule)
  validateState : List RawModule → Architecture → ModuleState → Except PlanningError Unit

/-- What one publication finds around it: the host, the clock and the process, and the order in which
the entries of a directory are listed. -/
structure Occasion where
  host : Host
  stamp : String → String
  stagedAt : Nat
  collectedAt : Nat
  readDir : List String → List String
  complete : ∀ names, (readDir names).Perm names

/-- A program over a part of the store. -/
abbrev Action (σ α : Type) : Type := Exec σ (Fault PlanningError) α

abbrev Program (α : Type) : Type := Action Store α

def osError (e : Errno) : PlanningError := .io e.message

/-- No file has more bytes than a signed offset counts. -/
def tooLarge : PlanningError := .io "File too large (os error 27)"

def currentPointerName : String := "current"
def maxRetainedSnapshots : Nat := 8

/-! ## Snapshots as bytes -/

section
variable (lib : Library)

def PlanningSnapshot.canonicalBytes (s : PlanningSnapshot) : Except PlanningError (List UInt8) := do
  s.validate lib.crates
  return lib.toVec s

def PlanningSnapshot.digest (s : PlanningSnapshot) : Except PlanningError String := do
  let bytes ← s.canonicalBytes lib
  return (lib.crates.sha256 bytes).asStr

def PlanningSnapshot.fromCanonicalBytes (bytes : List UInt8) :
    Except PlanningError PlanningSnapshot := do
  Except.refuseIf (bytes.length > maxSnapshotBytes) (.unsafeSnapshot "snapshot exceeds maximum size")
  let value ← (lib.fromSlice bytes).mapError PlanningError.input
  let canonical ← value.canonicalBytes lib
  Except.refuseIf (canonical ≠ bytes) (.unsafeSnapshot "snapshot is not canonical JSON")
  value.validate lib.crates
  return value

end

/-! ## Reading -/

/-- `TrustedDirectory::read`, of a file that is there. -/
def bounded (maximum : Nat) (file : File) : Except PlanningError (List UInt8) :=
  if file.bytes.length > maximum then .error (.unsafeSnapshot "snapshot file exceeds maximum size")
  else .ok file.bytes

/-- `TrustedDirectory::read`. -/
def read (name : String) (maximum : Nat) (directory : Folder File) :
    Except PlanningError (List UInt8) :=
  match directory.now[name]? with
  | none => .error (osError .noent)
  | some file => bounded maximum file

/-- `TrustedDirectory::read_if_present`. -/
def readIfPresent (name : String) (maximum : Nat) (directory : Folder File) :
    Except PlanningError (Option (List UInt8)) :=
  match directory.now[name]? with
  | none => .ok none
  | some file => (bounded maximum file).map some

/-- The file of a snapshot. -/
def readSnapshotFile (name : String) (snapshots : Folder SnapshotDirectory) :
    Except PlanningError (List UInt8) :=
  match snapshots.now[name]? with
  | none => .error (osError .noent)
  | some directory =>
    match directory.file with
    | none => .error (osError .noent)
    | some file => bounded maxSnapshotBytes file

/-- A byte of a digest is an ASCII digit or one of the letters `a` to `f`. -/
def isDigestByte (b : UInt8) : Bool := (48 ≤ b && b ≤ 57) || (97 ≤ b && b ≤ 102)

def pointerDigest (pointer : List UInt8) : Except PlanningError String :=
  if pointer.length ≠ 65 ∨ pointer[64]? ≠ some 10 ∨ !(pointer.take 64).all isDigestByte then
    .error (.unsafeSnapshot "pointer is not a canonical digest")
  else .ok (String.ofList ((pointer.take 64).map fun b => Char.ofNat b.toNat))

def currentDigest (s : Store) : Except PlanningError String := do
  let pointer ← read currentPointerName 65 s.files
  pointerDigest pointer

section
variable (lib : Library)

def openSnapshot (s : Store) : Except PlanningError PlanningSnapshot := do
  let digest ← currentDigest s
  let bytes ← readSnapshotFile digest s.snapshots
  let result ← PlanningSnapshot.fromCanonicalBytes lib bytes
  let found ← result.digest lib
  Except.refuseIf (found ≠ digest) (.unsafeSnapshot "pointer digest differs from payload")
  return result

/-- `usize::try_from(size)?.checked_add(1)`. -/
def blobMaximum (size : UInt64) : Except PlanningError Nat :=
  if size.toNat + 1 < 2 ^ 64 then .ok (size.toNat + 1)
  else .error (.unsafeSnapshot "planning blob size overflow")

def readBlob (digest : String) (size : UInt64) (s : Store) : Except PlanningError (List UInt8) := do
  Except.refuseIf (!isLowerDigest digest) (.unsafeSnapshot "invalid planning blob digest")
  let maximum ← blobMaximum size
  let blobs ← Except.okOr s.blobs (osError .noent)
  read digest maximum blobs

/-- The content has the size and the digest of the descriptor. -/
def PlanningBytes.Describes (d : PlanningBytes) (bytes : List UInt8) : Prop :=
  bytes.length = d.size.toNat ∧ (lib.crates.sha256 bytes).asStr = d.sha256

instance (d : PlanningBytes) (bytes : List UInt8) : Decidable (d.Describes lib bytes) :=
  inferInstanceAs (Decidable (_ ∧ _))

/-- `decode_verified`, with what `read_blob` returns. -/
def PlanningBytes.decodeVerified (read : Except PlanningError (List UInt8)) (d : PlanningBytes) :
    Except PlanningError (List UInt8) := do
  let decoded ← if d.base64 = "" then read else
    Except.okOr (lib.crates.base64Decode d.base64) (.input "invalid base64 snapshot payload")
  Except.refuseIf (¬ d.Describes lib decoded) (.input "snapshot payload digest differs")
  return decoded

/-- `materialize_payload` of a snapshot that is attached to the store. -/
def materialize (s : Store) (d : PlanningBytes) : Except PlanningError (List UInt8) :=
  d.decodeVerified lib (readBlob d.sha256 d.size s)

end

/-! ## Writing files -/

/-- A step that reads. -/
def reading {σ α : Type} (f : σ → Except PlanningError α) : Action σ α :=
  Exec.observe fun s => liftRun (f s)

/-- A check on values. -/
def checking {σ α : Type} (x : Except PlanningError α) : Action σ α := Exec.lift (liftRun x)

/-- `set_permissions`. -/
def setPermissions {σ : Type} : Action σ Unit := Exec.sync

/-- The name of a temporary file or directory. -/
def temporaryName (occasion : Occasion) (base : String) : String :=
  String.ofList ('.' :: (base.toList ++ '-' :: (occasion.stamp base).toList))

/-- `create_new`. -/
def createNew (name : String) : Action (Folder File) Unit :=
  Exec.step fun f =>
    if name ∈ f.now then .error (.error (osError .exist)) else .ok ((), f.put name ⟨[], false⟩)

def writeAll (name : String) (bytes : List UInt8) : Action (Folder File) Unit :=
  Exec.step fun f =>
    if bytes.length < 2 ^ 63 then .ok ((), f.modify name fun _ => ⟨bytes, false⟩)
    else .error (.error tooLarge)

def syncAll (name : String) : Action (Folder File) Unit :=
  Exec.change (·.modify name fun file => { file with flushed := true })

def rename (source target : String) : Action (Folder File) Unit :=
  Exec.step fun f =>
    match f.now[source]? with
    | none => .error (.error (osError .noent))
    | some file => .ok ((), f.move source target file)

def removeFile (name : String) : Action (Folder File) Unit :=
  Exec.step fun f =>
    if name ∈ f.now then .ok ((), f.remove name) else .error (.error (osError .noent))

def writeFile (name : String) (bytes : List UInt8) :
    Action (Folder File) Unit := do
  createNew name
  writeAll name bytes
  syncAll name
  setPermissions
  syncAll name

/-- `write_file_deferred_from_verified`, and of a file: the content is not flushed. -/
def writeFileDeferred (name : String) (bytes : List UInt8) :
    Action (Folder File) Unit := do
  createNew name
  writeAll name bytes
  setPermissions

/-! ## Blobs -/

/-- `blobs/sha256` is made when it is missing. -/
def makeBlobs (s : Store) : Store :=
  { s with blobs := some (s.blobs.getD .empty), blobsKept := s.blobsKept && s.blobs.isSome }

def inBlobs {α : Type} (m : Action (Folder File) α) : Program α :=
  Exec.zoom Store.blobs (fun b s => { s with blobs := some b }) (.error (osError .noent)) m

def collision : PlanningError := .unsafeSnapshot "immutable planning blob digest collision"

/-- The end of both ways to publish a blob, where the file could not be renamed. -/
def settleBlob (temporary digest : String) (bytes : List UInt8) (accepts : List UInt8 → Bool)
    (e : Fault PlanningError) : Action (Folder File) Unit := do
  match ← reading (readIfPresent digest bytes.length) with
  | none => Exec.throw e
  | some _ => do
    removeFile temporary
    let existing ← reading (read digest bytes.length)
    checking (Except.refuseIf (!accepts existing) collision)

def writeBlob (temporary digest : String) (bytes : List UInt8) (accepts : List UInt8 → Bool) :
    Action (Folder File) Unit := do
  writeFileDeferred temporary bytes
  match ← Exec.attempt (rename temporary digest) with
  | .ok _ => pure ()
  | .error e => settleBlob temporary digest bytes accepts e

/-- A blob that is there already has to be the one that is published. -/
def placeBlob (temporary digest : String) (bytes : List UInt8) (accepts : List UInt8 → Bool) :
    Action (Folder File) Unit := do
  match ← reading (readIfPresent digest bytes.length) with
  | some existing => checking (Except.refuseIf (!accepts existing) collision)
  | none => writeBlob temporary digest bytes accepts

section
variable (lib : Library) (occasion : Occasion)

/-- `publish_blob_inner_with_source`. -/
def publishBlobDeferred (digest : String) (bytes : List UInt8) : Program Unit := do
  checking (Except.refuseIf (!isLowerDigest digest ∨ (lib.crates.sha256 bytes).asStr ≠ digest)
    (.unsafeSnapshot "planning blob digest differs from payload"))
  Exec.change makeBlobs
  inBlobs (placeBlob (temporaryName occasion ("blob-" ++ digest)) digest bytes (· == bytes))

def publishVerifiedBlobDeferred (payload : VerifiedBytes) : Program Unit :=
  publishBlobDeferred lib occasion (lib.crates.sha256 payload.bytes).asStr payload.bytes

def publishVerifiedFileDeferred (payload : VerifiedBytes) : Program Unit := do
  let digest := (lib.crates.sha256 payload.bytes).asStr
  checking (Except.refuseIf (!isLowerDigest digest)
    (.unsafeSnapshot "planning blob digest is invalid"))
  Exec.change makeBlobs
  inBlobs (placeBlob (temporaryName occasion ("blob-" ++ digest)) digest payload.bytes
    fun existing => existing.length == payload.bytes.length &&
      (lib.crates.sha256 existing).asStr == digest)

end

/-- The directory is flushed, the blobs in it are not. -/
def syncBlobs : Program Unit := inBlobs (Exec.change Folder.flush)

/-! ## Snapshots -/

def inSnapshots {α : Type} (m : Action (Folder SnapshotDirectory) α) : Program α :=
  Exec.zoom (fun s => some s.snapshots) (fun f s => { s with snapshots := f }) (.error (osError .noent)) m

def inPlanning {α : Type} (m : Action (Folder File) α) : Program α :=
  Exec.zoom (fun s => some s.files) (fun f s => { s with files := f }) (.error (osError .noent)) m

def snapshotExists (digest : String) : Action (Folder SnapshotDirectory) Bool := do
  checking (Except.refuseIf (!isLowerDigest digest) (.unsafeSnapshot "invalid snapshot digest"))
  reading fun f => .ok (f.now.contains digest)

def createDir (name : String) (mtime : Nat) :
    Action (Folder SnapshotDirectory) Unit :=
  Exec.step fun f =>
    if name ∈ f.now then .error (.error (osError .exist)) else .ok ((), f.put name ⟨mtime, none, none⟩)

/-- `write_file` of the `snapshot.json` of a directory that was just made. -/
def writeSnapshotFile (name : String) (mtime : Nat) (bytes : List UInt8) :
    Action (Folder SnapshotDirectory) Unit := do
  Exec.change (·.modify name fun d => { d with mtime, file := some ⟨[], false⟩ })
  Exec.step fun f =>
    if bytes.length < 2 ^ 63 then
      .ok ((), f.modify name fun d => { d with file := some ⟨bytes, false⟩ })
    else .error (.error tooLarge)
  Exec.change (·.modify name fun d => { d with file := d.file.map ({ · with flushed := true }) })
  setPermissions
  Exec.change (·.modify name fun d => { d with file := d.file.map ({ · with flushed := true }) })

/-- `sync_all` of the directory of a snapshot. -/
def syncDirectory (name : String) : Action (Folder SnapshotDirectory) Unit :=
  Exec.change (·.modify name fun d => { d with kept := d.file })

/-- A directory is renamed onto nothing, or onto an empty directory. -/
def renameDirectory (source target : String) :
    Action (Folder SnapshotDirectory) Unit :=
  Exec.step fun f =>
    match f.now[source]? with
    | none => .error (.error (osError .noent))
    | some d =>
      if (f.now[target]?.bind (·.file)).isSome then .error (.error (osError .notempty))
      else .ok ((), f.move source target d)

/-- `remove_dir_all`. -/
def removeDirAll (name : String) : Action (Folder SnapshotDirectory) Unit :=
  Exec.step fun f =>
    if name ∈ f.now then .ok ((), f.remove name) else .error (.error (osError .noent))

/-- The end of staging, where the directory could not be renamed. -/
def settleSnapshot (staging digest : String) (e : Fault PlanningError) :
    Action (Folder SnapshotDirectory) Unit := do
  if ← snapshotExists digest then removeDirAll staging else Exec.throw e

def stageSnapshot (staging digest : String) (mtime : Nat) (bytes : List UInt8) :
    Action (Folder SnapshotDirectory) Unit := do
  createDir staging mtime
  setPermissions
  writeSnapshotFile staging mtime bytes
  syncDirectory staging
  match ← Exec.attempt (renameDirectory staging digest) with
  | .ok _ => Exec.change Folder.flush
  | .error e => settleSnapshot staging digest e

def placeSnapshot (staging digest : String) (mtime : Nat) (bytes : List UInt8) :
    Action (Folder SnapshotDirectory) Unit := do
  if ← snapshotExists digest then do
    let existing ← reading (readSnapshotFile digest)
    checking (Except.refuseIf (existing ≠ bytes)
      (.unsafeSnapshot "immutable snapshot digest collision"))
  else stageSnapshot staging digest mtime bytes

/-- `planning.sync()`. -/
def planningFlush (s : Store) : Store := { s with files := s.files.flush, snapshotsKept := true }

section
variable (lib : Library) (occasion : Occasion)

def publishSnapshot (digest : String) (bytes : List UInt8) : Program Unit := do
  inSnapshots (placeSnapshot (temporaryName occasion ("staging-" ++ digest)) digest
    occasion.stagedAt bytes)
  let temporary := temporaryName occasion "current"
  inPlanning (writeFile temporary (digest ++ "\n").asBytes)
  inPlanning (rename temporary currentPointerName)
  Exec.change planningFlush

/-! ## Collection -/

/-- The entries of `snapshots`, the newest first. -/
def entries (f : Folder SnapshotDirectory) : List String :=
  (occasion.readDir f.now.keys).insertionSort fun a b =>
    (f.now[b]?.map (·.mtime)).getD 0 ≤ (f.now[a]?.map (·.mtime)).getD 0

def removeSnapshotFile (name : String) : Action (Folder SnapshotDirectory) Unit :=
  Exec.step fun f =>
    if (f.now[name]?.bind (·.file)).isSome then
      .ok ((), f.modify name fun d => { d with mtime := occasion.collectedAt, file := none })
    else .error (.error (osError .noent))

/-- `remove_dir`. -/
def removeDir (name : String) : Action (Folder SnapshotDirectory) Unit :=
  Exec.step fun f =>
    match f.now[name]? with
    | none => .error (.error (osError .noent))
    | some d => if d.file.isSome then .error (.error (osError .notempty)) else .ok ((), f.remove name)

def collectSnapshot (current name : String) :
    Action (Folder SnapshotDirectory) Unit :=
  if name = current ∨ !isLowerDigest name then pure ()
  else do
    let _ ← reading (readSnapshotFile name)
    removeSnapshotFile occasion name
    removeDir name

def garbageCollect (current : String) : Program Unit :=
  inSnapshots do
    let names ← reading fun f => .ok (entries occasion f)
    Exec.forEach (collectSnapshot occasion current) (names.drop maxRetainedSnapshots)

def PlanningRepository.descriptors (r : PlanningRepository) : List PlanningBytes :=
  [r.repomd, r.primary, r.filelists] ++ r.fileProvides.toList ++ r.group.toList ++
    r.modules.toList ++ r.updateinfo.toList

def retainedShardsOf (blobs : Folder File) (r : PlanningRepository) : Run (List String) :=
  match r.fileProvides with
  | none => .ok []
  | some d => do
    let maximum ← liftRun (blobMaximum d.size)
    let manifest ← liftRun (read d.sha256 maximum blobs)
    Except.refuseIf (¬ d.Describes lib manifest)
      (.error (.unsafeSnapshot "retained file-provides manifest digest differs"))
    referencedShardsForGc lib.indexJson manifest r

/-- The blobs that a repository refers to. -/
def retainedBy (blobs : Folder File) (r : PlanningRepository) : Run (List String) := do
  Except.refuseIf (∃ d ∈ r.descriptors, !isLowerDigest d.sha256)
    (.error (.unsafeSnapshot "retained snapshot has an invalid blob digest"))
  let shards ← retainedShardsOf lib blobs r
  return r.descriptors.map (·.sha256) ++ shards

/-- The blobs that the snapshot of a directory refers to. -/
def retainedIn (s : Store) (blobs : Folder File) (name : String) : Run (List String) :=
  if !isLowerDigest name then .ok []
  else do
    let bytes ← liftRun (readSnapshotFile name s.snapshots)
    let snapshot ← liftRun (PlanningSnapshot.fromCanonicalBytes lib bytes)
    let found ← liftRun (snapshot.digest lib)
    Except.refuseIf (found ≠ name)
      (.error (.unsafeSnapshot "retained snapshot digest differs from directory"))
    let retained ← snapshot.payload.allowedRepositories.mapM (retainedBy lib blobs)
    return retained.flatten

/-- The blobs that stay, where there is a directory of blobs. -/
def retained (s : Store) : Run (Option (List String)) :=
  match s.blobs with
  | none => .ok none
  | some blobs => do
    let retained ← (occasion.readDir s.snapshots.now.keys).mapM (retainedIn lib s blobs)
    return some retained.flatten

def collectBlob (retained : List String) (name : String) :
    Action (Folder File) Unit :=
  if !isLowerDigest name ∨ name ∈ retained then pure () else removeFile name

def removeBlobs (retained : List String) : Action (Folder File) Unit := do
  let names ← reading fun f => .ok (occasion.readDir f.now.keys)
  Exec.forEach (collectBlob retained) names
  Exec.change Folder.flush

def garbageCollectBlobs : Program Unit := do
  match ← Exec.observe (retained lib occasion) with
  | none => pure ()
  | some retained => inBlobs (removeBlobs occasion retained)

end

end Dnfast.Planning
