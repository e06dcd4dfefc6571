import Dnfast.Planning.LazyIndex

/-! # Manifests of file indexes

`dnfast-planning`, `file_provides.rs`. The index of a repository is found through a manifest, in one of
three formats: the binary index that `build` publishes, a JSON manifest that lists the packages of
primary, or a JSON manifest whose tables lie in shards, which are blobs of their own. The last two are
not written any more, but a snapshot may still refer to one.

What `serde_json` reads and writes is a parameter (`IndexJson`). -/

namespace Dnfast.Planning

open Core (isLowerDigest)
open LazyIndex

structure Shard where
  sha256 : String
  size : UInt64
  uncompressedSize : Option UInt64
  compression : Option String
  deriving DecidableEq

structure Bucket where
  shard : UInt8
  offset : UInt64
  sha256 : String
  size : UInt64
  deriving DecidableEq

structure Manifest where
  schemaVersion : UInt32
  primarySha256 : String
  filelistsSha256 : String
  packageCount : UInt32
  recordCount : UInt64
  shards : List Shard
  buckets : List Bucket
  deriving DecidableEq

structure LazyManifest where
  schemaVersion : UInt32
  mode : String
  primarySha256 : String
  filelistsSha256 : String
  packageCount : UInt32
  identities : List PrimaryPackageIdentity
  deriving DecidableEq

/-- What `serde_json` computes for manifests. -/
structure IndexJson where
  probe : List UInt8 → Except String UInt32
  lazyManifest : List UInt8 → Except String LazyManifest
  lazyManifestToVec : LazyManifest → List UInt8
  manifest : List UInt8 → Except String Manifest
  manifestToVec : Manifest → List UInt8

def indexSchemaVersion : UInt32 := 4
def lazyIndexSchemaVersion : UInt32 := 5
def bucketCount : Nat := 256
def shardCount : Nat := 256
def bucketHeaderSize : Nat := 24
def spoolRecordSize : Nat := 36
def recordSize : Nat := 20
def maxShardBytes : Nat := 64 * 1024 * 1024

/-- An error of `serde_json`. -/
def jsonError (message : String) : Fault PlanningError := .error (.input message)

/-! ## Validation -/

def validateLazyManifest (m : LazyManifest) (primarySha256 filelistsSha256 : String) : Run Unit := do
  let packageCount ← toU32 m.identities.length
  refuse (m.schemaVersion ≠ lazyIndexSchemaVersion ∨ m.mode ≠ "validated-filelists-scan-v1" ∨
    m.primarySha256 ≠ primarySha256 ∨ m.filelistsSha256 ≠ filelistsSha256 ∨ packageCount = 0 ∨
    m.packageCount.toNat ≠ packageCount ∨ ¬ (m.identities.map (·.checksum)).Nodup ∨
    ∃ i ∈ m.identities, i.checksum = "" ∨ i.name = "" ∨ i.arch = "" ∨ i.version = "" ∨
      i.release = "") "lazy file-provides manifest is invalid"

section
variable (schema : UInt32)

/-- The size that a shard has after decompression. -/
def Shard.layoutSize (s : Shard) : Nat :=
  if schema < indexSchemaVersion then s.size.toNat else (s.uncompressedSize.getD 0).toNat

def Shard.invalid (bucketsPerShard : Nat) (s : Shard) : Prop :=
  s.layoutSize schema < bucketHeaderSize * bucketsPerShard ∨ s.layoutSize schema > maxShardBytes ∨
    !isLowerDigest s.sha256 ∨
    (schema < indexSchemaVersion ∧ (s.uncompressedSize ≠ none ∨ s.compression ≠ none)) ∨
    (schema = indexSchemaVersion ∧ (s.size = 0 ∨ s.compression ∉ [none, some "zstd"] ∨
      (s.compression = none ∧ s.size.toNat ≠ s.layoutSize schema)))

instance (bucketsPerShard : Nat) (s : Shard) : Decidable (s.invalid schema bucketsPerShard) :=
  inferInstanceAs (Decidable (_ ∨ _))

def layoutRecordSize : Nat := if schema < indexSchemaVersion then spoolRecordSize else recordSize

def Bucket.invalid (shards : Nat) (b : Bucket) : Prop :=
  b.shard.toNat ≥ shards ∨ b.size.toNat < bucketHeaderSize ∨
    (b.size.toNat - bucketHeaderSize) % layoutRecordSize schema ≠ 0 ∨ !isLowerDigest b.sha256

instance (shards : Nat) (b : Bucket) : Decidable (b.invalid schema shards) :=
  inferInstanceAs (Decidable (_ ∨ _))

/-- `list[index]`. -/
def element {α : Type} (l : List α) (i : Nat) : Run α :=
  match l[i]? with
  | some a => .ok a
  | none => .error .panic

/-- The loop over the buckets: the offset in the shard, and the records counted. -/
structure LayoutScan where
  offset : Nat
  counted : Nat

def checkBucket (m : Manifest) (shardIndex : Nat) (s : LayoutScan) (bucketIndex : Nat) :
    Run LayoutScan := do
  let bucket ← element m.buckets bucketIndex
  refuse (bucket.shard.toNat ≠ shardIndex ∨ bucket.offset.toNat ≠ s.offset)
    "file-provides manifest bucket layout is invalid"
  let offset ← checked (s.offset + bucket.size.toNat) "file-provides shard size overflow"
  let counted ← checked
    (s.counted + (bucket.size.toNat - bucketHeaderSize) / layoutRecordSize schema)
    "file-provides record count overflow"
  return ⟨offset, counted⟩

def checkShard (m : Manifest) (bucketsPerShard : Nat) (counted shardIndex : Nat) : Run Nat := do
  let buckets := (List.range bucketsPerShard).map (shardIndex * bucketsPerShard + ·)
  let s ← buckets.foldlM (checkBucket schema m shardIndex) ⟨0, counted⟩
  let shard ← element m.shards shardIndex
  refuse (s.offset ≠ shard.layoutSize schema) "file-provides manifest shard size is invalid"
  return s.counted

def validateManifestLayout (m : Manifest) (primarySha256 filelistsSha256 : String) (shards : Nat) :
    Run Unit := do
  refuse (shards = 0 ∨ bucketCount % shards ≠ 0) "file-provides manifest shard layout is invalid"
  let bucketsPerShard := bucketCount / shards
  refuse (m.schemaVersion ≠ schema ∨ m.primarySha256 ≠ primarySha256 ∨
    m.filelistsSha256 ≠ filelistsSha256 ∨ m.shards.length ≠ shards ∨
    m.buckets.length ≠ bucketCount ∨ m.packageCount = 0 ∨
    (∃ s ∈ m.shards, s.invalid schema bucketsPerShard) ∨ ∃ b ∈ m.buckets, b.invalid schema shards)
    "file-provides manifest is invalid"
  let counted ← (List.range shards).foldlM (checkShard schema m bucketsPerShard) 0
  refuse (counted ≠ m.recordCount.toNat) "file-provides manifest record count is invalid"

end

def validateManifest (m : Manifest) (primarySha256 filelistsSha256 : String) : Run Unit :=
  validateManifestLayout indexSchemaVersion m primarySha256 filelistsSha256 shardCount

/-! ## Readers -/

/-- The bytes begin as a binary index does. -/
def isLazyBinary (bytes : List UInt8) : Prop :=
  lazyBinaryV2Magic <+: bytes ∨ lazyBinaryV3Magic <+: bytes

instance (bytes : List UInt8) : Decidable (isLazyBinary bytes) :=
  inferInstanceAs (Decidable (_ ∨ _))

section
variable (json : IndexJson)

def parseLazyManifest (bytes : List UInt8) : Run LazyManifest := do
  let m ← (json.lazyManifest bytes).mapError jsonError
  refuse (json.lazyManifestToVec m ≠ bytes) "file-provides manifest is not canonical JSON"
  return m

def parseManifest (bytes : List UInt8) : Run Manifest := do
  let m ← (json.manifest bytes).mapError jsonError
  refuse (json.manifestToVec m ≠ bytes) "file-provides manifest is not canonical JSON"
  return m

/-- The number of shards of a retained manifest. -/
def retainedShardCount (schema : UInt32) : Run Nat :=
  if schema = 2 then .ok 16
  else if schema = 3 ∨ schema = indexSchemaVersion then .ok shardCount
  else fail "retained file-provides manifest schema is unsupported"

def retainedShards (r : PlanningRepository) (bytes : List UInt8) : Run (List String) := do
  let m ← parseManifest json bytes
  let shards ← retainedShardCount m.schemaVersion
  validateManifestLayout m.schemaVersion m r.primary.sha256 r.filelists.sha256 shards
  return m.shards.map (·.sha256)

def retainedLazy (r : PlanningRepository) (bytes : List UInt8) : Run (List String) := do
  let m ← parseLazyManifest json bytes
  validateLazyManifest m r.primary.sha256 r.filelists.sha256
  return []

def retainedLazyBinary (r : PlanningRepository) (bytes : List UInt8) : Run (List String) := do
  let _ ← validateLazyBinaryManifest bytes r.primary.sha256 r.filelists.sha256
  return []

/-- The blobs that an index refers to, besides its manifest. -/
def referencedShardsForGc (bytes : List UInt8) (r : PlanningRepository) : Run (List String) :=
  if isLazyBinary bytes then retainedLazyBinary r bytes
  else do
    let schema ← (json.probe bytes).mapError jsonError
    if schema = lazyIndexSchemaVersion then retainedLazy json r bytes else retainedShards json r bytes

def currentLazyBinary (r : PlanningRepository) (bytes : List UInt8) : Run Bool := do
  let _ ← validateLazyBinaryManifest bytes r.primary.sha256 r.filelists.sha256
  return lazyBinaryV3Magic <+: bytes

def currentLazy (r : PlanningRepository) (bytes : List UInt8) : Run Bool := do
  let m ← parseLazyManifest json bytes
  validateLazyManifest m r.primary.sha256 r.filelists.sha256
  return false

def currentManifest (r : PlanningRepository) (bytes : List UInt8) : Run Bool := do
  let m ← parseManifest json bytes
  if m.schemaVersion ≠ indexSchemaVersion then return false
  else do
    validateManifest m r.primary.sha256 r.filelists.sha256
    return true

/-- `current_descriptor_valid`, once the manifest has been read: the index need not be rebuilt. -/
def currentIndexValid (r : PlanningRepository) (bytes : List UInt8) : Run Bool :=
  if isLazyBinary bytes then currentLazyBinary r bytes
  else do
    let schema ← (json.probe bytes).mapError jsonError
    if schema = lazyIndexSchemaVersion then currentLazy json r bytes else currentManifest json r bytes

end

end Dnfast.Planning
