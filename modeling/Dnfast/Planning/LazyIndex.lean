import Dnfast.Data.Search
import Dnfast.Data.Slice
import Dnfast.Planning.Model

/-! # The lazy index of file providers

`dnfast-planning`, `file_provides.rs`. The index that `build` publishes for a repository is one blob:
a header that binds it to the primary and the filelists metadata, a table from checksums of packages
to their ordinals, and (in version 3) a table from truncated digests of paths to the ordinals of the
packages that primary lists them for. Both tables are sorted and searched by bisection.

Slice expressions are kept as the source has them, with a panic when they leave their range. `usize`
has 64 bits on the two architectures that are supported. -/

namespace Dnfast.Planning

open Core (isLowerDigest)

def lazyBinaryV2Magic : List UInt8 := "DNFAST-FP-LAZY-V2\n".asBytes
def lazyBinaryV3Magic : List UInt8 := "DNFAST-FP-LAZY-V3\n".asBytes
def lazyBinaryEntrySize : Nat := 36
def cachePrimaryFileEntrySize : Nat := 36
def primaryFileEntrySize : Nat := 20

/-- A computation that may also panic. -/
abbrev Run (α : Type) : Type := Except (Fault PlanningError) α

namespace LazyIndex

def fail {α : Type} (message : String) : Run α := .error (.error (.input message))

def refuse (c : Prop) [Decidable c] (message : String) : Run Unit :=
  Except.refuseIf c (.error (.input message))

/-! ## Digests -/

def hexValue (c : Char) : Nat := if c.isDigit then c.toNat - 48 else c.toNat - 87

/-- `hex::decode` of a text of hexadecimal digits. -/
def hexDecode : List Char → List UInt8
  | high :: low :: rest => UInt8.ofNat (16 * hexValue high + hexValue low) :: hexDecode rest
  | _ => []

def decodeSha256 (value : String) : Run (List UInt8) :=
  if isLowerDigest value then .ok (hexDecode value.toList) else fail "file-provides SHA-256 is invalid"

/-- The bytes of `Sha256::digest`. -/
def digestBytes (crates : Crates) (bytes : List UInt8) : List UInt8 :=
  hexDecode (crates.sha256 bytes).asStr.toList

/-! ## Reading -/

structure LazyBinaryManifest where
  packageCount : Nat
  packageEntries : List UInt8
  primaryFileEntries : List UInt8
  deriving DecidableEq

/-- `u32::from_be_bytes(bytes[start..stop].try_into().expect(..))`, or the same for `u64`. -/
def readBe (width : Nat) (bytes : List UInt8) (start stop : Nat) : Run Nat := do
  let slice ← bytes.slice start stop
  let array ← slice.fixed width
  return Nat.ofBeBytes array

/-- A sum or product that `usize` has to hold. -/
def checked (n : Nat) (message : String) : Run Nat := if n < 2 ^ 64 then .ok n else fail message

/-- `bytes.get(start..stop)`. -/
def getRange (bytes : List UInt8) (start stop : Nat) (message : String) : Run (List UInt8) :=
  if start ≤ stop ∧ stop ≤ bytes.length then .ok ((bytes.drop start).take (stop - start))
  else fail message

def lazyMagic (bytes : List UInt8) : Run (List UInt8 × Bool) :=
  if lazyBinaryV3Magic <+: bytes then .ok (lazyBinaryV3Magic, true)
  else if lazyBinaryV2Magic <+: bytes then .ok (lazyBinaryV2Magic, false)
  else fail "lazy file-provides magic is invalid"

/-- The loop over the packages: the last checksum, and the ordinals that have come up. -/
structure PackageScan where
  previous : Option (List UInt8)
  seen : List Bool

def checkPackageEntry (s : PackageScan) (entry : List UInt8) : Run PackageScan := do
  let checksum ← entry.slice 0 32
  refuse (∃ previous ∈ s.previous, previous ≥ checksum)
    "lazy file-provides checksums are not strictly sorted"
  let ordinal ← readBe 4 entry 32 entry.length
  match s.seen[ordinal]? with
  | none => fail "lazy file-provides ordinal is out of range"
  | some true => fail "lazy file-provides ordinal is duplicate"
  | some false => return ⟨some checksum, s.seen.set ordinal true⟩

def checkPrimaryFileEntry (packageCount : Nat) (previous : Option (List UInt8))
    (entry : List UInt8) : Run (Option (List UInt8)) := do
  let ordinal ← readBe 4 entry 16 entry.length
  refuse (ordinal ≥ packageCount ∨ ∃ p ∈ previous, p ≥ entry)
    "primary file index records are invalid"
  return some entry

/-- The number of entries of the second table, which only version 3 has. -/
def readPrimaryFileCount (hasPrimaryFiles : Bool) (header : List UInt8) (offset : Nat) : Run Nat :=
  if hasPrimaryFiles then readBe 8 header offset (offset + 8) else .ok 0

def headerSize (magic : List UInt8) (hasPrimaryFiles : Bool) : Nat :=
  magic.length + 32 + 32 + 4 + if hasPrimaryFiles then 8 else 0

def validateLazyBinaryManifest (bytes : List UInt8) (primarySha256 filelistsSha256 : String) :
    Run LazyBinaryManifest := do
  let (magic, hasPrimaryFiles) ← lazyMagic bytes
  let size := headerSize magic hasPrimaryFiles
  let header ← getRange bytes 0 size "lazy file-provides header is truncated"
  let boundPrimary ← header.slice magic.length (magic.length + 32)
  let primary ← decodeSha256 primarySha256
  refuse (boundPrimary ≠ primary) "lazy file-provides generation binding differs"
  let boundFilelists ← header.slice (magic.length + 32) (magic.length + 64)
  let filelists ← decodeSha256 filelistsSha256
  refuse (boundFilelists ≠ filelists) "lazy file-provides generation binding differs"
  let countOffset := magic.length + 64
  let packageCount ← readBe 4 header countOffset (countOffset + 4)
  let packageSize ← checked (packageCount * lazyBinaryEntrySize) "lazy file-provides size overflow"
  let packageEnd ← checked (size + packageSize) "lazy file-provides size overflow"
  let packageEntries ← getRange bytes size packageEnd
    "lazy file-provides package entries are truncated"
  let primaryFileCount ← readPrimaryFileCount hasPrimaryFiles header (countOffset + 4)
  let primaryFileSize ← checked (primaryFileCount * primaryFileEntrySize)
    "primary file index size overflow"
  let expectedSize ← checked (packageEnd + primaryFileSize) "lazy file-provides size overflow"
  refuse (packageCount = 0 ∨ bytes.length ≠ expectedSize) "lazy file-provides entry size differs"
  let primaryFileEntries ← bytes.slice packageEnd bytes.length
  let _ ← (packageEntries.chunksExact lazyBinaryEntrySize).foldlM checkPackageEntry
    ⟨none, List.replicate packageCount false⟩
  let _ ← (primaryFileEntries.chunksExact primaryFileEntrySize).foldlM
    (checkPrimaryFileEntry packageCount) none
  return ⟨packageCount, packageEntries, primaryFileEntries⟩

/-- A step of the search for a checksum. -/
def probeChecksum (m : LazyBinaryManifest) (checksum : List UInt8) (middle : Nat) :
    Run (Probe Nat) := do
  let entry ← m.packageEntries.slice (middle * lazyBinaryEntrySize)
    ((middle + 1) * lazyBinaryEntrySize)
  let head ← entry.slice 0 32
  if head < checksum then return .less
  else if checksum < head then return .greater
  else return .found (← readBe 4 entry 32 entry.length)

def lazyBinaryOrdinal (m : LazyBinaryManifest) (packageId : String) : Run Nat := do
  let checksum ← decodeSha256 packageId
  match ← searchExact (probeChecksum m checksum) m.packageCount 0 m.packageCount with
  | some ordinal => return ordinal
  | none => fail "filelists package is absent from primary"

def primaryFileAt (m : LazyBinaryManifest) (i : Nat) : Run (List UInt8) :=
  m.primaryFileEntries.slice (i * primaryFileEntrySize) ((i + 1) * primaryFileEntrySize)

/-- A step of the search for the first entry of a path. -/
def belowTarget (m : LazyBinaryManifest) (target : List UInt8) (middle : Nat) : Run Bool := do
  let entry ← primaryFileAt m middle
  let head ← entry.slice 0 16
  return head < target

/-- A step of the loop over the entries of a path. -/
def readProvider (m : LazyBinaryManifest) (target : List UInt8) (i : Nat) : Run (Option Nat) := do
  let entry ← primaryFileAt m i
  let head ← entry.slice 0 16
  if head = target then return some (← readBe 4 entry 16 entry.length) else return none

def lazyBinaryPrimaryProviders (crates : Crates) (m : LazyBinaryManifest) (absolutePath : String) :
    Run (List Nat) := do
  let digest := digestBytes crates absolutePath.asBytes
  let target ← digest.slice 0 16
  let count := m.primaryFileEntries.length / primaryFileEntrySize
  let low ← lowerBound (belowTarget m target) count 0 count
  scanWhile (readProvider m target) count low count

/-! ## Building -/

structure PrimaryPackageIdentity where
  checksum : String
  name : String
  arch : String
  epoch : String
  version : String
  release : String
  deriving DecidableEq, Repr

/-- What `build` takes from a verified generation. The identities are those of primary, retained or
parsed again. -/
structure IndexSource where
  identities : List PrimaryPackageIdentity
  primarySha256 : String
  filelistsSha256 : String
  primaryFiles : Option (List UInt8)

/-- `u32::try_from(..)`. -/
def toU32 (n : Nat) : Run Nat :=
  if n < 2 ^ 32 then .ok n else fail "out of range integral type conversion attempted"

def packageEntry (p : PrimaryPackageIdentity × Nat) : Run (List UInt8 × Nat) := do
  let checksum ← decodeSha256 p.1.checksum
  let ordinal ← toU32 p.2
  return (checksum, ordinal)

/-- The loop over the projection of primary: the last digest, and the bytes written. -/
structure FileScan where
  previous : Option (List UInt8)
  bytes : List UInt8

def addPrimaryFile (s : FileScan) (record : List UInt8) : Run FileScan := do
  let digest ← record.slice 0 32
  let head ← digest.slice 0 16
  refuse (s.previous.map (·.take 16) = some head ∧ s.previous ≠ some digest)
    "primary file truncated digest collision"
  let ordinal ← record.slice 32 record.length
  return ⟨some digest, s.bytes ++ head ++ ordinal⟩

def primaryFileBytes : Option (List UInt8) → Run (List UInt8)
  | none => .ok []
  | some files => do
    refuse (files.length % cachePrimaryFileEntrySize ≠ 0)
      "primary file projection has a partial record"
    let s ← (files.chunksExact cachePrimaryFileEntrySize).foldlM addPrimaryFile ⟨none, []⟩
    return s.bytes

/-- The bytes that `build` puts together. -/
def assemble (g : IndexSource) : Run (List UInt8) := do
  let packageCount ← toU32 g.identities.length
  let entries ← g.identities.zipIdx.mapM packageEntry
  let entries := entries.insertionSort (·.1 ≤ ·.1)
  refuse (¬ entries.IsChain (·.1 ≠ ·.1)) "primary package checksums are duplicate"
  let primaryFileCount := g.primaryFiles.elim 0 (·.length / cachePrimaryFileEntrySize)
  let primary ← decodeSha256 g.primarySha256
  let filelists ← decodeSha256 g.filelistsSha256
  let files ← primaryFileBytes g.primaryFiles
  return (if g.primaryFiles.isSome then lazyBinaryV3Magic else lazyBinaryV2Magic) ++ primary ++
    filelists ++ packageCount.beBytes 4 ++
    (if g.primaryFiles.isSome then primaryFileCount.beBytes 8 else []) ++
    entries.flatMap (fun e => e.1 ++ e.2.beBytes 4) ++ files

/-- `build`: the bytes of the index, and its descriptor. -/
def build (crates : Crates) (g : IndexSource) : Run (List UInt8 × PlanningBytes) := do
  let bytes ← assemble g
  let _ ← validateLazyBinaryManifest bytes g.primarySha256 g.filelistsSha256
  return (bytes, ⟨(crates.sha256 bytes).asStr, UInt64.ofNat bytes.length, ""⟩)

end LazyIndex

end Dnfast.Planning
