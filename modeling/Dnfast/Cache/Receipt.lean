import Dnfast.Core.Value
import Dnfast.Data.Bytes
import Dnfast.Data.Check
import Dnfast.Native.Inventory

/-! # Receipts for a verified RPM database

`dnfast-cache`, `rpmdb_receipt.rs`. A generation of the database is what `fstat` says of its file,
with the digest of what the database was verified as (`binding`). A receipt for a generation is a
file with its descriptor, and one more file names the current generation. `RpmdbFiles` is all that
is read here: the database and its receipts. A file system without checksums and a database whose
log is not quiescent have no generations. -/

namespace Dnfast.Cache

open Except (refuseIf)
open Core (Sha256Digest)

inductive CacheError where
  | missingSnapshot (message : String)
  | cacheUpgradeRequired
  | corrupt (message : String)
  | io (message : String)
  deriving DecidableEq, Repr

structure RpmDbVerifiedGeneration where
  binding : String
  descriptor : String
  receiptName : String
  deriving DecidableEq, Repr

/-- The fields of `fstat` that a generation consists of. -/
structure Measured where
  dev : Nat
  ino : Nat
  size : Nat
  mtime : Nat
  mtimeNsec : Nat
  ctime : Nat
  ctimeNsec : Nat
  deriving DecidableEq

/-- What `read_limited_receipt` finds: nothing, a text, or a file that it refuses or cannot read. -/
abbrev ReceiptFile := Except CacheError (Option String)

/-- `RpmDbStartupState`, as far as it is parsed from the state in the current receipt. -/
structure RpmDbStartupState where
  schema : String
  nativeAbi : UInt32
  architecture : String
  rpmdbCookie : String
  inventorySha256 : String
  deriving DecidableEq

/-- The current receipt. The state is absent when it is not one that `serde_json` reads. -/
structure CurrentRecord where
  binding : String
  state : Option RpmDbStartupState
  descriptor : String

structure RpmdbFiles where
  db : Except Native.NativeError Native.Rpmdb
  /-- What `fstat` says of the database, unless its generation cannot be measured. -/
  measured : Except CacheError (Option Measured)
  receipts : String → ReceiptFile
  /-- The current receipt, `none` in it when the text is not one. -/
  current : Except CacheError (Option (Option CurrentRecord))

inductive RpmDbReceiptCheck where
  | hit (generation : RpmDbVerifiedGeneration)
  | miss (generation : RpmDbVerifiedGeneration) (corrupted : Bool)
  | unsupported
  deriving DecidableEq

structure RpmDbCurrentReceipt where
  state : Option RpmDbStartupState
  generation : RpmDbVerifiedGeneration

inductive RpmDbCurrentCheck where
  | hit (receipt : RpmDbCurrentReceipt)
  | miss (corrupted : Bool)
  | unsupported

def maxReceiptBytes : Nat := 512

def Measured.descriptor (m : Measured) (binding : String) : String :=
  "dnfast-rpmdb-verified-generation-v1 " ++ binding ++ " " ++ m.dev.repr ++ " " ++ m.ino.repr ++
    " " ++ m.size.repr ++ " " ++ m.mtime.repr ++ " " ++ m.mtimeNsec.repr ++ " " ++ m.ctime.repr ++
    " " ++ m.ctimeNsec.repr ++ "\n"

def validateDigest (value role : String) : Except CacheError Unit :=
  refuseIf (!Core.isLowerDigest value) (.corrupt ("invalid " ++ role ++ " digest"))

namespace RpmdbFiles

variable (sha256 : List UInt8 → Sha256Digest) (files : RpmdbFiles)

def describe (binding : String) : Except CacheError (Option RpmDbVerifiedGeneration) := do
  match ← files.measured with
  | none => return none
  | some measured =>
    let descriptor := measured.descriptor binding
    refuseIf (descriptor.utf8ByteSize > maxReceiptBytes)
      (.corrupt "RPMDB verification receipt exceeds limit")
    return some ⟨binding, descriptor, (sha256 descriptor.asBytes).asStr ++ ".verified"⟩

/-- Whether the receipt of the generation is there, or why not. -/
def receiptOf (generation : RpmDbVerifiedGeneration) : Except CacheError (Except Bool Unit) :=
  match files.receipts generation.receiptName with
  | .ok (some value) => .ok (if value = generation.descriptor then .ok () else .error true)
  | .ok none => .ok (.error false)
  | .error (.corrupt _) => .ok (.error true)
  | .error e => .error e

def check (binding : String) : Except CacheError RpmDbReceiptCheck := do
  validateDigest binding "RPMDB verification binding"
  match ← files.describe sha256 binding with
  | none => return .unsupported
  | some generation =>
    match ← files.receiptOf generation with
    | .ok () => return .hit generation
    | .error corrupted => return .miss generation corrupted

def isCurrent (expected : RpmDbVerifiedGeneration) : Except CacheError Bool := do
  return (← files.check sha256 expected.binding) = .hit expected

/-- `current`. -/
def currentReceipt : Except CacheError RpmDbCurrentCheck :=
  match files.current with
  | .error (.corrupt _) => .ok (.miss true)
  | .error e => .error e
  | .ok none => .ok (.miss false)
  | .ok (some none) => .ok (.miss true)
  | .ok (some (some record)) => do
    match ← files.describe sha256 record.binding with
    | none => return .unsupported
    | some generation =>
      if generation.descriptor ≠ record.descriptor then return .miss false
      else
        match ← files.receiptOf generation with
        | .ok () => return .hit ⟨record.state, generation⟩
        | .error corrupted => return .miss corrupted

/-- `publish_current`, up to the writing of the two files. The database is measured once. -/
def publishCurrent (expected : RpmDbVerifiedGeneration) : Except CacheError Unit := do
  let some current ← files.describe sha256 expected.binding
    | throw (.corrupt "RPMDB lost checksum protection after verification")
  refuseIf (current ≠ expected) (.corrupt "RPMDB changed while full verification was in progress")

end RpmdbFiles

end Dnfast.Cache
