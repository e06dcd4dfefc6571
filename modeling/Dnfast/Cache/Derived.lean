import Mathlib.Data.List.SplitBy
import Dnfast.Cache.Receipt
import Dnfast.Core.Plan
import Dnfast.Data.Bytes

/-! # Derived files

`dnfast-cache`, `solv_cache.rs` and the readers of `rpmdb_receipt.rs`, on the bytes of the files: the
reference of a binding, the integrity cookie of its content, and the receipts for the RPM database. The
calls around the bytes succeed, and the files do not change while they are read. -/

namespace Dnfast.Cache.Derived

open Except (refuseIf okOr)
open Core (Sha256Digest isWhitespace)

abbrev Bytes := List UInt8

/-- `read_to_string`. -/
def readToString (bytes : Bytes) : Except CacheError String :=
  okOr (String.ofBytes? bytes) (.io "stream did not contain valid UTF-8")

/-! ## Numbers and texts -/

/-- Decimal digits, with an optional plus sign. -/
def parseDigits (text : List Char) : Option Nat :=
  let digits := if text.head? = some '+' then text.tail else text
  if digits ≠ [] ∧ digits.all Char.isDigit then
    some (digits.foldl (fun n c => 10 * n + (c.toNat - 48)) 0)
  else none

/-- `parse::<u64>`. -/
def parseU64 (text : String) : Option Nat := (parseDigits text.toList).filter (· < 2 ^ 64)

/-- `parse::<i64>`. -/
def parseI64 (text : String) : Option Int :=
  if text.toList.head? = some '-' ∧ text.toList.tail.head? ≠ some '+' then
    ((parseDigits text.toList.tail).filter (· ≤ 2 ^ 63)).map fun n => -(n : Int)
  else ((parseDigits text.toList).filter (· < 2 ^ 63)).map Int.ofNat

def hexDigit (c : Char) : Option Nat :=
  if c ∈ Core.lowerHexDigits then some (Core.lowerHexDigits.idxOf c)
  else if c ∈ "ABCDEF".toList then some (10 + "ABCDEF".toList.idxOf c)
  else none

/-- `hex::decode`. -/
def hexDecode : List Char → Option Bytes
  | [] => some []
  | [_] => none
  | a :: b :: rest => do
    let high ← hexDigit a
    let low ← hexDigit b
    let bytes ← hexDecode rest
    return UInt8.ofNat (16 * high + low) :: bytes

/-- `split_whitespace`. -/
def splitWhitespace (text : String) : List String :=
  ((text.toList.splitOnP isWhitespace).filter (· ≠ [])).map String.ofList

/-- `lines`: the pieces up to each line feed, without a carriage return before it, and the rest. -/
def lines (text : String) : List String :=
  let pieces := text.toList.splitOn '\n'
  let whole := pieces.dropLast.map fun line =>
    if line.getLast? = some '\r' then line.dropLast else line
  let rest := (pieces.getLast?.toList).filter (· ≠ [])
  (whole ++ rest).map String.ofList

def endsWithNewline (text : String) : Bool := text.toList.getLast? = some '\n'

/-! ## Solv entries -/

def MAX_SOLV_BYTES : Nat := 512 * 1024 * 1024

def MAX_INTEGRITY_COOKIE_BYTES : Nat := 512

structure FileGeneration where
  device : Nat
  inode : Nat
  mtime : Int
  mtimeNsec : Int
  ctime : Int
  ctimeNsec : Int
  deriving DecidableEq

inductive IntegrityProtection where
  | fsVerity (digest : Bytes)
  | btrfsChecksum
  deriving DecidableEq

structure IntegrityCookie where
  binding : String
  sha256 : String
  size : Nat
  generation : FileGeneration
  protection : IntegrityProtection
  deriving DecidableEq

inductive SolvVerification where
  | fullSha256
  | fsVerity
  | btrfsChecksum
  deriving DecidableEq

structure CachedSolv where
  sha256 : String
  size : Nat
  verification : SolvVerification
  deriving DecidableEq

/-- The size that `validate_regular` wants. -/
def validateRegular (bytes : Bytes) : Except CacheError Unit :=
  refuseIf (bytes = [] ∨ bytes.length > MAX_SOLV_BYTES) (.corrupt "unsafe solv cache file")

def readReference (file : Option Bytes) : Except CacheError (Option String) :=
  match file with
  | none => .ok none
  | some bytes => do
    validateRegular bytes
    let bytes := bytes.take 66
    refuseIf (bytes.length ≠ 65 ∨ bytes[64]? ≠ some 10) (.corrupt "solv cache reference is invalid")
    let value ← okOr (String.ofBytes? (bytes.take 64)) (.corrupt "solv cache reference is not UTF-8")
    validateDigest value "solv cache content"
    return some value

def cookieField {α : Type} (value : Option α) (name : String) : Except CacheError α :=
  okOr value (.corrupt ("solv cache " ++ name ++ " is invalid"))

def parseProtection (protection digest : String) : Except CacheError IntegrityProtection :=
  if protection = "fsverity-sha256" then do
    validateDigest digest "solv cache verity digest"
    let bytes ← okOr (hexDecode digest.toList) (.corrupt "solv cache verity digest is invalid")
    refuseIf (bytes.length ≠ 32) (.corrupt "solv cache verity digest size differs")
    return .fsVerity bytes
  else if protection = "btrfs-checksum" ∧ digest = "-" then .ok .btrfsChecksum
  else .error (.corrupt "solv cache integrity protection is invalid")

def parseCookie (value : String) : Except CacheError IntegrityCookie := do
  let fields := splitWhitespace value
  refuseIf (fields[0]? ≠ some "dnfast-solv-integrity-v2")
    (.corrupt "solv cache integrity cookie version differs")
  let protection ← okOr fields[1]? (.corrupt "solv cache protection is absent")
  let binding ← okOr fields[2]? (.corrupt "solv cache integrity binding is absent")
  let sha256 ← okOr fields[3]? (.corrupt "solv cache integrity content is absent")
  validateDigest binding "solv cache integrity binding"
  validateDigest sha256 "solv cache integrity content"
  let size ← okOr ((fields[4]?.bind parseU64).filter fun size => 0 < size && size ≤ MAX_SOLV_BYTES)
    (.corrupt "solv cache integrity size is invalid")
  let device ← cookieField (fields[5]?.bind parseU64) "device"
  let inode ← cookieField (fields[6]?.bind parseU64) "inode"
  let mtime ← cookieField (fields[7]?.bind parseI64) "mtime"
  let mtimeNsec ← cookieField (fields[8]?.bind parseI64) "mtime_nsec"
  let ctime ← cookieField (fields[9]?.bind parseI64) "ctime"
  let ctimeNsec ← cookieField (fields[10]?.bind parseI64) "ctime_nsec"
  let digest ← okOr fields[11]? (.corrupt "solv cache protection digest is absent")
  refuseIf (fields[12]?.isSome ∨ !endsWithNewline value)
    (.corrupt "solv cache integrity cookie has trailing data")
  let protection ← parseProtection protection digest
  return ⟨binding, sha256, size, ⟨device, inode, mtime, mtimeNsec, ctime, ctimeNsec⟩, protection⟩

/-- `read_integrity_cookie_if_present`. -/
def readIntegrityCookie (file : Option Bytes) : Except CacheError (Option IntegrityCookie) :=
  match file with
  | none => .ok none
  | some bytes => do
    validateRegular bytes
    refuseIf (bytes.length > MAX_INTEGRITY_COOKIE_BYTES)
      (.corrupt "solv cache integrity cookie exceeds limit")
    let value ← readToString bytes
    return some (← parseCookie value)

/-- What the file system says of the content: its generation, its measured verity digest, whether it has
checksums, and whether verity can be enabled. -/
structure SolvWorld where
  generation : FileGeneration
  verity : Option Bytes
  checksums : Bool
  enables : Bool

section

variable (sha256 : Bytes → Sha256Digest)

def verifyProtection (w : SolvWorld) : IntegrityProtection → Except CacheError SolvVerification
  | .fsVerity expected => do
    let measured ← okOr w.verity (.corrupt "solv cache verity protection disappeared")
    refuseIf (measured ≠ expected) (.corrupt "solv cache verity digest differs")
    return .fsVerity
  | .btrfsChecksum => do
    refuseIf (!w.checksums) (.corrupt "solv cache Btrfs checksum protection disappeared")
    return .btrfsChecksum

/-- `verify_stream`, on content whose size was validated. -/
def verifyStream (content : Bytes) (expected : String) : Except CacheError Unit :=
  refuseIf ((sha256 content).asStr ≠ expected) (.corrupt "solv cache digest differs")

/-- The content is hashed and then protected, if the file system can do it. -/
def protect (w : SolvWorld) : Except CacheError SolvVerification :=
  if w.enables then do
    let _ ← okOr w.verity (.corrupt "enabled solv cache verity cannot be measured")
    return .fsVerity
  else if w.checksums then .ok .btrfsChecksum
  else .ok .fullSha256

/-- The content is checked against its cookie, or hashed when there is none. -/
def verifyContent (w : SolvWorld) (content : Bytes) (binding expected : String) :
    Option IntegrityCookie → Except CacheError CachedSolv
  | some cookie => do
    refuseIf (cookie.binding ≠ binding ∨ cookie.sha256 ≠ expected ∨ cookie.size ≠ content.length ∨
      cookie.generation ≠ w.generation)
      (.corrupt "solv cache integrity cookie differs from file generation")
    let verification ← verifyProtection w cookie.protection
    return ⟨expected, content.length, verification⟩
  | none => do
    verifyStream sha256 content expected
    let verification ← protect w
    return ⟨expected, content.length, verification⟩

def openContent (w : SolvWorld) (content cookie : Option Bytes) (binding expected : String) :
    Except CacheError CachedSolv := do
  let content ← okOr content (.corrupt "referenced solv cache content disappeared")
  validateRegular content
  let cookie ← readIntegrityCookie cookie
  verifyContent sha256 w content binding expected cookie

/-- The files of the cache directory. -/
abbrev SolvDirectory := String → Option Bytes

def SolvDirectory.cookie (d : SolvDirectory) (binding sha256 : String) : Option Bytes :=
  d (binding ++ "-" ++ sha256 ++ ".integrity")

/-- `SolvCache::open`. -/
def openSolv (w : SolvWorld) (directory : Option SolvDirectory) (binding : String) :
    Except CacheError (Option CachedSolv) := do
  validateDigest binding "solv cache binding"
  match directory with
  | none => return none
  | some d =>
    match ← readReference (d (binding ++ ".ref")) with
    | none => return none
    | some content =>
      return some (← openContent sha256 w (d (binding ++ "-" ++ content ++ ".solv"))
        (d.cookie binding content) binding content)

/-- `cache_entry_ready`: whether the entry need not be built. The text of the error is left out. -/
def cacheEntryReady (w : SolvWorld) (directory : Option SolvDirectory) (binding : String) :
    Except CacheError Bool :=
  match openSolv sha256 w directory binding with
  | .ok (some _) => .ok true
  | .ok none => .ok false
  | .error (.corrupt _) => .ok false
  | .error e => .error e

end

/-! ## Receipts -/

def MAX_CURRENT_RECEIPT_BYTES : Nat := 16 * 1024

def MAX_CURRENT_STATE_BYTES : Nat := 4 * 1024

def readLimitedReceipt (file : Option Bytes) (maximum : Nat) (role : String) :
    Except CacheError (Option String) :=
  match file with
  | none => .ok none
  | some bytes => do
    refuseIf (bytes = [] ∨ bytes.length > maximum) (.corrupt ("unsafe " ++ role))
    let value ← readToString bytes
    refuseIf (!endsWithNewline value) (.corrupt (role ++ " changed while reading"))
    return some value

def stripPrefix (pre text : String) : Option (List Char) :=
  if pre.toList.isPrefixOf text.toList then some (text.toList.drop pre.toList.length) else none

/-- The binding, the state and the descriptor of a current receipt. -/
def parseCurrentReceipt (value : String) : Option (String × String × String) := do
  let lines := lines value
  guard (lines[0]? = some "dnfast-rpmdb-current-generation-v1")
  let binding := String.ofList (← stripPrefix "binding=" (← lines[1]?))
  guard (Core.isLowerDigest binding)
  let state ← String.ofBytes? (← hexDecode (← stripPrefix "state=" (← lines[2]?)))
  guard (state ≠ "" ∧ state.utf8ByteSize ≤ MAX_CURRENT_STATE_BYTES ∧ '\x00' ∉ state.toList)
  let descriptor ← String.ofBytes? (← hexDecode (← stripPrefix "descriptor=" (← lines[3]?)))
  guard (descriptor.utf8ByteSize ≤ maxReceiptBytes ∧ endsWithNewline descriptor ∧ lines[4]? = none)
  return (binding, state, descriptor)

/-- The files beside the database, and what `serde_json` makes of a state. -/
structure ReceiptDirectory where
  receipts : String → Option Bytes
  current : Option Bytes
  parseState : String → Option RpmDbStartupState

/-- What the readers find in the files. The database is measured without an error. -/
def ReceiptDirectory.files (d : ReceiptDirectory) (db : Except Native.NativeError Native.Rpmdb)
    (measured : Option Measured) : RpmdbFiles where
  db := db
  measured := .ok measured
  receipts name := readLimitedReceipt (d.receipts name) maxReceiptBytes "RPMDB verification receipt"
  current := do
    let value ← readLimitedReceipt d.current MAX_CURRENT_RECEIPT_BYTES "RPMDB current-generation receipt"
    return value.map fun value => (parseCurrentReceipt value).map fun r => ⟨r.1, d.parseState r.2.1, r.2.2⟩

end Dnfast.Cache.Derived
