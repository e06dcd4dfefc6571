import Dnfast.Core.Canonical

/-! # The journal's data model

The records of a transaction journal (`dnfast-state`, `model.rs` and `error.rs`). A transaction is
identified by a canonical UUIDv7 (`TransactionId` carries the proof), and its journal is a list of
`JournalEntry` records, one for each state it reached.

Identifiers and digests are checked by the source on bytes. Both tests admit ASCII characters only,
so they are stated here on the characters of the text. -/

namespace Dnfast.State

open Json (Value)

/-- `MAX_RECORD_BYTES`. -/
def maxRecordBytes : Nat := 8 * 1024 * 1024

inductive StateError where
  | io (message : String)
  | unsafePath (message : String)
  | corrupt (message : String)
  | transition (message : String)
  | limit (what : String)
  | busy
  deriving DecidableEq, Repr

def StateError.toString : StateError → String
  | .io message => "journal I/O failure: " ++ message
  | .unsafePath message => "unsafe journal path: " ++ message
  | .corrupt message => "journal record is corrupt: " ++ message
  | .transition message => "illegal journal transition: " ++ message
  | .limit what => "journal limit exceeded: " ++ what
  | .busy => "transaction journal is busy"

/-- A hexadecimal digit that is not an uppercase letter. -/
def isLowerHex (c : Char) : Bool := ('0' ≤ c && c ≤ '9') || ('a' ≤ c && c ≤ 'f')

/-- The text is a canonical UUIDv7. -/
def isUuidV7 (value : String) : Bool :=
  let cs := value.toList
  let shape := cs.length == 36 && cs.zipIdx.all fun (c, index) =>
    if index ∈ [8, 13, 18, 23] then c == '-' else isLowerHex c
  shape && cs[14]? == some '7' && ['8', '9', 'a', 'b'].any fun c => cs[19]? == some c

structure TransactionId where
  asStr : String
  canonical : isUuidV7 asStr = true
  deriving DecidableEq

namespace TransactionId

def parse (value : String) : Except StateError TransactionId :=
  if h : isUuidV7 value = true then .ok ⟨value, h⟩
  else .error (.corrupt "transaction id is not canonical UUIDv7")

@[simp] theorem parse_asStr (id : TransactionId) : parse id.asStr = .ok id := by
  simp [parse, id.canonical]

theorem parse_eq_ok {value : String} {id : TransactionId} :
    parse value = .ok id ↔ value = id.asStr := by
  constructor
  · intro h
    unfold parse at h
    split at h
    · cases h
      rfl
    · cases h
  · rintro rfl
    exact parse_asStr id

theorem ext {a b : TransactionId} (h : a.asStr = b.asStr) : a = b := by
  cases a
  cases b
  cases h
  rfl

end TransactionId

/-- The text is a lowercase SHA-256 digest. -/
def isDigest (value : String) : Bool := value.toList.length == 64 && value.toList.all isLowerHex

def validateDigest (value : String) : Except StateError Unit :=
  if isDigest value then .ok () else .error (.corrupt "invalid SHA-256")

/-- A digest that the program computed itself. -/
structure Sha256 where
  hex : String
  valid : isDigest hex = true
  deriving DecidableEq

inductive TransactionState where
  | prepared
  | started
  | rpmResult
  | reconciled
  deriving DecidableEq, Repr

namespace TransactionState

/-- The `Debug` form, as it stands in the message of an illegal transition. -/
def debug : TransactionState → String
  | prepared => "Prepared"
  | started => "Started"
  | rpmResult => "RpmResult"
  | reconciled => "Reconciled"

def toValue : TransactionState → Value
  | prepared => .str "prepared"
  | started => .str "started"
  | rpmResult => .str "rpm_result"
  | reconciled => .str "reconciled"

/-- The transitions that `transition` and `validate_pair` admit. -/
def legal : TransactionState → TransactionState → Bool
  | prepared, started => true
  | started, rpmResult => true
  | rpmResult, reconciled => true
  | _, _ => false

/-- The states of a complete journal, in order. -/
def lifecycle : List TransactionState := [prepared, started, rpmResult, reconciled]

end TransactionState

structure CallbackSummary where
  pretrans : UInt64
  pre : UInt64
  post : UInt64
  triggers : UInt64
  payload : UInt64
  database : UInt64
  scriptLogTruncated : Bool
  deriving DecidableEq

/-- The summary that recovery writes for callbacks nobody counted. -/
def CallbackSummary.zero : CallbackSummary := ⟨0, 0, 0, 0, 0, 0, false⟩

structure NativeResult where
  returnCode : Int32
  callbacks : CallbackSummary
  problems : List String
  deriving DecidableEq

structure ReconcileResult where
  inventorySha256 : String
  success : Bool
  changedPackages : UInt64
  deriving DecidableEq

structure JournalEntry where
  schemaVersion : UInt32
  transactionId : String
  planSha256 : String
  sequence : UInt64
  state : TransactionState
  nativeResult : Option NativeResult
  reconciliation : Option ReconcileResult
  deriving DecidableEq

inductive RecoveryAction where
  | cleanupRevalidateAndReapprove
  | reconcileOnly
  | terminal (result : ReconcileResult)
  deriving DecidableEq

/-! ## JSON forms, members in the order of their keys -/

def natValue (n : Nat) : Value := .num n

def CallbackSummary.toValue (c : CallbackSummary) : Value :=
  .obj [("database", natValue c.database.toNat), ("payload", natValue c.payload.toNat),
    ("post", natValue c.post.toNat), ("pre", natValue c.pre.toNat),
    ("pretrans", natValue c.pretrans.toNat),
    ("script_log_truncated", .bool c.scriptLogTruncated),
    ("triggers", natValue c.triggers.toNat)]

def NativeResult.toValue (r : NativeResult) : Value :=
  .obj [("callbacks", r.callbacks.toValue), ("problems", .arr (r.problems.map .str)),
    ("return_code", .num r.returnCode.toInt)]

def ReconcileResult.toValue (r : ReconcileResult) : Value :=
  .obj [("changed_packages", natValue r.changedPackages.toNat),
    ("inventory_sha256", .str r.inventorySha256), ("success", .bool r.success)]

/-- A member that is left out when there is no value. -/
def optionalMember (key : String) : Option Value → List (String × Value)
  | none => []
  | some v => [(key, v)]

def JournalEntry.toValue (e : JournalEntry) : Value :=
  .obj (optionalMember "native_result" (e.nativeResult.map NativeResult.toValue) ++
    ("plan_sha256", .str e.planSha256) ::
    (optionalMember "reconciliation" (e.reconciliation.map ReconcileResult.toValue) ++
    [("schema_version", natValue e.schemaVersion.toNat),
     ("sequence", natValue e.sequence.toNat),
     ("state", e.state.toValue),
     ("transaction_id", .str e.transactionId)]))

instance : Core.Serialize JournalEntry := ⟨JournalEntry.toValue⟩

end Dnfast.State
