import Mathlib.Data.List.Sort
import Dnfast.State.Fs

/-! # The transaction journal

`store.rs` and `recovery.rs` of `dnfast-state`. A transaction directory holds one record file for
each state the transaction reached. `loadEntries` reads them back and validates the whole list,
`transition` appends the next record, and `recover` decides what a process that finds the directory
may still do.

`fromSlice` is the JSON parser (`serde_json::from_slice` at `JournalEntry`). The journal's lock is
exclusive, so reading a directory is one step: it sees one state, and any failure while reading is a
failure of that step. -/

namespace Dnfast.State

open Durable
open Dnfast.Core (canonicalEncode canonicalDecode)

/-! ## Validation -/

/-- The payload that a record of each state has to carry. -/
def JournalEntry.payloadMatches (entry : JournalEntry) : Bool :=
  match entry.state with
  | .prepared | .started => entry.nativeResult.isNone && entry.reconciliation.isNone
  | .rpmResult => entry.nativeResult.isSome && entry.reconciliation.isNone
  | .reconciled => entry.nativeResult.isNone && entry.reconciliation.isSome

def NativeResult.problemsExceed (result : NativeResult) : Bool :=
  decide (result.problems.length > 16) ||
    result.problems.any fun problem => decide (problem.utf8ByteSize > Core.maxStringBytes)

def validateEntry (entry : JournalEntry) : Except StateError Unit :=
  if entry.schemaVersion ≠ 1 then .error (.corrupt "unsupported schema")
  else do
    let _ ← TransactionId.parse entry.transactionId
    validateDigest entry.planSha256
    if !entry.payloadMatches then .error (.corrupt "state payload mismatch")
    else if entry.nativeResult.any NativeResult.problemsExceed then
      .error (.limit "native problems")
    else .ok ()

def validatePair (previous next : JournalEntry) : Except StateError Unit :=
  let same := previous.transactionId = next.transactionId ∧ previous.planSha256 = next.planSha256
  if ¬ same ∨ ¬ previous.state.legal next.state then
    .error (.corrupt "invalid persisted transition")
  else .ok ()

/-- `validate_pair` on each two neighbours. -/
def validatePairs : List JournalEntry → Except StateError Unit
  | previous :: next :: rest => do
    validatePair previous next
    validatePairs (next :: rest)
  | _ => .ok ()

/-! ## Loading -/

section
variable (fromSlice : List UInt8 → Except String JournalEntry)

/-- One turn of the loop of `load_entries`, up to the check of the name. -/
def loadRecord (euid : UInt32) (d : Directory) (name : String) :
    Except StateError JournalEntry := do
  let bytes ← d.readBounded euid name maxRecordBytes
  match canonicalDecode fromSlice bytes with
  | .error error => .error (.corrupt error.toString)
  | .ok entry =>
    if canonicalEncode entry ≠ bytes then .error (.corrupt "record is not canonical JSON")
    else (validateEntry entry).map fun _ => entry

/-- The loop of `load_entries`. The set of sequences seen is that of the records read so far. -/
def loadRecords (euid : UInt32) (d : Directory) :
    List String → List JournalEntry → Except StateError (List JournalEntry)
  | [], records => .ok records
  | name :: names, records => do
    let entry ← loadRecord fromSlice euid d name
    if name ≠ recordName entry.sequence ∨ entry.sequence ∈ records.map (·.sequence) then
      .error (.corrupt "duplicate or mismatched sequence")
    else loadRecords euid d names (records ++ [entry])

def recordNames (d : Directory) : List String :=
  d.childNames.filter fun name => endsWith name ".json"

def loadEntries (euid : UInt32) (d : Directory) : Except StateError (List JournalEntry) := do
  let loaded ← loadRecords fromSlice euid d (recordNames d) []
  let records := loaded.insertionSort fun a b => a.sequence ≤ b.sequence
  if records.isEmpty ∨ records.zipIdx.any fun (entry, index) => entry.sequence.toNat != index then
    .error (.corrupt "torn or missing journal sequence")
  else do
    validatePairs records
    .ok records

/-! ## The journal of one transaction -/

def entries (p : Process) : Exec Directory StateError (List JournalEntry) :=
  Exec.observe (loadEntries fromSlice p.euid)

def publish (p : Process) (entry : JournalEntry) : Exec Directory StateError Unit := do
  Exec.lift (validateEntry entry)
  let bytes := canonicalEncode entry
  if bytes.length > maxRecordBytes then Exec.throw (.limit "record")
  else writeRecord p entry.sequence bytes

/-- `checked_add(1)` on a sequence. -/
def checkedNext (sequence : UInt64) : Option UInt64 :=
  if sequence.toNat + 1 < 2 ^ 64 then some (sequence + 1) else none

/-- The record that follows `previous`. -/
def JournalEntry.next (previous : JournalEntry) (sequence : UInt64) (state : TransactionState)
    (nativeResult : Option NativeResult) (reconciliation : Option ReconcileResult) :
    JournalEntry where
  schemaVersion := 1
  transactionId := previous.transactionId
  planSha256 := previous.planSha256
  sequence := sequence
  state := state
  nativeResult := nativeResult
  reconciliation := reconciliation

def transition (p : Process) (next : TransactionState) (nativeResult : Option NativeResult)
    (reconciliation : Option ReconcileResult) : Exec Directory StateError Unit := do
  let entries ← entries fromSlice p
  match entries.getLast? with
  | none => Exec.throw (.corrupt "journal is empty")
  | some previous =>
    if ¬ previous.state.legal next then
      Exec.throw (.transition (previous.state.debug ++ " -> " ++ next.debug))
    else
      match checkedNext previous.sequence with
      | none => Exec.throw (.corrupt "sequence overflow")
      | some sequence =>
        publish p (previous.next sequence next nativeResult reconciliation)

def markStarted (p : Process) : Exec Directory StateError Unit :=
  transition fromSlice p .started none none

def recordRpmResultWithProblems (p : Process) (returnCode : Int32) (callbacks : CallbackSummary)
    (problems : List String) : Exec Directory StateError Unit :=
  transition fromSlice p .rpmResult (some ⟨returnCode, callbacks, problems⟩) none

def recordRpmResult (p : Process) (returnCode : Int32) (callbacks : CallbackSummary) :
    Exec Directory StateError Unit :=
  recordRpmResultWithProblems fromSlice p returnCode callbacks []

def reconcile (p : Process) (result : ReconcileResult) : Exec Directory StateError Unit := do
  Exec.lift (validateDigest result.inventorySha256)
  transition fromSlice p .reconciled none (some result)

def recover (p : Process) : Exec Directory StateError RecoveryAction := do
  let entries ← entries fromSlice p
  match entries.getLast? with
  | none => Exec.throw (.corrupt "journal is empty")
  | some finalEntry =>
    match finalEntry.state with
    | .prepared => pure .cleanupRevalidateAndReapprove
    | .started => do
      recordRpmResult fromSlice p (-1) .zero
      pure .reconcileOnly
    | .rpmResult => pure .reconcileOnly
    | .reconciled =>
      match finalEntry.reconciliation with
      | some result => pure (.terminal result)
      | none => Exec.throw (.corrupt "terminal result missing")

end

/-! ## The store of all transactions -/

/-- `TransactionJournal::lock`: whether another process holds the lock is the environment's
choice. -/
def lock : Exec Root StateError Unit := Exec.sync

/-- The record that `create` publishes. -/
def preparedEntry (id : TransactionId) (planSha256 : String) : JournalEntry where
  schemaVersion := 1
  transactionId := id.asStr
  planSha256 := planSha256
  sequence := 0
  state := .prepared
  nativeResult := none
  reconciliation := none

def create (p : Process) (id : TransactionId) (planSha256 : String) :
    Exec Root StateError Unit := do
  Exec.lift (validateDigest planSha256)
  createTransaction p id.asStr
  lock
  match ← Exec.attempt (inDirectory id.asStr (publish p (preparedEntry id planSha256))) with
  | .ok _ => pure ()
  | .error error => do
    removeFailedTransaction p id.asStr
    Exec.throw error

def openTransaction (p : Process) (id : TransactionId) : Exec Root StateError Unit := do
  let _ ← Exec.observe (Root.openTransaction p.euid id.asStr)
  lock

def transactionIds (r : Root) : Except StateError (List TransactionId) :=
  r.childNames.mapM TransactionId.parse

end Dnfast.State
