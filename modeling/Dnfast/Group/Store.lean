import Dnfast.Group.Model

/-! # The group state store

`GroupStateStore` over its root directory `/var/lib/dnfast/groups`, whose only file is `state.json`.
Every operation takes the lock, reconciles the stored state with the journal, and acts on the
result.

`fromSlice` is the JSON parser (`serde_json::from_slice` at `GroupState`). The journal is read only,
and its view is an argument: reading it is one step, whose failure stands for a failure anywhere in
the reading. -/

namespace Dnfast.Group

open Durable
open Dnfast.State (StateError Process Directory validateDigest writeAtomicReplacing)
open Dnfast.Core (canonicalEncode canonicalDecode)

def stateFile : String := "state.json"

/-- The bytes of the state file decode to a state that is migrated and valid. -/
def decodeState (fromSlice : List UInt8 → Except String GroupState) (bytes : List UInt8) :
    Except StateError GroupState :=
  match canonicalDecode fromSlice bytes with
  | .error error => .error (.corrupt error.toString)
  | .ok stored =>
    if canonicalEncode stored ≠ bytes then .error (.corrupt "group state is not canonical JSON")
    else do
      let state ← migrate stored
      validateState state
      .ok state

/-- `GroupStateStore::read`. -/
def readState (fromSlice : List UInt8 → Except String GroupState) (euid : UInt32)
    (d : Directory) : Except StateError GroupState := do
  match ← d.readOptionalBounded euid stateFile maxStateBytes with
  | none => .ok .default
  | some bytes => decodeState fromSlice bytes

/-- `GroupStateStore::write`. -/
def writeState (p : Process) (state : GroupState) : Exec Directory StateError Unit := do
  Exec.lift (validateState state)
  let bytes := canonicalEncode state
  if bytes.length > maxStateBytes then Exec.throw (.limit "group state")
  else writeAtomicReplacing p stateFile bytes

/-- `GroupStateLock::acquire`. -/
def acquire : Exec Directory StateError Unit := Exec.sync

section
variable (fromSlice : List UInt8 → Except String GroupState) (p : Process)
  (journal : JournalView)

def reconcileLocked : Exec Directory StateError GroupState := do
  let state ← Exec.observe (readState fromSlice p.euid)
  if state.pending.isEmpty then pure state
  else do
    let (state, changed) ← Exec.observe fun _ => reconcileState journal state
    if changed then do
      writeState p state
      pure state
    else pure state

def installedGroupIds : Exec Directory StateError (List String) := do
  acquire
  let state ← reconcileLocked fromSlice p journal
  pure state.groups.keys

def packagesToRemove (ids : List String) : Exec Directory StateError (List String) := do
  Exec.lift (validateIds ids)
  acquire
  let state ← reconcileLocked fromSlice p journal
  pure (removablePackages state ids)

def applyInstallNow (records : List GroupRecord) (introducedPackages : List String) :
    Exec Directory StateError Unit := do
  Exec.lift (validateSortedIds introducedPackages)
  acquire
  let state ← reconcileLocked fromSlice p journal
  let groups ← Exec.lift (canonicalRecords records)
  writeState p (applyInstall state groups introducedPackages)

def applyRemoveNow (ids : List String) : Exec Directory StateError Unit := do
  Exec.lift (validateIds ids)
  acquire
  let state ← reconcileLocked fromSlice p journal
  writeState p (applyRemove state ids)

def recordPending (planSha256 : String) (kind : MutationKind) (groups : GroupMap)
    (introducedPackages : List String) : Exec Directory StateError Unit := do
  Exec.lift (validateDigest planSha256)
  acquire
  let state ← reconcileLocked fromSlice p journal
  if state.pending.length ≥ maxPending then Exec.throw (.limit "pending group mutations")
  else do
    let ids ← Exec.observe fun _ => journal.ids
    let state := { state with
      pending := state.pending ++
        [⟨planSha256, kind, groups, introducedPackages, ids.map (·.asStr)⟩] }
    Exec.lift (validateState state)
    writeState p state

def recordPendingInstall (planSha256 : String) (records : List GroupRecord)
    (introducedPackages : List String) : Exec Directory StateError Unit := do
  Exec.lift (validateSortedIds introducedPackages)
  let groups ← Exec.lift (canonicalRecords records)
  recordPending fromSlice p journal planSha256 .install groups introducedPackages

/-- The map of a pending removal: the ids, without packages. -/
def idsOnly (ids : List String) : GroupMap :=
  ids.foldl (fun groups id => groups.insert id []) ∅

def recordPendingRemove (planSha256 : String) (ids : List String) :
    Exec Directory StateError Unit := do
  Exec.lift (validateIds ids)
  recordPending fromSlice p journal planSha256 .remove (idsOnly ids) []

end

end Dnfast.Group
