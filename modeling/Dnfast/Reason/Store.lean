import Dnfast.Reason.Model
import Dnfast.State.FsLemmas

/-! # The reason state store

`ReasonStateStore` over its root directory `/var/lib/dnfast/reasons`, whose only file is
`state.json`. `fromSlice` is the JSON parser (`serde_json::from_slice` at `ReasonState`). -/

namespace Dnfast.Reason

open Durable
open Dnfast.State (StateError Process Directory writeAtomicReplacing)
open Dnfast.Core (canonicalEncode canonicalDecode InstalledInventory PlanEnvelope SolverPolicy)

def stateFile : String := "state.json"

def decodeState (fromSlice : List UInt8 → Except String ReasonState) (bytes : List UInt8) :
    Except StateError ReasonState :=
  match canonicalDecode fromSlice bytes with
  | .error error => .error (.corrupt error.toString)
  | .ok state => do
    Except.refuseIf (canonicalEncode state ≠ bytes)
      (.corrupt "package reason state is not canonical JSON")
    validateState state
    .ok state

/-- `ReasonStateStore::read`. -/
def readState (fromSlice : List UInt8 → Except String ReasonState) (euid : UInt32)
    (d : Directory) : Except StateError ReasonState := do
  match ← d.readOptionalBounded euid stateFile maxStateBytes with
  | none => .ok .default
  | some bytes => decodeState fromSlice bytes

/-- `ReasonStateStore::write`. -/
def writeState (p : Process) (state : ReasonState) : Exec Directory StateError Unit := do
  Exec.lift (validateState state)
  let bytes := canonicalEncode state
  if bytes.length > maxStateBytes then Exec.throw (.limit "package reason state")
  else writeAtomicReplacing p stateFile bytes

/-- `ReasonStateLock::acquire`. -/
def acquire : Exec Directory StateError Unit := Exec.sync

section
variable (fromSlice : List UInt8 → Except String ReasonState) (p : Process)

def recordSuccess (before after : InstalledInventory) (plan : PlanEnvelope)
    (policy : SolverPolicy) : Exec Directory StateError Unit := do
  acquire
  let state ← Exec.observe (readState fromSlice p.euid)
  let state ← Exec.lift (recordedState state before after plan policy)
  writeState p state

def autoremoveCandidates (inventory : InstalledInventory) (policy : SolverPolicy) :
    Exec Directory StateError (List String) := do
  acquire
  let state ← Exec.observe (readState fromSlice p.euid)
  Exec.lift (autoremoveNames state inventory policy)

end

end Dnfast.Reason
