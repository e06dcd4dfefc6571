import Dnfast.Json.Fields
import Dnfast.Json.Parse
import Dnfast.Reason.Persist

/-! # A parser for reason states

The derived `Deserialize` of `ReasonState` over parsed JSON values. With the parser of `Json.Parse`
it is an instance of the parameter `fromSlice` that inverts the encoder on every state. -/

namespace Dnfast.Reason

open Dnfast.Core (PackageReason canonicalEncode)
open Json (Value field onlyFields stringOf u32Of u64Of arrayOf)

def ReasonRecord.ofValue : Value → Option ReasonRecord
  | .obj ms => do
    guard (onlyFields ms ["db_instance", "header_sha256", "package_name", "reason"])
    let dbInstance ← (← field ms "db_instance") |> u64Of
    let headerSha256 ← (← field ms "header_sha256") |> stringOf
    let packageName ← (← field ms "package_name") |> stringOf
    let reason ← (← field ms "reason") |> stringOf
    some ⟨dbInstance, headerSha256, packageName, .ofStr reason⟩
  | _ => none

def ReasonState.ofValue : Value → Option ReasonState
  | .obj ms => do
    guard (onlyFields ms ["schema_version", "records"])
    let schemaVersion ← (← field ms "schema_version") |> u32Of
    let records ← (← field ms "records") |> arrayOf ReasonRecord.ofValue
    some ⟨schemaVersion, records⟩
  | _ => none

def ReasonState.fromSlice (bytes : List UInt8) : Except String ReasonState :=
  match (Json.parse bytes).bind ReasonState.ofValue with
  | some s => .ok s
  | none => .error "invalid package reason state"

theorem ReasonRecord.ofValue_toValue (r : ReasonRecord) : ofValue r.toValue = some r := by
  simp [ofValue, toValue, field, onlyFields, stringOf, PackageReason.ofStr_asStr, guard]

theorem ReasonState.ofValue_toValue (s : ReasonState) : ofValue s.toValue = some s := by
  have hrecords : arrayOf ReasonRecord.ofValue (.arr (s.records.map ReasonRecord.toValue)) =
      some s.records :=
    Json.mapM_map_some ReasonRecord.ofValue_toValue _
  simp [ofValue, toValue, field, onlyFields, hrecords, guard]

theorem invertsEncoding_fromSlice : InvertsEncoding ReasonState.fromSlice := by
  intro s
  have hparse : Json.parse (canonicalEncode s) = some s.toValue := Json.parse_render s.toValue
  simp [ReasonState.fromSlice, hparse, ReasonState.ofValue_toValue]

end Dnfast.Reason
