import Dnfast.Group.Reconcile
import Dnfast.Json.Fields
import Dnfast.Json.Parse

/-! # A parser for group states

The derived `Deserialize` of `GroupState` over parsed JSON values: unknown fields and missing
fields are refused, `introduced_packages` defaults to none. With the parser of `Json.Parse` it is an
instance of the parameter `fromSlice` that inverts the encoder on every state. -/

namespace Dnfast.Group

open Std (ExtTreeMap)
open Dnfast.Core (canonicalEncode)
open Json (Value field onlyFields stringOf stringsOf u32Of u32Of_toNat mapM_map_some)

/-- A field with a default. -/
def introducedOf (ms : List (String × Value)) : Option (List String) :=
  if ms.any (·.1 == "introduced_packages") then (field ms "introduced_packages").bind stringsOf
  else some []

/-- A map: a key that comes again replaces the entry. -/
def groupsOf : Value → Option GroupMap
  | .obj ms => ms.foldlM (fun groups m => (stringsOf m.2).map (groups.insert m.1)) ∅
  | _ => none

def MutationKind.ofValue (v : Value) : Option MutationKind := do
  let name ← stringOf v
  if name = "install" then some .install else if name = "remove" then some .remove else none

def PendingMutation.ofValue : Value → Option PendingMutation
  | .obj ms => do
    guard (onlyFields ms ["groups", "introduced_packages", "kind", "plan_sha256",
      "seen_transaction_ids"])
    let planSha256 ← (← field ms "plan_sha256") |> stringOf
    let kind ← (← field ms "kind") |> MutationKind.ofValue
    let groups ← (← field ms "groups") |> groupsOf
    let introducedPackages ← introducedOf ms
    let seenTransactionIds ← (← field ms "seen_transaction_ids") |> stringsOf
    some ⟨planSha256, kind, groups, introducedPackages, seenTransactionIds⟩
  | _ => none

def GroupState.ofValue : Value → Option GroupState
  | .obj ms => do
    guard (onlyFields ms ["groups", "introduced_packages", "pending", "schema_version"])
    let schemaVersion ← (← field ms "schema_version") |> u32Of
    let groups ← (← field ms "groups") |> groupsOf
    let introducedPackages ← introducedOf ms
    match ← field ms "pending" with
    | .arr vs => do
      let pending ← vs.mapM PendingMutation.ofValue
      some ⟨schemaVersion, groups, introducedPackages, pending⟩
    | _ => none
  | _ => none

def GroupState.fromSlice (bytes : List UInt8) : Except String GroupState :=
  match (Json.parse bytes).bind GroupState.ofValue with
  | some s => .ok s
  | none => .error "invalid group state"

/-! ## Round trips -/

theorem stringsOf_strings (l : List String) : stringsOf (strings l) = some l :=
  mapM_map_some (f := stringOf) (fun _ => rfl) l

theorem foldlM_groups (l : List (String × List String)) (groups : GroupMap) :
    (l.map fun x => (x.1, strings x.2)).foldlM
      (fun groups m => (stringsOf m.2).map (groups.insert m.1)) groups =
      some (l.foldl (fun groups x => groups.insert x.1 x.2) groups) := by
  induction l generalizing groups with
  | nil => rfl
  | cons x l ih => simp [List.foldlM_cons, stringsOf_strings, ih]

theorem getElem?_foldl_insert (l : List (String × List String)) (hl : (l.map Prod.fst).Nodup)
    (groups : GroupMap) (id : String) :
    (l.foldl (fun groups x => groups.insert x.1 x.2) groups)[id]? =
      ((l.find? fun x => x.1 = id).map Prod.snd).or groups[id]? := by
  induction l generalizing groups with
  | nil => simp
  | cons x l ih =>
    obtain ⟨hnot, hnodup⟩ := List.nodup_cons.mp hl
    rw [List.foldl_cons, ih hnodup]
    by_cases hx : x.1 = id
    · have hnone : l.find? (fun x => x.1 = id) = none := by
        rw [List.find?_eq_none]
        intro y hy hyid
        exact hnot (List.mem_map.mpr ⟨y, hy, by simp_all⟩)
      simp [hnone, hx]
    · simp [hx, ExtTreeMap.getElem?_insert]

theorem groupsOf_groupsValue (groups : GroupMap) : groupsOf (groupsValue groups) = some groups := by
  have hfold := foldlM_groups groups.toList ∅
  rw [groupsValue, groupsOf]
  refine hfold.trans (congrArg some (ExtTreeMap.ext_getElem? fun id => ?_))
  rw [getElem?_foldl_insert _ (by
    rw [ExtTreeMap.map_fst_toList_eq_keys]
    exact ExtTreeMap.nodup_keys)]
  cases hid : groups[id]? with
  | none =>
    have : groups.toList.find? (fun x => x.1 = id) = none := by
      rw [List.find?_eq_none]
      rintro ⟨i, packages⟩ hmem hi
      rw [ExtTreeMap.mem_toList_iff_getElem?_eq_some] at hmem
      simp_all
    simp [this]
  | some packages =>
    have hmem := ExtTreeMap.mem_toList_iff_getElem?_eq_some.mpr hid
    cases hfind : groups.toList.find? (fun x => x.1 = id) with
    | none =>
      rw [List.find?_eq_none] at hfind
      exact absurd (decide_eq_true rfl) (hfind _ hmem)
    | some x =>
      obtain ⟨i, packages'⟩ := x
      have hx := List.mem_of_find?_eq_some hfind
      have hi := List.find?_some hfind
      rw [ExtTreeMap.mem_toList_iff_getElem?_eq_some] at hx
      simp_all

theorem ofValue_kind (kind : MutationKind) : MutationKind.ofValue kind.toValue = some kind := by
  cases kind <;> rfl

theorem ofValue_mutation (m : PendingMutation) : PendingMutation.ofValue m.toValue = some m := by
  obtain ⟨digest, kind, groups, introduced, seen⟩ := m
  have hfields : ∀ ms, onlyFields ms ["groups", "introduced_packages", "kind", "plan_sha256",
        "seen_transaction_ids"] = true → field ms "plan_sha256" = some (.str digest) →
      field ms "kind" = some kind.toValue → field ms "groups" = some (groupsValue groups) →
      introducedOf ms = some introduced → field ms "seen_transaction_ids" = some (strings seen) →
      PendingMutation.ofValue (.obj ms) = some ⟨digest, kind, groups, introduced, seen⟩ := by
    intro ms honly hdigest hkind hgroups hintroduced hseen
    simp [PendingMutation.ofValue, honly, hdigest, hkind, hgroups, hintroduced, hseen, stringOf,
      ofValue_kind, groupsOf_groupsValue, stringsOf_strings]
  apply hfields
  all_goals
    cases introduced <;>
      simp [introducedMember, field, introducedOf, onlyFields, stringsOf_strings]

theorem ofValue_toValue (s : GroupState) : GroupState.ofValue s.toValue = some s := by
  obtain ⟨schema, groups, introduced, pending⟩ := s
  have hfields : ∀ ms, onlyFields ms ["groups", "introduced_packages", "pending",
        "schema_version"] = true → field ms "schema_version" = some (.num schema.toNat) →
      field ms "groups" = some (groupsValue groups) → introducedOf ms = some introduced →
      field ms "pending" = some (.arr (pending.map PendingMutation.toValue)) →
      GroupState.ofValue (.obj ms) = some ⟨schema, groups, introduced, pending⟩ := by
    intro ms honly hschema hgroups hintroduced hpending
    simp [GroupState.ofValue, honly, hschema, u32Of_toNat, hgroups, hintroduced, hpending,
      groupsOf_groupsValue, mapM_map_some ofValue_mutation]
  apply hfields
  all_goals
    cases introduced <;>
      simp [introducedMember, field, introducedOf, onlyFields, stringsOf_strings]

theorem invertsEncoding_fromSlice : InvertsEncoding GroupState.fromSlice := by
  intro s
  have hparse : Json.parse (canonicalEncode s) = some s.toValue := Json.parse_render s.toValue
  simp [GroupState.fromSlice, hparse, ofValue_toValue]

end Dnfast.Group
