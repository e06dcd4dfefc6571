import Dnfast.Core.Executable
import Dnfast.Json.Fields
import Dnfast.Json.Parse

/-! # Plans as documents

The JSON form of a plan and the way back. Reading is stricter than the derived parser in three
places, where `Deserialize` is written by hand: an `Evra` must have its parts, a `PackageAction` must
be valid, and the envelope must pass `validateNow 0`. `ofValue` follows the derived shapes on
documents that the writer can produce; `canonicalDecode` refuses every other document anyway, because
it compares the text again.

The constructor `new` and the reader check a plan with two separate validators, `canonicalActions`
and `validateNow`. `new_iff_decodes` says on which inputs they agree. -/

namespace Dnfast.Core

open Except (refuseIf)
open Json (Value field onlyFields stringOf u32Of u64Of arrayOf optionalField optionValue)

/-! ## JSON forms, members in the order of their keys -/

def Architecture.ofStr (s : String) : Option Architecture :=
  [aarch64, x86_64, noarch].find? (·.asRpmArch == s)

def Evra.toValue (e : Evra) : Value :=
  .obj [("arch", .str e.arch.asRpmArch), ("epoch", .num e.epoch.toNat), ("release", .str e.release),
    ("version", .str e.version)]

def Evra.ofValue : Value → Option Evra
  | .obj ms => do
    guard (onlyFields ms ["epoch", "version", "release", "arch"])
    let epoch ← (← field ms "epoch") |> u32Of
    let version ← (← field ms "version") |> stringOf
    let release ← (← field ms "release") |> stringOf
    let arch ← (← (← field ms "arch") |> stringOf) |> Architecture.ofStr
    let value : Evra := ⟨epoch, version, release, arch⟩
    guard (value.validate = .ok ())
    some value
  | _ => none

def Sha256Digest.toValue (d : Sha256Digest) : Value := .str d.asStr

def Sha256Digest.ofValue (v : Value) : Option Sha256Digest := do
  (parse (← stringOf v) "sha256").toOption

def PackageOperation.asStr : PackageOperation → String
  | install => "install"
  | upgrade => "upgrade"
  | downgrade => "downgrade"
  | reinstall => "reinstall"
  | remove => "remove"

def PackageOperation.ofStr (s : String) : Option PackageOperation :=
  [install, upgrade, downgrade, reinstall, remove].find? (·.asStr == s)

def PackageReason.asStr : PackageReason → String
  | user => "user"
  | dependency => "dependency"
  | weakDependency => "weak_dependency"
  | external => "external"
  | unknown => "unknown"

/-- Every other text is read as `unknown` (`#[serde(other)]`). -/
def PackageReason.ofStr (s : String) : PackageReason :=
  ([user, dependency, weakDependency, external].find? (·.asStr == s)).getD unknown

def ActionProvenance.toValue : ActionProvenance → Value
  | obsoletedBy parent =>
    .obj [("kind", .str "obsoleted_by"), ("parent_action_identity", .str parent)]

def ActionProvenance.ofValue : Value → Option ActionProvenance
  | .obj ms => do
    guard ((field ms "kind").bind stringOf = some "obsoleted_by")
    obsoletedBy (← (← field ms "parent_action_identity") |> stringOf)
  | _ => none

/-- A member that is left out when there is no value. -/
def optionalMember {α : Type} (key : String) (f : α → Value) : Option α → List (String × Value)
  | none => []
  | some a => [(key, f a)]

def PackageAction.toValue (a : PackageAction) : Value :=
  .obj ([("candidate_vendor", optionValue .str a.candidateVendor),
    ("installed_evra", optionValue Evra.toValue a.installedEvra)] ++
    optionalMember "installed_header_sha256" Sha256Digest.toValue a.installedHeaderSha256 ++
    optionalMember "installed_instance" (fun n : UInt64 => .num n.toNat) a.installedInstance ++
    [("installed_vendor", optionValue .str a.installedVendor), ("name", .str a.name),
    ("operation", .str a.operation.asStr),
    ("provenance", optionValue ActionProvenance.toValue a.provenance),
    ("reason", .str a.reason.asStr), ("repo_id", optionValue .str a.repoId),
    ("target_evra", a.targetEvra.toValue)])

def PackageAction.ofValue : Value → Option PackageAction
  | .obj ms => do
    guard (onlyFields ms ["operation", "name", "target_evra", "installed_evra",
      "installed_instance", "installed_header_sha256", "installed_vendor", "candidate_vendor",
      "repo_id", "reason", "provenance"])
    let operation ← (← (← field ms "operation") |> stringOf) |> PackageOperation.ofStr
    let name ← (← field ms "name") |> stringOf
    let targetEvra ← (← field ms "target_evra") |> Evra.ofValue
    let installedEvra ← optionalField ms "installed_evra" Evra.ofValue
    let installedInstance ← optionalField ms "installed_instance" u64Of
    let installedHeaderSha256 ← optionalField ms "installed_header_sha256" Sha256Digest.ofValue
    let installedVendor ← optionalField ms "installed_vendor" stringOf
    let candidateVendor ← optionalField ms "candidate_vendor" stringOf
    let repoId ← optionalField ms "repo_id" stringOf
    let reason ← (← field ms "reason") |> stringOf
    let provenance ← optionalField ms "provenance" ActionProvenance.ofValue
    let value : PackageAction := ⟨operation, name, targetEvra, installedEvra, installedInstance,
      installedHeaderSha256, installedVendor, candidateVendor, repoId, .ofStr reason, provenance⟩
    guard (value.validate = .ok ())
    some value
  | _ => none

/-- The serialized name of an action; `as_str` has a dash in `distro-sync`. -/
def Action.serdeName : Action → String
  | install => "install"
  | upgrade => "upgrade"
  | remove => "remove"
  | downgrade => "downgrade"
  | reinstall => "reinstall"
  | distroSync => "distro_sync"
  | autoremove => "autoremove"

def Action.ofStr (s : String) : Option Action :=
  [install, upgrade, remove, downgrade, reinstall, distroSync, autoremove].find? (·.serdeName == s)

def PackageSpec.ofValue (v : Value) : Option PackageSpec := do (parse (← stringOf v)).toOption

def TransactionIntent.toValue (intent : TransactionIntent) : Value :=
  .obj [("action", .str intent.action.serdeName),
    ("packages", .arr (intent.packages.map fun spec => .str spec.asStr)), ("schema_version", .num 1)]

def TransactionIntent.ofValue : Value → Option TransactionIntent
  | .obj ms => do
    guard (onlyFields ms ["schema_version", "action", "packages"])
    let schemaVersion ← (← field ms "schema_version") |> u32Of
    let action ← (← (← field ms "action") |> stringOf) |> Action.ofStr
    let packages ← (← field ms "packages") |> arrayOf PackageSpec.ofValue
    guard (schemaVersion = 1)
    (check action packages).toOption
  | _ => none

def RepositoryBinding.toValue (b : RepositoryBinding) : Value :=
  .obj [("generation_sha256", b.generationSha256.toValue), ("id", .str b.id),
    ("origin_sha256", b.originSha256.toValue), ("trust_sha256", b.trustSha256.toValue)]

def RepositoryBinding.ofValue : Value → Option RepositoryBinding
  | .obj ms => do
    guard (onlyFields ms ["id", "generation_sha256", "origin_sha256", "trust_sha256"])
    let id ← (← field ms "id") |> stringOf
    let generation ← (← field ms "generation_sha256") |> Sha256Digest.ofValue
    let origin ← (← field ms "origin_sha256") |> Sha256Digest.ofValue
    let trust ← (← field ms "trust_sha256") |> Sha256Digest.ofValue
    (new id generation origin trust).toOption
  | _ => none

namespace PlanEnvelope

def toValue (plan : PlanEnvelope) : Value :=
  .obj [("actions", .arr (plan.actions.map PackageAction.toValue)),
    ("expires_at_unix", .num plan.expiresAtUnix.toNat), ("install_root", .str plan.installRoot),
    ("intent", plan.intent.toValue), ("inventory_sha256", plan.integrity.inventorySha256.toValue),
    ("metadata_sha256", plan.integrity.metadataSha256.toValue),
    ("planning_snapshot_sha256", plan.integrity.planningSnapshotSha256.toValue),
    ("policy_sha256", plan.integrity.policySha256.toValue),
    ("schema_version", .num plan.schemaVersion.toNat),
    ("selected_repositories",
      .arr (plan.integrity.selectedRepositories.map RepositoryBinding.toValue)),
    ("trust_sha256", plan.integrity.trustSha256.toValue)]

instance : Serialize PlanEnvelope := ⟨toValue⟩

def ofValue : Value → Option PlanEnvelope
  | .obj ms => do
    guard (onlyFields ms ["schema_version", "install_root", "intent", "policy_sha256",
      "trust_sha256", "inventory_sha256", "metadata_sha256", "planning_snapshot_sha256",
      "selected_repositories", "expires_at_unix", "actions"])
    let schemaVersion ← (← field ms "schema_version") |> u32Of
    let installRoot ← (← field ms "install_root") |> stringOf
    let intent ← (← field ms "intent") |> TransactionIntent.ofValue
    let policySha256 ← (← field ms "policy_sha256") |> Sha256Digest.ofValue
    let trustSha256 ← (← field ms "trust_sha256") |> Sha256Digest.ofValue
    let inventorySha256 ← (← field ms "inventory_sha256") |> Sha256Digest.ofValue
    let metadataSha256 ← (← field ms "metadata_sha256") |> Sha256Digest.ofValue
    let planningSnapshotSha256 ← (← field ms "planning_snapshot_sha256") |> Sha256Digest.ofValue
    let selectedRepositories ←
      (← field ms "selected_repositories") |> arrayOf RepositoryBinding.ofValue
    let expiresAtUnix ← (← field ms "expires_at_unix") |> u64Of
    let actions ← (← field ms "actions") |> arrayOf PackageAction.ofValue
    let value : PlanEnvelope := ⟨schemaVersion, installRoot, intent, ⟨policySha256, trustSha256,
      inventorySha256, metadataSha256, planningSnapshotSha256, selectedRepositories⟩,
      expiresAtUnix, actions⟩
    guard (value.validateNow 0 = .ok ())
    some value
  | _ => none

/-- `serde_json::from_slice` for plans, over the parser of JSON text. -/
def fromSlice (parse : List UInt8 → Option Value) (bytes : List UInt8) :
    Except String PlanEnvelope :=
  match (parse bytes).bind ofValue with
  | some plan => .ok plan
  | none => .error "invalid plan"

def fromCanonicalJsonAt (parse : List UInt8 → Option Value) (bytes : List UInt8)
    (nowUnix : UInt64) : Except DomainError PlanEnvelope := do
  let value ← canonicalDecode (fromSlice parse) bytes
  value.validateNow nowUnix
  return value

def toCanonicalJson (plan : PlanEnvelope) : Except DomainError (List UInt8) := do
  plan.validateNow 0
  return canonicalEncode plan

end PlanEnvelope

/-! ## Round trips -/

theorem Architecture.ofStr_asRpmArch (a : Architecture) : ofStr a.asRpmArch = some a := by
  cases a <;> rfl

theorem PackageOperation.ofStr_asStr (o : PackageOperation) : ofStr o.asStr = some o := by
  cases o <;> rfl

theorem PackageReason.ofStr_asStr (r : PackageReason) : ofStr r.asStr = r := by
  cases r <;> rfl

theorem Action.ofStr_serdeName (a : Action) : ofStr a.serdeName = some a := by
  cases a <;> rfl

theorem Sha256Digest.ofValue_toValue (d : Sha256Digest) : ofValue d.toValue = some d := by
  simp [ofValue, toValue, stringOf, Except.toOption]

theorem PackageSpec.ofValue_str (spec : PackageSpec) : ofValue (.str spec.asStr) = some spec := by
  simp [ofValue, stringOf, Except.toOption]

/-- An EVRA is read back when it is valid. -/
theorem Evra.ofValue_toValue (e : Evra) :
    ofValue e.toValue = if e.validate = .ok () then some e else none := by
  by_cases h : e.validate = .ok () <;>
    simp [ofValue, toValue, field, onlyFields, stringOf, Architecture.ofStr_asRpmArch, h, guard]

theorem ActionProvenance.ofValue_toValue (p : ActionProvenance) : ofValue p.toValue = some p := by
  cases p
  simp [ofValue, toValue, field, stringOf, guard]

theorem RepositoryBinding.ofValue_toValue (b : RepositoryBinding) : ofValue b.toValue = some b := by
  simp [ofValue, toValue, field, onlyFields, stringOf, Sha256Digest.ofValue_toValue, guard,
    Except.toOption]

theorem TransactionIntent.ofValue_toValue (intent : TransactionIntent) :
    ofValue intent.toValue = some intent := by
  have hpackages : arrayOf PackageSpec.ofValue
      (.arr (intent.packages.map fun spec => .str spec.asStr)) = some intent.packages :=
    Json.mapM_map_some PackageSpec.ofValue_str _
  have hversion : u32Of (.num 1) = some 1 := by decide
  simp [ofValue, toValue, field, onlyFields, stringOf, Action.ofStr_serdeName, hpackages, hversion,
    guard, Except.toOption]

/-- The conditions under which a package action is read back. -/
def PackageAction.Readable (a : PackageAction) : Prop :=
  (∀ e ∈ a.installedEvra, e.validate = .ok ()) ∧ a.validate = .ok ()

instance (a : PackageAction) : Decidable a.Readable := by
  unfold PackageAction.Readable
  infer_instance

namespace PackageAction

theorem nullable_installedEvra (o : Option Evra) :
    Json.nullable Evra.ofValue (optionValue Evra.toValue o) =
      if ∀ e ∈ o, e.validate = .ok () then some o else none := by
  cases o with
  | none => simp [optionValue, Json.nullable]
  | some e =>
    have h : Json.nullable Evra.ofValue e.toValue = (Evra.ofValue e.toValue).map some := rfl
    rw [optionValue, h, Evra.ofValue_toValue]
    by_cases he : e.validate = .ok () <;> simp [he]

theorem nullable_text (o : Option String) :
    Json.nullable stringOf (optionValue .str o) = some o :=
  Json.nullable_optionValue (f := stringOf) (g := .str) (fun _ h => by cases h) (fun _ => rfl) o

theorem nullable_provenance (o : Option ActionProvenance) :
    Json.nullable ActionProvenance.ofValue (optionValue ActionProvenance.toValue o) = some o :=
  Json.nullable_optionValue (fun p h => by cases p; cases h) ActionProvenance.ofValue_toValue o

theorem nullable_header (d : Sha256Digest) :
    Json.nullable Sha256Digest.ofValue d.toValue = some (some d) :=
  Json.nullable_optionValue (fun _ h => by cases h) Sha256Digest.ofValue_toValue (some d)

theorem nullable_instance (n : UInt64) : Json.nullable u64Of (.num n.toNat) = some (some n) :=
  Json.nullable_optionValue (f := u64Of) (g := fun n : UInt64 => .num n.toNat)
    (fun _ h => by cases h) Json.u64Of_toNat (some n)

theorem validate_targetEvra {a : PackageAction} (h : a.validate = .ok ()) :
    a.targetEvra.validate = .ok () := by
  simp only [validate, Except.check_bind_eq_ok] at h
  exact h.2.1

/-- A package action is read back exactly when it is readable. -/
theorem ofValue_toValue (a : PackageAction) :
    ofValue a.toValue = if a.Readable then some a else none := by
  obtain ⟨operation, name, target, installed, inst, header, iv, cv, repo, reason, prov⟩ := a
  -- the members that may be left out decide only where the other fields stand
  have hfields : ∀ ms, onlyFields ms ["operation", "name", "target_evra", "installed_evra",
        "installed_instance", "installed_header_sha256", "installed_vendor", "candidate_vendor",
        "repo_id", "reason", "provenance"] = true →
      field ms "operation" = some (.str operation.asStr) → field ms "name" = some (.str name) →
      field ms "target_evra" = some target.toValue →
      field ms "installed_evra" = some (optionValue Evra.toValue installed) →
      optionalField ms "installed_instance" u64Of = some inst →
      optionalField ms "installed_header_sha256" Sha256Digest.ofValue = some header →
      field ms "installed_vendor" = some (optionValue .str iv) →
      field ms "candidate_vendor" = some (optionValue .str cv) →
      field ms "repo_id" = some (optionValue .str repo) →
      field ms "reason" = some (.str reason.asStr) →
      field ms "provenance" = some (optionValue ActionProvenance.toValue prov) →
      ofValue (.obj ms) = if (⟨operation, name, target, installed, inst, header, iv, cv, repo,
        reason, prov⟩ : PackageAction).Readable then some ⟨operation, name, target, installed, inst,
        header, iv, cv, repo, reason, prov⟩ else none := by
    intro ms honly hop hname htarget hevra hinst hheader hiv hcv hrepo hreason hprov
    rw [ofValue]
    simp only [honly, hop, hname, htarget, hinst, hheader, hreason, Json.optionalField_eq hevra,
      Json.optionalField_eq hiv, Json.optionalField_eq hcv, Json.optionalField_eq hrepo,
      Json.optionalField_eq hprov, nullable_text, nullable_provenance, nullable_installedEvra,
      Evra.ofValue_toValue, stringOf, PackageOperation.ofStr_asStr, PackageReason.ofStr_asStr,
      guard, if_true, Option.bind_eq_bind, Option.bind_some, Option.pure_def]
    by_cases hvalid : validate ⟨operation, name, target, installed, inst, header, iv, cv, repo,
        reason, prov⟩ = .ok ()
    · rw [if_pos (validate_targetEvra hvalid)]
      by_cases hinstalled : ∀ e ∈ installed, e.validate = .ok ()
      · have hreadable : Readable ⟨operation, name, target, installed, inst, header, iv, cv, repo,
            reason, prov⟩ := ⟨hinstalled, hvalid⟩
        rw [if_pos hinstalled, if_pos hreadable]
        simp only [Option.bind_some, if_pos hvalid]
      · have hunreadable : ¬ Readable ⟨operation, name, target, installed, inst, header, iv, cv,
            repo, reason, prov⟩ := fun h => hinstalled h.1
        rw [if_neg hinstalled, if_neg hunreadable]
        rfl
    · have hunreadable : ¬ Readable ⟨operation, name, target, installed, inst, header, iv, cv, repo,
          reason, prov⟩ := fun h => hvalid h.2
      rw [if_neg hunreadable]
      by_cases htargetValid : target.validate = .ok ()
      · by_cases hinstalled : ∀ e ∈ installed, e.validate = .ok ()
        · rw [if_pos htargetValid, if_pos hinstalled]
          simp only [Option.bind_some, if_neg hvalid]
          rfl
        · rw [if_pos htargetValid, if_neg hinstalled]
          rfl
      · rw [if_neg htargetValid]
        rfl
  apply hfields
  all_goals
    cases header <;> cases inst <;>
      simp [optionalMember, field, onlyFields, optionalField, nullable_header, nullable_instance]

end PackageAction

namespace PlanEnvelope

/-- A plan is read back exactly when its actions are readable and it passes `validateNow 0`. -/
theorem ofValue_toValue (plan : PlanEnvelope) :
    ofValue plan.toValue =
      if (∀ a ∈ plan.actions, a.Readable) ∧ plan.validateNow 0 = .ok () then some plan else none := by
  obtain ⟨schema, root, intent, ⟨policy, trust, inventory, metadata, snapshot, repositories⟩,
    expires, actions⟩ := plan
  have hrepositories : arrayOf RepositoryBinding.ofValue
      (.arr (repositories.map RepositoryBinding.toValue)) = some repositories :=
    Json.mapM_map_some RepositoryBinding.ofValue_toValue _
  have hactions : arrayOf PackageAction.ofValue (.arr (actions.map PackageAction.toValue)) =
      if ∀ a ∈ actions, a.Readable then some actions else none :=
    Json.mapM_map_ite PackageAction.ofValue_toValue _
  have hfields : ∀ ms, onlyFields ms ["schema_version", "install_root", "intent", "policy_sha256",
        "trust_sha256", "inventory_sha256", "metadata_sha256", "planning_snapshot_sha256",
        "selected_repositories", "expires_at_unix", "actions"] = true →
      field ms "schema_version" = some (.num schema.toNat) →
      field ms "install_root" = some (.str root) → field ms "intent" = some intent.toValue →
      field ms "policy_sha256" = some policy.toValue →
      field ms "trust_sha256" = some trust.toValue →
      field ms "inventory_sha256" = some inventory.toValue →
      field ms "metadata_sha256" = some metadata.toValue →
      field ms "planning_snapshot_sha256" = some snapshot.toValue →
      field ms "selected_repositories" =
        some (.arr (repositories.map RepositoryBinding.toValue)) →
      field ms "expires_at_unix" = some (.num expires.toNat) →
      field ms "actions" = some (.arr (actions.map PackageAction.toValue)) →
      ofValue (.obj ms) = if (∀ a ∈ actions, a.Readable) ∧ validateNow ⟨schema, root, intent,
          ⟨policy, trust, inventory, metadata, snapshot, repositories⟩, expires, actions⟩ 0 = .ok ()
        then some ⟨schema, root, intent, ⟨policy, trust, inventory, metadata, snapshot,
          repositories⟩, expires, actions⟩ else none := by
    intro ms honly h1 h2 h3 h4 h5 h6 h7 h8 h9 h10 h11
    rw [ofValue]
    simp only [honly, h1, h2, h3, h4, h5, h6, h7, h8, h9, h10, h11, hrepositories, hactions,
      Json.u32Of_toNat, Json.u64Of_toNat, TransactionIntent.ofValue_toValue,
      Sha256Digest.ofValue_toValue, stringOf, guard, if_true, Option.bind_eq_bind, Option.bind_some,
      Option.pure_def]
    by_cases hreadable : ∀ a ∈ actions, a.Readable
    · rw [if_pos hreadable, Option.bind_some]
      by_cases hnow : validateNow ⟨schema, root, intent, ⟨policy, trust, inventory, metadata,
          snapshot, repositories⟩, expires, actions⟩ 0 = .ok ()
      · rw [if_pos hnow, if_pos ⟨hreadable, hnow⟩]
        rfl
      · rw [if_neg hnow, if_neg fun h => hnow h.2]
        rfl
    · rw [if_neg hreadable, if_neg fun h => hreadable h.1]
      rfl
  apply hfields
  all_goals simp [field, onlyFields]

end PlanEnvelope

end Dnfast.Core
