import Mathlib.Data.List.Sort
import Dnfast.Core.Policy

/-! # Transaction plans

`dnfast-core`, `intent.rs`, `integrity.rs` and `plan.rs`: what was asked for (`TransactionIntent`),
what the plan is bound to (`PlanIntegrity`) and the package actions. Intents and repository bindings
can only be built through their checks and carry them. Package actions cannot: their constructors
accept any parts, and a plan is checked by `canonicalActions` when it is built and by `validateNow`
when it is read. -/

namespace Dnfast.Core

open Except (refuseIf)

/-! ## Intents -/

inductive Action where
  | install
  | upgrade
  | remove
  | downgrade
  | reinstall
  | distroSync
  | autoremove
  deriving DecidableEq, Repr

/-- `char::is_control`, the general category Cc. -/
def isControl (c : Char) : Bool := c.toNat < 0x20 || (0x7f ≤ c.toNat && c.toNat < 0xa0)

/-- `char::is_whitespace`, the property White_Space. -/
def isWhitespace (c : Char) : Bool :=
  (9 ≤ c.toNat && c.toNat ≤ 13) ||
    c.toNat ∈ [0x20, 0x85, 0xa0, 0x1680, 0x2028, 0x2029, 0x202f, 0x205f, 0x3000] ||
    (0x2000 ≤ c.toNat && c.toNat ≤ 0x200a)

inductive IntentError where
  | missingPackages (action : Action)
  | emptyPackage
  | optionLikePackage (value : String)
  | controlCharacter (value : String)
  | nonCanonicalPackages
  deriving DecidableEq, Repr

/-- The check of `PackageSpec::parse`. A text with a control character is reported as it is, without
the escapes of `escape_default`. -/
def checkSpec (value : String) : Except IntentError Unit :=
  let trimmed := value.toList.dropWhile isWhitespace
  if trimmed = [] then .error .emptyPackage
  else if trimmed.head? = some '-' then .error (.optionLikePackage value)
  else if value.toList.any isControl then .error (.controlCharacter value)
  else .ok ()

structure PackageSpec where
  asStr : String
  valid : checkSpec asStr = .ok ()
  deriving DecidableEq

namespace PackageSpec

def parse (value : String) : Except IntentError PackageSpec :=
  match h : checkSpec value with
  | .ok () => .ok ⟨value, h⟩
  | .error e => .error e

theorem ext {a b : PackageSpec} (h : a.asStr = b.asStr) : a = b := by
  cases a
  cases b
  cases h
  rfl

@[simp] theorem parse_asStr (spec : PackageSpec) : parse spec.asStr = .ok spec := by
  unfold parse
  split
  · rfl
  · next h =>
    rw [spec.valid] at h
    cases h

theorem asStr_of_parse {value : String} {spec : PackageSpec} (h : parse value = .ok spec) :
    spec.asStr = value := by
  unfold parse at h
  split at h
  · cases h
    rfl
  · cases h

instance : LinearOrder PackageSpec := LinearOrder.lift' asStr fun _ _ => ext

end PackageSpec

/-- An intent that names packages must name one. -/
def Action.needsPackages : Action → Bool
  | install | remove | downgrade | reinstall => true
  | upgrade | distroSync | autoremove => false

/-- The schema version is the constant 1 that `new` writes and `validate` requires. -/
structure TransactionIntent where
  action : Action
  packages : List PackageSpec
  supplied : action.needsPackages = true → packages ≠ []
  ordered : packages.IsChain (· < ·)
  deriving DecidableEq

namespace TransactionIntent

/-- `validate` after the specifications are known to be well formed. Packages in strictly ascending
order are distinct, so the later search for a repeated one finds nothing. -/
def check (action : Action) (packages : List PackageSpec) : Except IntentError TransactionIntent :=
  if hsupplied : action.needsPackages = true ∧ packages = [] then .error (.missingPackages action)
  else if hordered : packages.IsChain (· < ·) then
    .ok ⟨action, packages, fun h hp => hsupplied ⟨h, hp⟩, hordered⟩
  else .error .nonCanonicalPackages

def new (action : Action) (packages : List PackageSpec) : Except IntentError TransactionIntent :=
  check action (packages.insertionSort (· ≤ ·))

@[simp] theorem check_self (intent : TransactionIntent) :
    check intent.action intent.packages = .ok intent := by
  have hsupplied : ¬ (intent.action.needsPackages = true ∧ intent.packages = []) :=
    fun h => intent.supplied h.1 h.2
  rw [check, dif_neg hsupplied, dif_pos intent.ordered]

end TransactionIntent

/-! ## Integrity -/

/-- A repository identifier is made of these bytes. -/
def isRepositoryId (id : String) : Bool :=
  id != "" && id.toList.all fun c => c.isAlphanum || c ∈ ['_', '.', '-']

structure RepositoryBinding where
  id : String
  generationSha256 : Sha256Digest
  originSha256 : Sha256Digest
  trustSha256 : Sha256Digest
  identifier : isRepositoryId id = true
  deriving DecidableEq

namespace RepositoryBinding

def new (id : String) (generation origin trust : Sha256Digest) :
    Except DomainError RepositoryBinding :=
  if h : isRepositoryId id = true then .ok ⟨id, generation, origin, trust, h⟩
  else .error (.invalidPlan "invalid repository binding identifier")

@[simp] theorem new_self (b : RepositoryBinding) :
    new b.id b.generationSha256 b.originSha256 b.trustSha256 = .ok b := by
  rw [new, dif_pos b.identifier]

def key (b : RepositoryBinding) :
    String ×ₗ Sha256Digest ×ₗ Sha256Digest ×ₗ Sha256Digest :=
  toLex (b.id, toLex (b.generationSha256, toLex (b.originSha256, b.trustSha256)))

theorem key_injective : Function.Injective key := by
  intro a b h
  cases a
  cases b
  simp only [key, EmbeddingLike.apply_eq_iff_eq, Prod.mk.injEq] at h
  obtain ⟨rfl, rfl, rfl, rfl⟩ := h
  rfl

instance : LinearOrder RepositoryBinding := LinearOrder.lift' key key_injective

end RepositoryBinding

structure PlanIntegrity where
  policySha256 : Sha256Digest
  trustSha256 : Sha256Digest
  inventorySha256 : Sha256Digest
  metadataSha256 : Sha256Digest
  planningSnapshotSha256 : Sha256Digest
  selectedRepositories : List RepositoryBinding
  deriving DecidableEq

def PlanIntegrity.validate (integrity : PlanIntegrity) : Except DomainError Unit :=
  refuseIf (integrity.selectedRepositories = [] ∨
    ¬ integrity.selectedRepositories.IsChain (· < ·)) .nonCanonical

/-! ## Package actions -/

inductive PackageOperation where
  | install
  | upgrade
  | downgrade
  | reinstall
  | remove
  deriving DecidableEq, Repr

namespace PackageOperation

def rank : PackageOperation → Nat
  | install => 0
  | upgrade => 1
  | downgrade => 2
  | reinstall => 3
  | remove => 4

theorem rank_injective : Function.Injective rank := by
  intro a b h
  cases a <;> cases b <;> first | rfl | cases h

instance : LinearOrder PackageOperation := LinearOrder.lift' rank rank_injective

end PackageOperation

inductive ActionProvenance where
  | obsoletedBy (parentActionIdentity : String)
  deriving DecidableEq

namespace ActionProvenance

def parentActionIdentity : ActionProvenance → String
  | obsoletedBy parent => parent

theorem parentActionIdentity_injective : Function.Injective parentActionIdentity := by
  rintro ⟨a⟩ ⟨b⟩ h
  exact congrArg obsoletedBy h

instance : LinearOrder ActionProvenance :=
  LinearOrder.lift' parentActionIdentity parentActionIdentity_injective

end ActionProvenance

structure PackageAction where
  operation : PackageOperation
  name : String
  targetEvra : Evra
  installedEvra : Option Evra
  installedInstance : Option UInt64
  installedHeaderSha256 : Option Sha256Digest
  installedVendor : Option String
  candidateVendor : Option String
  repoId : Option String
  reason : PackageReason
  provenance : Option ActionProvenance
  deriving DecidableEq

namespace PackageAction

/-- An optional value, ordered with the absent one below all others. -/
def absentFirst {α : Type} (value : Option α) : WithBot α := value

theorem absentFirst_inj {α : Type} {a b : Option α} : absentFirst a = absentFirst b ↔ a = b :=
  Iff.rfl

/-- The fields in the order in which the derived `Ord` compares them. -/
def key (a : PackageAction) : PackageOperation ×ₗ String ×ₗ Evra ×ₗ WithBot Evra ×ₗ WithBot Nat ×ₗ
    WithBot Sha256Digest ×ₗ WithBot String ×ₗ WithBot String ×ₗ WithBot String ×ₗ PackageReason ×ₗ
    WithBot ActionProvenance :=
  toLex (a.operation, toLex (a.name, toLex (a.targetEvra, toLex (absentFirst a.installedEvra,
    toLex (absentFirst (a.installedInstance.map UInt64.toNat),
    toLex (absentFirst a.installedHeaderSha256, toLex (absentFirst a.installedVendor,
    toLex (absentFirst a.candidateVendor, toLex (absentFirst a.repoId,
    toLex (a.reason, absentFirst a.provenance))))))))))

theorem key_injective : Function.Injective key := by
  intro a b h
  cases a
  cases b
  simp only [key, EmbeddingLike.apply_eq_iff_eq, Prod.mk.injEq, absentFirst_inj] at h
  obtain ⟨rfl, rfl, rfl, rfl, hinstance, rfl, rfl, rfl, rfl, rfl, rfl⟩ := h
  obtain rfl := Option.map_injective (fun _ _ => UInt64.toNat_inj.mp) hinstance
  rfl

instance : LinearOrder PackageAction := LinearOrder.lift' key key_injective

def installWithVendor (name : String) (evra : Evra) (repoId vendor : String)
    (reason : PackageReason) : PackageAction :=
  ⟨.install, name, evra, none, none, none, none, some vendor, some repoId, reason, none⟩

/-- The common part of `remove_with_identity` and `remove_obsoleted_with_identity`. -/
def removeWith (name : String) (evra : Evra) (vendor : String) (reason : PackageReason)
    (dbInstance : UInt64) (headerSha256 : String) (provenance : Option ActionProvenance) :
    Except DomainError PackageAction := do
  let header ← Sha256Digest.parse headerSha256 "installed_header_sha256"
  return ⟨.remove, name, evra, some evra, some dbInstance, some header, some vendor, none, none,
    reason, provenance⟩

def removeWithIdentity (name : String) (evra : Evra) (vendor : String) (reason : PackageReason)
    (dbInstance : UInt64) (headerSha256 : String) : Except DomainError PackageAction :=
  removeWith name evra vendor reason dbInstance headerSha256 none

def removeObsoletedWithIdentity (name : String) (evra : Evra) (vendor : String)
    (reason : PackageReason) (dbInstance : UInt64) (headerSha256 parentActionIdentity : String) :
    Except DomainError PackageAction :=
  removeWith name evra vendor reason dbInstance headerSha256
    (some (.obsoletedBy parentActionIdentity))

/-- The common part of the constructors of replacements. -/
def replaceWith (operation : PackageOperation) (name : String) (installedEvra targetEvra : Evra)
    (repoId installedVendor candidateVendor : String) (reason : PackageReason)
    (dbInstance : UInt64) (headerSha256 : String) : Except DomainError PackageAction := do
  let header ← Sha256Digest.parse headerSha256 "installed_header_sha256"
  return ⟨operation, name, targetEvra, some installedEvra, some dbInstance, some header,
    some installedVendor, some candidateVendor, some repoId, reason, none⟩

def upgradeWithIdentity := replaceWith .upgrade
def downgradeWithIdentity := replaceWith .downgrade
def reinstallWithIdentity := replaceWith .reinstall

/-- `repo:name-epoch:version-release.arch`. -/
def actionIdentity (a : PackageAction) : Option String :=
  a.repoId.map fun repo =>
    repo ++ ":" ++ a.name ++ "-" ++ a.targetEvra.epoch.toNat.repr ++ ":" ++ a.targetEvra.version ++
      "-" ++ a.targetEvra.release ++ "." ++ a.targetEvra.arch.asRpmArch

/-- Absent or empty text, `is_none_or(str::is_empty)`. -/
def lacks (text : Option String) : Bool := text.all (· == "")

def installedIncomplete (a : PackageAction) : Bool :=
  a.installedVendor.isNone || a.installedInstance.isNone || a.installedHeaderSha256.isNone

/-- The arms of the match in `validate` for an operation that brings in a package; `replaces` tells
a replacement from an installation. -/
def validateCandidate (a : PackageAction) (replaces : Bool) : Except DomainError Unit := do
  refuseIf (lacks a.repoId) (.invalidPlan "install/replacement action requires repo")
  refuseIf (!replaces && (a.installedEvra.isSome || a.installedInstance.isSome ||
    a.installedHeaderSha256.isSome || a.installedVendor.isSome))
    (.invalidPlan "install cannot carry installed package")
  refuseIf (!replaces && lacks a.candidateVendor) (.invalidPlan "install requires candidate vendor")
  refuseIf (replaces && (a.installedEvra.isNone || a.installedIncomplete ||
    lacks a.candidateVendor))
    (.invalidPlan "replacement requires installed and candidate identity")
  refuseIf a.provenance.isSome
    (.invalidPlan "install/replacement cannot carry side-effect provenance")

/-- The arms for a removal. -/
def validateRemove (a : PackageAction) : Except DomainError Unit := do
  refuseIf a.repoId.isSome (.invalidPlan "remove action cannot have repo")
  refuseIf (a.reason = .unknown ∨ a.reason = .external)
    (.unsafeAction "package reason requires keep")
  refuseIf (a.installedEvra ≠ some a.targetEvra ∨ a.installedIncomplete)
    (.invalidPlan "remove requires exact installed identity")
  refuseIf a.candidateVendor.isSome (.invalidPlan "remove cannot carry candidate vendor")

def validate (a : PackageAction) : Except DomainError Unit := do
  refuseIf (a.name = "") (.empty "action_name")
  a.targetEvra.validate
  match a.operation with
  | .install => a.validateCandidate false
  | .upgrade | .downgrade | .reinstall => a.validateCandidate true
  | .remove => a.validateRemove

end PackageAction

/-! ## Envelopes -/

def maxPlanActions : Nat := 100000

/-- The identity under which a plan holds an action at most once. -/
def PackageAction.identity (a : PackageAction) : PackageOperation × String × Evra :=
  (a.operation, a.name, a.targetEvra)

/-- The loop of `canonical_actions`: each action is validated and its identity must be new. -/
def checkIdentities : List (PackageOperation × String × Evra) → List PackageAction →
    Except DomainError Unit
  | _, [] => .ok ()
  | seen, a :: as => do
    a.validate
    refuseIf (a.identity ∈ seen) (.duplicate a.name)
    checkIdentities (a.identity :: seen) as

def canonicalActions (actions : List PackageAction) : Except DomainError (List PackageAction) := do
  refuseIf (actions.length > maxPlanActions) (.invalidPlan "action limit exceeded")
  let actions := actions.insertionSort (· ≤ ·)
  checkIdentities [] actions
  return actions

structure PlanEnvelope where
  schemaVersion : UInt32
  installRoot : String
  intent : TransactionIntent
  integrity : PlanIntegrity
  expiresAtUnix : UInt64
  actions : List PackageAction
  deriving DecidableEq

namespace PlanEnvelope

def new (intent : TransactionIntent) (integrity : PlanIntegrity) (expiresAtUnix : UInt64)
    (actions : List PackageAction) : Except DomainError PlanEnvelope := do
  integrity.validate
  let actions ← canonicalActions actions
  return ⟨2, "/", intent, integrity, expiresAtUnix, actions⟩

/-- The repository that the action names is one of the selected. -/
def selects (plan : PlanEnvelope) (a : PackageAction) : Bool :=
  a.repoId.all fun repository =>
    plan.integrity.selectedRepositories.any (·.id == repository)

/-- The body of the loop in `validate_now`. -/
def checkAction (plan : PlanEnvelope) (a : PackageAction) : Except DomainError Unit := do
  a.validate
  refuseIf (!plan.selects a) (.invalidPlan "action repository is not selected")

def validateNow (plan : PlanEnvelope) (nowUnix : UInt64) : Except DomainError Unit := do
  refuseIf (plan.schemaVersion ≠ 2) (.schemaVersion 2 plan.schemaVersion)
  refuseIf (plan.installRoot ≠ "/") (.invalidPlan "install root must be /")
  plan.integrity.validate
  refuseIf (nowUnix > plan.expiresAtUnix) (.invalidPlan "plan expired")
  refuseIf (plan.actions.length > maxPlanActions ∨ ¬ plan.actions.IsChain (· < ·)) .nonCanonical
  forM plan.actions plan.checkAction

end PlanEnvelope

end Dnfast.Core
