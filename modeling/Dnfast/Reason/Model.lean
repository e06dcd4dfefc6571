import Dnfast.Core.Inventory
import Dnfast.Core.PlanCodec
import Dnfast.Data.Collected
import Dnfast.State.Model

/-! # Package reasons

`dnfast-state`, `reason.rs`: why each installed package is there. A record names its package by the
rpmdb instance and the header digest. After a transaction every installed package gets one record,
whose reason is the first of: what the policy keeps is the user's; what a replaced package of the
same name and EVRA had; what its own record says; what the plan proposes for it; external.

The maps of the source are only collected from pairs and asked, so they are lists of pairs here
(`collected`). -/

namespace Dnfast.Reason

open Except (refuseIf okOr)
open Dnfast.Core (PackageReason Evra InstalledPackage InstalledInventory PackageAction PlanEnvelope
  SolverPolicy)
open Dnfast.State (StateError)
open Json (Value)

def maxStateBytes : Nat := 64 * 1024 * 1024
def maxRecords : Nat := 200000

inductive ReasonDecision where
  | record (reason : PackageReason)
  | keep (reason : PackageReason)
  deriving DecidableEq, Repr

def ReasonDecision.reason : ReasonDecision → PackageReason
  | record reason | keep reason => reason

structure InstalledIdentity where
  dbInstance : UInt64
  headerSha256 : String
  deriving DecidableEq

structure PlannedIdentity where
  packageName : String
  targetEvra : Evra
  deriving DecidableEq

structure ReconciledReason where
  identity : InstalledIdentity
  packageName : String
  decision : ReasonDecision
  deriving DecidableEq

/-- The identity of an installed package. -/
def identityOf (p : InstalledPackage) : InstalledIdentity :=
  ⟨p.dbInstance, p.immutableHeaderSha256.asStr⟩

/-- The identity that a plan has for an installed package. -/
def plannedOf (p : InstalledPackage) : PlannedIdentity := ⟨p.name, p.evra⟩

def proposalsFromPlan (plan : PlanEnvelope) : List (PlannedIdentity × PackageReason) :=
  (plan.actions.filter fun a => a.operation ≠ .remove).map fun a =>
    (⟨a.name, a.targetEvra⟩, a.reason)

/-- The decision on a proposal. -/
def decisionOn : PackageReason → ReasonDecision
  | .external => .keep .external
  | .unknown => .keep .unknown
  | reason => .record reason

/-- The loop of `reconcile_reasons` over the packages, with the proposals that are left. -/
def reconcilePackages (beforeIds : List InstalledIdentity) (kept installonly : List String) :
    List (PlannedIdentity × PackageReason) → List InstalledPackage → List ReconciledReason
  | _, [] => []
  | remaining, p :: ps =>
    let proposal :=
      if identityOf p ∈ beforeIds then none else collected remaining (plannedOf p)
    if p.name ∈ kept ∨ p.name ∈ installonly then
      ⟨identityOf p, p.name, .keep .user⟩ ::
        reconcilePackages beforeIds kept installonly remaining ps
    else
      match proposal with
      | some reason =>
        ⟨identityOf p, p.name, decisionOn reason⟩ ::
          reconcilePackages beforeIds kept installonly (without remaining (plannedOf p)) ps
      | none =>
        ⟨identityOf p, p.name, .keep .external⟩ ::
          reconcilePackages beforeIds kept installonly remaining ps

def reconcileReasons (before after : InstalledInventory)
    (proposed : List (PlannedIdentity × PackageReason)) (kept installonly : List String) :
    List ReconciledReason :=
  reconcilePackages (before.packages.map identityOf) kept installonly proposed after.packages

/-! ## The stored state -/

structure ReasonRecord where
  dbInstance : UInt64
  headerSha256 : String
  packageName : String
  reason : PackageReason
  deriving DecidableEq

namespace ReasonRecord

def identity (r : ReasonRecord) : InstalledIdentity := ⟨r.dbInstance, r.headerSha256⟩

def key (r : ReasonRecord) : Nat ×ₗ String ×ₗ String ×ₗ PackageReason :=
  toLex (r.dbInstance.toNat, toLex (r.headerSha256, toLex (r.packageName, r.reason)))

theorem key_injective : Function.Injective key := by
  intro a b h
  cases a
  cases b
  simp only [key, EmbeddingLike.apply_eq_iff_eq, Prod.mk.injEq, UInt64.toNat_inj] at h
  obtain ⟨rfl, rfl, rfl, rfl⟩ := h
  rfl

instance : LinearOrder ReasonRecord := LinearOrder.lift' key key_injective

def toValue (r : ReasonRecord) : Value :=
  .obj [("db_instance", .num r.dbInstance.toNat), ("header_sha256", .str r.headerSha256),
    ("package_name", .str r.packageName), ("reason", .str r.reason.asStr)]

end ReasonRecord

structure ReasonState where
  schemaVersion : UInt32
  records : List ReasonRecord
  deriving DecidableEq

namespace ReasonState

def default : ReasonState := ⟨1, []⟩

def toValue (s : ReasonState) : Value :=
  .obj [("records", .arr (s.records.map ReasonRecord.toValue)),
    ("schema_version", .num s.schemaVersion.toNat)]

instance : Core.Serialize ReasonState := ⟨toValue⟩

/-- `existing`: the records by their identity. -/
def existing (s : ReasonState) (identity : InstalledIdentity) : Option ReasonRecord :=
  collected (s.records.map fun r => (r.identity, r)) identity

end ReasonState

/-- A byte of a recorded package name. -/
def isNameChar (c : Char) : Bool := c.isAlphanum || c ∈ ['+', '.', '_', '-']

def ReasonRecord.wellFormed (r : ReasonRecord) : Bool :=
  r.dbInstance != 0 && Core.isLowerDigest r.headerSha256 && r.packageName != "" &&
    r.packageName.utf8ByteSize ≤ 4096 && r.packageName.toList.all isNameChar

/-- The loop of `validate_state` over the records. -/
def checkRecords : List InstalledIdentity → List ReasonRecord → Except StateError Unit
  | _, [] => .ok ()
  | seen, r :: rs => do
    refuseIf (!r.wellFormed ∨ r.identity ∈ seen) (.corrupt "invalid package reason record")
    checkRecords (r.identity :: seen) rs

def validateState (s : ReasonState) : Except StateError Unit := do
  refuseIf (s.schemaVersion ≠ 1 ∨ s.records.length > maxRecords)
    (.corrupt "invalid package reason state bounds")
  refuseIf (¬ s.records.IsChain (· < ·)) (.corrupt "package reason records are not canonical")
  checkRecords [] s.records

/-! ## Recording a transaction -/

/-- The reason of the package that the action consumes, under the name and EVRA of its target. -/
def inheritance (s : ReasonState) (a : PackageAction) : Option (PlannedIdentity × PackageReason) := do
  let dbInstance ← a.installedInstance
  let header ← a.installedHeaderSha256
  let previous ← s.existing ⟨dbInstance, header.asStr⟩
  some (⟨a.name, a.targetEvra⟩, previous.reason)

/-- `replacement_reasons`; removals are among them. -/
def replacementReasons (s : ReasonState) (plan : PlanEnvelope) :
    List (PlannedIdentity × PackageReason) :=
  (plan.actions.filter fun a => a.operation ≠ .install).filterMap (inheritance s)

/-- The reason that the package `item` with the EVRA `evra` gets. -/
def recordedReason (s : ReasonState) (plan : PlanEnvelope) (policy : SolverPolicy)
    (item : ReconciledReason) (evra : Evra) : PackageReason :=
  if policy.isProtected item.packageName || policy.isInstallonly item.packageName ||
      policy.isRunningKernel item.packageName then .user
  else
    match collected (replacementReasons s plan) ⟨item.packageName, evra⟩ with
    | some reason => reason
    | none =>
      match s.existing item.identity with
      | some record => record.reason
      | none => item.decision.reason

/-- `after_by_identity`. -/
def installedAt (inventory : InstalledInventory) (identity : InstalledIdentity) :
    Option InstalledPackage :=
  collected (inventory.packages.map fun p => (identityOf p, p)) identity

/-- The record of one reconciled package. -/
def recordOf (s : ReasonState) (after : InstalledInventory) (plan : PlanEnvelope)
    (policy : SolverPolicy) (item : ReconciledReason) : Except StateError ReasonRecord := do
  let p ← okOr (installedAt after item.identity) (.corrupt "reconciled package disappeared")
  return ⟨item.identity.dbInstance, item.identity.headerSha256, item.packageName,
    recordedReason s plan policy item p.evra⟩

def reconciled (before after : InstalledInventory) (plan : PlanEnvelope) (policy : SolverPolicy) :
    List ReconciledReason :=
  let names := after.packages.map (·.name)
  reconcileReasons before after (proposalsFromPlan plan) (names.filter policy.isProtected)
    (names.filter fun name => policy.isInstallonly name || policy.isRunningKernel name)

/-- The state that `record_success` writes over the state `s`. -/
def recordedState (s : ReasonState) (before after : InstalledInventory) (plan : PlanEnvelope)
    (policy : SolverPolicy) : Except StateError ReasonState := do
  let records ← (reconciled before after plan policy).mapM (recordOf s after plan policy)
  return ⟨1, records.insertionSort (· ≤ ·)⟩

/-! ## Candidates for removal -/

/-- The record is of an installed package that may go. -/
def isCandidate (inventory : InstalledInventory) (policy : SolverPolicy) (r : ReasonRecord) : Bool :=
  match installedAt inventory r.identity with
  | none => false
  | some p =>
    p.name = r.packageName && r.reason.isAutoremoveCandidate && !policy.isProtected p.name &&
      !policy.isInstallonly p.name && !policy.isRunningKernel p.name

def autoremoveNames (s : ReasonState) (inventory : InstalledInventory) (policy : SolverPolicy) :
    Except StateError (List String) := do
  let names := ((s.records.filter (isCandidate inventory policy)).map
    (·.packageName)).insertionSort (· ≤ ·)
  refuseIf (¬ names.IsChain (· ≠ ·))
    (.corrupt "autoremove package name has multiple installed identities")
  return names

end Dnfast.Reason
