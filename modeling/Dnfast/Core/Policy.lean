import Mathlib.Data.Finset.Lattice.Lemmas
import Mathlib.Data.Finset.Dedup
import Dnfast.Core.Value
import Dnfast.Data.Check

/-! # The solver policy

`dnfast-core`, `policy.rs`: the reasons a package is installed for, and the policy that bounds what
a plan may do. The ordered sets of the source are only asked for membership and compared, so they
are finite sets here. -/

namespace Dnfast.Core

open Except (refuseIf)

inductive PackageReason where
  | user
  | dependency
  | weakDependency
  | external
  | unknown
  deriving DecidableEq, Repr

namespace PackageReason

def isAutoremoveCandidate : PackageReason → Bool
  | dependency | weakDependency => true
  | _ => false

def rank : PackageReason → Nat
  | user => 0
  | dependency => 1
  | weakDependency => 2
  | external => 3
  | unknown => 4

theorem rank_injective : Function.Injective rank := by
  intro a b h
  cases a <;> cases b <;> first | rfl | cases h

instance : LinearOrder PackageReason := LinearOrder.lift' rank rank_injective

end PackageReason

inductive ReplacementOperation where
  | upgrade
  | downgrade
  | reinstall
  deriving DecidableEq, Repr

inductive CandidateAction where
  | replace (operation : ReplacementOperation) (installed candidate : Evra)
      (installedVendor candidateVendor : String)
  | deferred (name : String)
  deriving DecidableEq

structure RepoPreference where
  priority : UInt32
  cost : UInt32
  repoId : String
  deriving DecidableEq

namespace RepoPreference

def key (r : RepoPreference) : Nat ×ₗ Nat ×ₗ String :=
  toLex (r.priority.toNat, toLex (r.cost.toNat, r.repoId))

theorem key_injective : Function.Injective key := by
  intro a b h
  cases a
  cases b
  simp only [key, EmbeddingLike.apply_eq_iff_eq, Prod.mk.injEq, UInt32.toNat_inj] at h
  obtain ⟨rfl, rfl, rfl⟩ := h
  rfl

instance : LinearOrder RepoPreference := LinearOrder.lift' key key_injective

end RepoPreference

structure SolverPolicy where
  schemaVersion : UInt32
  installWeakDeps : Bool
  best : Bool
  baseArch : Architecture
  allowedArches : Finset Architecture
  allowMultilib : Bool
  allowVendorChange : Bool
  upgradeOnly : Bool
  repoPreferences : List RepoPreference
  protectedPackages : Finset String
  installonlyPackages : Finset String
  runningKernelName : Option String
  excludes : Finset String
  deriving DecidableEq

namespace SolverPolicy

def fedora44 (baseArch : Architecture) (protectedPackages installonly : List String) :
    SolverPolicy where
  schemaVersion := 1
  installWeakDeps := true
  best := false
  baseArch := baseArch
  allowedArches := {baseArch, .noarch}
  allowMultilib := false
  allowVendorChange := false
  upgradeOnly := true
  repoPreferences := []
  protectedPackages := protectedPackages.toFinset
  installonlyPackages := installonly.toFinset
  runningKernelName := none
  excludes := ∅

def isExcluded (policy : SolverPolicy) (name : String) : Bool := name ∈ policy.excludes

def isProtected (policy : SolverPolicy) (name : String) : Bool := name ∈ policy.protectedPackages

def isInstallonly (policy : SolverPolicy) (name : String) : Bool :=
  name ∈ policy.installonlyPackages

def isRunningKernel (policy : SolverPolicy) (name : String) : Bool :=
  policy.runningKernelName == some name

/-- The package is one that no transaction may remove. -/
def keeps (policy : SolverPolicy) (name : String) : Bool :=
  policy.isProtected name || policy.isInstallonly name || policy.isRunningKernel name

def validateAction : CandidateAction → Except DomainError Unit
  | .replace .. => .ok ()
  | .deferred name => .error (.unsafeAction name)

def validateReplacementIdentity (installed candidate : Evra)
    (installedVendor candidateVendor : String) : Except DomainError Unit := do
  installed.validate
  candidate.validate
  refuseIf (installed.arch ≠ candidate.arch) (.unsafeAction "architecture switch")
  refuseIf (installedVendor ≠ candidateVendor) (.unsafeAction "vendor switch")

/-- `validate_upgrade`: its body makes the checks of `validate_replacement_identity` itself, in the
same order. -/
def validateUpgrade : CandidateAction → Except DomainError Unit
  | .replace .upgrade installed candidate installedVendor candidateVendor => do
    validateReplacementIdentity installed candidate installedVendor candidateVendor
    refuseIf (!candidate.isStrictlyNewerThan installed) (.unsafeAction "candidate is not newer")
  | action => validateAction action

def validateDowngrade : CandidateAction → Except DomainError Unit
  | .replace .downgrade installed candidate installedVendor candidateVendor => do
    validateReplacementIdentity installed candidate installedVendor candidateVendor
    refuseIf (!installed.isStrictlyNewerThan candidate) (.unsafeAction "candidate is not older")
  | action => validateAction action

def validateReinstall : CandidateAction → Except DomainError Unit
  | .replace .reinstall installed candidate installedVendor candidateVendor => do
    validateReplacementIdentity installed candidate installedVendor candidateVendor
    refuseIf (installed ≠ candidate) (.unsafeAction "reinstall candidate differs")
  | action => validateAction action

def validateRemoval (policy : SolverPolicy) (name : String) (reason : PackageReason) :
    Except DomainError Unit := do
  refuseIf (policy.isProtected name) (.unsafeAction "protected package removal")
  refuseIf (policy.isInstallonly name) (.unsafeAction "installonly package removal")
  refuseIf (policy.isRunningKernel name) (.unsafeAction "running kernel removal")
  match reason with
  | .user | .dependency | .weakDependency => .ok ()
  | .external | .unknown => .error (.unsafeAction "package reason requires keep")

def expectedArches : Architecture → Option (Finset Architecture)
  | .aarch64 => some {.aarch64, .noarch}
  | .x86_64 => some {.x86_64, .noarch}
  | .noarch => none

/-- A package name set or the running kernel's name is empty text. -/
def namesEmpty (policy : SolverPolicy) : Bool :=
  "" ∈ policy.protectedPackages ∪ policy.installonlyPackages ∪ policy.excludes ∨
    policy.runningKernelName = some ""

def validate (policy : SolverPolicy) : Except DomainError Unit := do
  refuseIf (policy.schemaVersion ≠ 1) (.schemaVersion 1 policy.schemaVersion)
  refuseIf (some policy.allowedArches ≠ expectedArches policy.baseArch) .architecture
  refuseIf (!policy.installWeakDeps || policy.best || policy.allowMultilib ||
    policy.allowVendorChange || !policy.upgradeOnly) (.unsafeAction "unsafe solver policy")
  refuseIf (¬ policy.repoPreferences.IsChain (· < ·)) .nonCanonical
  refuseIf (policy.repoPreferences.any (·.repoId == "")) (.empty "repo_id")
  refuseIf policy.namesEmpty (.empty "solver package name")

end SolverPolicy

end Dnfast.Core
