import Dnfast.Core.Executable
import Dnfast.Core.Inventory

/-! # Solver plans

The data of `dnfast-solver`, `model.rs` and `validation.rs`. A `ResolvedAction` is what the native
solver decided, in terms of the candidates and the inventory; an `ExplainedAction` is what the plan
says about it. The `ActionProvenance` of this crate has the shape of the one of `dnfast-core`, which
stands for both. -/

namespace Dnfast.Solver

open Dnfast.Core (Evra PackageReason PackageSpec PlanIntegrity ActionProvenance TransactionIntent
  InstalledInventory SolverPolicy)

inductive PlanError where
  | noChanges
  | intentCoverage
  | unrelatedAction (name : String)
  | conflictingAction (name : String)
  | duplicateAction (identity : String)
  | unresolved (name : String)
  | duplicateCandidate (name : String)
  | ambiguousCandidate (name : String)
  | dependencyCycle
  | missingParent (parent : String)
  | disconnectedGraph
  | invalid (what : String)
  | excluded (name : String)
  | nonPreferred (name : String)
  | repositoryNotSelected (repository : String)
  | installedMissing (name : String)
  | ambiguousInstalled (name : String)
  | unpairedNativeOld (identity : String)
  | unsafeAction (what : String)
  | canonical (message : String)
  deriving DecidableEq, Repr

structure CandidatePackage where
  name : String
  evra : Evra
  vendor : String
  repoId : String
  priority : UInt32
  cost : UInt32
  packageSize : UInt64
  installedSize : UInt64
  checksumSha256 : String
  location : String
  excluded : Bool
  modular : Bool
  deriving DecidableEq

inductive ResolvedOperation where
  | install
  | upgrade
  | downgrade
  | reinstall
  | remove
  deriving DecidableEq, Repr

inductive DependencyKind where
  | strong
  | weak
  deriving DecidableEq, Repr

structure DependencyEdge where
  parent : String
  kind : DependencyKind
  deriving DecidableEq

structure ResolvedAction where
  operation : ResolvedOperation
  name : String
  requested : Bool
  requestedSpec : Option PackageSpec
  requestedRelation : Bool
  candidate : Option CandidatePackage
  installedInstance : Option UInt64
  installedHeaderSha256 : Option String
  installedVendor : Option String
  dependencyEdges : List DependencyEdge
  provenance : Option ActionProvenance
  requiredByRemaining : List String
  unresolvedDependencies : List String
  introducedByRequested : Bool
  solverRule : String
  deriving DecidableEq

structure ArtifactRecord where
  checksumSha256 : String
  location : String
  packageSize : UInt64
  deriving DecidableEq

inductive RequestedRelation where
  | requested
  | dependency
  | weakDependency
  deriving DecidableEq, Repr

def RequestedRelation.reason : RequestedRelation → PackageReason
  | requested => .user
  | dependency => .dependency
  | weakDependency => .weakDependency

structure PlanProtection where
  installonly : Bool
  isProtected : Bool
  runningKernel : Bool
  deriving DecidableEq

structure ExplainedAction where
  operation : String
  name : String
  targetEvra : Evra
  installedEvra : Option Evra
  installedInstance : Option UInt64
  installedHeaderSha256 : Option String
  installedVendor : Option String
  vendor : Option String
  repoId : Option String
  reason : PackageReason
  relation : RequestedRelation
  requestedBy : Option String
  dependencyEdges : List DependencyEdge
  provenance : Option ActionProvenance
  packageSize : UInt64
  installedSize : UInt64
  artifact : Option ArtifactRecord
  protection : PlanProtection
  explanation : String
  deriving DecidableEq

def maxPlanArtifactBytes : Nat := 16 * 1024 * 1024 * 1024 * 1024

structure PlanBuilder where
  intent : TransactionIntent
  snapshots : PlanIntegrity
  inventory : InstalledInventory
  policy : SolverPolicy
  candidates : List CandidatePackage
  expiresAtUnix : UInt64

/-- `repo:name-epoch:version-release.arch` of the candidate. -/
def actionIdentity (action : ResolvedAction) : Option String :=
  action.candidate.map fun c =>
    c.repoId ++ ":" ++ c.name ++ "-" ++ c.evra.epoch.toNat.repr ++ ":" ++ c.evra.version ++ "-" ++
      c.evra.release ++ "." ++ c.evra.arch.asRpmArch

end Dnfast.Solver
