import Dnfast.Data.SortDedup
import Dnfast.Reason.Model
import Dnfast.Solver.Libsolv
import Dnfast.Solver.Plan

/-! # The commands

`dnfast-cli`, `commands/mod.rs` and `planner.rs`: how a request becomes a plan and a plan is
executed. `System` is what a command finds: the rpmdb, the reason state, the policy, the repositories
and libsolv with its pool. The planner refuses when the inventory of the planning snapshot is not the
one in the rpmdb, so there is one inventory. Approval, staging and the terminal are left out: the
plan that a command returns is the plan that it executes when it is approved.

A failure keeps the error whose text the source puts into its message. -/

namespace Dnfast.Cli

open Except (refuseIf)
open Dnfast.Core (Action InstalledInventory IntentError PackageSpec PlanIntegrity SolverPolicy
  TransactionIntent)
open Dnfast.Reason (ReasonState autoremoveNames validateState)
open Dnfast.Solver (CandidatePackage CanonicalSolverPlan Libsolv NativeSolveOutput PackageEvidence
  PlanBuilder PlanError SolveOperation SolveResult solveOperation)
open Dnfast.State (StateError)

inductive Failure where
  | native (message : String)
  | plan (error : PlanError)
  | state (error : StateError)
  | intent (error : IntentError)
  | reSolveMismatch
  | app (code : UInt8) (errorCode message : String)

structure System where
  lib : Libsolv
  inventory : InstalledInventory
  /-- The reason state as it is read, which is checked. -/
  reasons : ReasonState
  reasons_valid : validateState reasons = .ok ()
  policy : SolverPolicy
  integrity : PlanIntegrity
  /-- The candidates for an answer of libsolv: all of the repositories, or those in the answer. -/
  candidates : SolveResult → List CandidatePackage
  /-- The evidence for an answer: complete for all packages, or compact for those in it. -/
  evidence : SolveResult → List (String × PackageEvidence)
  expiresAtUnix : UInt64
  /-- A selector needs the full file lists, so that the planner of `planner.rs` is used. -/
  requiresFullFilelists : List String → Bool

/-- The operation that libsolv is asked for. -/
def operationOf : Action → SolveOperation
  | .install => .install
  | .upgrade => .upgrade
  | .remove => .erase
  | .downgrade => .downgrade
  | .reinstall => .reinstall
  | .distroSync => .distroSync
  | .autoremove => .autoremove

/-- `intent`. -/
def intentOf (action : Action) (packages : List String) : Except Failure TransactionIntent := do
  let packages ← (packages.mapM PackageSpec.parse).mapError Failure.intent
  (TransactionIntent.new action packages).mapError Failure.intent

namespace System

variable (sys : System)

/-- The builder of the plan for an answer. -/
def builder (intent : TransactionIntent) (result : SolveResult) : PlanBuilder where
  intent := intent
  snapshots := sys.integrity
  inventory := sys.inventory
  policy := sys.policy
  candidates := sys.candidates result
  expiresAtUnix := sys.expiresAtUnix

/-- `solve`, of `planner.rs` and of the resident planner. -/
def solve (intent : TransactionIntent) : Except Failure CanonicalSolverPlan := do
  let names := intent.packages.map (·.asStr)
  let result ← (solveOperation sys.lib (operationOf intent.action) names).mapError .native
  let output ← (NativeSolveOutput.fromNativeEvidence result sys.integrity.metadataSha256.asStr
    (sys.evidence result) sys.inventory).mapError .plan
  let resolved ← (output.intoResolvedEvidence names (sys.candidates result) (sys.evidence result)
    sys.inventory).mapError .plan
  ((sys.builder intent result).buildWithSatisfied resolved output.satisfiedSpecs).mapError .plan

/-- `autoremove_packages`. -/
def autoremovePackages (requested : List String) : Except Failure (List String) := do
  let candidates ← (autoremoveNames sys.reasons sys.inventory sys.policy).mapError .state
  if requested = [] then return candidates
  else
    match requested.find? (· ∉ candidates) with
    | some package => .error (.app 1 "unsafe_autoremove"
        ("autoremove candidate is not exact dependency-reason state: " ++ package))
    | none => return requested.sortDedup

/-- `run_convenience`: the plan that is executed, if any. -/
def runConvenience (action : Action) (packages : List String) :
    Except Failure (Option CanonicalSolverPlan) := do
  let packages ← if action = .autoremove then sys.autoremovePackages packages else .ok packages
  if action = .autoremove ∧ packages = [] then return none
  else
    let intent ← intentOf action packages
    match sys.solve intent with
    | .error (.plan .noChanges) =>
      if sys.requiresFullFilelists packages then .error (.plan .noChanges) else return none
    | .error e => .error e
    | .ok plan => return some plan

/-- `run_plan`: the plan that is written. -/
def runPlan (action : Action) (packages : List String) : Except Failure CanonicalSolverPlan := do
  sys.solve (← intentOf action packages)

/-- `run_apply`: the plan is solved again for its intent and must come out the same. -/
def runApply (plan : CanonicalSolverPlan) : Except Failure CanonicalSolverPlan := do
  let again : System := { sys with
    integrity := plan.proposal.integrity
    expiresAtUnix := plan.proposal.expiresAtUnix }
  let root ← again.solve plan.proposal.intent
  refuseIf (root.schema ≠ plan.schema ∨ root.proposal ≠ plan.proposal ∨ root.actions ≠ plan.actions)
    .reSolveMismatch
  return plan

end System

end Dnfast.Cli
