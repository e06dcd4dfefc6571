import Dnfast.Core.PlanCodec
import Dnfast.Solver.Preflight

/-! # Building a plan

`dnfast-solver`, `plan.rs`: `PlanBuilder::build_with_satisfied` checks the solver's answer, explains
each resolved action (`action`), puts the actions into their order, and builds and checks the plan
proposal from them. -/

namespace Dnfast.Solver

open Except (refuseIf okOr)
open Dnfast.Core (CandidateAction DomainError Evra InstalledPackage PackageAction PackageSpec
  PlanEnvelope SolverPolicy Sha256Digest)
open Json (Value)

def unsafeError (e : DomainError) : PlanError := .unsafeAction e.toString

def canonicalError (e : DomainError) : PlanError := .canonical e.toString

/-- `digest`: the checksum in lower case. -/
def digest (value : String) : Except PlanError String := do
  refuseIf (¬ (value.toList.length = 64 ∧ value.toList.all Core.isAsciiHexdigit))
    (.invalid "invalid SHA-256 digest")
  return Sha256Digest.toAsciiLowercase value

/-! ## The preferred candidate -/

def candidateCmp (left right : CandidatePackage) : Ordering :=
  if left.evra ≠ right.evra ∧ left.evra.isStrictlyNewerThan right.evra then .gt
  else if left.evra ≠ right.evra ∧ right.evra.isStrictlyNewerThan left.evra then .lt
  else (compare right.priority left.priority).then <| (compare right.cost left.cost).then <|
    (compare right.repoId left.repoId).then (compare right.location left.location)

/-- `Iterator::max_by`: the last of the greatest. -/
def maxBy {α : Type} (cmp : α → α → Ordering) : List α → Option α
  | [] => none
  | a :: as => some (as.foldl (fun x y => if cmp x y = .gt then x else y) a)

/-- A location that could leave the repository or is not plain text. -/
def unsafeLocation (location : String) : Bool :=
  location.toList.head? = some '/' || ['.', '.'] <:+: location.toList ||
    ['/', '/'] <:+: location.toList || '\\' ∈ location.toList || location.toList.any Core.isControl

namespace PlanBuilder

variable (b : PlanBuilder)

def preferred (name : String) (installed : Option InstalledPackage)
    (installedVendor : Option String) : Option CandidatePackage :=
  maxBy candidateCmp <| b.candidates.filter fun item =>
    item.name = name && !item.excluded && installed.all (fun p => item.evra.arch = p.evra.arch) &&
      installedVendor.all (item.vendor = ·)

def validateCandidate (c : CandidatePackage) (installed : Option InstalledPackage)
    (installedVendor : Option String) (enforcePreferred exactRequestedRelation : Bool) :
    Except PlanError Unit := do
  refuseIf (c.excluded || b.policy.isExcluded c.name) (.excluded c.name)
  refuseIf (unsafeLocation c.location) (.invalid "unsafe artifact location")
  refuseIf (enforcePreferred ∧ b.preferred c.name installed installedVendor ≠ some c ∧
    ¬ exactRequestedRelation) (.nonPreferred c.name)

def protection (name : String) : PlanProtection :=
  ⟨b.policy.isInstallonly name, b.policy.isProtected name, b.policy.isRunningKernel name⟩

/-! ## One action -/

def relationOf (resolved : ResolvedAction) : RequestedRelation :=
  if b.intent.action = .autoremove then .dependency
  else if resolved.requested then .requested
  else if resolved.provenance.isSome then .dependency
  else if resolved.dependencyEdges.all (·.kind = .weak) then .weakDependency
  else .dependency

def remove (resolved : ResolvedAction) (installed : Option InstalledPackage)
    (relation : RequestedRelation) : Except PlanError ExplainedAction := do
  let installed ← okOr installed (.installedMissing resolved.name)
  refuseIf (installed.name ≠ resolved.name) (.invalid "installed package name mismatch")
  refuseIf (resolved.requiredByRemaining ≠ [] ∨ (relation ≠ .requested ∧
      b.intent.action ≠ .autoremove ∧ !resolved.introducedByRequested ∧
      resolved.provenance.isNone))
    (.unsafeAction ("reverse dependency requires " ++ resolved.name))
  (b.policy.validateRemoval resolved.name relation.reason).mapError unsafeError
  return {
    operation := "remove"
    name := resolved.name
    targetEvra := installed.evra
    installedEvra := some installed.evra
    installedInstance := some installed.dbInstance
    installedHeaderSha256 := some installed.immutableHeaderSha256.asStr
    vendor := none
    installedVendor := resolved.installedVendor
    repoId := none
    reason := relation.reason
    relation := relation
    requestedBy := resolved.dependencyEdges.head?.map (·.parent)
    dependencyEdges := resolved.dependencyEdges
    provenance := resolved.provenance
    packageSize := 0
    installedSize := 0
    artifact := none
    protection := b.protection resolved.name
    explanation := resolved.solverRule }

/-- The policy's check of a replacement, or that there is nothing to replace. -/
def validateReplacement (resolved : ResolvedAction) (candidate : CandidatePackage)
    (installed : Option InstalledPackage) : Except PlanError Unit :=
  let replaced (operation : Core.ReplacementOperation)
      (check : CandidateAction → Except DomainError Unit) : Except PlanError Unit := do
    let previous ← okOr installed (.installedMissing resolved.name)
    let installedVendor ← okOr resolved.installedVendor (.invalid "missing installed vendor")
    (check (.replace operation previous.evra candidate.evra installedVendor
      candidate.vendor)).mapError unsafeError
  match resolved.operation with
  | .upgrade => replaced .upgrade SolverPolicy.validateUpgrade
  | .downgrade => replaced .downgrade SolverPolicy.validateDowngrade
  | .reinstall => replaced .reinstall SolverPolicy.validateReinstall
  | .install | .remove => refuseIf installed.isSome (.invalid "install action already installed")

def operationText : ResolvedOperation → String
  | .install => "install"
  | .upgrade => "upgrade"
  | .downgrade => "downgrade"
  | .reinstall => "reinstall"
  | .remove => "remove"

def installOrUpgrade (resolved : ResolvedAction) (installed : Option InstalledPackage)
    (relation : RequestedRelation) : Except PlanError ExplainedAction := do
  let candidate ← okOr resolved.candidate (.invalid "missing candidate")
  b.validateCandidate candidate installed resolved.installedVendor resolved.requested
    (resolved.requested && resolved.requestedSpec.isSome && resolved.requestedRelation)
  refuseIf (candidate.name ≠ resolved.name) (.invalid "candidate name mismatch")
  validateReplacement resolved candidate installed
  let checksum ← digest candidate.checksumSha256
  return {
    operation := operationText resolved.operation
    name := resolved.name
    targetEvra := candidate.evra
    installedEvra := installed.map (·.evra)
    installedInstance := installed.map (·.dbInstance)
    installedHeaderSha256 := installed.map (·.immutableHeaderSha256.asStr)
    installedVendor := resolved.installedVendor
    vendor := some candidate.vendor
    repoId := some candidate.repoId
    reason := relation.reason
    relation := relation
    requestedBy := resolved.dependencyEdges.head?.map (·.parent)
    dependencyEdges := resolved.dependencyEdges
    provenance := resolved.provenance
    packageSize := candidate.packageSize
    installedSize := candidate.installedSize
    artifact := some ⟨checksum, candidate.location, candidate.packageSize⟩
    protection := b.protection resolved.name
    explanation := resolved.solverRule }

/-- The package of the inventory that the action names by its instance. -/
def installedOf (resolved : ResolvedAction) : Except PlanError (Option InstalledPackage) :=
  match resolved.installedInstance with
  | none => .ok none
  | some id => (okOr (b.inventory.packages.find? (·.dbInstance = id))
      (.installedMissing resolved.name)).map some

def action (resolved : ResolvedAction) : Except PlanError ExplainedAction := do
  refuseIf (resolved.solverRule = "") (.invalid "missing solver explanation")
  let installed ← b.installedOf resolved
  let relation := b.relationOf resolved
  match resolved.operation with
  | .remove => b.remove resolved installed relation
  | .install | .upgrade | .downgrade | .reinstall => b.installOrUpgrade resolved installed relation

end PlanBuilder

/-! ## The plan -/

/-- The replacement that the explained action describes, built by `make`. -/
def replacementAction
    (make : String → Evra → Evra → String → String → String → Core.PackageReason → UInt64 → String →
      Except DomainError PackageAction)
    (a : ExplainedAction) : Except PlanError PackageAction := do
  let installedEvra ← okOr a.installedEvra (.invalid "missing installed EVRA")
  let repoId ← okOr a.repoId (.invalid "missing repo")
  let installedVendor ← okOr a.installedVendor (.invalid "missing installed vendor")
  let vendor ← okOr a.vendor (.invalid "missing candidate vendor")
  let dbInstance ← okOr a.installedInstance (.invalid "missing installed instance")
  let header ← okOr a.installedHeaderSha256 (.invalid "missing installed header")
  (make a.name installedEvra a.targetEvra repoId installedVendor vendor a.reason dbInstance
    header).mapError canonicalError

def removalAction (a : ExplainedAction) : Except PlanError PackageAction := do
  let installedVendor ← okOr a.installedVendor (.invalid "missing installed vendor")
  let dbInstance ← okOr a.installedInstance (.invalid "missing installed instance")
  let header ← okOr a.installedHeaderSha256 (.invalid "missing installed header")
  match a.provenance with
  | some (.obsoletedBy parent) =>
    (PackageAction.removeObsoletedWithIdentity a.name a.targetEvra installedVendor a.reason
      dbInstance header parent).mapError canonicalError
  | none =>
    (PackageAction.removeWithIdentity a.name a.targetEvra installedVendor a.reason dbInstance
      header).mapError canonicalError

def coreAction (a : ExplainedAction) : Except PlanError PackageAction :=
  if a.operation = "install" then do
    let repoId ← okOr a.repoId (.invalid "missing repo")
    let vendor ← okOr a.vendor (.invalid "missing vendor")
    return PackageAction.installWithVendor a.name a.targetEvra repoId vendor a.reason
  else if a.operation = "upgrade" then replacementAction PackageAction.upgradeWithIdentity a
  else if a.operation = "downgrade" then replacementAction PackageAction.downgradeWithIdentity a
  else if a.operation = "reinstall" then replacementAction PackageAction.reinstallWithIdentity a
  else if a.operation = "remove" then removalAction a
  else .error (.invalid "unknown operation")

structure CanonicalSolverPlan where
  schema : String
  proposal : PlanEnvelope
  actions : List ExplainedAction

namespace CanonicalSolverPlan

/-- `sort_by_key(Value::to_string)`. -/
def sortByText (values : List Value) : List Value :=
  values.insertionSort fun a b => a.render ≤ b.render

def validate (plan : CanonicalSolverPlan) : Except PlanError Unit := do
  refuseIf (plan.schema ≠ "dnfast.explained-plan.v1") (.invalid "schema")
  let _ ← plan.proposal.toCanonicalJson.mapError canonicalError
  refuseIf (plan.proposal.actions.length ≠ plan.actions.length) (.invalid "proposal action mismatch")
  let right ← plan.actions.mapM coreAction
  refuseIf (sortByText (plan.proposal.actions.map (·.toValue)) ≠
    sortByText (right.map (·.toValue))) (.invalid "proposal action mismatch")

end CanonicalSolverPlan

def PlanBuilder.buildWithSatisfied (b : PlanBuilder) (resolved : List ResolvedAction)
    (satisfied : List PackageSpec) : Except PlanError CanonicalSolverPlan := do
  b.policy.validate.mapError unsafeError
  b.validateInputs resolved satisfied
  let actions ← resolved.mapM b.action
  let actions ← executionOrder resolved actions
  let coreActions ← actions.mapM coreAction
  let proposal ← (PlanEnvelope.new b.intent b.snapshots b.expiresAtUnix coreActions).mapError
    canonicalError
  (proposal.validateExecutable b.policy 0).mapError unsafeError
  let plan : CanonicalSolverPlan := ⟨"dnfast.explained-plan.v1", proposal, actions⟩
  plan.validate
  return plan

end Dnfast.Solver
