import Mathlib.Data.Finset.Max
import Mathlib.Data.List.Sort
import Dnfast.Data.Check
import Dnfast.Data.Collected
import Dnfast.Data.Saturate
import Dnfast.Data.SortDedup
import Dnfast.Solver.Model

/-! # Checks of the solver's answer

`dnfast-solver`, `preflight.rs`: what is checked of the resolved actions before a plan is built from
them, and the order in which the plan lists them. The ordered sets and maps of the source are finite
sets where only membership and size matter, and ascending lists where they are traversed. -/

namespace Dnfast.Solver

open Except (refuseIf okOr)
open Dnfast.Core (Action Evra PackageSpec)

/-! ## Candidates -/

namespace CandidatePackage

def policyKey (c : CandidatePackage) : String × Evra × String × UInt32 × UInt32 :=
  (c.name, c.evra, c.repoId, c.priority, c.cost)

def exactKey (c : CandidatePackage) :
    (String × Evra × String × UInt32 × UInt32) × String × String × String :=
  (c.policyKey, c.vendor, c.checksumSha256, c.location)

def policyIdentity (c : CandidatePackage) : String × String × String × UInt64 × UInt64 :=
  (c.vendor, c.checksumSha256, c.location, c.packageSize, c.installedSize)

end CandidatePackage

/-- The loop of `validate_candidates`, with the candidates before, the latest first. -/
def validateCandidates : List CandidatePackage → List CandidatePackage → Except PlanError Unit
  | _, [] => .ok ()
  | seen, c :: cs => do
    refuseIf (seen.any (·.exactKey = c.exactKey)) (.duplicateCandidate c.name)
    refuseIf ((seen.find? (·.policyKey = c.policyKey)).any (·.policyIdentity ≠ c.policyIdentity))
      (.ambiguousCandidate c.name)
    validateCandidates (c :: seen) cs

namespace PlanBuilder

def validateRepositorySelection (b : PlanBuilder) : Except PlanError Unit :=
  forM b.candidates fun c =>
    refuseIf (!b.snapshots.selectedRepositories.any (·.id == c.repoId))
      (.repositoryNotSelected c.repoId)

/-- The selectors of the intent. -/
def requested (b : PlanBuilder) : List String := b.intent.packages.map (·.asStr)

/-- The intent is to bring all packages to the repositories' versions. -/
def replacesAll (b : PlanBuilder) : Bool :=
  (b.intent.action = .upgrade || b.intent.action = .distroSync) && b.requested = []

end PlanBuilder

/-! ## One action -/

namespace ResolvedAction

def identity (a : ResolvedAction) :
    ResolvedOperation × String × Option UInt64 × Option (Evra × String) :=
  (a.operation, a.name, a.installedInstance, a.candidate.map fun c => (c.evra, c.repoId))

def isReplacement (a : ResolvedAction) : Bool :=
  a.operation = .upgrade || a.operation = .downgrade || a.operation = .reinstall

/-- The selector that the action counts for. -/
def attributed (a : ResolvedAction) : Option String :=
  if a.requested then a.requestedSpec.map (·.asStr) else none

end ResolvedAction

def validateKind (intent : Action) (a : ResolvedAction) : Except PlanError Unit :=
  let obsoletionSideEffect := a.provenance.isSome && a.operation = .remove && intent ≠ .remove
  -- an upgrade may add a package, but only one that another action brings in
  let dependencyInstall := (intent = .upgrade || intent = .distroSync) && a.operation = .install &&
    !a.requested && a.requestedSpec.isNone && a.dependencyEdges != []
  let asked : Bool := match intent with
    | .install => a.operation = .install || a.operation = .upgrade
    | .remove => a.operation = .remove && a.provenance.isNone
    | .upgrade => a.operation = .upgrade
    | .downgrade => a.operation = .downgrade
    | .reinstall => a.operation = .reinstall
    | .distroSync => a.isReplacement
    | .autoremove => a.operation = .remove && a.provenance.isNone
  refuseIf (!(obsoletionSideEffect || dependencyInstall || asked)) (.conflictingAction a.name)

def checkEdge (names : List String) (a : ResolvedAction) (edge : DependencyEdge) :
    Except PlanError Unit := do
  refuseIf (edge.parent = a.name) .dependencyCycle
  refuseIf (edge.parent ∉ names) (.missingParent edge.parent)

def checkProvenance (actions : List ResolvedAction) (a : ResolvedAction) : Except PlanError Unit :=
  match a.provenance with
  | none => .ok ()
  | some (.obsoletedBy parent) =>
    refuseIf (a.operation ≠ .remove ∨ !actions.any fun p => actionIdentity p = some parent)
      (.missingParent parent)

namespace PlanBuilder

variable (b : PlanBuilder)

def checkSelector (a : ResolvedAction) : Except PlanError Unit :=
  if a.requested then
    match a.requestedSpec with
    | some spec => refuseIf (spec.asStr ∉ b.requested) (.unrelatedAction a.name)
    | none => refuseIf (!b.replacesAll) (.invalid "requested action lacks selector provenance")
  else .ok ()

/-- The body of the loop in `validate_inputs`, after the identity of the action is known to be
new. -/
def checkAction (actions : List ResolvedAction) (a : ResolvedAction) : Except PlanError Unit := do
  let allReplacementRoot := a.requested && a.requestedSpec.isNone && b.replacesAll && a.isReplacement
  refuseIf (a.requested ≠ a.requestedSpec.isSome ∧ !allReplacementRoot)
    (.invalid "requested action provenance differs")
  refuseIf (a.requestedRelation && !a.requested) (.invalid "relation selector is not requested")
  b.checkSelector a
  forM a.dependencyEdges (checkEdge (actions.map (·.name)) a)
  checkProvenance actions a
  validateKind b.intent.action a

/-- The loop, with the identities met so far. -/
def checkActions (actions : List ResolvedAction) :
    List (ResolvedOperation × String × Option UInt64 × Option (Evra × String)) →
    List ResolvedAction → Except PlanError Unit
  | _, [] => .ok ()
  | seen, a :: as => do
    refuseIf (a.name = "" ∨ a.unresolvedDependencies ≠ []) (.unresolved a.name)
    refuseIf (a.identity ∈ seen) (.duplicateAction a.name)
    b.checkAction actions a
    checkActions actions (a.identity :: seen) as

end PlanBuilder

/-! ## Reachability -/

/-- The loop body of `validate_reachable`: a parent of the action is reachable. -/
def hasReachableParent (actions : List ResolvedAction) (reachable : Finset String)
    (item : ResolvedAction) : Bool :=
  (item.provenance.any fun p => actions.any fun parent =>
    parent.name ∈ reachable && actionIdentity parent = some p.parentActionIdentity) ||
  item.dependencyEdges.any (·.parent ∈ reachable)

def reachableNames (actions : List ResolvedAction) : Finset String :=
  Saturate.saturate (hasReachableParent actions) (·.name) actions
    ((actions.filter (·.requested)).map (·.name)).toFinset

def validateReachable (actions : List ResolvedAction) : Except PlanError Unit :=
  refuseIf ((reachableNames actions).card ≠ actions.length) .disconnectedGraph

/-! ## All inputs -/

/-- The sum of the package sizes, in 64 bits. -/
def artifactBytes (actions : List ResolvedAction) : Except PlanError Nat :=
  (actions.filterMap (·.candidate)).foldlM (fun total c => do
    let sum := total + c.packageSize.toNat
    refuseIf (sum ≥ 2 ^ 64) (.invalid "artifact size overflow")
    return sum) 0

/-- The selectors that are attributed, each as often as it is: the counts of `covered`. -/
def coveredSelectors (actions : List ResolvedAction) (satisfied : List PackageSpec) : List String :=
  satisfied.map (·.asStr) ++ actions.filterMap (·.attributed)

def PlanBuilder.validateInputs (b : PlanBuilder) (actions : List ResolvedAction)
    (satisfied : List PackageSpec) : Except PlanError Unit := do
  refuseIf (actions = []) .noChanges
  refuseIf (actions.length > Core.maxPlanActions) (.invalid "action limit exceeded")
  b.validateRepositorySelection
  validateCandidates [] b.candidates
  let bytes ← artifactBytes actions
  refuseIf (bytes > maxPlanArtifactBytes) (.invalid "artifact size limit exceeded")
  refuseIf (¬ (actions.map (·.name)).Nodup) (.duplicateAction "name")
  forM satisfied fun spec => refuseIf (spec.asStr ∉ b.requested)
    (.invalid "satisfied selector is not in requested intent")
  b.checkActions actions [] actions
  let covered := coveredSelectors actions satisfied
  refuseIf (b.requested.any (fun name => covered.count name ≠ 1) ||
    covered.any fun name => covered.count name ≠ 1) .intentCoverage
  validateReachable actions

/-! ## The order of the actions -/

/-- The edges of one action; those of removals are turned around. -/
def orderEdges (resolved : List ResolvedAction) (names : Finset String) (turned : Bool)
    (item : ResolvedAction) : Except PlanError (List (String ×ₗ String)) := do
  let dependencies ← item.dependencyEdges.mapM fun dependency => do
    refuseIf (dependency.parent ∉ names) (.missingParent dependency.parent)
    return if turned then toLex (dependency.parent, item.name)
      else toLex (item.name, dependency.parent)
  match item.provenance with
  | none => return dependencies
  | some (.obsoletedBy identity) =>
    let parent ← okOr (resolved.find? fun p => actionIdentity p = some identity)
      (.missingParent identity)
    return dependencies ++ [toLex (parent.name, item.name)]

/-- The first active name with an edge into the name. -/
def activeSource (edges : List (String ×ₗ String)) (active : Finset String) (name : String) :
    Option String :=
  ((edges.map ofLex).find? fun e => e.2 = name ∧ e.1 ∈ active).map (·.1)

/-- The active names that the edges out of the name lead to. -/
def activeTargets (edges : List (String ×ₗ String)) (active : Finset String) (name : String) :
    List String :=
  ((edges.map ofLex).filter fun e => e.1 = name ∧ e.2 ∈ active).map (·.2)

theorem mem_of_activeSource {edges : List (String ×ₗ String)} {active : Finset String}
    {name parent : String} (h : activeSource edges active name = some parent) : parent ∈ active := by
  obtain ⟨e, he, rfl⟩ := Option.map_eq_some_iff.mp h
  have hactive := List.find?_some he
  rw [decide_eq_true_eq] at hactive
  exact hactive.2

/-- The loop of `cycle_member` from an active name on. It ends at a name met before, or where no
active name precedes. -/
def cycleFrom (edges : List (String ×ₗ String)) (active seen : Finset String) (current : String)
    (_h : current ∈ active) : Option String :=
  if _hseen : current ∈ seen then some current
  else
    match hparent : activeSource edges active current with
    | none => none
    | some parent =>
      cycleFrom edges active (insert current seen) parent (mem_of_activeSource hparent)
termination_by (active \ seen).card
decreasing_by
  refine Finset.card_lt_card ⟨Finset.sdiff_subset_sdiff subset_rfl (Finset.subset_insert _ _), ?_⟩
  intro hsub
  have hmem := hsub (Finset.mem_sdiff.mpr ⟨_h, _hseen⟩)
  simp at hmem

/-- `cycle_member`, from the first active name. -/
def cycleMember (active : Finset String) (edges : List (String ×ₗ String)) : Option String :=
  if h : active.Nonempty then cycleFrom edges active ∅ (active.min' h) (active.min'_mem h) else none

/-- The names that the loop of `execution_order` has left, those without an open edge, and the
number of open edges into each. -/
structure OrderState where
  active : Finset String
  ready : Finset String
  indegree : String → Nat

/-- Close the edges out of the name that was taken, one target after another. -/
def OrderState.close (s : OrderState) : List String → Except PlanError OrderState
  | [] => .ok s
  | target :: targets => do
    refuseIf (s.indegree target = 0) .dependencyCycle
    let count := s.indegree target - 1
    let s' : OrderState := { s with
      indegree := Function.update s.indegree target count
      ready := if count = 0 then insert target s.ready else s.ready }
    s'.close targets

/-- The next name: the first that is ready, or one on a cycle. -/
def OrderState.next (s : OrderState) (edges : List (String ×ₗ String)) : Except PlanError String :=
  if h : s.ready.Nonempty then .ok (s.ready.min' h)
  else okOr (cycleMember s.active edges) .dependencyCycle

/-- The loop of `execution_order`; the actions are looked up by their names. -/
def orderFrom (edges : List (String ×ₗ String)) (actionOf : String → Option ExplainedAction)
    (s : OrderState) : Except PlanError (List ExplainedAction) :=
  if s.active = ∅ then .ok []
  else
    match s.next edges with
    | .error e => .error e
    | .ok name =>
      if _hactive : name ∈ s.active then
        match actionOf name with
        | none => .error .dependencyCycle
        | some action =>
          let active := s.active.erase name
          let popped : OrderState := ⟨active, s.ready.erase name, s.indegree⟩
          match popped.close (activeTargets edges active name) with
          | .error e => .error e
          | .ok s' => do
            let rest ← orderFrom edges actionOf ⟨active, s'.ready, s'.indegree⟩
            return action :: rest
      else .error .dependencyCycle
termination_by s.active.card
decreasing_by exact Finset.card_erase_lt_of_mem ‹_›

def executionOrder (resolved : List ResolvedAction) (actions : List ExplainedAction) :
    Except PlanError (List ExplainedAction) := do
  let names := (actions.map (·.name)).toFinset
  refuseIf (names.card ≠ resolved.length) (.duplicateAction "name")
  let turned := resolved.head?.any (·.operation = .remove)
  let edges := (← resolved.mapM (orderEdges resolved names turned)).flatten.sortDedup
  forM (edges.map ofLex) fun e => refuseIf (e.2 ∉ names) (.missingParent e.2)
  let indegree name := (edges.map ofLex).countP (·.2 = name)
  orderFrom edges (collected (actions.map fun a => (a.name, a)))
    ⟨names, names.filter fun name => indegree name = 0, indegree⟩

end Dnfast.Solver
