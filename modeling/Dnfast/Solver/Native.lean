import Dnfast.Data.Collected
import Dnfast.Solver.Relation

/-! # The native solver's answer

`dnfast-solver`, `native_adapter.rs`: the columns that libsolv returns become actions and decisions
(`fromNativeEvidence`), and these become resolved actions (`intoResolvedEvidence`). Packages are
named by NEVRA texts on the way. The evidence about repository packages comes in two forms, complete
and compact, and both functions are written over either.

An action keeps the native text of its kind: what is not one of the known kinds is refused only
when the action is resolved. Of `CompletePackage` the fields that the adapter reads are kept. The
indexes of the source are maps collected from pairs, and are asked through `collected`. -/

namespace Dnfast.Solver

open Except (refuseIf okOr)
open Dnfast.Core (ActionProvenance Evra InstalledInventory InstalledPackage PackageSpec)

/-! ## Evidence -/

structure CompletePackage where
  name : String
  arch : String
  epoch : String
  version : String
  release : String
  requires : List Relation
  recommends : List Relation
  supplements : List Relation
  enhances : List Relation

structure NativePackageEvidence where
  name : String
  arch : String
  epoch : String
  version : String
  release : String
  requires : List String
  recommends : List String
  supplements : List String
  enhances : List String

def NativePackageEvidence.fromComplete (p : CompletePackage) : NativePackageEvidence where
  name := p.name
  arch := p.arch
  epoch := p.epoch
  version := p.version
  release := p.release
  requires := p.requires.map compactRelation
  recommends := p.recommends.map compactRelation
  supplements := p.supplements.map compactRelation
  enhances := p.enhances.map compactRelation

inductive RelationEvidence where
  | complete (items : List Relation)
  | compact (items : List String)

inductive PackageEvidence where
  | complete (package : CompletePackage)
  | compact (package : NativePackageEvidence)

/-- `name-epoch:version-release.arch`. -/
def nevraText (name epoch version release arch : String) : String :=
  name ++ "-" ++ epoch ++ ":" ++ version ++ "-" ++ release ++ "." ++ arch

namespace PackageEvidence

def nevra : PackageEvidence → String
  | complete p => nevraText p.name p.epoch p.version p.release p.arch
  | compact p => nevraText p.name p.epoch p.version p.release p.arch

def requires : PackageEvidence → RelationEvidence
  | complete p => .complete p.requires
  | compact p => .compact p.requires

def recommends : PackageEvidence → RelationEvidence
  | complete p => .complete p.recommends
  | compact p => .compact p.recommends

def supplements : PackageEvidence → RelationEvidence
  | complete p => .complete p.supplements
  | compact p => .compact p.supplements

def enhances : PackageEvidence → RelationEvidence
  | complete p => .complete p.enhances
  | compact p => .compact p.enhances

/-- The package of a repository with the NEVRA; the later one if there are two. -/
def find (metadata : List (String × PackageEvidence)) (repository nevra : String) :
    Option PackageEvidence :=
  collected (metadata.map fun (repository, package) => ((repository, package.nevra), package))
    (repository, nevra)

end PackageEvidence

def fullNevra (c : CandidatePackage) : String :=
  nevraText c.name c.evra.epoch.toNat.repr c.evra.version c.evra.release c.evra.arch.asRpmArch

def installedNevra (p : InstalledPackage) : String :=
  nevraText p.name p.evra.epoch.toNat.repr p.evra.version p.evra.release p.evra.arch.asRpmArch

/-- The text before the last but one `-`. -/
def nevraName (value : String) : Except PlanError String :=
  okOr (do
    let (left, _) ← value.toList.rsplitOnce '-'
    let (name, _) ← left.rsplitOnce '-'
    return String.ofList name) (.invalid "invalid native full NEVRA")

/-! ## Matching a relation -/

/-- The loop of `matching_relation` over the items with the text. -/
def uniqueRelation {α : Type} (read : α → Except PlanError Relation) :
    Option Relation → List α → Except PlanError (Option Relation)
  | found, [] => .ok found
  | found, item :: items => do
    let relation ← read item
    refuseIf found.isSome (.invalid "native relation is ambiguous in rpm-md")
    uniqueRelation read (some relation) items

def matchingRelation (evidence : RelationEvidence) (relation : String) :
    Except PlanError (Option Relation) :=
  match evidence with
  | .complete items => uniqueRelation .ok none (items.filter (relationText · = relation))
  | .compact items => uniqueRelation parseCompactRelation none (items.filter (· = relation))

/-- The relation of the provider that a weak decision may come from. -/
def reverseRequirement (provider : PackageEvidence) (relation : String) :
    Except PlanError (Option Relation) := do
  let supplement ← matchingRelation provider.supplements relation
  let enhance ← matchingRelation provider.enhances relation
  match supplement, enhance with
  | some found, none | none, some found => return some found
  | some _, some _ => .error (.invalid "native reverse relation is ambiguous in rpm-md")
  | none, none => return none

def decisionRequirement (requiring : PackageEvidence) (provider : Option PackageEvidence)
    (weak : Bool) (relation : String) : Except PlanError Relation := do
  let direct ← matchingRelation (if weak then requiring.recommends else requiring.requires) relation
  match direct, weak, provider with
  | some found, _, _ => return found
  | none, true, some provider =>
    okOr (← reverseRequirement provider relation) (.invalid "native relation absent from rpm-md")
  | none, _, _ => .error (.invalid "native relation absent from rpm-md")

/-! ## The columns of the answer -/

structure SolveDecision where
  requiring : String
  provider : String
  relation : String
  weak : Bool
  providerInstalled : Bool

structure SolveResult where
  actions : List String
  repositories : List String
  kinds : List String
  obsoletes : List (Option String)
  requestedSpecs : List (Option String)
  requestedRelationKinds : List Bool
  satisfiedSpecs : List String
  decisions : List SolveDecision

structure NativeAction where
  kind : String
  repository : String
  nevra : String
  oldNevra : Option String
  installedInstance : Option UInt64
  installedHeaderSha256 : Option String
  requestedSpec : Option PackageSpec
  requestedRelation : Bool
  provenance : Option ActionProvenance
  transactionCounterpartNevra : Option String

structure NativeDecision where
  requiringNevra : String
  requiringRepo : String
  requirement : Relation
  kind : DependencyKind
  providerNevra : String
  providerRepo : String
  providerInstalled : Bool

structure NativeSolveOutput where
  sourceTranscriptSha256 : String
  actions : List NativeAction
  decisions : List NativeDecision
  satisfiedSpecs : List PackageSpec

/-- The repository of the installed packages. -/
def systemRepository : String := "@System"

namespace SolveResult

variable (result : SolveResult)

def columnsAgree : Bool :=
  result.actions.length = result.repositories.length &&
    result.actions.length = result.kinds.length &&
    result.actions.length = result.obsoletes.length &&
    result.actions.length = result.requestedSpecs.length &&
    result.actions.length = result.requestedRelationKinds.length

/-- The columns side by side: NEVRA, repository, kind, counterpart, selector, relation. -/
def rows : List (((((String × String) × String) × Option String) × Option String) × Bool) :=
  ((((result.actions.zip result.repositories).zip result.kinds).zip result.obsoletes).zip
    result.requestedSpecs).zip result.requestedRelationKinds

end SolveResult

/-- The selector of a row. -/
def rowSpec : Option String → Except PlanError (Option PackageSpec)
  | none => .ok none
  | some text => ((PackageSpec.parse text).map some).mapError fun _ =>
      .invalid "native requested selector is invalid"

/-- The action of one row. -/
def rowAction :
    ((((String × String) × String) × Option String) × Option String) × Bool →
    Except PlanError NativeAction
  | (((((nevra, repository), kind), counterpart), spec), relation) => do
    let requestedSpec ← rowSpec spec
    return ⟨kind, repository, nevra, none, none, none, requestedSpec, relation, none, counterpart⟩

/-- The repository of each NEVRA that comes from one. -/
def repositoryIdentities : List (String × String) → List (String × String) →
    Except PlanError (List (String × String))
  | identities, [] => .ok identities
  | identities, (nevra, repository) :: rest => do
    if repository = systemRepository then repositoryIdentities identities rest
    else
      refuseIf (identities.any fun e => e.1 = nevra) (.duplicateAction nevra)
      repositoryIdentities (identities ++ [(nevra, repository)]) rest

/-! ## Pairing old and new actions -/

def uniqueInstalled (nevra : String) (inventory : InstalledInventory) :
    Except PlanError InstalledPackage :=
  match inventory.packages.filter (installedNevra · = nevra) with
  | [] => .error (.installedMissing nevra)
  | [p] => .ok p
  | _ => .error (.ambiguousInstalled nevra)

/-- The first loop of `pair_actions`. -/
def bindInstalled (inventory : InstalledInventory) (a : NativeAction) :
    Except PlanError NativeAction :=
  if a.repository = systemRepository then do
    let installed ← uniqueInstalled a.nevra inventory
    return { a with
      oldNevra := some a.nevra
      installedInstance := some installed.dbInstance
      installedHeaderSha256 := some installed.immutableHeaderSha256.asStr }
  else .ok a

/-- The kind of the old action that belongs to a new one. -/
def oldKindOf (kind : String) : Option String :=
  [("upgrade", "upgraded"), ("downgrade", "downgraded"), ("reinstall", "reinstalled"),
    ("change", "changed"), ("obsoletes", "obsoleted")].lookup kind

/-- The kinds of the old actions whose new one takes their place in the plan. -/
def replacedKinds : List String := ["upgraded", "downgraded", "reinstalled", "changed"]

structure Pairing where
  rows : List NativeAction
  paired : List Nat

/-- The row `old` is the old side of `new`. -/
def isOldSide (new : NativeAction) (oldKind name : String) (old : NativeAction) : Bool :=
  old.kind = oldKind && old.repository = systemRepository &&
    (old.transactionCounterpartNevra = some new.nevra ||
      new.transactionCounterpartNevra = some old.nevra) &&
    (oldKind = "obsoleted" || nevraName old.nevra = .ok name)

def parentText (a : NativeAction) : String := a.repository ++ ":" ++ a.nevra

/-- An obsoleted row becomes an erasure on account of the parent. -/
def NativeAction.obsoletedFor (parent : String) (a : NativeAction) : NativeAction :=
  { a with kind := "erase", provenance := some (.obsoletedBy parent) }

/-- The new row takes over the installed package of the old one. -/
def NativeAction.takeOver (old a : NativeAction) : NativeAction :=
  { a with
    oldNevra := some old.nevra
    installedInstance := old.installedInstance
    installedHeaderSha256 := old.installedHeaderSha256 }

/-- The body of the loop over the matches of the row `index`. -/
def pairOld (index : Nat) (oldKind parent : String) (s : Pairing) (old : Nat) :
    Except PlanError Pairing :=
  match s.rows[old]? with
  | none => .ok s
  | some row => do
    refuseIf (old ∈ s.paired) (.ambiguousInstalled row.nevra)
    let rows := if oldKind = "obsoleted" then s.rows.modify old (NativeAction.obsoletedFor parent)
      else s.rows.modify index (NativeAction.takeOver row)
    return ⟨rows, old :: s.paired⟩

def matchesOf (rows : List NativeAction) (new : NativeAction) (oldKind name : String) : List Nat :=
  (List.range rows.length).filter fun i => rows[i]?.any (isOldSide new oldKind name)

/-- The body of the loop over the new actions. -/
def pairIndex (s : Pairing) (index : Nat) : Except PlanError Pairing :=
  match s.rows[index]? with
  | none => .ok s
  | some new =>
    match oldKindOf new.kind with
    | none => .ok s
    | some oldKind => do
      let name ← nevraName new.nevra
      let found := matchesOf s.rows new oldKind name
      refuseIf (found = []) (.installedMissing name)
      refuseIf (oldKind ∈ replacedKinds ∧ found.length ≠ 1) (.ambiguousInstalled name)
      found.foldlM (pairOld index oldKind (parentText new)) s

def activeKinds : List String :=
  ["install", "upgrade", "downgrade", "reinstall", "change", "obsoletes"]

/-- The body of the loop over the obsoleted actions that are left. -/
def pairObsoleted (s : Pairing) (old : Nat) : Except PlanError Pairing :=
  match s.rows[old]? with
  | none => .ok s
  | some row =>
    if row.kind ≠ "obsoleted" ∨ old ∈ s.paired then .ok s
    else do
      let counterpart ← okOr row.transactionCounterpartNevra (.unpairedNativeOld row.nevra)
      let found := s.rows.filter fun item => item.repository ≠ systemRepository &&
        item.nevra = counterpart && item.kind ∈ activeKinds
      match found with
      | [active] =>
        return ⟨s.rows.modify old (NativeAction.obsoletedFor (parentText active)), old :: s.paired⟩
      | _ => .error (.unpairedNativeOld ("identity=" ++ row.nevra ++ " counterpart=" ++ counterpart ++
          " active_matches=" ++ found.length.repr))

/-- The last check of `pair_actions`, of one row. -/
def checkPaired (s : Pairing) (index : Nat) : Except PlanError Unit :=
  match s.rows[index]? with
  | none => .ok ()
  | some row =>
    refuseIf ((row.kind ∈ replacedKinds ∨ row.kind = "obsoleted") ∧ index ∉ s.paired)
      (.unpairedNativeOld ("kind=" ++ row.kind ++ " identity=" ++ row.nevra ++ " counterpart=" ++
        row.transactionCounterpartNevra.getD "none"))

def pairActions (raw : List NativeAction) (inventory : InstalledInventory) :
    Except PlanError (List NativeAction) := do
  let rows ← raw.mapM (bindInstalled inventory)
  let s ← (List.range rows.length).foldlM pairIndex ⟨rows, []⟩
  let s ← (List.range rows.length).foldlM pairObsoleted s
  forM (List.range rows.length) (checkPaired s)
  return s.rows.filter (·.kind ∉ replacedKinds)

/-! ## Reading the answer -/

/-- The evidence about the two sides of a decision; an installed provider has none. -/
def decisionEvidence (metadata : List (String × PackageEvidence))
    (requiringRepo requiring providerRepo provider : String) (providerInstalled : Bool) :
    Except PlanError (PackageEvidence × Option PackageEvidence) := do
  let package ← okOr (PackageEvidence.find metadata requiringRepo requiring)
    (.invalid "native requiring identity absent from rpm-md")
  if providerInstalled then return (package, none)
  else
    let provider ← okOr (PackageEvidence.find metadata providerRepo provider)
      (.invalid "native provider identity absent from rpm-md")
    return (package, some provider)

/-- The repositories of the two sides. -/
def decisionRepositories (identities : List (String × String)) (item : SolveDecision) :
    Except PlanError (String × String) := do
  let requiringRepo ← okOr (identities.lookup item.requiring) (.missingParent item.requiring)
  if item.providerInstalled then return (requiringRepo, systemRepository)
  else
    let providerRepo ← okOr (identities.lookup item.provider) (.unresolved item.provider)
    return (requiringRepo, providerRepo)

def nativeDecision (identities : List (String × String))
    (metadata : List (String × PackageEvidence)) (item : SolveDecision) :
    Except PlanError NativeDecision := do
  let repositories ← decisionRepositories identities item
  let evidence ← decisionEvidence metadata repositories.1 item.requiring repositories.2 item.provider
    item.providerInstalled
  let requirement ← decisionRequirement evidence.1 evidence.2 item.weak item.relation
  return ⟨item.requiring, repositories.1, requirement, if item.weak then .weak else .strong,
    item.provider, repositories.2, item.providerInstalled⟩

namespace NativeSolveOutput

def fromNativeEvidence (result : SolveResult) (sourceTranscriptSha256 : String)
    (metadata : List (String × PackageEvidence)) (inventory : InstalledInventory) :
    Except PlanError NativeSolveOutput := do
  refuseIf (!result.columnsAgree) (.invalid "native action columns differ")
  let identities ← repositoryIdentities [] (result.actions.zip result.repositories)
  let raw ← result.rows.mapM rowAction
  let actions ← pairActions raw inventory
  let decisions ← result.decisions.mapM (nativeDecision identities metadata)
  let satisfiedSpecs ← (result.satisfiedSpecs.mapM PackageSpec.parse).mapError fun _ =>
    .invalid "native satisfied selector is invalid"
  return ⟨sourceTranscriptSha256, actions, decisions, satisfiedSpecs⟩

def fromNative (result : SolveResult) (sourceTranscriptSha256 : String)
    (metadata : List (String × CompletePackage)) (inventory : InstalledInventory) :
    Except PlanError NativeSolveOutput :=
  fromNativeEvidence result sourceTranscriptSha256
    (metadata.map fun (repository, package) => (repository, .complete package)) inventory

def fromNativeCompact (result : SolveResult) (sourceTranscriptSha256 : String)
    (metadata : List (String × NativePackageEvidence)) (inventory : InstalledInventory) :
    Except PlanError NativeSolveOutput :=
  fromNativeEvidence result sourceTranscriptSha256
    (metadata.map fun (repository, package) => (repository, .compact package)) inventory

end NativeSolveOutput

/-! ## Resolving the actions -/

def exactInstalled (action : NativeAction) (inventory : InstalledInventory) :
    Except PlanError InstalledPackage := do
  let nevra := action.oldNevra.getD action.nevra
  let dbInstance ← okOr action.installedInstance (.invalid "native old action missing instance")
  let header ← okOr action.installedHeaderSha256 (.invalid "native old action missing header")
  let item ← (inventory.eraseTarget dbInstance header).mapError fun _ => .installedMissing nevra
  refuseIf (installedNevra item ≠ nevra) (.installedMissing nevra)
  return item

/-- What `action_identity` returns. -/
structure ResolvedIdentity where
  operation : ResolvedOperation
  name : String
  dbInstance : Option UInt64
  header : Option String
  vendor : Option String

/-- The identity of an operation on the installed package. -/
def ResolvedIdentity.consuming (operation : ResolvedOperation) (name : String)
    (old : InstalledPackage) : ResolvedIdentity :=
  ⟨operation, name, some old.dbInstance, some old.immutableHeaderSha256.asStr, some old.vendor⟩

/-- The arms of `action_identity` for replacements. -/
def replacementIdentity (operation : ResolvedOperation) (missing : String) (action : NativeAction)
    (candidate : Option CandidatePackage) (inventory : InstalledInventory) :
    Except PlanError ResolvedIdentity := do
  let value ← okOr candidate (.invalid missing)
  let old ← exactInstalled action inventory
  return .consuming operation value.name old

/-- `action_identity`. -/
def nativeActionIdentity (action : NativeAction) (candidate : Option CandidatePackage)
    (inventory : InstalledInventory) : Except PlanError ResolvedIdentity :=
  if action.kind = "install" ∨ action.kind = "obsoletes" then do
    let value ← okOr candidate (.invalid "native install missing exact candidate")
    return ⟨.install, value.name, none, none, none⟩
  else if action.kind = "upgrade" then
    replacementIdentity .upgrade "native upgrade missing exact candidate" action candidate inventory
  else if action.kind = "downgrade" then
    replacementIdentity .downgrade "native downgrade missing exact candidate" action candidate
      inventory
  else if action.kind = "reinstall" ∨ action.kind = "change" then
    replacementIdentity .reinstall "native reinstall missing exact candidate" action candidate
      inventory
  else if action.kind = "erase" ∨ action.kind = "obsoleted" then do
    let old ← exactInstalled action inventory
    return .consuming .remove old.name old
  else .error (.conflictingAction action.nevra)

/-- The loop over the selectors of the actions, with those assigned so far. -/
def assignedSpecs (expected : List String) : List String → List NativeAction →
    Except PlanError (List String)
  | assigned, [] => .ok assigned
  | assigned, a :: as => do
    refuseIf (a.requestedRelation ∧ a.requestedSpec.isNone)
      (.invalid "native relation selector is missing")
    match a.requestedSpec with
    | none => assignedSpecs expected assigned as
    | some spec =>
      refuseIf (spec.asStr ∉ expected) (.invalid "native selector is not in requested intent")
      refuseIf (spec.asStr ∈ assigned) (.invalid "native selector provenance is duplicated")
      assignedSpecs expected (spec.asStr :: assigned) as

/-- The loop over the satisfied selectors. -/
def satisfiedSelectors (expected assigned : List String) : List String → List PackageSpec →
    Except PlanError (List String)
  | satisfied, [] => .ok satisfied
  | satisfied, spec :: specs => do
    refuseIf (spec.asStr ∉ expected)
      (.invalid "native satisfied selector is not in requested intent")
    refuseIf (spec.asStr ∈ assigned ∨ spec.asStr ∈ satisfied)
      (.invalid "native selector provenance is duplicated")
    satisfiedSelectors expected assigned (spec.asStr :: satisfied) specs

/-- The candidate of a repository with the NEVRA; the later one if there are two. -/
def findCandidate (candidates : List CandidatePackage) (repository nevra : String) :
    Option CandidatePackage :=
  collected (candidates.map fun c => ((c.repoId, fullNevra c), c)) (repository, nevra)

/-- The sides of a decision are actions of the answer, or the provider is installed. -/
def checkSides (actions : List (String × String)) (inventory : InstalledInventory)
    (d : NativeDecision) : Except PlanError Unit := do
  refuseIf ((d.requiringNevra, d.requiringRepo) ∉ actions) (.missingParent d.requiringNevra)
  refuseIf (!d.providerInstalled ∧ (d.providerNevra, d.providerRepo) ∉ actions)
    (.unresolved d.requiringNevra)
  if d.providerInstalled then
    refuseIf (d.providerRepo ≠ systemRepository) (.invalid "installed provider repository differs")
    let _ ← uniqueInstalled d.providerNevra inventory
    return ()
  else
    refuseIf (d.providerRepo = systemRepository) (.invalid "action provider marked as system")

/-- The relation is the one that the evidence has under its text. -/
def checkRequirement (metadata : List (String × PackageEvidence)) (d : NativeDecision) :
    Except PlanError Unit := do
  let evidence ← decisionEvidence metadata d.requiringRepo d.requiringNevra d.providerRepo
    d.providerNevra d.providerInstalled
  let requirement ← decisionRequirement evidence.1 evidence.2 (d.kind = .weak)
    (relationText d.requirement)
  refuseIf (requirement ≠ d.requirement) (.invalid "native decision relation differs from rpm-md")

/-- The body of the loop in `validate_decisions`. -/
def checkDecision (actions : List (String × String)) (metadata : List (String × PackageEvidence))
    (inventory : InstalledInventory) (d : NativeDecision) : Except PlanError Unit := do
  checkSides actions inventory d
  checkRequirement metadata d

namespace NativeSolveOutput

variable (output : NativeSolveOutput)

/-- The decisions that made the action necessary, as edges to their packages. -/
def edgesOf (action : NativeAction) : Except PlanError (List DependencyEdge) :=
  (output.decisions.filter fun d => !d.providerInstalled && d.providerNevra = action.nevra &&
    d.providerRepo = action.repository &&
    (d.requiringNevra ≠ d.providerNevra || d.requiringRepo ≠ d.providerRepo)).mapM fun d => do
      return ⟨← nevraName d.requiringNevra, d.kind⟩

def resolveAction (candidates : List CandidatePackage) (inventory : InstalledInventory)
    (noneExpected : Bool) (action : NativeAction) : Except PlanError ResolvedAction := do
  let candidate := findCandidate candidates action.repository action.nevra
  let identity ← nativeActionIdentity action candidate inventory
  let edges ← output.edgesOf action
  return {
    operation := identity.operation
    requested := action.requestedSpec.isSome || (noneExpected && (identity.operation = .upgrade ||
      identity.operation = .downgrade || identity.operation = .reinstall))
    requestedSpec := action.requestedSpec
    requestedRelation := action.requestedRelation
    name := identity.name
    candidate := candidate
    installedInstance := identity.dbInstance
    installedHeaderSha256 := identity.header
    installedVendor := identity.vendor
    dependencyEdges := edges
    requiredByRemaining := []
    unresolvedDependencies := []
    provenance := action.provenance
    introducedByRequested := false
    solverRule := "libsolv typed causal decision" }

def intoResolvedEvidence (requested : List String) (candidates : List CandidatePackage)
    (metadata : List (String × PackageEvidence)) (inventory : InstalledInventory) :
    Except PlanError (List ResolvedAction) := do
  refuseIf (¬ (output.sourceTranscriptSha256.utf8ByteSize = 64 ∧
      output.sourceTranscriptSha256.toList.all Core.isAsciiHexdigit))
    (.invalid "invalid native transcript digest")
  let expected ← (requested.mapM fun value => (PackageSpec.parse value).map (·.asStr)).mapError
    fun _ => .invalid "requested selector is invalid"
  refuseIf (¬ expected.Nodup) (.invalid "requested selector is duplicated")
  let actionIds := output.actions.map fun a => (a.nevra, a.repository)
  refuseIf (¬ actionIds.Nodup) (.duplicateAction "native identity")
  let assigned ← assignedSpecs expected [] output.actions
  let satisfied ← satisfiedSelectors expected assigned [] output.satisfiedSpecs
  refuseIf (assigned.length + satisfied.length ≠ expected.length)
    (.invalid "native selector provenance is missing")
  forM output.decisions (checkDecision actionIds metadata inventory)
  output.actions.mapM (output.resolveAction candidates inventory (expected = []))

def intoResolved (requested : List String) (candidates : List CandidatePackage)
    (metadata : List (String × CompletePackage)) (inventory : InstalledInventory) :
    Except PlanError (List ResolvedAction) :=
  output.intoResolvedEvidence requested candidates
    (metadata.map fun (repository, package) => (repository, .complete package)) inventory

def intoResolvedCompact (requested : List String) (candidates : List CandidatePackage)
    (metadata : List (String × NativePackageEvidence)) (inventory : InstalledInventory) :
    Except PlanError (List ResolvedAction) :=
  output.intoResolvedEvidence requested candidates
    (metadata.map fun (repository, package) => (repository, .compact package)) inventory

end NativeSolveOutput

end Dnfast.Solver
