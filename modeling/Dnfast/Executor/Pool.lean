import Dnfast.Data.SortDedup
import Dnfast.Data.Split
import Dnfast.Cache.Receipt
import Dnfast.Planning.Integrity
import Dnfast.Solver.Libsolv
import Dnfast.Solver.Plan

/-! # Solving on a resident pool

`dnfast-executor`, `resident.rs`: the pool that the resident planner keeps, and what `solve` does with
it once it is known to be current. libsolv is a parameter (`Outside`): its answers are functions of
what was loaded into the native context and of the question. So are the parsers of module metadata
and of file lists, which read payloads by their digests.

An error keeps the error whose text the source puts into its message. -/

namespace Dnfast.Executor

open Except (okOr refuseIf)
open Core (Action Architecture DomainError Evra InstalledInventory IntentError PackageSpec
  PlanIntegrity SolverPolicy TransactionIntent)
open Native (InventoryError InventorySnapshot NativeError Rpmdb)
open Planning (ModuleState PlanningError PlanningRepository PlanningSnapshot)
open Solver (CandidatePackage CanonicalSolverPlan NativePackageEvidence NativeSolveOutput PlanBuilder
  PlanError SolveOperation SolveResult nevraText systemRepository)

inductive DaemonError where
  | planning (message : String)
  | snapshot (error : PlanningError)
  | inventory (error : InventoryError)
  | native (error : NativeError)
  | cache (error : Cache.CacheError)
  | plan (error : PlanError)
  | domain (error : DomainError)
  | intent (error : IntentError)
  | execution (message : String)
  | noChanges

/-! ## The native context -/

/-- What was loaded for the installed packages: the database itself, or the serialized form that is
bound to a cookie and an inventory. -/
inductive Installed where
  | rpmdb (db : Rpmdb)
  | solv (cookie : String) (inventory : InstalledInventory)

/-- A native context, by what was loaded into it. -/
structure NativeContext where
  architecture : Architecture
  installed : Option Installed
  repositories : List PlanningRepository
  moduleExcludes : List String
  prepared : Bool

def NativeContext.open (architecture : Architecture) : NativeContext :=
  ⟨architecture, none, [], [], false⟩

structure RepositoryPackage where
  name : String
  arch : String
  evr : String
  vendor : String
  packageSize : UInt64
  installedSize : UInt64
  checksumSha256 : String
  location : String
  requires : List String
  recommends : List String
  supplements : List String
  enhances : List String

structure FileProvider where
  repositoryId : String
  packageOrdinal : UInt32
  expectedIdentity : String
  deriving DecidableEq

structure MappedSelector where
  selectorIndex : Nat
  providers : List FileProvider

/-- What libsolv is asked. -/
structure SolveRequest where
  operation : SolveOperation
  names : List String
  weak : Bool
  best : Bool
  mapped : List MappedSelector

/-- libsolv and the parsers, with the crates that the planning library uses. -/
structure Outside where
  lib : Planning.Library
  hasProvider : NativeContext → String → Except NativeError Bool
  packageEvidence : NativeContext → String → UInt32 → Except NativeError RepositoryPackage
  identityEvidence : NativeContext → String → String → Except NativeError RepositoryPackage
  catalogNamed : NativeContext → String → String → Except NativeError (List RepositoryPackage)
  solve : NativeContext → SolveRequest → Except NativeError SolveResult
  /-- `file_providers`: the payloads of a repository are read by their digests. -/
  fileProviders : PlanningRepository → String → Except PlanningError (List UInt32)
  /-- `module_catalog` of the repositories with `artifact_policies`. -/
  artifactPolicies : List PlanningRepository → ModuleState → Architecture →
    Except PlanningError (List (String × Bool))

/-! ## The pool -/

structure CachedResidentSolve where
  action : Action
  packages : List String
  plan : CanonicalSolverPlan

structure ResidentPool where
  snapshot : PlanningSnapshot
  repositoryIds : List String
  integrity : PlanIntegrity
  policy : SolverPolicy
  repositories : List PlanningRepository
  moduleArtifactPolicy : List (String × Bool)
  context : NativeContext
  inventory : InstalledInventory
  rpmdbCookie : String
  rpmdbGeneration : Option Cache.RpmDbVerifiedGeneration
  lastSolve : Option CachedResidentSolve

structure SolvedPlan where
  plan : CanonicalSolverPlan
  integrity : PlanIntegrity
  policy : SolverPolicy
  repositories : List PlanningRepository
  inventory : InstalledInventory
  rpmdbCookie : String

/-- `selected_repositories`: the repositories of the bindings. -/
def selectedRepositories (snapshot : PlanningSnapshot) (integrity : PlanIntegrity) :
    Except DaemonError (List PlanningRepository) :=
  integrity.selectedRepositories.mapM fun binding =>
    okOr (snapshot.payload.allowedRepositories.find? (·.id = binding.id))
      (.planning "root-published repository binding disappeared")

/-! ## Packages as the native context has them -/

/-- `str::parse::<u32>`. -/
def parseU32 (text : List Char) : Option UInt32 :=
  let digits := if text.head? = some '+' then text.tail else text
  let value := digits.foldl (fun value c => 10 * value + (c.toNat - '0'.toNat)) 0
  if digits = [] || !digits.all Char.isDigit || value ≥ 2 ^ 32 then none else some (.ofNat value)

def parseNativeEvr (evr : String) : Except DaemonError (UInt32 × String × String) := do
  let (epoch, versionRelease) := (List.splitOnce [':'] evr.toList).getD (['0'], evr.toList)
  let epoch ← okOr (parseU32 epoch) (.planning "invalid native package epoch")
  let (version, release) ← okOr (versionRelease.rsplitOnce '-')
    (.planning "native package EVR has no release")
  refuseIf (version = [] ∨ release = []) (.planning "native package EVR is incomplete")
  return (epoch, String.ofList version, String.ofList release)

def nativePackageIdentity (package : RepositoryPackage) : Except DaemonError String := do
  let (epoch, version, release) ← parseNativeEvr package.evr
  return nevraText package.name epoch.toNat.repr version release package.arch

/-- The architecture of a candidate. A package for 32 bits is no candidate. -/
def candidateArchitecture (base : Architecture) (arch : String) :
    Except DaemonError (Option Architecture) :=
  if arch = "aarch64" then .ok (some .aarch64)
  else if arch = "x86_64" then .ok (some .x86_64)
  else if arch = "noarch" then .ok (some .noarch)
  else if arch = "i686" ∧ base = .x86_64 then .ok none
  else .error (.planning "root-published metadata has an unsupported architecture")

def residentCandidateFor (repository : PlanningRepository) (base : Architecture)
    (item : RepositoryPackage) : Except DaemonError (Option CandidatePackage) := do
  let (epoch, version, release) ← parseNativeEvr item.evr
  match ← candidateArchitecture base item.arch with
  | none => return none
  | some architecture =>
    refuseIf (!Core.isLowerDigest item.checksumSha256)
      (.planning "native package checksum is not canonical SHA-256")
    return some {
      name := item.name
      evra := ⟨epoch, version, release, architecture⟩
      vendor := if item.vendor = "" then "unknown" else item.vendor
      repoId := repository.id
      priority := repository.priority
      cost := repository.cost
      packageSize := item.packageSize
      installedSize := item.installedSize
      checksumSha256 := item.checksumSha256
      location := item.location
      excluded := false
      modular := false }

/-- `apply_module_artifact_policy`. -/
def applyModuleArtifactPolicy (policies : List (String × Bool)) (c : CandidatePackage) :
    CandidatePackage :=
  match policies.lookup (Solver.fullNevra c) with
  | some excluded => { c with modular := true, excluded }
  | none => c

/-! ## Evidence for an answer -/

section
variable (out : Outside) (pool : ResidentPool)

/-- The actions of the answer that are not about the installed packages, with their repositories. -/
def repositoryActions (result : SolveResult) : List (String × String) :=
  (result.actions.zip result.repositories).filter (·.2 ≠ systemRepository)

/-- The package that the context has under the identity, which must be its own. -/
def evidenceOf (repository identity changed : String) : Except DaemonError RepositoryPackage := do
  let package ← (out.identityEvidence pool.context repository identity).mapError .native
  refuseIf ((← nativePackageIdentity package) ≠ identity) (.planning changed)
  return package

def selectedCandidateEvidence (result : SolveResult) (base : Architecture) :
    Except DaemonError (List CandidatePackage) := do
  let packages ← (repositoryActions result).mapM fun (identity, repository) =>
    evidenceOf out pool repository identity "selected candidate identity changed during extraction"
  let names := (packages.map (·.name)).sortDedup
  let candidates ← pool.repositories.mapM fun repository => names.mapM fun name => do
    let catalog ← (out.catalogNamed pool.context repository.id name).mapError .native
    catalog.mapM (residentCandidateFor repository base)
  return (candidates.flatten.flatten.filterMap id).map
    (applyModuleArtifactPolicy pool.moduleArtifactPolicy)

/-- The identities that a decision of the answer names, with their repositories. -/
def decisionIdentities (actions : List (String × String)) (decision : Solver.SolveDecision) :
    Except DaemonError (List (String ×ₗ String)) := do
  let requiring ← okOr (actions.lookup decision.requiring)
    (.planning "native requiring action has no repository")
  let first := toLex (requiring, decision.requiring)
  if decision.providerInstalled then return [first]
  else
    let provider ← okOr (actions.lookup decision.provider)
      (.planning "native provider action has no repository")
    return [first, toLex (provider, decision.provider)]

def selectedDecisionEvidence (result : SolveResult) :
    Except DaemonError (List (String × NativePackageEvidence)) := do
  let actions := repositoryActions result
  refuseIf (¬ (actions.map Prod.fst).Nodup) (.planning "native action identity is duplicated")
  let selected ← result.decisions.mapM (decisionIdentities actions)
  selected.flatten.sortDedup.mapM fun key => do
    let (repository, identity) := ofLex key
    let package ← evidenceOf out pool repository identity
      "decision evidence ordinal changed identity"
    let (epoch, version, release) ← parseNativeEvr package.evr
    return (repository, {
      name := package.name
      arch := package.arch
      epoch := epoch.toNat.repr
      version := version
      release := release
      requires := package.requires
      recommends := package.recommends
      supplements := package.supplements
      enhances := package.enhances })

/-! ## File selectors -/

def isAbsolute (selector : String) : Bool := selector.toList.head? = some '/'

/-- The providers of one selector, from the ordinals that each repository has for it. -/
def providersOf (ordinals : List (PlanningRepository × List UInt32)) :
    Except DaemonError (List FileProvider) := do
  let providers ← ordinals.mapM fun (repository, ordinals) => ordinals.mapM fun ordinal => do
    let package ← (out.packageEvidence pool.context repository.id ordinal).mapError .native
    return FileProvider.mk repository.id ordinal (← nativePackageIdentity package)
  return (providers.flatten.insertionSort fun a b => toLex (a.repositoryId, a.packageOrdinal.toNat) ≤
    toLex (b.repositoryId, b.packageOrdinal.toNat)).destutter (· ≠ ·)

/-- One selector: an absolute one without a provider in the primary metadata is mapped to the packages
with the file. -/
def mappedSelector (index : Nat) (selector : String)
    (ordinals : Except DaemonError (List (PlanningRepository × List UInt32))) :
    Except DaemonError (Option MappedSelector) := do
  if !isAbsolute selector then return none
  else if ← (out.hasProvider pool.context selector).mapError .native then return none
  else
    let providers ← providersOf out pool (← ordinals)
    return if providers = [] then none else some ⟨index, providers⟩

/-- The ordinals that the repositories have for a selector. -/
def scan (repositories : List PlanningRepository) (selector : String) :
    Except DaemonError (List (PlanningRepository × List UInt32)) :=
  (repositories.mapM fun repository => do
    return (repository, ← out.fileProviders repository selector)).mapError .snapshot

def mappedFileSelectors (names : List String) : Except DaemonError (List MappedSelector) := do
  let mapped ← names.zipIdx.mapM fun (selector, index) =>
    mappedSelector out pool index selector (scan out pool.repositories selector)
  return mapped.filterMap id

/-! ## Solving -/

/-- The answer of libsolv for the action. -/
def nativeSolve (action : Action) (names : List String) (policy : SolverPolicy)
    (mapped : List MappedSelector) : Except DaemonError SolveResult :=
  Except.mapError DaemonError.native <| out.solve pool.context <|
    match action with
    | .install => ⟨.install, names, policy.installWeakDeps, policy.best, mapped⟩
    | .upgrade => ⟨.upgrade, names, false, policy.best, []⟩
    | .downgrade => ⟨.downgrade, names, false, true, []⟩
    | .reinstall => ⟨.reinstall, names, false, true, []⟩
    | .distroSync => ⟨.distroSync, names, false, policy.best, []⟩
    | .remove => ⟨.erase, names, false, false, []⟩
    | .autoremove => ⟨.autoremove, names, false, false, []⟩

def planLifetimeSeconds : Nat := 300

/-- `u64::saturating_add`. -/
def saturatingAdd (a : UInt64) (b : Nat) : UInt64 := .ofNat (min (a.toNat + b) (2 ^ 64 - 1))

def planError (e : PlanError) : DaemonError := if e = .noChanges then .noChanges else .plan e

/-- The plan for an answer of libsolv. -/
def planFor (intent : TransactionIntent) (now : UInt64) (result : SolveResult) :
    Except DaemonError CanonicalSolverPlan := do
  let names := intent.packages.map (·.asStr)
  let candidates ← selectedCandidateEvidence out pool result pool.policy.baseArch
  let metadata ← selectedDecisionEvidence out pool result
  let transcript ← (NativeSolveOutput.fromNativeCompact result pool.integrity.metadataSha256.asStr
    metadata pool.inventory).mapError .plan
  let resolved ← (transcript.intoResolvedCompact names candidates metadata
    pool.inventory).mapError .plan
  let builder : PlanBuilder := {
    intent := intent
    snapshots := pool.integrity
    inventory := pool.inventory
    policy := pool.policy
    candidates := candidates
    expiresAtUnix := saturatingAdd now planLifetimeSeconds }
  (builder.buildWithSatisfied resolved transcript.satisfiedSpecs).mapError planError

end

end Dnfast.Executor
