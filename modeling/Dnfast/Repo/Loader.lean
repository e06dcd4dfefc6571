import Dnfast.Data.Forall2
import Dnfast.Data.Slice
import Dnfast.Repo.KeyBundle
import Dnfast.Repo.Parser

/-! # The profile loader

`dnfast-repo`, `source_loader.rs`, and `expand_variables` of `profile.rs`: the repository files are
read, the variables put in, and every enabled repository is bound to its keys. The files are given by
their texts; the main configuration and the variables have been read. -/

namespace Dnfast.Repo

open Except (refuseIf okOr)

/-- How loading ends without a profile. -/
inductive LoadFailure where
  | profile (error : ExpireFailure)
  | panic
  deriving DecidableEq, Repr

def refusedLoad (error : MutationError) : LoadFailure := .profile (.refused error)

/-! ## Files -/

def addRepository (path : String) (output : List RepoConfig) (repo : RepoConfig) :
    Except LoadFailure (List RepoConfig) := do
  refuseIf (repo.id ∈ output.map (·.id))
    (refusedLoad ⟨path, 0, "duplicate repository id across files"⟩)
  refuseIf (output.length + 1 > 1024) (refusedLoad ⟨path, 0, "repository limit exceeds 1024"⟩)
  return output ++ [repo]

def loadFile (main : MainConfig) (output : List RepoConfig) (file : String × String) :
    Except LoadFailure (List RepoConfig) := do
  let parsed ← (parseRepoProfile file.1 main file.2).mapError LoadFailure.profile
  parsed.repositories.foldlM (addRepository file.1) output

/-- The sections of all files, as they are written. -/
def loadFiles (main : MainConfig) (files : List (String × String)) :
    Except LoadFailure (List RepoConfig) :=
  files.foldlM (loadFile main) []

/-! ## Variables -/

def VariableError.toString : VariableError → String
  | .unresolvedVariable name => "unresolved repository variable: " ++ name
  | .malformedVariable value => "malformed repository variable in: " ++ value

/-- `variable_error`. -/
def variableError : Fault VariableError → LoadFailure
  | .error e => refusedLoad ⟨"<variables>", 0, e.toString⟩
  | .panic => .panic

section
variable (vars : Variables)

def expandText (value : String) : Except LoadFailure String :=
  (expand vars value).mapError variableError

def expandOption : Option String → Except LoadFailure (Option String)
  | none => .ok none
  | some value => (expandText vars value).map some

def expandList (values : List String) : Except LoadFailure (List String) :=
  values.mapM (expandText vars)

def expandRepo (repo : RepoConfig) : Except LoadFailure RepoConfig := do
  let name ← expandOption vars repo.name
  let baseurl ← expandList vars repo.baseurl
  let metalink ← expandOption vars repo.metalink
  let mirrorlist ← expandOption vars repo.mirrorlist
  let proxy ← expandOption vars repo.proxy
  let excludepkgs ← expandList vars repo.excludepkgs
  let includepkgs ← expandList vars repo.includepkgs
  let expanded ← expandList vars repo.gpgkey
  let gpgkey ← if repo.enabled then (normalizeGpgkeyLocations expanded).mapError refusedLoad
    else .ok expanded
  return { repo with
    name, baseurl, metalink, mirrorlist, proxy, excludepkgs, includepkgs, gpgkey }

end

/-! ## Trust -/

section
variable (host : KeyHost) (bindFingerprints : Bool)

/-- The fingerprints that the packages of a repository may be signed with. -/
def boundFingerprints (repo : RepoConfig) (bundle : KeyBundle) :
    Except MutationError (List String) :=
  if bindFingerprints ∧ bundle.certificates ≠ [] then do
    let bundled ← primaryCertificateFingerprints host bundle.certificates
    if repo.allowedFingerprints = [] then return bundled
    else
      refuseIf (∃ fingerprint ∈ repo.allowedFingerprints, fingerprint.map Char.toUpper ∉ bundled)
        (keyError "allowed fingerprint is absent from the repository key bundle")
      return repo.allowedFingerprints
  else .ok repo.allowedFingerprints

def bindTrust (repo : RepoConfig) : Except MutationError RepoConfig :=
  if repo.enabled then do
    let bundle ← keyBundleDigest host repo.id repo.gpgkey
    let allowedFingerprints ← boundFingerprints host bindFingerprints repo bundle
    return { repo with allowedFingerprints, keyBundleDigest := some bundle.digest }
  else .ok { repo with keyBundleDigest := none }

variable (vars : Variables) (main : MainConfig)

/-- `load_mutation_profile_owned`. The system's profile is loaded with `bindFingerprints`. -/
def loadMutationProfile (files : List (String × String)) : Except LoadFailure MutationProfile := do
  let sections ← loadFiles main files
  let expanded ← sections.mapM (expandRepo vars)
  let repositories ← (expanded.mapM (bindTrust host bindFingerprints)).mapError refusedLoad
  return ⟨main, repositories⟩

end

end Dnfast.Repo
