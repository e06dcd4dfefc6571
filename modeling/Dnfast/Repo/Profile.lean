import Dnfast.Repo.Expire

/-! # The profile

`dnfast-repo`, `profile.rs`: the sections of a repository file, read strictly. -/

namespace Dnfast.Repo

structure RepoConfig where
  id : String
  name : Option String := none
  enabled : Bool := true
  baseurl : List String := []
  metalink : Option String := none
  mirrorlist : Option String := none
  priority : UInt16 := 99
  cost : UInt32 := 1000
  skipIfUnavailable : Bool := false
  metadataExpire : MetadataExpire := .afterSeconds 172800
  proxy : Option String := none
  sslverify : Bool := true
  gpgcheck : Bool := true
  pkgGpgcheck : Bool := true
  repoGpgcheck : Bool := false
  excludepkgs : List String
  includepkgs : List String
  gpgkey : List String := []
  allowedFingerprints : List String := []
  keyBundleDigest : Option (List UInt8) := none
  deriving DecidableEq

structure MutationProfile where
  main : MainConfig
  repositories : List RepoConfig

def RepoConfig.new (id : String) (main : MainConfig) : RepoConfig :=
  { id, excludepkgs := main.excludepkgs, includepkgs := main.includepkgs }

/-! ## Settings -/

def rpmMdRepositoryType (value : String) : Bool :=
  value ∈ ["rpm", "rpm-md", "repomd", "rpmmd", "yum", "YUM"]

def nonempty (value : String) : Option String := if value = "" then none else some value

/-- The proxy has a user and a password. -/
def authenticatedProxy (value : String) : Bool :=
  let authority := match List.splitOnce "://".toList value.toList with
    | some (_, authority) => authority
    | none => value.toList
  '@' ∈ authority.takeWhile (· ≠ '/')

def resetOrAppendChecked (target values : List String) : List String :=
  if values = [] then [] else target ++ values

section
variable (path : String) (line : Nat)

/-- What cannot be read is refused at the line. -/
def refused {α : Type} (message : String) : Except ExpireFailure α :=
  .error (.refused ⟨path, line, message⟩)

def booleanOf (value : String) : Except ExpireFailure Bool :=
  (boolean path line value).mapError .refused

/-- A check that may not be switched off. -/
def keptOn (key value : String) : Except ExpireFailure Unit := do
  let on ← booleanOf path line value
  if on then return () else refused path line ("rejected mutation setting: " ++ key)

def uniqueWords (value : String) : Except ExpireFailure (List String) :=
  if (words value).Nodup then .ok (words value) else refused path line "duplicate gpgkey path"

def isFingerprint (item : String) : Bool :=
  item.utf8ByteSize == 40 && item.toList.all Core.isAsciiHexdigit

def fingerprints (value : String) : Except ExpireFailure (List String) :=
  if (words value).all isFingerprint then .ok (words value)
  else refused path line "invalid primary certificate fingerprint"

def assignRepo (repo : RepoConfig) (key value : String) : Except ExpireFailure RepoConfig :=
  match key with
  | "name" => .ok { repo with name := some value }
  | "type" =>
    if rpmMdRepositoryType value then .ok repo else refused path line "unsupported repository type"
  | "enabled" => do
    let enabled ← booleanOf path line value
    return { repo with enabled }
  | "baseurl" => .ok { repo with baseurl := resetOrAppend repo.baseurl value }
  | "metalink" => .ok { repo with metalink := nonempty value }
  | "mirrorlist" => .ok { repo with mirrorlist := nonempty value }
  | "priority" =>
    match parseUnsigned UInt16.size value with
    | some priority => .ok { repo with priority := UInt16.ofNat priority }
    | none => refused path line "invalid priority"
  | "cost" =>
    match parseUnsigned UInt32.size value with
    | some cost => .ok { repo with cost := UInt32.ofNat cost }
    | none => refused path line "invalid cost"
  | "skip_if_unavailable" => do
    let skipIfUnavailable ← booleanOf path line value
    return { repo with skipIfUnavailable }
  | "metadata_expire" => do
    let metadataExpire ← parseMetadataExpire path line value
    return { repo with metadataExpire }
  | "countme" =>
    if value = "0" ∨ value = "1" then .ok repo else refused path line "invalid countme"
  | "enabled_metadata" => do
    let _ ← booleanOf path line value
    return repo
  | "sslverify" => do
    keptOn path line key value
    return { repo with sslverify := true }
  | "gpgcheck" => do
    keptOn path line key value
    return { repo with gpgcheck := true }
  | "pkg_gpgcheck" => do
    keptOn path line key value
    return { repo with pkgGpgcheck := true }
  | "repo_gpgcheck" => do
    let repoGpgcheck ← booleanOf path line value
    return { repo with repoGpgcheck }
  | "proxy" =>
    if authenticatedProxy value then refused path line ("rejected mutation setting: " ++ key)
    else .ok { repo with proxy := if value = "" ∨ value = "_none_" then none else some value }
  | "excludepkgs" => .ok { repo with excludepkgs := resetOrAppend repo.excludepkgs value }
  | "includepkgs" => .ok { repo with includepkgs := resetOrAppend repo.includepkgs value }
  | "gpgkey" => do
    let values ← uniqueWords path line value
    return { repo with gpgkey := resetOrAppendChecked repo.gpgkey values }
  | "dnfast_allowed_fingerprints" => do
    let values ← fingerprints path line value
    return { repo with
      allowedFingerprints := resetOrAppendChecked repo.allowedFingerprints values }
  | _ => refused path line ("unsupported mutation key: " ++ key)

end

/-! ## Sections -/

def validId (id : String) : Bool :=
  id ≠ "" && id.utf8ByteSize ≤ 255 &&
    id.toList.all fun c => isAsciiAlphanumeric c || c ∈ ['_', '.', ':', '-']

/-- The repository has a source. -/
def RepoConfig.hasSource (repo : RepoConfig) : Bool :=
  repo.baseurl ≠ [] || repo.metalink.isSome || repo.mirrorlist.isSome

/-- The name in `[name]`. -/
def sectionName (line : List Char) : List Char := trim (line.tail.dropLast)

/-- The parser between two lines. -/
structure ProfileState where
  repositories : List RepoConfig := []
  current : Option RepoConfig := none
  seenIds : List String := []
  seenKeys : List String := []

section
variable (path : String) (main : MainConfig)

def finish (line : Nat) (repo : RepoConfig) (output : List RepoConfig) :
    Except ExpireFailure (List RepoConfig) :=
  if repo.enabled && !repo.hasSource then refused path line "enabled repository has no source"
  else .ok (output ++ [repo])

def finishCurrent (line : Nat) (s : ProfileState) : Except ExpireFailure (List RepoConfig) :=
  match s.current with
  | some repo => finish path line repo s.repositories
  | none => .ok s.repositories

def profileSection (number : Nat) (line : List Char) (s : ProfileState) :
    Except ExpireFailure ProfileState := do
  Except.refuseIf (line.getLast? ≠ some ']') (.refused ⟨path, number, "malformed repository section"⟩)
  let repositories ← finishCurrent path number s
  let id := String.ofList (sectionName line)
  Except.refuseIf (!validId id) (.refused ⟨path, number, "invalid repository id"⟩)
  Except.refuseIf (id ∈ s.seenIds) (.refused ⟨path, number, "duplicate repository id"⟩)
  Except.refuseIf (s.seenIds.length + 1 > 1024) (.refused ⟨path, number, "repository limit exceeds 1024"⟩)
  return ⟨repositories, some (.new id main), id :: s.seenIds, []⟩

def profileKey (number : Nat) (line : List Char) (s : ProfileState) :
    Except ExpireFailure ProfileState := do
  let repo ← Except.okOr s.current (.refused ⟨path, number, "key outside repository section"⟩)
  let (key, value) ← (pair path number line).mapError ExpireFailure.refused
  Except.refuseIf (key ∈ s.seenKeys) (.refused ⟨path, number, "duplicate mutation key: " ++ key⟩)
  let repo ← assignRepo path number repo key value
  return { s with current := some repo, seenKeys := key :: s.seenKeys }

def profileLine (s : ProfileState) (raw : List Char × Nat) : Except ExpireFailure ProfileState :=
  let line := trim raw.1
  if isComment line then .ok s
  else if line.head? = some '[' then profileSection path main (raw.2 + 1) line s
  else profileKey path (raw.2 + 1) line s

def parseRepoProfile (input : String) : Except ExpireFailure MutationProfile := do
  (checkLimits path input).mapError ExpireFailure.refused
  let s ← (lines input).zipIdx.foldlM (profileLine path main) {}
  let repositories ← finishCurrent path (lines input).length s
  return ⟨main, repositories⟩

end

end Dnfast.Repo
