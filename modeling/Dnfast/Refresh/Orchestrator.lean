import Dnfast.Cache.Publication
import Dnfast.Data.Fallible

/-! # The refresh of a repository

`dnfast-refresh`: `orchestrator.rs`, with `mirrorlist.rs`, `openpgp.rs` and `url_policy.rs`. The
`repomd.xml` of a repository is fetched, authenticated and compared with the current generation, and
what the cache does not have is fetched and published. Every request may be answered by anything: the
transport is a function of the number of the request. -/

namespace Dnfast.Refresh

open Except (refuseIf okOr)
open Core (isLowerDigest isAsciiHexdigit)
open Cache (CacheStore CacheError)
open Metadata (AuxiliaryRecord RepomdRecords)
open Planning (RepomdAuthentication Url)

inductive Source where
  | baseUrl (url : String)
  | metalink (url : String)
  | mirrorlist (url : String)
  deriving DecidableEq

structure RefreshOutcome where
  digest : String
  packages : Nat
  deriving DecidableEq

inductive RefreshError where
  | policy (message : String)
  | transport (message : String)
  | metalink (message : String)
  | metadata (message : String)
  | signature (message : String)
  | cache (message : String)
  deriving DecidableEq

/-- `Debug` of the error. -/
def RefreshError.debug : RefreshError → String
  | policy message => "Policy(" ++ message.quote ++ ")"
  | transport message => "Transport(" ++ message.quote ++ ")"
  | metalink message => "Metalink(" ++ message.quote ++ ")"
  | metadata message => "Metadata(" ++ message.quote ++ ")"
  | signature message => "Signature(" ++ message.quote ++ ")"
  | cache message => "Cache(" ++ message.quote ++ ")"

def RefreshError.text (e : RefreshError) : String := "refresh error: " ++ e.debug

structure RepomdVersion where
  size : UInt64
  sha256 : String
  deriving DecidableEq

structure Metalink where
  versions : List RepomdVersion
  maxConnections : Option UInt32
  /-- The URLs, in the order of preference. -/
  resources : List String

/-- A valid signature, by the certificate and the key that made it. -/
structure GoodSignature where
  primary : String
  signing : String
  deriving DecidableEq

/-- What `MetadataTrust::new` accepts. -/
structure MetadataTrust where
  certificates : List (List UInt8)
  allowedPrimaryFingerprints : List String
  keyBundleSha256 : String
  validAt : UInt64
  some_certificate : certificates ≠ []
  some_allowed : allowedPrimaryFingerprints ≠ []
  valid_allowed : ∀ f ∈ allowedPrimaryFingerprints, RepomdAuthentication.validFingerprint f = true
  valid_bundle : isLowerDigest keyBundleSha256 = true

/-- What the refresh takes from outside: `sequoia-openpgp` checks the signatures of a detached
signature, in layers, and the parser of metalinks reads one. -/
structure Environment where
  cache : Cache.Library
  urlPath : Url → String
  parseMetalink : List UInt8 → Except String Metalink
  verifySignatures : List (List UInt8) → UInt64 → List UInt8 → List UInt8 →
    Except String (List (List (Option GoodSignature)))
  transport : Nat → String → UInt64 → Except RefreshError (List UInt8)

structure RefreshState where
  cache : CacheStore
  /-- How many requests were made. -/
  requests : Nat

abbrev RefreshM := Fallible RefreshState RefreshError

def maxMetalinkBytes : UInt64 := 2 * 1024 * 1024
def maxRepomdBytes : UInt64 := 16 * 1024 * 1024
def maxMirrors : Nat := 32

section
variable (env : Environment)

def get (url : String) (maximumBytes : UInt64) : RefreshM (List UInt8) := fun s =>
  (env.transport s.requests url maximumBytes, { s with requests := s.requests + 1 })

/-- A program of the cache, where nothing fails but what the program refuses. -/
def onCache {α : Type} (m : Cache.Program α) : RefreshM α := fun s =>
  match m.clean s.cache with
  | (.ok a, cache) => (.ok a, { s with cache })
  | (.err e, cache) => (.error (.cache (repr e).pretty), { s with cache })
  | (.crashed, cache) => (.error (.cache "crashed"), { s with cache })

/-! ## URLs -/

/-- `validate` of `url_policy.rs`. -/
def validateUrl (url : String) (allowQuery : Bool) : Except RefreshError Unit := do
  let parsed ← okOr (env.cache.crates.urlParse url)
    (.policy "only HTTPS repository sources are allowed")
  refuseIf (parsed.scheme ≠ "https") (.policy "only HTTPS repository sources are allowed")
  let canonical := parsed.asStr = url ∨ env.urlPath parsed = "/" ∧ parsed.query = none ∧
    parsed.fragment = none ∧ parsed.asStr = url ++ "/"
  refuseIf (parsed.hostStr = none ∨ parsed.username ≠ "" ∨ parsed.password ≠ none ∨
    parsed.fragment ≠ none ∨ (!allowQuery ∧ parsed.query ≠ none) ∨ '\\' ∈ url.toList ∨ ¬ canonical)
    (.policy "unsafe HTTPS repository URL")

def validateHttps (url : String) : Except RefreshError Unit := validateUrl env url false

def validateHttpsEndpoint (url : String) : Except RefreshError Unit := validateUrl env url true

/-- `trim_end_matches('/')`. -/
def trimEndSlashes (url : String) : String :=
  String.ofList (url.toList.reverse.dropWhile (· = '/')).reverse

def repomdUrl (base : String) : String := base ++ "/repodata/repomd.xml"

/-- `artifact_base`. -/
def artifactBase (origin : String) : String :=
  String.ofList (origin.toList.take (origin.toList.length - "/repodata/repomd.xml".toList.length))

def artifactUrl (origin href : String) : Except String String := do
  refuseIf (href = "" ∨ ['/'] <+: href.toList ∨ '\\' ∈ href.toList ∨ '?' ∈ href.toList ∨
    '#' ∈ href.toList ∨ ∃ part ∈ href.toList.splitOn '/', part = [] ∨ part = ['.'] ∨ part = ['.', '.'])
    "invalid repository artifact path"
  return artifactBase origin ++ "/" ++ href

/-- The loop of `mirrorlist::parse` over the lines. -/
def parseMirrors : List (List Char) → List String → Except RefreshError (List String)
  | [], mirrors => .ok mirrors
  | line :: rest, mirrors => do
    let value := Cache.trim line
    if value = [] ∨ ['#'] <+: value then parseMirrors rest mirrors
    else do
      validateHttps env (String.ofList value)
      refuseIf (mirrors.length = maxMirrors) (.policy "too many mirrorlist entries")
      parseMirrors rest (mirrors ++ [trimEndSlashes (String.ofList value)])

def parseMirrorlist (input : List UInt8) : Except RefreshError (List String) := do
  refuseIf (input.length > maxMetalinkBytes.toNat) (.policy "mirrorlist exceeds policy limit")
  let text ← okOr (String.ofBytes? input) (.policy "mirrorlist is not UTF-8")
  let mirrors ← parseMirrors env (text.toList.splitOn '\n') []
  refuseIf (mirrors = []) (.policy "mirrorlist contains no HTTPS mirrors")
  return mirrors

/-! ## Authentication -/

def Metalink.accepts (m : Metalink) (bytes : List UInt8) : Bool :=
  m.versions.any fun version =>
    bytes.length = version.size.toNat && Cache.sha256 env.cache bytes = version.sha256

/-- `Helper::check`: the first valid signature of an allowed certificate. -/
def checkSignatures (allowed : List String) (layers : List (List (Option GoodSignature))) :
    Option GoodSignature :=
  (layers.flatten.filterMap id).find? (·.primary ∈ allowed)

/-- `RepomdAuthentication::openpgp`. -/
def openPgpRecord (primary signing bundle signature : String) :
    Except String RepomdAuthentication := do
  let record := .openPgp (primary.map Char.toUpper) (signing.map Char.toUpper)
    (bundle.map Char.toLower) (signature.map Char.toLower)
  RepomdAuthentication.validate record
  return record

def verifyRepomd (trust : MetadataTrust) (signature repomd : List UInt8) :
    Except RefreshError RepomdAuthentication := do
  refuseIf (signature = []) (.signature "repomd detached signature is empty")
  let layers ← (env.verifySignatures trust.certificates trust.validAt signature repomd).mapError
    .signature
  let good ← okOr (checkSignatures trust.allowedPrimaryFingerprints layers) (.signature
    "repomd has no valid signature from an allowed primary certificate")
  (openPgpRecord good.primary good.signing trust.keyBundleSha256
    (Cache.sha256 env.cache signature)).mapError .signature

def authenticate (metadataTrust : Option MetadataTrust) (url : String) (repomd : List UInt8) :
    RefreshM RepomdAuthentication :=
  match metadataTrust with
  | none => pure .transportOnly
  | some trust => do
    let signature ← get env (url ++ ".asc") (1024 * 1024)
    Fallible.lift (verifyRepomd env trust signature repomd)

/-! ## A generation -/

def fetchAuxiliary (origin : String) (record : AuxiliaryRecord) : RefreshM Unit := do
  let url ← Fallible.lift ((artifactUrl origin record.href).mapError .policy)
  let bytes ← get env url record.size
  let _ ← onCache (Cache.publishAuxiliary env.cache record bytes)

def ensureAuxiliary (origin : String) : Option AuxiliaryRecord → RefreshM Unit
  | none => pure ()
  | some record => fun s =>
    match Cache.openAuxiliary env.cache s.cache record with
    | .ok _ => (.ok (), s)
    | .error (.missingSnapshot _) => fetchAuxiliary env origin record s
    | .error e => (.error (.cache (repr e).pretty), s)

def ensureAuxiliaries (origin : String) (records : RepomdRecords) : RefreshM Unit := do
  ensureAuxiliary env origin records.group
  ensureAuxiliary env origin records.modules
  ensureAuxiliary env origin records.updateinfo

/-- The download of primary and filelists. Both are requested when they are fetched in parallel. -/
def fetchArtifacts (parallel : Bool) (origin : String) (records : RepomdRecords) :
    RefreshM (List UInt8 × List UInt8) := do
  let primaryUrl ← Fallible.lift ((artifactUrl origin records.primary.href).mapError .policy)
  let filelistsUrl ← Fallible.lift ((artifactUrl origin records.filelists.href).mapError .policy)
  if parallel then
    let primary ← Fallible.attempt (get env primaryUrl records.primary.size)
    let filelists ← Fallible.attempt (get env filelistsUrl records.filelists.size)
    let primary ← Fallible.lift primary
    let filelists ← Fallible.lift filelists
    return (primary, filelists)
  else
    let primary ← get env primaryUrl records.primary.size
    let filelists ← get env filelistsUrl records.filelists.size
    return (primary, filelists)

def finishGeneration (repository url : String) (parallelArtifacts : Bool) (repomd : List UInt8)
    (metadataTrust : Option MetadataTrust) : RefreshM RefreshOutcome := do
  let authentication ← authenticate env metadataTrust url repomd
  let records ← Fallible.lift ((env.cache.parsers.parseRepomdRecords repomd).mapError .metadata)
  let origin ← Fallible.lift ((Planning.selectedOrigin env.cache.crates url).mapError .policy)
  match ← onCache (Cache.reuseCurrentVerifiedComplete env.cache repository repomd origin
      authentication) with
  | some snapshot => do
    ensureAuxiliaries env origin records
    return ⟨snapshot.digest, snapshot.packages.length⟩
  | none => do
    let (primary, filelists) ← fetchArtifacts env parallelArtifacts origin records
    ensureAuxiliaries env origin records
    let snapshot ← onCache (Cache.publishVerifiedCompleteFast env.cache repository repomd primary
      filelists (some origin) authentication)
    return ⟨snapshot.digest, snapshot.packages.length⟩

/-! ## The sources -/

/-- The loop over the resources of a metalink. -/
def tryResources (repository : String) (metalink : Metalink) (metadataTrust : Option MetadataTrust) :
    List String → (lastError lastVerificationError : Option RefreshError) → RefreshM RefreshOutcome
  | [], lastError, lastVerificationError => Fallible.throw ((lastVerificationError.or lastError).getD
      (.metalink "all mirrors failed verification"))
  | url :: rest, lastError, lastVerificationError => do
    match ← Fallible.attempt (get env url maxRepomdBytes) with
    | .error e => tryResources repository metalink metadataTrust rest (some e) lastVerificationError
    | .ok bytes =>
      if metalink.accepts env bytes then do
        match ← Fallible.attempt (finishGeneration env repository url
            (metalink.maxConnections ≠ some 1) bytes metadataTrust) with
        | .ok outcome => return outcome
        | .error (.transport message) =>
          tryResources repository metalink metadataTrust rest (some (.transport message))
            lastVerificationError
        | .error e => tryResources repository metalink metadataTrust rest lastError (some e)
      else tryResources repository metalink metadataTrust rest lastError lastVerificationError

def tryMirror (repository url : String) (metadataTrust : Option MetadataTrust) :
    RefreshM RefreshOutcome := do
  let bytes ← get env url maxRepomdBytes
  finishGeneration env repository url true bytes metadataTrust

/-- The loop over the mirrors of a list. -/
def tryMirrors (repository : String) (metadataTrust : Option MetadataTrust) :
    List String → (lastError : Option RefreshError) → RefreshM RefreshOutcome
  | [], lastError => Fallible.throw (lastError.getD (.transport "all mirrors failed"))
  | base :: rest, _ => do
    match ← Fallible.attempt (tryMirror env repository (repomdUrl base) metadataTrust) with
    | .ok outcome => return outcome
    | .error e => tryMirrors repository metadataTrust rest (some e)

/-- `refresh_with_metadata_trust`, with what becomes of the lock. -/
def refreshWithMetadataTrust (lock : Except RefreshError Unit) (repository : String) (source : Source)
    (metadataTrust : Option MetadataTrust) : RefreshM RefreshOutcome := do
  Fallible.lift lock
  match source with
  | .baseUrl base => do
    Fallible.lift (validateHttps env base)
    let url := repomdUrl (trimEndSlashes base)
    let bytes ← get env url maxRepomdBytes
    finishGeneration env repository url true bytes metadataTrust
  | .metalink url => do
    Fallible.lift (validateHttpsEndpoint env url)
    let bytes ← get env url maxMetalinkBytes
    let metalink ← Fallible.lift ((env.parseMetalink bytes).mapError .metalink)
    tryResources env repository metalink metadataTrust metalink.resources none none
  | .mirrorlist url => do
    Fallible.lift (validateHttpsEndpoint env url)
    let bytes ← get env url maxMetalinkBytes
    let mirrors ← Fallible.lift (parseMirrorlist env bytes)
    tryMirrors env repository metadataTrust mirrors none

end

end Dnfast.Refresh
