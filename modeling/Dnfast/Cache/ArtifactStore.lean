import Mathlib.Data.List.Sort
import Mathlib.Data.Prod.Lex
import Dnfast.Core.Value
import Dnfast.Data.Check
import Dnfast.Data.TreeMapTotal

/-! # The artifact cache

`dnfast-cache`, `artifact.rs` and `artifact_store.rs`: an artifact is a file under its SHA-256 digest. A
transaction reserves the bytes that its artifacts lack when it begins, and fetches them one by one. What
the system calls answer comes in with each action. -/

namespace Dnfast.Cache.ArtifactStore

open Std (ExtTreeMap)
open Except (refuseIf okOr)
open Core (Sha256Digest)

def MAX_TRANSACTION_BYTES : Nat := 64 * 1024 * 1024 * 1024

def MAX_TRANSACTION_ARTIFACTS : Nat := 100000

def MAX_CACHE_BYTES : Nat := 128 * 1024 * 1024 * 1024

inductive ArtifactError where
  | policy (message : String)
  | capacity (message : String)
  | transport (message : String)
  | integrity (message : String)
  | io (message : String)
  | busy (message : String)
  deriving DecidableEq, Repr

abbrev Bytes := List UInt8

/-- `u64::checked_add`. -/
def checkedAdd (a b : Nat) : Option Nat := if a + b < 2 ^ 64 then some (a + b) else none

/-! ## Requests -/

structure ArtifactSpec where
  url : String
  digest : Sha256Digest
  size : UInt64

abbrev Identity := String × UInt64

def ArtifactSpec.identity (spec : ArtifactSpec) : Identity := (spec.digest.asStr, spec.size)

structure Capacity where
  cachedBytes : Nat
  availableBytes : Nat

structure TransactionRequest where
  predictedBytes : Nat
  artifacts : Nat
  identities : List Identity

namespace TransactionRequest

def validate (r : TransactionRequest) (capacity : Capacity) : Except ArtifactError Unit := do
  refuseIf (r.predictedBytes > MAX_TRANSACTION_BYTES ∨ r.artifacts > MAX_TRANSACTION_ARTIFACTS)
    (.capacity "transaction artifact limit exceeded")
  let cacheAfter ← okOr (checkedAdd capacity.cachedBytes r.predictedBytes) (.capacity "cache size overflow")
  refuseIf (cacheAfter > MAX_CACHE_BYTES) (.capacity "artifact cache cap exceeded")
  let padded ← okOr (checkedAdd r.predictedBytes 19) (.capacity "reserve overflow")
  let reserve ← okOr (checkedAdd r.predictedBytes (padded / 20)) (.capacity "reserve overflow")
  refuseIf (capacity.availableBytes < reserve) (.capacity "filesystem reserve is insufficient")

def fromTotals (predictedBytes artifacts : Nat) : Except ArtifactError TransactionRequest := do
  let request : TransactionRequest := ⟨predictedBytes, artifacts, []⟩
  request.validate ⟨0, 2 ^ 64 - 1⟩
  return request

def forSpecs (specs : List ArtifactSpec) : Except ArtifactError TransactionRequest := do
  let predictedBytes ← okOr (specs.foldlM (fun total spec => checkedAdd total spec.size.toNat) 0)
    (.capacity "transaction byte count overflow")
  let identities := (specs.map (·.identity)).insertionSort
    fun a b => toLex (a.1, a.2.toNat) ≤ toLex (b.1, b.2.toNat)
  refuseIf (¬ identities.IsChain (· ≠ ·)) (.capacity "duplicate artifact in transaction")
  let request ← fromTotals predictedBytes specs.length
  return { request with identities }

end TransactionRequest

/-! ## Files -/

/-- The artifacts of the directory: its lock and the markers of its owners have other names. -/
abbrev Files := ExtTreeMap String Bytes

section

variable (sha256 : Bytes → Sha256Digest)

/-- `verify_identity`: the caller's open file is inspected, has the size and hashes to the digest. -/
def verifyIdentity (inspect : Except ArtifactError Unit) (content : Bytes) (digest : String)
    (size : UInt64) : Except ArtifactError Bytes := do
  refuseIf (content.length ≠ size.toNat) (.integrity "existing artifact metadata mismatch")
  inspect
  refuseIf ((sha256 content).asStr ≠ digest) (.integrity "existing artifact digest mismatch")
  return content

/-- What the system calls answer while a transaction begins: taking the locks, opening and inspecting an
artifact, listing the directory, and the free bytes. -/
structure BeginWorld where
  locks : Except ArtifactError Unit
  opens : String → Except ArtifactError Unit
  inspects : String → Except ArtifactError Unit
  lists : Except ArtifactError Unit
  available : Except ArtifactError Nat

def missingStep (w : BeginWorld) (files : Files) (total : Nat) (id : Identity) :
    Except ArtifactError Nat := do
  w.opens id.1
  match files[id.1]? with
  | some content => do
    let _ ← verifyIdentity sha256 (w.inspects id.1) content id.1 id.2
    return total
  | none => okOr (checkedAdd total id.2.toNat) (.capacity "missing artifact bytes overflow")

def missingBytes (w : BeginWorld) (files : Files) (identities : List Identity) : Except ArtifactError Nat :=
  identities.foldlM (missingStep sha256 w files) 0

def cachedBytes (w : BeginWorld) (files : Files) : Except ArtifactError Nat := do
  w.lists
  okOr ((files.toList.map (·.2.length)).foldlM checkedAdd 0) (.capacity "cached byte count overflow")

/-- The identities that are left to fetch. -/
def beginTransaction (w : BeginWorld) (files : Files) (transaction : TransactionRequest) :
    Except ArtifactError (List Identity) := do
  refuseIf (transaction.identities = []) (.capacity "transaction has no bound artifacts")
  w.locks
  let missing ← missingBytes sha256 w files transaction.identities
  let request ← TransactionRequest.fromTotals missing transaction.identities.length
  let available ← w.available
  let cached ← cachedBytes w files
  request.validate ⟨cached, available⟩
  return transaction.identities

/-! ## Fetching -/

/-- The status of a response, and what its reads give. -/
structure ArtifactResponse where
  status : UInt16
  body : List (Except ArtifactError Bytes)

/-- What the system calls and the transport answer during a fetch. The path is compared with the open
directory before the transfer, after it and after the artifact is there. -/
structure FetchWorld where
  opens : Except ArtifactError Unit
  inspects : Except ArtifactError Unit
  responds : Except ArtifactError ArtifactResponse
  samePath : Except ArtifactError Unit
  creates : Except ArtifactError Unit
  syncs : Except ArtifactError Unit
  samePathAfter : Except ArtifactError Unit
  links : Except ArtifactError Unit
  samePathLinked : Except ArtifactError Unit
  unlinks : Except ArtifactError Unit
  syncsDirectory : Except ArtifactError Unit
  reopens : Except ArtifactError Unit

/-- The loop of `stream_verified`. -/
def stream (size : UInt64) (content : Bytes) : List (Except ArtifactError Bytes) → Except ArtifactError Bytes
  | [] => .ok content
  | .error e :: _ => .error e
  | .ok [] :: _ => .ok content
  | .ok (b :: bs) :: reads => do
    let total ← okOr (checkedAdd content.length (b :: bs).length) (.integrity "artifact size overflow")
    refuseIf (total > size.toNat) (.integrity "artifact exceeds declared size")
    stream size (content ++ b :: bs) reads

def streamVerified (spec : ArtifactSpec) (body : List (Except ArtifactError Bytes)) :
    Except ArtifactError Bytes := do
  let content ← stream spec.size [] body
  refuseIf (content.length ≠ spec.size.toNat) (.integrity "artifact is truncated")
  refuseIf (sha256 content ≠ spec.digest) (.integrity "artifact digest mismatch")
  return content

/-- The transfer into an unnamed file. -/
def transfer (w : FetchWorld) (spec : ArtifactSpec) : Except ArtifactError Bytes := do
  let response ← w.responds
  refuseIf (response.status ≠ 200)
    (.transport ("unexpected HTTP status " ++ toString response.status.toNat))
  w.samePath
  w.creates
  let content ← streamVerified sha256 spec response.body
  w.syncs
  w.samePathAfter
  return content

/-- The unnamed file gets its name, unless another has it. -/
def link (w : FetchWorld) (files : Files) (spec : ArtifactSpec) (content : Bytes) :
    Files × Except ArtifactError Bytes :=
  match w.links with
  | .error e => (files, .error e)
  | .ok () =>
    match files[spec.digest.asStr]? with
    | some existing =>
      (files, do
        w.reopens
        let existing ← verifyIdentity sha256 w.inspects existing spec.digest.asStr spec.size
        w.samePathLinked
        return existing)
    | none =>
      let linked := files.insert spec.digest.asStr content
      match w.samePathLinked with
      | .error e =>
        match w.unlinks with
        | .error e => (linked, .error e)
        | .ok () => (linked.erase spec.digest.asStr, do
          w.syncsDirectory
          .error e)
      | .ok () => (linked, do
        w.syncsDirectory
        w.reopens
        verifyIdentity sha256 w.inspects content spec.digest.asStr spec.size)

/-- The artifact that is there already, when it can be opened. -/
def existing (w : FetchWorld) (files : Files) (spec : ArtifactSpec) : Option Bytes :=
  match w.opens with
  | .error _ => none
  | .ok () => files[spec.digest.asStr]?

/-- `PinnedDirectory::fetch`. -/
def fetchFile (w : FetchWorld) (files : Files) (spec : ArtifactSpec) : Files × Except ArtifactError Bytes :=
  match existing w files spec with
  | some content =>
    (files, do
      let content ← verifyIdentity sha256 w.inspects content spec.digest.asStr spec.size
      w.samePath
      return content)
  | none =>
    match transfer sha256 w spec with
    | .error e => (files, .error e)
    | .ok content => link sha256 w files spec content

/-! ## Transactions -/

/-- The directory, and what the live transaction has left to fetch. -/
structure Store where
  files : Files
  live : Option (List Identity)

def Store.remaining (s : Store) : List Identity := s.live.getD []

inductive Action where
  | begin (transaction : TransactionRequest) (w : BeginWorld)
  | fetch (spec : ArtifactSpec) (w : FetchWorld)
  | drop

/-- `ArtifactTransaction::fetch`. -/
def fetch (w : FetchWorld) (s : Store) (spec : ArtifactSpec) : Store × Except ArtifactError Bytes :=
  if spec.identity ∈ s.remaining then
    let (files, result) := fetchFile sha256 w s.files spec
    match result with
    | .error e => ({ s with files }, .error e)
    | .ok content => (⟨files, s.live.map (·.filter (· ≠ spec.identity))⟩, .ok content)
  else (s, .error (.capacity "artifact is not pending in this transaction"))

/-- One action. Another transaction cannot begin while one holds the lock. -/
def act (s : Store) : Action → Store × Except ArtifactError Unit
  | .begin transaction w =>
    if s.live.isSome then (s, .error (.busy "artifact transaction already active in this process"))
    else
      match beginTransaction sha256 w s.files transaction with
      | .error e => (s, .error e)
      | .ok remaining => ({ s with live := some remaining }, .ok ())
  | .fetch spec w =>
    let (s, result) := fetch sha256 w s spec
    (s, result.map fun _ => ())
  | .drop => ({ s with live := none }, .ok ())

/-- The actions one after the other, on a new directory. -/
def run (actions : List Action) : Store := actions.foldl (fun s a => (act sha256 s a).1) ⟨∅, none⟩

end

end Dnfast.Cache.ArtifactStore
