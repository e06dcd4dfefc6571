import Mathlib.Data.Finset.Sort
import Dnfast.Core.Plan
import Dnfast.Native.Inventory
import Dnfast.Planning.Digest
import Dnfast.Planning.Publication

/-! # What a plan is bound to

`dnfast-planning`, `model.rs`: `integrity_for_repositories` of a planning snapshot. The record has the
digests of the solver's policy, of the trust, of the inventory and of the metadata of the selected
repositories, the digest of the snapshot itself, and the bindings of the repositories. The digest of
the metadata depends on the schema of the snapshot as well (`metadataTag`). -/

namespace Dnfast.Core

open Json (Value)

def Architecture.toValue (a : Architecture) : Value := .str a.asRpmArch

def RepoPreference.toValue (r : RepoPreference) : Value :=
  .obj [("cost", .num r.cost.toNat), ("priority", .num r.priority.toNat), ("repo_id", .str r.repoId)]

/-- The texts of a set, in ascending order. -/
def textsValue (texts : Finset String) : Value := .arr ((texts.sort (· ≤ ·)).map .str)

def SolverPolicy.toValue (p : SolverPolicy) : Value :=
  .obj [("allow_multilib", .bool p.allowMultilib),
    ("allow_vendor_change", .bool p.allowVendorChange),
    ("allowed_arches", .arr ((p.allowedArches.sort (· ≤ ·)).map Architecture.toValue)),
    ("base_arch", p.baseArch.toValue), ("best", .bool p.best), ("excludes", textsValue p.excludes),
    ("install_weak_deps", .bool p.installWeakDeps),
    ("installonly_packages", textsValue p.installonlyPackages),
    ("protected_packages", textsValue p.protectedPackages),
    ("repo_preferences", .arr (p.repoPreferences.map RepoPreference.toValue)),
    ("running_kernel_name", p.runningKernelName.elim .null .str),
    ("schema_version", .num p.schemaVersion.toNat), ("upgrade_only", .bool p.upgradeOnly)]

instance : Serialize SolverPolicy := ⟨SolverPolicy.toValue⟩

/-- The digests come as texts: policy, trust, inventory, metadata and planning snapshot. -/
def PlanIntegrity.new (policy trust inventory metadata snapshot : String)
    (selectedRepositories : List RepositoryBinding) : Except DomainError PlanIntegrity := do
  let value : PlanIntegrity := {
    policySha256 := ← Sha256Digest.parse policy "policy_sha256"
    trustSha256 := ← Sha256Digest.parse trust "trust_sha256"
    inventorySha256 := ← Sha256Digest.parse inventory "inventory_sha256"
    metadataSha256 := ← Sha256Digest.parse metadata "metadata_sha256"
    planningSnapshotSha256 := ← Sha256Digest.parse snapshot "planning_snapshot_sha256"
    selectedRepositories }
  value.validate
  return value

theorem PlanIntegrity.new_asStr {policy trust inventory metadata snapshot : Sha256Digest}
    {repositories : List RepositoryBinding} {integrity : PlanIntegrity} :
    PlanIntegrity.new policy.asStr trust.asStr inventory.asStr metadata.asStr snapshot.asStr
        repositories = .ok integrity ↔
      integrity = ⟨policy, trust, inventory, metadata, snapshot, repositories⟩ ∧
        integrity.validate = .ok () := by
  simp only [PlanIntegrity.new, Sha256Digest.parse_asStr, Except.ok_bind, Except.check_bind_eq_ok,
    Except.pure_eq_ok]
  constructor
  · rintro ⟨hvalid, rfl⟩
    exact ⟨rfl, hvalid⟩
  · rintro ⟨rfl, hvalid⟩
    exact ⟨hvalid, rfl⟩

end Dnfast.Core

namespace Dnfast.Planning

open Core (InstalledInventory PlanIntegrity RepositoryBinding Sha256Digest SolverPolicy
  canonicalEncode)

section
variable (crates : Crates)

/-- `canonical_sha256` of an inventory. -/
def inventorySha256 (inventory : InstalledInventory) : Sha256Digest :=
  crates.sha256 (canonicalEncode inventory)

/-- `canonical_sha256` of a policy, which is valid. -/
def policySha256 (policy : SolverPolicy) : Sha256Digest := crates.sha256 (canonicalEncode policy)

/-- What `trust_digest` hashes of a repository. -/
def trustInput (r : PlanningRepository) : Except PlanningError (List UInt8) := do
  let id ← frame r.id r.id.asBytes
  let trust ← frame (trustSha256 crates r.trust).asStr (trustSha256 crates r.trust).asStr.asBytes
  return id ++ trust

def trustDigest (repositories : List PlanningRepository) : Except PlanningError String := do
  let inputs ← repositories.mapM (trustInput crates)
  return (crates.sha256 ("dnfast-root-trust-v3".asBytes ++ inputs.flatten)).asStr

def repositoryBinding (r : PlanningRepository) : Except PlanningError RepositoryBinding :=
  Except.mapError domain do
    let generation ← Sha256Digest.parse r.generationSha256 "generation_sha256"
    let origin ← Sha256Digest.parse r.origin.sha256 "origin_sha256"
    RepositoryBinding.new r.id generation origin (trustSha256 crates r.trust)

end

def integrityForRepositories (lib : Library) (s : PlanningSnapshot) (ids : List String) :
    Except PlanningError PlanIntegrity := do
  s.validate lib.crates
  let selected ← s.selectedRepositories ids
  let snapshot ← s.digest lib
  let metadata ← metadataDigest lib.crates s.schemaVersion selected
  let trust ← trustDigest lib.crates selected
  let bindings ← selected.mapM (repositoryBinding lib.crates)
  (PlanIntegrity.new (policySha256 lib.crates s.payload.policy.solver).asStr trust
    (inventorySha256 lib.crates s.payload.inventory).asStr metadata snapshot bindings).mapError domain

/-- What a successful `integrityForRepositories` has read, and the record of it. -/
structure Bound (lib : Library) (s : PlanningSnapshot) (ids : List String)
    (integrity : PlanIntegrity) where
  selected : List PlanningRepository
  bytes : List UInt8
  metadata : List UInt8
  trust : List (List UInt8)
  bindings : List RepositoryBinding
  valid : s.validate lib.crates = .ok ()
  selects : s.selectedRepositories ids = .ok selected
  encodes : s.canonicalBytes lib = .ok bytes
  describes : metadataInput lib.crates s.schemaVersion selected = .ok metadata
  trusts : selected.mapM (trustInput lib.crates) = .ok trust
  binds : selected.mapM (repositoryBinding lib.crates) = .ok bindings
  record : integrity = ⟨policySha256 lib.crates s.payload.policy.solver,
    lib.crates.sha256 ("dnfast-root-trust-v3".asBytes ++ trust.flatten),
    inventorySha256 lib.crates s.payload.inventory, lib.crates.sha256 metadata,
    lib.crates.sha256 bytes, bindings⟩
  canonical : integrity.validate = .ok ()

theorem integrityForRepositories_eq_ok {lib : Library} {s : PlanningSnapshot} {ids : List String}
    {integrity : PlanIntegrity} :
    integrityForRepositories lib s ids = .ok integrity ↔ Nonempty (Bound lib s ids integrity) := by
  simp only [integrityForRepositories, PlanningSnapshot.digest, metadataDigest, trustDigest,
    Except.bind_eq_ok, Except.map_eq_ok, Except.pure_eq_ok, Except.mapError_eq_ok]
  constructor
  · rintro ⟨⟨⟩, hvalid, selected, hselected, _, ⟨bytes, hbytes, rfl⟩, _, ⟨metadata, hmetadata, rfl⟩, _,
      ⟨trust, htrust, rfl⟩, bindings, hbindings, h⟩
    obtain ⟨hrecord, hcanonical⟩ := PlanIntegrity.new_asStr.mp h
    exact ⟨⟨selected, bytes, metadata, trust, bindings, hvalid, hselected, hbytes, hmetadata, htrust,
      hbindings, hrecord, hcanonical⟩⟩
  · rintro ⟨b⟩
    exact ⟨(), b.valid, _, b.selects, _, ⟨_, b.encodes, rfl⟩, _, ⟨_, b.describes, rfl⟩, _,
      ⟨_, b.trusts, rfl⟩, _, b.binds, PlanIntegrity.new_asStr.mpr ⟨b.record, b.canonical⟩⟩

end Dnfast.Planning
