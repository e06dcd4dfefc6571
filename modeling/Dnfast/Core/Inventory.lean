import Mathlib.Data.List.Sort
import Dnfast.Core.Value

/-! # The installed inventory

`dnfast-core`, `inventory.rs`. An `InstalledPackage` has a name and a valid EVRA, and an
`InstalledInventory` lists its packages in strictly ascending order with distinct rpmdb instances;
both types can only be built through checks of these facts, which they carry as fields. The schema
version and the install root of an inventory are the constants that `new` writes and `validate`
requires, and are left out. -/

namespace Dnfast.Core

structure InstalledPackage where
  name : String
  evra : Evra
  vendor : String
  dbInstance : UInt64
  installTime : UInt64
  immutableHeaderSha256 : Sha256Digest
  named : name ≠ ""
  valid : evra.validate = .ok ()
  deriving DecidableEq

namespace InstalledPackage

def new (name : String) (evra : Evra) (vendor : String) (dbInstance installTime : UInt64)
    (digest : String) : Except DomainError InstalledPackage :=
  if hname : name = "" then .error (.empty "package_name")
  else
    match hevra : evra.validate with
    | .error e => .error e
    | .ok () =>
      (Sha256Digest.parse digest "immutable_header_sha256").map fun header =>
        ⟨name, evra, vendor, dbInstance, installTime, header, hname, hevra⟩

def key (p : InstalledPackage) : String ×ₗ Evra ×ₗ String ×ₗ Nat ×ₗ Nat ×ₗ Sha256Digest :=
  toLex (p.name, toLex (p.evra, toLex (p.vendor, toLex (p.dbInstance.toNat,
    toLex (p.installTime.toNat, p.immutableHeaderSha256)))))

theorem key_injective : Function.Injective key := by
  intro a b h
  cases a
  cases b
  simp only [key, EmbeddingLike.apply_eq_iff_eq, Prod.mk.injEq, UInt64.toNat_inj] at h
  obtain ⟨rfl, rfl, rfl, rfl, rfl, rfl⟩ := h
  rfl

instance : LinearOrder InstalledPackage := LinearOrder.lift' key key_injective

end InstalledPackage

structure InstalledInventory where
  rpmdbBackend : String
  rpmVersion : String
  packages : List InstalledPackage
  backendNamed : rpmdbBackend ≠ ""
  versionNamed : rpmVersion ≠ ""
  ordered : packages.Pairwise (· < ·)
  instances : (packages.map InstalledPackage.dbInstance).Nodup

inductive EraseLookupError where
  | notFound
  | headerMismatch
  | ambiguous
  deriving DecidableEq, Repr

namespace InstalledInventory

/-- The first instance that an earlier package of the list has, as the loop over `identities`
finds it. -/
def firstRepeated : List UInt64 → List InstalledPackage → Option UInt64
  | _, [] => none
  | seen, p :: ps =>
    if p.dbInstance ∈ seen then some p.dbInstance else firstRepeated (p.dbInstance :: seen) ps

theorem firstRepeated_eq_none {seen : List UInt64} {ps : List InstalledPackage}
    (h : firstRepeated seen ps = none) :
    (ps.map InstalledPackage.dbInstance).Nodup ∧ ∀ p ∈ ps, p.dbInstance ∉ seen := by
  induction ps generalizing seen with
  | nil => simp
  | cons p ps ih =>
    rw [firstRepeated] at h
    split at h
    · cases h
    · next hp =>
      obtain ⟨hnodup, hseen⟩ := ih h
      have hfresh : ∀ q ∈ ps, q.dbInstance ≠ p.dbInstance ∧ q.dbInstance ∉ seen := by
        simpa using hseen
      refine ⟨List.nodup_cons.mpr ⟨?_, hnodup⟩, ?_⟩
      · rw [List.mem_map]
        rintro ⟨q, hq, heq⟩
        exact (hfresh q hq).1 heq
      · intro q hq
        rcases List.mem_cons.mp hq with rfl | hq
        · exact hp
        · exact (hfresh q hq).2

/-- `new`: the packages are sorted, then instances and order are checked. -/
def new (backend rpmVersion : String) (packages : List InstalledPackage) :
    Except DomainError InstalledInventory :=
  let sorted := packages.insertionSort (· ≤ ·)
  match hrepeat : firstRepeated [] sorted with
  | some dbInstance => .error (.duplicate ("rpmdb instance " ++ dbInstance.toNat.repr))
  | none =>
    if hbackend : backend = "" then .error (.empty "rpmdb_backend")
    else if hversion : rpmVersion = "" then .error (.empty "rpm_version")
    else if hordered : sorted.Pairwise (· < ·) then
      .ok ⟨backend, rpmVersion, sorted, hbackend, hversion, hordered,
        (firstRepeated_eq_none hrepeat).1⟩
    else .error .nonCanonical

def eraseTarget (inventory : InstalledInventory) (dbInstance : UInt64) (headerSha256 : String) :
    Except EraseLookupError InstalledPackage :=
  match inventory.packages.filter (·.dbInstance == dbInstance) with
  | [] => .error .notFound
  | [p] => if p.immutableHeaderSha256.asStr = headerSha256 then .ok p else .error .headerMismatch
  | _ => .error .ambiguous

variable {inventory : InstalledInventory} {p q : InstalledPackage}

/-- A package is determined by its instance. -/
theorem eq_of_dbInstance (hp : p ∈ inventory.packages) (hq : q ∈ inventory.packages)
    (h : p.dbInstance = q.dbInstance) : p = q :=
  List.inj_on_of_nodup_map inventory.instances hp hq h

theorem eraseTarget_eq_ok {dbInstance : UInt64} {headerSha256 : String}
    (h : inventory.eraseTarget dbInstance headerSha256 = .ok p) :
    p ∈ inventory.packages ∧ p.dbInstance = dbInstance ∧
      p.immutableHeaderSha256.asStr = headerSha256 := by
  unfold eraseTarget at h
  split at h
  · cases h
  · next q hfilter =>
    have hq : q ∈ inventory.packages.filter (·.dbInstance == dbInstance) := by simp [hfilter]
    rw [List.mem_filter, beq_iff_eq] at hq
    split at h
    · next hheader =>
      cases h
      exact ⟨hq.1, hq.2, hheader⟩
    · cases h
  · cases h

end InstalledInventory

/-! Inventories of the examples. -/

def sqliteInventory (rpmVersion : String) (h : rpmVersion ≠ "") (packages : List InstalledPackage)
    (ordered : packages.Pairwise (· < ·))
    (instances : (packages.map InstalledPackage.dbInstance).Nodup) : InstalledInventory :=
  ⟨"sqlite", rpmVersion, packages, by decide, h, ordered, instances⟩

def emptyInventory (rpmVersion : String) (h : rpmVersion ≠ "") : InstalledInventory :=
  sqliteInventory rpmVersion h [] .nil .nil

def singleInventory (rpmVersion : String) (h : rpmVersion ≠ "") (p : InstalledPackage) :
    InstalledInventory :=
  sqliteInventory rpmVersion h [p] (List.pairwise_singleton _ p) (List.nodup_singleton p.dbInstance)

theorem rpm6_ne_empty : "6.0" ≠ "" := by decide

end Dnfast.Core
