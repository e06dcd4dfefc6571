import Dnfast.Data.Search
import Dnfast.Group.Valid

/-! # The packages that go with their groups

`packages_to_remove` says which packages to remove before `apply_remove` gives up the ownership of
them. The two go over the groups separately, and the first looks a package up by binary search. -/

namespace Dnfast.Group

open Std (ExtTreeMap)

/-! ## Binary search -/

def probeValue (values : List String) (target : String) (i : Nat) : Except Empty (Probe Unit) :=
  match values[i]? with
  | none => .ok .greater
  | some value =>
    .ok (if value < target then .less else if target < value then .greater else .found ())

/-- `binary_search(target).is_ok()`. -/
def binarySearch (values : List String) (target : String) : Bool :=
  match searchExact (probeValue values target) values.length 0 values.length with
  | .ok (some _) => true
  | _ => false

/-- On a sorted list the search finds exactly the members. -/
theorem binarySearch_iff {values : List String} (h : values.Pairwise (· < ·)) (target : String) :
    binarySearch values target = true ↔ target ∈ values := by
  have hsorted : (values.map fun value => (value, ())).Pairwise (·.1 < ·.1) := by
    rw [List.pairwise_map]
    exact h
  have hprobe : ∀ i (hi : i < (values.map fun value => (value, ())).length),
      probeValue values target i = .ok
        (if ((values.map fun value => (value, ()))[i]).1 < target then .less
          else if target < ((values.map fun value => (value, ()))[i]).1 then .greater
          else .found ((values.map fun value => (value, ()))[i]).2) := by
    intro i hi
    rw [List.length_map] at hi
    simp only [probeValue, List.getElem?_eq_getElem hi, List.getElem_map]
  have hall : Encloses (values.map fun value => (value, ())) target 0 values.length := by
    refine ⟨fun i _ hi => absurd hi (Nat.not_lt_zero i), fun i hi hle => ?_⟩
    rw [List.length_map] at hi
    omega
  obtain ⟨r, hr, hmem⟩ := searchExact_spec hsorted hprobe (Nat.sub_le _ _)
    (by rw [List.length_map]) hall
  rw [binarySearch, hr]
  have hiff := hmem ()
  simp only [List.mem_map, Prod.mk.injEq, and_true, exists_eq_right] at hiff
  rw [← hiff]
  cases r <;> simp

/-! ## Removal -/

/-- `packages_to_remove` on the state that was read. -/
def packagesToRemoveFrom (s : GroupState) (ids : List String) : List String :=
  let retained := retainedPackages s.groups ids
  ((removedPackages s.groups ids).filter fun package =>
    !retained.contains package && binarySearch s.introducedPackages package).sortDedup

variable {s : GroupState} {ids : List String} {package : String}

/-- On a sound state the search is a test for membership. -/
theorem packagesToRemoveFrom_eq (h : Sound s) :
    packagesToRemoveFrom s ids = removablePackages s ids := by
  have hsearch : ∀ package, binarySearch s.introducedPackages package =
      s.introducedPackages.contains package := by
    intro package
    rw [Bool.eq_iff_iff, binarySearch_iff h.introduced.ascending, List.contains_iff_mem]
  simp only [packagesToRemoveFrom, removablePackages, hsearch]

theorem mem_removablePackages : package ∈ removablePackages s ids ↔
    package ∈ removedPackages s.groups ids ∧ package ∉ retainedPackages s.groups ids ∧
      package ∈ s.introducedPackages := by
  simp only [removablePackages, List.mem_sortDedup, List.mem_filter, Bool.and_eq_true,
    Bool.not_eq_true', ← Bool.not_eq_true, List.contains_iff_mem]

/-- The list is what `apply_remove` deletes. -/
theorem mem_removablePackages_iff : package ∈ removablePackages s ids ↔
    package ∈ s.introducedPackages ∧ package ∉ (applyRemove s ids).introducedPackages := by
  rw [mem_removablePackages, mem_introduced_applyRemove]
  tauto

theorem not_mem_of_mem_removablePackages {id : String} {packages : List String}
    (hgroup : s.groups[id]? = some packages) (hid : id ∉ ids)
    (h : package ∈ removablePackages s ids) : package ∉ packages := by
  intro hmem
  exact (mem_removablePackages.mp h).2.1 (mem_retainedPackages.mpr ⟨id, packages, hgroup, hid, hmem⟩)

/-- What is proposed for deletion is what the removal gives up, it is in no group that stays, and
what stays introduced is in a group that stays. -/
structure RemovesExactly (s : GroupState) (ids : List String) : Prop where
  ascending : (packagesToRemoveFrom s ids).Pairwise (· < ·)
  deleted : ∀ package, package ∈ packagesToRemoveFrom s ids ↔
    package ∈ s.introducedPackages ∧ package ∉ (applyRemove s ids).introducedPackages
  disjoint : ∀ (id : String) (packages : List String), s.groups[id]? = some packages → id ∉ ids →
    packages.Disjoint (packagesToRemoveFrom s ids)
  owned : ∀ package ∈ (applyRemove s ids).introducedPackages, ∃ (id : String)
    (packages : List String), id ∉ ids ∧ (applyRemove s ids).groups[id]? = some packages ∧
      package ∈ packages

theorem removesExactly (s : GroupState) (ids : List String) (hs : validateState s = .ok ()) :
    RemovesExactly s ids := by
  have hsound := (validateState_eq_ok.mp hs).toSound
  have heq : packagesToRemoveFrom s ids = removablePackages s ids := packagesToRemoveFrom_eq hsound
  refine ⟨?_, fun package => ?_, fun id packages hgroup hid package hmem h => ?_,
    fun package h => ?_⟩
  · exact List.pairwise_sortDedup _
  · rw [heq]
    exact mem_removablePackages_iff
  · rw [heq] at h
    exact not_mem_of_mem_removablePackages hgroup hid h hmem
  · obtain ⟨id, packages, hgroup, hmem⟩ := mem_packagesOf.mp ((hsound.applyRemove ids).owned package h)
    have hid : id ∉ ids := by
      intro hid
      rw [applyRemove_groups, if_pos hid] at hgroup
      cases hgroup
    exact ⟨id, packages, hid, hgroup, hmem⟩

/-- Two groups that share a package. -/
def sharingState : GroupState where
  schemaVersion := 2
  groups := (Std.ExtTreeMap.empty.insert "core" ["bash", "rpm"]).insert "tools" ["rpm", "vim"]
  introducedPackages := ["bash", "rpm", "vim"]
  pending := []

theorem removesExactly_sharing : RemovesExactly sharingState ["tools"] ∧
    packagesToRemoveFrom sharingState ["tools"] = ["vim"] :=
  ⟨removesExactly _ _ (by decide +kernel), by decide +kernel⟩

end Dnfast.Group
