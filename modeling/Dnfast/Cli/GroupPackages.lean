import Dnfast.Core.Inventory
import Dnfast.Data.Forall2
import Dnfast.Data.Rounds
import Dnfast.Data.SortDedup
import Dnfast.Metadata.Filelists

/-! # The packages of the selected groups

`dnfast-cli`, `commands/group.rs`: `selected_group_package_map`, with what it reads of the comps catalog.
A conditional package belongs to its group as soon as the package of its condition is installed or
belongs to a selected group, so the sets of all selected groups are closed together. -/

namespace Dnfast.Cli

open Std (ExtTreeMap)
open Except (refuseIf okOr)
open Core (InstalledInventory)
open Metadata (isControl isUnicodeWhitespace)
open Rounds (Sets Rule)

structure AppFailure where
  code : Nat
  errorCode : String
  message : String
  deriving DecidableEq

/-! ## The catalog -/

inductive CompsPackageType where
  | mandatory
  | default
  | optional
  | conditional
  deriving DecidableEq

structure CompsPackage where
  name : String
  kind : CompsPackageType
  condition : Option String
  deriving DecidableEq

structure CompsGroup where
  packages : List CompsPackage
  deriving DecidableEq

structure CompsEnvironment where
  groups : List String
  optionalGroups : List String
  deriving DecidableEq

structure Catalog where
  groups : ExtTreeMap String CompsGroup
  environments : ExtTreeMap String CompsEnvironment

/-! ## The selection -/

def validId (value : String) : Bool :=
  value ≠ "" && value.toList.head? ≠ some '-' && !value.toList.any isControl &&
    !value.toList.any isUnicodeWhitespace

def validateId (value kind : String) : Except AppFailure Unit :=
  refuseIf (!validId value) ⟨2, "invalid_arguments", kind ++ " is invalid"⟩

def groupNotFound (kind value : String) : AppFailure :=
  ⟨1, "not_found", kind ++ " not found: " ++ value⟩

/-- The loop over the requested identifiers. -/
def checkRequestedIds : List String → List String → Except AppFailure Unit
  | _, [] => .ok ()
  | seen, id :: rest => do
    validateId id "group or environment id"
    refuseIf (id ∈ seen)
      ⟨2, "invalid_arguments", "group or environment identifiers must be unique"⟩
    checkRequestedIds (id :: seen) rest

section
variable (catalog : Catalog) (withOptional : Bool)

/-- The groups that a requested identifier stands for. -/
def groupsOf (id : String) : Except AppFailure (List String) :=
  if catalog.groups.contains id then .ok [id]
  else do
    let environment ← okOr catalog.environments[id]? (groupNotFound "group or environment" id)
    return environment.groups ++ if withOptional then environment.optionalGroups else []

def selectedGroups (requested : List String) : Except AppFailure (List String) := do
  checkRequestedIds [] requested
  let groups ← requested.sortDedup.mapM (groupsOf catalog withOptional)
  return groups.flatten.sortDedup

/-- The packages of the groups so far, and those that wait for their condition. -/
structure Selection where
  packages : Sets String String
  conditional : ExtTreeMap String (List CompsPackage)

/-- The package belongs to its group without a condition. -/
def direct (p : CompsPackage) : Bool :=
  match p.kind with
  | .mandatory | .default => true
  | .optional => withOptional
  | .conditional => false

def Selection.add (id : String) (s : Selection) (p : CompsPackage) : Selection :=
  if direct withOptional p then { s with packages := s.packages.modify id (insert p.name) }
  else if p.kind = .conditional then
    { s with conditional := s.conditional.alter id fun waiting => some (waiting.getD [] ++ [p]) }
  else s

def selectGroup (s : Selection) (id : String) : Except AppFailure Selection := do
  let group ← okOr catalog.groups[id]? (groupNotFound "environment member group" id)
  return group.packages.foldl (Selection.add withOptional id)
    { s with packages := s.packages.insertIfNew id ∅ }

/-- The loops over the groups and over their conditional packages. -/
def conditionalRules (conditional : ExtTreeMap String (List CompsPackage)) : List (Rule String String) :=
  conditional.toList.flatMap fun entry => entry.2.map fun p => ⟨entry.1, p.condition, p.name⟩

def selectedGroupPackageMap (inventory : InstalledInventory) (requested : List String) :
    Except AppFailure (Sets String String) := do
  let groups ← selectedGroups catalog withOptional requested
  let selection ← groups.foldlM (selectGroup catalog withOptional) ⟨∅, ∅⟩
  let installed := (inventory.packages.map (·.name)).toFinset
  return Rounds.close (conditionalRules selection.conditional) installed selection.packages

/-! ## What is selected -/

/-- The group is named, or it is of a named environment. -/
def Selected (requested : List String) (g : String) : Prop :=
  ∃ id ∈ requested, (id ∈ catalog.groups ∧ g = id) ∨ (id ∉ catalog.groups ∧
    ∃ environment, catalog.environments[id]? = some environment ∧
      (g ∈ environment.groups ∨ (withOptional = true ∧ g ∈ environment.optionalGroups)))

/-- A request that names what is in the catalog, each once. -/
structure Selectable (requested : List String) : Prop where
  valid : ∀ id ∈ requested, validId id = true
  nodup : requested.Nodup
  known : ∀ id ∈ requested, id ∈ catalog.groups ∨ id ∈ catalog.environments
  present : ∀ g, Selected catalog withOptional requested g → g ∈ catalog.groups

/-- Every selected group has its packages: those without a condition, and the conditional ones whose
condition names an installed package or one of a selected group. -/
structure Complete (inventory : InstalledInventory) (requested : List String) (T : String → Set String) :
    Prop where
  direct : ∀ g, Selected catalog withOptional requested g → ∀ group, catalog.groups[g]? = some group →
    ∀ p ∈ group.packages, direct withOptional p = true → p.name ∈ T g
  conditional : ∀ g, Selected catalog withOptional requested g →
    ∀ group, catalog.groups[g]? = some group → ∀ p ∈ group.packages, p.kind = .conditional →
      ∀ c, p.condition = some c → ((∃ i ∈ inventory.packages, i.name = c) ∨
        ∃ g', Selected catalog withOptional requested g' ∧ c ∈ T g') → p.name ∈ T g

/-! ## The request -/

variable {catalog withOptional} {requested : List String} {g id : String}

theorem checkRequestedIds_eq_ok {seen : List String} : checkRequestedIds seen requested = .ok () ↔
    (∀ id ∈ requested, validId id = true ∧ id ∉ seen) ∧ requested.Nodup := by
  induction requested generalizing seen with
  | nil => simp [checkRequestedIds]
  | cons id rest ih =>
    simp only [checkRequestedIds, validateId, Except.check_bind_eq_ok, Except.refuseIf_eq_ok, ih,
      Bool.not_eq_true', Bool.not_eq_false, List.nodup_cons, List.mem_cons, forall_eq_or_imp, not_or]
    constructor
    · rintro ⟨hvalid, hseen, hrest, hnodup⟩
      exact ⟨⟨⟨hvalid, hseen⟩, fun x hx => ⟨(hrest x hx).1, (hrest x hx).2.2⟩⟩,
        fun hmem => (hrest id hmem).2.1 rfl, hnodup⟩
    · rintro ⟨⟨⟨hvalid, hseen⟩, hrest⟩, hfresh, hnodup⟩
      refine ⟨hvalid, hseen, fun x hx => ⟨(hrest x hx).1, ?_, (hrest x hx).2⟩, hnodup⟩
      rintro rfl
      exact hfresh hx

theorem mem_groupsOf {groups : List String} (h : groupsOf catalog withOptional id = .ok groups) :
    g ∈ groups ↔ (id ∈ catalog.groups ∧ g = id) ∨ (id ∉ catalog.groups ∧
      ∃ environment, catalog.environments[id]? = some environment ∧
        (g ∈ environment.groups ∨ (withOptional = true ∧ g ∈ environment.optionalGroups))) := by
  unfold groupsOf at h
  split at h
  next hmem =>
    cases h
    simp [ExtTreeMap.contains_iff_mem.mp hmem]
  next hno =>
    obtain ⟨environment, henvironment, h⟩ := Except.bind_eq_ok.mp h
    cases Except.pure_eq_ok.mp h
    rw [ExtTreeMap.contains_iff_mem] at hno
    rw [Except.okOr_eq_ok] at henvironment
    cases withOptional <;> simp [hno, henvironment]

theorem exists_groupsOf_iff : (∃ groups, groupsOf catalog withOptional id = .ok groups) ↔
    id ∈ catalog.groups ∨ id ∈ catalog.environments := by
  unfold groupsOf
  split
  next h => simp [ExtTreeMap.contains_iff_mem.mp h]
  next h =>
    rw [ExtTreeMap.contains_iff_mem] at h
    rw [or_iff_right h, ExtTreeMap.mem_iff_isSome_getElem?, Option.isSome_iff_exists]
    simp only [Except.bind_eq_ok, Except.okOr_eq_ok, Except.pure_eq_ok]
    constructor
    · rintro ⟨_, environment, henvironment, -⟩
      exact ⟨environment, henvironment⟩
    · rintro ⟨environment, henvironment⟩
      exact ⟨_, environment, henvironment, rfl⟩

theorem mem_selectedGroups {groups : List String}
    (h : selectedGroups catalog withOptional requested = .ok groups) :
    ((∀ id ∈ requested, validId id = true) ∧ requested.Nodup ∧
      ∀ id ∈ requested, id ∈ catalog.groups ∨ id ∈ catalog.environments) ∧
    (∀ g, g ∈ groups ↔ Selected catalog withOptional requested g) ∧ groups.Nodup := by
  obtain ⟨_, hchecked, h⟩ := Except.bind_eq_ok.mp h
  obtain ⟨lists, hlists, h⟩ := Except.bind_eq_ok.mp h
  cases Except.pure_eq_ok.mp h
  obtain ⟨hvalid, hnodup⟩ := checkRequestedIds_eq_ok.mp hchecked
  have hforall := Except.mapM_eq_ok.mp hlists
  refine ⟨⟨fun id hid => (hvalid id hid).1, hnodup, fun id hid => ?_⟩, fun g => ?_, ?_⟩
  · obtain ⟨groups, -, hgroups⟩ := hforall.exists_right (List.mem_sortDedup.mpr hid)
    exact exists_groupsOf_iff.mp ⟨groups, hgroups⟩
  · rw [List.mem_sortDedup, List.mem_flatten]
    constructor
    · rintro ⟨groups, hgroups, hg⟩
      obtain ⟨id, hid, hof⟩ := hforall.exists_left hgroups
      exact ⟨id, List.mem_sortDedup.mp hid, (mem_groupsOf hof).mp hg⟩
    · rintro ⟨id, hid, hg⟩
      obtain ⟨groups, hgroups, hof⟩ := hforall.exists_right (List.mem_sortDedup.mpr hid)
      exact ⟨groups, hgroups, (mem_groupsOf hof).mpr hg⟩
  · exact (List.pairwise_sortDedup _).imp ne_of_lt

theorem exists_selectedGroups (h : Selectable catalog withOptional requested) :
    ∃ groups, selectedGroups catalog withOptional requested = .ok groups := by
  have hchecked : checkRequestedIds [] requested = .ok () :=
    checkRequestedIds_eq_ok.mpr ⟨fun id hid => ⟨h.valid id hid, List.not_mem_nil⟩, h.nodup⟩
  obtain ⟨lists, hlists⟩ := Except.exists_mapM_eq_ok (f := groupsOf catalog withOptional)
    (l := requested.sortDedup) fun id hid => exists_groupsOf_iff.mpr (h.known id (List.mem_sortDedup.mp hid))
  exact ⟨lists.flatten.sortDedup, by simp [selectedGroups, hchecked, hlists]⟩

/-! ## The sets to begin with -/

/-- What the selection has after a package, or after packages, of a group. -/
structure Selection.Adds (withOptional : Bool) (s s' : Selection) (ids : String → Prop)
    (adds : String → CompsPackage → Prop) : Prop where
  keys : ∀ g, g ∈ s'.packages ↔ g ∈ s.packages ∨ ids g
  packages : ∀ g n, n ∈ s'.packages.getD g ∅ ↔
    n ∈ s.packages.getD g ∅ ∨ ∃ p, adds g p ∧ direct withOptional p = true ∧ p.name = n
  conditional : ∀ g p, p ∈ s'.conditional.getD g [] ↔
    p ∈ s.conditional.getD g [] ∨ (adds g p ∧ p.kind = .conditional)

variable {s s' s'' : Selection} {ids ids' : String → Prop} {adds adds' : String → CompsPackage → Prop}

theorem Selection.Adds.trans (h : s.Adds withOptional s' ids adds)
    (h' : s'.Adds withOptional s'' ids' adds') :
    s.Adds withOptional s'' (fun g => ids g ∨ ids' g) fun g p => adds g p ∨ adds' g p := by
  refine ⟨fun g => ?_, fun g n => ?_, fun g p => ?_⟩
  · rw [h'.keys, h.keys, or_assoc]
  · rw [h'.packages, h.packages, or_assoc]
    simp only [or_and_right, exists_or]
  · rw [h'.conditional, h.conditional, or_assoc, or_and_right]

theorem Selection.Adds.congr {ids' : String → Prop} {adds' : String → CompsPackage → Prop}
    (h : s.Adds withOptional s' ids adds) (hids : ∀ g, g ∈ s.packages ∨ ids g ↔ g ∈ s.packages ∨ ids' g)
    (hadds : ∀ g p, adds g p ↔ adds' g p) : s.Adds withOptional s' ids' adds' := by
  obtain rfl : adds = adds' := funext fun g => funext fun p => propext (hadds g p)
  exact ⟨fun g => (h.keys g).trans (hids g), h.packages, h.conditional⟩

theorem adds_add {p : CompsPackage} (hid : id ∈ s.packages) :
    s.Adds withOptional (s.add withOptional id p) (fun _ => False) fun g q => g = id ∧ q = p := by
  unfold Selection.add
  split
  next hdirect =>
    have hkind : p.kind ≠ .conditional := by
      intro hkind
      rw [direct, hkind] at hdirect
      cases hdirect
    refine ⟨fun g => ?_, fun g n => ?_, fun g q => ?_⟩
    · rw [ExtTreeMap.mem_modify, or_false]
    · rw [Rounds.mem_getD_modify]
      refine or_congr_right ?_
      constructor
      · rintro ⟨rfl, rfl, -⟩
        exact ⟨p, ⟨rfl, rfl⟩, hdirect, rfl⟩
      · rintro ⟨_, ⟨rfl, rfl⟩, -, rfl⟩
        exact ⟨rfl, rfl, hid⟩
    · refine (or_iff_left ?_).symm
      rintro ⟨⟨-, rfl⟩, hq⟩
      exact hkind hq
  next hnot =>
    have hno : ∀ g n, ¬ ∃ q, (g = id ∧ q = p) ∧ direct withOptional q = true ∧ q.name = n := by
      rintro g n ⟨_, ⟨-, rfl⟩, h, -⟩
      exact hnot h
    split
    next hkind =>
      refine ⟨fun g => by rw [or_false], fun g n => (or_iff_left (hno g n)).symm, fun g q => ?_⟩
      rw [ExtTreeMap.getD_alter]
      by_cases hg : id = g
      · subst hg
        rw [if_pos (Std.compare_eq_iff_eq.mpr rfl), ← ExtTreeMap.getD_eq_getD_getElem?]
        simp only [Option.getD_some, List.mem_append, List.mem_singleton, true_and]
        refine or_congr_right ⟨?_, And.left⟩
        rintro rfl
        exact ⟨rfl, hkind⟩
      · rw [if_neg (mt Std.compare_eq_iff_eq.mp hg)]
        refine (or_iff_left ?_).symm
        rintro ⟨⟨rfl, -⟩, -⟩
        exact hg rfl
    next hkind =>
      refine ⟨fun g => by rw [or_false], fun g n => (or_iff_left (hno g n)).symm,
        fun g q => (or_iff_left ?_).symm⟩
      rintro ⟨⟨-, rfl⟩, hq⟩
      exact hkind hq

theorem adds_foldl {ps : List CompsPackage} (hid : id ∈ s.packages) :
    s.Adds withOptional (ps.foldl (Selection.add withOptional id) s) (fun _ => False)
      fun g p => g = id ∧ p ∈ ps := by
  induction ps generalizing s with
  | nil => exact ⟨fun g => by simp, fun g n => by simp, fun g p => by simp⟩
  | cons p ps ih =>
    have hone := @adds_add withOptional id s p hid
    have hrest := ih ((hone.keys id).mpr (.inl hid))
    refine (hone.trans hrest).congr (fun g => by simp) fun g q => ?_
    rw [List.mem_cons, and_or_left]

theorem adds_selectGroup (h : selectGroup catalog withOptional s id = .ok s') :
    ∃ group, catalog.groups[id]? = some group ∧
      s.Adds withOptional s' (· = id) fun g p => g = id ∧ p ∈ group.packages := by
  obtain ⟨group, hgroup, h⟩ := Except.bind_eq_ok.mp h
  cases Except.pure_eq_ok.mp h
  refine ⟨group, Except.okOr_eq_ok.mp hgroup, ?_⟩
  have hfirst : s.Adds withOptional { s with packages := s.packages.insertIfNew id ∅ } (· = id)
      fun _ _ => False := by
    refine ⟨fun g => ?_, fun g n => ?_, fun g p => by simp⟩
    · rw [ExtTreeMap.mem_insertIfNew, Std.compare_eq_iff_eq, or_comm, eq_comm]
    · rw [ExtTreeMap.getD_insertIfNew]
      split
      next hnew =>
        rw [Std.compare_eq_iff_eq] at hnew
        rw [Rounds.getD_of_notMem (hnew.1 ▸ hnew.2)]
        simp
      · simp
  have hid := (hfirst.keys id).mpr (.inr rfl)
  refine (hfirst.trans (adds_foldl hid)).congr (fun g => by simp) fun g p => by simp

/-- What the loop over the groups has gathered. -/
theorem adds_foldlM {groups : List String}
    (h : groups.foldlM (selectGroup catalog withOptional) s = .ok s') :
    (∀ g ∈ groups, g ∈ catalog.groups) ∧ s.Adds withOptional s' (· ∈ groups) fun g p => g ∈ groups ∧
      ∃ group, catalog.groups[g]? = some group ∧ p ∈ group.packages := by
  induction groups generalizing s with
  | nil =>
    cases Except.pure_eq_ok.mp h
    exact ⟨nofun, fun g => by simp, fun g n => by simp, fun g p => by simp⟩
  | cons id groups ih =>
    rw [List.foldlM_cons, Except.bind_eq_ok] at h
    obtain ⟨s₁, hone, h⟩ := h
    obtain ⟨group, hgroup, hadds⟩ := adds_selectGroup hone
    obtain ⟨hpresent, hrest⟩ := ih h
    refine ⟨?_, (hadds.trans hrest).congr (fun g => by simp) fun g p => ?_⟩
    · rw [List.forall_mem_cons]
      exact ⟨ExtTreeMap.mem_iff_isSome_getElem?.mpr (by rw [hgroup]; rfl), hpresent⟩
    · rw [List.mem_cons, or_and_right]
      refine or_congr_left ?_
      constructor
      · rintro ⟨rfl, hp⟩
        exact ⟨rfl, group, hgroup, hp⟩
      · rintro ⟨rfl, group', hgroup', hp⟩
        rw [hgroup] at hgroup'
        cases hgroup'
        exact ⟨rfl, hp⟩

theorem exists_foldlM {groups : List String} (h : ∀ g ∈ groups, g ∈ catalog.groups) :
    ∃ s', groups.foldlM (selectGroup catalog withOptional) s = .ok s' := by
  induction groups generalizing s with
  | nil => exact ⟨s, rfl⟩
  | cons id groups ih =>
    obtain ⟨group, hgroup⟩ := Option.isSome_iff_exists.mp
      (ExtTreeMap.mem_iff_isSome_getElem?.mp (h id List.mem_cons_self))
    obtain ⟨s', hs'⟩ := ih (s := group.packages.foldl (Selection.add withOptional id)
      { s with packages := s.packages.insertIfNew id ∅ }) fun g hg => h g (List.mem_cons_of_mem _ hg)
    refine ⟨s', ?_⟩
    rw [List.foldlM_cons, selectGroup, hgroup]
    exact hs'

/-! ## The result -/

theorem mem_conditionalRules {conditional : ExtTreeMap String (List CompsPackage)}
    {r : Rule String String} : r ∈ conditionalRules conditional ↔
      ∃ p ∈ conditional.getD r.target [], p.condition = r.condition ∧ p.name = r.name := by
  simp only [conditionalRules, List.mem_flatMap, List.mem_map, Prod.exists,
    ExtTreeMap.mem_toList_iff_getElem?_eq_some]
  constructor
  · rintro ⟨g, waiting, hg, p, hp, rfl⟩
    refine ⟨p, ?_, rfl, rfl⟩
    rwa [ExtTreeMap.getD_eq_getD_getElem?, hg]
  · rintro ⟨p, hp, hcondition, hname⟩
    rw [ExtTreeMap.getD_eq_getD_getElem?] at hp
    cases hg : conditional[r.target]? with
    | none =>
      rw [hg] at hp
      cases hp
    | some waiting =>
      rw [hg] at hp
      exact ⟨r.target, waiting, hg, p, hp, by rw [hcondition, hname]⟩

variable {inventory : InstalledInventory} {result : Sets String String}

/-- The assignments that the loop has to reach are the complete ones. -/
theorem complete_iff {groups : List String} {selection : Selection} {T : String → Set String}
    (hgroups : ∀ g, g ∈ groups ↔ Selected catalog withOptional requested g)
    (h : Selection.Adds withOptional ⟨∅, ∅⟩ selection (· ∈ groups) fun g p => g ∈ groups ∧
      ∃ group, catalog.groups[g]? = some group ∧ p ∈ group.packages) :
    ((∀ g, ↑(selection.packages.getD g ∅) ⊆ T g) ∧
      Rounds.Closed (conditionalRules selection.conditional)
        (inventory.packages.map (·.name)).toFinset (· ∈ selection.packages) T) ↔
    Complete catalog withOptional inventory requested T := by
  have hkeys : ∀ g, g ∈ selection.packages ↔ Selected catalog withOptional requested g := by
    intro g
    rw [h.keys, hgroups]
    exact or_iff_right (by simp)
  have hpackages : ∀ g n, n ∈ selection.packages.getD g ∅ ↔
      ∃ p, (g ∈ groups ∧ ∃ group, catalog.groups[g]? = some group ∧ p ∈ group.packages) ∧
        direct withOptional p = true ∧ p.name = n := by
    intro g n
    rw [h.packages]
    exact or_iff_right (by simp)
  have hconditional : ∀ g p, p ∈ selection.conditional.getD g [] ↔
      (g ∈ groups ∧ ∃ group, catalog.groups[g]? = some group ∧ p ∈ group.packages) ∧
        p.kind = .conditional := by
    intro g p
    rw [h.conditional]
    exact or_iff_right (by simp)
  constructor
  · rintro ⟨hbase, hclosed⟩
    refine ⟨fun g hg group hgroup p hp hdirect => ?_, fun g hg group hgroup p hp hkind c hc hav => ?_⟩
    · exact hbase g ((hpackages g _).mpr ⟨p, ⟨(hgroups g).mpr hg, group, hgroup, hp⟩, hdirect, rfl⟩)
    · have hrule : ⟨g, p.condition, p.name⟩ ∈ conditionalRules selection.conditional :=
        mem_conditionalRules.mpr ⟨p, (hconditional g p).mpr
          ⟨⟨(hgroups g).mpr hg, group, hgroup, hp⟩, hkind⟩, rfl, rfl⟩
      refine hclosed _ hrule ((hkeys g).mpr hg) c hc (hav.imp ?_ ?_)
      · rintro ⟨i, hi, rfl⟩
        exact List.mem_toFinset.mpr (List.mem_map_of_mem hi)
      · rintro ⟨g', hg', hmem⟩
        exact ⟨g', (hkeys g').mpr hg', hmem⟩
  · intro hcomplete
    refine ⟨fun g n hn => ?_, fun r hr hk c hc hav => ?_⟩
    · obtain ⟨p, ⟨hg, group, hgroup, hp⟩, hdirect, rfl⟩ := (hpackages g n).mp hn
      exact hcomplete.direct g ((hgroups g).mp hg) group hgroup p hp hdirect
    · obtain ⟨p, hp, hcondition, hname⟩ := mem_conditionalRules.mp hr
      obtain ⟨⟨hg, group, hgroup, hp⟩, hkind⟩ := (hconditional _ p).mp hp
      rw [← hname]
      refine hcomplete.conditional _ ((hgroups _).mp hg) group hgroup p hp hkind c
        (hcondition.trans hc) (hav.imp (fun hbase => ?_) ?_)
      · obtain ⟨i, hi, rfl⟩ := List.mem_map.mp (List.mem_toFinset.mp hbase)
        exact ⟨i, hi, rfl⟩
      · rintro ⟨g', hg', hmem⟩
        exact ⟨g', (hkeys g').mp hg', hmem⟩

theorem of_selectedGroupPackageMap_eq_ok
    (h : selectedGroupPackageMap catalog withOptional inventory requested = .ok result) :
    Selectable catalog withOptional requested ∧
      (∀ g, g ∈ result ↔ Selected catalog withOptional requested g) ∧
      IsLeast {T | Complete catalog withOptional inventory requested T}
        fun g => ↑(result.getD g ∅) := by
  obtain ⟨groups, hgroups, h⟩ := Except.bind_eq_ok.mp h
  obtain ⟨selection, hselection, h⟩ := Except.bind_eq_ok.mp h
  cases Except.pure_eq_ok.mp h
  obtain ⟨⟨hvalid, hnodup, hknown⟩, hmem, -⟩ := mem_selectedGroups hgroups
  obtain ⟨hpresent, hadds⟩ := adds_foldlM hselection
  refine ⟨⟨hvalid, hnodup, hknown, fun g hg => hpresent g ((hmem g).mpr hg)⟩, fun g => ?_, ?_⟩
  · rw [Rounds.mem_close, hadds.keys, hmem]
    exact or_iff_right (by simp)
  · have hleast := Rounds.isLeast_close (conditionalRules selection.conditional)
      (inventory.packages.map (·.name)).toFinset selection.packages
    rwa [Set.ext fun T => complete_iff hmem hadds] at hleast

theorem exists_selectedGroupPackageMap (h : Selectable catalog withOptional requested) :
    ∃ result, selectedGroupPackageMap catalog withOptional inventory requested = .ok result := by
  obtain ⟨groups, hgroups⟩ := exists_selectedGroups h
  obtain ⟨-, hmem, -⟩ := mem_selectedGroups hgroups
  obtain ⟨selection, hselection⟩ := @exists_foldlM catalog withOptional ⟨∅, ∅⟩ groups
    fun g hg => h.present g ((hmem g).mp hg)
  exact ⟨_, by rw [selectedGroupPackageMap, hgroups, Except.ok_bind, hselection]; rfl⟩

/-- The entries and the least assignment determine the map. -/
theorem eq_of_isLeast {result' : Sets String String} {S : Set (String → Set String)}
    {keys : String → Prop} (hkeys : ∀ g, g ∈ result ↔ keys g) (hkeys' : ∀ g, g ∈ result' ↔ keys g)
    (h : IsLeast S fun g => ↑(result.getD g ∅)) (h' : IsLeast S fun g => ↑(result'.getD g ∅)) :
    result = result' := by
  refine ExtTreeMap.ext_getElem? fun g => ?_
  have hsame : result.getD g ∅ = result'.getD g ∅ := Finset.coe_injective (congrFun (h.unique h') g)
  rw [ExtTreeMap.getD_eq_getD_getElem?, ExtTreeMap.getD_eq_getD_getElem?] at hsame
  have hboth : result[g]?.isSome ↔ result'[g]?.isSome := by
    rw [← ExtTreeMap.mem_iff_isSome_getElem?, ← ExtTreeMap.mem_iff_isSome_getElem?, hkeys, hkeys']
  cases hg : result[g]? with
  | none =>
    rw [hg] at hboth
    exact (Option.not_isSome_iff_eq_none.mp (mt hboth.mpr nofun)).symm
  | some names =>
    rw [hg] at hboth hsame
    obtain ⟨names', hnames'⟩ := Option.isSome_iff_exists.mp (hboth.mp rfl)
    rw [hnames'] at hsame ⊢
    exact congrArg some hsame

theorem selectable_perm {requested' : List String} (h : requested.Perm requested') :
    (∀ g, Selected catalog withOptional requested g ↔ Selected catalog withOptional requested' g) ∧
      (Selectable catalog withOptional requested → Selectable catalog withOptional requested') := by
  have hselected : ∀ g, Selected catalog withOptional requested g ↔
      Selected catalog withOptional requested' g := by
    intro g
    simp only [Selected, h.mem_iff]
  refine ⟨hselected, fun hs => ⟨?_, h.nodup hs.nodup, ?_, fun g hg => hs.present g ((hselected g).mpr hg)⟩⟩
  · exact fun id hid => hs.valid id (h.mem_iff.mpr hid)
  · exact fun id hid => hs.known id (h.mem_iff.mpr hid)

theorem Complete.congr {requested' : List String} {T : String → Set String}
    (h : ∀ g, Selected catalog withOptional requested g ↔ Selected catalog withOptional requested' g) :
    Complete catalog withOptional inventory requested T ↔
      Complete catalog withOptional inventory requested' T := by
  constructor
  · intro hT
    refine ⟨fun g hg => hT.direct g ((h g).mpr hg), fun g hg group hgroup p hp hkind c hc hav => ?_⟩
    refine hT.conditional g ((h g).mpr hg) group hgroup p hp hkind c hc (hav.imp_right ?_)
    exact fun ⟨g', hg', hmem⟩ => ⟨g', (h g').mpr hg', hmem⟩
  · intro hT
    refine ⟨fun g hg => hT.direct g ((h g).mp hg), fun g hg group hgroup p hp hkind c hc hav => ?_⟩
    refine hT.conditional g ((h g).mp hg) group hgroup p hp hkind c hc (hav.imp_right ?_)
    exact fun ⟨g', hg', hmem⟩ => ⟨g', (h g').mp hg', hmem⟩

/-- A request for what is in the catalog gives the selected groups and the least complete assignment,
in whatever order it names them. -/
theorem selectedGroupPackageMap_spec (catalog : Catalog) (withOptional : Bool)
    (inventory : InstalledInventory) (requested : List String) (result : Sets String String) :
    (selectedGroupPackageMap catalog withOptional inventory requested = .ok result ↔
      Selectable catalog withOptional requested ∧
      (∀ g, g ∈ result ↔ Selected catalog withOptional requested g) ∧
      IsLeast {T | Complete catalog withOptional inventory requested T}
        fun g => ↑(result.getD g ∅)) ∧
    ∀ requested' : List String, requested.Perm requested' →
      (selectedGroupPackageMap catalog withOptional inventory requested = .ok result ↔
        selectedGroupPackageMap catalog withOptional inventory requested' = .ok result) := by
  have hspec : ∀ requested, selectedGroupPackageMap catalog withOptional inventory requested = .ok result ↔
      Selectable catalog withOptional requested ∧
      (∀ g, g ∈ result ↔ Selected catalog withOptional requested g) ∧
      IsLeast {T | Complete catalog withOptional inventory requested T}
        fun g => ↑(result.getD g ∅) := by
    refine fun requested => ⟨of_selectedGroupPackageMap_eq_ok, fun ⟨hselectable, hkeys, hleast⟩ => ?_⟩
    obtain ⟨result', hok⟩ := @exists_selectedGroupPackageMap catalog withOptional requested inventory
      hselectable
    obtain ⟨-, hkeys', hleast'⟩ := of_selectedGroupPackageMap_eq_ok hok
    rw [hok, eq_of_isLeast hkeys' hkeys hleast' hleast]
  refine ⟨hspec requested, fun requested' hperm => ?_⟩
  obtain ⟨hselected, hforward⟩ := @selectable_perm catalog withOptional requested requested' hperm
  obtain ⟨-, hback⟩ := @selectable_perm catalog withOptional requested' requested hperm.symm
  rw [hspec, hspec]
  simp only [hselected, Complete.congr hselected]
  exact and_congr_left fun _ => ⟨hforward, hback⟩

end

end Dnfast.Cli
