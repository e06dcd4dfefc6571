import Dnfast.Data.TreeMapTotal
import Dnfast.Group.Model
import Dnfast.State.Load

/-! # Valid group states

What `validate_state` accepts (`ValidState`), and what the two mutations do to the map of groups,
entry by entry. `Sound` is the part of validity that every mutation keeps; the bounds are the other
part. -/

namespace Dnfast.Group

open Std (ExtTreeMap)
open Dnfast.State (StateError isDigest validateDigest validateDigest_eq_ok)

/-! ## Validation -/

theorem forM_eq_ok {α ε : Type} {f : α → Except ε Unit} {l : List α} :
    l.forM f = .ok () ↔ ∀ a ∈ l, f a = .ok () := by
  induction l with
  | nil => simp [pure, Except.pure]
  | cons a l ih =>
    rw [List.forall_mem_cons, ← ih]
    change (f a >>= fun _ => l.forM f) = _ ↔ _
    cases f a <;> simp [bind, Except.bind]

theorem strictlyAscending_iff {l : List String} :
    strictlyAscending l = true ↔ l.Pairwise (· < ·) := by
  rw [← List.isChain_iff_pairwise]
  induction l with
  | nil => simp [strictlyAscending]
  | cons a l ih =>
    cases l with
    | nil => simp [strictlyAscending]
    | cons b l => simp [strictlyAscending, ih]

theorem validateId_eq_ok {value : String} : validateId value = .ok () ↔ validId value = true := by
  unfold validateId
  split <;> simp_all

/-- The content of `validate_sorted_ids`. -/
structure SortedIds (values : List String) : Prop where
  ascending : values.Pairwise (· < ·)
  valid : ∀ v ∈ values, validId v = true

theorem validateSortedIds_eq_ok {values : List String} :
    validateSortedIds values = .ok () ↔ SortedIds values := by
  unfold validateSortedIds
  split
  · rename_i h
    simp only [Bool.not_eq_true', ← Bool.not_eq_true, strictlyAscending_iff] at h
    exact ⟨nofun, fun h' => absurd h'.ascending h⟩
  · rename_i h
    simp only [Bool.not_eq_true', Bool.not_eq_false, strictlyAscending_iff] at h
    rw [forM_eq_ok]
    exact ⟨fun h' => ⟨h, fun v hv => validateId_eq_ok.mp (h' v hv)⟩,
      fun h' v hv => validateId_eq_ok.mpr (h'.valid v hv)⟩

theorem sortedIds_nil : SortedIds [] := ⟨.nil, by simp⟩

theorem sortedIds_sortDedup {l : List String} (h : ∀ v ∈ l, validId v = true) :
    SortedIds l.sortDedup :=
  ⟨List.pairwise_sortDedup l, fun v hv => h v (List.mem_sortDedup.mp hv)⟩

theorem SortedIds.filter {l : List String} (h : SortedIds l) (keep : String → Bool) :
    SortedIds (l.filter keep) :=
  ⟨h.ascending.filter _, fun v hv => h.valid v (List.mem_filter.mp hv).1⟩

/-- Every entry of the map is an id with a sorted list of ids. -/
def ValidGroups (groups : GroupMap) : Prop :=
  ∀ (id : String) packages, groups[id]? = some packages → validId id = true ∧ SortedIds packages

theorem validateGroups_eq_ok {groups : GroupMap} :
    validateGroups groups = .ok () ↔ ValidGroups groups := by
  unfold validateGroups
  rw [forM_eq_ok]
  have hentry : ∀ (id : String) packages, (do
      validateId id
      validateSortedIds packages) = Except.ok () ↔ validId id = true ∧ SortedIds packages := by
    intro id packages
    rw [← validateId_eq_ok, ← validateSortedIds_eq_ok]
    cases validateId id <;> simp [bind, Except.bind]
  constructor
  · intro h id packages hid
    exact (hentry id packages).mp (h (id, packages)
      (ExtTreeMap.mem_toList_iff_getElem?_eq_some.mpr hid))
  · rintro h ⟨id, packages⟩ hmem
    exact (hentry id packages).mpr (h id packages
      (ExtTreeMap.mem_toList_iff_getElem?_eq_some.mp hmem))

theorem mem_packagesOf {groups : GroupMap} {package : String} :
    package ∈ packagesOf groups ↔
      ∃ (id : String) (packages : List String), groups[id]? = some packages ∧ package ∈ packages := by
  simp only [packagesOf, List.mem_flatMap, Prod.exists, ExtTreeMap.mem_toList_iff_getElem?_eq_some]

/-- The content of the checks on a pending mutation. -/
structure ValidMutation (m : PendingMutation) : Prop where
  digest : isDigest m.planSha256 = true
  nonempty : m.groups.isEmpty = false
  groups : ValidGroups m.groups
  introduced : SortedIds m.introducedPackages
  remove : m.kind = .remove → m.introducedPackages = []
  owned : ∀ package ∈ m.introducedPackages, package ∈ packagesOf m.groups
  seen : m.seenTransactionIds.Pairwise (· < ·)

theorem any_not_contains_eq_false {l l' : List String} :
    (l.any fun package => !l'.contains package) = false ↔ ∀ package ∈ l, package ∈ l' := by
  simp

theorem validateMutation_eq_ok {m : PendingMutation} :
    validateMutation m = .ok () ↔ ValidMutation m := by
  unfold validateMutation
  constructor
  · intro h
    cases hdigest : validateDigest m.planSha256 with
    | error e => simp [hdigest, bind, Except.bind] at h
    | ok u =>
      simp only [hdigest, bind, Except.bind] at h
      split at h
      · cases h
      · rename_i hne
        cases hgroups : validateGroups m.groups with
        | error e => simp [hgroups] at h
        | ok u =>
          simp only [hgroups] at h
          cases hintro : validateSortedIds m.introducedPackages with
          | error e => simp [hintro] at h
          | ok u =>
            simp only [hintro] at h
            split at h
            · cases h
            · rename_i hbad
              split at h
              · cases h
              · rename_i hseen
                obtain ⟨hremove, howned⟩ := not_or.mp hbad
                refine ⟨validateDigest_eq_ok.mp hdigest, by simpa using hne,
                  validateGroups_eq_ok.mp hgroups, validateSortedIds_eq_ok.mp hintro, ?_, ?_, ?_⟩
                · intro hkind
                  simpa [hkind] using hremove
                · exact any_not_contains_eq_false.mp (by simpa using howned)
                · exact strictlyAscending_iff.mp (by simpa using hseen)
  · rintro ⟨hdigest, hne, hgroups, hintro, hremove, howned, hseen⟩
    have hbad : ¬ ((m.kind = .remove ∧ (!m.introducedPackages.isEmpty) = true) ∨
        (m.introducedPackages.any fun package => !(packagesOf m.groups).contains package) =
          true) := by
      rintro (⟨hkind, hne'⟩ | hany)
      · simp [hremove hkind] at hne'
      · rw [any_not_contains_eq_false.mpr howned] at hany
        cases hany
    simp only [validateDigest_eq_ok.mpr hdigest, hne, validateGroups_eq_ok.mpr hgroups,
      validateSortedIds_eq_ok.mpr hintro, bind, Except.bind, if_neg hbad,
      strictlyAscending_iff.mpr hseen]
    rfl

/-- What every mutation keeps. -/
structure Sound (s : GroupState) : Prop where
  schema : s.schemaVersion = 2
  groups : ValidGroups s.groups
  introduced : SortedIds s.introducedPackages
  owned : ∀ package ∈ s.introducedPackages, package ∈ packagesOf s.groups
  pending : ∀ m ∈ s.pending, ValidMutation m

/-- The content of `validate_state`. -/
structure ValidState (s : GroupState) : Prop extends Sound s where
  groupCount : s.groups.size ≤ maxGroups
  pendingCount : s.pending.length ≤ maxPending
  packages : s.packageCount ≤ maxPackages

theorem validateState_eq_ok {s : GroupState} : validateState s = .ok () ↔ ValidState s := by
  unfold validateState
  constructor
  · intro h
    split at h
    · cases h
    · rename_i hbounds
      simp only [not_or, not_not, Nat.not_lt] at hbounds
      split at h
      · cases h
      · rename_i hpackages
        cases hgroups : validateGroups s.groups with
        | error e => simp [hgroups, bind, Except.bind] at h
        | ok u =>
          simp only [hgroups, bind, Except.bind] at h
          cases hintro : validateSortedIds s.introducedPackages with
          | error e => simp [hintro] at h
          | ok u =>
            simp only [hintro] at h
            split at h
            · cases h
            · rename_i howned
              refine ⟨⟨hbounds.1, validateGroups_eq_ok.mp hgroups,
                validateSortedIds_eq_ok.mp hintro, ?_, ?_⟩, hbounds.2.1, hbounds.2.2,
                Nat.not_lt.mp hpackages⟩
              · exact any_not_contains_eq_false.mp (by simpa using howned)
              · exact fun m hm => validateMutation_eq_ok.mp (forM_eq_ok.mp h m hm)
  · rintro ⟨⟨hschema, hgroups, hintro, howned, hpending⟩, hcount, hlen, hpackages⟩
    rw [if_neg (by simp [hschema, Nat.not_lt.mpr hcount, Nat.not_lt.mpr hlen]),
      if_neg (Nat.not_lt.mpr hpackages)]
    simp only [validateGroups_eq_ok.mpr hgroups, validateSortedIds_eq_ok.mpr hintro, bind,
      Except.bind, any_not_contains_eq_false.mpr howned, Bool.false_eq_true, if_false]
    exact forM_eq_ok.mpr fun m hm => validateMutation_eq_ok.mpr (hpending m hm)

theorem toList_empty : (∅ : GroupMap).toList = [] := by
  simp

theorem validState_default : ValidState .default := by
  have hempty : ∀ id : String, GroupState.default.groups[id]? = none := fun id => by
    simp [GroupState.default]
  refine ⟨⟨rfl, fun id packages h => ?_, sortedIds_nil, ?_, ?_⟩, ?_, ?_, ?_⟩
  · rw [hempty] at h
    cases h
  · simp [GroupState.default]
  · simp [GroupState.default]
  · simp [GroupState.default]
  · simp [GroupState.default]
  · simp [GroupState.default, GroupState.packageCount, GroupMap.packageCount, toList_empty]

/-! ## The map after an installation -/

/-- Adding a list of entries with distinct ids, entry by entry. -/
theorem getElem?_foldl_addGroup (l : List (String × List String)) (hl : (l.map Prod.fst).Nodup)
    (groups : GroupMap) (id : String) :
    (∀ packages, (id, packages) ∈ l →
      (l.foldl (fun owned (id, packages) => addGroup owned id packages) groups)[id]? =
        some (groups[id]?.getD [] ++ packages).sortDedup) ∧
    (id ∉ l.map Prod.fst →
      (l.foldl (fun owned (id, packages) => addGroup owned id packages) groups)[id]? =
        groups[id]?) := by
  induction l generalizing groups with
  | nil => simp
  | cons x l ih =>
    obtain ⟨id', packages'⟩ := x
    obtain ⟨hnot, hnodup⟩ := List.nodup_cons.mp hl
    obtain ⟨hmem, hfree⟩ := ih hnodup (addGroup groups id' packages')
    simp only [List.foldl_cons, List.map_cons, List.mem_cons, Prod.mk.injEq]
    constructor
    · rintro packages (⟨rfl, rfl⟩ | hin)
      · rw [hfree hnot]
        simp [addGroup]
      · have hne : id' ≠ id := by
          rintro rfl
          exact hnot (List.mem_map.mpr ⟨_, hin, rfl⟩)
        rw [hmem packages hin]
        simp [addGroup, ExtTreeMap.getElem?_insert, hne]
    · intro hnot'
      obtain ⟨hne, hrest⟩ := not_or.mp hnot'
      rw [hfree hrest]
      simp [addGroup, ExtTreeMap.getElem?_insert, Ne.symm hne]

theorem nodup_map_fst_toList (groups : GroupMap) : (groups.toList.map Prod.fst).Nodup := by
  rw [ExtTreeMap.map_fst_toList_eq_keys]
  exact ExtTreeMap.nodup_keys

theorem applyInstall_of_mem (s : GroupState) {groups : GroupMap} {introduced : List String}
    {id : String} {packages : List String} (h : groups[id]? = some packages) :
    (applyInstall s groups introduced).groups[id]? =
      some (s.groups[id]?.getD [] ++ packages).sortDedup :=
  (getElem?_foldl_addGroup _ (nodup_map_fst_toList groups) s.groups id).1 packages
    (ExtTreeMap.mem_toList_iff_getElem?_eq_some.mpr h)

theorem applyInstall_of_not_mem (s : GroupState) {groups : GroupMap} {introduced : List String}
    {id : String} (h : groups[id]? = none) :
    (applyInstall s groups introduced).groups[id]? = s.groups[id]? := by
  refine (getElem?_foldl_addGroup _ (nodup_map_fst_toList groups) s.groups id).2 ?_
  rw [ExtTreeMap.map_fst_toList_eq_keys, ExtTreeMap.mem_keys,
    ExtTreeMap.mem_iff_isSome_getElem?, h]
  simp

theorem mem_packagesOf_applyInstall {s : GroupState} {groups : GroupMap}
    {introduced : List String} {package : String} :
    package ∈ packagesOf (applyInstall s groups introduced).groups ↔
      package ∈ packagesOf s.groups ∨ package ∈ packagesOf groups := by
  simp only [mem_packagesOf]
  constructor
  · rintro ⟨id, packages, hid, hp⟩
    cases hg : groups[id]? with
    | none =>
      rw [applyInstall_of_not_mem s hg] at hid
      exact .inl ⟨id, packages, hid, hp⟩
    | some added =>
      rw [applyInstall_of_mem s hg, Option.some.injEq] at hid
      rw [← hid, List.mem_sortDedup, List.mem_append] at hp
      rcases hp with hp | hp
      · cases hs : s.groups[id]? with
        | none => simp [hs] at hp
        | some old => exact .inl ⟨id, old, hs, by simpa [hs] using hp⟩
      · exact .inr ⟨id, added, hg, hp⟩
  · rintro (⟨id, packages, hid, hp⟩ | ⟨id, packages, hid, hp⟩)
    · cases hg : groups[id]? with
      | none => exact ⟨id, packages, by rw [applyInstall_of_not_mem s hg, hid], hp⟩
      | some added =>
        exact ⟨id, _, applyInstall_of_mem s hg, by simp [hid, hp]⟩
    · exact ⟨id, _, applyInstall_of_mem s hid, by simp [hp]⟩

theorem Sound.applyInstall {s : GroupState} (h : Sound s) {groups : GroupMap}
    {introduced : List String} (hgroups : ValidGroups groups) (hintro : SortedIds introduced)
    (howned : ∀ package ∈ introduced, package ∈ packagesOf groups) :
    Sound (applyInstall s groups introduced) := by
  refine ⟨h.schema, fun id packages hid => ?_, ?_, fun package hp => ?_, h.pending⟩
  · cases hg : groups[id]? with
    | none =>
      rw [applyInstall_of_not_mem s hg] at hid
      exact h.groups id packages hid
    | some added =>
      rw [applyInstall_of_mem s hg, Option.some.injEq] at hid
      subst hid
      obtain ⟨hvalid, hadded⟩ := hgroups id added hg
      refine ⟨hvalid, sortedIds_sortDedup fun v hv => ?_⟩
      rcases List.mem_append.mp hv with hv | hv
      · cases hs : s.groups[id]? with
        | none => simp [hs] at hv
        | some old => exact (h.groups id old hs).2.valid v (by simpa [hs] using hv)
      · exact hadded.valid v hv
  · refine sortedIds_sortDedup fun v hv => ?_
    rcases List.mem_append.mp hv with hv | hv
    · exact h.introduced.valid v hv
    · exact hintro.valid v hv
  · rw [mem_packagesOf_applyInstall]
    rcases List.mem_append.mp (List.mem_sortDedup.mp hp) with hp | hp
    · exact .inl (h.owned package hp)
    · exact .inr (howned package hp)

/-! ## The map after a removal -/

theorem getElem?_foldl_erase (ids : List String) (groups : GroupMap) (id : String) :
    (ids.foldl (fun groups id => groups.erase id) groups)[id]? =
      if id ∈ ids then none else groups[id]? := by
  induction ids generalizing groups with
  | nil => simp
  | cons i ids ih =>
    rw [List.foldl_cons, ih, ExtTreeMap.getElem?_erase]
    by_cases hid : id ∈ ids
    · simp [hid]
    · by_cases hi : i = id
      · simp [hi]
      · simp [hid, hi, Ne.symm hi]

@[simp] theorem applyRemove_groups (s : GroupState) (ids : List String) (id : String) :
    (applyRemove s ids).groups[id]? = if id ∈ ids then none else s.groups[id]? :=
  getElem?_foldl_erase ids s.groups id

theorem mem_retainedPackages {groups : GroupMap} {ids : List String} {package : String} :
    package ∈ retainedPackages groups ids ↔ ∃ (id : String) (packages : List String),
      groups[id]? = some packages ∧ id ∉ ids ∧ package ∈ packages := by
  simp only [retainedPackages, List.mem_flatMap, List.mem_filter, Prod.exists,
    ExtTreeMap.mem_toList_iff_getElem?_eq_some, Bool.not_eq_true', ← Bool.not_eq_true,
    List.contains_iff_mem]
  constructor
  · rintro ⟨id, packages, ⟨h1, h2⟩, h3⟩
    exact ⟨id, packages, h1, h2, h3⟩
  · rintro ⟨id, packages, h1, h2, h3⟩
    exact ⟨id, packages, ⟨h1, h2⟩, h3⟩

theorem mem_removedPackages {groups : GroupMap} {ids : List String} {package : String} :
    package ∈ removedPackages groups ids ↔ ∃ (id : String) (packages : List String),
      groups[id]? = some packages ∧ id ∈ ids ∧ package ∈ packages := by
  simp only [removedPackages, List.mem_flatMap, List.mem_filter, Prod.exists,
    ExtTreeMap.mem_toList_iff_getElem?_eq_some, List.contains_iff_mem]
  constructor
  · rintro ⟨id, packages, ⟨h1, h2⟩, h3⟩
    exact ⟨id, packages, h1, h2, h3⟩
  · rintro ⟨id, packages, h1, h2, h3⟩
    exact ⟨id, packages, ⟨h1, h2⟩, h3⟩

theorem packagesOf_applyRemove {s : GroupState} {ids : List String} {package : String} :
    package ∈ packagesOf (applyRemove s ids).groups ↔
      package ∈ retainedPackages s.groups ids := by
  rw [mem_packagesOf, mem_retainedPackages]
  constructor
  · rintro ⟨id, packages, hid, hp⟩
    rw [applyRemove_groups] at hid
    split at hid
    · cases hid
    · rename_i hnot
      exact ⟨id, packages, hid, hnot, hp⟩
  · rintro ⟨id, packages, hid, hnot, hp⟩
    exact ⟨id, packages, by rw [applyRemove_groups, if_neg hnot, hid], hp⟩

theorem mem_introduced_applyRemove {s : GroupState} {ids : List String} {package : String} :
    package ∈ (applyRemove s ids).introducedPackages ↔ package ∈ s.introducedPackages ∧
      (package ∈ removedPackages s.groups ids → package ∈ retainedPackages s.groups ids) := by
  simp only [applyRemove, List.mem_filter, Bool.not_eq_true', ← Bool.not_eq_true,
    List.contains_iff_mem, not_and, not_not]

theorem Sound.applyRemove {s : GroupState} (h : Sound s) (ids : List String) :
    Sound (applyRemove s ids) := by
  refine ⟨h.schema, fun id packages hid => ?_, h.introduced.filter _, fun package hp => ?_,
    h.pending⟩
  · rw [applyRemove_groups] at hid
    split at hid
    · cases hid
    · exact h.groups id packages hid
  · -- an introduced package has an owner; when all its owners go, it is released
    obtain ⟨hintro, hrelease⟩ := mem_introduced_applyRemove.mp hp
    rw [packagesOf_applyRemove]
    obtain ⟨id, packages, hid, hmem⟩ := mem_packagesOf.mp (h.owned package hintro)
    by_cases hin : id ∈ ids
    · exact hrelease (mem_removedPackages.mpr ⟨id, packages, hid, hin, hmem⟩)
    · exact mem_retainedPackages.mpr ⟨id, packages, hid, hin, hmem⟩

theorem Sound.apply {s : GroupState} (h : Sound s) {m : PendingMutation} (hm : ValidMutation m) :
    Sound (m.apply s) := by
  unfold PendingMutation.apply
  split
  · exact h.applyInstall hm.groups hm.introduced hm.owned
  · exact h.applyRemove _

/-- A mutation of the groups leaves the pending mutations alone. -/
@[simp] theorem apply_pending (m : PendingMutation) (s : GroupState) :
    (m.apply s).pending = s.pending := by
  unfold PendingMutation.apply
  split <;> rfl

end Dnfast.Group
