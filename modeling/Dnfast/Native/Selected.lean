import Dnfast.Data.Forall2
import Dnfast.Native.Inventory

/-! # Reading the packages of some names

What `readLockedSelected` builds, in terms of a full read of the same database: the packages that
the inventory before has under other names, and those that the full read has under the names read
(`selectedSnapshot_eq_ok`). When the database has the same packages as before under all other names,
this is the full read (`selectedSnapshot_of_agree`). -/

namespace Dnfast.Core.InstalledInventory

variable {a b : InstalledInventory}

theorem packages_eq_of_perm (h : a.packages.Perm b.packages) : a.packages = b.packages :=
  h.eq_of_pairwise' (a.ordered.imp le_of_lt) (b.ordered.imp le_of_lt)

/-- An inventory is its backend, its version and the packages, in whatever order they come. -/
theorem eq_of_perm (hbackend : a.rpmdbBackend = b.rpmdbBackend) (hversion : a.rpmVersion = b.rpmVersion)
    (h : a.packages.Perm b.packages) : a = b := by
  have hpackages := packages_eq_of_perm h
  cases a
  cases b
  cases hbackend
  cases hversion
  cases hpackages
  rfl

theorem new_eq_ok {backend rpmVersion : String} {packages : List InstalledPackage}
    (h : new backend rpmVersion packages = .ok a) :
    a.rpmdbBackend = backend ∧ a.rpmVersion = rpmVersion ∧ a.packages.Perm packages := by
  unfold new at h
  simp only at h
  split at h
  · cases h
  · split_ifs at h
    cases h
    exact ⟨rfl, rfl, List.perm_insertionSort (· ≤ ·) packages⟩

theorem firstRepeated_eq_none_iff {seen : List UInt64} {ps : List InstalledPackage} :
    firstRepeated seen ps = none ↔
      (ps.map InstalledPackage.dbInstance).Nodup ∧ ∀ p ∈ ps, p.dbInstance ∉ seen := by
  refine ⟨firstRepeated_eq_none, ?_⟩
  induction ps generalizing seen with
  | nil => exact fun _ => rfl
  | cons p ps ih =>
    rintro ⟨hnodup, hfresh⟩
    obtain ⟨hnew, hnodup⟩ := List.nodup_cons.mp hnodup
    rw [firstRepeated, if_neg (hfresh p List.mem_cons_self)]
    refine ih ⟨hnodup, fun q hq hseen => ?_⟩
    rcases List.mem_cons.mp hseen with heq | hseen
    · exact hnew (List.mem_map.mpr ⟨q, hq, heq⟩)
    · exact hfresh q (List.mem_cons_of_mem _ hq) hseen

/-- The packages of an inventory build it again, in whatever order they come. -/
theorem new_of_perm {packages : List InstalledPackage} (h : packages.Perm a.packages) :
    new a.rpmdbBackend a.rpmVersion packages = .ok a := by
  have hsorted : packages.insertionSort (· ≤ ·) = a.packages :=
    ((List.perm_insertionSort (· ≤ ·) packages).trans h).eq_of_pairwise'
      (List.pairwise_insertionSort (· ≤ ·) packages) (a.ordered.imp le_of_lt)
  have hnone : firstRepeated [] (packages.insertionSort (· ≤ ·)) = none := by
    rw [hsorted, firstRepeated_eq_none_iff]
    exact ⟨a.instances, fun _ _ => List.not_mem_nil⟩
  have hordered : (packages.insertionSort (· ≤ ·)).Pairwise (· < ·) := hsorted ▸ a.ordered
  unfold new
  simp only
  split
  · next hsome =>
    rw [hnone] at hsome
    cases hsome
  · rw [dif_neg a.backendNamed, dif_neg a.versionNamed, dif_pos hordered]
    exact congrArg Except.ok (eq_of_perm rfl rfl (.of_eq hsorted))

/-- The inventory with the packages that `keep` holds of. -/
def restrict (inventory : InstalledInventory) (keep : InstalledPackage → Bool) :
    InstalledInventory where
  rpmdbBackend := inventory.rpmdbBackend
  rpmVersion := inventory.rpmVersion
  packages := inventory.packages.filter keep
  backendNamed := inventory.backendNamed
  versionNamed := inventory.versionNamed
  ordered := inventory.ordered.sublist List.filter_sublist
  instances := inventory.instances.sublist (List.filter_sublist.map _)

end Dnfast.Core.InstalledInventory

namespace Dnfast.Native

open Core (InstalledInventory InstalledPackage)

variable {db : Rpmdb} {before full inventory : InstalledInventory} {names : List String}
  {snapshot : InventorySnapshot}

/-! ## A full read -/

/-- A read of all packages that is not answered from the cache. -/
def Rpmdb.Reads (db : Rpmdb) (full : InstalledInventory) : Prop :=
  (readLockedUncached (.ok db) none).1 = .ok full

/-- What a full read went through. -/
structure FullRead (db : Rpmdb) (full : InstalledInventory) : Prop where
  cookie : db.cookie ≠ ""
  count : db.inventory.packages.length ≤ maxPackages
  backend : db.inventory.backend ≠ ""
  converts : convert db.inventory = .ok full

theorem reads_iff : db.Reads full ↔ FullRead db full := by
  unfold Rpmdb.Reads readLockedUncached readThrough
  simp only [Except.bind, Rpmdb.readCached, Rpmdb.takeCookie, Rpmdb.collected]
  constructor
  · intro h
    by_cases hcookie : db.cookie = ""
    · simp [hcookie, bind, Except.bind, Except.map] at h
    · by_cases hcount : db.inventory.packages.length > maxPackages
      · simp [hcookie, hcount, bind, Except.bind, Except.map] at h
      · by_cases hbackend : db.inventory.backend = ""
        · simp [hcookie, hcount, hbackend, bind, Except.bind, Except.map] at h
        · refine ⟨hcookie, not_lt.mp hcount, hbackend, ?_⟩
          cases hconvert : convert db.inventory with
          | error e =>
            simp [hcookie, hcount, hbackend, hconvert, bind, Except.bind, Except.map,
              finishCachedRead] at h
          | ok inventory =>
            simpa [hcookie, hcount, hbackend, hconvert, bind, Except.bind, Except.map,
              finishCachedRead] using h
  · rintro ⟨hcookie, hcount, hbackend, hconvert⟩
    simp [hcookie, not_lt.mpr hcount, hbackend, hconvert, bind, Except.bind, Except.map,
      finishCachedRead]

theorem convertPackage_name {raw : InventoryPackage} {p : InstalledPackage}
    (h : convertPackage raw = .ok p) : p.name = raw.name := by
  obtain ⟨arch, -, h⟩ := Except.bind_eq_ok.mp h
  rw [Except.mapError_eq_ok] at h
  unfold InstalledPackage.new at h
  split_ifs at h
  split at h
  · cases h
  · obtain ⟨_, -, rfl⟩ := Except.map_eq_ok.mp h
    rfl

/-! ## The packages of the names -/

section
variable {α β γ : Type}

theorem forall₂_flatMap {R : α → β → Prop} {F : γ → List α} {G : γ → List β}
    (h : ∀ k, List.Forall₂ R (F k) (G k)) (keys : List γ) :
    List.Forall₂ R (keys.flatMap F) (keys.flatMap G) := by
  induction keys with
  | nil => exact .nil
  | cons k keys ih => exact List.rel_append (h k) ih

variable [DecidableEq γ]

/-- Taking the elements of each key in turn is taking those with one of the keys. -/
theorem flatMap_filter_perm {keys : List γ} (hnodup : keys.Nodup) (f : α → γ) (l : List α) :
    (keys.flatMap fun k => l.filter (f · = k)).Perm (l.filter (f · ∈ keys)) := by
  induction keys with
  | nil => simp
  | cons k keys ih =>
    obtain ⟨hk, hnodup⟩ := List.nodup_cons.mp hnodup
    have hfirst : l.filter (f · = k) = (l.filter (f · ∈ k :: keys)).filter (f · = k) := by
      rw [List.filter_filter]
      exact List.filter_congr fun a _ => by simp +contextual
    have hrest : l.filter (f · ∈ keys) = (l.filter (f · ∈ k :: keys)).filter fun a =>
        !decide (f a = k) := by
      rw [List.filter_filter]
      refine List.filter_congr fun a _ => ?_
      by_cases ha : f a = k <;> simp [ha, hk]
    rw [List.flatMap_cons]
    refine ((ih hnodup).append_left _).trans ?_
    rw [hfirst, hrest]
    exact List.filter_append_perm ..

theorem forall₂_filter {R : α → β → Prop} {l : List α} {l' : List β} {f : α → γ} {g : β → γ}
    (h : List.Forall₂ R l l') (hfg : ∀ a b, R a b → g b = f a) (k : γ) :
    List.Forall₂ R (l.filter (f · = k)) (l'.filter (g · = k)) := by
  induction h with
  | nil => exact .nil
  | @cons a b l l' hr _ ih =>
    rw [List.filter_cons, List.filter_cons, hfg a b hr]
    split
    · exact .cons hr ih
    · exact ih

end

theorem convert_eq_ok {raw : Inventory} (h : convert raw = .ok full) :
    full.rpmdbBackend = raw.backend ∧ full.rpmVersion = raw.rpmVersion ∧
      ∃ packages, List.Forall₂ (fun r p => convertPackage r = .ok p) raw.packages packages ∧
        full.packages.Perm packages := by
  obtain ⟨packages, hpackages, h⟩ := Except.bind_eq_ok.mp h
  obtain ⟨hbackend, hversion, hperm⟩ :=
    InstalledInventory.new_eq_ok (Except.mapError_eq_ok.mp h)
  exact ⟨hbackend, hversion, packages, Except.mapM_eq_ok.mp hpackages, hperm⟩

/-- The raw packages of the names convert to those that the whole inventory has of them. -/
theorem convert_selected {raw : Inventory} (hnodup : names.Nodup) (h : convert raw = .ok full) :
    convert { raw with packages := names.flatMap fun n => raw.packages.filter (·.name = n) } =
      .ok (full.restrict (·.name ∈ names)) := by
  obtain ⟨hbackend, hversion, packages, hpackages, hperm⟩ := convert_eq_ok h
  have hselected : List.Forall₂ (fun r p => convertPackage r = .ok p)
      (names.flatMap fun n => raw.packages.filter (·.name = n))
      (names.flatMap fun n => packages.filter (·.name = n)) :=
    forall₂_flatMap (fun n => forall₂_filter hpackages (fun _ _ => convertPackage_name) n) names
  have hnew := @InstalledInventory.new_of_perm (full.restrict (·.name ∈ names))
    (names.flatMap fun n => packages.filter (·.name = n))
    ((flatMap_filter_perm hnodup _ packages).trans (hperm.symm.filter _))
  rw [convert, Except.mapM_eq_ok.mpr hselected, Except.ok_bind, ← hbackend, ← hversion]
  exact congrArg (Except.mapError _) hnew

/-! ## The read of the names -/

/-- The names that a plan changes: what `readLockedSelected` takes. -/
structure Selectable (names : List String) : Prop where
  nonempty : names ≠ []
  canonical : Rpmdb.canonicalNames names = true
  noNul : ∀ name ∈ names, Rpmdb.hasNul name = false
  count : names.length ≤ maxPackages
  named : "" ∉ names

theorem pairwise_of_canonicalNames (h : Rpmdb.canonicalNames names = true) :
    names.Pairwise (· < ·) := by
  rw [← List.isChain_iff_pairwise]
  induction names with
  | nil => exact .nil
  | cons a names ih =>
    cases names with
    | nil => exact .singleton a
    | cons b names =>
      simp only [Rpmdb.canonicalNames, List.tail_cons, List.zip_cons_cons, List.all_cons,
        Bool.and_eq_true, decide_eq_true_eq] at h
      exact .cons_cons h.1 (ih h.2)

theorem canonicalNames_of_pairwise (h : names.Pairwise (· < ·)) :
    Rpmdb.canonicalNames names = true := by
  rw [← List.isChain_iff_pairwise] at h
  induction h with
  | nil => rfl
  | singleton => rfl
  | cons_cons hlt _ ih =>
    simp only [Rpmdb.canonicalNames, List.tail_cons, List.zip_cons_cons, List.all_cons,
      Bool.and_eq_true, decide_eq_true_eq]
    exact ⟨hlt, ih⟩

theorem Selectable.nodup (h : Selectable names) : names.Nodup :=
  (pairwise_of_canonicalNames h.canonical).imp ne_of_lt

theorem readSelected_of_reads (hnames : Selectable names) (h : FullRead db full) :
    db.readSelected names = .ok ⟨db.cookie, some { db.inventory with
      packages := names.flatMap fun n => db.inventory.packages.filter (·.name = n) }⟩ := by
  have hcount : (names.flatMap fun n => db.inventory.packages.filter (·.name = n)).length ≤
      maxPackages := by
    rw [(flatMap_filter_perm hnames.nodup _ _).length_eq]
    exact (List.length_filter_le ..).trans h.count
  have hnul : ¬ names.any Rpmdb.hasNul = true := by
    rw [List.any_eq_true]
    rintro ⟨name, hname, htrue⟩
    rw [hnames.noNul name hname] at htrue
    cases htrue
  rw [Rpmdb.readSelected, Except.refuseIf, if_neg, Except.ok_bind, Except.refuseIf, if_neg hnul,
    Except.ok_bind, Rpmdb.takeCookie, if_neg h.cookie, Except.ok_bind, Except.refuseIf,
    if_neg (not_lt.mpr hnames.count), Except.ok_bind, Except.refuseIf, if_neg hnames.named,
    Except.ok_bind, Rpmdb.collected, if_neg (not_lt.mpr hcount), if_neg h.backend]
  · rfl
  · simp [hnames.nonempty, hnames.canonical]

/-- The read of the names, as far as it depends on the inventory before. -/
theorem selectedSnapshot_eq (hnames : Selectable names) (h : FullRead db full) :
    selectedSnapshot (.ok db) before names =
      (do
        Except.refuseIf (full.rpmdbBackend ≠ before.rpmdbBackend ∨
          full.rpmVersion ≠ before.rpmVersion) .invalidState
        let inventory ← mergeSelected before (full.restrict (·.name ∈ names)) names
        return ⟨inventory, db.cookie⟩) := by
  have hselected : ¬ (full.restrict (·.name ∈ names)).packages.any (·.name ∉ names) = true := by
    simp [InstalledInventory.restrict]
  rw [selectedSnapshot, Except.refuseIf, if_neg, Except.ok_bind, Except.bind,
    readSelected_of_reads hnames h, Except.mapError_ok, Except.ok_bind]
  · simp only [Except.okOr, Option.elim_some, Except.ok_bind,
      convert_selected hnames.nodup h.converts, Except.refuseIf, if_neg hselected]
    rfl
  · simp [hnames.nonempty, hnames.canonical]

/-- What was built is made of the packages before and the full read. -/
theorem selectedSnapshot_eq_ok (hnames : Selectable names) (h : FullRead db full)
    (hok : selectedSnapshot (.ok db) before names = .ok snapshot) :
    snapshot.rpmdbCookie = db.cookie ∧ full.rpmdbBackend = before.rpmdbBackend ∧
      full.rpmVersion = before.rpmVersion ∧
      snapshot.inventory.rpmdbBackend = before.rpmdbBackend ∧
      snapshot.inventory.rpmVersion = before.rpmVersion ∧
      snapshot.inventory.packages.Perm (before.packages.filter (·.name ∉ names) ++
        full.packages.filter (·.name ∈ names)) := by
  rw [selectedSnapshot_eq hnames h, Except.check_bind_eq_ok, Except.refuseIf_eq_ok] at hok
  obtain ⟨hsame, hok⟩ := hok
  obtain ⟨inventory, hmerge, hok⟩ := Except.bind_eq_ok.mp hok
  obtain rfl := Except.pure_eq_ok.mp hok
  obtain ⟨hbackend, hversion, hperm⟩ :=
    InstalledInventory.new_eq_ok (Except.mapError_eq_ok.mp hmerge)
  rw [not_or, not_not, not_not] at hsame
  exact ⟨rfl, hsame.1, hsame.2, hbackend, hversion, hperm⟩

/-- A name that is no C string is not read. -/
theorem selectedSnapshot_of_hasNul {name : String} (hname : name ∈ names)
    (hnul : Rpmdb.hasNul name = true) : ∃ e, selectedSnapshot (.ok db) before names = .error e := by
  cases h : selectedSnapshot (.ok db) before names with
  | error e => exact ⟨e, rfl⟩
  | ok snapshot =>
    rw [selectedSnapshot, Except.check_bind_eq_ok] at h
    obtain ⟨read, hread, -⟩ := Except.bind_eq_ok.mp h.2
    rw [Except.mapError_eq_ok, Except.bind, Rpmdb.readSelected, Except.check_bind_eq_ok,
      Except.check_bind_eq_ok] at hread
    exact absurd (List.any_eq_true.mpr ⟨name, hname, hnul⟩) (Except.refuseIf_eq_ok.mp hread.2.1)

/-! ## Agreement with the inventory before -/

/-- The inventories have the same backend, version and packages of other names. -/
structure SameOutside (names : List String) (before full : InstalledInventory) : Prop where
  backend : full.rpmdbBackend = before.rpmdbBackend
  version : full.rpmVersion = before.rpmVersion
  packages : before.packages.filter (·.name ∉ names) = full.packages.filter (·.name ∉ names)

theorem filter_notMem_append_mem_perm (names : List String) (packages : List InstalledPackage) :
    (packages.filter (·.name ∉ names) ++ packages.filter (·.name ∈ names)).Perm packages := by
  refine List.perm_append_comm.trans (.trans (.of_eq ?_)
    (List.filter_append_perm (fun p => decide (p.name ∈ names)) packages))
  congr 1
  exact List.filter_congr fun p _ => by simp

/-- Where nothing else changed, the names are enough: what is built is the full read. -/
theorem selectedSnapshot_of_agree (hnames : Selectable names) (h : FullRead db full)
    (hsame : SameOutside names before full) :
    selectedSnapshot (.ok db) before names = .ok ⟨full, db.cookie⟩ := by
  have hmerge : mergeSelected before (full.restrict (·.name ∈ names)) names = .ok full := by
    have hnew := InstalledInventory.new_of_perm (filter_notMem_append_mem_perm names full.packages)
    rw [mergeSelected, ← hsame.backend, ← hsame.version, hsame.packages]
    exact congrArg (Except.mapError _) hnew
  rw [selectedSnapshot_eq hnames h, Except.refuseIf, if_neg, Except.ok_bind, hmerge]
  · rfl
  · simp [hsame.backend, hsame.version]

/-- What is built is the full read only then. -/
theorem selectedSnapshot_eq_full_iff (hnames : Selectable names) (h : FullRead db full)
    (hok : selectedSnapshot (.ok db) before names = .ok snapshot) :
    snapshot.inventory = full ↔ SameOutside names before full := by
  obtain ⟨-, hbackend, hversion, -, -, hperm⟩ := selectedSnapshot_eq_ok hnames h hok
  constructor
  · intro hfull
    have hrest : (full.packages.filter (·.name ∉ names)).Perm
        (before.packages.filter (·.name ∉ names)) := by
      have hrestricted := hperm.filter fun p => decide (p.name ∉ names)
      rw [hfull] at hrestricted
      simpa [List.filter_append, List.filter_filter] using hrestricted
    refine ⟨hbackend, hversion, ?_⟩
    exact (@InstalledInventory.packages_eq_of_perm (full.restrict (·.name ∉ names))
      (before.restrict (·.name ∉ names)) hrest).symm
  · intro hsame
    rw [selectedSnapshot_of_agree hnames h hsame] at hok
    cases hok
    rfl

end Dnfast.Native
