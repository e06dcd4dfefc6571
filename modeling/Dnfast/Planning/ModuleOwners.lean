import Dnfast.Planning.ModuleMerge

/-! # Owners and policies

Every artifact of a catalog has one owner, the module and the stream that lists it. The policies mark it
excluded exactly when that stream is not the active one. -/

namespace Dnfast.Planning

open Std (ExtTreeMap ExtTreeSet)
open Core (Architecture)

variable {architecture : Architecture} {name stream artifact : String}

/-! ## Owners -/

/-- The stream of the module lists the artifact. -/
def ModuleCatalog.Lists (c : ModuleCatalog) (name stream artifact : String) : Prop :=
  ∃ m s, c.modules[name]? = some m ∧ m.streams[stream]? = some s ∧ artifact ∈ s.artifacts

/-- An artifact with its owner. -/
abbrev Ownership := String × String × String

def own (owners : Owners) (o : Ownership) : Except PlanningError Owners :=
  ownArtifact o.2.1 o.2.2 owners o.1

def LogicalModule.ownerships (entry : String × LogicalModule) : List Ownership :=
  entry.2.streams.toList.flatMap fun s => s.2.artifacts.toList.map fun a => (a, entry.1, s.1)

variable {owners owners' : Owners} {o : Ownership} {w : String × String} {l : List Ownership}

theorem getElem?_own (h : own owners o = .ok owners') :
    owners'[artifact]? = some w ↔ owners[artifact]? = some w ∨ (artifact, w) = o := by
  obtain ⟨a, w'⟩ := o
  obtain ⟨hfree, h⟩ := Except.check_bind_eq_ok.mp h
  cases Except.pure_eq_ok.mp h
  rw [Except.refuseIf_eq_ok] at hfree
  rw [ExtTreeMap.getElem?_insert, Prod.mk.injEq]
  split
  next ha =>
    obtain rfl := Std.compare_eq_iff_eq.mp ha
    constructor
    · intro h
      exact .inr ⟨rfl, (Option.some.inj h).symm⟩
    · rintro (h | ⟨-, rfl⟩)
      · rw [h, Option.any_some, decide_eq_true_eq, not_not] at hfree
        rw [hfree]
      · rfl
  next ha =>
    have hne : artifact ≠ a := fun heq => ha (by rw [heq, Std.compare_self])
    simp [hne]

theorem getElem?_foldlM_own (h : l.foldlM own owners = .ok owners') :
    owners'[artifact]? = some w ↔ owners[artifact]? = some w ∨ (artifact, w) ∈ l := by
  induction l generalizing owners with
  | nil =>
    cases Except.pure_eq_ok.mp h
    simp
  | cons o l ih =>
    rw [List.foldlM_cons, Except.bind_eq_ok] at h
    obtain ⟨next, hstep, h⟩ := h
    rw [ih h, getElem?_own hstep, List.mem_cons, or_assoc]

theorem ownModule_eq_ok {entry : String × LogicalModule} (h : ownModule owners entry = .ok owners') :
    (LogicalModule.ownerships entry).foldlM own owners = .ok owners' := by
  obtain ⟨name, m⟩ := entry
  obtain ⟨-, h⟩ := Except.check_bind_eq_ok.mp h
  rw [LogicalModule.ownerships, Except.foldlM_flatMap, ← h]
  refine congrArg (List.foldlM · owners _) (funext fun owners => funext fun s => ?_)
  rw [List.foldlM_map]
  rfl

theorem foldlM_ownModule {entries : List (String × LogicalModule)}
    (h : entries.foldlM ownModule owners = .ok owners') :
    (entries.flatMap LogicalModule.ownerships).foldlM own owners = .ok owners' := by
  rw [Except.foldlM_flatMap]
  induction entries generalizing owners with
  | nil => exact h
  | cons entry entries ih =>
    rw [List.foldlM_cons, Except.bind_eq_ok] at h
    obtain ⟨next, hstep, h⟩ := h
    rw [List.foldlM_cons, ownModule_eq_ok hstep, Except.ok_bind]
    exact ih h

/-- What is accepted comes from the merged modules. -/
theorem catalogFromRaw_eq_ok {raw : List RawModule} {c : ModuleCatalog}
    (h : catalogFromRaw raw architecture = .ok c) :
    ∃ modules : ExtTreeMap String LogicalModule, c.modules = modules.map LogicalModule.toModule ∧
      (modules.toList.flatMap LogicalModule.ownerships).foldlM own ∅ = .ok c.artifactOwners := by
  obtain ⟨-, h⟩ := Except.check_bind_eq_ok.mp h
  obtain ⟨s, -, h⟩ := Except.bind_eq_ok.mp h
  obtain ⟨owners, howners, h⟩ := Except.bind_eq_ok.mp h
  cases Except.pure_eq_ok.mp h
  exact ⟨s.modules, rfl, foldlM_ownModule howners⟩

variable {raw : List RawModule} {c : ModuleCatalog}

theorem artifactOwner_eq_some (h : catalogFromRaw raw architecture = .ok c) :
    c.artifactOwner artifact = some (name, stream) ↔ c.Lists name stream artifact := by
  obtain ⟨modules, hmodules, howners⟩ := catalogFromRaw_eq_ok h
  unfold ModuleCatalog.artifactOwner ModuleCatalog.Lists
  rw [getElem?_foldlM_own howners, hmodules]
  simp only [ExtTreeMap.getElem?_empty, reduceCtorEq, false_or, List.mem_flatMap,
    LogicalModule.ownerships, List.mem_map, ExtTreeMap.getElem?_map, Option.map_eq_some_iff]
  constructor
  · rintro ⟨⟨n, m⟩, hm, ⟨st, s⟩, hs, a, ha, heq⟩
    cases heq
    exact ⟨_, _, ⟨m, ExtTreeMap.mem_toList_iff_getElem?_eq_some.mp hm, rfl⟩,
      by rw [LogicalModule.toModule, ExtTreeMap.getElem?_map,
        ExtTreeMap.mem_toList_iff_getElem?_eq_some.mp hs, Option.map_some], ha⟩
  · rintro ⟨_, s', ⟨m, hm, rfl⟩, hs, ha⟩
    rw [LogicalModule.toModule, ExtTreeMap.getElem?_map, Option.map_eq_some_iff] at hs
    obtain ⟨s, hs, rfl⟩ := hs
    exact ⟨(name, m), ExtTreeMap.mem_toList_iff_getElem?_eq_some.mpr hm, (stream, s),
      ExtTreeMap.mem_toList_iff_getElem?_eq_some.mpr hs, artifact, ha, rfl⟩

theorem name_of_getElem? (h : catalogFromRaw raw architecture = .ok c) {m : Module}
    (hm : c.modules[name]? = some m) : m.name = name := by
  obtain ⟨modules, hmodules, -⟩ := catalogFromRaw_eq_ok h
  rw [hmodules, ExtTreeMap.getElem?_map, Option.map_eq_some_iff] at hm
  obtain ⟨m', -, rfl⟩ := hm
  rfl

/-! ## Policies -/

theorem artifactMatchesArchitecture_eq_ok :
    (∃ b, artifactMatchesArchitecture artifact architecture = .ok b) ↔ '.' ∈ artifact.toList := by
  rw [← not_iff_not, ← List.rsplitOnce_eq_none]
  unfold artifactMatchesArchitecture
  cases artifact.toList.rsplitOnce '.' with
  | none => simp [Except.okOr]
  | some parts => simp [Except.okOr]

/-- The artifacts of the catalog, each with the question whether its stream is another than the active
one. -/
def ModuleCatalog.exclusions (c : ModuleCatalog) (state : ModuleState) : List (String × Bool) :=
  (c.modules.toList.map (·.2)).flatMap fun m => m.streams.toList.flatMap fun s =>
    s.2.artifacts.map fun a => (a, decide (c.activeStream state m.name ≠ some s.1))

def addExclusion (architecture : Architecture) (policies : Policies) (x : String × Bool) :
    Except PlanningError Policies :=
  addPolicy architecture x.2 policies x.1

variable {state : ModuleState} {policies policies' : Policies} {xs : List (String × Bool)} {b : Bool}

theorem artifactPolicies_eq (hvalid : c.validateState state = .ok ()) :
    c.artifactPolicies state architecture = (c.exclusions state).foldlM (addExclusion architecture) ∅ := by
  unfold ModuleCatalog.artifactPolicies ModuleCatalog.exclusions
  rw [hvalid, Except.ok_bind, Except.foldlM_flatMap]
  refine congrArg (List.foldlM · ∅ _) (funext fun policies => funext fun m => ?_)
  rw [Except.foldlM_flatMap]
  refine congrArg (List.foldlM · policies _) (funext fun policies => funext fun s => ?_)
  rw [List.foldlM_map]
  rfl

theorem addExclusion_eq_ok {x : String × Bool} (h : addExclusion architecture policies x = .ok policies') :
    ∃ matches?, artifactMatchesArchitecture x.1 architecture = .ok matches? ∧
      policies' = if matches? then policies.insert x.1 x.2 else policies := by
  obtain ⟨b, hb, h⟩ := Except.bind_eq_ok.mp h
  refine ⟨b, hb, ?_⟩
  split at h
  all_goals
    cases Except.pure_eq_ok.mp h
    simp_all

theorem exists_foldlM_addExclusion :
    (∃ policies', xs.foldlM (addExclusion architecture) policies = .ok policies') ↔
      ∀ x ∈ xs, '.' ∈ x.1.toList := by
  induction xs generalizing policies with
  | nil => simp
  | cons x xs ih =>
    rw [List.forall_mem_cons, ← @artifactMatchesArchitecture_eq_ok architecture, List.foldlM_cons]
    constructor
    · rintro ⟨policies', h⟩
      obtain ⟨next, hstep, h⟩ := Except.bind_eq_ok.mp h
      obtain ⟨b, hb, -⟩ := addExclusion_eq_ok hstep
      exact ⟨⟨b, hb⟩, ih.mp ⟨policies', h⟩⟩
    · rintro ⟨⟨b, hb⟩, hrest⟩
      have hstep : addExclusion architecture policies x =
          .ok (if b then policies.insert x.1 x.2 else policies) := by
        unfold addExclusion addPolicy
        rw [hb, Except.ok_bind]
        cases b <;> rfl
      rw [hstep]
      exact ih.mpr hrest

/-- The last word about an artifact stands when all say the same. -/
theorem getElem?_foldlM_addExclusion (hall : ∀ y, (artifact, y) ∈ xs → y = b)
    (hmatches : artifactMatchesArchitecture artifact architecture = .ok true)
    (h : xs.foldlM (addExclusion architecture) policies = .ok policies')
    (hin : policies[artifact]? = some b ∨ (artifact, b) ∈ xs) : policies'[artifact]? = some b := by
  induction xs generalizing policies with
  | nil =>
    cases Except.pure_eq_ok.mp h
    exact hin.resolve_right List.not_mem_nil
  | cons x xs ih =>
    rw [List.foldlM_cons, Except.bind_eq_ok] at h
    obtain ⟨next, hstep, h⟩ := h
    obtain ⟨matches?, hx, rfl⟩ := addExclusion_eq_ok hstep
    refine ih (fun y hy => hall y (List.mem_cons_of_mem _ hy)) h ?_
    by_cases heq : x.1 = artifact
    · subst heq
      rw [hmatches] at hx
      cases hx
      rw [if_pos rfl, ExtTreeMap.getElem?_insert_self]
      exact .inl (congrArg some (hall x.2 List.mem_cons_self))
    · rcases hin with hin | hin
      · refine .inl ?_
        split
        · rw [ExtTreeMap.getElem?_insert, if_neg (mt Std.compare_eq_iff_eq.mp heq), hin]
        · exact hin
      · rcases List.mem_cons.mp hin with rfl | hin
        · exact absurd rfl heq
        · exact .inr hin

theorem mem_exclusions (h : catalogFromRaw raw architecture = .ok c) :
    (artifact, b) ∈ c.exclusions state ↔
      ∃ name stream, c.Lists name stream artifact ∧ b = decide (c.activeStream state name ≠ some stream) := by
  unfold ModuleCatalog.exclusions ModuleCatalog.Lists
  simp only [List.mem_flatMap, List.mem_map]
  constructor
  · rintro ⟨m, ⟨⟨name, _⟩, hm, rfl⟩, ⟨stream, s⟩, hs, a, ha, heq⟩
    cases heq
    rw [ExtTreeMap.mem_toList_iff_getElem?_eq_some] at hm hs
    exact ⟨name, stream, ⟨_, s, hm, hs, ha⟩, by rw [name_of_getElem? h hm]⟩
  · rintro ⟨name, stream, ⟨m, s, hm, hs, ha⟩, rfl⟩
    rw [← ExtTreeMap.mem_toList_iff_getElem?_eq_some] at hs
    exact ⟨m, ⟨(name, m), ExtTreeMap.mem_toList_iff_getElem?_eq_some.mpr hm, rfl⟩, (stream, s), hs,
      artifact, ha, by rw [name_of_getElem? h hm]⟩

/-- The policies exist exactly when every artifact names its architecture. -/
theorem exists_artifactPolicies (h : catalogFromRaw raw architecture = .ok c)
    (hvalid : c.validateState state = .ok ()) {requested : Architecture} :
    (∃ policies, c.artifactPolicies state requested = .ok policies) ↔
      ∀ name stream artifact, c.Lists name stream artifact → '.' ∈ artifact.toList := by
  rw [artifactPolicies_eq hvalid, exists_foldlM_addExclusion]
  constructor
  · intro hall name stream artifact hlists
    exact hall (artifact, _) ((mem_exclusions h).mpr ⟨name, stream, hlists, rfl⟩)
  · rintro hall ⟨artifact, b⟩ hmem
    obtain ⟨name, stream, hlists, -⟩ := (mem_exclusions h).mp hmem
    exact hall name stream artifact hlists

theorem getElem?_artifactPolicies (h : catalogFromRaw raw architecture = .ok c) {requested : Architecture}
    (hpolicies : c.artifactPolicies state requested = .ok policies)
    (howner : c.artifactOwner artifact = some (name, stream))
    (hmatches : artifactMatchesArchitecture artifact requested = .ok true) :
    policies[artifact]? = some (decide (c.activeStream state name ≠ some stream)) := by
  have hvalid : c.validateState state = .ok () := by
    obtain ⟨⟨⟩, hvalid, -⟩ := Except.bind_eq_ok.mp hpolicies
    exact hvalid
  rw [artifactPolicies_eq hvalid] at hpolicies
  refine getElem?_foldlM_addExclusion (fun y hy => ?_) hmatches hpolicies
    (.inr ((mem_exclusions h).mpr ⟨name, stream, (artifactOwner_eq_some h).mp howner, rfl⟩))
  obtain ⟨name', stream', hlists, rfl⟩ := (mem_exclusions h).mp hy
  rw [← artifactOwner_eq_some h, howner] at hlists
  cases hlists
  rfl

theorem mem_excludedArtifacts {excluded : List String}
    (h : c.excludedArtifacts state architecture = .ok excluded) :
    ∃ policies, c.artifactPolicies state architecture = .ok policies ∧
      ∀ artifact, artifact ∈ excluded ↔ policies[artifact]? = some true := by
  obtain ⟨policies, hpolicies, h⟩ := Except.bind_eq_ok.mp h
  cases Except.pure_eq_ok.mp h
  refine ⟨policies, hpolicies, fun artifact => ?_⟩
  rw [List.mem_map, ← ExtTreeMap.mem_toList_iff_getElem?_eq_some]
  constructor
  · rintro ⟨⟨a, b⟩, hmem, rfl⟩
    obtain ⟨hmem, hb⟩ := List.mem_filter.mp hmem
    obtain rfl : b = true := hb
    exact hmem
  · exact fun hmem => ⟨(artifact, true), List.mem_filter.mpr ⟨hmem, rfl⟩, rfl⟩

/-- An accepted list of raw modules is accepted in every order and gives the same catalog, up to the texts.
Each artifact has one owner, the module and stream that lists it, and for a valid state the policies, which
exist exactly when every artifact names its architecture, mark an artifact of the requested architecture
excluded if and only if its stream is not the active one. -/
theorem catalogFromRaw_spec (raw : List RawModule) (architecture : Architecture) (c : ModuleCatalog)
    (h : catalogFromRaw raw architecture = .ok c) :
    (∀ raw', raw.Perm raw' → ∃ c', catalogFromRaw raw' architecture = .ok c' ∧ c'.bare = c.bare) ∧
    (∀ artifact name stream,
      c.artifactOwner artifact = some (name, stream) ↔ c.Lists name stream artifact) ∧
    ∀ (state : ModuleState) (requested : Architecture), c.validateState state = .ok () →
      ((∃ policies, c.artifactPolicies state requested = .ok policies) ↔
        ∀ name stream artifact, c.Lists name stream artifact → '.' ∈ artifact.toList) ∧
      ∀ policies, c.artifactPolicies state requested = .ok policies →
        ∀ artifact name stream, c.artifactOwner artifact = some (name, stream) →
          artifactMatchesArchitecture artifact requested = .ok true →
          (policies[artifact]? = some true ↔ c.activeStream state name ≠ some stream) ∧
          (policies[artifact]? = some false ↔ c.activeStream state name = some stream) := by
  refine ⟨fun raw' hperm => catalogFromRaw_perm hperm h, fun artifact name stream => artifactOwner_eq_some h,
    fun state requested hvalid => ⟨exists_artifactPolicies h hvalid, ?_⟩⟩
  intro policies hpolicies artifact name stream howner hmatches
  rw [getElem?_artifactPolicies h hpolicies howner hmatches]
  simp

/-- Two contexts of one stream, and a second stream. -/
def demoRaw : List RawModule :=
  [⟨"demo", some "1", [⟨"demo", "1", 1, "a", "x86_64", none, none, [], [], ["demo-0:1-1.x86_64"]⟩]⟩,
    ⟨"demo", none, [⟨"demo", "1", 2, "b", "x86_64", none, none, [], [], ["tool-0:1-1.noarch"]⟩,
      ⟨"demo", "2", 1, "c", "x86_64", none, none, [], [], ["demo-0:2-1.x86_64"]⟩]⟩]

def demoCatalog : ModuleCatalog where
  modules := .ofList [("demo", (⟨"demo", some "1", .ofList
    [("1", (⟨"1", "", "", [], ["demo-0:1-1.x86_64", "tool-0:1-1.noarch"], []⟩ : ModuleStream)),
      ("2", ⟨"2", "", "", [], ["demo-0:2-1.x86_64"], []⟩)]⟩ : Module))]
  artifactOwners := .ofList [("demo-0:1-1.x86_64", "demo", "1"), ("demo-0:2-1.x86_64", "demo", "2"),
    ("tool-0:1-1.noarch", "demo", "1")]

theorem catalogFromRaw_demo : catalogFromRaw demoRaw .x86_64 = .ok demoCatalog := by
  have hfields : (catalogFromRaw demoRaw .x86_64).toOption.map (fun c => (c.modules, c.artifactOwners)) =
      some (demoCatalog.modules, demoCatalog.artifactOwners) := by decide +kernel
  obtain ⟨⟨modules, artifactOwners⟩, hc, heq⟩ := Except.toOption_map_eq_some.mp hfields
  obtain ⟨rfl, rfl⟩ := Prod.mk.inj heq
  exact hc

theorem catalogFromRaw_spec_demo :
    (∃ c', catalogFromRaw demoRaw.reverse .x86_64 = .ok c' ∧ c'.bare = demoCatalog.bare) ∧
    demoCatalog.Lists "demo" "2" "demo-0:2-1.x86_64" ∧
    ∃ policies, demoCatalog.artifactPolicies ⟨[]⟩ .x86_64 = .ok policies ∧
      policies["demo-0:2-1.x86_64"]? = some true := by
  obtain ⟨hperm, hlists, hstate⟩ := catalogFromRaw_spec demoRaw .x86_64 demoCatalog catalogFromRaw_demo
  have howner : demoCatalog.artifactOwner "demo-0:2-1.x86_64" = some ("demo", "2") := by decide +kernel
  have hvalid : (demoCatalog.validateState ⟨[]⟩).toOption = some () := by decide +kernel
  have hmatches : (artifactMatchesArchitecture "demo-0:2-1.x86_64" .x86_64).toOption = some true := by
    decide +kernel
  have hactive : demoCatalog.activeStream ⟨[]⟩ "demo" ≠ some "2" := by decide +kernel
  have hpolicies : (demoCatalog.artifactPolicies ⟨[]⟩ .x86_64).toOption.isSome := by decide +kernel
  rw [Except.toOption_eq_some] at hvalid hmatches
  obtain ⟨policies, hpolicies⟩ := Option.isSome_iff_exists.mp hpolicies
  rw [Except.toOption_eq_some] at hpolicies
  exact ⟨hperm _ (List.reverse_perm _).symm, (hlists _ _ _).mp howner, policies, hpolicies,
    ((hstate ⟨[]⟩ .x86_64 hvalid).2 policies hpolicies _ _ _ howner hmatches).1.mpr hactive⟩

end Dnfast.Planning
