import Mathlib.Logic.Relation
import Dnfast.Solver.Built

/-! # What a built plan accounts for

Every action of a plan is there for a request. `Attached` says so without the loop of the checker: a
finite chain of parents leads from the action to a requested one. `validateReachable_eq_ok` is the
exact meaning of the checker, and `buildWithSatisfied_accounts` collects what a successful build
says about selectors, names and chains. -/

namespace Dnfast.Solver

open Except (refuseIf)
open Dnfast.Core (PackageSpec)

/-! ## Chains of parents -/

/-- The action `parent` of the list is a parent of `a`: a dependency edge names it, or it obsoletes
`a`. -/
def IsParent (actions : List ResolvedAction) (a parent : ResolvedAction) : Prop :=
  parent ∈ actions ∧ ((∃ edge ∈ a.dependencyEdges, edge.parent = parent.name) ∨
    ∃ p, a.provenance = some p ∧ actionIdentity parent = some p.parentActionIdentity)

/-- A chain of parents leads from `a` to a requested action. -/
def Attached (actions : List ResolvedAction) (a : ResolvedAction) : Prop :=
  ∃ root ∈ actions, root.requested = true ∧ Relation.ReflTransGen (IsParent actions) a root

section
variable {actions : List ResolvedAction}

theorem Attached.of_parent {a parent : ResolvedAction} (h : IsParent actions a parent)
    (hparent : Attached actions parent) : Attached actions a := by
  obtain ⟨root, hroot, hrequested, hchain⟩ := hparent
  exact ⟨root, hroot, hrequested, .head h hchain⟩

/-- What the loop tests is that a parent has its name in the set. -/
theorem hasReachableParent_iff {reachable : Finset String} {item : ResolvedAction}
    (hnames : ∀ name ∈ reachable, ∃ a ∈ actions, a.name = name) :
    hasReachableParent actions reachable item = true ↔
      ∃ parent, IsParent actions item parent ∧ parent.name ∈ reachable := by
  simp only [hasReachableParent, Bool.or_eq_true, Option.any_eq_true, List.any_eq_true,
    Bool.and_eq_true, decide_eq_true_eq, IsParent]
  constructor
  · rintro (⟨p, hp, parent, hparent, hmem, hidentity⟩ | ⟨edge, hedge, hmem⟩)
    · exact ⟨parent, ⟨hparent, .inr ⟨p, hp, hidentity⟩⟩, hmem⟩
    · obtain ⟨parent, hparent, hname⟩ := hnames _ hmem
      exact ⟨parent, ⟨hparent, .inl ⟨edge, hedge, hname.symm⟩⟩, hname ▸ hmem⟩
  · rintro ⟨parent, ⟨hparent, ⟨edge, hedge, hname⟩ | ⟨p, hp, hidentity⟩⟩, hmem⟩
    · exact .inr ⟨edge, hedge, hname ▸ hmem⟩
    · exact .inl ⟨p, hp, parent, hparent, hmem, hidentity⟩

theorem exists_of_mem_reachableNames :
    ∀ name ∈ reachableNames actions, ∃ a ∈ actions, a.name = name := by
  refine Saturate.saturate_induction ?_ fun _ a ha _ _ => ⟨a, ha, rfl⟩
  intro name hname
  rw [List.mem_toFinset, List.mem_map] at hname
  obtain ⟨a, ha, rfl⟩ := hname
  exact ⟨a, (List.mem_filter.mp ha).1, rfl⟩

/-- The names that the loop finds are names of attached actions. -/
theorem attached_of_mem_reachableNames (hnodup : (actions.map (·.name)).Nodup) :
    ∀ name ∈ reachableNames actions, ∀ a ∈ actions, a.name = name → Attached actions a := by
  -- the invariant: the set holds names of actions, and whatever has such a name is attached
  have hinv : ∀ name ∈ reachableNames actions, ∃ a ∈ actions, a.name = name ∧ Attached actions a := by
    refine Saturate.saturate_induction ?_ ?_
    · intro name hname
      rw [List.mem_toFinset, List.mem_map] at hname
      obtain ⟨a, ha, rfl⟩ := hname
      obtain ⟨ha, hrequested⟩ := List.mem_filter.mp ha
      exact ⟨a, ha, rfl, a, ha, hrequested, .refl⟩
    · intro reachable a ha hreachable hfires
      have hnames : ∀ name ∈ reachable, ∃ a ∈ actions, a.name = name := fun name hname =>
        (hreachable name hname).imp fun _ h => ⟨h.1, h.2.1⟩
      obtain ⟨parent, hparent, hmem⟩ := (hasReachableParent_iff hnames).mp hfires
      obtain ⟨p, hp, hname, hattached⟩ := hreachable parent.name hmem
      obtain rfl := List.inj_on_of_nodup_map hnodup hp hparent.1 hname
      exact ⟨a, ha, rfl, hattached.of_parent hparent⟩
  intro name hname a ha heq
  obtain ⟨b, hb, hbname, hattached⟩ := hinv name hname
  obtain rfl := List.inj_on_of_nodup_map hnodup hb ha (hbname.trans heq.symm)
  exact hattached

/-- Every attached action is found. -/
theorem mem_reachableNames_of_attached {a : ResolvedAction} (ha : a ∈ actions)
    (h : Attached actions a) : a.name ∈ reachableNames actions := by
  obtain ⟨root, hroot, hrequested, hchain⟩ := h
  induction hchain using Relation.ReflTransGen.head_induction_on with
  | refl =>
    apply Saturate.subset_saturate
    rw [List.mem_toFinset]
    exact List.mem_map.mpr ⟨root, List.mem_filter.mpr ⟨hroot, hrequested⟩, rfl⟩
  | head hparent _ ih =>
    apply Saturate.mem_saturate_of_fires ha
    exact (hasReachableParent_iff exists_of_mem_reachableNames).mpr ⟨_, hparent, ih hparent.1⟩

theorem reachableNames_subset : reachableNames actions ⊆ (actions.map (·.name)).toFinset := by
  intro name hname
  obtain ⟨a, ha, rfl⟩ := exists_of_mem_reachableNames name hname
  exact List.mem_toFinset.mpr (List.mem_map_of_mem ha)

/-- **The checker is exact**: it accepts the lists with distinct names in which every action is
attached. -/
theorem validateReachable_eq_ok : validateReachable actions = .ok () ↔
    (actions.map (·.name)).Nodup ∧ ∀ a ∈ actions, Attached actions a := by
  rw [validateReachable, Except.refuseIf_eq_ok, not_not]
  constructor
  · intro hcard
    have hlength : (actions.map (·.name)).length = (reachableNames actions).card := by
      rw [List.length_map, hcard]
    have hnodup : (actions.map (·.name)).Nodup :=
      nodup_of_card_toFinset (hlength.trans_le (Finset.card_le_card reachableNames_subset))
    have hall : reachableNames actions = (actions.map (·.name)).toFinset := by
      refine Finset.eq_of_subset_of_card_le reachableNames_subset ?_
      rw [← hlength, List.card_toFinset]
      exact (List.dedup_sublist _).length_le
    refine ⟨hnodup, fun a ha => attached_of_mem_reachableNames hnodup a.name ?_ a ha rfl⟩
    rw [hall, List.mem_toFinset]
    exact List.mem_map_of_mem ha
  · rintro ⟨hnodup, hattached⟩
    have hall : reachableNames actions = (actions.map (·.name)).toFinset := by
      refine reachableNames_subset.antisymm fun name hname => ?_
      obtain ⟨a, ha, rfl⟩ := List.mem_map.mp (List.mem_toFinset.mp hname)
      exact mem_reachableNames_of_attached ha (hattached a ha)
    rw [hall, List.toFinset_card_of_nodup hnodup, List.length_map]

end

/-! ## Selectors -/

section
variable {b : PlanBuilder} {actions : List ResolvedAction}

theorem checkActions_eq_ok
    {seen : List (ResolvedOperation × String × Option UInt64 × Option (Core.Evra × String))}
    {as : List ResolvedAction} (h : b.checkActions actions seen as = .ok ()) :
    ∀ a ∈ as, b.checkAction actions a = .ok () := by
  induction as generalizing seen with
  | nil => simp
  | cons a as ih =>
    simp only [PlanBuilder.checkActions, Except.check_bind_eq_ok] at h
    exact List.forall_mem_cons.mpr ⟨h.2.2.1, ih h.2.2.2⟩

/-- An action with a selector is requested, counts for the selector, and the intent has it. -/
theorem checkAction_selector {a : ResolvedAction} (h : b.checkAction actions a = .ok ()) :
    a.attributed = a.requestedSpec.map (·.asStr) ∧
      ∀ spec, a.requestedSpec = some spec → spec.asStr ∈ b.requested := by
  simp only [PlanBuilder.checkAction, Except.check_bind_eq_ok, Except.refuseIf_eq_ok] at h
  obtain ⟨hprovenance, -, hselector, -⟩ := h
  cases hspec : a.requestedSpec with
  | none => simp [ResolvedAction.attributed, hspec]
  | some spec =>
    have hrequested : a.requested = true := by
      cases hr : a.requested with
      | true => rfl
      | false => simp [hr, hspec] at hprovenance
    rw [PlanBuilder.checkSelector, if_pos hrequested, hspec, Except.refuseIf_eq_ok, not_not]
      at hselector
    refine ⟨by simp [ResolvedAction.attributed, hrequested, hspec], ?_⟩
    rintro _ ⟨⟩
    exact hselector

/-- What the plan says about the request. -/
structure Accounts (b : PlanBuilder) (resolved : List ResolvedAction)
    (satisfied : List PackageSpec) : Prop where
  /-- Every selector is attributed once, to an action or as satisfied. -/
  once : ∀ spec ∈ b.intent.packages,
    (resolved.filterMap (·.requestedSpec)).count spec + satisfied.count spec = 1
  /-- Nothing else is attributed. -/
  requested : ∀ spec, spec ∈ resolved.filterMap (·.requestedSpec) ∨ spec ∈ satisfied →
    spec ∈ b.intent.packages
  names : (resolved.map (·.name)).Nodup
  attached : ∀ a ∈ resolved, Attached resolved a

theorem mem_requested {spec : PackageSpec} :
    spec.asStr ∈ b.requested ↔ spec ∈ b.intent.packages := by
  rw [PlanBuilder.requested, List.mem_map]
  constructor
  · rintro ⟨other, hother, heq⟩
    rwa [← PackageSpec.ext heq]
  · exact fun h => ⟨spec, h, rfl⟩

theorem coveredSelectors_eq {satisfied : List PackageSpec}
    (h : ∀ a ∈ actions, a.attributed = a.requestedSpec.map (·.asStr)) :
    coveredSelectors actions satisfied =
      (satisfied ++ actions.filterMap (·.requestedSpec)).map (·.asStr) := by
  rw [coveredSelectors, List.map_append, List.map_filterMap, List.filterMap_congr h]

/-- The actions of an accepted answer pass their checks. -/
theorem checkAction_of_validateInputs {satisfied : List PackageSpec}
    (h : b.validateInputs actions satisfied = .ok ()) :
    ∀ a ∈ actions, b.checkAction actions a = .ok () := by
  rw [PlanBuilder.validateInputs] at h
  simp only [Except.check_bind_eq_ok] at h
  obtain ⟨-, -, -, -, h⟩ := h
  obtain ⟨bytes, -, h⟩ := Except.bind_eq_ok.mp h
  simp only [Except.check_bind_eq_ok] at h
  exact checkActions_eq_ok h.2.2.2.1

theorem validateInputs_accounts {satisfied : List PackageSpec}
    (h : b.validateInputs actions satisfied = .ok ()) : Accounts b actions satisfied := by
  have hchecked := checkAction_of_validateInputs h
  rw [PlanBuilder.validateInputs] at h
  simp only [Except.check_bind_eq_ok] at h
  obtain ⟨-, -, -, -, h⟩ := h
  obtain ⟨bytes, -, h⟩ := Except.bind_eq_ok.mp h
  simp only [Except.check_bind_eq_ok, Except.refuseIf_eq_ok, Except.forM_eq_ok, not_not,
    Bool.or_eq_true, not_or, Bool.not_eq_true, List.any_eq_false, decide_eq_true_eq] at h
  obtain ⟨-, hnames, hsatisfied, -, ⟨hcovered, -⟩, hreachable⟩ := h
  have hselector a ha := checkAction_selector (hchecked a ha)
  rw [coveredSelectors_eq fun a ha => (hselector a ha).1] at hcovered
  constructor
  case once =>
    intro spec hspec
    have hcount := hcovered spec.asStr (mem_requested.mpr hspec)
    rw [List.count_map_of_injective _ _ (fun _ _ => PackageSpec.ext), List.count_append,
      Nat.add_comm] at hcount
    exact hcount
  case requested =>
    rintro spec (hspec | hspec)
    · obtain ⟨a, ha, hspec⟩ := List.mem_filterMap.mp hspec
      exact mem_requested.mp ((hselector a ha).2 spec hspec)
    · exact mem_requested.mp (hsatisfied spec hspec)
  case names => exact hnames
  case attached => exact (validateReachable_eq_ok.mp hreachable).2

/-- **A built plan accounts for its actions.** Whatever the inputs, a successful build attributes
every selector of the intent once and no other, its actions have distinct names, and each is attached
to a requested one; and a list with an action that is not attached is refused. -/
theorem buildWithSatisfied_accounts (b : PlanBuilder) (resolved : List ResolvedAction)
    (satisfied : List PackageSpec) :
    (∀ plan, b.buildWithSatisfied resolved satisfied = .ok plan → Accounts b resolved satisfied ∧
      (plan.actions.map (·.name)).Perm (resolved.map (·.name))) ∧
    ∀ actions : List ResolvedAction, (∃ a ∈ actions, ¬ Attached actions a) →
      validateReachable actions = .error .disconnectedGraph := by
  constructor
  · intro plan hplan
    have hbuilt := buildWithSatisfied_eq_ok hplan
    obtain ⟨explained, hexplained, hperm⟩ := hbuilt.explained
    refine ⟨validateInputs_accounts hbuilt.inputs, (hperm.map _).trans (.of_eq ?_)⟩
    exact (hexplained.map_eq fun _ _ _ _ h => h.name.symm).symm
  · rintro actions ⟨a, ha, hnot⟩
    cases hcheck : validateReachable actions with
    | ok u => exact absurd ((validateReachable_eq_ok.mp hcheck).2 a ha) hnot
    | error e =>
      unfold validateReachable Except.refuseIf at hcheck
      split at hcheck
      · exact hcheck.symm
      · cases hcheck

end

/-! An installation of two packages that require each other. -/

def candidateNamed (name : String) : CandidatePackage where
  name := name
  evra := ⟨0, "1", "1.fc44", .x86_64⟩
  vendor := "Fedora"
  repoId := "fedora"
  priority := 99
  cost := 1000
  packageSize := 10
  installedSize := 20
  checksumSha256 := Core.zeroDigest.asStr
  location := "p.rpm"
  excluded := false
  modular := false

def noPackages : Core.InstalledInventory := Core.emptyInventory "6.0" Core.rpm6_ne_empty

def appSpec : PackageSpec := ⟨"app", by decide⟩
def installApp : Core.TransactionIntent := ⟨.install, [appSpec], by decide, by decide⟩

def installBuilder : PlanBuilder where
  intent := installApp
  snapshots := Core.fedoraIntegrity
  inventory := noPackages
  policy := Core.kernelPolicy
  candidates := [candidateNamed "app", candidateNamed "lib"]
  expiresAtUnix := 100

def installOf (name : String) (spec : Option PackageSpec) (parents : List String) :
    ResolvedAction where
  operation := .install
  name := name
  requested := spec.isSome
  requestedSpec := spec
  requestedRelation := false
  candidate := some (candidateNamed name)
  installedInstance := none
  installedHeaderSha256 := none
  installedVendor := none
  dependencyEdges := parents.map fun parent => ⟨parent, .strong⟩
  provenance := none
  requiredByRemaining := []
  unresolvedDependencies := []
  introducedByRequested := false
  solverRule := "libsolv typed causal decision"

def appAndLib : List ResolvedAction :=
  [installOf "app" (some appSpec) ["lib"], installOf "lib" none ["app"]]

/-- The plan is built, and the library alone is refused. -/
theorem accounts_appAndLib : Accounts installBuilder appAndLib [] ∧
    validateReachable [installOf "lib" none ["app"]] = .error .disconnectedGraph := by
  have hok : (installBuilder.buildWithSatisfied appAndLib []).isOk = true := by decide +kernel
  have hspec := buildWithSatisfied_accounts installBuilder appAndLib []
  constructor
  · cases hplan : installBuilder.buildWithSatisfied appAndLib [] with
    | ok plan => exact (hspec.1 plan hplan).1
    | error e =>
      rw [hplan] at hok
      cases hok
  · refine hspec.2 _ ⟨_, List.mem_singleton.mpr rfl, ?_⟩
    rintro ⟨root, hroot, hrequested, -⟩
    rw [List.mem_singleton.mp hroot] at hrequested
    cases hrequested

end Dnfast.Solver
