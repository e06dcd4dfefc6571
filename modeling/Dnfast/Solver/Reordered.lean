import Dnfast.Solver.Cycles
import Dnfast.Solver.PlanJson

/-! # Reordering the solver's answer

Whether a plan is built does not depend on the order in which the resolved actions are listed:
each check of the inputs looks at the actions as a set, and the proposal sorts them. Only the order
of the explained actions can differ.

`Buildable` collects the checks, for the actions in any order. -/

namespace Dnfast.Solver

open Except (refuseIf)
open Dnfast.Core (PackageAction PackageSpec PlanEnvelope)

section
variable {b : PlanBuilder} {l l' : List ResolvedAction} {satisfied : List PackageSpec}

theorem refuseIf_congr {ε : Type} {c d : Prop} [Decidable c] [Decidable d] (h : c ↔ d) (e : ε) :
    refuseIf c e = refuseIf d e := by
  by_cases hc : c
  · rw [refuseIf, refuseIf, if_pos hc, if_pos (h.mp hc)]
  · rw [refuseIf, refuseIf, if_neg hc, if_neg (h.not.mp hc)]

/-- The check of one action looks at the others as a set. -/
theorem checkAction_perm (h : l.Perm l') (a : ResolvedAction) :
    b.checkAction l a = b.checkAction l' a := by
  have hedge : checkEdge (l.map (·.name)) a = checkEdge (l'.map (·.name)) a := by
    funext edge
    unfold checkEdge
    rw [refuseIf_congr (not_congr (h.map _).mem_iff)]
  have hprovenance : checkProvenance l a = checkProvenance l' a := by
    unfold checkProvenance
    split
    · rfl
    · rw [h.any_eq]
  unfold PlanBuilder.checkAction
  rw [hedge, hprovenance]

theorem checkActions_eq_ok_iff
    {seen : List (ResolvedOperation × String × Option UInt64 × Option (Core.Evra × String))}
    {as : List ResolvedAction} :
    b.checkActions l seen as = .ok () ↔
      (∀ a ∈ as, ¬ (a.name = "" ∨ a.unresolvedDependencies ≠ []) ∧ b.checkAction l a = .ok ()) ∧
      (∀ a ∈ as, a.identity ∉ seen) ∧ (as.map (·.identity)).Nodup := by
  induction as generalizing seen with
  | nil => simp [PlanBuilder.checkActions]
  | cons a as ih =>
    simp only [PlanBuilder.checkActions, Except.check_bind_eq_ok, Except.refuseIf_eq_ok, ih,
      List.map_cons, List.nodup_cons, List.mem_map, List.mem_cons, not_or,
      forall_and, not_exists, not_and]
    grind

/-- The sizes are added up in any order. -/
theorem artifactBytes_eq_ok {actions : List ResolvedAction} {n : Nat} :
    artifactBytes actions = .ok n ↔
      n = ((actions.filterMap (·.candidate)).map (·.packageSize.toNat)).sum ∧ n < 2 ^ 64 := by
  have hloop : ∀ (cs : List CandidatePackage) (start : Nat), start < 2 ^ 64 →
      (cs.foldlM (fun total c => do
        let sum := total + c.packageSize.toNat
        refuseIf (sum ≥ 2 ^ 64) (PlanError.invalid "artifact size overflow")
        return sum) start = .ok n ↔
        n = start + (cs.map (·.packageSize.toNat)).sum ∧ n < 2 ^ 64) := by
    intro cs
    induction cs with
    | nil =>
      intro start hstart
      rw [List.foldlM_nil, Except.pure_eq_ok]
      simp only [List.map_nil, List.sum_nil, Nat.add_zero]
      constructor
      · rintro rfl
        exact ⟨rfl, hstart⟩
      · exact fun h => h.1.symm
    | cons c cs ih =>
      intro start hstart
      rw [List.foldlM_cons, Except.bind_eq_ok, List.map_cons, List.sum_cons]
      constructor
      · rintro ⟨sum, hsum, hrest⟩
        rw [Except.check_bind_eq_ok, Except.refuseIf_eq_ok, Except.pure_eq_ok] at hsum
        obtain ⟨hlt, rfl⟩ := hsum
        obtain ⟨rfl, hn⟩ := (ih _ (by omega)).mp hrest
        exact ⟨by omega, hn⟩
      · rintro ⟨rfl, hn⟩
        refine ⟨start + c.packageSize.toNat, ?_, (ih _ (by omega)).mpr ⟨by omega, hn⟩⟩
        rw [Except.check_bind_eq_ok, Except.refuseIf_eq_ok, Except.pure_eq_ok]
        exact ⟨by omega, rfl⟩
  unfold artifactBytes
  rw [hloop _ 0 (by decide), Nat.zero_add]

theorem artifactBytes_perm (h : l.Perm l') {n : Nat} :
    artifactBytes l = .ok n ↔ artifactBytes l' = .ok n := by
  rw [artifactBytes_eq_ok, artifactBytes_eq_ok, ((h.filterMap _).map _).sum_eq]

theorem validateReachable_perm (h : l.Perm l') :
    validateReachable l = .ok () ↔ validateReachable l' = .ok () := by
  have hparent (a p : ResolvedAction) : IsParent l a p ↔ IsParent l' a p := by
    unfold IsParent
    rw [h.mem_iff]
  have hparent' : IsParent l = IsParent l' := by
    funext a p
    exact propext (hparent a p)
  rw [validateReachable_eq_ok, validateReachable_eq_ok, (h.map _).nodup_iff]
  unfold Attached
  simp only [hparent', h.mem_iff]

/-- **The inputs are accepted in any order.** -/
theorem validateInputs_perm (h : l.Perm l') :
    b.validateInputs l satisfied = .ok () ↔ b.validateInputs l' satisfied = .ok () := by
  have hcovered : (coveredSelectors l satisfied).Perm (coveredSelectors l' satisfied) :=
    (h.filterMap _).append_left _
  have hnil : l = [] ↔ l' = [] :=
    ⟨fun hl => (hl ▸ h).nil_eq.symm, fun hl => (hl ▸ h.symm).nil_eq.symm⟩
  have hcount (name : String) :
      (coveredSelectors l satisfied).count name = (coveredSelectors l' satisfied).count name :=
    hcovered.count_eq name
  have hactions (u : Unit) : b.checkActions l [] l = .ok u ↔ b.checkActions l' [] l' = .ok u := by
    cases u
    simp only [checkActions_eq_ok_iff, checkAction_perm h, h.mem_iff, (h.map _).nodup_iff]
  unfold PlanBuilder.validateInputs
  simp only [Except.bind_eq_ok, Except.refuseIf_eq_ok, hactions, artifactBytes_perm h,
    validateReachable_perm h, (h.map _).nodup_iff, hnil, h.length_eq, hcount, hcovered.any_eq]

end

/-! ## The proposal -/

/-- The successful results over a list. -/
theorem mapM_eq_ok_iff_filterMap {ε α β : Type} {f : α → Except ε β} {l : List α} {l' : List β} :
    l.mapM f = .ok l' ↔
      (∀ a ∈ l, ∃ x, f a = .ok x) ∧ l' = l.filterMap fun a => (f a).toOption := by
  rw [Except.mapM_eq_ok]
  induction l generalizing l' with
  | nil => simp
  | cons a l ih =>
    rw [List.forall_mem_cons, List.forall₂_cons_left_iff]
    constructor
    · rintro ⟨x, xs, hx, hxs, rfl⟩
      obtain ⟨hall, rfl⟩ := ih.mp hxs
      exact ⟨⟨⟨x, hx⟩, hall⟩, by simp [hx, Except.toOption]⟩
    · rintro ⟨⟨⟨x, hx⟩, hall⟩, rfl⟩
      exact ⟨x, _, hx, ih.mpr ⟨hall, rfl⟩, by simp [hx, Except.toOption]⟩

/-- A computation over a list gives its results in the order of the list. -/
theorem mapM_perm {ε α β : Type} {f : α → Except ε β} {l l' : List α} {m : List β} (h : l.Perm l')
    (hm : l.mapM f = .ok m) : ∃ m', l'.mapM f = .ok m' ∧ m.Perm m' := by
  obtain ⟨hall, rfl⟩ := mapM_eq_ok_iff_filterMap.mp hm
  refine ⟨_, mapM_eq_ok_iff_filterMap.mpr ⟨fun a ha => hall a (h.mem_iff.mpr ha), rfl⟩, ?_⟩
  exact h.filterMap _

theorem canonicalActions_perm {as as' : List PackageAction} (h : as.Perm as') :
    Core.canonicalActions as = Core.canonicalActions as' := by
  unfold Core.canonicalActions
  rw [h.length_eq, List.insertionSort_eq_of_perm h]

theorem new_perm {intent : Core.TransactionIntent} {integrity : Core.PlanIntegrity}
    {expiresAtUnix : UInt64} {as as' : List PackageAction} (h : as.Perm as') :
    PlanEnvelope.new intent integrity expiresAtUnix as =
      PlanEnvelope.new intent integrity expiresAtUnix as' := by
  unfold PlanEnvelope.new
  rw [canonicalActions_perm h]

/-- The envelope holds the actions. -/
theorem perm_of_new {intent : Core.TransactionIntent} {integrity : Core.PlanIntegrity}
    {expiresAtUnix : UInt64} {as : List PackageAction} {proposal : PlanEnvelope}
    (h : PlanEnvelope.new intent integrity expiresAtUnix as = .ok proposal) :
    proposal.actions.Perm as := by
  rw [PlanEnvelope.new, Except.check_bind_eq_ok, Except.bind_eq_ok] at h
  obtain ⟨-, actions, hactions, h⟩ := h
  rw [Core.canonicalActions, Except.check_bind_eq_ok, Except.check_bind_eq_ok,
    Except.pure_eq_ok] at hactions
  rw [← Except.pure_eq_ok.mp h, ← hactions.2.2]
  exact List.perm_insertionSort _ _

open CanonicalSolverPlan (sortByText) in
/-- Sorting by the text forgets the order. -/
theorem sortByText_perm {vs ws : List Json.Value} (h : vs.Perm ws) :
    sortByText vs = sortByText ws := by
  unfold sortByText
  have htotal : Std.Total fun a b : Json.Value => a.render ≤ b.render :=
    ⟨fun a b => List.le_total a.render b.render⟩
  have htrans : IsTrans Json.Value fun a b => a.render ≤ b.render :=
    ⟨fun _ _ _ => List.le_trans⟩
  have hantisymm : Std.Antisymm fun a b : Json.Value => a.render ≤ b.render :=
    ⟨fun _ _ hab hba => render_injective (List.le_antisymm hab hba)⟩
  have hperm := (List.perm_insertionSort (fun a b : Json.Value => a.render ≤ b.render) vs).trans
    (h.trans (List.perm_insertionSort (fun a b : Json.Value => a.render ≤ b.render) ws).symm)
  exact hperm.eq_of_pairwise' (List.pairwise_insertionSort _ vs) (List.pairwise_insertionSort _ ws)

/-! ## The build -/

/-- What has to hold for a plan to be built, whatever the order of the actions. -/
structure Buildable (b : PlanBuilder) (resolved : List ResolvedAction)
    (satisfied : List PackageSpec) : Prop where
  policy : b.policy.validate = .ok ()
  inputs : b.validateInputs resolved satisfied = .ok ()
  proposal : ∃ actions cores proposal, resolved.mapM b.action = .ok actions ∧
    actions.mapM coreAction = .ok cores ∧
    PlanEnvelope.new b.intent b.snapshots b.expiresAtUnix cores = .ok proposal ∧
    proposal.validateExecutable b.policy 0 = .ok () ∧
    ∃ bytes, proposal.toCanonicalJson = .ok bytes

section
variable {b : PlanBuilder} {l l' : List ResolvedAction} {satisfied : List PackageSpec}

theorem Buildable.perm (h : Buildable b l satisfied) (hperm : l.Perm l') :
    Buildable b l' satisfied where
  policy := h.policy
  inputs := (validateInputs_perm hperm).mp h.inputs
  proposal := by
    obtain ⟨actions, cores, proposal, hactions, hcores, hnew, hexec⟩ := h.proposal
    obtain ⟨actions', hactions', hp⟩ := mapM_perm hperm hactions
    obtain ⟨cores', hcores', hp'⟩ := mapM_perm hp hcores
    exact ⟨actions', cores', proposal, hactions', hcores', (new_perm hp').symm.trans hnew, hexec⟩

/-- The checks of a plan that was just put together pass. -/
theorem validate_eq_ok {ordered : List ExplainedAction} {cores : List PackageAction}
    {proposal : PlanEnvelope} {bytes : List UInt8} (hcores : ordered.mapM coreAction = .ok cores)
    (hperm : proposal.actions.Perm cores) (hjson : proposal.toCanonicalJson = .ok bytes) :
    CanonicalSolverPlan.validate ⟨"dnfast.explained-plan.v1", proposal, ordered⟩ = .ok () := by
  have hlength : proposal.actions.length = ordered.length := by
    rw [hperm.length_eq, (Except.mapM_eq_ok.mp hcores).length_eq]
  have hsort := sortByText_perm (hperm.map Core.PackageAction.toValue)
  rw [CanonicalSolverPlan.validate, Except.check_bind_eq_ok, Except.refuseIf_eq_ok]
  refine ⟨fun hne => hne rfl, Except.bind_eq_ok.mpr ⟨bytes, by rw [hjson]; rfl, ?_⟩⟩
  rw [Except.check_bind_eq_ok, Except.refuseIf_eq_ok, not_not]
  refine ⟨hlength, Except.bind_eq_ok.mpr ⟨cores, hcores, ?_⟩⟩
  rw [Except.refuseIf_eq_ok, not_not]
  exact hsort

/-- **What is built.** A list that can be built is built, with its actions in the execution
order and a proposal that is the same for every order of the list. -/
theorem Buildable.build (h : Buildable b l satisfied) :
    ∃ proposal, ∀ l', l.Perm l' → ∃ actions ordered, l'.mapM b.action = .ok actions ∧
      executionOrder l' actions = .ok ordered ∧
      b.buildWithSatisfied l' satisfied = .ok ⟨"dnfast.explained-plan.v1", proposal, ordered⟩ := by
  obtain ⟨actions, cores, proposal, hactions, hcores, hnew, hexec, bytes, hjson⟩ := h.proposal
  refine ⟨proposal, fun l' hperm => ?_⟩
  have hinputs := (validateInputs_perm hperm).mp h.inputs
  obtain ⟨actions', hactions', hp⟩ := mapM_perm hperm hactions
  obtain ⟨ordered, hordered, hp'⟩ := executionOrder_permutes (connected_of_validateInputs hinputs)
    (.of_eq (names_of_explained hactions'))
  obtain ⟨cores', hcores', hp''⟩ := mapM_perm (hp.trans hp'.symm) hcores
  refine ⟨actions', ordered, hactions', hordered, ?_⟩
  rw [new_perm hp''] at hnew
  have hvalid := validate_eq_ok hcores' (perm_of_new hnew) hjson
  rw [PlanBuilder.buildWithSatisfied, Except.check_bind_eq_ok, Except.check_bind_eq_ok]
  refine ⟨Except.mapError_eq_ok.mpr h.policy, hinputs, ?_⟩
  rw [hactions', Except.ok_bind, hordered, Except.ok_bind, hcores', Except.ok_bind, hnew]
  simp only [Except.mapError_ok, hexec, Except.ok_bind, hvalid]
  rfl

theorem buildable_of_build {plan : CanonicalSolverPlan}
    (h : b.buildWithSatisfied l satisfied = .ok plan) : Buildable b l satisfied := by
  have hinputs := (buildWithSatisfied_eq_ok h).inputs
  rw [PlanBuilder.buildWithSatisfied, Except.check_bind_eq_ok, Except.check_bind_eq_ok] at h
  obtain ⟨hpolicy, -, h⟩ := h
  obtain ⟨actions, hactions, h⟩ := Except.bind_eq_ok.mp h
  obtain ⟨ordered, hordered, h⟩ := Except.bind_eq_ok.mp h
  obtain ⟨cores, hcores, h⟩ := Except.bind_eq_ok.mp h
  obtain ⟨proposal, hnew, h⟩ := Except.bind_eq_ok.mp h
  rw [Except.check_bind_eq_ok, Except.mapError_eq_ok, Except.check_bind_eq_ok] at h
  obtain ⟨hexec, hvalid, -⟩ := h
  have hlength : actions.length = l.length := (Except.mapM_eq_ok.mp hactions).length_eq.symm
  obtain ⟨cores', hcores', hp⟩ := mapM_perm (executionOrder_perm hlength hordered).2 hcores
  rw [CanonicalSolverPlan.validate, Except.check_bind_eq_ok, Except.bind_eq_ok] at hvalid
  obtain ⟨-, bytes, hjson, -⟩ := hvalid
  rw [Except.mapError_eq_ok] at hnew hjson
  exact ⟨Except.mapError_eq_ok.mp hpolicy, hinputs, actions, cores', proposal, hactions, hcores',
    (new_perm hp).symm.trans hnew, hexec, bytes, hjson⟩

end

end Dnfast.Solver
