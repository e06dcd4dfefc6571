import Mathlib.Data.Multiset.Dedup
import Dnfast.Data.Forall2
import Dnfast.Solver.Plan

/-! # What a successful build consists of

The order of the actions is a permutation of them (`executionOrder_perm`), whatever the edges are:
the loop takes every name once. `buildWithSatisfied_eq_ok` lists what a successful build went
through. -/

namespace Dnfast.Solver

open Dnfast.Core (PackageAction PackageSpec PlanEnvelope)

/-! ## The order -/

section
variable {edges : List (String ×ₗ String)} {actionOf : String → Option ExplainedAction}
  {s : OrderState} {ordered : List ExplainedAction}

/-- The loop ends when no name is left, or takes one of the names and goes on without it. -/
theorem orderFrom_cases (h : orderFrom edges actionOf s = .ok ordered) :
    (s.active = ∅ ∧ ordered = []) ∨
    ∃ name ∈ s.active, ∃ action s' rest, actionOf name = some action ∧
      s'.active = s.active.erase name ∧ orderFrom edges actionOf s' = .ok rest ∧
      ordered = action :: rest := by
  rw [orderFrom] at h
  split at h
  · next hempty =>
    cases h
    exact .inl ⟨hempty, rfl⟩
  · split at h
    · cases h
    · next name _ =>
      split at h
      · next hmem =>
        split at h
        · cases h
        · next action haction =>
          simp only at h
          split at h
          · cases h
          · next s' _ =>
            obtain ⟨rest, hrest, hordered⟩ := Except.bind_eq_ok.mp h
            exact .inr ⟨name, hmem, action, ⟨s.active.erase name, s'.ready, s'.indegree⟩, rest,
              haction, rfl, hrest, (Except.pure_eq_ok.mp hordered).symm⟩
      · cases h

/-- The loop returns the action of every name that is left, each once. -/
theorem orderFrom_eq_ok (h : orderFrom edges actionOf s = .ok ordered) :
    Multiset.map some (ordered : Multiset ExplainedAction) = s.active.val.map actionOf := by
  induction hn : s.active.card generalizing s ordered with
  | zero =>
    rcases orderFrom_cases h with ⟨hempty, rfl⟩ | ⟨name, hname, -⟩
    · simp [hempty]
    · rw [Finset.card_eq_zero.mp hn] at hname
      cases hname
  | succ n ih =>
    rcases orderFrom_cases h with ⟨hempty, -⟩ | ⟨name, hname, action, s', rest, haction, hactive,
      hrest, rfl⟩
    · rw [hempty] at hn
      cases hn
    · have hcard : s'.active.card = n := by
        rw [hactive, Finset.card_erase_of_mem hname, hn, Nat.add_sub_cancel]
      rw [← Multiset.cons_coe, Multiset.map_cons, ih hrest hcard, hactive,
        ← Multiset.cons_erase (Finset.mem_val.mpr hname), Multiset.map_cons, haction,
        Finset.erase_val]

end

theorem nodup_of_card_toFinset {α : Type} [DecidableEq α] {l : List α}
    (h : l.length ≤ l.toFinset.card) : l.Nodup := by
  rw [List.card_toFinset] at h
  exact List.dedup_eq_self.mp ((List.dedup_sublist l).eq_of_length_le h)

theorem executionOrder_perm {resolved : List ResolvedAction} {actions ordered : List ExplainedAction}
    (hlength : actions.length = resolved.length)
    (h : executionOrder resolved actions = .ok ordered) :
    (actions.map (·.name)).Nodup ∧ ordered.Perm actions := by
  rw [executionOrder, Except.check_bind_eq_ok, Except.refuseIf_eq_ok, not_not] at h
  obtain ⟨hcard, h⟩ := h
  obtain ⟨edges, -, h⟩ := Except.bind_eq_ok.mp h
  rw [Except.check_bind_eq_ok] at h
  have hnodup : (actions.map (·.name)).Nodup := by
    apply nodup_of_card_toFinset
    rw [List.length_map, hlength, hcard]
  have hlookup : ∀ a ∈ actions, collected (actions.map fun a => (a.name, a)) a.name = some a := by
    intro a ha
    refine collected_of_mem ?_ (List.mem_map.mpr ⟨a, ha, rfl⟩)
    rw [List.map_map]
    exact hnodup
  have hactions : (actions.map (·.name)).map (collected (actions.map fun a => (a.name, a))) =
      actions.map some := by
    rw [List.map_map]
    exact List.map_congr_left hlookup
  have horder := orderFrom_eq_ok h.2
  rw [List.toFinset_val, hnodup.dedup, Multiset.map_coe _ (actions.map _), hactions,
    ← Multiset.map_coe] at horder
  exact ⟨hnodup, Multiset.coe_eq_coe.mp (Multiset.map_injective (Option.some_injective _) horder)⟩

/-! ## One action -/

/-- What the explanation of a resolved action says about it. -/
structure Explains (b : PlanBuilder) (resolved : ResolvedAction) (explained : ExplainedAction) :
    Prop where
  operation : explained.operation = PlanBuilder.operationText resolved.operation
  name : explained.name = resolved.name
  edges : explained.dependencyEdges = resolved.dependencyEdges
  provenance : explained.provenance = resolved.provenance
  reason : explained.reason = (b.relationOf resolved).reason
  vendor : explained.installedVendor = resolved.installedVendor
  /-- The package that is consumed, if any, is the one of the inventory with the given instance. -/
  installed : ∃ installed, b.installedOf resolved = .ok installed ∧
    explained.installedEvra = installed.map (·.evra) ∧
    explained.installedInstance = installed.map (·.dbInstance) ∧
    explained.installedHeaderSha256 = installed.map (·.immutableHeaderSha256.asStr) ∧
    (resolved.operation = .remove → ∃ p, installed = some p ∧ p.name = resolved.name)
  candidate : resolved.operation ≠ .remove →
    ∃ c, resolved.candidate = some c ∧ c.name = resolved.name
  removed : resolved.operation = .remove → explained.installedEvra = some explained.targetEvra

section
variable {b : PlanBuilder} {resolved : ResolvedAction} {explained : ExplainedAction}

theorem remove_eq_ok {installed : Option Core.InstalledPackage} (hop : resolved.operation = .remove)
    (hinstalled : b.installedOf resolved = .ok installed)
    (h : b.remove resolved installed (b.relationOf resolved) = .ok explained) :
    Explains b resolved explained := by
  rw [PlanBuilder.remove, Except.bind_eq_ok] at h
  obtain ⟨p, hp, h⟩ := h
  simp only [Except.check_bind_eq_ok, Except.refuseIf_eq_ok, Except.okOr_eq_ok, not_not,
    Except.pure_eq_ok] at h hp
  obtain ⟨hname, -, -, rfl⟩ := h
  subst hp
  constructor
  case operation => rw [hop]; rfl
  case installed => exact ⟨some p, hinstalled, rfl, rfl, rfl, fun _ => ⟨p, rfl, hname⟩⟩
  case candidate => exact fun hne => absurd hop hne
  case removed => exact fun _ => rfl
  all_goals rfl

theorem installOrUpgrade_eq_ok {installed : Option Core.InstalledPackage}
    (hop : resolved.operation ≠ .remove) (hinstalled : b.installedOf resolved = .ok installed)
    (h : b.installOrUpgrade resolved installed (b.relationOf resolved) = .ok explained) :
    Explains b resolved explained := by
  rw [PlanBuilder.installOrUpgrade, Except.bind_eq_ok] at h
  obtain ⟨c, hc, h⟩ := h
  simp only [Except.check_bind_eq_ok, Except.refuseIf_eq_ok, Except.okOr_eq_ok, not_not] at h hc
  obtain ⟨-, hname, -, h⟩ := h
  obtain ⟨checksum, -, h⟩ := Except.bind_eq_ok.mp h
  obtain rfl := Except.pure_eq_ok.mp h
  constructor
  case installed => exact ⟨installed, hinstalled, rfl, rfl, rfl, fun h => absurd h hop⟩
  case candidate => exact fun _ => ⟨c, hc, hname⟩
  case removed => exact fun h => absurd h hop
  all_goals rfl

theorem action_eq_ok (h : b.action resolved = .ok explained) : Explains b resolved explained := by
  rw [PlanBuilder.action, Except.check_bind_eq_ok, Except.bind_eq_ok] at h
  obtain ⟨-, installed, hinstalled, h⟩ := h
  cases hop : resolved.operation with
  | remove =>
    simp only [hop] at h
    exact remove_eq_ok hop hinstalled h
  | install | upgrade | downgrade | reinstall =>
    simp only [hop] at h
    exact installOrUpgrade_eq_ok (by rw [hop]; simp) hinstalled h

/-! ## The whole build -/

/-- What a successful build went through. -/
structure Built (b : PlanBuilder) (resolved : List ResolvedAction) (satisfied : List PackageSpec)
    (plan : CanonicalSolverPlan) : Prop where
  inputs : b.validateInputs resolved satisfied = .ok ()
  explained : ∃ explained, List.Forall₂ (Explains b) resolved explained ∧
    plan.actions.Perm explained
  proposal : ∃ actions, List.Forall₂ (fun a c => coreAction a = .ok c) plan.actions actions ∧
    PlanEnvelope.new b.intent b.snapshots b.expiresAtUnix actions = .ok plan.proposal
  executable : plan.proposal.validateExecutable b.policy 0 = .ok ()

theorem buildWithSatisfied_eq_ok {resolved : List ResolvedAction} {satisfied : List PackageSpec}
    {plan : CanonicalSolverPlan} (h : b.buildWithSatisfied resolved satisfied = .ok plan) :
    Built b resolved satisfied plan := by
  rw [PlanBuilder.buildWithSatisfied, Except.check_bind_eq_ok, Except.check_bind_eq_ok] at h
  obtain ⟨-, hinputs, h⟩ := h
  obtain ⟨explained, hexplained, h⟩ := Except.bind_eq_ok.mp h
  obtain ⟨ordered, hordered, h⟩ := Except.bind_eq_ok.mp h
  obtain ⟨actions, hactions, h⟩ := Except.bind_eq_ok.mp h
  obtain ⟨proposal, hproposal, h⟩ := Except.bind_eq_ok.mp h
  rw [Except.check_bind_eq_ok, Except.mapError_eq_ok, Except.check_bind_eq_ok] at h
  obtain ⟨hexecutable, -, hplan⟩ := h
  obtain rfl := Except.pure_eq_ok.mp hplan
  rw [Except.mapM_eq_ok] at hexplained hactions
  have hperm := (executionOrder_perm hexplained.length_eq.symm hordered).2
  exact ⟨hinputs, ⟨explained, hexplained.imp fun _ _ => action_eq_ok, hperm⟩,
    ⟨actions, hactions, Except.mapError_eq_ok.mp hproposal⟩, hexecutable⟩

end

end Dnfast.Solver
