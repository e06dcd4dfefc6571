import Dnfast.Cli.Commands
import Dnfast.Solver.Consumed

/-! # What a successful planning went through

`solve_eq_ok` takes a plan back to the selectors of the request and the steps of libsolv's
transaction; `Solved` has the stages in between. The rows of the answer, the bound rows and the rows
after pairing stand at the places of their steps (`Solved.row`). -/

namespace Dnfast.Solver

/-- The row of one step. -/
def rowOf (step : TransactionStep) (spec : Option (String × Bool)) :
    ((((String × String) × String) × Option String) × Option String) × Bool :=
  (((((step.solvable.identity, step.solvable.repository), step.type.kind),
    step.counterpart.map (·.identity)), spec.map (·.1)), spec.any (·.2))

theorem rows_answerOf (steps : List TransactionStep) (decisions : List SolveDecision)
    (s : Provenance) : (answerOf steps decisions s).rows = List.zipWith rowOf steps s.specs := by
  obtain ⟨specs, satisfied⟩ := s
  simp only [SolveResult.rows, answerOf]
  induction steps generalizing specs with
  | nil => rfl
  | cons step steps ih =>
    cases specs with
    | nil => simp
    | cons spec specs => simpa [rowOf] using ih specs

end Dnfast.Solver

namespace Dnfast.Cli

open Dnfast.Core (InstalledInventory InstalledPackage PackageSpec TransactionIntent)
open Dnfast.Solver

/-- The stages from a request to its plan. -/
structure Solved (sys : System) (intent : TransactionIntent) (plan : CanonicalSolverPlan)
    (selectors : List Selector) (steps : List TransactionStep) (bound : List NativeAction)
    (s : Pairing) (resolved : List ResolvedAction) (explained : List ExplainedAction) : Prop where
  asks : List.Forall₂
    (fun text selector => selectorOf sys.lib (operationOf intent.action) text = .ok selector)
    (intent.packages.map (·.asStr)) selectors
  transaction : ∃ decisions, sys.lib.transaction (operationOf intent.action)
    (selectors.map (·.selected)) = .ok (steps, decisions)
  /-- The rows as they were bound, with what was attributed to them. -/
  provenance : ∃ provenance, Attributed (operationOf intent.action) steps selectors provenance ∧
    List.Forall₂ (fun row b => ∃ a, rowAction row = .ok a ∧ Bound sys.inventory a b)
      (List.zipWith rowOf steps provenance.specs) bound
  traced : ∃ stepList candidates, Traced stepList candidates sys.inventory bound s
    (explained.map ExplainedAction.taken)
  /-- The decisions are between actions, and come from repositories on the requiring side. -/
  resolves : ∃ (output : NativeSolveOutput) (candidates : List CandidatePackage)
      (noneExpected : Bool),
    output.actions = s.rows.filter (·.kind ∉ replacedKinds) ∧
    (∀ d ∈ output.decisions, d.requiringRepo ≠ systemRepository ∧
      ∃ a ∈ output.actions, a.nevra = d.requiringNevra ∧ a.repository = d.requiringRepo) ∧
    List.Forall₂ (fun a r => output.resolveAction candidates sys.inventory noneExpected a = .ok r)
      output.actions resolved
  explains : ∃ result, List.Forall₂ (Explains (sys.builder intent result)) resolved explained
  built : ∃ result satisfied, Built (sys.builder intent result) resolved satisfied plan
  order : plan.actions.Perm explained

/-- What comes from a repository is not of the system. -/
theorem repositoryIdentities_ne_system {identities pairs found : List (String × String)}
    (h : repositoryIdentities identities pairs = .ok found)
    (hidentities : ∀ e ∈ identities, e.2 ≠ systemRepository) :
    ∀ e ∈ found, e.2 ≠ systemRepository := by
  induction pairs generalizing identities with
  | nil =>
    cases h
    exact hidentities
  | cons pair pairs ih =>
    obtain ⟨nevra, repository⟩ := pair
    rw [repositoryIdentities] at h
    split at h
    · exact ih h hidentities
    · next hrepository =>
      rw [Except.check_bind_eq_ok] at h
      refine ih h.2 fun e he => ?_
      rcases List.mem_append.mp he with he | he
      · exact hidentities e he
      · rw [List.mem_singleton.mp he]
        exact hrepository

theorem nativeDecision_requiring {identities : List (String × String)}
    {metadata : List (String × PackageEvidence)} {item : SolveDecision} {d : NativeDecision}
    (h : nativeDecision identities metadata item = .ok d) :
    identities.lookup d.requiringNevra = some d.requiringRepo := by
  rw [nativeDecision, Except.bind_eq_ok] at h
  obtain ⟨repositories, hrepositories, h⟩ := h
  obtain ⟨evidence, -, h⟩ := Except.bind_eq_ok.mp h
  obtain ⟨requirement, -, h⟩ := Except.bind_eq_ok.mp h
  obtain rfl := Except.pure_eq_ok.mp h
  rw [decisionRepositories, Except.bind_eq_ok] at hrepositories
  obtain ⟨requiringRepo, hlookup, hrepositories⟩ := hrepositories
  rw [Except.okOr_eq_ok] at hlookup
  split at hrepositories
  · rw [← Except.pure_eq_ok.mp hrepositories]
    exact hlookup
  · obtain ⟨providerRepo, -, hrepositories⟩ := Except.bind_eq_ok.mp hrepositories
    rw [← Except.pure_eq_ok.mp hrepositories]
    exact hlookup

theorem checkSides_requiring {actions : List (String × String)} {inventory : InstalledInventory}
    {d : NativeDecision} (h : checkSides actions inventory d = .ok ()) :
    (d.requiringNevra, d.requiringRepo) ∈ actions := by
  rw [checkSides, Except.check_bind_eq_ok, Except.refuseIf_eq_ok, not_not] at h
  exact h.1

theorem solve_eq_ok {sys : System} {intent : TransactionIntent} {plan : CanonicalSolverPlan}
    (h : sys.solve intent = .ok plan) : ∃ selectors steps bound s resolved explained,
      Solved sys intent plan selectors steps bound s resolved explained := by
  rw [System.solve, Except.bind_eq_ok] at h
  obtain ⟨result, hresult, h⟩ := h
  obtain ⟨output, hread, h⟩ := Except.bind_eq_ok.mp h
  obtain ⟨resolved, hresolve, hbuild⟩ := Except.bind_eq_ok.mp h
  rw [Except.mapError_eq_ok] at hresult hread hresolve hbuild
  rw [solveOperation, Except.check_bind_eq_ok] at hresult
  obtain ⟨selectors, hselectors, hresult⟩ := Except.bind_eq_ok.mp hresult.2
  rw [Except.check_bind_eq_ok] at hresult
  obtain ⟨⟨steps, decisions⟩, htransaction, hresult⟩ := Except.bind_eq_ok.mp hresult.2
  obtain ⟨provenance, hprovenance, hresult⟩ := Except.bind_eq_ok.mp hresult
  have hrows : result.rows = List.zipWith rowOf steps provenance.specs := by
    rw [← Except.pure_eq_ok.mp hresult, rows_answerOf]
  have hreads := fromNativeEvidence_eq_ok.mp hread
  obtain ⟨identities, raw, hidentities, hraw, hpair, hdecisions⟩ := hreads.rest
  obtain ⟨bound, s, hbound, hpaired, hcomplete, hactions⟩ := (pairActions_eq_ok hpair).run
  obtain ⟨expected, assigned, covered, hresolves⟩ := intoResolvedEvidence_eq_ok.mp hresolve
  have hbuilt := buildWithSatisfied_eq_ok hbuild
  obtain ⟨explained, hexplained, hperm⟩ := hbuilt.explained
  have hall := hresolves.resolved.comp hexplained
  rw [hactions] at hall
  have htraced : Traced result.steps (sys.candidates result) (sys.builder intent result).inventory
      bound s (explained.map ExplainedAction.taken) :=
    traced_of_parts hraw hbound hpaired hcomplete hall (names_of_built hbuilt hexplained)
  refine ⟨selectors, steps, bound, s, resolved, explained, ?_⟩
  constructor
  case asks => exact Except.mapM_eq_ok.mp hselectors
  case transaction => exact ⟨decisions, htransaction⟩
  case provenance =>
    refine ⟨provenance, selectorProvenance_eq_ok hprovenance, ?_⟩
    rw [← hrows]
    exact hraw.comp (hbound.imp fun _ _ => bindInstalled_eq_ok)
  case traced => exact ⟨result.steps, sys.candidates result, htraced⟩
  case resolves =>
    refine ⟨output, _, _, hactions, fun d hd => ⟨?_, ?_⟩, hresolves.resolved⟩
    · obtain ⟨item, -, hmade⟩ := hdecisions.exists_left hd
      obtain ⟨pre, post, heq, -⟩ := List.lookup_eq_some_iff.mp (nativeDecision_requiring hmade)
      refine repositoryIdentities_ne_system hidentities (by simp) (d.requiringNevra, _) ?_
      rw [heq]
      simp
    · obtain ⟨a, ha, heq⟩ := List.mem_map.mp (checkSides_requiring (hresolves.sides d hd))
      exact ⟨a, ha, (Prod.mk.inj heq).1, (Prod.mk.inj heq).2⟩
  case explains => exact ⟨_, hexplained⟩
  case built => exact ⟨_, _, hbuilt⟩
  case order => exact hperm

end Dnfast.Cli
