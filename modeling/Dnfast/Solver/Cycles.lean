import Dnfast.Solver.Coverage
import Dnfast.Solver.Order

/-! # Cycles in the constraint graph

The order of the actions exists for every list whose edges lead to listed actions, whatever cycles
the edges form. It keeps the constraints that are on no cycle exactly when every name that is cut
out of a cycle reaches the names left that have to come before it. -/

namespace Dnfast.Solver

open Relation (ReflTransGen)
open Dnfast.Core (PackageSpec)

section
variable {resolved : List ResolvedAction} {actions ordered : List ExplainedAction} {turn : Bool}

/-- **The order always exists.** It has each of the actions once. -/
theorem executionOrder_permutes (hconnected : Connected resolved)
    (hnames : (actions.map (·.name)).Perm (resolved.map (·.name))) :
    ∃ ordered, executionOrder resolved actions = .ok ordered ∧ ordered.Perm actions := by
  have hok := hconnected.executionOrder_eq hnames
  have hlength : actions.length = resolved.length := by
    simpa using hnames.length_eq
  exact ⟨_, hok, (executionOrder_perm hlength hok).2⟩

/-- The names in the order are listed as the graph is. -/
theorem Connected.names_executionOrder (h : Connected resolved)
    (hactions : (actions.map (·.name)).Perm (resolved.map (·.name)))
    (hok : executionOrder resolved actions = .ok ordered) :
    ordered.map (·.name) = Topological.sort (Edge (constraints resolved (turned resolved)))
      (cutOut (constraints resolved (turned resolved))) (resolved.map (·.name)).toFinset := by
  have hset : (actions.map (·.name)).toFinset = (resolved.map (·.name)).toFinset := by
    ext n
    rw [List.mem_toFinset, List.mem_toFinset, hactions.mem_iff]
  rw [h.executionOrder_eq hactions, Except.ok.injEq, hset] at hok
  rw [← hok, List.map_filterMap]
  have hname : ∀ n ∈ Topological.sort (Edge (constraints resolved (turned resolved)))
      (cutOut (constraints resolved (turned resolved))) (resolved.map (·.name)).toFinset,
      (collected (actions.map fun a => (a.name, a)) n).map (·.name) = some n := by
    intro n hn
    rw [Topological.mem_sort (cuts_cutOut _), List.mem_toFinset, ← hactions.mem_iff] at hn
    obtain ⟨a, ha, hname⟩ := List.mem_map.mp hn
    cases hfound : collected (actions.map fun a => (a.name, a)) n with
    | none =>
      exact absurd hname (collected_eq_none.mp hfound (a.name, a) (List.mem_map.mpr ⟨a, ha, rfl⟩))
    | some b =>
      obtain ⟨c, -, heq⟩ := List.mem_map.mp (mem_of_collected hfound)
      obtain ⟨rfl, rfl⟩ := Prod.mk.inj heq
      rfl
  rw [List.filterMap_congr hname, List.filterMap_some]

/-- What the checks of the inputs say about the edges. -/
theorem connected_of_validateInputs {b : PlanBuilder} {satisfied : List PackageSpec}
    (h : b.validateInputs resolved satisfied = .ok ()) : Connected resolved where
  names := (validateInputs_accounts h).names
  parents item hitem d hd := by
    have hcheck := checkAction_of_validateInputs h item hitem
    simp only [PlanBuilder.checkAction, Except.check_bind_eq_ok] at hcheck
    have hedge := Except.forM_eq_ok.mp hcheck.2.2.2.1 d hd
    rw [checkEdge, Except.check_bind_eq_ok, Except.refuseIf_eq_ok, Except.refuseIf_eq_ok,
      not_not] at hedge
    exact hedge.2
  obsoleters item hitem identity hprov := by
    have hcheck := checkAction_of_validateInputs h item hitem
    simp only [PlanBuilder.checkAction, Except.check_bind_eq_ok] at hcheck
    have hparent := hcheck.2.2.2.2.1
    simp only [checkProvenance, hprov, Except.refuseIf_eq_ok, not_or, Bool.not_eq_true,
      Bool.not_eq_false', List.any_eq_true, decide_eq_true_eq] at hparent
    exact hparent.2

/-- The constraints that are on no cycle lead forward in the order. -/
def PreservesAcyclic (resolved : List ResolvedAction) (ordered : List ExplainedAction) : Prop :=
  ∀ u v, Edge (constraints resolved (turned resolved)) u v →
    ¬ ReflTransGen (Edge (constraints resolved (turned resolved))) v u →
      [u, v].Sublist (ordered.map (·.name))

/-- At every turn of the loop at which each name left has a constraint from a name left, the name
that `cycle_member` gives for the names left reaches the names left that are to come before it. -/
def CutsCycles (resolved : List ResolvedAction) : Prop :=
  Topological.CutsInside (Edge (constraints resolved (turned resolved)))
    (cutOut (constraints resolved (turned resolved))) (resolved.map (·.name)).toFinset

theorem Connected.preservesAcyclic_iff (h : Connected resolved)
    (hactions : (actions.map (·.name)).Perm (resolved.map (·.name)))
    (hok : executionOrder resolved actions = .ok ordered) :
    PreservesAcyclic resolved ordered ↔ CutsCycles resolved := by
  unfold CutsCycles PreservesAcyclic
  rw [← Topological.keeps_iff (cuts_cutOut _), h.names_executionOrder hactions hok]
  constructor
  · exact fun hp u _ v _ => hp u v
  · intro hk u v hedge
    obtain ⟨hu, hv⟩ := h.mem_of_edge hedge
    exact hk u (List.mem_toFinset.mpr hu) v (List.mem_toFinset.mpr hv) hedge

/-- The explained actions have the names of the resolved ones. -/
theorem names_of_explained {b : PlanBuilder} (h : resolved.mapM b.action = .ok actions) :
    actions.map (·.name) = resolved.map (·.name) := by
  rw [Except.mapM_eq_ok] at h
  exact (h.map_eq fun _ _ _ _ hexplained => (action_eq_ok hexplained).name.symm).symm

/-- **When the acyclic constraints are kept.** -/
theorem executionOrder_preserves_iff {b : PlanBuilder} {satisfied : List PackageSpec}
    (hinputs : b.validateInputs resolved satisfied = .ok ())
    (hexplained : resolved.mapM b.action = .ok actions) :
    ∃ ordered, executionOrder resolved actions = .ok ordered ∧
      (PreservesAcyclic resolved ordered ↔ CutsCycles resolved) := by
  have hconnected := connected_of_validateInputs hinputs
  have hnames : (actions.map (·.name)).Perm (resolved.map (·.name)) :=
    .of_eq (names_of_explained hexplained)
  have hok := hconnected.executionOrder_eq hnames
  exact ⟨_, hok, hconnected.preservesAcyclic_iff hnames hok⟩

end

/-! ## Two cycles -/

/-- `app` and `lib` require each other, and so do `tool` and `util`; `tool` is required by `app`. -/
def twoCycles : List ResolvedAction :=
  [installOf "app" (some appSpec) ["lib"], installOf "lib" none ["app"],
    installOf "tool" none ["app", "util"], installOf "util" none ["tool"]]

def cyclesBuilder : PlanBuilder :=
  { installBuilder with
    candidates := [candidateNamed "app", candidateNamed "lib", candidateNamed "tool",
      candidateNamed "util"] }

/-- The order of `twoCycles`, by name. -/
def orderOf (b : PlanBuilder) (resolved : List ResolvedAction) : Option (List String) :=
  ((resolved.mapM b.action).toOption.bind fun actions =>
    (executionOrder resolved actions).toOption).map fun ordered => ordered.map (·.name)

theorem orderOf_eq_some {b : PlanBuilder} {resolved : List ResolvedAction} {names : List String}
    (h : orderOf b resolved = some names) :
    ∃ actions ordered, resolved.mapM b.action = .ok actions ∧
      executionOrder resolved actions = .ok ordered ∧ ordered.map (·.name) = names := by
  obtain ⟨ordered, hordered, rfl⟩ := Option.map_eq_some_iff.mp h
  obtain ⟨actions, hactions, hordered⟩ := Option.bind_eq_some_iff.mp hordered
  exact ⟨actions, ordered, Except.toOption_eq_some.mp hactions,
    Except.toOption_eq_some.mp hordered, rfl⟩

theorem evaluates_twoCycles :
    (cyclesBuilder.validateInputs twoCycles []).toOption = some () ∧
      orderOf cyclesBuilder twoCycles = some ["app", "lib", "tool", "util"] := by
  decide +kernel

theorem executionOrder_preserves_iff_twoCycles :
    ∃ actions ordered, executionOrder twoCycles actions = .ok ordered ∧
      (PreservesAcyclic twoCycles ordered ↔ CutsCycles twoCycles) := by
  obtain ⟨hinputs, horder⟩ := evaluates_twoCycles
  obtain ⟨actions, -, hactions, -⟩ := orderOf_eq_some horder
  obtain ⟨ordered, hordered⟩ :=
    executionOrder_preserves_iff (Except.toOption_eq_some.mp hinputs) hactions
  exact ⟨actions, ordered, hordered⟩

/-- `app` and `lib` lead only to each other. -/
theorem path_twoCycles {name : String}
    (h : ReflTransGen (Edge (constraints twoCycles (turned twoCycles))) "app" name) :
    name ∈ ["app", "lib"] := by
  have hstep : ∀ e ∈ constraints twoCycles (turned twoCycles),
      (ofLex e).1 ∈ ["app", "lib"] → (ofLex e).2 ∈ ["app", "lib"] := by
    decide +kernel
  induction h with
  | refl => exact List.mem_cons_self
  | tail _ hedge ih => exact hstep _ hedge ih

/-- The cycle of `app` is cut first, although `tool`, which is on another cycle, is to come before
`app`. -/
theorem tool_after_app :
    ∃ actions ordered, cyclesBuilder.validateInputs twoCycles [] = .ok () ∧
      twoCycles.mapM cyclesBuilder.action = .ok actions ∧
      executionOrder twoCycles actions = .ok ordered ∧ ¬ PreservesAcyclic twoCycles ordered := by
  obtain ⟨hinputs, horder⟩ := evaluates_twoCycles
  obtain ⟨actions, ordered, hactions, hordered, hnames⟩ := orderOf_eq_some horder
  refine ⟨actions, ordered, Except.toOption_eq_some.mp hinputs, hactions, hordered, fun hp => ?_⟩
  have hedge : Edge (constraints twoCycles (turned twoCycles)) "tool" "app" := by
    unfold Edge
    decide +kernel
  have hsub := hp "tool" "app" hedge fun hpath => by
    have := path_twoCycles hpath
    simp at this
  rw [hnames] at hsub
  exact absurd hsub (by decide)

/-! ## An edge to itself -/

/-- `app` has an edge to itself, `app` and `lib` are on a cycle, and `app` obsoletes `old`. -/
def selfEdge : List ResolvedAction :=
  [installOf "app" (some appSpec) ["app", "lib"], installOf "lib" none ["app"],
    { installOf "old" none [] with
      operation := .remove
      candidate := none
      provenance := some (.obsoletedBy "fedora:app-0:1-1.fc44.x86_64") }]

theorem connected_selfEdge : Connected selfEdge where
  names := by decide
  parents := by decide
  obsoleters item hitem identity hprov := by
    have hall : ∀ item ∈ selfEdge, item.provenance = none ∨
        item.provenance = some (.obsoletedBy "fedora:app-0:1-1.fc44.x86_64") := by decide
    rcases hall item hitem with hnone | hsome
    · rw [hnone] at hprov
      exact nomatch hprov
    · rw [hsome, Option.some.injEq, Core.ActionProvenance.obsoletedBy.injEq] at hprov
      rw [← hprov]
      decide +kernel

/-- An installation that is explained with its name. -/
def explainedNamed (name : String) : ExplainedAction where
  operation := "install"
  name := name
  targetEvra := ⟨0, "1", "1.fc44", .x86_64⟩
  installedEvra := none
  installedInstance := none
  installedHeaderSha256 := none
  installedVendor := none
  vendor := some "Fedora"
  repoId := some "fedora"
  reason := .user
  relation := .requested
  requestedBy := none
  dependencyEdges := []
  provenance := none
  packageSize := 10
  installedSize := 20
  artifact := none
  protection := ⟨false, false, false⟩
  explanation := "libsolv typed causal decision"

theorem executionOrder_permutes_selfEdge :
    ∃ ordered, executionOrder selfEdge (["app", "lib", "old"].map explainedNamed) = .ok ordered ∧
      ordered.Perm (["app", "lib", "old"].map explainedNamed) :=
  executionOrder_permutes connected_selfEdge (by decide)

end Dnfast.Solver
