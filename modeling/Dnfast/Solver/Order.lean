import Dnfast.Data.Topological
import Dnfast.Solver.Built

/-! # The order of the actions

`execution_order` against the listing of a graph with its sources first. The loop of the source keeps
the open edges into each name and the names without one; `Consistent` says that these are what they
should be for the names left. Each turn keeps it and takes the name that `Topological.next` takes,
so the loop returns the actions of `Topological.sort`. -/

namespace Dnfast.Solver

open Relation (ReflTransGen)

/-- A computation that succeeds on each element gives the values over the list. -/
theorem mapM_eq_ok_map {ε α β : Type} {f : α → Except ε β} {g : α → β} {l : List α}
    (h : ∀ a ∈ l, f a = .ok (g a)) : l.mapM f = .ok (l.map g) := by
  rw [Except.mapM_eq_ok]
  induction l with
  | nil => exact .nil
  | cons a l ih => exact .cons (h a List.mem_cons_self) (ih fun a ha => h a (.tail _ ha))

/-! ## The edges -/

/-- The edge relation of a list of edges. -/
def Edge (edges : List (String ×ₗ String)) (u v : String) : Prop := toLex (u, v) ∈ edges

instance (edges : List (String ×ₗ String)) : DecidableRel (Edge edges) :=
  fun u v => inferInstanceAs (Decidable (toLex (u, v) ∈ edges))

/-- `cycle_member` as the choice of a name to cut out. -/
def cutOut (edges : List (String ×ₗ String)) (active : Finset String) : Option String :=
  cycleMember active edges

section
variable {edges : List (String ×ₗ String)} {active : Finset String} {name parent : String}

theorem edge_of_activeSource (h : activeSource edges active name = some parent) :
    Edge edges parent name ∧ parent ∈ active := by
  refine ⟨?_, mem_of_activeSource h⟩
  obtain ⟨e, he, rfl⟩ := Option.map_eq_some_iff.mp h
  have htarget := List.find?_some he
  rw [decide_eq_true_eq] at htarget
  obtain ⟨l, hl, rfl⟩ := List.mem_map.mp (List.mem_of_find?_eq_some he)
  rw [← htarget.1]
  exact hl

theorem exists_activeSource (hactive : parent ∈ active) (hedge : Edge edges parent name) :
    ∃ source, activeSource edges active name = some source := by
  unfold activeSource
  cases hfind : (edges.map ofLex).find? fun e => e.2 = name ∧ e.1 ∈ active with
  | some e => exact ⟨e.1, rfl⟩
  | none =>
    have hnone := List.find?_eq_none.mp hfind _ (List.mem_map_of_mem hedge)
    simp [hactive] at hnone

/-- While every active name has an active source, the walk back ends at a name met before. -/
theorem exists_cycleFrom (hsource : ∀ n ∈ active, ∃ m ∈ active, Edge edges m n)
    (seen : Finset String) (hcurrent : name ∈ active) :
    ∃ n ∈ active, cycleFrom edges active seen name hcurrent = some n := by
  induction seen, name, hcurrent using cycleFrom.induct edges active with
  | case1 seen current hmem hseen =>
    refine ⟨current, hmem, ?_⟩
    rw [cycleFrom, dif_pos hseen]
  | case2 seen current hmem hseen hnone =>
    obtain ⟨m, hm, hedge⟩ := hsource current hmem
    obtain ⟨source, hsome⟩ := exists_activeSource hm hedge
    rw [hnone] at hsome
    exact nomatch hsome
  | case3 seen current hmem hseen parent hparent ih =>
    obtain ⟨n, hn, hcycle⟩ := ih
    refine ⟨n, hn, ?_⟩
    rw [cycleFrom, dif_neg hseen]
    split
    · next hnone =>
      rw [hparent] at hnone
      exact nomatch hnone
    · next parent' hparent' =>
      rw [hparent, Option.some.injEq] at hparent'
      subst hparent'
      exact hcycle

/-- `cycle_member` finds a name whenever none is free. -/
theorem cuts_cutOut (edges : List (String ×ₗ String)) :
    Topological.Cuts (Edge edges) (cutOut edges) := by
  intro active hne hfree
  have hsource : ∀ n ∈ active, ∃ m ∈ active, Edge edges m n := by
    intro n hn
    by_contra hnone
    have hmem : n ∈ Topological.free (Edge edges) active := by
      rw [Topological.mem_free]
      exact ⟨hn, fun m hm hedge => hnone ⟨m, hm, hedge⟩⟩
    rw [hfree] at hmem
    exact Finset.notMem_empty n hmem
  obtain ⟨n, hn, hcycle⟩ := exists_cycleFrom hsource ∅ (active.min'_mem hne)
  refine ⟨n, hn, ?_⟩
  rw [cutOut, cycleMember, dif_pos hne]
  exact hcycle

/-! ## One turn -/

theorem mem_activeTargets :
    name ∈ activeTargets edges active parent ↔ Edge edges parent name ∧ name ∈ active := by
  unfold activeTargets
  constructor
  · intro h
    obtain ⟨e, he, rfl⟩ := List.mem_map.mp h
    obtain ⟨hmem, hkeep⟩ := List.mem_filter.mp he
    rw [decide_eq_true_eq] at hkeep
    obtain ⟨l, hl, rfl⟩ := List.mem_map.mp hmem
    obtain ⟨rfl, hactive⟩ := hkeep
    exact ⟨hl, hactive⟩
  · rintro ⟨hedge, hactive⟩
    refine List.mem_map.mpr ⟨(parent, name), List.mem_filter.mpr ⟨?_, by simp [hactive]⟩, rfl⟩
    exact List.mem_map.mpr ⟨_, hedge, rfl⟩

theorem nodup_activeTargets (hnodup : edges.Nodup) (active : Finset String) (parent : String) :
    (activeTargets edges active parent).Nodup := by
  unfold activeTargets
  apply List.Nodup.map_on
  · rintro ⟨u, v⟩ hu ⟨u', v'⟩ hu' (rfl : v = v')
    have h1 := (List.mem_filter.mp hu).2
    have h2 := (List.mem_filter.mp hu').2
    rw [decide_eq_true_eq] at h1 h2
    rw [show u = u' from h1.1.trans h2.1.symm]
  · exact (hnodup.map ofLex.injective).filter _

/-- Closing the edges to distinct names that all have an open edge. -/
theorem OrderState.close_eq (s : OrderState) {targets : List String} (hnodup : targets.Nodup)
    (hopen : ∀ t ∈ targets, s.indegree t ≠ 0) :
    s.close targets = .ok {
      active := s.active
      ready := s.ready ∪ (targets.filter fun t => s.indegree t = 1).toFinset
      indegree := fun n => if n ∈ targets then s.indegree n - 1 else s.indegree n } := by
  induction targets generalizing s with
  | nil => simp [OrderState.close]
  | cons t ts ih =>
    obtain ⟨ht, hts⟩ := List.nodup_cons.mp hnodup
    have hne : ∀ n ∈ ts, n ≠ t := fun n hn => ne_of_mem_of_not_mem hn ht
    have htopen := hopen t List.mem_cons_self
    have hstep : s.close (t :: ts) = OrderState.close { s with
        indegree := Function.update s.indegree t (s.indegree t - 1)
        ready := if s.indegree t - 1 = 0 then insert t s.ready else s.ready } ts := by
      rw [OrderState.close, Except.refuseIf, if_neg htopen]
      rfl
    rw [hstep, ih _ hts]
    · congr 2
      · have hfilter : (ts.filter fun n => Function.update s.indegree t (s.indegree t - 1) n = 1) =
            ts.filter fun n => s.indegree n = 1 := by
          apply List.filter_congr
          intro n hn
          rw [Function.update_of_ne (hne n hn)]
        simp only [hfilter]
        rw [List.filter_cons]
        by_cases h1 : s.indegree t = 1
        · simp only [h1, Nat.sub_self, if_true, decide_true, List.toFinset_cons]
          rw [Finset.insert_union, Finset.union_insert]
        · have h2 : s.indegree t - 1 ≠ 0 := by omega
          simp [h1, h2]
      · funext n
        by_cases hn : n = t
        · subst hn
          simp [ht]
        · simp [hn]
    · intro n hn
      change Function.update s.indegree t (s.indegree t - 1) n ≠ 0
      rw [Function.update_of_ne (hne n hn)]
      exact hopen n (List.mem_cons_of_mem _ hn)

/-- The names left that have an edge to the name. -/
def sources (edges : List (String ×ₗ String)) (active : Finset String) (name : String) :
    Finset String :=
  active.filter fun n => Edge edges n name

/-- The open edges and the ready names are those of the names left. -/
structure OrderState.Consistent (edges : List (String ×ₗ String)) (s : OrderState) : Prop where
  indegree : ∀ name ∈ s.active, s.indegree name = (sources edges s.active name).card
  ready : s.ready = Topological.free (Edge edges) s.active

theorem mem_free_iff_sources :
    name ∈ Topological.free (Edge edges) active ↔
      name ∈ active ∧ (sources edges active name).card = 0 := by
  rw [Topological.mem_free, Finset.card_eq_zero, sources, Finset.filter_eq_empty_iff]

theorem card_sources_erase (hparent : parent ∈ active) :
    (sources edges (active.erase parent) name).card =
      (sources edges active name).card - if Edge edges parent name then 1 else 0 := by
  unfold sources
  rw [Finset.filter_erase]
  by_cases hedge : Edge edges parent name
  · rw [if_pos hedge, Finset.card_erase_of_mem (Finset.mem_filter.mpr ⟨hparent, hedge⟩)]
  · rw [if_neg hedge, Finset.erase_eq_of_notMem, Nat.sub_zero]
    exact fun h => hedge (Finset.mem_filter.mp h).2

namespace OrderState

variable {s : OrderState}

/-- The loop takes the name that comes next in the listing of the graph. -/
theorem Consistent.next_eq (h : s.Consistent edges)
    (hnext : Topological.next (Edge edges) (cutOut edges) s.active = some name) :
    s.next edges = .ok name := by
  unfold OrderState.next
  rcases Finset.eq_empty_or_nonempty (Topological.free (Edge edges) s.active) with he | hne
  · rw [Topological.next_of_not_free he] at hnext
    rw [dif_neg (by simp [h.ready, he]), Except.okOr_eq_ok]
    exact hnext
  · rw [Topological.next_of_free hne, Option.some.injEq] at hnext
    have hready : s.ready.Nonempty := by rwa [h.ready]
    rw [dif_pos hready, ← hnext]
    congr 1
    simp only [h.ready]

/-- The state after the name is taken and its edges are closed. -/
def taken (edges : List (String ×ₗ String)) (s : OrderState) (name : String) : OrderState :=
  let active := s.active.erase name
  let targets := activeTargets edges active name
  { active
    ready := s.ready.erase name ∪ (targets.filter fun t => s.indegree t = 1).toFinset
    indegree := fun n => if n ∈ targets then s.indegree n - 1 else s.indegree n }

theorem Consistent.close_eq (h : s.Consistent edges) (hnodup : edges.Nodup)
    (hname : name ∈ s.active) :
    OrderState.close ⟨s.active.erase name, s.ready.erase name, s.indegree⟩
        (activeTargets edges (s.active.erase name) name) = .ok (s.taken edges name) := by
  apply OrderState.close_eq _ (nodup_activeTargets hnodup _ _)
  intro t ht
  obtain ⟨hedge, hactive⟩ := mem_activeTargets.mp ht
  have hsource : name ∈ sources edges s.active t := Finset.mem_filter.mpr ⟨hname, hedge⟩
  change s.indegree t ≠ 0
  rw [h.indegree t (Finset.mem_of_mem_erase hactive)]
  exact Finset.card_ne_zero_of_mem hsource

theorem Consistent.indegree_taken (h : s.Consistent edges) (hname : name ∈ s.active) {n : String}
    (hn : n ∈ s.active.erase name) :
    (s.taken edges name).indegree n = (sources edges (s.active.erase name) n).card := by
  have htarget : n ∈ activeTargets edges (s.active.erase name) name ↔ Edge edges name n := by
    rw [mem_activeTargets]
    exact and_iff_left hn
  simp only [taken, htarget]
  rw [card_sources_erase hname, h.indegree n (Finset.mem_of_mem_erase hn)]
  split <;> rfl

/-- Taking a name keeps the counts and the ready names. -/
theorem Consistent.taken (h : s.Consistent edges) (hname : name ∈ s.active) :
    (s.taken edges name).Consistent edges where
  indegree n hn := h.indegree_taken hname hn
  ready := by
    ext n
    rw [mem_free_iff_sources]
    by_cases hn : n ∈ s.active.erase name
    · have hcount := h.indegree_taken hname hn
      have hactive := Finset.mem_of_mem_erase hn
      have hready : n ∈ s.ready ↔ s.indegree n = 0 := by
        rw [h.ready, mem_free_iff_sources, h.indegree n hactive]
        exact and_iff_right hactive
      have hsource (hedge : Edge edges name n) : s.indegree n ≠ 0 := by
        rw [h.indegree n hactive]
        exact Finset.card_ne_zero_of_mem (Finset.mem_filter.mpr ⟨hname, hedge⟩)
      change _ ↔ n ∈ s.active.erase name ∧ (sources edges (s.active.erase name) n).card = 0
      rw [← hcount]
      simp only [OrderState.taken, Finset.mem_union, Finset.mem_erase, List.mem_toFinset,
        List.mem_filter, decide_eq_true_eq, mem_activeTargets, hready]
      have hne := Finset.ne_of_mem_erase hn
      by_cases hedge : Edge edges name n
      · have := hsource hedge
        simp only [hedge, hne, hactive, ne_eq, not_false_eq_true, true_and, and_self, if_true]
        omega
      · simp [hedge, hne, hactive]
    · refine iff_of_false ?_ fun hc => hn hc.1
      simp only [OrderState.taken, Finset.mem_union, List.mem_toFinset, List.mem_filter, not_or]
      refine ⟨fun hr => hn ?_, fun ht => hn (mem_activeTargets.mp ht.1).2⟩
      obtain ⟨hne, hr⟩ := Finset.mem_erase.mp hr
      rw [h.ready] at hr
      exact Finset.mem_erase.mpr ⟨hne, Topological.free_subset hr⟩

end OrderState

/-- The number of edges into the name is the number of names with an edge to it. -/
theorem countP_eq_card_sources (hnodup : edges.Nodup)
    (hends : ∀ u v, Edge edges u v → u ∈ active) (name : String) :
    (edges.map ofLex).countP (·.2 = name) = (sources edges active name).card := by
  have hsub : (((edges.map ofLex).filter (·.2 = name)).map (·.1)).Nodup := by
    apply List.Nodup.map_on
    · rintro ⟨u, v⟩ hu ⟨u', v'⟩ hu' (rfl : u = u')
      have h1 := (List.mem_filter.mp hu).2
      have h2 := (List.mem_filter.mp hu').2
      rw [decide_eq_true_eq] at h1 h2
      rw [show v = v' from h1.trans h2.symm]
    · exact (hnodup.map ofLex.injective).filter _
  have hset : sources edges active name =
      (((edges.map ofLex).filter (·.2 = name)).map (·.1)).toFinset := by
    ext u
    rw [sources, Finset.mem_filter, List.mem_toFinset]
    constructor
    · rintro ⟨-, hedge⟩
      refine List.mem_map.mpr ⟨(u, name), List.mem_filter.mpr ⟨?_, by simp⟩, rfl⟩
      exact List.mem_map.mpr ⟨_, hedge, rfl⟩
    · intro hu
      obtain ⟨⟨u', v⟩, hmem, rfl⟩ := List.mem_map.mp hu
      obtain ⟨hmem, hv⟩ := List.mem_filter.mp hmem
      rw [decide_eq_true_eq] at hv
      obtain ⟨e, he, heq⟩ := List.mem_map.mp hmem
      have hedge : Edge edges u' name := by
        unfold Edge
        rw [← show v = name from hv, ← heq]
        exact he
      exact ⟨hends _ _ hedge, hedge⟩
  rw [hset, List.toFinset_card_of_nodup hsub, List.length_map, List.countP_eq_length_filter]

/-- The state that the loop starts from. -/
theorem initial_consistent (hnodup : edges.Nodup) (hends : ∀ u v, Edge edges u v → u ∈ active) :
    OrderState.Consistent edges
      ⟨active, active.filter fun name => (edges.map ofLex).countP (·.2 = name) = 0,
        fun name => (edges.map ofLex).countP (·.2 = name)⟩ where
  indegree name _ := countP_eq_card_sources hnodup hends name
  ready := by
    ext name
    rw [mem_free_iff_sources]
    change name ∈ Finset.filter _ _ ↔ _
    rw [Finset.mem_filter, countP_eq_card_sources hnodup hends name]

/-! ## The loop -/

variable {actionOf : String → Option ExplainedAction} {s : OrderState}

/-- **The loop lists the graph.** It takes the names in the order of `Topological.sort`. -/
theorem orderFrom_eq (h : s.Consistent edges) (hnodup : edges.Nodup)
    (hlookup : ∀ n ∈ s.active, ∃ a, actionOf n = some a) :
    orderFrom edges actionOf s =
      .ok ((Topological.sort (Edge edges) (cutOut edges) s.active).filterMap actionOf) := by
  induction hcard : s.active.card generalizing s with
  | zero =>
    have hempty := Finset.card_eq_zero.mp hcard
    rw [orderFrom, if_pos hempty, hempty, Topological.sort_empty, List.filterMap_nil]
  | succ k ih =>
    have hne : s.active.Nonempty := Finset.card_pos.mp (by omega)
    obtain ⟨name, hname, hnext, hsort⟩ := Topological.exists_sort_eq (cuts_cutOut edges) hne
    obtain ⟨action, haction⟩ := hlookup name hname
    have hrest := ih (h.taken hname)
      (fun n hn => hlookup n (Finset.mem_of_mem_erase hn))
      (by change (s.active.erase name).card = k; rw [Finset.card_erase_of_mem hname]; omega)
    rw [orderFrom, if_neg hne.ne_empty, h.next_eq hnext]
    simp only [dif_pos hname, haction, h.close_eq hnodup hname]
    have hstate : (⟨s.active.erase name, (s.taken edges name).ready,
      (s.taken edges name).indegree⟩ : OrderState) = s.taken edges name := rfl
    rw [hstate, hrest, hsort, List.filterMap_cons, haction]
    rfl

end

/-! ## The constraint graph -/

/-- The constraints of one action: its dependencies, in the direction of the build, and the action
that obsoletes it first. -/
def constraintsOf (obsoleter : String → Option ResolvedAction) (turned : Bool)
    (item : ResolvedAction) : List (String ×ₗ String) :=
  (item.dependencyEdges.map fun d =>
    if turned then toLex (d.parent, item.name) else toLex (item.name, d.parent)) ++
  match item.provenance with
  | none => []
  | some (.obsoletedBy identity) =>
    (obsoleter identity).toList.map fun parent => toLex (parent.name, item.name)

/-- The first action with the identity. -/
def firstWith (resolved : List ResolvedAction) (identity : String) : Option ResolvedAction :=
  resolved.find? fun p => actionIdentity p = some identity

/-- The edges of the constraint graph, with the dependencies of removals turned around. -/
def constraints (resolved : List ResolvedAction) (turned : Bool) : List (String ×ₗ String) :=
  (resolved.flatMap (constraintsOf (firstWith resolved) turned)).sortDedup

/-- The direction is decided by the first action. -/
def turned (resolved : List ResolvedAction) : Bool := resolved.head?.any (·.operation = .remove)

/-- A list of actions with distinct names whose edges lead to listed actions. -/
structure Connected (resolved : List ResolvedAction) : Prop where
  names : (resolved.map (·.name)).Nodup
  parents : ∀ item ∈ resolved, ∀ d ∈ item.dependencyEdges, d.parent ∈ resolved.map (·.name)
  obsoleters : ∀ item ∈ resolved, ∀ identity, item.provenance = some (.obsoletedBy identity) →
    ∃ p ∈ resolved, actionIdentity p = some identity

section
variable {resolved : List ResolvedAction} {actions : List ExplainedAction} {turn : Bool}
  {names : Finset String}

theorem nodup_constraints (resolved : List ResolvedAction) (turn : Bool) :
    (constraints resolved turn).Nodup :=
  (List.pairwise_sortDedup _).imp ne_of_lt

/-- The ends of a constraint are listed. -/
theorem Connected.mem_of_edge (h : Connected resolved) {u v : String}
    (hedge : Edge (constraints resolved turn) u v) :
    u ∈ resolved.map (·.name) ∧ v ∈ resolved.map (·.name) := by
  obtain ⟨item, hitem, hmem⟩ := List.mem_flatMap.mp (List.mem_sortDedup.mp hedge)
  have hname := List.mem_map_of_mem (f := (·.name)) hitem
  rcases List.mem_append.mp hmem with hd | hp
  · obtain ⟨d, hd, heq⟩ := List.mem_map.mp hd
    have hparent := h.parents item hitem d hd
    cases turn with
    | true =>
      obtain ⟨rfl, rfl⟩ := Prod.mk.inj (toLex.injective heq)
      exact ⟨hparent, hname⟩
    | false =>
      obtain ⟨rfl, rfl⟩ := Prod.mk.inj (toLex.injective heq)
      exact ⟨hname, hparent⟩
  · cases hprov : item.provenance with
    | none =>
      rw [hprov] at hp
      exact absurd hp List.not_mem_nil
    | some provenance =>
      obtain ⟨identity⟩ := provenance
      rw [hprov] at hp
      obtain ⟨parent, hfind, heq⟩ := List.mem_map.mp hp
      obtain ⟨rfl, rfl⟩ := Prod.mk.inj (toLex.injective heq)
      exact ⟨List.mem_map_of_mem (List.mem_of_find?_eq_some (Option.mem_toList.mp hfind)), hname⟩

/-- The edges of one action are found. -/
theorem Connected.orderEdges_eq (h : Connected resolved)
    (hnames : ∀ n ∈ resolved.map (·.name), n ∈ names) {item : ResolvedAction}
    (hitem : item ∈ resolved) :
    orderEdges resolved names turn item = .ok (constraintsOf (firstWith resolved) turn item) := by
  have hdeps : (item.dependencyEdges.mapM fun d => do
      Except.refuseIf (d.parent ∉ names) (PlanError.missingParent d.parent)
      return if turn then toLex (d.parent, item.name) else toLex (item.name, d.parent)) =
      .ok (item.dependencyEdges.map fun d =>
        if turn then toLex (d.parent, item.name) else toLex (item.name, d.parent)) := by
    apply mapM_eq_ok_map
    intro d hd
    have hmem := hnames _ (h.parents item hitem d hd)
    rw [Except.refuseIf, if_neg (not_not.mpr hmem)]
    rfl
  unfold orderEdges constraintsOf
  rw [hdeps]
  cases hprov : item.provenance with
  | none => exact congrArg Except.ok (List.append_nil _).symm
  | some provenance =>
    obtain ⟨identity⟩ := provenance
    obtain ⟨p, hp, hidentity⟩ := h.obsoleters item hitem identity hprov
    cases hfind : resolved.find? fun p => actionIdentity p = some identity with
    | none =>
      have := List.find?_eq_none.mp hfind p hp
      simp [hidentity] at this
    | some parent => simp [firstWith, hfind, Except.okOr, Except.ok_bind, pure, Except.pure]

/-- **The order is a listing of the constraint graph.** -/
theorem Connected.executionOrder_eq (h : Connected resolved)
    (hactions : (actions.map (·.name)).Perm (resolved.map (·.name))) :
    executionOrder resolved actions =
      .ok ((Topological.sort (Edge (constraints resolved (turned resolved)))
        (cutOut (constraints resolved (turned resolved)))
        (actions.map (·.name)).toFinset).filterMap
          (collected (actions.map fun a => (a.name, a)))) := by
  have hmem : ∀ n, n ∈ (actions.map (·.name)).toFinset ↔ n ∈ resolved.map (·.name) := by
    intro n
    rw [List.mem_toFinset, hactions.mem_iff]
  have hcard : (actions.map (·.name)).toFinset.card = resolved.length := by
    rw [List.toFinset_card_of_nodup (hactions.nodup_iff.mpr h.names), hactions.length_eq,
      List.length_map]
  have hedges : (resolved.mapM (orderEdges resolved (actions.map (·.name)).toFinset
      (resolved.head?.any (·.operation = .remove)))) =
      .ok (resolved.map (constraintsOf (firstWith resolved) (turned resolved))) := by
    apply mapM_eq_ok_map
    intro item hitem
    exact h.orderEdges_eq (fun n hn => (hmem n).mpr hn) hitem
  have hends : forM ((constraints resolved (turned resolved)).map ofLex) (fun e =>
      Except.refuseIf (e.2 ∉ (actions.map (·.name)).toFinset) (PlanError.missingParent e.2)) =
      .ok () := by
    rw [Except.forM_eq_ok]
    rintro ⟨u, v⟩ huv
    obtain ⟨e, he, heq⟩ := List.mem_map.mp huv
    have hedge : Edge (constraints resolved (turned resolved)) u v := by
      unfold Edge
      rw [← heq]
      exact he
    rw [Except.refuseIf_eq_ok, not_not, hmem]
    exact (h.mem_of_edge hedge).2
  have hinitial := initial_consistent (nodup_constraints resolved (turned resolved))
    fun u v huv => (hmem u).mpr (h.mem_of_edge huv).1
  have hlookup : ∀ n ∈ (actions.map (·.name)).toFinset,
      ∃ a, collected (actions.map fun a => (a.name, a)) n = some a := by
    intro n hn
    obtain ⟨a, ha, rfl⟩ := List.mem_map.mp (List.mem_toFinset.mp hn)
    exact Option.ne_none_iff_exists'.mp fun hnone =>
      collected_eq_none.mp hnone (a.name, a) (List.mem_map.mpr ⟨a, ha, rfl⟩) rfl
  have hloop := orderFrom_eq hinitial (nodup_constraints resolved (turned resolved)) hlookup
  have hsize : Except.refuseIf ((actions.map (·.name)).toFinset.card ≠ resolved.length)
      (PlanError.duplicateAction "name") = .ok () :=
    Except.refuseIf_eq_ok.mpr (not_not.mpr hcard)
  unfold executionOrder
  dsimp only
  rw [hsize, Except.ok_bind, hedges, Except.ok_bind]
  rw [show (resolved.map (constraintsOf (firstWith resolved) (turned resolved))).flatten.sortDedup =
    constraints resolved (turned resolved) from rfl, hends, Except.ok_bind]
  exact hloop

end

end Dnfast.Solver
