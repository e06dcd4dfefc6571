import Dnfast.Solver.Reordered

/-! # The order in which the solver lists its answer

Two lists of the same actions are built or refused alike, but the plans can differ. The order of a
list decides two things about the constraint graph: the direction of the dependencies, from the
action that is listed first, and which of several actions with one identity obsoletes a package.
`Reading` is such a decision. The plan does not depend on the order exactly when the graphs of all
readings are listed alike. -/

namespace Dnfast.Solver

open Dnfast.Core (PackageSpec)

/-! ## Readings -/

/-- Which action is listed first, and which is the first with an identity. -/
structure Reading where
  first : ResolvedAction
  obsoleter : String → Option ResolvedAction

/-- An order of the actions can have the reading. -/
structure Reading.Of (r : Reading) (resolved : List ResolvedAction) : Prop where
  first_mem : r.first ∈ resolved
  found : ∀ identity p, r.obsoleter identity = some p →
    p ∈ resolved ∧ actionIdentity p = some identity
  total : ∀ p ∈ resolved, ∀ identity, actionIdentity p = some identity →
    ∃ q, r.obsoleter identity = some q
  first_found : ∀ identity, actionIdentity r.first = some identity →
    r.obsoleter identity = some r.first

/-- The constraint graph under the reading. -/
def Reading.edges (r : Reading) (resolved : List ResolvedAction) : List (String ×ₗ String) :=
  (resolved.flatMap (constraintsOf r.obsoleter (r.first.operation = .remove))).sortDedup

/-- Under every reading the loop of `execution_order` takes the same name at every turn. -/
def Steady (resolved : List ResolvedAction) : Prop :=
  ∀ r r' : Reading, r.Of resolved → r'.Of resolved →
    Topological.SameTurns (Edge (r.edges resolved)) (cutOut (r.edges resolved))
      (Edge (r'.edges resolved)) (cutOut (r'.edges resolved)) (resolved.map (·.name)).toFinset

section
variable {resolved l l' : List ResolvedAction} {r : Reading}

theorem sortDedup_eq_of_perm {α : Type} [LinearOrder α] {as bs : List α} (h : as.Perm bs) :
    as.sortDedup = bs.sortDedup := by
  unfold List.sortDedup
  rw [List.insertionSort_eq_of_perm h]

theorem mem_of_firstWith {identity : String} {p : ResolvedAction}
    (h : firstWith l identity = some p) : p ∈ l ∧ actionIdentity p = some identity :=
  ⟨List.mem_of_find?_eq_some h, by simpa using List.find?_some h⟩

theorem exists_firstWith {identity : String} {p : ResolvedAction} (hp : p ∈ l)
    (hidentity : actionIdentity p = some identity) : ∃ q, firstWith l identity = some q := by
  cases hfind : firstWith l identity with
  | some q => exact ⟨q, rfl⟩
  | none =>
    have := List.find?_eq_none.mp hfind p hp
    simp [hidentity] at this

theorem firstWith_cons {identity : String} {p : ResolvedAction}
    (hidentity : actionIdentity p = some identity) : firstWith (p :: l) identity = some p :=
  List.find?_cons_of_pos (by simpa using hidentity)

/-- A list of the actions has a reading. -/
theorem exists_reading (h : l.Perm resolved) (hne : l ≠ []) :
    ∃ r : Reading, r.Of resolved ∧ r.edges resolved = constraints l (turned l) := by
  obtain ⟨a, as, rfl⟩ := List.exists_cons_of_ne_nil hne
  refine ⟨⟨a, firstWith (a :: as)⟩, ?_, ?_⟩
  · constructor
    case first_mem => exact h.mem_iff.mp List.mem_cons_self
    case found =>
      intro identity p hp
      obtain ⟨hmem, hidentity⟩ := mem_of_firstWith hp
      exact ⟨h.mem_iff.mp hmem, hidentity⟩
    case total =>
      intro p hp identity hidentity
      exact exists_firstWith (h.mem_iff.mpr hp) hidentity
    case first_found => exact fun identity => firstWith_cons
  · exact sortDedup_eq_of_perm (h.symm.flatMap_right _)

/-- The action is the one that the reading has for its identity. -/
def Reading.chosen (r : Reading) (p : ResolvedAction) : Bool :=
  (actionIdentity p).any fun identity => r.obsoleter identity = some p

/-- Every reading is that of a list of the actions. -/
theorem Reading.Of.exists_list (h : r.Of resolved) :
    ∃ l, l.Perm resolved ∧ constraints l (turned l) = r.edges resolved := by
  let rest := resolved.erase r.first
  let l := r.first :: (rest.filter r.chosen ++ rest.filter fun p => !r.chosen p)
  have hperm : l.Perm resolved :=
    ((List.filter_append_perm r.chosen rest).cons _).trans (List.perm_cons_erase h.first_mem).symm
  have hfirst : firstWith l = r.obsoleter := by
    funext identity
    cases hchosen : r.obsoleter identity with
    | none =>
      cases hfind : firstWith l identity with
      | none => rfl
      | some p =>
        obtain ⟨hp, hidentity⟩ := mem_of_firstWith hfind
        obtain ⟨q, hq⟩ := h.total p (hperm.mem_iff.mp hp) identity hidentity
        rw [hchosen] at hq
        exact nomatch hq
    | some p =>
      obtain ⟨hmem, hidentity⟩ := h.found identity p hchosen
      by_cases hhead : actionIdentity r.first = some identity
      · have heq := h.first_found identity hhead
        rw [hchosen, Option.some.injEq] at heq
        rw [heq]
        exact firstWith_cons hhead
      · have hne : p ≠ r.first := by
          rintro rfl
          exact hhead hidentity
        have hp : p ∈ rest.filter r.chosen := by
          refine List.mem_filter.mpr ⟨(List.mem_erase_of_ne hne).mpr hmem, ?_⟩
          simp [Reading.chosen, hidentity, hchosen]
        -- the only chosen action with the identity is `p`
        have honly : ∀ q ∈ rest.filter r.chosen, actionIdentity q = some identity → q = p := by
          intro q hq hqi
          have hqc := (List.mem_filter.mp hq).2
          rw [Reading.chosen, hqi, Option.any_some, decide_eq_true_eq, hchosen,
            Option.some.injEq] at hqc
          exact hqc.symm
        have hfind : firstWith (rest.filter r.chosen) identity = some p := by
          obtain ⟨q, hq⟩ := exists_firstWith hp hidentity
          obtain ⟨hqm, hqi⟩ := mem_of_firstWith hq
          rw [hq, honly q hqm hqi]
        unfold firstWith at hfind ⊢
        rw [List.find?_cons_of_neg (by simpa using hhead), List.find?_append, hfind]
        rfl
  refine ⟨l, hperm, ?_⟩
  have hturned : turned l = decide (r.first.operation = .remove) := rfl
  unfold constraints Reading.edges
  rw [hfirst, hturned]
  exact sortDedup_eq_of_perm (hperm.flatMap_right _)

/-- Where all actions are removals or none is, and no two have one identity, the order says nothing
about the graph. -/
theorem steady_of_uniform
    (hdirection : ∀ a ∈ resolved, ∀ b ∈ resolved, (a.operation = .remove ↔ b.operation = .remove))
    (hidentity : ∀ a ∈ resolved, ∀ b ∈ resolved, ∀ identity, actionIdentity a = some identity →
      actionIdentity b = some identity → a = b) : Steady resolved := by
  intro r r' hr hr' t _ _
  have hedges : r.edges resolved = r'.edges resolved := by
    have hobsoleter : r.obsoleter = r'.obsoleter := by
      funext identity
      cases h : r.obsoleter identity with
      | some p =>
        obtain ⟨hp, hpi⟩ := hr.found identity p h
        obtain ⟨q, hq⟩ := hr'.total p hp identity hpi
        obtain ⟨hqm, hqi⟩ := hr'.found identity q hq
        rw [hq, hidentity p hp q hqm identity hpi hqi]
      | none =>
        cases h' : r'.obsoleter identity with
        | none => rfl
        | some q =>
          obtain ⟨hq, hqi⟩ := hr'.found identity q h'
          obtain ⟨p, hp⟩ := hr.total q hq identity hqi
          rw [h] at hp
          exact nomatch hp
    unfold Reading.edges
    rw [hobsoleter, decide_eq_decide.mpr (hdirection _ hr.first_mem _ hr'.first_mem)]
  rw [hedges]

end

/-! ## Plans -/

/-- The lists give plans of the same bytes, or are both refused. -/
def SamePlan (b : PlanBuilder) (l l' : List ResolvedAction) (satisfied : List PackageSpec) : Prop :=
  (∃ plan plan' bytes, b.buildWithSatisfied l satisfied = .ok plan ∧
    b.buildWithSatisfied l' satisfied = .ok plan' ∧
    plan.canonicalJson = .ok bytes ∧ plan'.canonicalJson = .ok bytes) ∨
  ((∃ e, b.buildWithSatisfied l satisfied = .error e) ∧
    ∃ e, b.buildWithSatisfied l' satisfied = .error e)

/-- Lists of the same elements with the same distinct keys are equal. -/
theorem eq_of_perm_of_map_eq {α β : Type} {f : α → β} {as bs : List α} (hperm : as.Perm bs)
    (hnodup : (as.map f).Nodup) (hmap : as.map f = bs.map f) : as = bs := by
  have hinj := List.inj_on_of_nodup_map hnodup
  have hmem : ∀ b ∈ bs, b ∈ as := fun b hb => hperm.mem_iff.mpr hb
  clear hperm hnodup
  generalize has : as = cs at hmap
  have hsub : ∀ c ∈ cs, c ∈ as := fun c hc => has ▸ hc
  clear has
  induction bs generalizing cs with
  | nil => exact List.map_eq_nil_iff.mp hmap
  | cons b bs ih =>
    cases cs with
    | nil => exact nomatch hmap
    | cons c cs =>
      rw [List.map_cons, List.map_cons, List.cons.injEq] at hmap
      rw [hinj (hsub c List.mem_cons_self) (hmem b List.mem_cons_self) hmap.1,
        ih (fun b hb => hmem b (.tail _ hb)) cs hmap.2 fun c hc => hsub c (.tail _ hc)]

section
variable {b : PlanBuilder} {resolved l l' : List ResolvedAction} {satisfied : List PackageSpec}

theorem canonicalJson_of_build {plan : CanonicalSolverPlan}
    (h : b.buildWithSatisfied l satisfied = .ok plan) :
    plan.canonicalJson = .ok plan.toValue.render := by
  rw [PlanBuilder.buildWithSatisfied, Except.check_bind_eq_ok, Except.check_bind_eq_ok] at h
  obtain ⟨-, -, h⟩ := h
  obtain ⟨actions, -, h⟩ := Except.bind_eq_ok.mp h
  obtain ⟨ordered, -, h⟩ := Except.bind_eq_ok.mp h
  obtain ⟨cores, -, h⟩ := Except.bind_eq_ok.mp h
  obtain ⟨proposal, -, h⟩ := Except.bind_eq_ok.mp h
  rw [Except.check_bind_eq_ok, Except.check_bind_eq_ok, Except.pure_eq_ok] at h
  obtain ⟨-, hvalid, rfl⟩ := h
  rw [CanonicalSolverPlan.canonicalJson, hvalid]
  rfl

/-- The names of a built plan are listed as the graph of the list is. -/
theorem names_of_order {actions ordered : List ExplainedAction} (hperm : l.Perm resolved)
    (hinputs : b.validateInputs l satisfied = .ok ()) (hactions : l.mapM b.action = .ok actions)
    (hordered : executionOrder l actions = .ok ordered) :
    ordered.map (·.name) = Topological.sort (Edge (constraints l (turned l)))
      (cutOut (constraints l (turned l))) (resolved.map (·.name)).toFinset := by
  rw [(connected_of_validateInputs hinputs).names_executionOrder
    (.of_eq (names_of_explained hactions)) hordered, List.toFinset_eq_of_perm _ _ (hperm.map _)]

/-- Every order of a list that can be built is built, and the plans are the same when the names are
listed alike. -/
theorem Buildable.samePlan_iff_edges (h : Buildable b resolved satisfied) (hl : l.Perm resolved)
    (hl' : l'.Perm resolved) :
    SamePlan b l l' satisfied ↔
      Topological.sort (Edge (constraints l (turned l))) (cutOut (constraints l (turned l)))
          (resolved.map (·.name)).toFinset =
        Topological.sort (Edge (constraints l' (turned l'))) (cutOut (constraints l' (turned l')))
          (resolved.map (·.name)).toFinset := by
  obtain ⟨proposal, hbuild⟩ := h.build
  obtain ⟨actions, ordered, hactions, hordered, hplan⟩ := hbuild l hl.symm
  obtain ⟨actions', ordered', hactions', hordered', hplan'⟩ := hbuild l' hl'.symm
  have hinputs := (validateInputs_perm hl.symm).mp h.inputs
  have hinputs' := (validateInputs_perm hl'.symm).mp h.inputs
  rw [← names_of_order hl hinputs hactions hordered,
    ← names_of_order hl' hinputs' hactions' hordered']
  constructor
  · rintro (⟨plan, plan', bytes, hp, hp', hbytes, hbytes'⟩ | ⟨⟨e, he⟩, -⟩)
    · rw [hplan, Except.ok.injEq] at hp
      rw [hplan', Except.ok.injEq] at hp'
      subst hp hp'
      exact CanonicalSolverPlan.names_eq_of_canonicalJson hbytes hbytes'
    · rw [hplan] at he
      exact nomatch he
  · intro hnames
    obtain ⟨actions'', hactions'', hperm⟩ := mapM_perm (hl.trans hl'.symm) hactions
    obtain rfl := Except.ok.inj (hactions''.symm.trans hactions')
    have hlength := (Except.mapM_eq_ok.mp hactions).length_eq.symm
    have hlength' := (Except.mapM_eq_ok.mp hactions').length_eq.symm
    obtain ⟨hnodup, hp⟩ := executionOrder_perm hlength hordered
    have hp' := (executionOrder_perm hlength' hordered').2
    have heq : ordered = ordered' :=
      eq_of_perm_of_map_eq (hp.trans (hperm.trans hp'.symm))
        ((hp.map _).nodup_iff.mpr hnodup) hnames
    rw [← heq] at hplan'
    exact .inl ⟨_, _, _, hplan, hplan', canonicalJson_of_build hplan, canonicalJson_of_build hplan⟩

/-- A list that cannot be built is refused in every order. -/
theorem samePlan_of_not_buildable (h : ¬ Buildable b resolved satisfied) (hl : l.Perm resolved) :
    SamePlan b resolved l satisfied := by
  right
  constructor
  · cases hbuild : b.buildWithSatisfied resolved satisfied with
    | error e => exact ⟨e, rfl⟩
    | ok plan => exact absurd (buildable_of_build hbuild) h
  · cases hbuild : b.buildWithSatisfied l satisfied with
    | error e => exact ⟨e, rfl⟩
    | ok plan => exact absurd ((buildable_of_build hbuild).perm hl) h

/-- **When the order of the answer does not matter.** -/
theorem samePlan_iff (b : PlanBuilder) (resolved : List ResolvedAction)
    (satisfied : List PackageSpec) :
    (∀ l, l.Perm resolved → SamePlan b resolved l satisfied) ↔
      (Buildable b resolved satisfied → Steady resolved) := by
  constructor
  · intro hall hbuildable r r' hr hr'
    obtain ⟨l, hl, hedges⟩ := hr.exists_list
    obtain ⟨l', hl', hedges'⟩ := hr'.exists_list
    have hsame := (hbuildable.samePlan_iff_edges (.refl _) hl).mp (hall l hl)
    have hsame' := (hbuildable.samePlan_iff_edges (.refl _) hl').mp (hall l' hl')
    rw [← Topological.sort_eq_iff (cuts_cutOut _) (cuts_cutOut _), ← hedges, ← hedges']
    exact hsame.symm.trans hsame'
  · intro hsteady l hl
    by_cases hbuildable : Buildable b resolved satisfied
    · have hnil : resolved ≠ [] := by
        have hinputs := hbuildable.inputs
        rw [PlanBuilder.validateInputs, Except.check_bind_eq_ok, Except.refuseIf_eq_ok] at hinputs
        exact hinputs.1
      have hnil' : l ≠ [] := by
        rintro rfl
        exact hnil hl.nil_eq.symm
      obtain ⟨r, hr, hedges⟩ := exists_reading (.refl resolved) hnil
      obtain ⟨r', hr', hedges'⟩ := exists_reading hl hnil'
      rw [hbuildable.samePlan_iff_edges (.refl _) hl, ← hedges, ← hedges',
        Topological.sort_eq_iff (cuts_cutOut _) (cuts_cutOut _)]
      exact hsteady hbuildable r r' hr hr'
    · exact samePlan_of_not_buildable hbuildable hl

end

/-! ## An installation that obsoletes a package -/

def oldPackage : Core.InstalledPackage where
  name := "old"
  evra := ⟨0, "1", "1.fc44", .x86_64⟩
  vendor := "Fedora"
  dbInstance := 7
  installTime := 1
  immutableHeaderSha256 := Core.zeroDigest
  named := by decide
  valid := by decide +kernel

/-- `app` is installed with the `lib` that it requires, and obsoletes `old`. -/
def obsoletingBuilder : PlanBuilder :=
  { installBuilder with
    inventory := Core.singleInventory "6.0" Core.rpm6_ne_empty oldPackage }

def removalOfOld : ResolvedAction :=
  { installOf "old" none [] with
    operation := .remove
    candidate := none
    installedInstance := some 7
    installedVendor := some "Fedora"
    provenance := some (.obsoletedBy "fedora:app-0:1-1.fc44.x86_64") }

def removalLast : List ResolvedAction :=
  [installOf "app" (some appSpec) [], installOf "lib" none ["app"], removalOfOld]

def removalFirst : List ResolvedAction :=
  [removalOfOld, installOf "app" (some appSpec) [], installOf "lib" none ["app"]]

/-- The names of the plan's actions. -/
def builtNames (b : PlanBuilder) (resolved : List ResolvedAction) : Option (List String) :=
  (b.buildWithSatisfied resolved []).toOption.map fun plan => plan.actions.map (·.name)

/-- With the removal listed first `app` comes before the `lib` that it requires. -/
theorem removal_listed_first :
    removalFirst.Perm removalLast ∧
      builtNames obsoletingBuilder removalLast = some ["lib", "app", "old"] ∧
      builtNames obsoletingBuilder removalFirst = some ["app", "lib", "old"] ∧
      ¬ SamePlan obsoletingBuilder removalLast removalFirst [] := by
  have hnames : builtNames obsoletingBuilder removalLast = some ["lib", "app", "old"] ∧
      builtNames obsoletingBuilder removalFirst = some ["app", "lib", "old"] := by
    decide +kernel
  refine ⟨by decide +kernel, hnames.1, hnames.2, ?_⟩
  obtain ⟨plan, hplan, hlast⟩ := Except.toOption_map_eq_some.mp hnames.1
  obtain ⟨plan', hplan', hfirst⟩ := Except.toOption_map_eq_some.mp hnames.2
  rintro (⟨p, p', bytes, hp, hp', hbytes, hbytes'⟩ | ⟨⟨e, he⟩, -⟩)
  · obtain rfl := Except.ok.inj (hplan.symm.trans hp)
    obtain rfl := Except.ok.inj (hplan'.symm.trans hp')
    have hsame := CanonicalSolverPlan.names_eq_of_canonicalJson hbytes hbytes'
    rw [hlast, hfirst] at hsame
    exact absurd hsame (by decide)
  · rw [hplan] at he
    exact nomatch he

end Dnfast.Solver
