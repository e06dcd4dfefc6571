import Dnfast.Cli.Solved
import Dnfast.Reason.Runs

/-! # What autoremove removes

The names that `autoremove` takes are checked against the candidates of the reason state, the names
of `plan autoremove` are not. `executes_listed` says what each way executes: the command removes
candidates only; a plan that is applied does so exactly when every package that its selectors select
is a candidate. An autoremove plan has nothing but removals of packages that a selector selects
(`Solved.asked`), and a removal of each of these (`Solved.goes`). -/

namespace Dnfast.Solver

open Dnfast.Core (InstalledInventory InstalledPackage PackageSpec)

/-- What a resolved action takes from its row. -/
theorem resolveAction_eq_ok {output : NativeSolveOutput} {candidates : List CandidatePackage}
    {inventory : InstalledInventory} {noneExpected : Bool} {a : NativeAction} {r : ResolvedAction}
    (h : output.resolveAction candidates inventory noneExpected a = .ok r) :
    ∃ identity, ResolvedFrom candidates inventory a identity ∧ r.operation = identity.operation ∧
      r.name = identity.name ∧ r.provenance = a.provenance ∧
      output.edgesOf a = .ok r.dependencyEdges ∧
      (r.operation = .remove → r.requested = a.requestedSpec.isSome) := by
  rw [NativeSolveOutput.resolveAction, Except.bind_eq_ok] at h
  obtain ⟨identity, hidentity, h⟩ := h
  obtain ⟨edges, hedges, h⟩ := Except.bind_eq_ok.mp h
  obtain rfl := Except.pure_eq_ok.mp h
  refine ⟨identity, nativeActionIdentity_eq_ok hidentity, rfl, rfl, rfl, hedges, fun hremove => ?_⟩
  rw [show identity.operation = .remove from hremove]
  simp

/-- Autoremove takes nothing but removals. -/
theorem validateKind_autoremove {a : ResolvedAction} (h : validateKind .autoremove a = .ok ()) :
    a.operation = .remove := by
  rw [validateKind, Except.refuseIf_eq_ok] at h
  simp only [Bool.not_not_eq, Bool.or_eq_true, Bool.and_eq_true, decide_eq_true_eq] at h
  rcases h with (⟨⟨-, hremove⟩, -⟩ | ⟨⟨⟨⟨hupgrade, -⟩, -⟩, -⟩, -⟩) | ⟨hremove, -⟩
  · exact hremove
  · rcases hupgrade with hupgrade | hupgrade <;> cases hupgrade
  · exact hremove

theorem exactInstalledFrom_mem {found : Option InstalledPackage} {selected : List Solvable}
    {p : InstalledPackage} (h : exactInstalledFrom found selected = .ok (some p)) :
    found = some p ∨ .installed p ∈ selected := by
  induction selected generalizing found with
  | nil =>
    cases h
    exact .inl rfl
  | cons x selected ih =>
    cases x with
    | available repository nevra =>
      exact (ih h).imp_right (List.mem_cons_of_mem _)
    | installed q =>
      rw [exactInstalledFrom, Except.check_bind_eq_ok] at h
      rcases ih h.2 with hfound | hmem
      · rw [Option.some_injective _ hfound]
        exact .inr List.mem_cons_self
      · exact .inr (List.mem_cons_of_mem _ hmem)

/-- An autoremove selector selects one installed package. -/
theorem selectorOf_autoremove {lib : Libsolv} {text : String} {selector : Selector}
    (h : selectorOf lib .autoremove text = .ok selector) : selector.text = text ∧
      ∃ p selected relation, lib.selection text = .ok (selected, relation) ∧
        .installed p ∈ selected ∧ selector.selected = [.installed p] := by
  rw [selectorOf, Except.check_bind_eq_ok] at h
  obtain ⟨⟨selected, relation⟩, hselection, h⟩ := Except.bind_eq_ok.mp h.2
  obtain ⟨p, hexact, h⟩ := Except.bind_eq_ok.mp h
  obtain rfl := Except.pure_eq_ok.mp h
  refine ⟨rfl, p, selected, relation, hselection, ?_, rfl⟩
  obtain ⟨found, hfound, hsome⟩ := Except.bind_eq_ok.mp hexact
  rw [Except.okOr_eq_ok] at hsome
  subst hsome
  exact (exactInstalledFrom_mem hfound).resolve_left (by simp)

end Dnfast.Solver

namespace Dnfast.Cli

open Dnfast.Core (Action InstalledInventory InstalledPackage PackageSpec TransactionIntent)
open Dnfast.Reason (autoremoveNames)
open Dnfast.Solver

/-- What the commands rely on of libsolv and its pool: the installed solvables are the packages of
the inventory, a selector that is the name of an installed package selects by the name (and not what
provides it), and a package that is to be erased is in the transaction. -/
structure PoolOf (lib : Libsolv) (inventory : InstalledInventory) : Prop where
  installed : ∀ text selected relation, lib.selection text = .ok (selected, relation) →
    ∀ p, .installed p ∈ selected → p ∈ inventory.packages
  named : ∀ text selected relation, lib.selection text = .ok (selected, relation) →
    text.toList.all Reason.isNameChar → (∃ q ∈ inventory.packages, q.name = text) →
    ∀ p, .installed p ∈ selected → p.name = text
  erased : ∀ selections steps decisions,
    lib.transaction .autoremove selections = .ok (steps, decisions) →
    ∀ selected ∈ selections, ∀ p, .installed p ∈ selected →
      ∃ step ∈ steps, step.solvable = .installed p

/-- The package that a selector of an autoremove request selects. -/
def Selects (lib : Libsolv) (text : String) (p : InstalledPackage) : Prop :=
  ∃ selector, selectorOf lib .autoremove text = .ok selector ∧ selector.selected = [.installed p]

/-! ## The rows of an autoremove plan -/

section
variable {sys : System} {intent : TransactionIntent} {plan : CanonicalSolverPlan}
  {selectors : List Selector} {steps : List TransactionStep} {bound : List NativeAction}
  {s : Pairing} {resolved : List ResolvedAction} {explained : List ExplainedAction}

/-- What a bound row has from its step. -/
structure RowFrom (step : TransactionStep) (spec : Option (String × Bool)) (b : NativeAction) :
    Prop where
  nevra : b.nevra = step.solvable.identity
  repository : b.repository = step.solvable.repository
  kind : b.kind = step.type.kind
  spec : b.requestedSpec.map (·.asStr) = spec.map (·.1)
  provenance : b.provenance = none
  other : b.repository ≠ systemRepository → b.installedInstance = none

theorem rowFrom_of_bound {inventory : InstalledInventory} {step : TransactionStep}
    {spec : Option (String × Bool)} {a b : NativeAction} (ha : rowAction (rowOf step spec) = .ok a)
    (hb : Bound inventory a b) : RowFrom step spec b := by
  obtain ⟨requestedSpec, hspec, hpure⟩ := Except.bind_eq_ok.mp ha
  obtain rfl := Except.pure_eq_ok.mp hpure
  have hstep := hb.step
  simp only [NativeAction.step, Step.mk.injEq] at hstep
  refine ⟨hstep.1, hstep.2.1, hstep.2.2.1, ?_, hb.provenance, fun hother => hb.other hother⟩
  rw [hb.spec]
  cases spec with
  | none =>
    cases hspec
    rfl
  | some spec =>
    obtain ⟨value, hparse, hsome⟩ := Except.map_eq_ok.mp (Except.mapError_eq_ok.mp hspec)
    rw [← hsome, Option.map_some, PackageSpec.asStr_of_parse hparse]
    rfl

/-- A row that is resolved to the removal of its package. -/
structure Removal (inventory : InstalledInventory) (output : NativeSolveOutput) (a : NativeAction)
    (r : ResolvedAction) : Prop where
  kind : a.kind = "erase" ∨ a.kind = "obsoleted"
  package : ∃ p, exactInstalled a inventory = .ok p ∧ r.name = p.name
  operation : r.operation = .remove
  requested : r.requested = a.requestedSpec.isSome
  provenance : r.provenance = a.provenance
  edges : output.edgesOf a = .ok r.dependencyEdges

namespace Solved

variable (h : Solved sys intent plan selectors steps bound s resolved explained)

include h

/-- The bound row at a place comes from the step there. -/
theorem row : ∃ provenance, Attributed (operationOf intent.action) steps selectors provenance ∧
    ∀ (i : Nat) b, bound[i]? = some b → ∃ step spec, steps[i]? = some step ∧
      provenance.specs[i]? = some spec ∧ RowFrom step spec b := by
  obtain ⟨provenance, hattributed, hrows⟩ := h.provenance
  refine ⟨provenance, hattributed, fun i b hb => ?_⟩
  obtain ⟨row, hrow, a, ha, hbound⟩ := hrows.getElem?_left hb
  obtain ⟨step, spec, hstep, hspec, rfl⟩ := List.getElem?_zipWith_eq_some.mp hrow
  exact ⟨step, spec, hstep, hspec, rowFrom_of_bound ha hbound⟩

theorem length_bound : bound.length = steps.length := by
  obtain ⟨provenance, hattributed, hrows⟩ := h.provenance
  rw [← hrows.length_eq, List.length_zipWith, hattributed.length, Nat.min_self]

/-- All actions of an autoremove plan are removals. -/
theorem removal_only (haction : intent.action = .autoremove) {r : ResolvedAction}
    (hr : r ∈ resolved) : r.operation = .remove := by
  obtain ⟨result, satisfied, hbuilt⟩ := h.built
  have hchecked := checkAction_of_validateInputs hbuilt.inputs r hr
  simp only [PlanBuilder.checkAction, Except.check_bind_eq_ok] at hchecked
  have hkind : validateKind intent.action r = .ok () := hchecked.2.2.2.2.2
  exact validateKind_autoremove (haction ▸ hkind)

/-- The rows of the answer are the removals of their packages. -/
theorem removals (haction : intent.action = .autoremove) : ∃ output : NativeSolveOutput,
    output.actions = s.rows.filter (·.kind ∉ replacedKinds) ∧
    (∀ d ∈ output.decisions, d.requiringRepo ≠ systemRepository ∧
      ∃ a ∈ output.actions, a.nevra = d.requiringNevra ∧ a.repository = d.requiringRepo) ∧
    List.Forall₂ (Removal sys.inventory output) output.actions resolved := by
  obtain ⟨output, candidates, noneExpected, hactions, hdecisions, hresolved⟩ := h.resolves
  refine ⟨output, hactions, hdecisions, hresolved.imp_of_mem fun a _ r hr hresolve => ?_⟩
  obtain ⟨identity, hfrom, hoperation, hname, hprovenance, hedges, hrequested⟩ :=
    resolveAction_eq_ok hresolve
  have hremove := h.removal_only haction hr
  refine ⟨?_, ?_, hremove, hrequested hremove, hprovenance, hedges⟩
  all_goals
    rw [hoperation] at hremove
    rcases hfrom with ⟨-, hnone⟩ | ⟨-, -, hne, -⟩ | ⟨hkind, p, hexact, hsame⟩
    · rw [hnone] at hremove
      cases hremove
    · exact absurd hremove hne
  · exact hkind
  · exact ⟨p, hexact, by rw [hname, hsame]; rfl⟩

/-- Nothing comes with an autoremove plan. -/
theorem inactive (haction : intent.action = .autoremove) {b : NativeAction} (hb : b ∈ bound) :
    b.kind ∉ activeKinds := by
  intro hactive
  have hnot : b.kind ∉ replacedKinds ∧ b.kind ≠ "erase" ∧ b.kind ≠ "obsoleted" := by
    have hall : ∀ kind ∈ activeKinds,
        kind ∉ replacedKinds ∧ kind ≠ "erase" ∧ kind ≠ "obsoleted" := by decide
    exact hall _ hactive
  obtain ⟨i, hi⟩ := List.mem_iff_getElem?.mp hb
  obtain ⟨_, _, htraced⟩ := h.traced
  obtain ⟨row, hrow, hmarked⟩ := htraced.row_of_bound hi
  have hkind : row.kind = b.kind := by
    rcases hmarked.kind with hsame | ⟨hobsoleted, -⟩
    · exact hsame
    · exact absurd hobsoleted hnot.2.2
  obtain ⟨output, hactions, -, hremovals⟩ := h.removals haction
  have hmem : row ∈ output.actions := by
    rw [hactions, List.mem_filter]
    exact ⟨List.mem_of_getElem? hrow, decide_eq_true (hkind ▸ hnot.1)⟩
  obtain ⟨r, -, hremoval⟩ := hremovals.exists_right hmem
  rcases hremoval.kind with herase | hobsoleted
  · exact hnot.2.1 (hkind ▸ herase)
  · exact hnot.2.2 (hkind ▸ hobsoleted)

/-- The row at a place: its step, and its package, which is the only one with the NEVRA. -/
theorem place (haction : intent.action = .autoremove) {i : Nat} {a : NativeAction}
    {output : NativeSolveOutput} {r : ResolvedAction} (ha : s.rows[i]? = some a)
    (hremoval : Removal sys.inventory output a r) : ∃ b, bound[i]? = some b ∧ Marked b a ∧
      a.repository = systemRepository ∧ a.provenance = b.provenance ∧
      ∀ q ∈ sys.inventory.packages, installedNevra q = a.nevra → r.name = q.name := by
  obtain ⟨_, _, htraced⟩ := h.traced
  have hi : i < bound.length := by
    rw [← htraced.paired.length]
    exact (List.getElem?_eq_some_iff.mp ha).1
  have hb : bound[i]? = some bound[i] := List.getElem?_eq_getElem hi
  have hmem : bound[i] ∈ bound := List.getElem_mem hi
  have hmarked := htraced.paired.marked i _ a hb ha
  have hown : SameInstalled bound[i] a := by
    refine htraced.paired.own i _ a hb ha fun hreplacing => ?_
    have hall : ∀ kind ∈ replacingKinds, kind ∈ activeKinds := by decide
    exact absurd (hall _ hreplacing) (h.inactive haction hmem)
  obtain ⟨p, hexact, hname⟩ := hremoval.package
  obtain ⟨hp, hinstance, hnevra⟩ := exactInstalled_eq_ok hexact
  have hsystem : bound[i].repository = systemRepository := by
    by_contra hother
    obtain ⟨provenance, -, hrow⟩ := h.row
    obtain ⟨step, spec, -, -, hfrom⟩ := hrow i _ hb
    rw [hown.dbInstance, hfrom.other hother] at hinstance
    cases hinstance
  obtain ⟨hold, p', hunique, -⟩ := htraced.installed _ hmem hsystem
  obtain ⟨-, -, hall⟩ := uniqueInstalled_eq_ok hunique
  rw [hown.oldNevra, hold, Option.getD_some] at hnevra
  refine ⟨bound[i], hb, hmarked, hmarked.repository.trans hsystem, ?_, fun q hq hsame => ?_⟩
  · rcases htraced.paired.provenance i _ a hb ha with hsame | ⟨new, hnew, hactive⟩
    · exact hsame
    · exact absurd hactive (h.inactive haction hnew)
  · rw [hname, hall p hp hnevra, hall q hq (hsame.trans hmarked.nevra)]

/-- There is nothing behind a removal but its own selector. -/
theorem rootless (haction : intent.action = .autoremove) {r : ResolvedAction} (hr : r ∈ resolved) :
    r.dependencyEdges = [] ∧ r.provenance = none := by
  obtain ⟨output, hactions, hdecisions, hremovals⟩ := h.removals haction
  have hplace {a : NativeAction} {r : ResolvedAction} (ha : a ∈ output.actions)
      (hremoval : Removal sys.inventory output a r) :
      a.repository = systemRepository ∧ a.provenance = none := by
    rw [hactions] at ha
    obtain ⟨i, hi⟩ := List.mem_iff_getElem?.mp (List.mem_filter.mp ha).1
    obtain ⟨b, hb, -, hsystem, hsame, -⟩ := h.place haction hi hremoval
    obtain ⟨provenance, -, hrow⟩ := h.row
    obtain ⟨step, spec, -, -, hfrom⟩ := hrow i b hb
    exact ⟨hsystem, hsame.trans hfrom.provenance⟩
  obtain ⟨a, ha, hremoval⟩ := hremovals.exists_left hr
  have hnone : output.decisions = [] := by
    refine List.eq_nil_iff_forall_not_mem.mpr fun d hd => ?_
    obtain ⟨hother, a', ha', -, hrepository⟩ := hdecisions d hd
    obtain ⟨r', -, hremoval'⟩ := hremovals.exists_right ha'
    exact hother (hrepository.symm.trans (hplace ha' hremoval').1)
  have hedges := hremoval.edges
  rw [NativeSolveOutput.edgesOf, hnone, List.filter_nil, List.mapM_nil, Except.pure_eq_ok] at hedges
  exact ⟨hedges.symm, hremoval.provenance.trans (hplace ha hremoval).2⟩

theorem requested_of_resolved (haction : intent.action = .autoremove) {r : ResolvedAction}
    (hr : r ∈ resolved) : r.requested = true := by
  obtain ⟨result, satisfied, hbuilt⟩ := h.built
  obtain ⟨root, -, hrequested, hchain⟩ := (validateInputs_accounts hbuilt.inputs).attached r hr
  obtain ⟨hedges, hprovenance⟩ := h.rootless haction hr
  rcases hchain.cases_head with rfl | ⟨parent, ⟨-, ⟨edge, hedge, -⟩ | ⟨p, hp, -⟩⟩, -⟩
  · exact hrequested
  · rw [hedges] at hedge
    cases hedge
  · rw [hprovenance] at hp
    cases hp

/-- An action of the plan is the removal of a package that a selector selects. -/
theorem asked (hpool : PoolOf sys.lib sys.inventory) (haction : intent.action = .autoremove)
    {e : ExplainedAction} (he : e ∈ plan.actions) : ∃ text ∈ intent.packages.map (·.asStr),
      ∃ p, Selects sys.lib text p ∧ e.name = p.name := by
  obtain ⟨result, hexplains⟩ := h.explains
  obtain ⟨r, hr, hexplained⟩ := hexplains.exists_left (h.order.mem_iff.mp he)
  obtain ⟨output, hactions, -, hremovals⟩ := h.removals haction
  obtain ⟨a, ha, hremoval⟩ := hremovals.exists_left hr
  rw [hactions] at ha
  obtain ⟨i, hi⟩ := List.mem_iff_getElem?.mp (List.mem_filter.mp ha).1
  obtain ⟨b, hb, hmarked, -, -, hname⟩ := h.place haction hi hremoval
  obtain ⟨provenance, hattributed, hrow⟩ := h.row
  obtain ⟨step, spec, hstep, hspec, hfrom⟩ := hrow i b hb
  have hsome : b.requestedSpec.isSome = true := by
    rw [← hmarked.spec, ← hremoval.requested]
    exact h.requested_of_resolved haction hr
  obtain ⟨value, hvalue⟩ := Option.isSome_iff_exists.mp hsome
  have hmap := hfrom.spec
  rw [hvalue] at hmap
  obtain ⟨⟨text, relation⟩, rfl, htext⟩ := Option.map_eq_some_iff.mp hmap.symm
  -- the selector that the row is attributed to has the row's package
  obtain ⟨selector, hselector, rfl, hasked⟩ := hattributed.asked i text relation hspec
  obtain ⟨step', hstep', hselected, -⟩ := mem_askedSteps.mp hasked
  obtain rfl : step = step' := Option.some_injective _ (hstep.symm.trans hstep')
  obtain ⟨text, htext, hof⟩ := h.asks.exists_left hselector
  rw [haction] at hof
  obtain ⟨rfl, p, selected, relation', hselection, hp, honly⟩ := selectorOf_autoremove hof
  refine ⟨selector.text, htext, p, ⟨selector, hof, honly⟩, ?_⟩
  rw [honly, List.mem_singleton] at hselected
  rw [hexplained.name]
  refine hname p (hpool.installed _ _ _ hselection p hp) ?_
  rw [hmarked.nevra, hfrom.nevra, hselected]
  rfl

/-- Every package that a selector selects is removed. -/
theorem goes (hpool : PoolOf sys.lib sys.inventory) (haction : intent.action = .autoremove)
    {text : String} (htext : text ∈ intent.packages.map (·.asStr)) {p : InstalledPackage}
    (hselects : Selects sys.lib text p) :
    ∃ e ∈ plan.actions, e.operation = "remove" ∧ e.name = p.name := by
  obtain ⟨selector', hof', honly⟩ := hselects
  obtain ⟨selector, hselector, hof⟩ := h.asks.exists_right htext
  rw [haction] at hof
  obtain rfl : selector' = selector := Except.ok.inj (hof'.symm.trans hof)
  obtain ⟨-, q, selected, relation, hselection, hq, honly'⟩ := selectorOf_autoremove hof
  obtain rfl : p = q := by simpa using honly.symm.trans honly'
  have hp := hpool.installed _ _ _ hselection p hq
  obtain ⟨decisions, htransaction⟩ := h.transaction
  rw [haction] at htransaction
  obtain ⟨step, hstep, hsolvable⟩ := hpool.erased _ _ _ htransaction selector'.selected
    (List.mem_map_of_mem hselector) p (by rw [honly]; exact List.mem_singleton_self _)
  obtain ⟨i, hi⟩ := List.mem_iff_getElem?.mp hstep
  -- the row of the step is in the answer, since nothing comes that could replace it
  obtain ⟨provenance, hattributed, hrow⟩ := h.row
  obtain ⟨_, _, htraced⟩ := h.traced
  have hlength : i < bound.length := by
    rw [h.length_bound]
    exact (List.getElem?_eq_some_iff.mp hi).1
  have hb : bound[i]? = some bound[i] := List.getElem?_eq_getElem hlength
  obtain ⟨step', spec, hstep', -, hfrom⟩ := hrow i _ hb
  obtain rfl : step = step' := Option.some_injective _ (hi.symm.trans hstep')
  obtain ⟨a, ha, hmarked⟩ := htraced.row_of_bound hb
  have hkept : a.kind ∉ replacedKinds := by
    intro hreplaced
    have hold : bound[i].kind ∈ replacedKinds := by
      rcases hmarked.kind with hsame | ⟨-, herase⟩
      · rwa [← hsame]
      · rw [herase] at hreplaced
        exact absurd hreplaced (by decide)
    obtain ⟨j, -, hreplaces⟩ := htraced.paired.paired i (htraced.complete i a ha hreplaced) _ hb hold
    obtain ⟨new, -, hnew, -, hreplacing, -⟩ := hreplaces.oldSide
    have hall : ∀ kind ∈ replacingKinds, kind ∈ activeKinds := by decide
    exact h.inactive haction (List.mem_of_getElem? hnew) (hall _ hreplacing)
  obtain ⟨output, hactions, -, hremovals⟩ := h.removals haction
  have hmem : a ∈ output.actions := by
    rw [hactions, List.mem_filter]
    exact ⟨List.mem_of_getElem? ha, decide_eq_true hkept⟩
  obtain ⟨r, hr, hremoval⟩ := hremovals.exists_right hmem
  obtain ⟨b', hb', -, -, -, hname⟩ := h.place haction ha hremoval
  obtain ⟨result, hexplains⟩ := h.explains
  obtain ⟨e, he, hexplained⟩ := hexplains.exists_right hr
  refine ⟨e, h.order.mem_iff.mpr he, ?_, ?_⟩
  · rw [hexplained.operation, hremoval.operation]
    rfl
  · rw [hexplained.name]
    refine hname p hp ?_
    rw [hmarked.nevra, hfrom.nevra, hsolvable]
    rfl

end Solved

end

/-! ## Candidates -/

section
variable (sys : System)

/-- `autoremove_candidates` lists the name. -/
def Listed (name : String) : Prop :=
  ∃ names, autoremoveNames sys.reasons sys.inventory sys.policy = .ok names ∧ name ∈ names

/-- Each removal of the plan is of a candidate. -/
def RemovesListed (plan : CanonicalSolverPlan) : Prop :=
  ∀ a ∈ plan.actions, a.operation = "remove" → Listed sys a.name

/-- Each package that a selector of the request selects is a candidate. -/
def SelectsListed (texts : List String) : Prop :=
  ∀ text ∈ texts, ∀ p, Selects sys.lib text p → Listed sys p.name

end

section
variable {sys : System} {intent : TransactionIntent} {plan executed : CanonicalSolverPlan}

/-- A candidate is the name of an installed package, and a plain one. -/
theorem Listed.installed {name : String} (h : Listed sys name) :
    (∃ p ∈ sys.inventory.packages, p.name = name) ∧
      name.toList.all Reason.isNameChar = true := by
  obtain ⟨names, hnames, hname⟩ := h
  rw [autoremoveNames, Except.check_bind_eq_ok, Except.pure_eq_ok] at hnames
  rw [← hnames.2, (List.perm_insertionSort _ _).mem_iff] at hname
  obtain ⟨r, hr, rfl⟩ := List.mem_map.mp hname
  obtain ⟨hr, hcandidate⟩ := List.mem_filter.mp hr
  obtain ⟨p, hp, -, hsame, -⟩ := Reason.isCandidate_iff.mp hcandidate
  have hwellFormed := (Reason.validateState_eq_ok.mp sys.reasons_valid).wellFormed r hr
  simp only [Reason.ReasonRecord.wellFormed, Bool.and_eq_true] at hwellFormed
  exact ⟨⟨p, hp, hsame.symm⟩, hwellFormed.2⟩

/-- Names of candidates select candidates. -/
theorem selectsListed_of_listed (hpool : PoolOf sys.lib sys.inventory) {texts : List String}
    (h : ∀ text ∈ texts, Listed sys text) : SelectsListed sys texts := by
  rintro text htext p ⟨selector, hof, honly⟩
  obtain ⟨-, q, selected, relation, hselection, hq, honly'⟩ := selectorOf_autoremove hof
  obtain rfl : p = q := by simpa using honly.symm.trans honly'
  obtain ⟨hinstalled, hplain⟩ := (h text htext).installed
  rw [hpool.named text selected relation hselection hplain hinstalled p hq]
  exact h text htext

/-- The plan for a request removes candidates exactly when its selectors select candidates. -/
theorem removesListed_iff (hpool : PoolOf sys.lib sys.inventory)
    (haction : intent.action = .autoremove) (h : sys.solve intent = .ok plan) :
    RemovesListed sys plan ↔ SelectsListed sys (intent.packages.map (·.asStr)) := by
  obtain ⟨selectors, steps, bound, s, resolved, explained, hsolved⟩ := solve_eq_ok h
  constructor
  · intro hremoves text htext p hselects
    obtain ⟨e, he, hoperation, hname⟩ := hsolved.goes hpool haction htext hselects
    rw [← hname]
    exact hremoves e he hoperation
  · intro hselects e he _
    obtain ⟨text, htext, p, hselected, hname⟩ := hsolved.asked hpool haction he
    rw [hname]
    exact hselects text htext p hselected

theorem intentOf_eq_ok {action : Action} {packages : List String}
    (h : intentOf action packages = .ok intent) :
    intent.action = action ∧ ∀ text, text ∈ intent.packages.map (·.asStr) ↔ text ∈ packages := by
  rw [intentOf, Except.bind_eq_ok] at h
  obtain ⟨specs, hspecs, h⟩ := h
  rw [Except.mapError_eq_ok] at hspecs h
  have htexts : packages = specs.map (·.asStr) := by
    rw [← List.map_id packages]
    exact (Except.mapM_eq_ok.mp hspecs).map_eq fun _ _ _ _ hparse =>
      (PackageSpec.asStr_of_parse hparse).symm
  rw [TransactionIntent.new, TransactionIntent.check] at h
  split at h
  · cases h
  · split at h
    · cases h
      refine ⟨rfl, fun text => ?_⟩
      rw [htexts]
      exact ((List.perm_insertionSort _ specs).map _).mem_iff
    · cases h

theorem autoremovePackages_listed {requested packages : List String}
    (h : sys.autoremovePackages requested = .ok packages) : ∀ text ∈ packages, Listed sys text := by
  rw [System.autoremovePackages, Except.bind_eq_ok] at h
  obtain ⟨candidates, hcandidates, h⟩ := h
  rw [Except.mapError_eq_ok] at hcandidates
  split at h
  · obtain rfl := Except.pure_eq_ok.mp h
    exact fun text htext => ⟨_, hcandidates, htext⟩
  · split at h
    · cases h
    · next hfind =>
      obtain rfl := Except.pure_eq_ok.mp h
      intro text htext
      have hmem := List.find?_eq_none.mp hfind text (List.mem_sortDedup.mp htext)
      exact ⟨candidates, hcandidates, by simpa using hmem⟩

/-- A plan that is written has the intent of its request. -/
theorem intent_of_solve (h : sys.solve intent = .ok plan) : plan.proposal.intent = intent := by
  obtain ⟨_, _, _, _, _, _, hsolved⟩ := solve_eq_ok h
  obtain ⟨result, satisfied, hbuilt⟩ := hsolved.built
  obtain ⟨actions, -, hnew⟩ := hbuilt.proposal
  rw [(Core.PlanEnvelope.new_eq_ok.mp hnew).1]
  rfl

/-- A plan that is applied is the one that is planned for its intent. -/
theorem runApply_eq_ok (h : sys.runApply plan = .ok executed) : executed = plan ∧
    ∃ integrity expiresAtUnix root,
      System.solve { sys with integrity := integrity, expiresAtUnix := expiresAtUnix }
        plan.proposal.intent = .ok root ∧ root.actions = plan.actions := by
  rw [System.runApply, Except.bind_eq_ok] at h
  obtain ⟨root, hroot, h⟩ := h
  rw [Except.check_bind_eq_ok, Except.refuseIf_eq_ok, Except.pure_eq_ok] at h
  obtain ⟨hsame, rfl⟩ := h
  simp only [not_or, not_not] at hsame
  exact ⟨rfl, _, _, root, hroot, hsame.2.2⟩

end

def vim : InstalledPackage :=
  ⟨"vim", ⟨0, "9", "1.fc44", .x86_64⟩, "Fedora", 7, 0, Core.zeroDigest, by decide, by decide⟩

/-- libsolv over a pool with one package, which it erases when it is told to. -/
def vimOnly : Libsolv where
  selection text := if text = "vim" then .ok ([.installed vim], false) else .error "no match"
  replacement _ _ := .error "no replacement"
  transaction _ selections := .ok (selections.flatten.map fun x => ⟨x, .erase, none⟩, [])

def vimSystem (reason : Core.PackageReason) : System where
  lib := vimOnly
  inventory := onlyPackage vim
  reasons := ⟨1, [⟨7, Core.zeroDigest.asStr, "vim", reason⟩]⟩
  reasons_valid := by cases reason <;> decide +kernel
  policy := Core.kernelPolicy
  integrity := Core.fedoraIntegrity
  candidates _ := []
  evidence _ := []
  expiresAtUnix := 100
  requiresFullFilelists _ := false

theorem poolOf_vimOnly : PoolOf vimOnly (onlyPackage vim) := by
  have hselection {text : String} {selected : List Solvable} {relation : Bool}
      (h : vimOnly.selection text = .ok (selected, relation)) :
      text = "vim" ∧ selected = [.installed vim] := by
    simp only [vimOnly] at h
    split at h
    · next heq =>
      cases h
      exact ⟨heq, rfl⟩
    · cases h
  have honly {p : InstalledPackage} (hp : .installed p ∈ [Solvable.installed vim]) : p = vim := by
    simpa using hp
  constructor
  · intro text selected relation h p hp
    rw [(hselection h).2] at hp
    rw [honly hp]
    exact List.mem_singleton_self vim
  · intro text selected relation h _ _ p hp
    rw [(hselection h).2] at hp
    rw [honly hp, (hselection h).1]
    rfl
  · intro selections steps decisions h selected hselected p hp
    cases h
    exact ⟨⟨.installed p, .erase, none⟩, List.mem_map.mpr ⟨_, List.mem_flatten_of_mem hselected hp, rfl⟩,
      rfl⟩

end Dnfast.Cli
