import Dnfast.Solver.Native

/-! # Solving and attributing

`native/src/solver.c`, `solve_operation` over libsolv. What a selector selects, the transaction that
libsolv finds for the selectors and the decisions behind it are libsolv's, and parameters here
(`Libsolv`); the model has what the code does around them: it makes an autoremove selector exact,
finds for every selector the one action that it asked for or takes it as satisfied
(`selectorProvenance`), and writes the columns of the answer.

Solvables of the pool are installed packages, or available ones named by repository and NEVRA. -/

namespace Dnfast.Solver

open Except (refuseIf)
open Dnfast.Core (InstalledPackage)

inductive Solvable where
  | installed (p : InstalledPackage)
  | available (repository nevra : String)
  deriving DecidableEq

namespace Solvable

/-- `dnfast_solvable_identity`. -/
def identity : Solvable → String
  | installed p => installedNevra p
  | available _ nevra => nevra

def repository : Solvable → String
  | installed _ => systemRepository
  | available repository _ => repository

end Solvable

/-- The types of the steps, as `transaction_type` gives them in the mode that the code asks for:
those of packages that go, and those of packages that come. -/
inductive TransactionType where
  | erase
  | reinstalled
  | changed
  | downgraded
  | upgraded
  | obsoleted
  | reinstall
  | change
  | downgrade
  | upgrade
  | obsoletes
  | install
  | multiInstall
  | multiReinstall
  deriving DecidableEq, Repr

/-- `dnfast_solver_action_kind`. -/
def TransactionType.kind : TransactionType → String
  | erase => "erase"
  | reinstalled => "reinstalled"
  | changed => "changed"
  | downgraded => "downgraded"
  | upgraded => "upgraded"
  | obsoleted => "obsoleted"
  | reinstall => "reinstall"
  | change => "change"
  | downgrade => "downgrade"
  | upgrade => "upgrade"
  | obsoletes => "obsoletes"
  | install | multiInstall | multiReinstall => "install"

/-- `SolveOperation`, numbered from 0 to 6. -/
inductive SolveOperation where
  | install
  | erase
  | upgrade
  | downgrade
  | reinstall
  | distroSync
  | autoremove
  deriving DecidableEq, Repr

/-- The types that count as the outcome of an operation, `action_is_final_active`. -/
def SolveOperation.finalTypes : SolveOperation → List TransactionType
  | install => [.install, .reinstall, .downgrade, .change, .upgrade, .obsoletes, .multiInstall,
      .multiReinstall]
  | erase => [.erase]
  | upgrade => [.downgrade, .change, .upgrade, .obsoletes]
  | downgrade => [.downgrade]
  | reinstall => [.reinstall, .change, .multiReinstall]
  | distroSync => [.downgrade, .change, .upgrade, .obsoletes, .reinstall, .multiReinstall]
  | autoremove => [.erase]

structure TransactionStep where
  solvable : Solvable
  type : TransactionType
  /-- `transaction_obs_pkg`. -/
  counterpart : Option Solvable

/-- libsolv, with the pool that is loaded. -/
structure Libsolv where
  /-- What a selector selects (`selection_make`, `selection_solvables`), and whether it is a
  relation. -/
  selection : String → Except String (List Solvable × Bool)
  /-- The package that replaces an installed one, `exact_replacement_candidate`. -/
  replacement : SolveOperation → List Solvable → Except String Solvable
  /-- The steps and decisions for the selectors. -/
  transaction : SolveOperation → List (List Solvable) →
    Except String (List TransactionStep × List SolveDecision)

/-! ## Selectors -/

/-- The loop of `exact_installed_selector`. -/
def exactInstalledFrom : Option InstalledPackage → List Solvable →
    Except String (Option InstalledPackage)
  | found, [] => .ok found
  | found, .available _ _ :: rest => exactInstalledFrom found rest
  | found, .installed p :: rest => do
    refuseIf (found.any (· ≠ p)) "candidate matches multiple installed packages"
    exactInstalledFrom (some p) rest

def exactInstalledSelector (selected : List Solvable) : Except String InstalledPackage := do
  Except.okOr (← exactInstalledFrom none selected) "autoremove candidate is not installed"

/-- A selector of the request: its text, what it selects in the end, and whether it is a
relation. -/
structure Selector where
  text : String
  selected : List Solvable
  relation : Bool

section
variable (lib : Libsolv) (operation : SolveOperation)

def selectorOf (text : String) : Except String Selector := do
  refuseIf (text = "") "no matching package or provide"
  let (selected, relation) ← lib.selection text
  match operation with
  | .downgrade | .reinstall =>
    let candidate ← lib.replacement operation selected
    return ⟨text, [candidate], relation⟩
  | .autoremove =>
    let p ← exactInstalledSelector selected
    return ⟨text, [.installed p], relation⟩
  | .install | .erase | .upgrade | .distroSync => return ⟨text, selected, relation⟩

/-! ## Provenance -/

/-- The steps that a selector asked for, by their positions. -/
def askedSteps (steps : List TransactionStep) (selected : List Solvable) : List Nat :=
  selected.flatMap fun x => (List.range steps.length).filter fun i =>
    steps[i]?.any fun step => step.solvable = x && step.type ∈ operation.finalTypes

structure Provenance where
  specs : List (Option (String × Bool))
  satisfied : List String

/-- The body of the loop in `copy_selector_provenance`. -/
def attributeSelector (steps : List TransactionStep) (s : Provenance) (selector : Selector) :
    Except String Provenance :=
  match askedSteps operation steps selector.selected with
  | [] => .ok { s with satisfied := s.satisfied ++ [selector.text] }
  | [i] => do
    refuseIf (s.specs[i]? ≠ some none) "selectors overlap on final active transaction action"
    return { s with specs := s.specs.set i (some (selector.text, selector.relation)) }
  | _ => .error "selector has multiple final active transaction actions"

def selectorProvenance (steps : List TransactionStep) (selectors : List Selector) :
    Except String Provenance :=
  selectors.foldlM (attributeSelector operation steps) ⟨steps.map fun _ => none, []⟩

/-! ## The answer -/

/-- The columns of the answer. -/
def answerOf (steps : List TransactionStep) (decisions : List SolveDecision) (s : Provenance) :
    SolveResult where
  actions := steps.map (·.solvable.identity)
  repositories := steps.map (·.solvable.repository)
  kinds := steps.map (·.type.kind)
  obsoletes := steps.map fun step => step.counterpart.map (·.identity)
  requestedSpecs := s.specs.map fun spec => spec.map (·.1)
  requestedRelationKinds := s.specs.map fun spec => spec.any (·.2)
  satisfiedSpecs := s.satisfied
  decisions := decisions

/-- `solve_operation`. -/
def solveOperation (names : List String) : Except String SolveResult := do
  refuseIf (names = [] ∧ operation ≠ .upgrade ∧ operation ≠ .distroSync) "invalid solve request"
  let selectors ← names.mapM (selectorOf lib operation)
  refuseIf (operation = .autoremove ∧ ¬ (selectors.map (·.selected)).Nodup)
    "duplicate autoremove candidate"
  let (steps, decisions) ← lib.transaction operation (selectors.map (·.selected))
  let provenance ← selectorProvenance operation steps selectors
  return answerOf steps decisions provenance

end

/-! ## What is attributed -/

theorem mem_askedSteps {operation : SolveOperation} {steps : List TransactionStep}
    {selected : List Solvable} {i : Nat} : i ∈ askedSteps operation steps selected ↔
      ∃ step, steps[i]? = some step ∧ step.solvable ∈ selected ∧
        step.type ∈ operation.finalTypes := by
  simp only [askedSteps, List.mem_flatMap, List.mem_filter, List.mem_range, Option.any_eq_true,
    Bool.and_eq_true, decide_eq_true_eq]
  constructor
  · rintro ⟨x, hx, -, step, hstep, rfl, htype⟩
    exact ⟨step, hstep, hx, htype⟩
  · rintro ⟨step, hstep, hselected, htype⟩
    exact ⟨step.solvable, hselected, (List.getElem?_eq_some_iff.mp hstep).1, step, hstep, rfl, htype⟩

/-- What the loop has attributed so far, after the selectors `done`. -/
structure Attributed (operation : SolveOperation) (steps : List TransactionStep)
    (done : List Selector) (s : Provenance) : Prop where
  length : s.specs.length = steps.length
  /-- What is attributed was asked for. -/
  asked : ∀ (i : Nat) text relation, s.specs[i]? = some (some (text, relation)) →
    ∃ selector ∈ done, selector.text = text ∧ i ∈ askedSteps operation steps selector.selected
  /-- What was asked for is attributed. -/
  attributed : ∀ selector ∈ done, ∀ i ∈ askedSteps operation steps selector.selected,
    s.specs[i]? = some (some (selector.text, selector.relation))
  satisfied : ∀ text ∈ s.satisfied, ∃ selector ∈ done, selector.text = text ∧
    askedSteps operation steps selector.selected = []

theorem Attributed.step {operation : SolveOperation} {steps : List TransactionStep}
    {done : List Selector} {s s' : Provenance} {selector : Selector}
    (h : Attributed operation steps done s) (hstep : attributeSelector operation steps s selector = .ok s') :
    Attributed operation steps (done ++ [selector]) s' := by
  unfold attributeSelector at hstep
  split at hstep
  · next hnone =>
    cases hstep
    constructor
    case length => exact h.length
    case asked =>
      intro i text relation hi
      obtain ⟨earlier, hearlier, htext, hasked⟩ := h.asked i text relation hi
      exact ⟨earlier, List.mem_append_left _ hearlier, htext, hasked⟩
    case attributed =>
      intro other hother i hi
      rcases List.mem_append.mp hother with hother | hother
      · exact h.attributed other hother i hi
      · rw [List.mem_singleton.mp hother, hnone] at hi
        cases hi
    case satisfied =>
      intro text htext
      rcases List.mem_append.mp htext with htext | htext
      · obtain ⟨earlier, hearlier, heq⟩ := h.satisfied text htext
        exact ⟨earlier, List.mem_append_left _ hearlier, heq⟩
      · exact ⟨selector, by simp, (List.mem_singleton.mp htext).symm, hnone⟩
  · next k hone =>
    rw [Except.check_bind_eq_ok, Except.refuseIf_eq_ok, not_not, Except.pure_eq_ok] at hstep
    obtain ⟨hfree, rfl⟩ := hstep
    have hk : k < s.specs.length := (List.getElem?_eq_some_iff.mp hfree).1
    constructor
    case length => exact (List.length_set ..).trans h.length
    case asked =>
      intro i text relation hi
      by_cases hik : k = i
      · subst hik
        rw [List.getElem?_set_self hk, Option.some.injEq, Option.some.injEq, Prod.mk.injEq] at hi
        exact ⟨selector, by simp, hi.1, hone ▸ List.mem_singleton_self k⟩
      · rw [List.getElem?_set_ne hik] at hi
        obtain ⟨earlier, hearlier, htext, hasked⟩ := h.asked i text relation hi
        exact ⟨earlier, List.mem_append_left _ hearlier, htext, hasked⟩
    case attributed =>
      intro other hother i hi
      rcases List.mem_append.mp hother with hother | hother
      · have hold := h.attributed other hother i hi
        have hik : k ≠ i := by
          rintro rfl
          rw [hold] at hfree
          cases hfree
        rwa [List.getElem?_set_ne hik]
      · rw [List.mem_singleton.mp hother] at hi ⊢
        rw [hone] at hi
        rw [List.mem_singleton.mp hi, List.getElem?_set_self hk]
    case satisfied =>
      intro text htext
      obtain ⟨earlier, hearlier, heq⟩ := h.satisfied text htext
      exact ⟨earlier, List.mem_append_left _ hearlier, heq⟩
  · cases hstep

theorem attributed_of_foldlM {operation : SolveOperation} {steps : List TransactionStep}
    {done selectors : List Selector} {s s' : Provenance} (h : Attributed operation steps done s)
    (hrun : selectors.foldlM (attributeSelector operation steps) s = .ok s') :
    Attributed operation steps (done ++ selectors) s' := by
  induction selectors generalizing done s with
  | nil =>
    obtain rfl := Except.pure_eq_ok.mp hrun
    rwa [List.append_nil]
  | cons selector selectors ih =>
    rw [List.foldlM_cons, Except.bind_eq_ok] at hrun
    obtain ⟨s₁, hfirst, hrun⟩ := hrun
    rw [List.append_cons]
    exact ih (h.step hfirst) hrun

theorem selectorProvenance_eq_ok {operation : SolveOperation} {steps : List TransactionStep}
    {selectors : List Selector} {s : Provenance}
    (h : selectorProvenance operation steps selectors = .ok s) :
    Attributed operation steps selectors s := by
  have hstart : Attributed operation steps [] ⟨steps.map fun _ => none, []⟩ := by
    refine ⟨List.length_map _, fun i text relation hi => ?_, by simp, by simp⟩
    rw [List.getElem?_map, Option.map_eq_some_iff] at hi
    obtain ⟨-, -, hi⟩ := hi
    cases hi
  exact attributed_of_foldlM hstart h

end Dnfast.Solver
