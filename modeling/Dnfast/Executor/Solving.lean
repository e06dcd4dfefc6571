import Dnfast.Executor.Resident
import Dnfast.Solver.Built
import Dnfast.Solver.Expiry

/-! # What a plan of the resident pool depends on

`dnfast-executor`, `resident.rs`: a request is solved on the pool and maps its absolute selectors to
the packages that own the files, which a thread may have searched ahead of it. -/

namespace Dnfast.Executor

open Core (TransactionIntent)
open Planning (PlanningRepository)
open Solver (CanonicalSolverPlan)

/-! ## What solving depends on -/

section
variable {out : Outside} {pool pool' : ResidentPool} {intent : TransactionIntent} {now now' : UInt64}
  {prefetch : Option (Except DaemonError PrefetchedFileSelectors)} {plan : CanonicalSolverPlan}

/-- The pools agree on all that `solveOn` reads. -/
structure SameView (pool pool' : ResidentPool) : Prop where
  integrity : pool.integrity = pool'.integrity
  policy : pool.policy = pool'.policy
  repositories : pool.repositories = pool'.repositories
  modules : pool.moduleArtifactPolicy = pool'.moduleArtifactPolicy
  context : pool.context = pool'.context
  inventory : pool.inventory = pool'.inventory

theorem solveOn_congr (h : SameView pool pool') :
    solveOn out pool intent now prefetch = solveOn out pool' intent now prefetch := by
  cases pool
  cases pool'
  obtain ⟨rfl, rfl, rfl, rfl, rfl, rfl⟩ := h
  rfl

theorem planFor_withExpiry (result : Solver.SolveResult) :
    planFor out pool intent now result = (planFor out pool intent now' result).map
      (·.withExpiry (saturatingAdd now planLifetimeSeconds)) := by
  simp only [planFor]
  cases selectedCandidateEvidence out pool result pool.policy.baseArch with
  | error e => rfl
  | ok candidates =>
    simp only [Except.ok_bind]
    cases selectedDecisionEvidence out pool result with
    | error e => rfl
    | ok metadata =>
      simp only [Except.ok_bind]
      cases (Solver.NativeSolveOutput.fromNativeCompact result pool.integrity.metadataSha256.asStr
        metadata pool.inventory).mapError DaemonError.plan with
      | error e => rfl
      | ok transcript =>
        simp only [Except.ok_bind]
        cases (transcript.intoResolvedCompact (intent.packages.map (·.asStr)) candidates metadata
          pool.inventory).mapError DaemonError.plan with
        | error e => rfl
        | ok resolved =>
          have hbuild := Solver.PlanBuilder.buildWithSatisfied_withExpiry
            ⟨intent, pool.integrity, pool.inventory, pool.policy, candidates,
              saturatingAdd now' planLifetimeSeconds⟩ resolved transcript.satisfiedSpecs
            (saturatingAdd now planLifetimeSeconds)
          simp only [Except.ok_bind, hbuild]
          cases Solver.PlanBuilder.buildWithSatisfied _ resolved transcript.satisfiedSpecs <;> rfl

theorem solveOn_withExpiry : solveOn out pool intent now prefetch =
    (solveOn out pool intent now' prefetch).map
      (·.withExpiry (saturatingAdd now planLifetimeSeconds)) := by
  simp only [solveOn]
  cases requestSelectors out pool (intent.packages.map (·.asStr)) prefetch with
  | error e => rfl
  | ok mapped =>
    simp only [Except.ok_bind]
    cases nativeSolve out pool intent.action (intent.packages.map (·.asStr)) pool.policy mapped with
    | error e => rfl
    | ok result => exact planFor_withExpiry result

/-- What the proposal of a plan says of its request. -/
theorem proposal_of_solveOn (h : solveOn out pool intent now prefetch = .ok plan) :
    plan.proposal.integrity = pool.integrity ∧ plan.proposal.intent = intent ∧
      plan.proposal.expiresAtUnix = saturatingAdd now planLifetimeSeconds := by
  obtain ⟨mapped, -, h⟩ := Except.bind_eq_ok.mp h
  obtain ⟨result, -, h⟩ := Except.bind_eq_ok.mp h
  obtain ⟨candidates, -, h⟩ := Except.bind_eq_ok.mp h
  obtain ⟨metadata, -, h⟩ := Except.bind_eq_ok.mp h
  obtain ⟨transcript, -, h⟩ := Except.bind_eq_ok.mp h
  obtain ⟨resolved, -, h⟩ := Except.bind_eq_ok.mp h
  obtain ⟨actions, -, hproposal⟩ :=
    (Solver.buildWithSatisfied_eq_ok (Except.mapError_eq_ok.mp h)).proposal
  simp only [Core.PlanEnvelope.new, Except.bind_eq_ok, Except.pure_eq_ok] at hproposal
  obtain ⟨_, -, _, -, hproposal⟩ := hproposal
  rw [← hproposal]
  exact ⟨rfl, rfl, rfl⟩

/-- Two plans of one pool for one request differ in the time of expiry only. -/
theorem sameUpToExpiry_of_solveOn {plan' : CanonicalSolverPlan}
    (h : solveOn out pool intent now prefetch = .ok plan)
    (h' : solveOn out pool intent now' prefetch = .ok plan') : plan.SameUpToExpiry plan' := by
  have heq := @solveOn_withExpiry out pool intent now now' prefetch
  rw [h, h'] at heq
  cases heq
  rfl

end

/-! ## Prefetched selectors -/

/-- A step that returns nothing for some elements can leave them out. -/
theorem mapM_filterMap_id {ε α β : Type} {f : α → Except ε (Option β)} {keep : α → Bool}
    {l : List α} (h : ∀ a ∈ l, keep a = false → f a = .ok none) :
    (l.mapM f).map (·.filterMap id) = ((l.filter keep).mapM f).map (·.filterMap id) := by
  induction l with
  | nil => rfl
  | cons a l ih =>
    have ih := ih fun b hb => h b (List.mem_cons_of_mem a hb)
    cases hkeep : keep a with
    | false =>
      rw [List.filter_cons_of_neg (by simp [hkeep]), ← ih, List.mapM_cons,
        h a List.mem_cons_self hkeep, Except.ok_bind]
      cases l.mapM f <;> rfl
    | true =>
      rw [List.filter_cons_of_pos (by simp [hkeep]), List.mapM_cons, List.mapM_cons]
      cases f a with
      | error e => rfl
      | ok b =>
        simp only [Except.ok_bind]
        cases hall : l.mapM f with
        | error e =>
          rw [hall] at ih
          cases hkept : (l.filter keep).mapM f with
          | error e' =>
            rw [hkept] at ih
            cases ih
            rfl
          | ok kept =>
            rw [hkept] at ih
            cases ih
        | ok all =>
          rw [hall] at ih
          cases hkept : (l.filter keep).mapM f with
          | error e =>
            rw [hkept] at ih
            cases ih
          | ok kept =>
            rw [hkept] at ih
            have heq : all.filterMap id = kept.filterMap id := Except.ok.inj ih
            have hcons : (b :: all).filterMap id = (b :: kept).filterMap id := by
              rw [List.filterMap_cons, List.filterMap_cons, heq]
            exact congrArg Except.ok hcons

section
variable {out : Outside} {pool : ResidentPool} {names : List String} {w : World}
  {ids : List String} {prefetched : PrefetchedFileSelectors}

/-- The absolute selectors of a request, with their places. -/
def absoluteSelectors (names : List String) : List (String × Nat) :=
  names.zipIdx.filter fun named => isAbsolute named.1

/-- How one of them is mapped. -/
def mapSelector (out : Outside) (pool : ResidentPool) (named : String × Nat) :
    Except DaemonError (Option MappedSelector) :=
  mappedSelector out pool named.2 named.1 (scan out pool.repositories named.1)

theorem mappedFileSelectors_eq : mappedFileSelectors out pool names =
    ((absoluteSelectors names).mapM (mapSelector out pool)).map (List.filterMap id) := by
  have hall : mappedFileSelectors out pool names =
      (names.zipIdx.mapM (mapSelector out pool)).map (List.filterMap id) := by
    unfold mappedFileSelectors
    change (names.zipIdx.mapM (mapSelector out pool) >>= _) = _
    cases names.zipIdx.mapM (mapSelector out pool) <;> rfl
  rw [hall]
  refine mapM_filterMap_id fun named _ hno => ?_
  rw [mapSelector, mappedSelector, hno]
  rfl

theorem primary_of_foldlM {b : Bool} (h : names.foldlM (fun allPrimary selector =>
      if !allPrimary || !isAbsolute selector then Except.ok allPrimary
      else (out.hasProvider pool.context selector).mapError DaemonError.native) b = .ok true) :
    b = true ∧ ∀ selector ∈ names, isAbsolute selector = true →
      (out.hasProvider pool.context selector).mapError DaemonError.native = .ok true := by
  induction names generalizing b with
  | nil => exact ⟨Except.pure_eq_ok.mp h, by simp⟩
  | cons selector names ih =>
    rw [List.foldlM_cons] at h
    obtain ⟨b', hb', h⟩ := Except.bind_eq_ok.mp h
    obtain ⟨rfl, hrest⟩ := ih h
    cases b with
    | false => cases hb'
    | true =>
      refine ⟨rfl, List.forall_mem_cons.mpr ⟨fun habsolute => ?_, hrest⟩⟩
      simpa [habsolute] using hb'

/-- Whatever has a provider in the primary metadata is not mapped. -/
theorem mappedFileSelectors_of_primary (h : everyAbsoluteIsPrimary out pool names = .ok true) :
    mappedFileSelectors out pool names = .ok [] := by
  have hnone : (absoluteSelectors names).mapM (mapSelector out pool) =
      .ok ((absoluteSelectors names).map fun _ => none) := by
    rw [Except.mapM_eq_ok, List.forall₂_map_right_iff, List.forall₂_same]
    intro named hnamed
    obtain ⟨hmem, habsolute⟩ := List.mem_filter.mp hnamed
    have hprovider := (primary_of_foldlM h).2 named.1 (List.fst_mem_of_mem_zipIdx hmem) habsolute
    rw [mapSelector, mappedSelector, habsolute, hprovider]
    rfl
  rw [mappedFileSelectors_eq, hnone]
  simp [Except.map]

/-- The repositories of the pool are found by their identifiers. -/
def FoundById (repositories : List PlanningRepository) : Prop :=
  ∀ r ∈ repositories, repositories.find? (·.id = r.id) = some r

theorem prefetchedOrdinals_scan {selector : String} {ordinals : List (PlanningRepository × List UInt32)}
    (hfound : FoundById pool.repositories)
    (h : scan out pool.repositories selector = .ok ordinals) :
    prefetchedOrdinals pool (ordinals.map fun found => (found.1.id, found.2)) = .ok ordinals := by
  rw [scan, Except.mapError_eq_ok, Except.mapM_eq_ok] at h
  rw [prefetchedOrdinals, Except.mapM_eq_ok, List.forall₂_map_left_iff, List.forall₂_same]
  intro found hmem
  obtain ⟨r, hr, hscanned⟩ := h.exists_left hmem
  obtain ⟨_, -, hscanned⟩ := Except.bind_eq_ok.mp hscanned
  cases Except.pure_eq_ok.mp hscanned
  simp only [hfound r hr]
  rfl

/-- What the prefetch returns for one selector. -/
def prefetchSelector (out : Outside) (repositories : List PlanningRepository)
    (named : String × Nat) : Except DaemonError (Nat × List (String × List UInt32)) := do
  let ordinals ← scan out repositories named.1
  return (named.2, ordinals.map fun found => (found.1.id, found.2))

/-- Prefetched selectors are mapped as they would be without the prefetch. -/
theorem mappedFileSelectorsFromPrefetch_eq (hfound : FoundById pool.repositories)
    (h : (absoluteSelectors names).mapM (prefetchSelector out pool.repositories) =
      .ok prefetched.selectors) :
    mappedFileSelectorsFromPrefetch out pool names prefetched = mappedFileSelectors out pool names := by
  have hmapped : ∀ (l : List (String × Nat)) (selectors : List (Nat × List (String × List UInt32))),
      (∀ named ∈ l, named ∈ absoluteSelectors names) →
      List.Forall₂ (fun named found => prefetchSelector out pool.repositories named = .ok found) l
        selectors →
      selectors.mapM (fun selector => do
        let requested ← Except.okOr names[selector.1]?
          (.planning "prefetched file selector index changed")
        mappedSelector out pool selector.1 requested (prefetchedOrdinals pool selector.2)) =
      l.mapM (mapSelector out pool) := by
    intro l selectors hl hforall
    induction hforall with
    | nil => rfl
    | @cons named found l selectors hnamed _ ih =>
      obtain ⟨ordinals, hscan, hnamed⟩ := Except.bind_eq_ok.mp hnamed
      cases Except.pure_eq_ok.mp hnamed
      have hmem := (List.mem_filter.mp (hl named List.mem_cons_self)).1
      have hindex : names[named.2]? = some named.1 := List.mem_zipIdx_iff_getElem?.mp hmem
      rw [List.mapM_cons, List.mapM_cons, ih fun n hn => hl n (List.mem_cons_of_mem _ hn)]
      simp only [hindex, prefetchedOrdinals_scan hfound hscan, mapSelector, hscan]
      rfl
  have hall := hmapped _ _ (fun _ h => h) (Except.mapM_eq_ok.mp h)
  rw [mappedFileSelectors_eq, mappedFileSelectorsFromPrefetch, hall]
  cases (absoluteSelectors names).mapM (mapSelector out pool) <;> rfl

/-- The prefetch is of the repositories of the pool, as far as the request takes it. -/
def PrefetchFor (out : Outside) (pool : ResidentPool) (names : List String)
    (prefetch : Except DaemonError PrefetchedFileSelectors) : Prop :=
  ∀ prefetched, prefetch = .ok prefetched →
    prefetched.snapshotSha256 = pool.integrity.planningSnapshotSha256.asStr →
    (absoluteSelectors names).mapM (prefetchSelector out pool.repositories) = .ok prefetched.selectors

/-- A request with a prefetch that succeeds is mapped as one without. -/
theorem requestSelectors_of_prefetched (hfound : FoundById pool.repositories)
    (hfor : PrefetchFor out pool names (.ok prefetched)) :
    requestSelectors out pool names (some (.ok prefetched)) = requestSelectors out pool names none := by
  unfold requestSelectors
  cases hprimary : everyAbsoluteIsPrimary out pool names with
  | error e => rfl
  | ok primary =>
    cases primary with
    | true => exact (mappedFileSelectors_of_primary hprimary).symm
    | false =>
      simp only [Except.ok_bind, Bool.false_eq_true, if_false]
      split
      · next hsame => exact mappedFileSelectorsFromPrefetch_eq hfound (hfor prefetched rfl hsame)
      · rfl

/-- And so is any other one that is mapped at all. -/
theorem requestSelectors_of_prefetch {prefetch : Except DaemonError PrefetchedFileSelectors}
    {mapped : List MappedSelector} (hfound : FoundById pool.repositories)
    (hfor : PrefetchFor out pool names prefetch)
    (h : requestSelectors out pool names (some prefetch) = .ok mapped) :
    requestSelectors out pool names none = .ok mapped := by
  cases prefetch with
  | ok prefetched => rwa [requestSelectors_of_prefetched hfound hfor] at h
  | error e =>
    unfold requestSelectors at h ⊢
    obtain ⟨primary, hprimary, h⟩ := Except.bind_eq_ok.mp h
    cases primary with
    | false => cases h
    | true =>
      cases h
      rw [hprimary, Except.ok_bind]
      exact mappedFileSelectors_of_primary hprimary

theorem solveOn_of_prefetch {intent : TransactionIntent} {now : UInt64}
    {prefetch : Option (Except DaemonError PrefetchedFileSelectors)} {plan : CanonicalSolverPlan}
    (hfound : FoundById pool.repositories)
    (hfor : ∀ p, prefetch = some p → PrefetchFor out pool (intent.packages.map (·.asStr)) p)
    (h : solveOn out pool intent now prefetch = .ok plan) :
    solveOn out pool intent now none = .ok plan := by
  cases prefetch with
  | none => exact h
  | some prefetch =>
    obtain ⟨mapped, hmapped, h⟩ := Except.bind_eq_ok.mp h
    have hnone := requestSelectors_of_prefetch hfound (hfor prefetch rfl) hmapped
    exact Except.bind_eq_ok.mpr ⟨mapped, hnone, h⟩

end

end Dnfast.Executor
