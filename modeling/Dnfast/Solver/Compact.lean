import Dnfast.Solver.Answer
import Dnfast.Solver.Coverage

/-! # Complete and compact evidence

The adapter runs on complete rpm-md packages or on compact ones, whose relations are texts. The two
runs differ in one place: a decision's relation is the package's own in the first, and read from the
text in the second. `Survives` says of a text that it is read and written again; `compact_agrees_iff`
says that the runs agree exactly when the texts of all decisions survive. -/

namespace Dnfast.Solver

open Except (refuseIf okOr)
open Dnfast.Core (InstalledInventory PackageSpec)

/-- The text is read, and what is read is written as the same text. -/
def Survives (text : String) : Prop :=
  ∃ relation, parseCompactRelation text = .ok relation ∧ relation.epoch ≠ some "0"

/-! ## One relation -/

/-- Two runs of a search for a relation with a text: both fail, both find nothing, or the complete
one finds a relation with this text and the compact one reads the text. -/
def Mirrors (text : String) (complete compact : Except PlanError (Option Relation)) : Prop :=
  (∃ e e', complete = .error e ∧ compact = .error e') ∨ (complete = .ok none ∧ compact = .ok none) ∨
    ∃ found, complete = .ok (some found) ∧ relationText found = text ∧
      compact = (parseCompactRelation text).map some

section
variable {text : String}

theorem filter_compactRelation (items : List Relation) :
    (items.map compactRelation).filter (· = text) =
      List.replicate (items.filter (relationText · = text)).length text := by
  rw [List.eq_replicate_iff]
  constructor
  · rw [List.filter_map, List.length_map]
    rfl
  · intro value hvalue
    exact of_decide_eq_true (List.mem_filter.mp hvalue).2

theorem matchingRelation_mirrors (items : List Relation) :
    Mirrors text (matchingRelation (.complete items) text)
      (matchingRelation (.compact (items.map compactRelation)) text) := by
  simp only [matchingRelation, filter_compactRelation]
  have htext : ∀ item ∈ items.filter (relationText · = text), relationText item = text :=
    fun item hitem => of_decide_eq_true (List.mem_filter.mp hitem).2
  cases hfound : items.filter (relationText · = text) with
  | nil => exact .inr (.inl ⟨rfl, rfl⟩)
  | cons found rest =>
    cases rest with
    | nil =>
      refine .inr (.inr ⟨found, rfl, htext found (by simp [hfound]), ?_⟩)
      cases hparse : parseCompactRelation text <;>
        simp [uniqueRelation, hparse, refuseIf, bind, Except.bind, Except.map]
    | cons second rest =>
      refine .inl ⟨.invalid "native relation is ambiguous in rpm-md", ?_⟩
      cases hparse : parseCompactRelation text <;>
        simp [uniqueRelation, List.replicate, hparse, refuseIf, bind, Except.bind]

end

/-- The two forms of a package, as evidence. -/
def completeEvidence (p : CompletePackage) : PackageEvidence := .complete p

def compactEvidence (p : CompletePackage) : PackageEvidence := .compact (.fromComplete p)

/-- Two runs of a search that must find something: both fail, or the complete one finds a relation
with the text and the compact one reads the text. -/
def MirrorsFound (text : String) (complete compact : Except PlanError Relation) : Prop :=
  (∃ e e', complete = .error e ∧ compact = .error e') ∨
    ∃ found, complete = .ok found ∧ relationText found = text ∧ compact = parseCompactRelation text

theorem reverseRequirement_mirrors (p : CompletePackage) (text : String) :
    Mirrors text (reverseRequirement (completeEvidence p) text)
      (reverseRequirement (compactEvidence p) text) := by
  have hsupplement : Mirrors text (matchingRelation (completeEvidence p).supplements text)
      (matchingRelation (compactEvidence p).supplements text) := matchingRelation_mirrors _
  have henhance : Mirrors text (matchingRelation (completeEvidence p).enhances text)
      (matchingRelation (compactEvidence p).enhances text) := matchingRelation_mirrors _
  simp only [reverseRequirement]
  rcases hsupplement with ⟨e, e', h, h'⟩ | ⟨h, h'⟩ | ⟨found, h, htext, h'⟩
  · exact .inl ⟨e, e', by rw [h]; rfl, by rw [h']; rfl⟩
  · rw [h, h']
    rcases henhance with ⟨e, e', g, g'⟩ | ⟨g, g'⟩ | ⟨found, g, htext, g'⟩
    · exact .inl ⟨e, e', by rw [g]; rfl, by rw [g']; rfl⟩
    · exact .inr (.inl ⟨by rw [g]; rfl, by rw [g']; rfl⟩)
    · refine .inr (.inr ⟨found, by rw [g]; rfl, htext, ?_⟩)
      rw [g']
      cases parseCompactRelation text <;> rfl
  · rw [h, h']
    rcases henhance with ⟨e, e', g, g'⟩ | ⟨g, g'⟩ | ⟨other, g, -, g'⟩
    · rw [g, g']
      refine .inl ⟨e, ?_⟩
      cases parseCompactRelation text with
      | error e₂ => exact ⟨e₂, rfl, rfl⟩
      | ok r => exact ⟨e', rfl, rfl⟩
    · refine .inr (.inr ⟨found, by rw [g]; rfl, htext, ?_⟩)
      rw [g']
      cases parseCompactRelation text <;> rfl
    · -- found twice: the complete run refuses, the compact one fails to read or refuses
      rw [g, g']
      refine .inl ⟨.invalid "native reverse relation is ambiguous in rpm-md", ?_⟩
      cases parseCompactRelation text with
      | error e₂ => exact ⟨e₂, rfl, rfl⟩
      | ok r => exact ⟨_, rfl, rfl⟩

theorem decisionRequirement_mirrors (p : CompletePackage) (q : Option CompletePackage) (weak : Bool)
    (text : String) :
    MirrorsFound text (decisionRequirement (completeEvidence p) (q.map completeEvidence) weak text)
      (decisionRequirement (compactEvidence p) (q.map compactEvidence) weak text) := by
  have hdirect : Mirrors text
      (matchingRelation (if weak then (completeEvidence p).recommends
        else (completeEvidence p).requires) text)
      (matchingRelation (if weak then (compactEvidence p).recommends
        else (compactEvidence p).requires) text) := by
    cases weak <;> exact matchingRelation_mirrors _
  simp only [decisionRequirement]
  rcases hdirect with ⟨e, e', h, h'⟩ | ⟨h, h'⟩ | ⟨found, h, htext, h'⟩
  · exact .inl ⟨e, e', by rw [h]; rfl, by rw [h']; rfl⟩
  · rw [h, h']
    cases weak with
    | false => exact .inl ⟨_, _, rfl, rfl⟩
    | true =>
      cases q with
      | none => exact .inl ⟨_, _, rfl, rfl⟩
      | some q =>
        change MirrorsFound text
          (reverseRequirement (completeEvidence q) text >>= fun o => okOr o _)
          (reverseRequirement (compactEvidence q) text >>= fun o => okOr o _)
        rcases reverseRequirement_mirrors q text with ⟨e, e', g, g'⟩ | ⟨g, g'⟩ |
          ⟨found, g, htext, g'⟩
        · exact .inl ⟨e, e', by rw [g]; rfl, by rw [g']; rfl⟩
        · exact .inl ⟨_, _, by rw [g]; rfl, by rw [g']; rfl⟩
        · refine .inr ⟨found, by rw [g]; rfl, htext, ?_⟩
          rw [g']
          cases parseCompactRelation text <;> rfl
  · refine .inr ⟨found, by rw [h]; rfl, htext, ?_⟩
    rw [h']
    cases parseCompactRelation text <;> rfl

/-! ## One decision -/

/-- The packages as complete evidence, the way `from_native` passes them on. -/
def completeMetadata (metadata : List (String × CompletePackage)) : List (String × PackageEvidence) :=
  metadata.map fun (repository, package) => (repository, .complete package)

/-- The packages as compact evidence, the way `from_native_compact` passes them on. -/
def compactMetadata (metadata : List (String × CompletePackage)) :
    List (String × PackageEvidence) :=
  (metadata.map fun (repository, package) =>
    (repository, NativePackageEvidence.fromComplete package)).map
      fun (repository, package) => (repository, .compact package)

section
variable (metadata : List (String × CompletePackage))

/-- The two sides of a decision as packages. -/
def decisionPackages (requiringRepo requiring providerRepo provider : String)
    (providerInstalled : Bool) :
    Except PlanError (CompletePackage × Option CompletePackage) := do
  let find repository nevra := collected (metadata.map fun x =>
    ((x.1, (completeEvidence x.2).nevra), x.2)) (repository, nevra)
  let package ← okOr (find requiringRepo requiring)
    (.invalid "native requiring identity absent from rpm-md")
  if providerInstalled then return (package, none)
  else
    let provider ← okOr (find providerRepo provider)
      (.invalid "native provider identity absent from rpm-md")
    return (package, some provider)

/-- The metadata hold the packages in the given form. -/
def HoldsForm (form : CompletePackage → PackageEvidence) (evidence : List (String × PackageEvidence)) :
    Prop :=
  (∀ p, (form p).nevra = (completeEvidence p).nevra) ∧
    evidence = metadata.map fun x => (x.1, form x.2)

theorem holdsForm_complete : HoldsForm metadata completeEvidence (completeMetadata metadata) :=
  ⟨fun _ => rfl, rfl⟩

theorem holdsForm_compact : HoldsForm metadata compactEvidence (compactMetadata metadata) :=
  ⟨fun _ => rfl, by rw [compactMetadata, List.map_map]; rfl⟩

variable {metadata} {form : CompletePackage → PackageEvidence}
  {evidence : List (String × PackageEvidence)}

/-- Evidence in a form is found where the package is. -/
theorem HoldsForm.decisionEvidence (h : HoldsForm metadata form evidence)
    (requiringRepo requiring providerRepo provider : String) (providerInstalled : Bool) :
    decisionEvidence evidence requiringRepo requiring providerRepo provider providerInstalled =
      (decisionPackages metadata requiringRepo requiring providerRepo provider
        providerInstalled).map fun x => (form x.1, x.2.map form) := by
  obtain ⟨hform, rfl⟩ := h
  have hfind (repository nevra : String) :
      PackageEvidence.find (metadata.map fun x => (x.1, form x.2)) repository nevra =
        (collected (metadata.map fun x => ((x.1, (completeEvidence x.2).nevra), x.2))
          (repository, nevra)).map form := by
    rw [PackageEvidence.find, ← collected_map, List.map_map, List.map_map]
    simp only [Function.comp_def, hform]
  simp only [Solver.decisionEvidence, decisionPackages, hfind]
  cases hpackage : collected (metadata.map fun x => ((x.1, (completeEvidence x.2).nevra), x.2))
    (requiringRepo, requiring) with
  | none => rfl
  | some package =>
    cases providerInstalled with
    | true => rfl
    | false =>
      cases hprovider : collected (metadata.map fun x => ((x.1, (completeEvidence x.2).nevra), x.2))
          (providerRepo, provider) with
      | none => rfl
      | some provider => rfl

/-- The decision on an item between two repositories. -/
def decided (item : SolveDecision) (repositories : String × String) (requirement : Relation) :
    NativeDecision :=
  ⟨item.requiring, repositories.1, requirement, if item.weak then .weak else .strong, item.provider,
    repositories.2, item.providerInstalled⟩

variable {identities : List (String × String)} {item : SolveDecision}
  {repositories : String × String}

theorem HoldsForm.nativeDecision (h : HoldsForm metadata form evidence)
    (hrepositories : decisionRepositories identities item = .ok repositories) :
    nativeDecision identities evidence item =
      (decisionPackages metadata repositories.1 item.requiring repositories.2 item.provider
        item.providerInstalled) >>= fun packages =>
      (decisionRequirement (form packages.1) (packages.2.map form) item.weak item.relation).map
        (decided item repositories) := by
  simp only [Solver.nativeDecision, hrepositories, Except.ok_bind, h.decisionEvidence]
  cases decisionPackages metadata repositories.1 item.requiring repositories.2 item.provider
    item.providerInstalled with
  | error e => rfl
  | ok packages => rfl

/-- The check of a decision looks in the same packages. -/
theorem HoldsForm.checkRequirement (h : HoldsForm metadata form evidence)
    {packages : CompletePackage × Option CompletePackage} (requirement : Relation)
    (hpackages : decisionPackages metadata repositories.1 item.requiring repositories.2 item.provider
      item.providerInstalled = .ok packages) :
    checkRequirement evidence (decided item repositories requirement) = .ok () ↔
      decisionRequirement (form packages.1) (packages.2.map form) item.weak
        (relationText requirement) = .ok requirement := by
  have hweak : decide ((decided item repositories requirement).kind = .weak) = item.weak := by
    cases hitem : item.weak <;> simp [decided, hitem]
  have hcheck : Solver.checkRequirement evidence (decided item repositories requirement) = (do
      let found ← decisionRequirement (form packages.1) (packages.2.map form) item.weak
        (relationText requirement)
      refuseIf (found ≠ requirement) (.invalid "native decision relation differs from rpm-md")) := by
    unfold Solver.checkRequirement
    rw [hweak]
    change (Solver.decisionEvidence evidence repositories.1 item.requiring repositories.2
      item.provider item.providerInstalled >>= _) = _
    rw [h.decisionEvidence, hpackages]
    rfl
  rw [hcheck, Except.bind_eq_ok]
  constructor
  · rintro ⟨found, hfound, hsame⟩
    rw [Except.refuseIf_eq_ok, not_not] at hsame
    rwa [hsame] at hfound
  · intro hfound
    exact ⟨requirement, hfound, by simp⟩

/-- What the two runs make of one decision of the solver. -/
structure DecidesAlike (metadata : List (String × CompletePackage))
    (identities : List (String × String)) (item : SolveDecision) (d : Relation → NativeDecision)
    (found : Relation) : Prop where
  complete : nativeDecision identities (completeMetadata metadata) item = .ok (d found)
  compact : nativeDecision identities (compactMetadata metadata) item =
    (parseCompactRelation item.relation).map d
  /-- The relation is found again. -/
  checked : checkRequirement (completeMetadata metadata) (d found) = .ok ()
  /-- The relation that was read is found again when its text is written again. -/
  checkedCompact : ∀ r, parseCompactRelation item.relation = .ok r →
    (checkRequirement (compactMetadata metadata) (d r) = .ok () ↔ r.epoch ≠ some "0")

/-- Both runs refuse a decision, or they decide alike. -/
theorem nativeDecision_cases (metadata : List (String × CompletePackage))
    (identities : List (String × String)) (item : SolveDecision) :
    (∃ e e', nativeDecision identities (completeMetadata metadata) item = .error e ∧
      nativeDecision identities (compactMetadata metadata) item = .error e') ∨
    ∃ repositories found,
      DecidesAlike metadata identities item (decided item repositories) found := by
  cases hrepositories : decisionRepositories identities item with
  | error e =>
    refine .inl ⟨e, e, ?_, ?_⟩ <;> simp only [nativeDecision, hrepositories] <;> rfl
  | ok repositories =>
    have hcomplete := (holdsForm_complete metadata).nativeDecision hrepositories
    have hcompact := (holdsForm_compact metadata).nativeDecision hrepositories
    cases hpackages : decisionPackages metadata repositories.1 item.requiring repositories.2
        item.provider item.providerInstalled with
    | error e =>
      rw [hpackages] at hcomplete hcompact
      exact .inl ⟨e, e, hcomplete, hcompact⟩
    | ok packages =>
      rw [hpackages, Except.ok_bind] at hcomplete hcompact
      rcases decisionRequirement_mirrors packages.1 packages.2 item.weak item.relation with
        ⟨e, e', h, h'⟩ | ⟨found, h, htext, h'⟩
      · rw [h] at hcomplete
        rw [h'] at hcompact
        exact .inl ⟨e, e', hcomplete, hcompact⟩
      · rw [h] at hcomplete
        rw [h'] at hcompact
        refine .inr ⟨repositories, found, hcomplete, hcompact, ?_, fun r hr => ?_⟩
        · rw [(holdsForm_complete metadata).checkRequirement found hpackages, htext, h]
        · rw [(holdsForm_compact metadata).checkRequirement r hpackages,
            ← relationText_of_parse hr]
          constructor
          · intro hfound
            rcases decisionRequirement_mirrors packages.1 packages.2 item.weak (relationText r)
              with ⟨e, e', -, hfail⟩ | ⟨-, -, -, hread⟩
            · rw [hfail] at hfound
              cases hfound
            · -- two texts that are read alike are the same
              exact parseCompactRelation_inj (hread.symm.trans hfound) hr
          · intro hsame
            rw [hsame, h', hr]

end

/-! ## Whole runs -/

/-- The decisions differ at most in the relation. -/
def SameSides (d d' : NativeDecision) : Prop := ∃ r, d' = { d with requirement := r }

theorem SameSides.symm {d d' : NativeDecision} (h : SameSides d d') : SameSides d' d := by
  obtain ⟨r, rfl⟩ := h
  exact ⟨d.requirement, rfl⟩

theorem SameSides.checkSides {d d' : NativeDecision} (h : SameSides d d')
    (actions : List (String × String)) (inventory : InstalledInventory) :
    checkSides actions inventory d' = checkSides actions inventory d := by
  obtain ⟨r, rfl⟩ := h
  rfl

/-- A part of the decisions is handled alike when the relation does not matter. -/
theorem filter_mapM_eq {ds ds' : List NativeDecision} {P : NativeDecision → Bool}
    {f : NativeDecision → Except PlanError DependencyEdge}
    (hP : ∀ d r, P { d with requirement := r } = P d)
    (hf : ∀ d r, f { d with requirement := r } = f d) (h : List.Forall₂ SameSides ds ds') :
    (ds'.filter P).mapM f = (ds.filter P).mapM f := by
  induction h with
  | nil => rfl
  | cons hr _ ih =>
    obtain ⟨r, rfl⟩ := hr
    rw [List.filter_cons, List.filter_cons, hP]
    split
    · rw [List.mapM_cons, List.mapM_cons, ih, hf]
    · exact ih

/-- The edges of an action do not depend on the relations. -/
theorem edgesOf_eq {output output' : NativeSolveOutput} (a : NativeAction)
    (h : List.Forall₂ SameSides output.decisions output'.decisions) :
    output'.edgesOf a = output.edgesOf a :=
  filter_mapM_eq (fun _ _ => rfl) (fun _ _ => rfl) h

section
variable {output output' : NativeSolveOutput} {result : SolveResult} {digest : String}
  {requested : List String} {candidates : List CandidatePackage}
  {evidence evidence' : List (String × PackageEvidence)} {metadata : List (String × CompletePackage)}
  {inventory : InstalledInventory} {actions : List ResolvedAction}

/-- The output with other decisions is resolved to the same actions, if only the relations of the
decisions differ and they are found again. -/
theorem Resolves.of_sameSides {decisions : List NativeDecision}
    {expected assigned satisfied : List String}
    (h : Resolves output requested candidates evidence inventory expected assigned satisfied actions)
    (hsides : List.Forall₂ SameSides output.decisions decisions)
    (hchecked : ∀ d ∈ decisions, checkRequirement evidence' d = .ok ()) :
    Resolves { output with decisions := decisions } requested candidates evidence' inventory expected
      assigned satisfied actions where
  digest := h.digest
  parsed := h.parsed
  expectedOnce := h.expectedOnce
  identities := h.identities
  assigns := h.assigns
  satisfies := h.satisfies
  provenance := h.provenance
  sides d' hd' := by
    obtain ⟨d, hd, hsame⟩ := hsides.exists_left hd'
    rw [hsame.checkSides]
    exact h.sides d hd
  requirements := hchecked
  resolved := by
    refine h.resolved.imp fun a r hr => ?_
    rw [← hr]
    simp only [NativeSolveOutput.resolveAction]
    rw [@edgesOf_eq output { output with decisions := decisions } a hsides]

/-- The pipeline over evidence in one form. -/
def resolveEvidence (result : SolveResult) (digest : String) (requested : List String)
    (candidates : List CandidatePackage) (evidence : List (String × PackageEvidence))
    (inventory : InstalledInventory) : Except PlanError (List ResolvedAction) := do
  let output ← NativeSolveOutput.fromNativeEvidence result digest evidence inventory
  output.intoResolvedEvidence requested candidates evidence inventory

theorem resolveEvidence_eq_ok :
    resolveEvidence result digest requested candidates evidence inventory = .ok actions ↔
      ∃ output expected assigned satisfied, Reads result digest evidence inventory output ∧
        Resolves output requested candidates evidence inventory expected assigned satisfied
          actions := by
  unfold resolveEvidence
  simp only [Except.bind_eq_ok, fromNativeEvidence_eq_ok, intoResolvedEvidence_eq_ok]
  constructor
  · rintro ⟨output, hreads, expected, assigned, satisfied, hresolves⟩
    exact ⟨output, expected, assigned, satisfied, hreads, hresolves⟩
  · rintro ⟨output, expected, assigned, satisfied, hreads, hresolves⟩
    exact ⟨output, hreads, expected, assigned, satisfied, hresolves⟩

/-- A run that makes the same decisions but for the relations, and finds these again, has the same
result. -/
theorem resolveEvidence_of_lift {S : SolveDecision → Prop}
    (hlift : ∀ identities item d, nativeDecision identities evidence item = .ok d →
      checkRequirement evidence d = .ok () → S item →
      ∃ d', nativeDecision identities evidence' item = .ok d' ∧ SameSides d d' ∧
        checkRequirement evidence' d' = .ok ())
    (hitems : ∀ item ∈ result.decisions, S item)
    (h : resolveEvidence result digest requested candidates evidence inventory = .ok actions) :
    resolveEvidence result digest requested candidates evidence' inventory = .ok actions := by
  obtain ⟨output, expected, assigned, satisfied, hreads, hresolves⟩ := resolveEvidence_eq_ok.mp h
  obtain ⟨identities, raw, hidentities, hraw, hpaired, hdecisions⟩ := hreads.rest
  obtain ⟨decisions, hmade, hsame⟩ := hdecisions.exists_lift fun item hitem d hd hmade =>
    hlift identities item d hmade (hresolves.requirements d hd) (hitems item hitem)
  have hsides : List.Forall₂ SameSides output.decisions decisions := hsame.imp fun _ _ h => h.1
  have hchecked : ∀ d ∈ decisions, checkRequirement evidence' d = .ok () := by
    intro d hd
    obtain ⟨_, -, hd'⟩ := hsame.exists_left hd
    exact hd'.2
  exact resolveEvidence_eq_ok.mpr ⟨{ output with decisions := decisions }, expected, assigned,
    satisfied, ⟨hreads.columns, ⟨identities, raw, hidentities, hraw, hpaired, hmade⟩,
      hreads.satisfied, hreads.transcript⟩, hresolves.of_sameSides hsides hchecked⟩

/-- What survives is read by the compact run too. -/
theorem compact_of_complete {identities : List (String × String)} {item : SolveDecision}
    {d : NativeDecision}
    (h : nativeDecision identities (completeMetadata metadata) item = .ok d)
    (hsurvives : Survives item.relation) :
    ∃ d', nativeDecision identities (compactMetadata metadata) item = .ok d' ∧ SameSides d d' ∧
      checkRequirement (compactMetadata metadata) d' = .ok () := by
  obtain ⟨r, hr, hepoch⟩ := hsurvives
  rcases nativeDecision_cases metadata identities item with ⟨e, -, hfail, -⟩ |
    ⟨repositories, found, halike⟩
  · rw [hfail] at h
    cases h
  · rw [halike.complete] at h
    cases h
    refine ⟨decided item repositories r, ?_, ⟨r, rfl⟩, (halike.checkedCompact r hr).mpr hepoch⟩
    rw [halike.compact, hr]
    rfl

/-- What the compact run reads and finds again survives, and the complete run decides alike. -/
theorem complete_of_compact {identities : List (String × String)} {item : SolveDecision}
    {d' : NativeDecision}
    (h : nativeDecision identities (compactMetadata metadata) item = .ok d')
    (hchecked : checkRequirement (compactMetadata metadata) d' = .ok ()) :
    Survives item.relation ∧
    ∃ d, nativeDecision identities (completeMetadata metadata) item = .ok d ∧ SameSides d' d ∧
      checkRequirement (completeMetadata metadata) d = .ok () := by
  rcases nativeDecision_cases metadata identities item with ⟨-, e', -, hfail⟩ |
    ⟨repositories, found, halike⟩
  · rw [hfail] at h
    cases h
  · rw [halike.compact, Except.map_eq_ok] at h
    obtain ⟨r, hr, rfl⟩ := h
    exact ⟨⟨r, hr, (halike.checkedCompact r hr).mp hchecked⟩, decided item repositories found,
      halike.complete, ⟨found, rfl⟩, halike.checked⟩

end

/-- `from_native`, then `into_resolved`. -/
def resolveComplete (result : SolveResult) (digest : String) (requested : List String)
    (candidates : List CandidatePackage) (metadata : List (String × CompletePackage))
    (inventory : InstalledInventory) : Except PlanError (List ResolvedAction) := do
  let output ← NativeSolveOutput.fromNative result digest metadata inventory
  output.intoResolved requested candidates metadata inventory

/-- `from_native_compact`, then `into_resolved_compact`. -/
def resolveCompact (result : SolveResult) (digest : String) (requested : List String)
    (candidates : List CandidatePackage) (metadata : List (String × NativePackageEvidence))
    (inventory : InstalledInventory) : Except PlanError (List ResolvedAction) := do
  let output ← NativeSolveOutput.fromNativeCompact result digest metadata inventory
  output.intoResolvedCompact requested candidates metadata inventory

/-- Both fail, or both return the same actions. -/
def SameOutcome (x y : Except PlanError (List ResolvedAction)) : Prop :=
  (∃ e e', x = .error e ∧ y = .error e') ∨ ∃ actions, x = .ok actions ∧ y = .ok actions

/-- The same packages in the compact form. -/
def compacted (metadata : List (String × CompletePackage)) : List (String × NativePackageEvidence) :=
  metadata.map fun (repository, package) => (repository, .fromComplete package)

/-- The two runs have the same outcome exactly when the relation of every decision survives, or the
complete run fails on account of something else. -/
theorem compact_agrees_iff (result : SolveResult) (digest : String) (requested : List String)
    (candidates : List CandidatePackage) (metadata : List (String × CompletePackage))
    (inventory : InstalledInventory) :
    SameOutcome (resolveComplete result digest requested candidates metadata inventory)
      (resolveCompact result digest requested candidates (compacted metadata) inventory) ↔
    ((resolveComplete result digest requested candidates metadata inventory).isOk →
      ∀ item ∈ result.decisions, Survives item.relation) := by
  have hcomplete : resolveComplete result digest requested candidates metadata inventory =
      resolveEvidence result digest requested candidates (completeMetadata metadata) inventory := rfl
  have hcompact : resolveCompact result digest requested candidates (compacted metadata) inventory =
      resolveEvidence result digest requested candidates (compactMetadata metadata) inventory := rfl
  rw [hcomplete, hcompact]
  -- a compact run that succeeds has both: the texts survive and the complete run does as well
  have hback (actions : List ResolvedAction)
      (h : resolveEvidence result digest requested candidates (compactMetadata metadata) inventory =
        .ok actions) :
      (∀ item ∈ result.decisions, Survives item.relation) ∧
      resolveEvidence result digest requested candidates (completeMetadata metadata) inventory =
        .ok actions := by
    refine ⟨fun item hitem => ?_, resolveEvidence_of_lift (S := fun _ => True)
      (fun _ _ _ hmade hchecked _ => (complete_of_compact hmade hchecked).2) (fun _ _ => trivial) h⟩
    obtain ⟨output, _, _, _, hreads, hresolves⟩ := resolveEvidence_eq_ok.mp h
    obtain ⟨identities, raw, -, -, -, hdecisions⟩ := hreads.rest
    obtain ⟨d, hd, hmade⟩ := hdecisions.exists_right hitem
    exact (complete_of_compact hmade (hresolves.requirements d hd)).1
  constructor
  · rintro (⟨e, -, hfail, -⟩ | ⟨actions, -, hok⟩)
    · rw [hfail]
      rintro ⟨⟩
    · exact fun _ => (hback actions hok).1
  · intro hsurvive
    cases hrun : resolveEvidence result digest requested candidates (completeMetadata metadata)
        inventory with
    | ok actions =>
      rw [hrun] at hsurvive
      exact .inr ⟨actions, rfl, resolveEvidence_of_lift
        (fun _ _ _ hmade _ hitem => compact_of_complete hmade hitem) (hsurvive rfl) hrun⟩
    | error e =>
      cases hrun' : resolveEvidence result digest requested candidates (compactMetadata metadata)
          inventory with
      | error e' => exact .inl ⟨e, e', rfl, rfl⟩
      | ok actions =>
        rw [(hback actions hrun').2] at hrun
        cases hrun

/-! An installation of two packages, one of which requires the other by a rich dependency. -/

def packageRequiring (name : String) (requires : List Relation) : CompletePackage :=
  ⟨name, "x86_64", "0", "1", "1.fc44", requires, [], [], []⟩

/-- The relation of a rich dependency has the whole text as its name. -/
def richRelation : Relation := ⟨"(lib >= 0:1.0 or other)", none, none, none, none, false⟩

def appRequiresLib : List (String × CompletePackage) :=
  [("fedora", packageRequiring "app" [richRelation]), ("fedora", packageRequiring "lib" [])]

def solvedAppAndLib : SolveResult where
  actions := ["app-0:1-1.fc44.x86_64", "lib-0:1-1.fc44.x86_64"]
  repositories := ["fedora", "fedora"]
  kinds := ["install", "install"]
  obsoletes := [none, none]
  requestedSpecs := [some "app", none]
  requestedRelationKinds := [false, false]
  satisfiedSpecs := []
  decisions := [⟨"app-0:1-1.fc44.x86_64", "lib-0:1-1.fc44.x86_64", "(lib >= 0:1.0 or other)", false,
    false⟩]

/-- The complete run resolves the two installations, and the compact one refuses them. -/
theorem rich_relation_not_alike :
    ¬ SameOutcome
      (resolveComplete solvedAppAndLib Core.zeroDigest.asStr ["app"] installBuilder.candidates
        appRequiresLib noPackages)
      (resolveCompact solvedAppAndLib Core.zeroDigest.asStr ["app"] installBuilder.candidates
        (compacted appRequiresLib) noPackages) := by
  have hcomplete : (resolveComplete solvedAppAndLib Core.zeroDigest.asStr ["app"]
      installBuilder.candidates appRequiresLib noPackages).isOk = true := by decide +kernel
  have hcompact : (resolveCompact solvedAppAndLib Core.zeroDigest.asStr ["app"]
      installBuilder.candidates (compacted appRequiresLib) noPackages).isOk = false := by
    decide +kernel
  rintro (⟨e, -, hfail, -⟩ | ⟨actions, -, hok⟩)
  · rw [hfail] at hcomplete
    cases hcomplete
  · rw [hok] at hcompact
    cases hcompact

end Dnfast.Solver
