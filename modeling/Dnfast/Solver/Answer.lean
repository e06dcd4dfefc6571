import Dnfast.Data.Forall2
import Dnfast.Solver.Native

/-! # What a successful reading of the answer consists of

`fromNativeEvidence_eq_ok` and `intoResolvedEvidence_eq_ok` list what the two functions of the
adapter went through when they succeed. -/

namespace Dnfast.Solver

open Dnfast.Core (InstalledInventory PackageSpec)

/-- What `from_native_evidence` checks and makes. -/
structure Reads (result : SolveResult) (digest : String) (metadata : List (String × PackageEvidence))
    (inventory : InstalledInventory) (output : NativeSolveOutput) : Prop where
  columns : result.columnsAgree = true
  rest : ∃ identities raw,
    repositoryIdentities [] (result.actions.zip result.repositories) = .ok identities ∧
    List.Forall₂ (fun row a => rowAction row = .ok a) result.rows raw ∧
    pairActions raw inventory = .ok output.actions ∧
    List.Forall₂ (fun item d => nativeDecision identities metadata item = .ok d) result.decisions
      output.decisions
  satisfied : result.satisfiedSpecs.mapM PackageSpec.parse = .ok output.satisfiedSpecs
  transcript : output.sourceTranscriptSha256 = digest

theorem fromNativeEvidence_eq_ok {result : SolveResult} {digest : String}
    {metadata : List (String × PackageEvidence)} {inventory : InstalledInventory}
    {output : NativeSolveOutput} :
    NativeSolveOutput.fromNativeEvidence result digest metadata inventory = .ok output ↔
      Reads result digest metadata inventory output := by
  unfold NativeSolveOutput.fromNativeEvidence
  rw [Except.check_bind_eq_ok]
  constructor
  · rintro ⟨hcolumns, h⟩
    obtain ⟨identities, hidentities, h⟩ := Except.bind_eq_ok.mp h
    obtain ⟨raw, hraw, h⟩ := Except.bind_eq_ok.mp h
    obtain ⟨actions, hactions, h⟩ := Except.bind_eq_ok.mp h
    obtain ⟨decisions, hdecisions, h⟩ := Except.bind_eq_ok.mp h
    obtain ⟨satisfied, hsatisfied, h⟩ := Except.bind_eq_ok.mp h
    obtain rfl := Except.pure_eq_ok.mp h
    exact ⟨by simpa using hcolumns, ⟨identities, raw, hidentities, Except.mapM_eq_ok.mp hraw,
      hactions, Except.mapM_eq_ok.mp hdecisions⟩, Except.mapError_eq_ok.mp hsatisfied, rfl⟩
  · rintro ⟨hcolumns, ⟨identities, raw, hidentities, hraw, hactions, hdecisions⟩, hsatisfied, rfl⟩
    refine ⟨by simpa using hcolumns, Except.bind_eq_ok.mpr ⟨identities, hidentities,
      Except.bind_eq_ok.mpr ⟨raw, Except.mapM_eq_ok.mpr hraw,
      Except.bind_eq_ok.mpr ⟨output.actions, hactions,
      Except.bind_eq_ok.mpr ⟨output.decisions, Except.mapM_eq_ok.mpr hdecisions,
      Except.bind_eq_ok.mpr ⟨output.satisfiedSpecs, Except.mapError_eq_ok.mpr hsatisfied, rfl⟩⟩⟩⟩⟩⟩

/-- What `into_resolved_evidence` checks and makes. -/
structure Resolves (output : NativeSolveOutput) (requested : List String)
    (candidates : List CandidatePackage) (metadata : List (String × PackageEvidence))
    (inventory : InstalledInventory) (expected assigned satisfied : List String)
    (actions : List ResolvedAction) : Prop where
  digest : output.sourceTranscriptSha256.utf8ByteSize = 64 ∧
    output.sourceTranscriptSha256.toList.all Core.isAsciiHexdigit
  parsed : (requested.mapM fun value => (PackageSpec.parse value).map (·.asStr)) = .ok expected
  expectedOnce : expected.Nodup
  identities : (output.actions.map fun a => (a.nevra, a.repository)).Nodup
  assigns : assignedSpecs expected [] output.actions = .ok assigned
  satisfies : satisfiedSelectors expected assigned [] output.satisfiedSpecs = .ok satisfied
  provenance : assigned.length + satisfied.length = expected.length
  sides : ∀ d ∈ output.decisions,
    checkSides (output.actions.map fun a => (a.nevra, a.repository)) inventory d = .ok ()
  requirements : ∀ d ∈ output.decisions, checkRequirement metadata d = .ok ()
  resolved : List.Forall₂
    (fun a r => output.resolveAction candidates inventory (expected = []) a = .ok r)
    output.actions actions

theorem intoResolvedEvidence_eq_ok {output : NativeSolveOutput} {requested : List String}
    {candidates : List CandidatePackage} {metadata : List (String × PackageEvidence)}
    {inventory : InstalledInventory} {actions : List ResolvedAction} :
    output.intoResolvedEvidence requested candidates metadata inventory = .ok actions ↔
      ∃ expected assigned satisfied, Resolves output requested candidates metadata inventory expected
        assigned satisfied actions := by
  unfold NativeSolveOutput.intoResolvedEvidence
  rw [Except.check_bind_eq_ok]
  constructor
  · rintro ⟨hdigest, h⟩
    obtain ⟨expected, hexpected, h⟩ := Except.bind_eq_ok.mp h
    obtain ⟨honce, h⟩ := Except.check_bind_eq_ok.mp h
    obtain ⟨hids, h⟩ := Except.check_bind_eq_ok.mp h
    obtain ⟨assigned, hassigned, h⟩ := Except.bind_eq_ok.mp h
    obtain ⟨satisfied, hsatisfied, h⟩ := Except.bind_eq_ok.mp h
    obtain ⟨hlength, h⟩ := Except.check_bind_eq_ok.mp h
    obtain ⟨hdecisions, h⟩ := Except.check_bind_eq_ok.mp h
    rw [Except.refuseIf_eq_ok, not_not] at hdigest honce hids hlength
    have hchecked := Except.forM_eq_ok.mp hdecisions
    simp only [checkDecision, Except.check_bind_eq_ok] at hchecked
    exact ⟨expected, assigned, satisfied, hdigest, Except.mapError_eq_ok.mp hexpected, honce, hids,
      hassigned, hsatisfied, hlength, fun d hd => (hchecked d hd).1, fun d hd => (hchecked d hd).2,
      Except.mapM_eq_ok.mp h⟩
  · rintro ⟨expected, assigned, satisfied, h⟩
    refine ⟨Except.refuseIf_eq_ok.mpr (not_not.mpr h.digest),
      Except.bind_eq_ok.mpr ⟨expected, Except.mapError_eq_ok.mpr h.parsed, ?_⟩⟩
    rw [Except.check_bind_eq_ok, Except.refuseIf_eq_ok, not_not]
    refine ⟨h.expectedOnce, Except.check_bind_eq_ok.mpr
      ⟨Except.refuseIf_eq_ok.mpr (not_not.mpr h.identities),
      Except.bind_eq_ok.mpr ⟨assigned, h.assigns,
      Except.bind_eq_ok.mpr ⟨satisfied, h.satisfies, ?_⟩⟩⟩⟩
    rw [Except.check_bind_eq_ok, Except.refuseIf_eq_ok, not_not, Except.check_bind_eq_ok,
      Except.forM_eq_ok]
    exact ⟨h.provenance, fun d hd => Except.check_bind_eq_ok.mpr ⟨h.sides d hd, h.requirements d hd⟩,
      Except.mapM_eq_ok.mpr h.resolved⟩

end Dnfast.Solver
