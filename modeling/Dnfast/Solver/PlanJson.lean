import Dnfast.Json.Parse
import Dnfast.Solver.Plan

/-! # Solver plans as documents

The canonical JSON of a solver plan: the members of each object in the order of their keys. Plans are
compared as these bytes. A plan lists its explained actions in order, so plans with the same bytes
list the same names in the same order. -/

namespace Dnfast.Solver

open Json (Value optionValue)

def DependencyKind.asStr : DependencyKind → String
  | strong => "strong"
  | weak => "weak"

def DependencyEdge.toValue (edge : DependencyEdge) : Value :=
  .obj [("kind", .str edge.kind.asStr), ("parent", .str edge.parent)]

def RequestedRelation.asStr : RequestedRelation → String
  | requested => "requested"
  | dependency => "dependency"
  | weakDependency => "weak_dependency"

def ArtifactRecord.toValue (record : ArtifactRecord) : Value :=
  .obj [("checksum_sha256", .str record.checksumSha256), ("location", .str record.location),
    ("package_size", .num record.packageSize.toNat)]

def PlanProtection.toValue (protection : PlanProtection) : Value :=
  .obj [("installonly", .bool protection.installonly), ("protected", .bool protection.isProtected),
    ("running_kernel", .bool protection.runningKernel)]

def ExplainedAction.toValue (a : ExplainedAction) : Value :=
  .obj ([("artifact", optionValue ArtifactRecord.toValue a.artifact),
    ("dependency_edges", .arr (a.dependencyEdges.map DependencyEdge.toValue)),
    ("explanation", .str a.explanation),
    ("installed_evra", optionValue Core.Evra.toValue a.installedEvra)] ++
    Core.optionalMember "installed_header_sha256" .str a.installedHeaderSha256 ++
    [("installed_instance", optionValue (fun n : UInt64 => .num n.toNat) a.installedInstance),
    ("installed_size", .num a.installedSize.toNat),
    ("installed_vendor", optionValue .str a.installedVendor), ("name", .str a.name),
    ("operation", .str a.operation), ("package_size", .num a.packageSize.toNat),
    ("protection", a.protection.toValue),
    ("provenance", optionValue Core.ActionProvenance.toValue a.provenance),
    ("reason", .str a.reason.asStr), ("relation", .str a.relation.asStr),
    ("repo_id", optionValue .str a.repoId), ("requested_by", optionValue .str a.requestedBy),
    ("target_evra", a.targetEvra.toValue), ("vendor", optionValue .str a.vendor)])

namespace CanonicalSolverPlan

def toValue (plan : CanonicalSolverPlan) : Value :=
  .obj [("actions", .arr (plan.actions.map ExplainedAction.toValue)),
    ("proposal", plan.proposal.toValue), ("schema", .str plan.schema)]

def canonicalJson (plan : CanonicalSolverPlan) : Except PlanError (List UInt8) := do
  plan.validate
  return plan.toValue.render

end CanonicalSolverPlan

theorem render_injective : Function.Injective Value.render := by
  intro v w h
  have hparse := Json.parse_render v
  rw [h, Json.parse_render w, Option.some.injEq] at hparse
  exact hparse.symm

/-- The action's name stands in its form. -/
theorem ExplainedAction.name_eq_of_toValue {a a' : ExplainedAction} (h : a.toValue = a'.toValue) :
    a.name = a'.name := by
  have hmembers : ∀ (x : ExplainedAction), ∃ ms, x.toValue = .obj ms ∧
      ms.find? (·.1 = "name") = some ("name", .str x.name) := by
    intro x
    refine ⟨_, rfl, ?_⟩
    cases x.installedHeaderSha256 <;> rfl
  obtain ⟨ms, hms, hfind⟩ := hmembers a
  obtain ⟨ms', hms', hfind'⟩ := hmembers a'
  rw [hms, hms', Value.obj.injEq] at h
  rw [h, hfind', Option.some.injEq, Prod.mk.injEq, Value.str.injEq] at hfind
  exact hfind.2.symm

/-- Plans with the same bytes list the same names. -/
theorem CanonicalSolverPlan.names_eq_of_canonicalJson {plan plan' : CanonicalSolverPlan}
    {bytes : List UInt8} (h : plan.canonicalJson = .ok bytes) (h' : plan'.canonicalJson = .ok bytes) :
    plan.actions.map (·.name) = plan'.actions.map (·.name) := by
  rw [canonicalJson, Except.check_bind_eq_ok, Except.pure_eq_ok] at h h'
  have hvalue := render_injective (h.2.trans h'.2.symm)
  simp only [toValue, Value.obj.injEq, List.cons.injEq, Prod.mk.injEq, Value.arr.injEq] at hvalue
  have hactions := hvalue.1.2
  generalize plan.actions = as at hactions
  generalize plan'.actions = as' at hactions
  induction as generalizing as' with
  | nil =>
    cases as' with
    | nil => rfl
    | cons a' as' => exact nomatch hactions
  | cons a as ih =>
    cases as' with
    | nil => exact nomatch hactions
    | cons a' as' =>
      rw [List.map_cons, List.map_cons, List.cons.injEq] at hactions
      rw [List.map_cons, List.map_cons, ExplainedAction.name_eq_of_toValue hactions.1,
        ih as' hactions.2]

end Dnfast.Solver
