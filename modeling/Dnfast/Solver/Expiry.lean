import Dnfast.Core.Executable
import Dnfast.Solver.Plan

/-! # The time of expiry of a plan

A plan is built with a time of expiry. It goes into the proposal and decides nothing, so that two
plans for the same answer are equal up to it. -/

namespace Dnfast.Core

theorem PlanEnvelope.validateNow_zero (plan : PlanEnvelope) (expiresAtUnix : UInt64) :
    { plan with expiresAtUnix }.validateNow 0 = plan.validateNow 0 := by
  have hnever : ∀ t : UInt64, ¬ 0 > t := fun t => UInt64.not_lt.mpr UInt64.zero_le
  simp only [validateNow, hnever, Except.refuseIf, if_false]
  rfl

theorem PlanEnvelope.validateExecutable_zero (plan : PlanEnvelope) (expiresAtUnix : UInt64)
    (policy : SolverPolicy) : { plan with expiresAtUnix }.validateExecutable policy 0 =
      plan.validateExecutable policy 0 := by
  simp only [validateExecutable, validateNow_zero]
  rfl

end Dnfast.Core

namespace Dnfast.Solver

/-- The plan with another time of expiry. -/
def CanonicalSolverPlan.withExpiry (plan : CanonicalSolverPlan) (expiresAtUnix : UInt64) :
    CanonicalSolverPlan :=
  { plan with proposal := { plan.proposal with expiresAtUnix } }

/-- The plans are equal up to their time of expiry. -/
def CanonicalSolverPlan.SameUpToExpiry (plan plan' : CanonicalSolverPlan) : Prop :=
  plan.withExpiry 0 = plan'.withExpiry 0

theorem CanonicalSolverPlan.validate_withExpiry (plan : CanonicalSolverPlan) (expiresAtUnix : UInt64) :
    (plan.withExpiry expiresAtUnix).validate = plan.validate := by
  have hjson : ∀ p : Core.PlanEnvelope, p.toCanonicalJson =
    (p.validateNow 0).map fun _ => Core.canonicalEncode p := by
      intro p
      rw [Core.PlanEnvelope.toCanonicalJson]
      cases p.validateNow 0 <;> rfl
  simp only [validate, withExpiry, hjson, Core.PlanEnvelope.validateNow_zero]
  cases plan.proposal.validateNow 0 <;> rfl

theorem PlanBuilder.checkActions_withExpiry (b : PlanBuilder) (actions as : List ResolvedAction)
    (seen : List (ResolvedOperation × String × Option UInt64 × Option (Core.Evra × String)))
    (expiresAtUnix : UInt64) : { b with expiresAtUnix }.checkActions actions seen as =
      b.checkActions actions seen as := by
  induction as generalizing seen with
  | nil => rfl
  | cons a as ih =>
    simp only [checkActions, ih]
    rfl

theorem PlanBuilder.validateInputs_withExpiry (b : PlanBuilder) (resolved : List ResolvedAction)
    (satisfied : List Core.PackageSpec) (expiresAtUnix : UInt64) :
    { b with expiresAtUnix }.validateInputs resolved satisfied =
      b.validateInputs resolved satisfied := by
  simp only [validateInputs, checkActions_withExpiry]
  rfl

/-- The time of expiry is written into the proposal, and no check depends on it. -/
theorem PlanBuilder.buildWithSatisfied_withExpiry (b : PlanBuilder) (resolved : List ResolvedAction)
    (satisfied : List Core.PackageSpec) (expiresAtUnix : UInt64) :
    { b with expiresAtUnix }.buildWithSatisfied resolved satisfied =
      (b.buildWithSatisfied resolved satisfied).map (·.withExpiry expiresAtUnix) := by
  have hnew : ∀ t actions, Core.PlanEnvelope.new b.intent b.snapshots t actions =
      (Core.PlanEnvelope.new b.intent b.snapshots b.expiresAtUnix actions).map
        fun proposal => { proposal with expiresAtUnix := t } := by
    intro t actions
    simp only [Core.PlanEnvelope.new]
    cases b.snapshots.validate with
    | error e => rfl
    | ok u => cases Core.canonicalActions actions <;> rfl
  have haction : { b with expiresAtUnix }.action = b.action := rfl
  simp only [buildWithSatisfied, validateInputs_withExpiry, haction, hnew expiresAtUnix]
  cases b.policy.validate.mapError unsafeError with
  | error e => rfl
  | ok u =>
    cases b.validateInputs resolved satisfied with
    | error e => rfl
    | ok u =>
      simp only [Except.ok_bind]
      cases resolved.mapM b.action with
      | error e => rfl
      | ok actions =>
        simp only [Except.ok_bind]
        cases executionOrder resolved actions with
        | error e => rfl
        | ok actions =>
          simp only [Except.ok_bind]
          cases actions.mapM coreAction with
          | error e => rfl
          | ok core =>
            simp only [Except.ok_bind]
            cases Core.PlanEnvelope.new b.intent b.snapshots b.expiresAtUnix core with
            | error e => rfl
            | ok proposal =>
              have hvalid := CanonicalSolverPlan.validate_withExpiry
                ⟨"dnfast.explained-plan.v1", proposal, actions⟩ expiresAtUnix
              simp only [CanonicalSolverPlan.withExpiry] at hvalid
              simp only [Except.map, Except.mapError_ok, Except.ok_bind,
                Core.PlanEnvelope.validateExecutable_zero, hvalid]
              cases proposal.validateExecutable b.policy 0 with
              | error e => rfl
              | ok u =>
                simp only [Except.mapError_ok, Except.ok_bind]
                cases CanonicalSolverPlan.validate ⟨"dnfast.explained-plan.v1", proposal, actions⟩ with
                | error e => rfl
                | ok u => rfl

end Dnfast.Solver
