import Dnfast.Data.Forall2
import Dnfast.Reason.Store

/-! # What a transaction records

Recording always succeeds and gives every installed package one record (`recordedState_spec`). The
reason of a record comes from the policy, from a replaced package, from the package's own record or
from a decision about the proposals, in this order (`recordedReason`). -/

namespace Dnfast.Reason

open Dnfast.Core (PackageReason Evra InstalledPackage InstalledInventory PackageAction PlanEnvelope
  SolverPolicy)
open Dnfast.State (StateError)

/-! ## Valid states -/

structure ValidState (s : ReasonState) : Prop where
  schema : s.schemaVersion = 1
  count : s.records.length ≤ maxRecords
  ordered : s.records.IsChain (· < ·)
  wellFormed : ∀ r ∈ s.records, r.wellFormed = true
  identities : (s.records.map ReasonRecord.identity).Nodup

theorem checkRecords_eq_ok {seen : List InstalledIdentity} {rs : List ReasonRecord} :
    checkRecords seen rs = .ok () ↔ (∀ r ∈ rs, r.wellFormed = true) ∧
      (rs.map ReasonRecord.identity).Nodup ∧ ∀ r ∈ rs, r.identity ∉ seen := by
  induction rs generalizing seen with
  | nil => simp [checkRecords]
  | cons r rs ih =>
    rw [checkRecords, Except.check_bind_eq_ok, Except.refuseIf_eq_ok, ih, List.map_cons,
      List.nodup_cons, List.forall_mem_cons, List.forall_mem_cons]
    have hfresh : (∀ q ∈ rs, q.identity ∉ r.identity :: seen) ↔
        r.identity ∉ rs.map ReasonRecord.identity ∧ ∀ q ∈ rs, q.identity ∉ seen := by
      simp only [List.mem_cons, not_or, List.mem_map, not_exists, not_and]
      exact ⟨fun h => ⟨fun q hq => (h q hq).1, fun q hq => (h q hq).2⟩,
        fun h q hq => ⟨h.1 q hq, h.2 q hq⟩⟩
    rw [hfresh, not_or, Bool.not_eq_true', Bool.not_eq_false]
    tauto

theorem validateState_eq_ok {s : ReasonState} : validateState s = .ok () ↔ ValidState s := by
  simp only [validateState, Except.check_bind_eq_ok, Except.refuseIf_eq_ok, checkRecords_eq_ok,
    not_or, not_not, gt_iff_lt, not_lt]
  constructor
  · rintro ⟨⟨hschema, hcount⟩, hordered, hwellFormed, hnodup, -⟩
    exact ⟨hschema, hcount, hordered, hwellFormed, hnodup⟩
  · rintro ⟨hschema, hcount, hordered, hwellFormed, hnodup⟩
    exact ⟨⟨hschema, hcount⟩, hordered, hwellFormed, hnodup, by simp⟩

theorem validState_default : ValidState .default :=
  validateState_eq_ok.mp (by decide)

/-! ## Lookups -/

theorem existing_eq_some {s : ReasonState} (hs : (s.records.map ReasonRecord.identity).Nodup)
    {identity : InstalledIdentity} {r : ReasonRecord} :
    s.existing identity = some r ↔ r ∈ s.records ∧ r.identity = identity := by
  constructor
  · intro h
    obtain ⟨q, hq, heq⟩ := List.mem_map.mp (mem_of_collected h)
    cases heq
    exact ⟨hq, rfl⟩
  · rintro ⟨hr, rfl⟩
    refine collected_of_mem ?_ (List.mem_map.mpr ⟨r, hr, rfl⟩)
    rw [List.map_map]
    exact hs

theorem nodup_identityOf (inventory : InstalledInventory) :
    (inventory.packages.map identityOf).Nodup := by
  have h := inventory.instances
  rw [show InstalledPackage.dbInstance = InstalledIdentity.dbInstance ∘ identityOf from rfl,
    ← List.map_map] at h
  exact h.of_map

theorem installedAt_eq_some {inventory : InstalledInventory} {identity : InstalledIdentity}
    {p : InstalledPackage} :
    installedAt inventory identity = some p ↔ p ∈ inventory.packages ∧ identityOf p = identity := by
  constructor
  · intro h
    obtain ⟨q, hq, heq⟩ := List.mem_map.mp (mem_of_collected h)
    cases heq
    exact ⟨hq, rfl⟩
  · rintro ⟨hp, rfl⟩
    refine collected_of_mem ?_ (List.mem_map.mpr ⟨p, hp, rfl⟩)
    rw [List.map_map]
    exact nodup_identityOf inventory

/-! ## Decisions -/

/-- What may be decided for a package: the user's when the policy keeps it; otherwise the proposal
for it, when it is new, or external. -/
def Decided (beforeIds : List InstalledIdentity) (kept : String → Prop)
    (proposed : List (PlannedIdentity × PackageReason)) (p : InstalledPackage)
    (decision : ReasonDecision) : Prop :=
  (kept p.name ∧ decision = .keep .user) ∨ decision = .keep .external ∨
    ∃ reason, identityOf p ∉ beforeIds ∧ collected proposed (plannedOf p) = some reason ∧
      decision = decisionOn reason

/-- The item belongs to the package. -/
structure ItemOf (beforeIds : List InstalledIdentity) (kept : String → Prop)
    (proposed : List (PlannedIdentity × PackageReason)) (p : InstalledPackage)
    (item : ReconciledReason) : Prop where
  identity : item.identity = identityOf p
  name : item.packageName = p.name
  decision : Decided beforeIds kept proposed p item.decision

theorem collected_of_without {κ β : Type} [DecidableEq κ] {pairs : List (κ × β)} {k k' : κ} {v : β}
    (h : collected (without pairs k') k = some v) : collected pairs k = some v := by
  induction pairs using List.reverseRecOn with
  | nil => exact h
  | append_singleton pairs x ih =>
    by_cases hx : x.1 = k'
    · have hw : without (pairs ++ [x]) k' = without pairs k' := by simp [without, hx]
      rw [hw] at h
      by_cases hk : x.1 = k
      · -- the key was removed
        obtain ⟨pre, post, heq, -⟩ := collected_eq_some.mp h
        have hmem : (k, v) ∈ without pairs k' := by rw [heq]; simp
        rw [without, List.mem_filter, decide_eq_true_eq] at hmem
        exact absurd (hk.symm.trans hx) hmem.2
      · rw [← ih h]
        simp [collected, hk]
    · have hw : without (pairs ++ [x]) k' = without pairs k' ++ [x] := by simp [without, hx]
      rw [hw] at h
      by_cases hk : x.1 = k
      · simpa [collected, hk] using h
      · have h' : collected (without pairs k') k = some v := by simpa [collected, hk] using h
        rw [← ih h']
        simp [collected, hk]

theorem reconcilePackages_items {beforeIds : List InstalledIdentity} {kept installonly : List String}
    {proposed remaining : List (PlannedIdentity × PackageReason)} {ps : List InstalledPackage}
    (hremaining : ∀ k v, collected remaining k = some v → collected proposed k = some v) :
    List.Forall₂ (ItemOf beforeIds (fun name => name ∈ kept ∨ name ∈ installonly) proposed) ps
      (reconcilePackages beforeIds kept installonly remaining ps) := by
  induction ps generalizing remaining with
  | nil => exact .nil
  | cons p ps ih =>
    rw [reconcilePackages]
    split
    · next hkept => exact .cons ⟨rfl, rfl, .inl ⟨hkept, rfl⟩⟩ (ih hremaining)
    · split
      · next reason hreason =>
        refine .cons ⟨rfl, rfl, .inr (.inr ⟨reason, ?_⟩)⟩
          (ih fun k v h => hremaining k v (collected_of_without h))
        split at hreason
        · cases hreason
        · next hnew => exact ⟨hnew, hremaining _ _ hreason, rfl⟩
      · exact .cons ⟨rfl, rfl, .inr (.inl rfl)⟩ (ih hremaining)

/-- The record belongs to the package. -/
structure RecordFor (s : ReasonState) (before : InstalledInventory) (plan : PlanEnvelope)
    (policy : SolverPolicy) (p : InstalledPackage) (r : ReasonRecord) : Prop where
  identity : r.identity = identityOf p
  name : r.packageName = p.name
  reason : ∃ item, ItemOf (before.packages.map identityOf) (fun name => policy.keeps name = true)
    (proposalsFromPlan plan) p item ∧ r.reason = recordedReason s plan policy item p.evra

section
variable {s : ReasonState} {before after : InstalledInventory} {plan : PlanEnvelope}
  {policy : SolverPolicy}

theorem kept_iff {p : InstalledPackage} (hp : p ∈ after.packages) :
    (p.name ∈ (after.packages.map (·.name)).filter policy.isProtected ∨
      p.name ∈ (after.packages.map (·.name)).filter
        fun name => policy.isInstallonly name || policy.isRunningKernel name) ↔
      policy.keeps p.name = true := by
  have hname : p.name ∈ after.packages.map (·.name) := List.mem_map.mpr ⟨p, hp, rfl⟩
  simp only [List.mem_filter, hname, true_and, SolverPolicy.keeps, Bool.or_eq_true, or_assoc]

theorem recordOf_items {kept : String → Prop} {ps : List InstalledPackage}
    {items : List ReconciledReason} (hps : ∀ p ∈ ps, p ∈ after.packages)
    (hkept : ∀ p ∈ ps, kept p.name → policy.keeps p.name = true)
    (h : List.Forall₂ (ItemOf (before.packages.map identityOf) kept (proposalsFromPlan plan)) ps
      items) :
    ∃ records, items.mapM (recordOf s after plan policy) = .ok records ∧
      List.Forall₂ (RecordFor s before plan policy) ps records := by
  induction h with
  | nil => exact ⟨[], rfl, .nil⟩
  | @cons p item ps items hitem _ ih =>
    obtain ⟨hp, hps⟩ := List.forall_mem_cons.mp hps
    obtain ⟨hkp, hkept⟩ := List.forall_mem_cons.mp hkept
    obtain ⟨records, hrecords, hfor⟩ := ih hps hkept
    have hat : installedAt after item.identity = some p :=
      installedAt_eq_some.mpr ⟨hp, hitem.identity.symm⟩
    refine ⟨⟨item.identity.dbInstance, item.identity.headerSha256, item.packageName,
      recordedReason s plan policy item p.evra⟩ :: records, ?_, .cons ⟨hitem.identity, hitem.name,
      item, ⟨hitem.identity, hitem.name, ?_⟩, rfl⟩ hfor⟩
    · rw [List.mapM_cons, hrecords]
      simp [recordOf, hat, Except.okOr, bind, Except.bind, pure, Except.pure]
    · exact hitem.decision.imp_left fun hdecided => ⟨hkp hdecided.1, hdecided.2⟩

/-- Recording never fails, and gives each installed package its record. -/
theorem recordedState_spec (s : ReasonState) (before after : InstalledInventory)
    (plan : PlanEnvelope) (policy : SolverPolicy) : ∃ records,
    recordedState s before after plan policy = .ok ⟨1, records.insertionSort (· ≤ ·)⟩ ∧
      List.Forall₂ (RecordFor s before plan policy) after.packages records := by
  have hitems : List.Forall₂ (ItemOf (before.packages.map identityOf) (fun name =>
      name ∈ (after.packages.map (·.name)).filter policy.isProtected ∨
        name ∈ (after.packages.map (·.name)).filter
          fun name => policy.isInstallonly name || policy.isRunningKernel name)
      (proposalsFromPlan plan)) after.packages (reconciled before after plan policy) :=
    reconcilePackages_items fun _ _ h => h
  obtain ⟨records, hrecords, hfor⟩ :=
    recordOf_items (s := s) (fun _ hp => hp) (fun p hp h => (kept_iff hp).mp h) hitems
  refine ⟨records, ?_, hfor⟩
  rw [recordedState, show (reconciled before after plan policy).mapM
    (recordOf s after plan policy) = .ok records from hrecords]
  rfl

end

end Dnfast.Reason
