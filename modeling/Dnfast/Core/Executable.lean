import Dnfast.Core.Plan

/-! # What an executable plan may do

`PlanEnvelope::validate_executable` is the last check of a plan against the policy before it reaches
librpm. An action passes either because the intent asks for its operation (`ordinary`) or because it
removes what another action of the plan obsoletes (`sideEffect`). `SafePlan` is what the two
conditions and the checks after them leave possible, stated without them. -/

namespace Dnfast.Core

open Except (refuseIf okOr)

namespace PackageAction

/-- The arguments of the policy's check of a replacement. -/
def candidate (a : PackageAction) (operation : ReplacementOperation) :
    Except DomainError CandidateAction := do
  let installed ← okOr a.installedEvra (.invalidPlan "missing installed EVRA")
  let installedVendor ← okOr a.installedVendor (.invalidPlan "missing installed vendor")
  let candidateVendor ← okOr a.candidateVendor (.invalidPlan "missing candidate vendor")
  return .replace operation installed a.targetEvra installedVendor candidateVendor

/-- The policy's check of one action. -/
def checkPolicy (a : PackageAction) (policy : SolverPolicy) : Except DomainError Unit :=
  match a.operation with
  | .remove => policy.validateRemoval a.name a.reason
  | .upgrade => do SolverPolicy.validateUpgrade (← a.candidate .upgrade)
  | .downgrade => do SolverPolicy.validateDowngrade (← a.candidate .downgrade)
  | .reinstall => do SolverPolicy.validateReinstall (← a.candidate .reinstall)
  | .install => .ok ()

end PackageAction

namespace PlanEnvelope

/-- An upgrade or a distro-sync may add a package for a dependency reason. -/
def dependencyInstall (intent : Action) (a : PackageAction) : Bool :=
  (intent = .upgrade || intent = .distroSync) && a.operation = .install &&
    a.reason.isAutoremoveCandidate

/-- The pairs of intent and operation that belong together. -/
def asks : Action → PackageOperation → Bool
  | .install, .install | .install, .upgrade => true
  | .upgrade, .upgrade => true
  | .remove, .remove => true
  | .downgrade, .downgrade => true
  | .reinstall, .reinstall => true
  | .distroSync, .upgrade | .distroSync, .downgrade | .distroSync, .reinstall => true
  | .autoremove, .remove => true
  | _, _ => false

def ordinary (intent : Action) (a : PackageAction) : Bool :=
  asks intent a.operation || dependencyInstall intent a

def parentIdentities (plan : PlanEnvelope) : List String :=
  plan.actions.filterMap PackageAction.actionIdentity

def sideEffect (plan : PlanEnvelope) (a : PackageAction) : Bool :=
  match a.provenance, a.operation with
  | some (.obsoletedBy parent), .remove =>
    plan.intent.action ≠ .remove && parent ∈ plan.parentIdentities && a.reason.isAutoremoveCandidate
  | _, _ => false

/-- The body of the loop in `validate_executable`. -/
def checkExecutable (plan : PlanEnvelope) (policy : SolverPolicy) (a : PackageAction) :
    Except DomainError Unit := do
  let ordinary := ordinary plan.intent.action a
  refuseIf (!ordinary && !plan.sideEffect a) (.invalidPlan "intent and package operation differ")
  refuseIf (ordinary && a.provenance.isSome) (.invalidPlan "unexpected action provenance")
  refuseIf (plan.intent.action = .autoremove ∧ !a.reason.isAutoremoveCandidate)
    (.unsafeAction "autoremove requires dependency reason")
  a.checkPolicy policy

def validateExecutable (plan : PlanEnvelope) (policy : SolverPolicy) (nowUnix : UInt64) :
    Except DomainError Unit := do
  plan.validateNow nowUnix
  policy.validate
  forM plan.actions (plan.checkExecutable policy)

end PlanEnvelope

/-! ## The specification -/

/-- The package is installed for another one. -/
def PackageReason.IsDependency (reason : PackageReason) : Prop :=
  reason = .dependency ∨ reason = .weakDependency

/-- The action replaces an installed package of the same architecture and vendor by one whose EVRA
stands in the relation `R` to the installed one. -/
structure PackageAction.Replaces (a : PackageAction) (R : Evra → Evra → Prop) : Prop where
  installed : ∃ evra, a.installedEvra = some evra ∧ R a.targetEvra evra ∧
    a.targetEvra.arch = evra.arch
  vendor : ∃ vendor, a.installedVendor = some vendor ∧ a.candidateVendor = some vendor

/-- The RPM order, as a strict order: newer and not older. -/
def Evra.Newer (a b : Evra) : Prop :=
  a.isStrictlyNewerThan b = true ∧ b.isStrictlyNewerThan a = false

structure SafePlan (plan : PlanEnvelope) (policy : SolverPolicy) : Prop where
  /-- Nothing the policy keeps is removed, and nothing that dnfast does not own. -/
  removal : ∀ a ∈ plan.actions, a.operation = .remove →
    policy.isProtected a.name = false ∧ policy.isInstallonly a.name = false ∧
      policy.isRunningKernel a.name = false ∧ (a.reason = .user ∨ a.reason.IsDependency)
  /-- An intent that does not ask for removals removes only what another action obsoletes. -/
  obsoletion : plan.intent.action ≠ .remove → plan.intent.action ≠ .autoremove →
    ∀ a ∈ plan.actions, a.operation = .remove →
      a.reason.IsDependency ∧ ∃ parent, a.provenance = some (.obsoletedBy parent) ∧
        ∃ b ∈ plan.actions, b ≠ a ∧ b.actionIdentity = some parent
  upgrade : ∀ a ∈ plan.actions, a.operation = .upgrade → a.Replaces Evra.Newer
  downgrade : ∀ a ∈ plan.actions, a.operation = .downgrade → a.Replaces fun a b => b.Newer a
  reinstall : ∀ a ∈ plan.actions, a.operation = .reinstall → a.Replaces Eq
  /-- An upgrade adds packages only for a dependency reason. -/
  addition : plan.intent.action = .upgrade ∨ plan.intent.action = .distroSync →
    ∀ a ∈ plan.actions, a.operation = .install → a.reason.IsDependency
  autoremove : plan.intent.action = .autoremove →
    ∀ a ∈ plan.actions, a.operation = .remove ∧ a.reason.IsDependency

/-! ## Each check -/

theorem PackageReason.isAutoremoveCandidate_iff {reason : PackageReason} :
    reason.isAutoremoveCandidate = true ↔ reason.IsDependency := by
  cases reason <;> simp [isAutoremoveCandidate, IsDependency]

theorem SolverPolicy.validateReplacementIdentity_eq_ok {installed candidate : Evra}
    {installedVendor candidateVendor : String}
    (h : validateReplacementIdentity installed candidate installedVendor candidateVendor = .ok ()) :
    installed.arch = candidate.arch ∧ installedVendor = candidateVendor := by
  simp only [validateReplacementIdentity, Except.check_bind_eq_ok, Except.refuseIf_eq_ok,
    not_not] at h
  exact h.2.2

theorem SolverPolicy.validateRemoval_eq_ok {policy : SolverPolicy} {name : String}
    {reason : PackageReason} (h : policy.validateRemoval name reason = .ok ()) :
    policy.isProtected name = false ∧ policy.isInstallonly name = false ∧
      policy.isRunningKernel name = false ∧ (reason = .user ∨ reason.IsDependency) := by
  simp only [validateRemoval, Except.check_bind_eq_ok, Except.refuseIf_eq_ok,
    Bool.not_eq_true] at h
  obtain ⟨hprotected, hinstallonly, hkernel, hreason⟩ := h
  refine ⟨hprotected, hinstallonly, hkernel, ?_⟩
  cases reason <;> simp_all [PackageReason.IsDependency]

namespace PackageAction

variable {a : PackageAction}

theorem candidate_eq_ok {operation : ReplacementOperation} {c : CandidateAction}
    (h : a.candidate operation = .ok c) :
    ∃ installed installedVendor candidateVendor, a.installedEvra = some installed ∧
      a.installedVendor = some installedVendor ∧ a.candidateVendor = some candidateVendor ∧
      c = .replace operation installed a.targetEvra installedVendor candidateVendor := by
  simp only [candidate, Except.bind_eq_ok, Except.okOr_eq_ok, Except.pure_eq_ok] at h
  obtain ⟨installed, h1, installedVendor, h2, candidateVendor, h3, rfl⟩ := h
  exact ⟨installed, installedVendor, candidateVendor, h1, h2, h3, rfl⟩

/-- A replacement that passes its check, given what the check says about the two EVRAs. -/
theorem replaces_of_candidate {R : Evra → Evra → Prop} {operation : ReplacementOperation}
    {check : CandidateAction → Except DomainError Unit}
    (hcheck : ∀ installed candidate iv cv,
      check (.replace operation installed candidate iv cv) = .ok () →
        (installed.arch = candidate.arch ∧ iv = cv) ∧ R candidate installed)
    (h : (a.candidate operation >>= check) = .ok ()) : a.Replaces R := by
  obtain ⟨c, hc, hok⟩ := Except.bind_eq_ok.mp h
  obtain ⟨installed, iv, cv, hinstalled, hiv, hcv, rfl⟩ := candidate_eq_ok hc
  obtain ⟨⟨harch, rfl⟩, hR⟩ := hcheck _ _ _ _ hok
  exact ⟨⟨installed, hinstalled, hR, harch.symm⟩, ⟨iv, hiv, hcv⟩⟩

variable {policy : SolverPolicy}

theorem checkPolicy_upgrade (h : a.checkPolicy policy = .ok ()) (hop : a.operation = .upgrade) :
    a.Replaces Evra.Newer := by
  rw [checkPolicy, hop] at h
  refine replaces_of_candidate (fun installed candidate iv cv hok => ?_) h
  simp only [SolverPolicy.validateUpgrade, Except.check_bind_eq_ok, Except.refuseIf_eq_ok,
    Bool.not_eq_true', Bool.not_eq_false] at hok
  exact ⟨SolverPolicy.validateReplacementIdentity_eq_ok hok.1, hok.2,
    Evra.not_isStrictlyNewerThan_of_newer hok.2⟩

theorem checkPolicy_downgrade (h : a.checkPolicy policy = .ok ())
    (hop : a.operation = .downgrade) : a.Replaces fun a b => b.Newer a := by
  rw [checkPolicy, hop] at h
  refine replaces_of_candidate (fun installed candidate iv cv hok => ?_) h
  simp only [SolverPolicy.validateDowngrade, Except.check_bind_eq_ok, Except.refuseIf_eq_ok,
    Bool.not_eq_true', Bool.not_eq_false] at hok
  exact ⟨SolverPolicy.validateReplacementIdentity_eq_ok hok.1, hok.2,
    Evra.not_isStrictlyNewerThan_of_newer hok.2⟩

theorem checkPolicy_reinstall (h : a.checkPolicy policy = .ok ())
    (hop : a.operation = .reinstall) : a.Replaces Eq := by
  rw [checkPolicy, hop] at h
  refine replaces_of_candidate (fun installed candidate iv cv hok => ?_) h
  simp only [SolverPolicy.validateReinstall, Except.check_bind_eq_ok, Except.refuseIf_eq_ok,
    not_not] at hok
  exact ⟨SolverPolicy.validateReplacementIdentity_eq_ok hok.1, hok.2.symm⟩

end PackageAction

namespace PlanEnvelope

variable {plan : PlanEnvelope} {policy : SolverPolicy} {a : PackageAction}

/-- What passes for the intent and carries no provenance, or is a side effect. -/
theorem checkExecutable_eq_ok (h : plan.checkExecutable policy a = .ok ()) :
    (ordinary plan.intent.action a = true ∧ a.provenance = none ∨ plan.sideEffect a = true) ∧
      (plan.intent.action = .autoremove → a.reason.IsDependency) ∧ a.checkPolicy policy = .ok () := by
  simp only [checkExecutable, Except.check_bind_eq_ok, Except.refuseIf_eq_ok] at h
  obtain ⟨hasked, hplain, hreason, hpolicy⟩ := h
  refine ⟨?_, ?_, hpolicy⟩
  · cases hord : ordinary plan.intent.action a with
    | true => exact .inl ⟨rfl, by simpa [hord] using hplain⟩
    | false => exact .inr (by simpa [hord] using hasked)
  · intro hintent
    rw [← PackageReason.isAutoremoveCandidate_iff]
    simpa [hintent] using hreason

theorem sideEffect_eq_true (h : plan.sideEffect a = true) :
    a.operation = .remove ∧ a.reason.IsDependency ∧
      ∃ parent, a.provenance = some (.obsoletedBy parent) ∧
        ∃ b ∈ plan.actions, b.actionIdentity = some parent := by
  unfold sideEffect at h
  split at h
  · next parent hprovenance hop =>
    simp only [Bool.and_eq_true, decide_eq_true_eq, parentIdentities, List.mem_filterMap] at h
    exact ⟨hop, PackageReason.isAutoremoveCandidate_iff.mp h.2, parent, hprovenance, h.1.2⟩
  · cases h

/-- An ordinary removal belongs to an intent that asks for removals. -/
theorem ordinary_remove (h : ordinary plan.intent.action a = true) (hop : a.operation = .remove) :
    plan.intent.action = .remove ∨ plan.intent.action = .autoremove := by
  cases hintent : plan.intent.action <;> simp_all [ordinary, asks, dependencyInstall]

theorem ordinary_install (h : ordinary plan.intent.action a = true) (hop : a.operation = .install)
    (hintent : plan.intent.action = .upgrade ∨ plan.intent.action = .distroSync) :
    a.reason.IsDependency := by
  rw [← PackageReason.isAutoremoveCandidate_iff]
  rcases hintent with hintent | hintent <;>
    simpa [ordinary, asks, dependencyInstall, hintent, hop] using h

theorem ordinary_autoremove (h : ordinary plan.intent.action a = true)
    (hintent : plan.intent.action = .autoremove) : a.operation = .remove := by
  cases hop : a.operation <;> simp_all [ordinary, asks, dependencyInstall]

/-- A valid removal names no repository and so has no identity a removal could refer to. -/
theorem actionIdentity_remove (h : a.validate = .ok ()) (hop : a.operation = .remove) :
    a.actionIdentity = none := by
  simp only [PackageAction.validate, hop, PackageAction.validateRemove, Except.check_bind_eq_ok,
    Except.refuseIf_eq_ok] at h
  simpa [PackageAction.actionIdentity] using h.2.2.1

theorem validateNow_valid {now : UInt64} (h : plan.validateNow now = .ok ()) :
    ∀ a ∈ plan.actions, a.validate = .ok () := by
  simp only [validateNow, Except.check_bind_eq_ok, Except.forM_eq_ok, checkAction] at h
  exact fun a ha => (h.2.2.2.2.2 a ha).1

/-- **An executable plan is safe**, whatever the plan, the policy and the time. -/
theorem validateExecutable_safePlan {now : UInt64}
    (h : plan.validateExecutable policy now = .ok ()) : SafePlan plan policy := by
  simp only [validateExecutable, Except.check_bind_eq_ok, Except.forM_eq_ok] at h
  obtain ⟨hnow, -, hactions⟩ := h
  have hvalid := validateNow_valid hnow
  have hpolicy a ha := (checkExecutable_eq_ok (hactions a ha)).2.2
  constructor
  case removal =>
    intro a ha hop
    have hremoval := hpolicy a ha
    rw [PackageAction.checkPolicy, hop] at hremoval
    exact SolverPolicy.validateRemoval_eq_ok hremoval
  case obsoletion =>
    intro hremove hautoremove a ha hop
    rcases (checkExecutable_eq_ok (hactions a ha)).1 with ⟨hord, -⟩ | hside
    · rcases ordinary_remove hord hop with hintent | hintent
      · exact absurd hintent hremove
      · exact absurd hintent hautoremove
    · obtain ⟨-, hreason, parent, hprovenance, b, hb, hidentity⟩ := sideEffect_eq_true hside
      refine ⟨hreason, parent, hprovenance, b, hb, ?_, hidentity⟩
      rintro rfl
      rw [actionIdentity_remove (hvalid b hb) hop] at hidentity
      cases hidentity
  case upgrade => exact fun a ha hop => PackageAction.checkPolicy_upgrade (hpolicy a ha) hop
  case downgrade => exact fun a ha hop => PackageAction.checkPolicy_downgrade (hpolicy a ha) hop
  case reinstall => exact fun a ha hop => PackageAction.checkPolicy_reinstall (hpolicy a ha) hop
  case addition =>
    intro hintent a ha hop
    rcases (checkExecutable_eq_ok (hactions a ha)).1 with ⟨hord, -⟩ | hside
    · exact ordinary_install hord hop hintent
    · exact (sideEffect_eq_true hside).2.1
  case autoremove =>
    intro hintent a ha
    obtain ⟨hasked, hreason, -⟩ := checkExecutable_eq_ok (hactions a ha)
    refine ⟨?_, hreason hintent⟩
    rcases hasked with ⟨hord, -⟩ | hside
    · exact ordinary_autoremove hord hintent
    · exact (sideEffect_eq_true hside).1

end PlanEnvelope

/-! A plan of an upgrade that adds a dependency and removes what the new package obsoletes. -/

def zeroDigest : Sha256Digest :=
  ⟨"0000000000000000000000000000000000000000000000000000000000000000",
    Core.isLowerDigest_ofList (by decide)⟩

def fedoraBinding : RepositoryBinding := ⟨"fedora", zeroDigest, zeroDigest, zeroDigest, by decide⟩

def fedoraIntegrity : PlanIntegrity :=
  ⟨zeroDigest, zeroDigest, zeroDigest, zeroDigest, zeroDigest, [fedoraBinding]⟩

def upgradeAll : TransactionIntent := ⟨.upgrade, [], by decide, .nil⟩

def upgradePlan : PlanEnvelope where
  schemaVersion := 2
  installRoot := "/"
  intent := upgradeAll
  integrity := fedoraIntegrity
  expiresAtUnix := 100
  actions := [
    ⟨.install, "libnew", ⟨0, "1.0", "1.fc44", .x86_64⟩, none, none, none, none, some "Fedora",
      some "fedora", .dependency, none⟩,
    ⟨.upgrade, "bash", ⟨0, "5.10", "1.fc44", .x86_64⟩, some ⟨0, "5.9", "3.fc43", .x86_64⟩, some 7,
      some zeroDigest, some "Fedora", some "Fedora", some "fedora", .user, none⟩,
    ⟨.remove, "bash-doc", ⟨0, "5.9", "3.fc43", .noarch⟩, some ⟨0, "5.9", "3.fc43", .noarch⟩, some 8,
      some zeroDigest, some "Fedora", none, none, .dependency,
      some (.obsoletedBy "fedora:bash-0:5.10-1.fc44.x86_64")⟩]

def kernelPolicy : SolverPolicy := SolverPolicy.fedora44 .x86_64 ["systemd"] ["kernel-core"]

theorem safePlan_upgradePlan : upgradePlan.validateExecutable kernelPolicy 99 = .ok () ∧
    SafePlan upgradePlan kernelPolicy := by
  have h : upgradePlan.validateExecutable kernelPolicy 99 = .ok () := by decide +kernel
  exact ⟨h, PlanEnvelope.validateExecutable_safePlan h⟩

end Dnfast.Core
