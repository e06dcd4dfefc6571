import Dnfast.Core.Executable
import Dnfast.Executor.Pool
import Dnfast.Planning.Digest
import Dnfast.Solver.Preference

/-! # Packages without a vendor

`inventory.c` reads a header without a vendor tag as one with an empty vendor, `resident.rs` makes a
candidate without a vendor one of the vendor `unknown`. The checks of a replacement compare the two texts
as they are; only the post-transaction identities (`knownVendor`) and the check of an artifact take them
for the same. -/

namespace Dnfast.Native

/-! ## The installed side -/

/-- The tags of a header of the database, as librpm returns them. `export` is the digest of the
immutable region, if there is one. -/
structure InstalledHeader where
  name : Option String
  version : Option String
  release : Option String
  arch : Option String
  vendor : Option String
  epoch : UInt32
  dbInstance : UInt64
  installTime : UInt64
  exported : Option String
  deriving DecidableEq

/-- `copy_text`, with no copy of a null pointer. -/
def copyText (source : Option String) : Option String := source

/-- `copy_optional_text`. -/
def copyOptionalText (source : Option String) : Option String := copyText (some (source.getD ""))

def fillRecord (header : InstalledHeader) : Option InventoryPackage := do
  let name ← copyText header.name
  let version ← copyText header.version
  let release ← copyText header.release
  let vendor ← copyOptionalText header.vendor
  let arch ← copyText (if header.arch = none ∧ name = "gpg-pubkey" then some "noarch" else header.arch)
  let exported ← header.exported
  return ⟨name, version, release, arch, vendor, header.epoch, header.dbInstance, header.installTime,
    exported⟩

/-- The package that the inventory has for a header. -/
def installedOf (header : InstalledHeader) : Except InventoryError (Option Core.InstalledPackage) :=
  match fillRecord header with
  | none => .ok none
  | some record => (convertPackage record).map some

section
variable {header : InstalledHeader} {record : InventoryPackage} {installed : Core.InstalledPackage}

theorem vendor_of_fillRecord (h : fillRecord header = some record) :
    record.vendor = header.vendor.getD "" := by
  simp only [fillRecord, copyOptionalText, copyText, Option.bind_eq_bind, Option.bind_eq_some_iff] at h
  obtain ⟨_, -, _, -, _, -, vendor, hvendor, _, -, _, -, h⟩ := h
  cases h
  exact (Option.some.inj hvendor).symm

theorem vendor_of_convertPackage (h : convertPackage record = .ok installed) :
    installed.vendor = record.vendor := by
  obtain ⟨arch, -, h⟩ := Except.bind_eq_ok.mp h
  rw [Except.mapError_eq_ok, Core.InstalledPackage.new] at h
  split at h
  · cases h
  · split at h
    · cases h
    · obtain ⟨header, -, rfl⟩ := Except.map_eq_ok.mp h
      rfl

theorem vendor_of_installedOf (h : installedOf header = .ok (some installed)) :
    installed.vendor = header.vendor.getD "" := by
  unfold installedOf at h
  cases hfill : fillRecord header with
  | none =>
    rw [hfill] at h
    cases h
  | some record =>
    rw [hfill, Except.map_eq_ok] at h
    obtain ⟨_, hconvert, heq⟩ := h
    cases heq
    rw [vendor_of_convertPackage hconvert, vendor_of_fillRecord hfill]

end

end Dnfast.Native

namespace Dnfast.Executor

open Core (CandidateAction DomainError InstalledPackage PackageAction PackageOperation PlanEnvelope
  ReplacementOperation SolverPolicy)
open Native (InstalledHeader)
open Planning (PlanningRepository)
open Solver (CandidatePackage PlanBuilder ResolvedAction RequestedRelation)

/-! ## The checks of a replacement -/

/-- The check of the policy for an operation. -/
def replacementCheck : ReplacementOperation → CandidateAction → Except DomainError Unit
  | .upgrade => SolverPolicy.validateUpgrade
  | .downgrade => SolverPolicy.validateDowngrade
  | .reinstall => SolverPolicy.validateReinstall

def resolvedOperation : ReplacementOperation → Solver.ResolvedOperation
  | .upgrade => .upgrade
  | .downgrade => .downgrade
  | .reinstall => .reinstall

def packageOperation : ReplacementOperation → PackageOperation
  | .upgrade => .upgrade
  | .downgrade => .downgrade
  | .reinstall => .reinstall

section
variable {operation : ReplacementOperation} {installed : InstalledPackage}
  {candidate : CandidatePackage} {policy : SolverPolicy}

/-- Every replacement is checked for its vendor. -/
theorem vendor_of_replacementCheck {old new : Core.Evra} {installedVendor candidateVendor : String}
    (h : replacementCheck operation (.replace operation old new installedVendor candidateVendor) =
      .ok ()) : installedVendor = candidateVendor := by
  have hidentity : SolverPolicy.validateReplacementIdentity old new installedVendor candidateVendor =
      .ok () := by
    cases operation with
    | upgrade => exact (Except.check_bind_eq_ok.mp h).1
    | downgrade => exact (Except.check_bind_eq_ok.mp h).1
    | reinstall => exact (Except.check_bind_eq_ok.mp h).1
  exact (SolverPolicy.validateReplacementIdentity_eq_ok hidentity).2

/-- A requested candidate of a name is one of the vendor of the installed package. -/
theorem vendor_of_validateCandidate {b : PlanBuilder} {vendor : String}
    (h : b.validateCandidate candidate (some installed) (some vendor) true false = .ok ()) :
    candidate.vendor = vendor := by
  simp only [PlanBuilder.validateCandidate, Except.check_bind_eq_ok, Except.refuseIf_eq_ok] at h
  obtain ⟨-, -, h⟩ := h
  have hpreferred : b.preferred candidate.name (some installed) (some vendor) = some candidate := by
    simpa using h
  have hmem := Solver.mem_of_maxBy hpreferred
  have hfilter := (List.mem_filter.mp hmem).2
  simp only [Bool.and_eq_true] at hfilter
  simpa using hfilter.2

theorem vendor_of_installOrUpgrade {b : PlanBuilder} {resolved : ResolvedAction}
    {relation : RequestedRelation} {explained : Solver.ExplainedAction} {vendor : String}
    (hoperation : resolved.operation = resolvedOperation operation)
    (hcandidate : resolved.candidate = some candidate)
    (hvendor : resolved.installedVendor = some vendor)
    (h : b.installOrUpgrade resolved (some installed) relation = .ok explained) :
    vendor = candidate.vendor := by
  rw [PlanBuilder.installOrUpgrade, hcandidate] at h
  obtain ⟨_, hsome, h⟩ := Except.bind_eq_ok.mp h
  cases Except.okOr_eq_ok.mp hsome
  rw [Except.check_bind_eq_ok, Except.check_bind_eq_ok, Except.check_bind_eq_ok] at h
  obtain ⟨-, -, hreplacement, -⟩ := h
  have hcheck : replacementCheck operation (.replace operation installed.evra candidate.evra vendor
      candidate.vendor) = .ok () := by
    cases operation <;>
      simpa [PlanBuilder.validateReplacement, hoperation, resolvedOperation, hvendor, Except.okOr,
        replacementCheck] using hreplacement
  exact vendor_of_replacementCheck hcheck

theorem vendor_of_validateExecutable {plan : PlanEnvelope} {nowUnix : UInt64} {a : PackageAction}
    {installedVendor candidateVendor : String} (ha : a ∈ plan.actions)
    (hoperation : a.operation = packageOperation operation)
    (hinstalled : a.installedVendor = some installedVendor)
    (hcandidate : a.candidateVendor = some candidateVendor)
    (h : plan.validateExecutable policy nowUnix = .ok ()) : installedVendor = candidateVendor := by
  simp only [PlanEnvelope.validateExecutable, Except.check_bind_eq_ok, Except.forM_eq_ok] at h
  have hpolicy := (PlanEnvelope.checkExecutable_eq_ok (h.2.2 a ha)).2.2
  obtain ⟨R, hreplaces⟩ : ∃ R, a.Replaces R := by
    cases operation with
    | upgrade => exact ⟨_, PackageAction.checkPolicy_upgrade hpolicy hoperation⟩
    | downgrade => exact ⟨_, PackageAction.checkPolicy_downgrade hpolicy hoperation⟩
    | reinstall => exact ⟨_, PackageAction.checkPolicy_reinstall hpolicy hoperation⟩
  obtain ⟨vendor, hleft, hright⟩ := hreplaces.vendor
  rw [hinstalled] at hleft
  rw [hcandidate] at hright
  exact (Option.some.inj hleft).trans (Option.some.inj hright).symm

/-! ## Without a vendor -/

theorem vendor_of_residentCandidateFor {repository : PlanningRepository} {base : Core.Architecture}
    {item : RepositoryPackage} (h : residentCandidateFor repository base item = .ok (some candidate)) :
    candidate.vendor = if item.vendor = "" then "unknown" else item.vendor := by
  obtain ⟨⟨epoch, version, release⟩, -, h⟩ := Except.bind_eq_ok.mp h
  obtain ⟨architecture, -, h⟩ := Except.bind_eq_ok.mp h
  cases architecture with
  | none => cases h
  | some architecture =>
    simp only [Except.check_bind_eq_ok] at h
    cases Except.pure_eq_ok.mp h.2
    rfl

/-- The two sides do not agree on what a missing vendor is. -/
theorem vendor_ne_of_missing {header : InstalledHeader} {repository : PlanningRepository}
    {base : Core.Architecture} {item : RepositoryPackage} (hheader : header.vendor = none)
    (hinstalled : Native.installedOf header = .ok (some installed)) (hitem : item.vendor = "")
    (hcandidate : residentCandidateFor repository base item = .ok (some candidate)) :
    installed.vendor ≠ candidate.vendor := by
  rw [Native.vendor_of_installedOf hinstalled, hheader, vendor_of_residentCandidateFor hcandidate,
    if_pos hitem]
  decide

/-- Between two vendors the policy has one error for two versions of one architecture. -/
theorem replacementCheck_of_vendor_ne {old new : Core.Evra} {installedVendor candidateVendor : String}
    (hold : old.validate = .ok ()) (hnew : new.validate = .ok ()) (harch : old.arch = new.arch)
    (hne : installedVendor ≠ candidateVendor) :
    replacementCheck operation (.replace operation old new installedVendor candidateVendor) =
      .error (.unsafeAction "vendor switch") := by
  have hidentity : SolverPolicy.validateReplacementIdentity old new installedVendor candidateVendor =
      .error (.unsafeAction "vendor switch") := by
    simp [SolverPolicy.validateReplacementIdentity, hold, hnew, harch, hne, Except.refuseIf]
  cases operation with
  | upgrade =>
    simp only [replacementCheck, SolverPolicy.validateUpgrade, hidentity]
    rfl
  | downgrade =>
    simp only [replacementCheck, SolverPolicy.validateDowngrade, hidentity]
    rfl
  | reinstall =>
    simp only [replacementCheck, SolverPolicy.validateReinstall, hidentity]
    rfl

/-- A package without a vendor cannot be replaced by one without a vendor: the policy takes it for a
switch of vendors, the plan builder does not find the candidate among those of the installed vendor and
explains no action of it, and no executable plan holds one. -/
theorem missing_vendor_is_switched {header : InstalledHeader} {repository : PlanningRepository}
    {base : Core.Architecture} {item : RepositoryPackage} (hheader : header.vendor = none)
    (hinstalled : Native.installedOf header = .ok (some installed)) (hitem : item.vendor = "")
    (hcandidate : residentCandidateFor repository base item = .ok (some candidate))
    (operation : ReplacementOperation) :
    (∀ old new : Core.Evra, old.validate = .ok () → new.validate = .ok () → old.arch = new.arch →
      replacementCheck operation (.replace operation old new installed.vendor candidate.vendor) =
        .error (.unsafeAction "vendor switch")) ∧
    (∀ b : PlanBuilder, b.validateCandidate candidate (some installed) (some installed.vendor) true
      false ≠ .ok ()) ∧
    (∀ (b : PlanBuilder) (resolved : ResolvedAction) (relation : RequestedRelation)
      (explained : Solver.ExplainedAction), resolved.operation = resolvedOperation operation →
      resolved.candidate = some candidate → resolved.installedVendor = some installed.vendor →
      b.installOrUpgrade resolved (some installed) relation ≠ .ok explained) ∧
    ∀ (plan : PlanEnvelope) (policy : SolverPolicy) (nowUnix : UInt64), ∀ a ∈ plan.actions,
      a.operation = packageOperation operation → a.installedVendor = some installed.vendor →
      a.candidateVendor = some candidate.vendor → plan.validateExecutable policy nowUnix ≠ .ok () := by
  have hne := vendor_ne_of_missing hheader hinstalled hitem hcandidate
  refine ⟨fun old new hold hnew harch => replacementCheck_of_vendor_ne hold hnew harch hne,
    fun b h => ?_, fun b resolved relation explained hoperation hsome hvendor h => ?_,
    fun plan policy nowUnix a ha hoperation hold hnew h => ?_⟩
  · exact hne (vendor_of_validateCandidate h).symm
  · exact hne (vendor_of_installOrUpgrade hoperation hsome hvendor h)
  · exact hne (vendor_of_validateExecutable ha hoperation hold hnew h)

end

/-! ### A package of a local build -/

/-- `app` as a build without a vendor left it in the database. -/
def appHeader : InstalledHeader where
  name := some "app"
  version := some "1"
  release := some "1"
  arch := some "x86_64"
  vendor := none
  epoch := 0
  dbInstance := 7
  installTime := 1
  exported := some Core.zeroDigest.asStr

def appItem (evr : String) : RepositoryPackage where
  name := "app"
  arch := "x86_64"
  evr := evr
  vendor := ""
  packageSize := 100
  installedSize := 200
  checksumSha256 := Core.zeroDigest.asStr
  location := "Packages/app.rpm"
  requires := []
  recommends := []
  supplements := []
  enhances := []

def appInstalled : InstalledPackage where
  name := "app"
  evra := ⟨0, "1", "1", .x86_64⟩
  vendor := ""
  dbInstance := 7
  installTime := 1
  immutableHeaderSha256 := Core.zeroDigest
  named := Core.app_ne_empty
  valid := Core.validate_first

def appCandidate (version : String) : CandidatePackage where
  name := "app"
  evra := ⟨0, version, "1", .x86_64⟩
  vendor := "unknown"
  repoId := "fedora"
  priority := 99
  cost := 1000
  packageSize := 100
  installedSize := 200
  checksumSha256 := Core.zeroDigest.asStr
  location := "Packages/app.rpm"
  excluded := false
  modular := false

theorem installedOf_appHeader : Native.installedOf appHeader = .ok (some appInstalled) := by
  rw [← Except.toOption_eq_some]
  decide +kernel

/-- The database, the repository and the versions of the candidates: a newer one, an older one and the
installed one. -/
theorem residentCandidateFor_appItem :
    residentCandidateFor Planning.fedoraRepository .x86_64 (appItem "2-1") =
      .ok (some (appCandidate "2")) ∧
    residentCandidateFor Planning.fedoraRepository .x86_64 (appItem "0-1") =
      .ok (some (appCandidate "0")) ∧
    residentCandidateFor Planning.fedoraRepository .x86_64 (appItem "1-1") =
      .ok (some (appCandidate "1")) := by
  simp only [← Except.toOption_eq_some]
  decide +kernel

theorem missing_vendor_is_switched_app :
    SolverPolicy.validateUpgrade (.replace .upgrade appInstalled.evra (appCandidate "2").evra ""
      "unknown") = .error (.unsafeAction "vendor switch") := by
  have hnew : (appCandidate "2").evra.validate = .ok () := by
    rw [← Except.toOption_eq_some]
    decide +kernel
  exact (missing_vendor_is_switched rfl installedOf_appHeader rfl residentCandidateFor_appItem.1
    .upgrade).1 appInstalled.evra (appCandidate "2").evra appInstalled.valid hnew rfl

/-- The newer `app` is no upgrade, the older one no downgrade and the same one no reinstallation. -/
theorem missing_vendor_is_not_manageable :
    ∃ (header : InstalledHeader) (installed : InstalledPackage) (newer older same : CandidatePackage),
      header.vendor = none ∧ Native.installedOf header = .ok (some installed) ∧
      residentCandidateFor Planning.fedoraRepository .x86_64 (appItem "2-1") = .ok (some newer) ∧
      residentCandidateFor Planning.fedoraRepository .x86_64 (appItem "0-1") = .ok (some older) ∧
      residentCandidateFor Planning.fedoraRepository .x86_64 (appItem "1-1") = .ok (some same) ∧
      newer.evra.isStrictlyNewerThan installed.evra = true ∧
      installed.evra.isStrictlyNewerThan older.evra = true ∧ same.evra = installed.evra ∧
      SolverPolicy.validateUpgrade (.replace .upgrade installed.evra newer.evra installed.vendor
        newer.vendor) ≠ .ok () ∧
      SolverPolicy.validateDowngrade (.replace .downgrade installed.evra older.evra installed.vendor
        older.vendor) ≠ .ok () ∧
      SolverPolicy.validateReinstall (.replace .reinstall installed.evra same.evra installed.vendor
        same.vendor) ≠ .ok () := by
  obtain ⟨hnewer, holder, hsame⟩ := residentCandidateFor_appItem
  refine ⟨appHeader, appInstalled, appCandidate "2", appCandidate "0", appCandidate "1", rfl,
    installedOf_appHeader, hnewer, holder, hsame, ?_⟩
  simp only [ne_eq, ← Except.toOption_eq_some]
  decide +kernel

end Dnfast.Executor
