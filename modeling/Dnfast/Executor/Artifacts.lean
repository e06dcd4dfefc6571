import Dnfast.Data.Rank
import Dnfast.Executor.Incremental
import Dnfast.Native.Transaction
import Dnfast.Trust.Signer

/-! # The artifacts of a plan

`compact_inputs.rs` and `execute.rs`: the manifest has an artifact for each action of the plan with a
record of one, in the order of the plan, and the files come in this order. The executor looks for the
staged artifact of an action by the repository, the name and the version, verifies it, and then takes for
each action the first verified artifact of its name. -/

namespace Dnfast.Executor

open Core (InstalledInventory InstalledPackage SolverPolicy)
open Except (okOr refuseIf)
open Native (TransactionInstallMode)
open Solver (CanonicalSolverPlan ExplainedAction)
open Trust (Bundle ExpectedPackage KeyringInstalled Librpm VerifiedArtifact VerifiedStagedKey)

/-! ## The manifest -/

structure CompactKey where
  bundlePath : String
  certificateBase64 : String

structure CompactRepository where
  id : String
  priority : Int32
  cost : Int32
  trust : Trust.RepoTrustPolicy
  keys : List CompactKey
  generationSha256 : String
  originSha256 : String
  trustSha256 : String

structure CompactArtifact where
  fdIndex : UInt32
  name : String
  epoch : UInt64
  version : String
  release : String
  arch : String
  vendor : String
  sha256 : String
  size : UInt64
  repoId : String
  generationSha256 : String
  originSha256 : String
  trustSha256 : String

structure CompactManifest where
  schemaVersion : UInt32
  planDigest : String
  planningSnapshotSha256 : String
  rpmdbCookie : String
  inventory : InstalledInventory
  policy : SolverPolicy
  repositories : List CompactRepository
  artifacts : List CompactArtifact

/-- The errors of the inputs; those of other crates are their texts. -/
inductive InputsError where
  | inputs (message : String)
  | plan (message : String)
  | cache (message : String)
  | native (error : Trust.TrustError)
  deriving DecidableEq

/-- The digests of canonical texts, and the decoder of `base64`. -/
structure InputCrates where
  planDigest : CanonicalSolverPlan → Except InputsError String
  inventorySha256 : InstalledInventory → Except InputsError String
  policySha256 : SolverPolicy → Except InputsError String
  trustSha256 : Trust.RepoTrustPolicy → Except InputsError String
  base64Decode : String → Option (List UInt8)

def differs (message : String) (c : Prop) [Decidable c] : Except InputsError Unit :=
  refuseIf c (.inputs message)

/-- The actions that have an artifact. -/
def planned (plan : CanonicalSolverPlan) : List ExplainedAction :=
  plan.actions.filter (·.artifact.isSome)

namespace CompactManifest

variable (crates : InputCrates)

def checkRepository (repository : CompactRepository) (binding : Core.RepositoryBinding) :
    Except InputsError Unit := do
  let trust ← crates.trustSha256 repository.trust
  differs "compact repository binding differs from plan" (repository.id ≠ binding.id ∨
    repository.generationSha256 ≠ binding.generationSha256.asStr ∨
    repository.originSha256 ≠ binding.originSha256.asStr ∨
    repository.trustSha256 ≠ binding.trustSha256.asStr ∨ repository.trust.repoId ≠ repository.id ∨
    trust ≠ repository.trustSha256)

def checkArtifact (repositories : List CompactRepository) (index : Nat) (artifact : CompactArtifact)
    (action : ExplainedAction) : Except InputsError Unit := do
  let repository ← okOr (repositories.find? (·.id = artifact.repoId))
    (.inputs "compact artifact repository is absent")
  differs "compact artifact binding differs from plan" (artifact.fdIndex.toNat ≠ index ∨
    artifact.name ≠ action.name ∨ artifact.epoch.toNat ≠ action.targetEvra.epoch.toNat ∨
    artifact.version ≠ action.targetEvra.version ∨ artifact.release ≠ action.targetEvra.release ∨
    artifact.arch ≠ action.targetEvra.arch.asRpmArch ∨ action.vendor ≠ some artifact.vendor ∨
    action.repoId ≠ some artifact.repoId ∨
    action.artifact.map (·.checksumSha256) ≠ some artifact.sha256 ∨
    action.artifact.map (·.packageSize) ≠ some artifact.size ∨
    artifact.generationSha256 ≠ repository.generationSha256 ∨
    artifact.originSha256 ≠ repository.originSha256 ∨ artifact.trustSha256 ≠ repository.trustSha256)

def validateStatic (m : CompactManifest) (plan : CanonicalSolverPlan) (artifactCount : Nat) :
    Except InputsError Unit := do
  let planDigest ← crates.planDigest plan
  let inventory ← crates.inventorySha256 m.inventory
  let policy ← crates.policySha256 m.policy
  let integrity := plan.proposal.integrity
  differs "compact manifest binding differs from plan" (m.schemaVersion ≠ 1 ∨ m.rpmdbCookie = "" ∨
    m.rpmdbCookie.utf8ByteSize > 4096 ∨ m.artifacts.length ≠ artifactCount ∨
    m.planDigest ≠ planDigest ∨ m.planningSnapshotSha256 ≠ integrity.planningSnapshotSha256.asStr ∨
    inventory ≠ integrity.inventorySha256.asStr ∨ policy ≠ integrity.policySha256.asStr)
  differs "compact repository count differs from plan"
    (m.repositories.length ≠ integrity.selectedRepositories.length)
  forM (m.repositories.zip integrity.selectedRepositories) fun (repository, binding) =>
    checkRepository crates repository binding
  differs "compact artifact set differs from plan" ((planned plan).length ≠ m.artifacts.length)
  forM (m.artifacts.zip (planned plan)).zipIdx fun ((artifact, action), index) =>
    checkArtifact m.repositories index artifact action

end CompactManifest

/-! ## What is staged -/

structure StagedRepository where
  id : String
  trust : Trust.RepoTrustPolicy
  keys : List VerifiedStagedKey
  generationSha256 : String
  originSha256 : String
  trustSha256 : String

structure StagedArtifact (File : Type) where
  file : File
  expected : ExpectedPackage
  sha256 : String
  size : UInt64
  repoId : String
  generationSha256 : String
  originSha256 : String
  trustSha256 : String

structure StagedInputs (File : Type) where
  repositories : List StagedRepository
  artifacts : List (StagedArtifact File)

def stagedArtifact {File : Type} (artifact : CompactArtifact) (file : File) : StagedArtifact File where
  file := file
  expected := ⟨artifact.name, artifact.epoch, artifact.version, artifact.release, artifact.arch,
    artifact.vendor⟩
  sha256 := artifact.sha256
  size := artifact.size
  repoId := artifact.repoId
  generationSha256 := artifact.generationSha256
  originSha256 := artifact.originSha256
  trustSha256 := artifact.trustSha256

def stagedKey (crates : InputCrates) (key : CompactKey) : Except InputsError VerifiedStagedKey := do
  let certificate ← okOr (crates.base64Decode key.certificateBase64)
    (.inputs "compact key certificate is not base64")
  return ⟨key.bundlePath, certificate⟩

def CompactManifest.intoTransaction {File : Type} (crates : InputCrates) (m : CompactManifest)
    (files : List File) : Except InputsError (StagedInputs File) := do
  let repositories ← m.repositories.mapM fun repository => do
    let keys ← repository.keys.mapM (stagedKey crates)
    return (⟨repository.id, repository.trust, keys, repository.generationSha256,
      repository.originSha256, repository.trustSha256⟩ : StagedRepository)
  return ⟨repositories, m.artifacts.zipWith stagedArtifact files⟩

/-! ## Verifying and adding -/

/-- `librpm`, the clock, the contents of a file and the check of its size and digest. -/
structure FileChecks (File : Type) where
  lib : Librpm
  now : UInt64
  bytes : File → List UInt8
  verifyIdentity : File → String → UInt64 → Except String Unit

def modeOf (operation : String) : TransactionInstallMode :=
  if operation = "upgrade" then .upgrade
  else if operation = "downgrade" then .downgrade
  else if operation = "reinstall" then .reinstall
  else .install

/-- A verified artifact, with its place among the staged ones. -/
structure Verified (File : Type) where
  position : Nat
  file : File
  sha256 : String
  size : UInt64
  artifact : VerifiedArtifact
  mode : TransactionInstallMode

/-- A call of the native layer for an action. -/
inductive AddCall (File : Type) where
  | erase (installed : InstalledPackage)
  | install (v : Verified File)

section
variable {File : Type} (checks : FileChecks File) (staged : StagedInputs File)

/-- The staged artifact is of the repository, the name and the version of the action. -/
def isStagedFor (repositoryId : String) (action : ExplainedAction) (artifact : StagedArtifact File) :
    Bool :=
  artifact.repoId = repositoryId && artifact.expected.name = action.name &&
    artifact.expected.epoch.toNat = action.targetEvra.epoch.toNat &&
    artifact.expected.version = action.targetEvra.version &&
    artifact.expected.release = action.targetEvra.release

def isolatedKeyring (repository : StagedRepository) : Except InputsError (String × KeyringInstalled) :=
  do
    let keyring ← (Trust.fromRevalidatedStagedBundle checks.lib checks.now
      ⟨repository.trust, repository.id, repository.keys⟩).mapError .native
    return (repository.id, keyring)

def verifyAction (keyrings : List (String × KeyringInstalled)) (action : ExplainedAction) :
    Except InputsError (Verified File) := do
  let repositoryId ← okOr action.repoId (.inputs "planned artifact has no repository")
  let (artifact, position) ← okOr (staged.artifacts.zipIdx.find? fun (artifact, _) =>
    isStagedFor repositoryId action artifact) (.inputs "staged artifact for planned action is absent")
  let repository ← okOr (staged.repositories.find? (·.id = artifact.repoId))
    (.inputs "staged artifact repository is absent")
  refuseIf (artifact.generationSha256 ≠ repository.generationSha256 ∨
    artifact.originSha256 ≠ repository.originSha256 ∨ artifact.trustSha256 ≠ repository.trustSha256)
    (.inputs "staged artifact repository binding differs")
  let (_, keyring) ← okOr (keyrings.find? (·.1 = artifact.repoId))
    (.inputs "isolated repository keyring is absent")
  (checks.verifyIdentity artifact.file artifact.sha256 artifact.size).mapError .cache
  let verified ← (keyring.verifyArtifact checks.lib (checks.bytes artifact.file) artifact.expected
    repository.trust.signingSubkeyRule).mapError .native
  return ⟨position, artifact.file, artifact.sha256, artifact.size, verified, modeOf action.operation⟩

def verifyArtifacts (plan : CanonicalSolverPlan) : Except InputsError (List (Verified File)) := do
  let keyrings ← staged.repositories.mapM (isolatedKeyring checks)
  (plan.actions.filter installs).mapM (verifyAction checks staged keyrings)

def eraseLookupText : Core.EraseLookupError → String
  | .notFound => "installed instance was not found"
  | .headerMismatch => "installed instance header digest changed"
  | .ambiguous => "installed instance identity is ambiguous"

/-- The call for an action. The verified artifact is looked for by the name alone. -/
def addCall (inventory : InstalledInventory) (verified : List (Verified File))
    (action : ExplainedAction) : Except InputsError (AddCall File) :=
  if action.operation = "remove" then do
    let dbInstance ← okOr action.installedInstance (.plan "remove action lacks installed instance")
    let header ← okOr action.installedHeaderSha256 (.plan "remove action lacks installed header")
    let installed ← (inventory.eraseTarget dbInstance header).mapError fun e =>
      .plan (eraseLookupText e)
    return .erase installed
  else if installs action then do
    let v ← okOr (verified.find? fun v =>
      (staged.artifacts[v.position]?).any (·.expected.name = action.name))
      (.plan "verified artifact is absent")
    return .install v
  else .error (.plan "unknown planned operation")

end

/-! ## Which artifact an action gets -/

section
variable {File : Type} {crates : InputCrates} {m : CompactManifest} {plan : CanonicalSolverPlan}
  {files : List File} {staged : StagedInputs File} {checks : FileChecks File}
  {keyrings : List (String × KeyringInstalled)} {action other : ExplainedAction} {v : Verified File}
  {artifact : StagedArtifact File} {k : Nat}

/-- The staged artifact is that of the record of the action. -/
structure BoundTo (artifact : StagedArtifact File) (action : ExplainedAction) : Prop where
  name : artifact.expected.name = action.name
  epoch : artifact.expected.epoch.toNat = action.targetEvra.epoch.toNat
  version : artifact.expected.version = action.targetEvra.version
  release : artifact.expected.release = action.targetEvra.release
  arch : artifact.expected.arch = action.targetEvra.arch.asRpmArch
  vendor : action.vendor = some artifact.expected.vendor
  repository : action.repoId = some artifact.repoId
  checksum : action.artifact.map (·.checksumSha256) = some artifact.sha256
  size : action.artifact.map (·.packageSize) = some artifact.size

/-- The actions are of one repository, name and version. -/
def SameSource (a b : ExplainedAction) : Prop :=
  a.repoId = b.repoId ∧ a.name = b.name ∧ a.targetEvra.epoch = b.targetEvra.epoch ∧
    a.targetEvra.version = b.targetEvra.version ∧ a.targetEvra.release = b.targetEvra.release

theorem boundTo_of_checkArtifact {repositories : List CompactRepository} {artifact : CompactArtifact}
    {file : File} (h : CompactManifest.checkArtifact repositories k artifact action = .ok ()) :
    BoundTo (stagedArtifact artifact file) action := by
  obtain ⟨repository, -, h⟩ := Except.bind_eq_ok.mp h
  simp only [differs, Except.refuseIf_eq_ok, not_or, not_not] at h
  obtain ⟨-, hname, hepoch, hversion, hrelease, harch, hvendor, hrepository, hchecksum, hsize, -⟩ := h
  exact ⟨hname, hepoch, hversion, hrelease, harch, hvendor, hrepository, hchecksum, hsize⟩

theorem validateStatic_eq_ok {count : Nat} (h : m.validateStatic crates plan count = .ok ()) :
    m.artifacts.length = count ∧ (planned plan).length = m.artifacts.length ∧
      ∀ k artifact action, m.artifacts[k]? = some artifact → (planned plan)[k]? = some action →
        CompactManifest.checkArtifact m.repositories k artifact action = .ok () := by
  simp only [CompactManifest.validateStatic, Except.bind_eq_ok] at h
  obtain ⟨_, -, _, -, _, -, _, hbinding, _, -, _, -, _, hlength, h⟩ := h
  simp only [differs, Except.refuseIf_eq_ok, not_or, not_not] at hbinding hlength
  refine ⟨hbinding.2.2.2.1, hlength, fun k artifact action hartifact haction => ?_⟩
  refine Except.forM_eq_ok.mp h ((artifact, action), k) ?_
  rw [List.mk_mem_zipIdx_iff_getElem?, List.getElem?_zip_eq_some]
  exact ⟨hartifact, haction⟩

/-- The staged artifacts are those of the actions with a record, and have the files in their order. -/
theorem staged_spec (hstatic : m.validateStatic crates plan files.length = .ok ())
    (hstaged : m.intoTransaction crates files = .ok staged) :
    staged.artifacts.map (·.file) = files ∧
      List.Forall₂ BoundTo staged.artifacts (planned plan) := by
  obtain ⟨hcount, hplanned, hcheck⟩ := validateStatic_eq_ok hstatic
  obtain ⟨repositories, -, hstaged⟩ := Except.bind_eq_ok.mp hstaged
  cases Except.pure_eq_ok.mp hstaged
  constructor
  · exact List.ext_getElem (by simp [hcount]) fun k hk hk' => by simp [stagedArtifact]
  · rw [List.forall₂_iff_get]
    refine ⟨by simp [hplanned, hcount], fun k hk hk' => ?_⟩
    have hartifact : k < m.artifacts.length := by simpa [hcount] using hk
    simp only [List.get_eq_getElem, List.getElem_zipWith]
    exact boundTo_of_checkArtifact (hcheck k _ _ (List.getElem?_eq_getElem hartifact)
      (List.getElem?_eq_getElem hk'))

/-- A staged artifact is found for an action when the action it belongs to is of the same source. -/
theorem isStagedFor_iff (hbound : BoundTo artifact other) {repositoryId : String}
    (hrepository : action.repoId = some repositoryId) :
    isStagedFor repositoryId action artifact = true ↔ SameSource other action := by
  simp only [isStagedFor, Bool.and_eq_true, decide_eq_true_eq, SameSource, hrepository,
    hbound.repository, hbound.name, hbound.epoch, hbound.version, hbound.release, Option.some.injEq,
    UInt32.toNat_inj, and_assoc]

/-- The artifact of an action is the first one of its source. -/
theorem verifyAction_eq_ok (hbound : List.Forall₂ BoundTo staged.artifacts (planned plan))
    (h : verifyAction checks staged keyrings action = .ok v) :
    ∃ other artifact, (planned plan)[v.position]? = some other ∧
      staged.artifacts[v.position]? = some artifact ∧ BoundTo artifact other ∧
      SameSource other action ∧
      (∀ j < v.position, ∀ o, (planned plan)[j]? = some o → ¬ SameSource o action) ∧
      v.file = artifact.file ∧ v.sha256 = artifact.sha256 ∧ v.size = artifact.size ∧
      v.mode = modeOf action.operation := by
  simp only [verifyAction, Except.bind_eq_ok, Except.okOr_eq_ok] at h
  obtain ⟨repositoryId, hrepository, ⟨artifact, position⟩, hfind, _, -, _, -, _, -, _, -, _, -, h⟩ := h
  cases Except.pure_eq_ok.mp h
  obtain ⟨-, hget, hstaged, hbefore⟩ := List.zipIdx_find?_eq_some hfind
  rw [Nat.sub_zero] at hget hbefore
  obtain ⟨other, hother, hbind⟩ := hbound.flip.getElem?_left hget
  refine ⟨other, artifact, hother, hget, hbind, (isStagedFor_iff hbind hrepository).mp hstaged,
    fun j hj o ho hsame => ?_, rfl, rfl, rfl, rfl⟩
  obtain ⟨earlier, hearlier, hbind'⟩ := hbound.getElem?_left ho
  have hno := hbefore j hj earlier hearlier
  rw [(isStagedFor_iff hbind' hrepository).mpr hsame] at hno
  cases hno

end

/-- The action at a place of the plan gets the file of its own place among the actions with a record, in
its own mode and under its own checksum, size and repository. -/
def GetsItsOwn {File : Type} (staged : StagedInputs File) (files : List File)
    (inventory : InstalledInventory) (verified : List (Verified File)) (plan : CanonicalSolverPlan)
    (i : Nat) (action : ExplainedAction) : Prop :=
  ∃ v record, action.artifact = some record ∧
    addCall staged inventory verified action = .ok (.install v) ∧
    v.position = plan.actions.rank (·.artifact.isSome) i ∧ files[v.position]? = some v.file ∧
    v.sha256 = record.checksumSha256 ∧ v.size = record.packageSize ∧
    v.mode = modeOf action.operation ∧
    (staged.artifacts[v.position]?).map (·.repoId) = action.repoId

/-- The actions that install something have records and names of their own, and no removal in front of
one has a record of an artifact of the same repository, name and version. -/
structure Associable (plan : CanonicalSolverPlan) : Prop where
  recorded : ∀ a ∈ plan.actions, installs a = true → a.artifact.isSome = true
  names : ∀ (i j : Nat) (a b : ExplainedAction), i < j → plan.actions[i]? = some a →
    plan.actions[j]? = some b → installs a = true → installs b = true → a.name ≠ b.name
  alone : ∀ (i j : Nat) (o a : ExplainedAction), i < j → plan.actions[i]? = some o →
    plan.actions[j]? = some a → installs o = false → o.artifact.isSome = true →
    installs a = true → ¬ SameSource o a

section
variable {File : Type} {plan : CanonicalSolverPlan} {files : List File} {staged : StagedInputs File}
  {checks : FileChecks File} {keyrings : List (String × KeyringInstalled)}
  {verified : List (Verified File)} {inventory : InstalledInventory} {action : ExplainedAction}
  {v : Verified File} {i : Nat}

/-- The verified artifact of a name is that of the first action of the name. -/
theorem find?_verified (hbound : List.Forall₂ BoundTo staged.artifacts (planned plan))
    {actions : List ExplainedAction}
    (hverified : List.Forall₂ (fun a v => verifyAction checks staged keyrings a = .ok v) actions
      verified) {name : String} {a : ExplainedAction}
    (hfirst : actions.find? (·.name = name) = some a) :
    ∃ v, verified.find? (fun v => (staged.artifacts[v.position]?).any (·.expected.name = name)) =
      some v ∧ verifyAction checks staged keyrings a = .ok v := by
  induction hverified with
  | nil => cases hfirst
  | @cons b v actions verified hv _ ih =>
    obtain ⟨other, artifact, -, hget, hbind, hsame, -⟩ := verifyAction_eq_ok hbound hv
    have hname : artifact.expected.name = b.name := hbind.name.trans hsame.2.1
    by_cases h : b.name = name
    · rw [List.find?_cons_of_pos (by simpa using h)] at hfirst
      cases hfirst
      exact ⟨v, List.find?_cons_of_pos (by simp [hget, hname, h]), hv⟩
    · rw [List.find?_cons_of_neg (by simpa using h)] at hfirst
      obtain ⟨w, hw, hwa⟩ := ih hfirst
      refine ⟨w, ?_, hwa⟩
      rw [List.find?_cons_of_neg (by simp [hget, hname, h])]
      exact hw

theorem addCall_of_installs (hinstalls : installs action = true) :
    addCall staged inventory verified action = .ok (.install v) ↔
      verified.find? (fun v => (staged.artifacts[v.position]?).any (·.expected.name = action.name)) =
        some v := by
  have hremove : action.operation ≠ "remove" := by
    intro h
    simp [installs, h] at hinstalls
  unfold addCall
  rw [if_neg hremove, if_pos hinstalls, Except.bind_eq_ok]
  constructor
  · rintro ⟨w, hw, h⟩
    cases Except.pure_eq_ok.mp h
    exact Except.okOr_eq_ok.mp hw
  · exact fun h => ⟨v, Except.okOr_eq_ok.mpr h, rfl⟩

/-- With names of their own the first action of a name is the action itself. -/
theorem find?_own {l : List ExplainedAction} (hget : l[i]? = some action)
    (hinstalls : installs action = true)
    (hnames : ∀ (i j : Nat) (a b : ExplainedAction), i < j → l[i]? = some a → l[j]? = some b →
      installs a = true → installs b = true → a.name ≠ b.name) :
    (l.filter installs).find? (·.name = action.name) = some action := by
  have hmem : action ∈ l.filter installs :=
    List.mem_filter.mpr ⟨List.mem_of_getElem? hget, hinstalls⟩
  obtain ⟨first, hfirst⟩ := Option.isSome_iff_exists.mp
    (List.find?_isSome.mpr ⟨action, hmem, by simp⟩ :
      ((l.filter installs).find? (·.name = action.name)).isSome)
  have hname : first.name = action.name := by simpa using List.find?_some hfirst
  obtain ⟨hfirstMem, hfirstInstalls⟩ := List.mem_filter.mp (List.mem_of_find?_eq_some hfirst)
  obtain ⟨j, hj⟩ := List.mem_iff_getElem?.mp hfirstMem
  rcases Nat.lt_trichotomy i j with hlt | rfl | hlt
  · exact absurd hname.symm (hnames i j action first hlt hget hj hinstalls hfirstInstalls)
  · cases hget.symm.trans hj
    exact hfirst
  · exact absurd hname (hnames j i first action hlt hj hget hfirstInstalls hinstalls)

/-- The first artifact of a source is that of the action itself when no other one of the source stands in
front of it. -/
theorem position_eq_iff (hbound : List.Forall₂ BoundTo staged.artifacts (planned plan))
    (hget : plan.actions[i]? = some action) (hrecord : action.artifact.isSome = true)
    (hv : verifyAction checks staged keyrings action = .ok v) :
    v.position = plan.actions.rank (·.artifact.isSome) i ↔
      ∀ j < i, ∀ o, plan.actions[j]? = some o → o.artifact.isSome = true → ¬ SameSource o action := by
  obtain ⟨other, artifact, hother, -, -, hsame, hbefore, -⟩ := verifyAction_eq_ok hbound hv
  have hown : (planned plan)[plan.actions.rank (·.artifact.isSome) i]? = some action :=
    List.getElem?_filter_rank hget hrecord
  constructor
  · intro hposition j hj o ho hsome hso
    have hlt := List.rank_lt_rank (p := (·.artifact.isSome)) ho hsome hj
    rw [← hposition] at hlt
    exact hbefore _ hlt o (List.getElem?_filter_rank ho hsome) hso
  · intro hnone
    obtain ⟨j, hj, hsome, hrank⟩ := List.exists_getElem?_of_filter hother
    rcases Nat.lt_trichotomy j i with hlt | rfl | hlt
    · exact absurd hsame (hnone j hlt other hj hsome)
    · exact hrank.symm
    · have hlater := List.rank_lt_rank (p := (·.artifact.isSome)) hget hrecord hlt
      rw [hrank] at hlater
      exact absurd ⟨rfl, rfl, rfl, rfl, rfl⟩ (hbefore _ hlater action hown)

/-- Every installing action gets its own artifact exactly when the plan is `Associable`. -/
theorem getsItsOwn_iff {crates : InputCrates} {m : CompactManifest}
    (hstatic : m.validateStatic crates plan files.length = .ok ())
    (hstaged : m.intoTransaction crates files = .ok staged)
    (hverified : verifyArtifacts checks staged plan = .ok verified) :
    (∀ i action, plan.actions[i]? = some action → installs action = true →
      GetsItsOwn staged files inventory verified plan i action) ↔ Associable plan := by
  obtain ⟨hfiles, hbound⟩ := staged_spec hstatic hstaged
  obtain ⟨keyrings, -, hverified⟩ := Except.bind_eq_ok.mp hverified
  rw [Except.mapM_eq_ok] at hverified
  constructor
  · intro hown
    have hrecorded : ∀ a ∈ plan.actions, installs a = true → a.artifact.isSome = true := by
      intro a ha hinstalls
      obtain ⟨i, hi⟩ := List.mem_iff_getElem?.mp ha
      obtain ⟨v, record, hrecord, -⟩ := hown i a hi hinstalls
      rw [hrecord]
      rfl
    -- two actions of one name get the same artifact, which has one place
    have hnames : ∀ (i j : Nat) (a b : ExplainedAction), i < j → plan.actions[i]? = some a →
        plan.actions[j]? = some b → installs a = true → installs b = true → a.name ≠ b.name := by
      intro i j a b hij hi hj ha hb hname
      obtain ⟨v, record, hrecord, hcall, hposition, -⟩ := hown i a hi ha
      obtain ⟨w, -, -, hcall', hposition', -⟩ := hown j b hj hb
      rw [addCall_of_installs ha, hname] at hcall
      rw [addCall_of_installs hb, hcall] at hcall'
      cases hcall'
      have hlt := List.rank_lt_rank (p := (·.artifact.isSome)) hi (by rw [hrecord]; rfl) hij
      rw [← hposition, ← hposition'] at hlt
      exact absurd hlt (Nat.lt_irrefl _)
    refine ⟨hrecorded, hnames, fun i j o a hij hi hj _ hsome ha hsame => ?_⟩
    obtain ⟨v, hfind, hv⟩ := find?_verified hbound hverified (find?_own hj ha hnames)
    obtain ⟨w, -, -, hcall, hposition, -⟩ := hown j a hj ha
    rw [addCall_of_installs ha, hfind] at hcall
    cases hcall
    have hrecord := hrecorded a (List.mem_of_getElem? hj) ha
    exact (position_eq_iff hbound hj hrecord hv).mp hposition i hij o hi hsome hsame
  · intro h i a hi ha
    obtain ⟨v, hfind, hv⟩ := find?_verified hbound hverified (find?_own hi ha h.names)
    have hsome := h.recorded a (List.mem_of_getElem? hi) ha
    have hposition : v.position = plan.actions.rank (·.artifact.isSome) i := by
      refine (position_eq_iff hbound hi hsome hv).mpr fun j hj o ho hrecord hsame => ?_
      cases hinstalls : installs o with
      | true => exact h.names j i o a hj ho hi hinstalls ha hsame.2.1
      | false => exact h.alone j i o a hj ho hi hinstalls hrecord ha hsame
    obtain ⟨other, artifact, hother, hget, hbind, -, -, hfile, hsha, hsize, hmode⟩ :=
      verifyAction_eq_ok hbound hv
    have hself : (planned plan)[v.position]? = some a := by
      rw [hposition]
      exact List.getElem?_filter_rank hi hsome
    cases hother.symm.trans hself
    obtain ⟨record, hrecord⟩ := Option.isSome_iff_exists.mp hsome
    have hchecksum := hbind.checksum
    have hrecordSize := hbind.size
    rw [hrecord, Option.map_some, Option.some.injEq] at hchecksum hrecordSize
    refine ⟨v, record, hrecord, (addCall_of_installs ha).mpr hfind, hposition, ?_, ?_, ?_, hmode, ?_⟩
    · rw [← hfiles, List.getElem?_map, hget, Option.map_some, hfile]
    · rw [hsha, hchecksum]
    · rw [hsize, hrecordSize]
    · rw [hget, Option.map_some, hbind.repository]

end

/-! ### Two versions of one package -/

/-- `from_canonical_json`, over the decoder and the encoder of `serde_json`. -/
def fromCanonicalJson (decode : List UInt8 → Except String CanonicalSolverPlan)
    (encode : CanonicalSolverPlan → List UInt8) (bytes : List UInt8) (nowUnix : UInt64) :
    Except Solver.PlanError CanonicalSolverPlan := do
  refuseIf (bytes.length > 16 * 1024 * 1024) (.invalid "plan exceeds 16 MiB")
  let value ← (decode bytes).mapError .canonical
  value.validate
  refuseIf (encode value ≠ bytes) (.canonical "non-canonical JSON")
  (value.proposal.validateNow nowUnix).mapError Solver.canonicalError
  return value

theorem fromCanonicalJson_of_valid {decode : List UInt8 → Except String CanonicalSolverPlan}
    {encode : CanonicalSolverPlan → List UInt8} {bytes : List UInt8} {nowUnix : UInt64}
    {plan : CanonicalSolverPlan} (hdecode : decode bytes = .ok plan) (hencode : encode plan = bytes)
    (hlength : bytes.length ≤ 16 * 1024 * 1024) (hvalid : plan.validate = .ok ())
    (hnow : plan.proposal.validateNow nowUnix = .ok ()) :
    fromCanonicalJson decode encode bytes nowUnix = .ok plan := by
  simp [fromCanonicalJson, hdecode, hencode, hvalid, hnow, Except.refuseIf, hlength]
  rfl

def installApp (version : String) (size : UInt64) : ExplainedAction where
  operation := "install"
  name := "app"
  targetEvra := ⟨0, version, "1", .noarch⟩
  installedEvra := none
  installedInstance := none
  installedHeaderSha256 := none
  installedVendor := none
  vendor := some "Vendor"
  repoId := some "fedora"
  reason := .user
  relation := .requested
  requestedBy := none
  dependencyEdges := []
  provenance := none
  packageSize := size
  installedSize := 200
  artifact := some ⟨Core.zeroDigest.asStr, "app.rpm", size⟩
  protection := ⟨false, false, false⟩
  explanation := "libsolv typed causal decision"

/-- Both versions are installed side by side. -/
def twoVersions : CanonicalSolverPlan where
  schema := "dnfast.explained-plan.v1"
  proposal := ⟨2, "/", Solver.installApp, Core.fedoraIntegrity, 100,
    ["1", "2"].map fun version => Core.PackageAction.installWithVendor "app" ⟨0, version, "1", .noarch⟩
      "fedora" "Vendor" .user⟩
  actions := [installApp "1" 129, installApp "2" 130]

def fedoraBundle : Bundle := Trust.vendorBundle "fedora" Core.fedora_ne_empty [[0xaa]]

def compactApp (index : UInt32) (version : String) (size : UInt64) : CompactArtifact where
  fdIndex := index
  name := "app"
  epoch := 0
  version := version
  release := "1"
  arch := "noarch"
  vendor := "Vendor"
  sha256 := Core.zeroDigest.asStr
  size := size
  repoId := "fedora"
  generationSha256 := Core.zeroDigest.asStr
  originSha256 := Core.zeroDigest.asStr
  trustSha256 := Core.zeroDigest.asStr

def twoManifest : CompactManifest where
  schemaVersion := 1
  planDigest := Core.zeroDigest.asStr
  planningSnapshotSha256 := Core.zeroDigest.asStr
  rpmdbCookie := "cookie"
  inventory := Solver.noPackages
  policy := Core.kernelPolicy
  repositories := [⟨"fedora", 99, 1000, fedoraBundle.policy, [⟨"0", "qg=="⟩], Core.zeroDigest.asStr,
    Core.zeroDigest.asStr, Core.zeroDigest.asStr⟩]
  artifacts := [compactApp 0 "1" 129, compactApp 1 "2" 130]

/-- Digests that are all the same. -/
def zeroCrates : InputCrates :=
  ⟨fun _ => .ok Core.zeroDigest.asStr, fun _ => .ok Core.zeroDigest.asStr,
    fun _ => .ok Core.zeroDigest.asStr, fun _ => .ok Core.zeroDigest.asStr, fun _ => some [0xaa]⟩

/-- The file of the second version is a byte longer. -/
def twoFiles : List (List UInt8) := [Trust.smallFile, Trust.smallFile ++ [2]]

def twoChecks : FileChecks (List UInt8) where
  lib := { Trust.smallLibrpm 0xaa [0xaa] with
    header := fun file => { Trust.appHeader [0xaa] with
      version := some (if file.length = 129 then "1" else "2") } }
  now := 0
  bytes := id
  verifyIdentity _ _ _ := .ok ()

/-- The places of the artifacts that the actions get. -/
def placesOf {File : Type} (staged : StagedInputs File) (verified : List (Verified File))
    (plan : CanonicalSolverPlan) : List (Option Nat) :=
  plan.actions.map fun action =>
    match addCall staged Solver.noPackages verified action with
    | .ok (.install v) => some v.position
    | _ => none

theorem twoVersions_places :
    twoManifest.validateStatic zeroCrates twoVersions 2 = .ok () ∧
      ((twoManifest.intoTransaction zeroCrates twoFiles).toOption.bind fun staged =>
        (verifyArtifacts twoChecks staged twoVersions).toOption.map fun verified =>
          placesOf staged verified twoVersions) = some [some 0, some 0] := by
  rw [← Except.toOption_eq_some]
  decide +kernel

theorem exists_twoVersions : ∃ staged verified,
    twoManifest.intoTransaction zeroCrates twoFiles = .ok staged ∧
      verifyArtifacts twoChecks staged twoVersions = .ok verified ∧
      placesOf staged verified twoVersions = [some 0, some 0] := by
  obtain ⟨staged, hstaged, hplaces⟩ := Option.bind_eq_some_iff.mp twoVersions_places.2
  obtain ⟨verified, hverified, hplaces⟩ := Except.toOption_map_eq_some.mp hplaces
  exact ⟨staged, verified, Except.toOption_eq_some.mp hstaged, hverified, hplaces⟩

theorem getsItsOwn_iff_twoVersions : ∃ (staged : StagedInputs (List UInt8))
    (verified : List (Verified (List UInt8))),
    twoManifest.intoTransaction zeroCrates twoFiles = .ok staged ∧
      verifyArtifacts twoChecks staged twoVersions = .ok verified ∧
      ¬ ∀ i action, twoVersions.actions[i]? = some action → installs action = true →
        GetsItsOwn staged twoFiles Solver.noPackages verified twoVersions i action := by
  obtain ⟨staged, verified, hstaged, hverified, -⟩ := exists_twoVersions
  refine ⟨staged, verified, hstaged, hverified, ?_⟩
  rw [getsItsOwn_iff twoVersions_places.1 hstaged hverified]
  intro h
  exact h.names 0 1 _ _ (by decide) rfl rfl (by decide) (by decide) rfl

/-- A plan with two versions of a package is read, its manifest and its files are accepted, and the second
version gets the file of the first one. -/
theorem second_version_gets_first :
    ∃ (plan : CanonicalSolverPlan) (m : CompactManifest) (files : List (List UInt8))
      (staged : StagedInputs (List UInt8)) (verified : List (Verified (List UInt8))),
      (∀ decode encode bytes, decode bytes = .ok plan → encode plan = bytes →
        bytes.length ≤ 16 * 1024 * 1024 → fromCanonicalJson decode encode bytes 0 = .ok plan) ∧
      m.validateStatic zeroCrates plan files.length = .ok () ∧
      m.intoTransaction zeroCrates files = .ok staged ∧
      verifyArtifacts twoChecks staged plan = .ok verified ∧
      ∃ action, plan.actions[1]? = some action ∧ installs action = true ∧
        ¬ GetsItsOwn staged files Solver.noPackages verified plan 1 action := by
  obtain ⟨staged, verified, hstaged, hverified, hplaces⟩ := exists_twoVersions
  refine ⟨twoVersions, twoManifest, twoFiles, staged, verified, ?_, twoVersions_places.1, hstaged,
    hverified, installApp "2" 130, rfl, by decide, ?_⟩
  · intro decode encode bytes hdecode hencode hlength
    have hvalid : twoVersions.validate = .ok () ∧ twoVersions.proposal.validateNow 0 = .ok () := by
      simp only [← Except.toOption_eq_some]
      decide +kernel
    exact fromCanonicalJson_of_valid hdecode hencode hlength hvalid.1 hvalid.2
  · rintro ⟨v, record, -, hcall, hposition, -⟩
    simp only [placesOf, twoVersions, List.map_cons, List.map_nil, List.cons.injEq] at hplaces
    rw [hcall] at hplaces
    have hzero : v.position = 0 := Option.some.inj hplaces.2.1
    rw [hzero] at hposition
    exact absurd hposition (by decide)

end Dnfast.Executor
