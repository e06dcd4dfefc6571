import Dnfast.Core.Executable
import Dnfast.Reason.Codec

/-! # Untouched packages

A package that a transaction does not touch should keep its recorded reason. It does so unless a
replaced or removed package hands its own reason over: reasons are inherited under the name and the
EVRA of the target, and the lookup comes before the package's own record, so an untouched package of
that name and EVRA takes the inherited reason (`recordSuccess_keeps_iff`). -/

namespace Dnfast.Reason

open Durable
open Dnfast.Core (PackageReason Evra InstalledPackage InstalledInventory PackageAction PlanEnvelope
  SolverPolicy canonicalEncode)
open Dnfast.State (StateError Process Directory)
open Dnfast.State.Directory (freshStat)

/-- Every package has exactly one record. -/
def OneEach (inventory : InstalledInventory) (s : ReasonState) : Prop :=
  (s.records.map fun r => (r.identity, r.packageName)).Perm
    (inventory.packages.map fun p => (identityOf p, p.name))

/-- The package is in both inventories with the same identity, its record is `r`, and the policy
does not keep it. -/
structure Untouched (before after : InstalledInventory) (policy : SolverPolicy) (s : ReasonState)
    (p : InstalledPackage) (r : ReasonRecord) : Prop where
  after : p ∈ after.packages
  before : identityOf p ∈ before.packages.map identityOf
  recorded : r ∈ s.records
  identity : r.identity = identityOf p
  free : policy.keeps p.name = false

/-- The state `s'` has, for every untouched package, the reason that `s` has. -/
def KeepsReasons (before after : InstalledInventory) (policy : SolverPolicy) (s s' : ReasonState) :
    Prop :=
  ∀ p r, Untouched before after policy s p r →
    ∀ r' ∈ s'.records, r'.identity = identityOf p → r'.reason = r.reason

/-- The action consumes the installed package of the record `q`, and its target has the name and the
EVRA of `p`. -/
structure HandsOver (a : PackageAction) (q : ReasonRecord) (p : InstalledPackage) : Prop where
  operation : a.operation ≠ .install
  consumed : a.installedInstance = some q.dbInstance
  header : a.installedHeaderSha256.map (·.asStr) = some q.headerSha256
  name : a.name = p.name
  target : a.targetEvra = p.evra

/-- The last action of the plan that consumes a recorded package and aims at the name and EVRA of an
untouched package, if there is one, consumes a package with the same reason. -/
def HarmlessHandovers (before after : InstalledInventory) (plan : PlanEnvelope)
    (policy : SolverPolicy) (s : ReasonState) : Prop :=
  ∀ p r, Untouched before after policy s p r →
    ∀ earlier a later, plan.actions = earlier ++ a :: later →
      ∀ q ∈ s.records, HandsOver a q p →
        (∀ b ∈ later, ∀ q' ∈ s.records, ¬ HandsOver b q' p) → q.reason = r.reason

section
variable {s s' : ReasonState} {before after : InstalledInventory} {plan : PlanEnvelope}
  {policy : SolverPolicy}

theorem oneEach_of_recorded {records : List ReasonRecord}
    (h : List.Forall₂ (RecordFor s before plan policy) after.packages records) :
    OneEach after ⟨1, records.insertionSort (· ≤ ·)⟩ := by
  have hmap : ∀ {ps : List InstalledPackage} {rs : List ReasonRecord},
      List.Forall₂ (RecordFor s before plan policy) ps rs →
      rs.map (fun r => (r.identity, r.packageName)) = ps.map fun p => (identityOf p, p.name) := by
    intro ps rs hps
    induction hps with
    | nil => rfl
    | cons hr _ ih => rw [List.map_cons, List.map_cons, ih, hr.identity, hr.name]
  rw [OneEach, ← hmap h]
  exact (List.perm_insertionSort (· ≤ ·) records).map _

theorem inheritance_eq_some (hs : ValidState s) {a : PackageAction} {p : InstalledPackage}
    {reason : PackageReason} :
    a.operation ≠ .install ∧ inheritance s a = some (plannedOf p, reason) ↔
      ∃ q ∈ s.records, HandsOver a q p ∧ q.reason = reason := by
  constructor
  · rintro ⟨hop, h⟩
    simp only [inheritance, Option.bind_eq_bind, Option.bind_eq_some_iff, Option.some.injEq,
      Prod.mk.injEq] at h
    obtain ⟨inst, hinst, header, hheader, q, hq, hname, hreason⟩ := h
    obtain ⟨hmem, hidentity⟩ := (existing_eq_some hs.identities).mp hq
    simp only [ReasonRecord.identity, InstalledIdentity.mk.injEq] at hidentity
    simp only [plannedOf, PlannedIdentity.mk.injEq] at hname
    exact ⟨q, hmem, ⟨hop, by rw [hinst, hidentity.1], by simp [hheader, hidentity.2], hname.1,
      hname.2⟩, hreason⟩
  · rintro ⟨q, hq, hands, rfl⟩
    obtain ⟨header, hheader, hstr⟩ := Option.map_eq_some_iff.mp hands.header
    have hexisting : s.existing ⟨q.dbInstance, header.asStr⟩ = some q :=
      (existing_eq_some hs.identities).mpr ⟨hq, by rw [ReasonRecord.identity, hstr]⟩
    refine ⟨hands.operation, ?_⟩
    simp [inheritance, hands.consumed, hheader, hexisting, hands.name, hands.target, plannedOf]

/-- What the collected inheritance says is what the last handover says. -/
theorem collected_replacementReasons (hs : ValidState s) {p : InstalledPackage}
    {reason : PackageReason} :
    collected (replacementReasons s plan) (plannedOf p) = some reason ↔
      ∃ earlier a later, plan.actions = earlier ++ a :: later ∧
        (∃ q ∈ s.records, HandsOver a q p ∧ q.reason = reason) ∧
        ∀ b ∈ later, ∀ q' ∈ s.records, ¬ HandsOver b q' p := by
  have hgives (a : PackageAction) (reason : PackageReason) :
      (if a.operation ≠ .install then inheritance s a else none) = some (plannedOf p, reason) ↔
        ∃ q ∈ s.records, HandsOver a q p ∧ q.reason = reason := by
    rw [← inheritance_eq_some hs]
    split <;> simp_all
  have hgivesNone (b : PackageAction) :
      (∀ w, (if b.operation ≠ .install then inheritance s b else none) ≠ some (plannedOf p, w)) ↔
        ∀ q' ∈ s.records, ¬ HandsOver b q' p := by
    simp only [ne_eq, hgives, not_exists, not_and]
    exact ⟨fun h q hq hands => h _ q hq hands rfl, fun h w q hq hands _ => h q hq hands⟩
  rw [replacementReasons, List.filterMap_filter, collected_filterMap]
  simp only [decide_eq_true_eq, hgives, hgivesNone]

/-- The reason recorded for an untouched package: the inherited one, else its own. -/
theorem recordedReason_untouched (hs : ValidState s) {p : InstalledPackage} {r : ReasonRecord}
    (hp : Untouched before after policy s p r) {item : ReconciledReason}
    (hidentity : item.identity = identityOf p) (hname : item.packageName = p.name) :
    recordedReason s plan policy item p.evra =
      (collected (replacementReasons s plan) (plannedOf p)).getD r.reason := by
  have hfree := hp.free
  rw [SolverPolicy.keeps, ← hname] at hfree
  have hexisting : s.existing item.identity = some r := by
    rw [hidentity]
    exact (existing_eq_some hs.identities).mpr ⟨hp.recorded, hp.identity⟩
  rw [recordedReason, hfree, hexisting, hname]
  cases h : collected (replacementReasons s plan) (plannedOf p) with
  | none =>
    rw [plannedOf] at h
    simp [h]
  | some reason =>
    rw [plannedOf] at h
    simp [h]

/-- A record of the written state with the identity of a package is the record of that package. -/
theorem recordFor_of_identity {records : List ReasonRecord}
    (h : List.Forall₂ (RecordFor s before plan policy) after.packages records)
    {p : InstalledPackage} (hp : p ∈ after.packages) {r' : ReasonRecord}
    (hr' : r' ∈ records) (hidentity : r'.identity = identityOf p) :
    RecordFor s before plan policy p r' := by
  obtain ⟨q, hq, hrecord⟩ := h.exists_left hr'
  have hsame : identityOf q = identityOf p := hrecord.identity.symm.trans hidentity
  rw [InstalledInventory.eq_of_dbInstance hp hq (congrArg InstalledIdentity.dbInstance hsame.symm)]
  exact hrecord

/-- Untouched packages keep their reasons exactly when handovers are harmless. -/
theorem keepsReasons_iff (hs : ValidState s) {records : List ReasonRecord}
    (h : List.Forall₂ (RecordFor s before plan policy) after.packages records) :
    KeepsReasons before after policy s ⟨1, records.insertionSort (· ≤ ·)⟩ ↔
      HarmlessHandovers before after plan policy s := by
  have hmem {r : ReasonRecord} : r ∈ records.insertionSort (· ≤ ·) ↔ r ∈ records :=
    (List.perm_insertionSort (· ≤ ·) records).mem_iff
  constructor
  · intro hkeeps p r hp earlier a later hactions q hq hands hlast
    obtain ⟨r', hr', hrecord⟩ := h.exists_right hp.after
    obtain ⟨item, hitem, hreason⟩ := hrecord.reason
    have hinherited : collected (replacementReasons s plan) (plannedOf p) = some q.reason :=
      (collected_replacementReasons hs).mpr
        ⟨earlier, a, later, hactions, ⟨q, hq, hands, rfl⟩, hlast⟩
    have hsame := hkeeps p r hp r' (hmem.mpr hr') hrecord.identity
    rw [hreason, recordedReason_untouched hs hp hitem.identity hitem.name, hinherited] at hsame
    exact hsame
  · intro hharmless p r hp r' hr' hidentity
    obtain ⟨item, hitem, hreason⟩ :=
      (recordFor_of_identity h hp.after (hmem.mp hr') hidentity).reason
    rw [hreason, recordedReason_untouched hs hp hitem.identity hitem.name]
    cases hinherited : collected (replacementReasons s plan) (plannedOf p) with
    | none => rfl
    | some reason =>
      obtain ⟨earlier, a, later, hactions, ⟨q, hq, hands, rfl⟩, hlast⟩ :=
        (collected_replacementReasons hs).mp hinherited
      exact hharmless p r hp earlier a later hactions q hq hands hlast

end

section
variable {fromSlice : List UInt8 → Except String ReasonState} {p : Process} {d : Directory}
  {s : ReasonState} {before after : InstalledInventory} {plan : PlanEnvelope}
  {policy : SolverPolicy} {fates : List (Fate StateError)}

/-- **Recording a transaction.** When the call succeeds the new state has one record for each
package, and untouched packages keep their reasons exactly when handovers are harmless. -/
theorem recordSuccess_keeps_iff (hread : readState fromSlice p.euid d = .ok s)
    (hrun : (recordSuccess fromSlice p before after plan policy fates d).1 = .ok ()) :
    ∃ s', (recordSuccess fromSlice p before after plan policy fates d).2.1.files[stateFile]? =
        some ⟨freshStat p.euid, canonicalEncode s'⟩ ∧
      (OneEach after s' ∧ KeepsReasons before after policy s s' ↔
        HarmlessHandovers before after plan policy s) := by
  obtain ⟨s', hrecorded, hwrote⟩ := recordSuccess_ok hread hrun
  obtain ⟨records, hok, hfor⟩ := recordedState_spec s before after plan policy
  rw [hrecorded] at hok
  cases hok
  refine ⟨_, hwrote.published.file, ?_⟩
  rw [keepsReasons_iff (readState_valid hread) hfor, and_iff_right (oneEach_of_recorded hfor)]

end

/-! Two versions of one package are installed, the older as a dependency and the newer for the user.
A plan that upgrades the older one to the EVRA of the newer hands the older one's reason over. -/

def oneDigest : Core.Sha256Digest :=
  ⟨"1111111111111111111111111111111111111111111111111111111111111111",
    Core.isLowerDigest_ofList (by decide)⟩

def libEvra (version : String) : Evra := ⟨0, version, "1.fc44", .x86_64⟩

def oldLib : InstalledPackage :=
  ⟨"lib", libEvra "1", "Fedora", 1, 10, Core.zeroDigest, Core.lib_ne_empty, by decide⟩

def newLib : InstalledPackage :=
  ⟨"lib", libEvra "2", "Fedora", 2, 20, oneDigest, Core.lib_ne_empty, by decide⟩

def latestLib : InstalledPackage :=
  ⟨"lib", libEvra "3", "Fedora", 3, 30, Core.zeroDigest, Core.lib_ne_empty, by decide⟩

def libInventory (packages : List InstalledPackage) (h : packages.Pairwise (· < ·))
    (hi : (packages.map InstalledPackage.dbInstance).Nodup) : InstalledInventory :=
  Core.sqliteInventory "6.0" Core.rpm6_ne_empty packages h hi

def bothLibs : InstalledInventory :=
  libInventory [oldLib, newLib] (by decide +kernel) (by decide +kernel)

def upgradeLib (version : String) : PlanEnvelope where
  schemaVersion := 2
  installRoot := "/"
  intent := Core.upgradeAll
  integrity := Core.fedoraIntegrity
  expiresAtUnix := 100
  actions := [⟨.upgrade, "lib", libEvra version, some (libEvra "1"), some 1, some Core.zeroDigest,
    some "Fedora", some "Fedora", some "fedora", .dependency, none⟩]

def libState : ReasonState :=
  ⟨1, [⟨1, Core.zeroDigest.asStr, "lib", .dependency⟩, ⟨2, oneDigest.asStr, "lib", .user⟩]⟩

def libProcess : Process := ⟨7, 0⟩

def libDirectory : Directory :=
  { State.Root.freshDirectory libProcess.euid with
    files := (State.Root.freshDirectory libProcess.euid).files.insert stateFile
      ⟨freshStat libProcess.euid, canonicalEncode libState⟩ }

theorem validState_libState : ValidState libState :=
  validateState_eq_ok.mp (by decide +kernel)

theorem size_libState : (canonicalEncode libState).length ≤ Core.maxDocumentBytes := by
  decide +kernel

theorem stored_libDirectory :
    Stored ReasonState.fromSlice libProcess.euid libDirectory libState := by
  have hfile : libDirectory.files[stateFile]? =
      some ⟨freshStat libProcess.euid, canonicalEncode libState⟩ := by
    simp [libDirectory]
  refine ⟨readState_of_file invertsEncoding_fromSlice validState_libState size_libState hfile, ?_⟩
  intro name file hname
  simp only [libDirectory, State.Root.freshDirectory, Std.ExtTreeMap.getElem?_insert] at hname
  split at hname
  · cases hname
    rfl
  · simp at hname

def emptyPolicy : SolverPolicy := SolverPolicy.fedora44 .x86_64 [] []

def onlyNewLib : InstalledInventory :=
  libInventory [newLib] (by decide +kernel) (by decide +kernel)

def latestLibs : InstalledInventory :=
  libInventory [newLib, latestLib] (by decide +kernel) (by decide +kernel)

/-- The newer package was the user's and is a dependency now. -/
theorem recordSuccess_changes_untouched :
    ∃ s', ((recordSuccess ReasonState.fromSlice libProcess bothLibs onlyNewLib (upgradeLib "2")
        emptyPolicy).clean libDirectory).1 = .ok () ∧
      Stored ReasonState.fromSlice libProcess.euid ((recordSuccess ReasonState.fromSlice libProcess bothLibs
        onlyNewLib (upgradeLib "2") emptyPolicy).clean libDirectory).2 s' ∧
      ¬ KeepsReasons bothLibs onlyNewLib emptyPolicy libState s' := by
  have hrecorded : recordedState libState bothLibs onlyNewLib (upgradeLib "2") emptyPolicy =
      .ok ⟨1, [⟨2, oneDigest.asStr, "lib", .dependency⟩]⟩ := by
    decide +kernel
  have hvalid : ValidState ⟨1, [⟨2, oneDigest.asStr, "lib", .dependency⟩]⟩ :=
    validateState_eq_ok.mp (by decide +kernel)
  have hclean := (recordSuccess_clean invertsEncoding_fromSlice stored_libDirectory
    hrecorded hvalid (by decide +kernel)).clean
  refine ⟨_, hclean.1, hclean.2, fun hkeeps => ?_⟩
  have huntouched : Untouched bothLibs onlyNewLib emptyPolicy libState newLib
      ⟨2, oneDigest.asStr, "lib", .user⟩ :=
    ⟨List.mem_singleton.mpr rfl, by decide +kernel, by decide +kernel, rfl, by decide⟩
  have hreason := hkeeps newLib _ huntouched ⟨2, oneDigest.asStr, "lib", .dependency⟩
    (List.mem_singleton.mpr rfl) rfl
  cases hreason

/-- An upgrade to an EVRA that is not installed yet hands over to the new package only. -/
theorem harmlessHandovers_latestLibs :
    HarmlessHandovers bothLibs latestLibs (upgradeLib "3") emptyPolicy libState := by
  intro p r hp earlier a later hactions q hq hands
  have ha : a ∈ (upgradeLib "3").actions := by
    rw [hactions]
    exact List.mem_append_right _ List.mem_cons_self
  obtain rfl := List.mem_singleton.mp ha
  have hafter : p = newLib ∨ p = latestLib := by
    simpa [latestLibs, libInventory, Core.sqliteInventory] using hp.after
  rcases hafter with rfl | rfl
  · exact absurd hands.target (by decide)
  · exact absurd hp.before (by decide +kernel)

theorem recordSuccess_keeps_latestLibs :
    ∃ s', ((recordSuccess ReasonState.fromSlice libProcess bothLibs latestLibs (upgradeLib "3")
        emptyPolicy [] libDirectory).2.1).files[stateFile]? =
        some ⟨freshStat libProcess.euid, canonicalEncode s'⟩ ∧
      OneEach latestLibs s' ∧ KeepsReasons bothLibs latestLibs emptyPolicy libState s' := by
  have hrecorded : recordedState libState bothLibs latestLibs (upgradeLib "3") emptyPolicy =
      .ok ⟨1, [⟨2, oneDigest.asStr, "lib", .user⟩,
        ⟨3, Core.zeroDigest.asStr, "lib", .dependency⟩]⟩ := by
    decide +kernel
  have hsat := recordSuccess_clean invertsEncoding_fromSlice stored_libDirectory hrecorded
    (validateState_eq_ok.mp (by decide +kernel)) (by decide +kernel)
  have hrun : (recordSuccess ReasonState.fromSlice libProcess bothLibs latestLibs (upgradeLib "3")
      emptyPolicy [] libDirectory).1 = .ok () := (hsat [] (by simp)).1.1
  obtain ⟨s', hfile, hiff⟩ := recordSuccess_keeps_iff stored_libDirectory.read hrun
  exact ⟨s', hfile, hiff.mpr harmlessHandovers_latestLibs⟩

end Dnfast.Reason
