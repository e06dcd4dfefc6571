import Dnfast.Data.SortDedup
import Dnfast.Reason.Keep

/-! # Sequences of recorded transactions

Every state that `record_success` writes for an admissible inventory is valid (`validState_recorded`),
so a sequence of calls on a fresh store succeeds as long as the documents stay within the reader's
bound, and what each call wrote is what the next one reads (`recordAll_sat`). On a valid state
`autoremove_candidates` returns the sorted names of the packages that may go, unless two of them
share a name (`autoremoveNames_eq`). -/

namespace Dnfast.Reason

open Durable Durable.Exec
open Dnfast.Core (PackageReason InstalledPackage InstalledInventory PlanEnvelope SolverPolicy
  canonicalEncode)
open Dnfast.State

/-! ## Valid states -/

/-- The inventory is one whose packages can be recorded. -/
structure Admissible (inventory : InstalledInventory) : Prop where
  count : inventory.packages.length ≤ maxRecords
  instances : ∀ p ∈ inventory.packages, p.dbInstance ≠ 0
  alphabet : ∀ p ∈ inventory.packages, p.name.toList.all isNameChar = true
  length : ∀ p ∈ inventory.packages, p.name.utf8ByteSize ≤ 4096

theorem wellFormed_of_admissible {inventory : InstalledInventory} (h : Admissible inventory)
    {p : InstalledPackage} (hp : p ∈ inventory.packages) {r : ReasonRecord}
    (hidentity : r.identity = identityOf p) (hname : r.packageName = p.name) :
    r.wellFormed = true := by
  simp only [ReasonRecord.identity, identityOf, InstalledIdentity.mk.injEq] at hidentity
  simp only [ReasonRecord.wellFormed, Bool.and_eq_true, bne_iff_ne, ne_eq, decide_eq_true_eq,
    hidentity.1, hidentity.2, hname]
  exact ⟨⟨⟨⟨h.instances p hp, p.immutableHeaderSha256.canonical⟩, p.named⟩, h.length p hp⟩,
    h.alphabet p hp⟩

section
variable {s s' : ReasonState} {before after : InstalledInventory} {plan : PlanEnvelope}
  {policy : SolverPolicy}

/-- What is recorded for an admissible inventory is valid. -/
theorem validState_recorded (h : Admissible after)
    (hrecorded : recordedState s before after plan policy = .ok s') : ValidState s' := by
  obtain ⟨records, hok, hfor⟩ := recordedState_spec s before after plan policy
  rw [hrecorded] at hok
  cases hok
  have hperm := List.perm_insertionSort (· ≤ ·) records
  have hidentities : ((records.insertionSort (· ≤ ·)).map ReasonRecord.identity).Nodup := by
    have hone := List.Perm.map Prod.fst (oneEach_of_recorded hfor)
    rw [List.map_map, List.map_map] at hone
    exact hone.nodup_iff.mpr (nodup_identityOf after)
  refine ⟨rfl, ?_, ?_, ?_, hidentities⟩
  · rw [hperm.length_eq, ← hfor.length_eq]
    exact h.count
  · exact List.isChain_lt_insertionSort_iff.mpr (hperm.nodup_iff.mp hidentities.of_map)
  · intro r hr
    obtain ⟨p, hp, hrecord⟩ := hfor.exists_left (hperm.mem_iff.mp hr)
    exact wellFormed_of_admissible h hp hrecord.identity hrecord.name

end

/-! ## Candidates -/

/-- The packages that may go: their record, found by instance, header and name, has an autoremovable
reason, and the policy does not keep them. -/
def removable (s : ReasonState) (inventory : InstalledInventory) (policy : SolverPolicy) :
    List InstalledPackage :=
  inventory.packages.filter fun p =>
    (s.records.any fun r => r.identity = identityOf p ∧ r.packageName = p.name ∧
      r.reason.isAutoremoveCandidate = true) && !policy.keeps p.name

theorem isCandidate_iff {inventory : InstalledInventory} {policy : SolverPolicy} {r : ReasonRecord} :
    isCandidate inventory policy r = true ↔ ∃ p ∈ inventory.packages, r.identity = identityOf p ∧
      r.packageName = p.name ∧ r.reason.isAutoremoveCandidate = true ∧
      policy.keeps p.name = false := by
  unfold isCandidate
  cases hat : installedAt inventory r.identity with
  | none =>
    simp only [reduceCtorEq, false_iff, not_exists, not_and]
    intro p hp hidentity
    rw [installedAt_eq_some.mpr ⟨hp, hidentity.symm⟩] at hat
    cases hat
  | some p =>
    obtain ⟨hp, hidentity⟩ := installedAt_eq_some.mp hat
    simp only [Bool.and_eq_true, decide_eq_true_eq, Bool.not_eq_true', SolverPolicy.keeps,
      Bool.or_eq_false_iff]
    constructor
    · rintro ⟨⟨⟨⟨hname, hreason⟩, h1⟩, h2⟩, h3⟩
      exact ⟨p, hp, hidentity.symm, hname.symm, hreason, ⟨h1, h2⟩, h3⟩
    · rintro ⟨q, hq, hq', hname, hreason, ⟨h1, h2⟩, h3⟩
      obtain rfl : q = p := InstalledInventory.eq_of_dbInstance hq hp
        (congrArg InstalledIdentity.dbInstance (hq'.symm.trans hidentity.symm))
      exact ⟨⟨⟨⟨hname.symm, hreason⟩, h1⟩, h2⟩, h3⟩

/-- The names of the candidate records are those of the packages that may go. -/
theorem perm_candidates {s : ReasonState} (hs : ValidState s) (inventory : InstalledInventory)
    (policy : SolverPolicy) :
    ((s.records.filter (isCandidate inventory policy)).map (·.packageName)).Perm
      ((removable s inventory policy).map (·.name)) := by
  have hmem : ∀ x, x ∈ (s.records.filter (isCandidate inventory policy)).map
        (fun r => (r.identity, r.packageName)) ↔
      x ∈ (removable s inventory policy).map fun p => (identityOf p, p.name) := by
    intro x
    simp only [List.mem_map, List.mem_filter, removable, isCandidate_iff, Bool.and_eq_true,
      List.any_eq_true, decide_eq_true_eq, Bool.not_eq_true']
    constructor
    · rintro ⟨r, ⟨hr, p, hp, hidentity, hname, hreason, hfree⟩, rfl⟩
      exact ⟨p, ⟨hp, ⟨r, hr, hidentity, hname, hreason⟩, hfree⟩, by rw [hidentity, hname]⟩
    · rintro ⟨p, ⟨hp, ⟨r, hr, hidentity, hname, hreason⟩, hfree⟩, rfl⟩
      exact ⟨r, ⟨hr, p, hp, hidentity, hname, hreason, hfree⟩, by rw [hidentity, hname]⟩
  have hrecords : ((s.records.filter (isCandidate inventory policy)).map
      fun r => (r.identity, r.packageName)).Nodup := by
    refine List.Nodup.of_map Prod.fst ?_
    rw [List.map_map]
    exact hs.identities.sublist (List.filter_sublist.map _)
  have hpackages : ((removable s inventory policy).map fun p => (identityOf p, p.name)).Nodup := by
    refine List.Nodup.of_map Prod.fst ?_
    rw [List.map_map]
    exact (nodup_identityOf inventory).sublist (List.filter_sublist.map _)
  have hperm := ((List.perm_ext_iff_of_nodup hrecords hpackages).mpr hmem).map Prod.snd
  rw [List.map_map, List.map_map] at hperm
  exact hperm

/-- On a valid state the answer is the sorted names of the packages that may go, and a refusal when
two of them share a name. -/
theorem autoremoveNames_eq {s : ReasonState} (hs : ValidState s) (inventory : InstalledInventory)
    (policy : SolverPolicy) :
    autoremoveNames s inventory policy =
      if ((removable s inventory policy).map (·.name)).Nodup then
        .ok (((removable s inventory policy).map (·.name)).insertionSort (· ≤ ·))
      else .error (.corrupt "autoremove package name has multiple installed identities") := by
  have hperm := perm_candidates hs inventory policy
  have hsort : ((s.records.filter (isCandidate inventory policy)).map
        (·.packageName)).insertionSort (· ≤ ·) =
      ((removable s inventory policy).map (·.name)).insertionSort (· ≤ ·) :=
    List.insertionSort_eq_of_perm hperm
  rw [autoremoveNames, hsort]
  by_cases hnodup : ((removable s inventory policy).map (·.name)).Nodup
  · rw [if_pos hnodup, Except.refuseIf,
      if_neg (not_not.mpr (List.isChain_ne_insertionSort_iff.mpr hnodup))]
    rfl
  · rw [if_neg hnodup, Except.refuseIf,
      if_pos fun h => hnodup (List.isChain_ne_insertionSort_iff.mp h)]
    rfl

/-! ## Runs -/

/-- A call of `record_success` by a process of the user. -/
structure Call where
  pid : UInt32
  before : InstalledInventory
  after : InstalledInventory
  plan : PlanEnvelope
  policy : SolverPolicy

/-- The calls in turn, up to the first error. -/
def recordAll (fromSlice : List UInt8 → Except String ReasonState) (euid : UInt32)
    (calls : List Call) : Exec Directory StateError Unit :=
  Exec.forEach (fun c =>
    recordSuccess fromSlice ⟨c.pid, euid⟩ c.before c.after c.plan c.policy) calls

/-- The state that the calls record, from the state `s` on. -/
def recordedBy (s : ReasonState) : List Call → Except StateError ReasonState
  | [] => .ok s
  | c :: cs => do
    let s' ← recordedState s c.before c.after c.plan c.policy
    recordedBy s' cs

/-- Every state that the calls write is within the reader's bound. -/
def Bounded (s : ReasonState) (calls : List Call) : Prop :=
  ∀ cs, cs <+: calls → cs ≠ [] → ∀ s', recordedBy s cs = .ok s' →
    (canonicalEncode s').length ≤ Core.maxDocumentBytes

section
variable {fromSlice : List UInt8 → Except String ReasonState} {euid : UInt32} {d : Directory}
  {s : ReasonState}

theorem bounded_cons {s' : ReasonState} {c : Call} {cs : List Call}
    (hrecorded : recordedState s c.before c.after c.plan c.policy = .ok s')
    (h : Bounded s (c :: cs)) :
    (canonicalEncode s').length ≤ Core.maxDocumentBytes ∧ Bounded s' cs := by
  constructor
  · refine h [c] (List.prefix_cons_inj c |>.mpr List.nil_prefix) (by simp) s' ?_
    simp [recordedBy, hrecorded, bind, Except.bind]
  · intro cs' hcs' hne t ht
    refine h (c :: cs') (List.prefix_cons_inj c |>.mpr hcs') (by simp) t ?_
    simpa [recordedBy, hrecorded, bind, Except.bind] using ht

theorem exists_recordedBy (s : ReasonState) (calls : List Call) :
    ∃ s', recordedBy s calls = .ok s' := by
  induction calls generalizing s with
  | nil => exact ⟨s, rfl⟩
  | cons c cs ih =>
    obtain ⟨records, hrecorded, -⟩ := recordedState_spec s c.before c.after c.plan c.policy
    obtain ⟨s', hs'⟩ := ih ⟨1, records.insertionSort (· ≤ ·)⟩
    exact ⟨s', by simpa [recordedBy, hrecorded, bind, Except.bind] using hs'⟩

/-- The run lemma: from a stored state every call succeeds and the last state written is stored. -/
theorem recordAll_sat (hserde : InvertsEncoding fromSlice) {calls : List Call}
    (hadmissible : ∀ c ∈ calls, Admissible c.after) (hd : Stored fromSlice euid d s)
    (hbounded : Bounded s calls) {s' : ReasonState} (hs' : recordedBy s calls = .ok s') :
    Sat (fun _ => False) (recordAll fromSlice euid calls) d (RecordsState fromSlice euid s') := by
  induction calls generalizing s d with
  | nil =>
    cases hs'
    exact sat_pure ⟨rfl, hd⟩
  | cons c cs ih =>
    obtain ⟨hc, hcs⟩ := List.forall_mem_cons.mp hadmissible
    obtain ⟨s₁, hrecorded, hrest⟩ := Except.bind_eq_ok.mp hs'
    obtain ⟨hsize, hbounded⟩ := bounded_cons hrecorded hbounded
    have hfirst : Sat (fun _ => False) (recordSuccess fromSlice ⟨c.pid, euid⟩ c.before c.after
        c.plan c.policy) d (RecordsState fromSlice euid s₁) :=
      recordSuccess_clean hserde hd hrecorded (validState_recorded hc hrecorded) hsize
    refine sat_bind (hfirst.mono ?_)
    rintro (_ | e | _) d' ⟨hok, hd'⟩
    · exact ih hcs hd' hbounded hrest
    · cases hok
    · cases hok

theorem recordAll_stored (hserde : InvertsEncoding fromSlice) {calls : List Call}
    (hadmissible : ∀ c ∈ calls, Admissible c.after) (hbounded : Bounded .default calls)
    (hs : recordedBy .default calls = .ok s) :
    ∃ d, (recordAll fromSlice euid calls).clean (Root.freshDirectory euid) = (.ok (), d) ∧
      Stored fromSlice euid d s := by
  obtain ⟨hok, hd⟩ :=
    (recordAll_sat hserde hadmissible (stored_freshDirectory euid) hbounded hs).clean
  exact ⟨_, Prod.ext hok rfl, hd⟩

/-- A call of `autoremove_candidates` on a stored state, when nothing disturbs it. -/
theorem autoremoveCandidates_clean {p : Process} (hd : Stored fromSlice p.euid d s)
    (inventory : InstalledInventory) (policy : SolverPolicy) :
    (autoremoveCandidates fromSlice p inventory policy).clean d =
      (if ((removable s inventory policy).map (·.name)).Nodup then
        .ok (((removable s inventory policy).map (·.name)).insertionSort (· ≤ ·))
      else .err (.corrupt "autoremove package name has multiple installed identities"), d) := by
  have hlift : (autoremoveCandidates fromSlice p inventory policy).clean d =
      (Exec.lift (autoremoveNames s inventory policy) : Exec Directory StateError _).clean d := by
    simp [Exec.clean, autoremoveCandidates, acquire, bind, Exec.bind, Exec.sync, Exec.change,
      Exec.observe, Exec.step, hd.read, Except.map]
  rw [hlift, autoremoveNames_eq (readState_valid hd.read)]
  split <;> rfl

/-- **Every sequence of calls.** From an empty store, on admissible inventories and with documents
within the reader's bound, every call of `record_success` succeeds, the state it wrote is the state
that is read next, and `autoremove_candidates` returns the sorted names of the packages that may go,
or refuses when two of them share a name. -/
theorem recordAll_readable (hserde : InvertsEncoding fromSlice) (calls : List Call)
    (hadmissible : ∀ c ∈ calls, Admissible c.after) (hbounded : Bounded .default calls) :
    ∃ s d, recordedBy .default calls = .ok s ∧
      (recordAll fromSlice euid calls).clean (Root.freshDirectory euid) = (.ok (), d) ∧
      readState fromSlice euid d = .ok s ∧
      ∀ pid inventory policy,
        (autoremoveCandidates fromSlice ⟨pid, euid⟩ inventory policy).clean d =
          (if ((removable s inventory policy).map (·.name)).Nodup then
            .ok (((removable s inventory policy).map (·.name)).insertionSort (· ≤ ·))
          else .err (.corrupt "autoremove package name has multiple installed identities"), d) := by
  obtain ⟨s, hs⟩ := exists_recordedBy .default calls
  obtain ⟨d, hrun, hd⟩ := recordAll_stored hserde hadmissible hbounded hs
  exact ⟨s, d, hs, hrun, hd.read,
    fun pid inventory policy => autoremoveCandidates_clean (p := ⟨pid, euid⟩) hd inventory policy⟩

end

/-! Two versions of one package, both installed as dependencies. -/

def noPackages : InstalledInventory := Core.emptyInventory "6.0" Core.rpm6_ne_empty

def installLibs (versions : List String) : PlanEnvelope where
  schemaVersion := 2
  installRoot := "/"
  intent := Core.upgradeAll
  integrity := Core.fedoraIntegrity
  expiresAtUnix := 100
  actions := versions.map fun version =>
    ⟨.install, "lib", libEvra version, none, none, none, none, some "Fedora", some "fedora",
      .dependency, none⟩

def installBoth : Call := ⟨7, noPackages, bothLibs, installLibs ["1", "2"], emptyPolicy⟩

def installNew : Call := ⟨7, noPackages, onlyNewLib, installLibs ["2"], emptyPolicy⟩

theorem admissible_bothLibs : Admissible bothLibs :=
  ⟨by decide, by decide +kernel, by decide +kernel, by decide +kernel⟩

theorem admissible_onlyNewLib : Admissible onlyNewLib :=
  ⟨by decide, by decide +kernel, by decide +kernel, by decide +kernel⟩

theorem bounded_singleton {s s' : ReasonState} {c : Call} (h : recordedBy s [c] = .ok s')
    (hsize : (canonicalEncode s').length ≤ Core.maxDocumentBytes) : Bounded s [c] := by
  intro cs hcs hne t ht
  obtain rfl : cs = [c] := by
    cases cs with
    | nil => exact absurd rfl hne
    | cons x xs =>
      obtain ⟨rfl, hxs⟩ := List.cons_prefix_cons.mp hcs
      rw [List.prefix_nil.mp hxs]
  rw [h] at ht
  cases ht
  exact hsize

/-- Both records are written and read back, and the names cannot be listed. -/
theorem autoremoveCandidates_refuses_bothLibs :
    ∃ d, (recordAll ReasonState.fromSlice 0 [installBoth]).clean (Root.freshDirectory 0) =
        (.ok (), d) ∧
      ((autoremoveCandidates ReasonState.fromSlice ⟨7, 0⟩ bothLibs emptyPolicy).clean d).1 =
        .err (.corrupt "autoremove package name has multiple installed identities") := by
  have hrecorded : recordedBy .default [installBoth] = .ok ⟨1,
      [⟨1, Core.zeroDigest.asStr, "lib", .dependency⟩, ⟨2, oneDigest.asStr, "lib", .dependency⟩]⟩ := by
    decide +kernel
  obtain ⟨d, hrun, hd⟩ := @recordAll_stored ReasonState.fromSlice 0 _ invertsEncoding_fromSlice
    [installBoth] (List.forall_mem_singleton.mpr admissible_bothLibs)
    (bounded_singleton hrecorded (by decide +kernel)) hrecorded
  refine ⟨d, hrun, ?_⟩
  rw [autoremoveCandidates_clean (p := ⟨7, 0⟩) hd, if_neg (by decide +kernel)]

theorem recordAll_readable_installNew :
    ∃ d, (recordAll ReasonState.fromSlice 0 [installNew]).clean (Root.freshDirectory 0) =
        (.ok (), d) ∧
      ((autoremoveCandidates ReasonState.fromSlice ⟨7, 0⟩ onlyNewLib emptyPolicy).clean d).1 =
        .ok ["lib"] := by
  have hrecorded : recordedBy .default [installNew] =
      .ok ⟨1, [⟨2, oneDigest.asStr, "lib", .dependency⟩]⟩ := by
    decide +kernel
  obtain ⟨s, d, hs, hrun, -, hcandidates⟩ := @recordAll_readable ReasonState.fromSlice 0
    invertsEncoding_fromSlice [installNew] (List.forall_mem_singleton.mpr admissible_onlyNewLib)
    (bounded_singleton hrecorded (by decide +kernel))
  rw [hrecorded] at hs
  cases hs
  have hnames : ((removable ⟨1, [⟨2, oneDigest.asStr, "lib", .dependency⟩]⟩ onlyNewLib
      emptyPolicy).map (·.name)).insertionSort (· ≤ ·) = ["lib"] := by
    decide +kernel
  refine ⟨d, hrun, ?_⟩
  rw [hcandidates, if_pos (by decide +kernel), hnames]

end Dnfast.Reason
