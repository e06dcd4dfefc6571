import Dnfast.Cache.Kept
import Dnfast.Planning.Publisher
import Dnfast.Data.Forall2

/-! # The cache as the host of a publication

What a publication reads of the metadata cache is read through `dnfast-cache`. A store that has only
grown gives the same repositories for the pointers that are the same, so a snapshot that can be rebuilt
from it is bound to the pointers of its repositories. -/

namespace Dnfast.Planning

open Core (Architecture)
open LazyIndex (refuse)
open Cache (CacheStore CacheError)

/-! ## The host -/

def cacheText (e : CacheError) : String := (repr e).pretty

/-- The bytes of a file, which is no longer than what is read of one. -/
def verifiedBytes (bytes : List UInt8) : Except String VerifiedBytes :=
  if h : bytes.length < 2 ^ 63 then .ok ⟨bytes, h⟩ else .error "File too large (os error 27)"

def cacheObject (g : Cache.VerifiedCompleteGeneration) : Except String CacheObject := do
  let repomd ← verifiedBytes g.repomd
  let primary ← verifiedBytes g.primary
  let filelists ← verifiedBytes g.filelists
  return ⟨g.repository, g.origin, repomd, primary, filelists, g.primaryIdentities, g.primaryFiles⟩

def recordOf (r : Metadata.AuxiliaryRecord) : AuxiliaryRecord := ⟨r.checksum, r.size⟩

/-- The host with this cache, and with what the publisher reads elsewhere. -/
def hostOf (lib : Cache.Library) (keyBundleDigest : String → List String → Except String KeyBundle)
    (base64Encode : List UInt8 → String) (cache : CacheStore) : Host where
  keyBundleDigest
  currentPointer id := ((Cache.currentPointer lib cache id).mapError cacheText).map fun p =>
    ⟨p.digest, p.repomdAuthentication⟩
  object digest := do
    let g ← (Cache.openVerifiedCompleteGeneration lib cache digest).mapError cacheText
    cacheObject g
  auxiliary record := do
    let bytes ← (Cache.openAuxiliary lib cache ⟨"", record.checksum, record.size⟩).mapError cacheText
    verifiedBytes bytes
  parseRepomdRecords bytes := do
    let records ← lib.parsers.parseRepomdRecords bytes
    return ⟨records.group.map recordOf, records.modules.map recordOf, records.updateinfo.map recordOf⟩
  validatePrimaryRecord repomd primary := do
    let records ← lib.parsers.parseRepomdRecords repomd
    let validated ← lib.parsers.validatePrimaryRecord primary records.primary
    return validated.identities
  base64Encode

/-! ## Hosts that have grown -/

/-- Everything that the first host reads, besides its pointers, is what the second one reads. -/
structure HostGrows (host host' : Host) : Prop where
  keyBundleDigest : host'.keyBundleDigest = host.keyBundleDigest
  object : ∀ digest o, host.object digest = .ok o → host'.object digest = .ok o
  auxiliary : ∀ record b, host.auxiliary record = .ok b → host'.auxiliary record = .ok b
  parseRepomdRecords : host'.parseRepomdRecords = host.parseRepomdRecords
  validatePrimaryRecord : host'.validatePrimaryRecord = host.validatePrimaryRecord
  base64Encode : host'.base64Encode = host.base64Encode

section
variable {crates : Crates} {host host' : Host} {r : RepoConfig} {validAtUnix : UInt64}

theorem openAuxiliary_of_grows {record : AuxiliaryRecord} {b : VerifiedBytes} (h : HostGrows host host')
    (hopen : openAuxiliary crates host record = .ok b) : openAuxiliary crates host' record = .ok b := by
  obtain ⟨payload, hpayload, hrest⟩ := Except.bind_eq_ok.mp hopen
  have hpayload' := h.auxiliary _ _ (Except.mapError_eq_ok.mp hpayload)
  exact Except.bind_eq_ok.mpr ⟨payload, Except.mapError_eq_ok.mpr hpayload', hrest⟩

theorem openRecorded_of_grows {record : Option AuxiliaryRecord} {b : Option VerifiedBytes}
    (h : HostGrows host host') (hopen : openRecorded crates host record = .ok b) :
    openRecorded crates host' record = .ok b := by
  cases record with
  | none => exact hopen
  | some record =>
    obtain ⟨payload, hpayload, rfl⟩ := Except.map_eq_ok.mp hopen
    exact Except.map_eq_ok.mpr ⟨payload, openAuxiliary_of_grows h hpayload, rfl⟩

theorem openAuxiliaries_of_grows {records : RepomdRecords} {a : AuxiliaryPayloads}
    (h : HostGrows host host') (hopen : openAuxiliaries crates host records = .ok a) :
    openAuxiliaries crates host' records = .ok a := by
  simp only [openAuxiliaries, Except.bind_eq_ok] at hopen ⊢
  obtain ⟨group, hgroup, modules, hmodules, updateinfo, hupdateinfo, hpure⟩ := hopen
  exact ⟨group, openRecorded_of_grows h hgroup, modules, openRecorded_of_grows h hmodules, updateinfo,
    openRecorded_of_grows h hupdateinfo, hpure⟩

/-- A generation is the one that the pointer names. -/
theorem openCurrentVerifiedCompleteGeneration_eq_ok {id : String} {g : VerifiedCompleteGeneration}
    (h : openCurrentVerifiedCompleteGeneration crates host id = .ok g) :
    host.currentPointer id = .ok ⟨g.digest, g.repomdAuthentication⟩ := by
  simp only [openCurrentVerifiedCompleteGeneration, openVerifiedCompleteGeneration, Except.bind_eq_ok,
    Except.mapError_eq_ok, Except.pure_eq_ok] at h
  obtain ⟨pointer, hpointer, _, ⟨_, -, _, -, rfl⟩, _, -, rfl⟩ := h
  exact hpointer

theorem openCurrentVerifiedCompleteGeneration_of_grows {id : String} {g : VerifiedCompleteGeneration}
    (h : HostGrows host host') (hpointer : host'.currentPointer id = host.currentPointer id)
    (hopen : openCurrentVerifiedCompleteGeneration crates host id = .ok g) :
    openCurrentVerifiedCompleteGeneration crates host' id = .ok g := by
  simp only [openCurrentVerifiedCompleteGeneration, openVerifiedCompleteGeneration, Except.bind_eq_ok,
    Except.mapError_eq_ok] at hopen ⊢
  obtain ⟨pointer, hp, generation, ⟨object, hobject, hrest⟩, hrest'⟩ := hopen
  exact ⟨pointer, hpointer.trans hp, generation, ⟨object, h.object _ _ hobject, hrest⟩, hrest'⟩

theorem repositoryPayload_of_grows {p : PlanningRepository} (h : HostGrows host host')
    (hpointer : host'.currentPointer r.id = host.currentPointer r.id)
    (hp : repositoryPayload crates host validAtUnix r = .ok p) :
    repositoryPayload crates host' validAtUnix r = .ok p := by
  obtain ⟨staged, hstaged, hfinish⟩ := Except.bind_eq_ok.mp hp
  refine Except.bind_eq_ok.mpr ⟨staged, ?_, ?_⟩
  · simp only [stageRepository, liveKeyBundle, primaryIdentities, h.keyBundleDigest,
      h.parseRepomdRecords, h.validatePrimaryRecord, Except.bind_eq_ok] at hstaged ⊢
    obtain ⟨_, hcheck, bundle, hbundle, trust, htrust, g, hg, records, hrecords, auxiliary, hauxiliary,
      hrest⟩ := hstaged
    exact ⟨_, hcheck, bundle, hbundle, trust, htrust, g,
      openCurrentVerifiedCompleteGeneration_of_grows h hpointer hg, records, hrecords, auxiliary,
      openAuxiliaries_of_grows h hauxiliary, hrest⟩
  · simp only [finishRepository, Staged.repository, planningKeys, h.base64Encode] at hfinish ⊢
    exact hfinish

/-- A repository has the digest and the evidence of the pointer. -/
theorem currentPointer_of_repositoryPayload {p : PlanningRepository}
    (hp : repositoryPayload crates host validAtUnix r = .ok p) :
    host.currentPointer r.id = .ok ⟨p.generationSha256, p.repomdAuthentication⟩ := by
  obtain ⟨staged, hstaged, hfinish⟩ := Except.bind_eq_ok.mp hp
  simp only [stageRepository, Except.bind_eq_ok, Except.pure_eq_ok] at hstaged
  obtain ⟨_, -, _, -, _, -, g, hg, _, -, _, -, _, -, _, -, rfl⟩ := hstaged
  obtain ⟨_, -, hpure⟩ := Except.bind_eq_ok.mp hfinish
  cases Except.pure_eq_ok.mp hpure
  exact openCurrentVerifiedCompleteGeneration_eq_ok hg

/-! ## Revalidation -/

variable {profile : MutationProfile} {hostArchitecture : Architecture} {snapshot : PlanningSnapshot}
  {openSnapshot openSnapshot' : Run PlanningSnapshot}

theorem snapshotFrom_of_grows {hostState : SnapshotHostState} {ids : Option (List String)}
    {publishedAtUnix : UInt64} {new : PlanningSnapshot} (h : HostGrows host host')
    (hpointers : ∀ r ∈ enabledRepositories profile, host'.currentPointer r.id = host.currentPointer r.id)
    (hnew : snapshotFrom crates host profile hostState publishedAtUnix hostArchitecture ids = .ok new) :
    snapshotFrom crates host' profile hostState publishedAtUnix hostArchitecture ids = .ok new := by
  simp only [snapshotFrom, Except.bind_eq_ok] at hnew ⊢
  obtain ⟨configuration, hconfiguration, policy, hpolicy, repositories, hrepositories, hrest⟩ := hnew
  refine ⟨configuration, hconfiguration, policy, hpolicy, repositories, ?_, hrest⟩
  rw [Except.mapM_eq_ok] at hrepositories ⊢
  exact hrepositories.imp_of_mem fun r hr _ _ hp => repositoryPayload_of_grows h (hpointers r hr) hp

/-- The repositories of a snapshot that was rebuilt are the ones that the host gives. -/
theorem repositories_of_snapshotFrom {hostState : SnapshotHostState} {publishedAtUnix : UInt64}
    {new : PlanningSnapshot}
    (hnew : snapshotFrom crates host profile hostState publishedAtUnix hostArchitecture none = .ok new) :
    List.Forall₂ (fun r p => repositoryPayload crates host publishedAtUnix r = .ok p)
      (enabledRepositories profile) new.payload.allowedRepositories := by
  simp only [snapshotFrom, newSnapshot, PlanningSnapshot.new, PlanningSnapshot.newWithRefreshedRepositories,
    liftRun, Except.bind_eq_ok, Except.mapError_eq_ok, Except.pure_eq_ok] at hnew
  obtain ⟨_, -, _, -, repositories, hrepositories, _, -, rfl⟩ := hnew
  exact Except.mapM_eq_ok.mp hrepositories

theorem revalidateSnapshot_eq_ok :
    revalidateSnapshot crates host profile hostArchitecture openSnapshot snapshot = .ok () ↔
      (∃ rebuilt, snapshotFrom crates host profile
        ⟨snapshot.payload.inventory, snapshot.payload.moduleState⟩ snapshot.publishedAtUnix
          hostArchitecture none = .ok rebuilt ∧ rebuilt.payload = snapshot.payload) ∧
      openSnapshot = .ok snapshot := by
  simp only [revalidateSnapshot, requireSameSourcePayload, requireCurrentSnapshot, refuse,
    Except.bind_eq_ok, Except.refuseIf_eq_ok, not_not, ne_eq]
  constructor
  · rintro ⟨rebuilt, hrebuilt, _, hsame, current, hcurrent, rfl⟩
    exact ⟨⟨rebuilt, hrebuilt, hsame.symm⟩, hcurrent⟩
  · rintro ⟨⟨rebuilt, hrebuilt, hsame⟩, hcurrent⟩
    exact ⟨rebuilt, hrebuilt, (), hsame.symm, snapshot, hcurrent, rfl⟩

/-- A snapshot that passed passes again when the host has grown, exactly when the pointers of its
repositories are the same. -/
theorem revalidateSnapshot_iff (h : HostGrows host host')
    (hpassed : revalidateSnapshot crates host profile hostArchitecture openSnapshot snapshot = .ok ())
    (hcurrent : openSnapshot' = .ok snapshot) :
    revalidateSnapshot crates host' profile hostArchitecture openSnapshot' snapshot = .ok () ↔
      ∀ r ∈ enabledRepositories profile, host'.currentPointer r.id = host.currentPointer r.id := by
  obtain ⟨⟨rebuilt, hrebuilt, hsame⟩, -⟩ := revalidateSnapshot_eq_ok.mp hpassed
  constructor
  · intro hagain
    obtain ⟨⟨rebuilt', hrebuilt', hsame'⟩, -⟩ := revalidateSnapshot_eq_ok.mp hagain
    have hall := repositories_of_snapshotFrom hrebuilt
    have hall' := repositories_of_snapshotFrom hrebuilt'
    rw [hsame] at hall
    rw [hsame'] at hall'
    intro r hr
    obtain ⟨p, -, hp, hp'⟩ := (hall.and hall').exists_right hr
    rw [currentPointer_of_repositoryPayload hp, currentPointer_of_repositoryPayload hp']
  · intro hpointers
    exact revalidateSnapshot_eq_ok.mpr
      ⟨⟨rebuilt, snapshotFrom_of_grows h hpointers hrebuilt, hsame⟩, hcurrent⟩

end

/-! ## Caches that have grown -/

theorem hostGrows_of_grows {lib : Cache.Library} {keys : String → List String → Except String KeyBundle}
    {base64Encode : List UInt8 → String} {c c' : CacheStore} (h : Cache.Grows c c') :
    HostGrows (hostOf lib keys base64Encode c) (hostOf lib keys base64Encode c') := by
  refine ⟨rfl, fun digest o ho => ?_, fun record b hb => ?_, rfl, rfl, rfl⟩
  · obtain ⟨g, hg, hobject⟩ := Except.bind_eq_ok.mp ho
    rw [Except.mapError_eq_ok] at hg
    obtain ⟨files, _, hfiles, -⟩ := Cache.holds_of_openVerifiedCompleteGeneration hg
    have hsame : c'.objects[digest]? = c.objects[digest]? := (h.objects _ _ hfiles).trans hfiles.symm
    rw [← Cache.openVerifiedCompleteGeneration_congr hsame] at hg
    exact Except.bind_eq_ok.mpr ⟨g, Except.mapError_eq_ok.mpr hg, hobject⟩
  · obtain ⟨bytes, hbytes, hverified⟩ := Except.bind_eq_ok.mp hb
    rw [Except.mapError_eq_ok] at hbytes
    exact Except.bind_eq_ok.mpr
      ⟨bytes, Except.mapError_eq_ok.mpr (Cache.openAuxiliary_of_grows h hbytes), hverified⟩

end Dnfast.Planning
