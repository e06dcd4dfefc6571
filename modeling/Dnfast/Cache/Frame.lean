import Dnfast.Cache.Publication

/-! # What publications leave as it is

A publication that ends in an error has not changed a pointer, and one that succeeds has changed the
pointer of its repository. Objects and auxiliary objects are only added. -/

namespace Dnfast.Cache

open Durable
open Std (ExtTreeMap)
open Core (isLowerDigest)
open Metadata (AuxiliaryRecord)
open Planning (RepomdAuthentication)

/-- The pointer file under a key. -/
def CacheStore.currentOf (s : CacheStore) (key : String) : Option (List UInt8) :=
  s.repos[key]?.bind (·.current)

/-- The content of the file `repo-id` under a key. -/
def CacheStore.repoIdOf (s : CacheStore) (key : String) : Option (List UInt8) :=
  s.repos[key]?.bind (·.repoId)

/-- No object, auxiliary object or identifier is changed or taken away. -/
structure Grows (s s' : CacheStore) : Prop where
  objects : ∀ (digest : String) (object : Files), s.objects[digest]? = some object →
    s'.objects[digest]? = some object
  auxiliary : ∀ (checksum : String) (payload : List UInt8), s.auxiliary[checksum]? = some payload →
    s'.auxiliary[checksum]? = some payload
  repoId : ∀ (key : String) (content : List UInt8), s.repoIdOf key = some content →
    s'.repoIdOf key = some content

namespace Grows

variable {s s' s'' : CacheStore}

theorem refl : Grows s s := ⟨fun _ _ h => h, fun _ _ h => h, fun _ _ h => h⟩

theorem trans (h : Grows s s') (h' : Grows s' s'') : Grows s s'' :=
  ⟨fun d o ho => h'.objects d o (h.objects d o ho), fun c p hp => h'.auxiliary c p (h.auxiliary c p hp),
    fun k c hc => h'.repoId k c (h.repoId k c hc)⟩

end Grows

/-! ## Pointers -/

section
variable {s : CacheStore} {key k : String} {f : RepositoryDir → RepositoryDir}

theorem getElem?_modifyRepository : (modifyRepository key f s).repos[k]? =
    if key = k then s.repos[k]?.map f else s.repos[k]? := by
  simp only [modifyRepository, ExtTreeMap.getElem?_modify, Std.compare_eq_iff_eq]
  split
  next h => rw [h]
  · rfl

/-- A change of the pointer, or of an identifier that is not there. -/
theorem repoIdOf_modifyRepository {content : List UInt8}
    (h : (∀ d, (f d).repoId = d.repoId) ∨ s.repoIdOf key = none) (hk : s.repoIdOf k = some content) :
    (modifyRepository key f s).repoIdOf k = some content := by
  simp only [CacheStore.repoIdOf, getElem?_modifyRepository] at hk h ⊢
  split
  next heq =>
    subst heq
    cases hd : s.repos[key]? with
    | none => simp [hd] at hk
    | some d =>
      rw [hd, Option.bind_some] at hk h
      rcases h with h | h
      · exact (h d).trans hk
      · rw [h] at hk
        cases hk
  · exact hk

/-- A change of the other file of a repository. -/
theorem currentOf_modifyRepository (h : ∀ d, (f d).current = d.current) :
    (modifyRepository key f s).currentOf k = s.currentOf k := by
  simp only [CacheStore.currentOf, getElem?_modifyRepository]
  split
  · cases s.repos[k]? with
    | none => rfl
    | some d => exact h d
  · rfl

end

section
variable {lib : Library} {s : CacheStore} {repository digest : String}
  {authentication : RepomdAuthentication}

/-- The state after a program that may have changed a pointer. -/
structure Pointed (s s' : CacheStore) (key : String) (content : Option (List UInt8)) : Prop where
  objects : s'.objects = s.objects
  auxiliary : s'.auxiliary = s.auxiliary
  current : ∀ k, s'.currentOf k = if key = k then content else s.currentOf k
  repoId : ∀ k content, s.repoIdOf k = some content → s'.repoIdOf k = some content

namespace Pointed

variable {s s' s'' : CacheStore} {key : String} {content content' : Option (List UInt8)}

theorem refl : Pointed s s key (s.currentOf key) := by
  refine ⟨rfl, rfl, fun k => ?_, fun _ _ h => h⟩
  split
  next h => rw [h]
  · rfl

theorem trans (h : Pointed s s' key content) (h' : Pointed s' s'' key content') :
    Pointed s s'' key content' := by
  refine ⟨h'.objects.trans h.objects, h'.auxiliary.trans h.auxiliary, fun k => ?_,
    fun k c hc => h'.repoId k c (h.repoId k c hc)⟩
  rw [h'.current, h.current]
  split <;> rfl

theorem of_modifyRepository {f : RepositoryDir → RepositoryDir} (hf : ∀ d, (f d).current = d.current)
    (hkey : s.repoIdOf key = none) : Pointed s (modifyRepository key f s) key (s.currentOf key) := by
  refine ⟨rfl, rfl, fun k => ?_, fun k c => repoIdOf_modifyRepository (.inr hkey)⟩
  rw [currentOf_modifyRepository hf]
  split
  next h => rw [h]
  · rfl

theorem setCurrent {bytes : List UInt8} {d : RepositoryDir} (h : s.repos[key]? = some d) :
    Pointed s (modifyRepository key (fun d => { d with current := some bytes }) s) key (some bytes) := by
  refine ⟨rfl, rfl, fun k => ?_, fun k c => repoIdOf_modifyRepository (.inl fun _ => rfl)⟩
  simp only [CacheStore.currentOf, getElem?_modifyRepository]
  split
  next heq =>
    subst heq
    rw [h]
    rfl
  · rfl

theorem grows (h : Pointed s s' key content) : Grows s s' :=
  ⟨fun _ _ ho => h.objects ▸ ho, fun _ _ hp => h.auxiliary ▸ hp, h.repoId⟩

end Pointed

/-- The directory is there afterwards, and its identifier is as it was. -/
theorem clean_createRepositoryDir (key : String) : Exec.Sat (fun _ => False) (createRepositoryDir key) s
    fun o s' => o = .ok () ∧ Pointed s s' key (s.currentOf key) ∧ s'.repoIdOf key = s.repoIdOf key ∧
      ∃ d, s'.repos[key]? = some d := by
  refine Exec.sat_change False.elim (fun _ => False.elim) ⟨rfl, ?_⟩
  split
  next h => exact ⟨.refl, rfl, Option.isSome_iff_exists.mp (by simpa using h)⟩
  next h =>
    have hnone : s.repos[key]? = none := by simpa using h
    refine ⟨⟨rfl, rfl, fun k => ?_, fun k c hc => ?_⟩, ?_, ⟨_, ExtTreeMap.getElem?_insert_self⟩⟩
    · simp only [CacheStore.currentOf, ExtTreeMap.getElem?_insert, Std.compare_eq_iff_eq]
      split
      · rw [hnone]
        rfl
      · rfl
    · simp only [CacheStore.repoIdOf, ExtTreeMap.getElem?_insert, Std.compare_eq_iff_eq] at hc ⊢
      split
      next heq =>
        rw [← heq, hnone] at hc
        cases hc
      · exact hc
    · simp only [CacheStore.repoIdOf, ExtTreeMap.getElem?_insert_self, hnone]
      rfl

theorem clean_readRepoId (key : String) : Exec.Sat (fun _ => False) (readRepoId key) s
    fun o s' => o = .ok (s.repoIdOf key) ∧ s' = s :=
  Exec.observe_clean rfl ⟨rfl, rfl⟩

theorem clean_writeRepoId {key : String} {bytes : List UInt8} {d : RepositoryDir}
    (hd : s.repos[key]? = some d) (hkey : s.repoIdOf key = none) :
    Exec.Sat (fun _ => False) (writeRepoId key bytes) s
      fun o s' => o = .ok () ∧ Pointed s s' key (s.currentOf key) ∧ ∃ d, s'.repos[key]? = some d := by
  refine Exec.bind_step_clean rfl (Exec.bind_step_clean rfl (Exec.sync_clean ⟨rfl, ?_, ?_⟩))
  · -- the two changes are one change of the file
    have htwo : modifyRepository key (fun d => { d with repoId := some bytes })
        (modifyRepository key (fun d => { d with repoId := some [] }) s) =
        modifyRepository key (fun d => { d with repoId := some bytes }) s := by
      simp only [modifyRepository, CacheStore.mk.injEq, true_and, and_true]
      refine ExtTreeMap.ext_getElem? fun k => ?_
      simp only [ExtTreeMap.getElem?_modify, Std.compare_eq_iff_eq, if_true, Option.map_map]
      split <;> rfl
    rw [htwo]
    exact .of_modifyRepository (fun _ => rfl) hkey
  · simp only [getElem?_modifyRepository, if_true, hd, Option.map_some]
    exact ⟨_, rfl⟩

/-- The directory of the repository is new, or it is the repository's own. -/
def checkedRepoId (lib : Library) (s : CacheStore) (repository : String) : Except CacheError Unit :=
  match s.repoIdOf (repositoryKey lib repository) with
  | none => .ok ()
  | some content => checkRepoId repository content

/-- The pointer is written, or nothing that a reader sees is changed: the directory is another
repository's. -/
theorem clean_publishRepositoryPointer :
    Exec.Sat (fun _ => False) (publishRepositoryPointer lib repository digest authentication) s
      fun o s' => Pointed s s' (repositoryKey lib repository) (match o with
        | .ok () => some (CurrentPointer.bytes ⟨1, digest, authentication⟩)
        | _ => s.currentOf (repositoryKey lib repository)) ∧ o ≠ .crashed ∧
      (o = .ok () → checkedRepoId lib s repository = .ok ()) ∧
      ∀ e, o = .err e → checkedRepoId lib s repository = .error e := by
  have hwrite : ∀ {s' : CacheStore} {d : RepositoryDir},
      Pointed s s' (repositoryKey lib repository) (s.currentOf (repositoryKey lib repository)) →
      s'.repos[repositoryKey lib repository]? = some d → checkedRepoId lib s repository = .ok () →
      Exec.Sat (fun _ => False) (do
        Exec.sync
        Exec.change (modifyRepository (repositoryKey lib repository) fun d =>
          { d with current := some (CurrentPointer.bytes ⟨1, digest, authentication⟩) })
        Exec.sync : Program Unit) s' fun o s' => Pointed s s' (repositoryKey lib repository) (match o with
          | .ok () => some (CurrentPointer.bytes ⟨1, digest, authentication⟩)
          | _ => s.currentOf (repositoryKey lib repository)) ∧ o ≠ .crashed ∧
        (o = .ok () → checkedRepoId lib s repository = .ok ()) ∧
        ∀ e, o = .err e → checkedRepoId lib s repository = .error e := by
    intro s' d hpointed hd hchecked
    refine Exec.bind_sync_clean (Exec.bind_step_clean rfl
      (Exec.sync_clean ⟨?_, nofun, fun _ => hchecked, nofun⟩))
    exact hpointed.trans (.setCurrent hd)
  unfold publishRepositoryPointer
  refine (clean_createRepositoryDir _).bind_ok fun s₁ ⟨hpointed, hid, d, hd⟩ => ?_
  refine (clean_readRepoId _).bind_ok fun s₂ hsame => ?_
  subst hsame
  rw [hid]
  unfold checkedRepoId at hwrite ⊢
  cases hcontent : s.repoIdOf (repositoryKey lib repository) with
  | some content =>
    simp only [hcontent] at hwrite ⊢
    refine Exec.sat_bind_lift (fun _ hchecked => hwrite hpointed hd hchecked) fun e he => ?_
    refine ⟨hpointed, nofun, nofun, ?_⟩
    rintro _ ⟨⟩
    exact he
  | none =>
    simp only [hcontent] at hwrite ⊢
    refine (clean_writeRepoId hd (hid.trans hcontent)).bind_ok fun s₃ ⟨hpointed', d', hd'⟩ => ?_
    refine Exec.bind_sync_clean (hwrite (hpointed.trans ?_) hd' trivial)
    have hcurrent := hpointed.current (repositoryKey lib repository)
    rw [if_pos rfl] at hcurrent
    rw [← hcurrent]
    exact hpointed'

/-! ## Generations -/

/-- The state after a program that may have added an object. -/
structure Stored (s s' : CacheStore) (digest : String) : Prop where
  auxiliary : s'.auxiliary = s.auxiliary
  others : ∀ d, d ≠ digest → s'.objects[d]? = s.objects[d]?
  object : ∀ object, s.objects[digest]? = some object → s'.objects[digest]? = some object

namespace Stored

variable {s s' s'' : CacheStore} {digest : String}

theorem refl : Stored s s digest := ⟨rfl, fun _ _ => rfl, fun _ h => h⟩

theorem trans_pointed {key : String} {content : Option (List UInt8)} (h : Stored s s' digest)
    (h' : Pointed s' s'' key content) : Stored s s'' digest :=
  ⟨h'.auxiliary.trans h.auxiliary, fun d hd => h'.objects ▸ h.others d hd,
    fun o ho => h'.objects ▸ h.object o ho⟩

theorem grows (h : Stored s s' digest) (hrepos : ∀ k content, s.repoIdOf k = some content →
    s'.repoIdOf k = some content) : Grows s s' := by
  refine ⟨fun d o ho => ?_, fun c p hp => h.auxiliary ▸ hp, hrepos⟩
  by_cases hd : d = digest
  · subst hd
    exact h.object o ho
  · rw [h.others d hd]
    exact ho

end Stored

/-- The file `repomd.xml` of the object has the digest that the object is stored under. -/
def Holds (lib : Library) (s : CacheStore) (digest : String) : Prop :=
  ∃ object bytes, s.objects[digest]? = some object ∧ object["repomd.xml"]? = some bytes ∧
    sha256 lib bytes = digest

theorem Holds.congr {s' : CacheStore} (h : Holds lib s digest)
    (hobject : s'.objects[digest]? = s.objects[digest]?) : Holds lib s' digest := by
  obtain ⟨object, bytes, ho, hrest⟩ := h
  exact ⟨object, bytes, hobject.trans ho, hrest⟩

theorem verifyFile_eq_ok {object : Files} {record : FileRecord} {bytes : List UInt8}
    (h : verifyFile lib object record = .ok bytes) :
    object[record.name]? = some bytes ∧ sha256 lib bytes = record.sha256 := by
  simp only [verifyFile, readBounded, Except.bind_eq_ok, Except.pure_eq_ok, Except.refuseIf_eq_ok,
    Except.okOr_eq_ok, not_or, ne_eq, not_not] at h
  obtain ⟨_, -, _, -, _, ⟨_, hbytes, _, -, rfl⟩, _, ⟨-, hsha⟩, rfl⟩ := h
  exact ⟨hbytes, hsha⟩

theorem name_of_validateManifest {object : Files} {m : Manifest} (h : validateManifest object m = .ok ()) :
    m.repomd.name = "repomd.xml" := by
  simp only [validateManifest, Except.bind_eq_ok] at h
  obtain ⟨records, hrecords, _, hall, -⟩ := h
  have hmem : (m.repomd, "repomd.xml") ∈ records := by
    unfold Manifest.records at hrecords
    split at hrecords
    · obtain ⟨_, -, hrecords⟩ := Except.bind_eq_ok.mp hrecords
      cases Except.pure_eq_ok.mp hrecords
      simp
    · obtain ⟨_, -, hrecords⟩ := Except.bind_eq_ok.mp hrecords
      obtain ⟨_, -, hrecords⟩ := Except.bind_eq_ok.mp hrecords
      obtain ⟨_, -, hrecords⟩ := Except.bind_eq_ok.mp hrecords
      obtain ⟨_, -, hrecords⟩ := Except.bind_eq_ok.mp hrecords
      cases Except.pure_eq_ok.mp hrecords
      simp
  have hrecord := Except.forM_eq_ok.mp hall _ hmem
  simp only [checkRecord, Except.bind_eq_ok, Except.refuseIf_eq_ok, ne_eq, not_not] at hrecord
  exact hrecord.choose_spec.2

theorem readManifestBytes_eq_ok {object : Files} {bytes : List UInt8}
    (h : readManifestBytes s digest = .ok (object, bytes)) : s.objects[digest]? = some object := by
  simp only [readManifestBytes, Except.bind_eq_ok, Except.okOr_eq_ok, Except.pure_eq_ok] at h
  obtain ⟨_, -, _, hobject, _, -, h⟩ := h
  cases h
  exact hobject

/-- The file `repomd.xml` is named by the manifest, with the digest of the object. -/
theorem holds_of_verifyFile {object : Files} {m : Manifest} {bytes : List UInt8}
    (hobject : s.objects[digest]? = some object) (hmanifest : validateManifest object m = .ok ())
    (hdigest : m.repomd.sha256 = digest) (hfile : verifyFile lib object m.repomd = .ok bytes) :
    Holds lib s digest := by
  obtain ⟨hbytes, hsha⟩ := verifyFile_eq_ok hfile
  rw [name_of_validateManifest hmanifest] at hbytes
  exact ⟨object, bytes, hobject, hbytes, hsha.trans hdigest⟩

theorem holds_of_openVerifiedCompleteGeneration {g : VerifiedCompleteGeneration}
    (h : openVerifiedCompleteGeneration lib s digest = .ok g) : Holds lib s digest := by
  obtain ⟨⟨object, bytes⟩, hread, h⟩ := Except.bind_eq_ok.mp h
  obtain ⟨m, -, h⟩ := Except.bind_eq_ok.mp h
  obtain ⟨_, hmanifest, h⟩ := Except.bind_eq_ok.mp h
  obtain ⟨_, hchecked, h⟩ := Except.bind_eq_ok.mp h
  obtain ⟨_, hfile, -⟩ := Except.bind_eq_ok.mp h
  simp only [Except.refuseIf_eq_ok, not_or, ne_eq, not_not] at hchecked
  exact holds_of_verifyFile (readManifestBytes_eq_ok hread) hmanifest hchecked.2.1 hfile

theorem holds_of_openByDigest {loaded : CompleteSnapshot} (h : openByDigest lib s digest = .ok loaded) :
    Holds lib s digest := by
  obtain ⟨⟨object, m⟩, hopen, h⟩ := Except.bind_eq_ok.mp h
  obtain ⟨_, hfile, -⟩ := Except.bind_eq_ok.mp h
  simp only [openManifest, Except.bind_eq_ok, Except.pure_eq_ok, Except.refuseIf_eq_ok, ne_eq,
    not_not] at hopen
  obtain ⟨⟨object', bytes⟩, hread, _, -, _, -, _, -, m', -, _, hmanifest, _, hdigest, hsame⟩ := hopen
  cases hsame
  exact holds_of_verifyFile (readManifestBytes_eq_ok hread) hmanifest hdigest hfile

theorem holds_of_reopen {p : Publication} {loaded : CompleteSnapshot} (h : reopen lib p s = .ok loaded) :
    Holds lib s (p.digest lib) := by
  unfold reopen at h
  split at h
  · obtain ⟨_, hopen, -⟩ := Except.bind_eq_ok.mp h
    exact holds_of_openVerifiedCompleteGeneration hopen
  · exact holds_of_openByDigest h

theorem getElem?_object (p : Publication) : (p.object lib)["repomd.xml"]? = some p.repomd := by
  refine ExtTreeMap.getElem?_ofList_of_mem (k := "repomd.xml") Std.compare_self ?_ ?_
  · cases hf : p.filelistsBytes <;> cases hi : p.primaryIdentities <;> cases hr : p.primaryFiles <;>
      cases ho : p.sourceOrigin <;> simp [Publication.stagedFiles, hf, hi, hr, ho]
  · simp [Publication.stagedFiles]

/-- A new object is the given one. -/
theorem clean_renameObject {object : Files} : Exec.Sat (fun _ => False) (renameObject digest object) s
    fun o s' => Stored s s' digest ∧ s'.repos = s.repos ∧
      ∃ b, o = .ok b ∧ (b = true → s'.objects[digest]? = some object) := by
  unfold renameObject
  by_cases h : s.objects.contains digest = true
  · exact Exec.step_clean (if_pos h) ⟨.refl, rfl, _, rfl, nofun⟩
  · refine Exec.step_clean (if_neg h) ⟨⟨rfl, fun d hd => ?_, fun o ho => ?_⟩, rfl, _, rfl, fun _ => ?_⟩
    · rw [ExtTreeMap.getElem?_insert, if_neg (by simpa using Ne.symm hd)]
    · refine absurd ?_ h
      rw [ExtTreeMap.contains_eq_isSome_getElem?, ho]
      rfl
    · exact ExtTreeMap.getElem?_insert_self

theorem clean_syncs {α : Type} (xs : List α) :
    Exec.Sat (fun _ => False) (Exec.forEach (fun _ => Exec.sync) xs : Program Unit) s
      fun o s' => o = .ok () ∧ s' = s := by
  induction xs with
  | nil => exact Exec.sat_pure ⟨rfl, rfl⟩
  | cons x xs ih => exact Exec.bind_sync_clean ih

theorem clean_writeObject {p : Publication} : Exec.Sat (fun _ => False) (writeObject lib p) s
    fun o s' => Stored s s' (p.digest lib) ∧ s'.repos = s.repos ∧
      ∃ b, o = .ok b ∧ (b = true → s'.objects[p.digest lib]? = some (p.object lib)) := by
  unfold writeObject
  refine Exec.bind_sync_clean ((clean_syncs _).bind_ok fun s₁ hsame => ?_)
  subst hsame
  refine Exec.bind_sync_clean (Exec.bind_sync_clean (clean_renameObject.bind ?_ ?_ ?_))
  · rintro b s₂ ⟨hstored, hrepos, _, ⟨⟩, hobject⟩
    cases b with
    | false => exact Exec.sat_pure ⟨hstored, hrepos, _, rfl, nofun⟩
    | true => exact Exec.bind_sync_clean (Exec.sat_pure ⟨hstored, hrepos, _, rfl, hobject⟩)
  · rintro e s₂ ⟨-, -, _, ⟨⟩, -⟩
  · rintro s₂ ⟨-, -, _, ⟨⟩, -⟩

theorem digest_of_reopen {p : Publication} {loaded : CompleteSnapshot} (h : reopen lib p s = .ok loaded) :
    loaded.digest = p.digest lib := by
  unfold reopen at h
  split at h
  · simp only [Except.bind_eq_ok, Except.pure_eq_ok, Publication.snapshot, Except.refuseIf_eq_ok] at h
    obtain ⟨_, -, _, -, _, -, _, ⟨_, -, rfl⟩, rfl⟩ := h
    rfl
  · simp only [openByDigest, Except.bind_eq_ok, Except.pure_eq_ok] at h
    obtain ⟨_, -, _, -, _, -, _, -, _, -, _, -, _, -, _, -, _, -, _, -, _, -, rfl⟩ := h
    rfl

/-- The end of a publication under a digest. -/
structure Ends (s s' : CacheStore) (key digest : String) (content : Option (List UInt8)) : Prop where
  stored : Stored s s' digest
  current : ∀ k, s'.currentOf k = if key = k then content else s.currentOf k
  repoId : ∀ k content, s.repoIdOf k = some content → s'.repoIdOf k = some content

theorem Ends.trans_pointed {s' s'' : CacheStore} {key : String} {content content' : Option (List UInt8)}
    (h : Ends s s' key digest content) (h' : Pointed s' s'' key content') :
    Ends s s'' key digest content' := by
  refine ⟨h.stored.trans_pointed h', fun k => ?_, fun k c hc => h'.repoId k c (h.repoId k c hc)⟩
  rw [h'.current, h.current]
  split <;> rfl

theorem Ends.of_stored {s' : CacheStore} {key : String} (h : Stored s s' digest)
    (hrepos : s'.repos = s.repos) : Ends s s' key digest (s.currentOf key) := by
  refine ⟨h, fun k => ?_, fun k c hc => by rwa [CacheStore.repoIdOf, hrepos]⟩
  simp only [CacheStore.currentOf, hrepos]
  split
  next heq => rw [heq]
  · rfl

theorem clean_storeObject {p : Publication} : Exec.Sat (fun _ => False) (storeObject lib p) s
    fun o s' => Stored s s' (p.digest lib) ∧ s'.repos = s.repos ∧
      ∃ b, o = .ok b ∧ (b = true → s'.objects[p.digest lib]? = some (p.object lib)) := by
  refine Exec.bind_observe_clean rfl ?_
  split
  · exact Exec.sat_pure ⟨.refl, rfl, _, rfl, nofun⟩
  · exact clean_writeObject

theorem clean_loadPublished {p : Publication} {published : Bool}
    (hobject : published = true → s.objects[p.digest lib]? = some (p.object lib)) :
    Exec.Sat (fun _ => False) (loadPublished lib p published) s fun o s' => s' = s ∧ o ≠ .crashed ∧
      ∀ loaded, o = .ok loaded → loaded.digest = p.digest lib ∧ Holds lib s (p.digest lib) := by
  unfold loadPublished
  split
  next hpublished =>
    refine Exec.sat_lift (fun loaded hloaded => ⟨rfl, nofun, ?_⟩) fun e _ => ⟨rfl, nofun, nofun⟩
    rintro _ ⟨⟩
    obtain ⟨_, -, hsnapshot⟩ := Except.bind_eq_ok.mp hloaded
    cases Except.pure_eq_ok.mp hsnapshot
    exact ⟨rfl, _, _, hobject hpublished, getElem?_object p, rfl⟩
  · refine Exec.sat_observe False.elim (fun _ => False.elim) (fun loaded hloaded => ⟨rfl, nofun, ?_⟩)
      fun e _ => ⟨rfl, nofun, nofun⟩
    rintro _ ⟨⟩
    exact ⟨digest_of_reopen hloaded, holds_of_reopen hloaded⟩

theorem clean_publishGeneration {p : Publication} :
    Exec.Sat (fun _ => False) (publishGeneration lib p) s fun o s' =>
      Ends s s' (repositoryKey lib p.repository) (p.digest lib) (match o with
        | .ok _ => some (CurrentPointer.bytes ⟨1, p.digest lib, p.repomdAuthentication⟩)
        | _ => s.currentOf (repositoryKey lib p.repository)) ∧
      o ≠ .crashed ∧
      ∀ loaded, o = .ok loaded → loaded.digest = p.digest lib ∧ Holds lib s' (p.digest lib) := by
  unfold publishGeneration
  refine Exec.bind_sync_clean (clean_storeObject.bind ?_ ?_ ?_)
  · rintro published s₁ ⟨hstored, hrepos, _, ⟨⟩, hobject⟩
    have hends : Ends s s₁ (repositoryKey lib p.repository) (p.digest lib)
      (s.currentOf (repositoryKey lib p.repository)) := .of_stored hstored hrepos
    refine (clean_loadPublished hobject).bind ?_ ?_ ?_
    · rintro loaded s₂ ⟨rfl, -, hloaded⟩
      refine Exec.sat_bind_lift (fun _ _ => ?_) fun e _ => ⟨hends, nofun, nofun⟩
      refine clean_publishRepositoryPointer.bind ?_ ?_ ?_
      · rintro _ s₃ ⟨hpointed, -⟩
        refine Exec.sat_pure ⟨hends.trans_pointed hpointed, nofun, ?_⟩
        rintro _ ⟨⟩
        obtain ⟨hdigest, hholds⟩ := hloaded loaded rfl
        exact ⟨hdigest, hholds.congr (by rw [hpointed.objects])⟩
      · rintro e s₃ ⟨hpointed, -⟩
        have hcurrent := hends.current (repositoryKey lib p.repository)
        rw [if_pos rfl] at hcurrent
        exact ⟨hends.trans_pointed (hcurrent ▸ hpointed), nofun, nofun⟩
      · rintro s₃ ⟨-, hcrashed, -⟩
        exact absurd rfl hcrashed
    · rintro e s₂ ⟨rfl, -, -⟩
      exact ⟨hends, nofun, nofun⟩
    · rintro s₂ ⟨-, hcrashed, -⟩
      exact absurd rfl hcrashed
  · rintro e s₁ ⟨-, -, _, ⟨⟩, -⟩
  · rintro s₁ ⟨-, -, _, ⟨⟩, -⟩

/-! ## The entry points of a refresh -/

theorem fastPublication_eq_ok {repomd primary filelists : List UInt8} {sourceOrigin : Option String}
    {p : Publication} (h : fastPublication lib repository repomd primary filelists sourceOrigin
      authentication = .ok p) :
    authentication.validate = .ok () ∧ p.repository = repository ∧ p.repomd = repomd ∧
      p.repomdAuthentication = authentication := by
  simp only [fastPublication, Except.bind_eq_ok, Except.pure_eq_ok, Except.mapError_eq_ok] at h
  obtain ⟨_, hvalid, _, -, _, -, _, -, _, -, rfl⟩ := h
  exact ⟨hvalid, rfl, rfl, rfl⟩

theorem clean_publishVerifiedCompleteFast {repomd primary filelists : List UInt8}
    {sourceOrigin : Option String} :
    Exec.Sat (fun _ => False) (publishVerifiedCompleteFast lib repository repomd primary filelists
      sourceOrigin authentication) s fun o s' =>
        Ends s s' (repositoryKey lib repository) (sha256 lib repomd) (match o with
          | .ok _ => some (CurrentPointer.bytes ⟨1, sha256 lib repomd, authentication⟩)
          | _ => s.currentOf (repositoryKey lib repository)) ∧
        o ≠ .crashed ∧
        ∀ snapshot, o = .ok snapshot → snapshot.digest = sha256 lib repomd ∧
          Holds lib s' (sha256 lib repomd) ∧ authentication.validate = .ok () := by
  refine Exec.sat_bind_lift (fun p hp => ?_) fun e _ => ⟨.of_stored .refl rfl, nofun, nofun⟩
  obtain ⟨hvalid, rfl, rfl, rfl⟩ := fastPublication_eq_ok hp
  refine clean_publishGeneration.bind ?_ ?_ ?_
  · rintro loaded s' ⟨hends, -, hloaded⟩
    refine Exec.sat_pure ⟨hends, nofun, ?_⟩
    rintro _ ⟨⟩
    exact ⟨(hloaded loaded rfl).1, (hloaded loaded rfl).2, hvalid⟩
  · rintro e s' ⟨hends, -, -⟩
    exact ⟨hends, nofun, nofun⟩
  · rintro s' ⟨-, hcrashed, -⟩
    exact absurd rfl hcrashed

/-- What there is when a generation is used again. -/
theorem reusable_eq_ok {repomd : List UInt8} {origin : String} {snapshot : Snapshot}
    (h : reusable lib repository repomd origin authentication s = .ok (some snapshot)) :
    authentication.validate = .ok () ∧ snapshot.digest = sha256 lib repomd ∧
      (∃ pointer, currentPointer lib s repository = .ok pointer ∧
        pointer.digest = sha256 lib repomd) ∧ Holds lib s (sha256 lib repomd) := by
  unfold reusable at h
  obtain ⟨_, hvalid, h⟩ := Except.bind_eq_ok.mp h
  obtain ⟨_, -, h⟩ := Except.bind_eq_ok.mp h
  refine ⟨Except.mapError_eq_ok.mp hvalid, ?_⟩
  split at h
  · cases Except.pure_eq_ok.mp h
  · cases h
  next pointer hpointer =>
    split at h
    · cases Except.pure_eq_ok.mp h
    next hsame =>
      obtain ⟨_, hopen, h⟩ := Except.bind_eq_ok.mp h
      obtain ⟨_, -, h⟩ := Except.bind_eq_ok.mp h
      obtain ⟨_, -, h⟩ := Except.bind_eq_ok.mp h
      cases Except.pure_eq_ok.mp h
      exact ⟨rfl, ⟨pointer, hpointer, not_not.mp hsame⟩, holds_of_openVerifiedCompleteGeneration hopen⟩

/-- What there is when no generation is used again. -/
theorem reusable_eq_none {repomd : List UInt8} {origin : String} {pointer : CurrentPointer}
    (h : reusable lib repository repomd origin authentication s = .ok none)
    (hpointer : currentPointer lib s repository = .ok pointer) : pointer.digest ≠ sha256 lib repomd := by
  unfold reusable at h
  obtain ⟨_, -, h⟩ := Except.bind_eq_ok.mp h
  obtain ⟨_, -, h⟩ := Except.bind_eq_ok.mp h
  simp only [hpointer] at h
  split at h
  next hne => exact hne
  next hsame =>
    obtain ⟨_, -, h⟩ := Except.bind_eq_ok.mp h
    obtain ⟨_, -, h⟩ := Except.bind_eq_ok.mp h
    obtain ⟨_, -, h⟩ := Except.bind_eq_ok.mp h
    cases Except.pure_eq_ok.mp h

/-- A pointer file is written only when there is a generation to use again. -/
theorem clean_reuseCurrentVerifiedComplete {repomd : List UInt8} {origin : String} :
    Exec.Sat (fun _ => False) (reuseCurrentVerifiedComplete lib repository repomd origin
      authentication) s fun o s' =>
        Pointed s s' (repositoryKey lib repository) (match o with
          | .ok (some _) => some (CurrentPointer.bytes ⟨1, sha256 lib repomd, authentication⟩)
          | _ => s.currentOf (repositoryKey lib repository)) ∧
        o ≠ .crashed ∧
        (∀ reused, o = .ok reused →
          reusable lib repository repomd origin authentication s = .ok reused ∧
          (reused ≠ none → checkedRepoId lib s repository = .ok ())) ∧
        ∀ e, o = .err e → reusable lib repository repomd origin authentication s = .error e ∨
          checkedRepoId lib s repository = .error e := by
  unfold reuseCurrentVerifiedComplete
  cases hreusable : reusable lib repository repomd origin authentication s with
  | error e =>
    refine Exec.bind_observe_refused hreusable ⟨.refl, nofun, nofun, ?_⟩
    rintro _ ⟨⟩
    exact .inl rfl
  | ok reused =>
    refine Exec.bind_observe_clean hreusable ?_
    cases reused with
    | none =>
      refine Exec.sat_pure ⟨.refl, nofun, ?_, nofun⟩
      rintro _ ⟨⟩
      exact ⟨rfl, fun h => absurd rfl h⟩
    | some snapshot =>
      have hdigest := (reusable_eq_ok hreusable).2.1
      refine clean_publishRepositoryPointer.bind ?_ ?_ ?_
      · rintro _ s' ⟨hpointed, -, hchecked, -⟩
        refine Exec.sat_pure ⟨hdigest ▸ hpointed, nofun, ?_, nofun⟩
        rintro _ ⟨⟩
        exact ⟨rfl, fun _ => hchecked rfl⟩
      · rintro e s' ⟨hpointed, -, -, hrefused⟩
        refine ⟨hpointed, nofun, nofun, ?_⟩
        rintro _ ⟨⟩
        exact .inr (hrefused e rfl)
      · rintro s' ⟨-, hcrashed, -⟩
        exact absurd rfl hcrashed

theorem clean_renameAuxiliary {checksum : String} {bytes : List UInt8} :
    Exec.Sat (fun _ => False) (renameAuxiliary checksum bytes) s fun o s' =>
      o = .ok () ∧ s'.objects = s.objects ∧ s'.repos = s.repos ∧ Grows s s' := by
  refine Exec.sat_change False.elim (fun _ => False.elim) ⟨rfl, ?_⟩
  split
  · exact ⟨rfl, rfl, .refl⟩
  next h =>
    refine ⟨rfl, rfl, fun _ _ ho => ho, fun c p hp => ?_, fun _ _ hc => hc⟩
    have hne : checksum ≠ c := by
      rintro rfl
      rw [ExtTreeMap.contains_eq_isSome_getElem?, hp] at h
      exact h rfl
    rwa [ExtTreeMap.getElem?_insert, if_neg (by simpa using hne)]

/-- Nothing but an auxiliary object is new. -/
theorem clean_publishAuxiliary {record : AuxiliaryRecord} {bytes : List UInt8} :
    Exec.Sat (fun _ => False) (publishAuxiliary lib record bytes) s fun o s' =>
      s'.objects = s.objects ∧ s'.repos = s.repos ∧ Grows s s' ∧ o ≠ .crashed := by
  have hopen : ∀ s' : CacheStore, s'.objects = s.objects → s'.repos = s.repos → Grows s s' →
      Exec.Sat (fun _ => False) (Exec.observe fun s => openAuxiliary lib s record : Program (List UInt8)) s'
        fun o s' => s'.objects = s.objects ∧ s'.repos = s.repos ∧ Grows s s' ∧ o ≠ .crashed := by
    intro s' hobjects hrepos hgrows
    exact Exec.sat_observe False.elim (fun _ => False.elim)
      (fun _ _ => ⟨hobjects, hrepos, hgrows, nofun⟩) fun _ _ => ⟨hobjects, hrepos, hgrows, nofun⟩
  have hsame : ∀ e : CacheError, s.objects = s.objects ∧ s.repos = s.repos ∧ Grows s s ∧
      (Outcome.err e : Outcome CacheError (List UInt8)) ≠ .crashed := fun _ => ⟨rfl, rfl, .refl, nofun⟩
  unfold publishAuxiliary
  refine Exec.sat_bind_lift (fun _ _ => ?_) fun e _ => hsame e
  refine Exec.sat_bind_lift (fun _ _ => ?_) fun e _ => hsame e
  refine Exec.bind_sync_clean (Exec.bind_observe_clean rfl ?_)
  split
  · refine Exec.bind_sync_clean (clean_renameAuxiliary.bind_ok fun s' ⟨hobjects, hrepos, hgrows⟩ => ?_)
    exact Exec.bind_sync_clean (hopen s' hobjects hrepos hgrows)
  · exact hopen s rfl rfl .refl

end

end Dnfast.Cache
