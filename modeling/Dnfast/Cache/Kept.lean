import Dnfast.Cache.Frame
import Dnfast.Cache.Pointer

/-! # What a reader sees of a repository

The readers look at the pointer of a repository and at the object it names. `Kept` says that these are
as they were, and that nothing else that was in the store is gone. -/

namespace Dnfast.Cache

open Core (isLowerDigest)
open Planning (RepomdAuthentication)

section
variable {lib : Library} {repository digest : String} {authentication : RepomdAuthentication}
  {s s' s'' : CacheStore}

/-! ## Pointers -/

theorem currentPointer_eq : currentPointer lib s repository =
    match s.currentOf (repositoryKey lib repository) with
    | none => .error (.missingSnapshot repository)
    | some content => readBounded (some content) 2048 >>= readPointer := rfl

theorem currentPointer_congr
    (h : s'.currentOf (repositoryKey lib repository) = s.currentOf (repositoryKey lib repository)) :
    currentPointer lib s' repository = currentPointer lib s repository := by
  rw [currentPointer_eq, currentPointer_eq, h]

/-- A pointer that was written is read. -/
theorem currentPointer_of_bytes (hdigest : isLowerDigest digest = true)
    (hvalid : authentication.validate = .ok ())
    (h : s.currentOf (repositoryKey lib repository) =
      some (CurrentPointer.bytes ⟨1, digest, authentication⟩)) :
    currentPointer lib s repository = .ok ⟨1, digest, authentication⟩ := by
  have hread : readBounded (some (CurrentPointer.bytes ⟨1, digest, authentication⟩)) 2048 =
      .ok (CurrentPointer.bytes ⟨1, digest, authentication⟩) := by
    have hlength := length_bytes_le hdigest hvalid
    simp only [readBounded, Except.bind_eq_ok, Except.okOr_eq_ok, Except.refuseIf_eq_ok,
      Except.pure_eq_ok, not_lt]
    exact ⟨_, rfl, (), hlength, rfl⟩
  rw [currentPointer_eq, h]
  simp only [hread, Except.ok_bind, readPointer_bytes hdigest hvalid]

theorem isLowerDigest_sha256 (bytes : List UInt8) : isLowerDigest (sha256 lib bytes) = true :=
  (lib.crates.sha256 bytes).canonical

theorem version_of_readPointer {bytes : List UInt8} {p : CurrentPointer} (h : readPointer bytes = .ok p) :
    p.version = 1 := by
  unfold readPointer at h
  split at h
  · cases h
    rfl
  · simp only [Except.bind_eq_ok, Except.refuseIf_eq_ok, Except.pure_eq_ok, not_or, ne_eq, not_not] at h
    obtain ⟨_, -, _, ⟨hversion, -⟩, _, -, rfl⟩ := h
    exact hversion

theorem version_of_currentPointer {p : CurrentPointer} (h : currentPointer lib s repository = .ok p) :
    p.version = 1 := by
  rw [currentPointer_eq] at h
  split at h
  · cases h
  · obtain ⟨_, -, h⟩ := Except.bind_eq_ok.mp h
    exact version_of_readPointer h

/-! ## Objects -/

theorem readManifestBytes_congr (h : s'.objects[digest]? = s.objects[digest]?) :
    readManifestBytes s' digest = readManifestBytes s digest := by
  simp only [readManifestBytes, h]

theorem openVerifiedCompleteGeneration_congr (h : s'.objects[digest]? = s.objects[digest]?) :
    openVerifiedCompleteGeneration lib s' digest = openVerifiedCompleteGeneration lib s digest := by
  simp only [openVerifiedCompleteGeneration, readManifestBytes_congr h]

theorem openSearchIndex_congr (h : s'.objects[digest]? = s.objects[digest]?) :
    openSearchIndex lib s' digest = openSearchIndex lib s digest := by
  simp only [openSearchIndex, openManifest, readManifestBytes_congr h]

theorem openAuxiliary_of_grows {record : Metadata.AuxiliaryRecord} {bytes : List UInt8} (h : Grows s s')
    (hopen : openAuxiliary lib s record = .ok bytes) : openAuxiliary lib s' record = .ok bytes := by
  simp only [openAuxiliary, Except.bind_eq_ok, Except.okOr_eq_ok] at hopen ⊢
  obtain ⟨_, hvalid, payload, hpayload, hrest⟩ := hopen
  exact ⟨_, hvalid, payload, h.auxiliary _ _ hpayload, hrest⟩

theorem checkedRepoId_of_grows (h : Grows s s') (hchecked : checkedRepoId lib s' repository = .ok ()) :
    checkedRepoId lib s repository = .ok () := by
  unfold checkedRepoId at hchecked ⊢
  split
  · rfl
  next content hcontent =>
    rw [h.repoId _ _ hcontent] at hchecked
    exact hchecked

/-! ## A repository that is kept -/

/-- The pointer is read as it was, its object is the one it was, and nothing is gone. -/
structure Kept (lib : Library) (repository : String) (s s' : CacheStore) : Prop where
  pointer : currentPointer lib s' repository = currentPointer lib s repository
  object : ∀ p, currentPointer lib s repository = .ok p →
    s'.objects[p.digest]? = s.objects[p.digest]?
  grows : Grows s s'

namespace Kept

theorem refl : Kept lib repository s s := ⟨rfl, fun _ _ => rfl, .refl⟩

theorem trans (h : Kept lib repository s s') (h' : Kept lib repository s' s'') :
    Kept lib repository s s'' :=
  ⟨h'.pointer.trans h.pointer, fun p hp => (h'.object p (h.pointer.trans hp)).trans (h.object p hp),
    h.grows.trans h'.grows⟩

/-- The generation, its origin and its authentication are what they were. -/
theorem openCurrentVerifiedCompleteGeneration (h : Kept lib repository s s') :
    openCurrentVerifiedCompleteGeneration lib s' repository =
      openCurrentVerifiedCompleteGeneration lib s repository := by
  unfold Cache.openCurrentVerifiedCompleteGeneration
  rw [h.pointer]
  cases hp : currentPointer lib s repository with
  | error e => rfl
  | ok p =>
    simp only [Except.ok_bind]
    rw [openVerifiedCompleteGeneration_congr (h.object p hp)]

/-- What can be used again could be used again before. -/
theorem reusable {repomd : List UInt8} {origin : String} {snapshot : Snapshot}
    (h : Kept lib repository s s')
    (hreusable : reusable lib repository repomd origin authentication s' = .ok (some snapshot)) :
    reusable lib repository repomd origin authentication s = .ok (some snapshot) := by
  obtain ⟨-, -, ⟨p, hp, hdigest⟩, -⟩ := reusable_eq_ok hreusable
  have hp' := h.pointer ▸ hp
  have hobject := h.object p hp'
  rw [hdigest] at hobject
  unfold Cache.reusable at hreusable ⊢
  rw [hp] at hreusable
  rw [hp']
  rw [openVerifiedCompleteGeneration_congr hobject, openSearchIndex_congr hobject] at hreusable
  exact hreusable

end Kept

/-- A change of something else in the store. -/
theorem Kept.of_same (hobjects : s'.objects = s.objects) (hrepos : s'.repos = s.repos)
    (hgrows : Grows s s') : Kept lib repository s s' :=
  ⟨currentPointer_congr (by simp only [CacheStore.currentOf, hrepos]), fun _ _ => by rw [hobjects], hgrows⟩

theorem Kept.of_pointed {key : String} (h : Pointed s s' key (s.currentOf key)) :
    Kept lib repository s s' := by
  refine ⟨currentPointer_congr ?_, fun p _ => by rw [h.objects], h.grows⟩
  rw [h.current]
  split
  next heq => rw [heq]
  · rfl

/-- A publication of another generation that did not become the current one. -/
theorem Kept.of_ends {key : String} (h : Ends s s' key digest (s.currentOf key))
    (hother : ∀ p, currentPointer lib s repository = .ok p → p.digest ≠ digest) :
    Kept lib repository s s' := by
  refine ⟨currentPointer_congr ?_, fun p hp => h.stored.others _ (hother p hp), h.stored.grows h.repoId⟩
  rw [h.current]
  split
  next heq => rw [heq]
  · rfl

end

end Dnfast.Cache
