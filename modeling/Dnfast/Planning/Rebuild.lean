import Dnfast.Planning.Reuse
import Dnfast.Planning.Sound

/-! # The blobs of a publication

A refresh that builds its repositories offers their contents to the store, one after the other, and
flushes the directory of blobs once. Nothing that was there changes (`Grows`), so a sound store stays
sound wherever the refresh ends; and when it gets to its end, the repositories that it has made are
backed. -/

namespace Dnfast.Planning

open Durable
open Core (isLowerDigest)

variable {A : Fate (Fault PlanningError) → Prop} {lib : Library} {content : String → List UInt8}
  {occasion : Occasion} {s s' s'' : Store}

/-! ## Growth -/

/-- Blobs were added, and nothing else has changed. -/
structure Grows (lib : Library) (content : String → List UInt8) (s s' : Store) : Prop where
  files : s'.files = s.files
  snapshots : s'.snapshots = s.snapshots
  present : ∀ name, isLowerDigest name = true → Present s name → Present s' name
  blobs : GenuineBlobs lib content s'

theorem Grows.refl (h : GenuineBlobs lib content s) : Grows lib content s s :=
  ⟨rfl, rfl, fun _ _ h => h, h⟩

theorem Grows.trans (h : Grows lib content s s') (h' : Grows lib content s' s'') :
    Grows lib content s s'' :=
  ⟨h'.files.trans h.files, h'.snapshots.trans h.snapshots,
    fun n hdigest hn => h'.present n hdigest (h.present n hdigest hn), h'.blobs⟩

theorem Grows.points {name : String} (h : Grows lib content s s') : Points s' name ↔ Points s name := by
  rw [Points, Points, h.files]

theorem Grows.sound (h : Grows lib content s s') (hs : Sound lib content s) : Sound lib content s' := by
  have hholds : ∀ name, Holds lib content s name → Holds lib content s' name :=
    fun name hname => hname.mono (by rw [h.snapshots]) h.present
  refine ⟨h.blobs, fun name d hdigest hd => ?_, fun file hfile => ?_⟩
  · rw [h.snapshots] at hd
    exact (hs.snapshots name d hdigest hd).imp_right (hholds name)
  · rw [h.files] at hfile
    obtain ⟨name, hpoints, hname⟩ := hs.current file hfile
    exact ⟨name, h.points.mpr hpoints, hholds name hname⟩

theorem Grows.backedRepository {r : PlanningRepository} (h : Grows lib content s s')
    (hr : BackedRepository lib content s r) : BackedRepository lib content s' r :=
  hr.mono fun n hn => h.present n (hr.digests n hn)

/-- No temporary file of the occasion lies among the blobs. -/
def FreshBlobs (occasion : Occasion) (s : Store) : Prop :=
  ∀ blobs base, s.blobs = some blobs → temporaryName occasion base ∉ blobs.now

theorem grows_makeBlobs (h : GenuineBlobs lib content s) : Grows lib content s (makeBlobs s) := by
  refine ⟨rfl, rfl, ?_, ?_⟩
  · rintro name - ⟨blobs, file, hblobs, hfile⟩
    exact ⟨blobs, file, by simp [makeBlobs, hblobs], hfile⟩
  · intro blobs name file hblobs hdigest hfile
    cases hs : s.blobs with
    | none =>
      simp only [makeBlobs, hs, Option.getD_none, Option.some.injEq] at hblobs
      simp [← hblobs, Folder.empty] at hfile
    | some blobs' =>
      simp only [makeBlobs, hs, Option.getD_some, Option.some.injEq] at hblobs
      exact h blobs name file (hblobs ▸ hs) hdigest hfile

theorem freshBlobs_makeBlobs (h : FreshBlobs occasion s) : FreshBlobs occasion (makeBlobs s) := by
  intro blobs base hblobs
  cases hs : s.blobs with
  | none =>
    simp only [makeBlobs, hs, Option.getD_none, Option.some.injEq] at hblobs
    simp [← hblobs, Folder.empty]
  | some blobs' =>
    simp only [makeBlobs, hs, Option.getD_some, Option.some.injEq] at hblobs
    exact h blobs base (hblobs ▸ hs)

/-- A blob that was placed in its directory. -/
theorem Placed.grows {blobs blobs' : Folder File} {base digest : String} {bytes : List UInt8}
    (h : Placed (temporaryName occasion base) digest bytes blobs blobs') (hs : s.blobs = some blobs)
    (hblobs : GenuineBlobs lib content s) (hdigest : (lib.crates.sha256 bytes).asStr = digest)
    (hcontent : content digest = bytes) :
    Grows lib content s { s with blobs := some blobs' } := by
  refine ⟨rfl, rfl, ?_, ?_⟩
  · rintro name hname ⟨b, file, hb, hfile⟩
    cases hs.symm.trans hb
    rcases h.others name (temporaryName_ne hname).symm with hsame | ⟨-, hnone, -⟩
    · exact ⟨blobs', file, rfl, hsame.trans hfile⟩
    · rw [hnone] at hfile
      cases hfile
  · intro b name file hb hname hfile
    cases hb
    rcases h.others name (temporaryName_ne hname).symm with hsame | ⟨rfl, -, hfits, hnew⟩
    · exact hblobs blobs name file hs hname (hsame ▸ hfile)
    · rw [hnew] at hfile
      cases hfile
      exact ⟨hcontent, hdigest, hfits⟩

/-! ## One blob -/

section
variable {digest : String} {bytes : List UInt8}

theorem ensures_inBlobs_placeBlob (occasion : Occasion) (accepts : List UInt8 → Bool)
    (hblobs : GenuineBlobs lib content s)
    (hdigest : (lib.crates.sha256 bytes).asStr = digest) (hcontent : content digest = bytes)
    (haccepts : accepts bytes = true) :
    (do
      Exec.change makeBlobs
      inBlobs (placeBlob (temporaryName occasion ("blob-" ++ digest)) digest bytes accepts) :
        Program Unit).Ensures A s (Grows lib content s)
      (FreshBlobs occasion s ∧ bytes.length < 2 ^ 63) fun _ s' =>
        Present s' digest ∧ (FreshBlobs occasion s → FreshBlobs occasion s') := by
  have hlower : isLowerDigest digest = true := hdigest ▸ (lib.crates.sha256 bytes).canonical
  have hmade := grows_makeBlobs hblobs
  refine Exec.Ensures.bind (P := fun _ s' => s' = makeBlobs s)
    (Exec.Ensures.change (.refl hblobs) hmade rfl) ?_
  rintro _ s₁ hgrows rfl
  have hsome : (makeBlobs s).blobs = some (s.blobs.getD .empty) := rfl
  refine Exec.Ensures.zoom (K := Placed (temporaryName occasion ("blob-" ++ digest)) digest bytes
      (s.blobs.getD .empty)) (P := fun _ f' => (∃ file, f'.now[digest]? = some file) ∧
        (f'.now[temporaryName occasion ("blob-" ++ digest)]? =
          (s.blobs.getD .empty).now[temporaryName occasion ("blob-" ++ digest)]? ∨
            f'.now[temporaryName occasion ("blob-" ++ digest)]? = none)) ?_ ?_ ?_ ?_
  · intro h
    rw [hsome] at h
    cases h
  · intro f hf
    rw [hsome] at hf
    cases hf
    refine (ensures_placeBlob (temporaryName_ne hlower)).mono (fun _ h => h) ?_ fun _ _ _ h => h
    rintro ⟨hfresh, hfits⟩
    refine ⟨freshBlobs_makeBlobs hfresh _ _ hsome, hfits, fun file hfile => ?_⟩
    have hgenuine := hmade.blobs _ digest file hsome hlower hfile
    rw [← hgenuine.content, hcontent]
    exact ⟨le_rfl, haccepts⟩
  · intro f f' hf hplaced
    rw [hsome] at hf
    cases hf
    exact hmade.trans (hplaced.grows hsome hmade.blobs hdigest hcontent)
  · rintro f _ f' hf hplaced ⟨⟨file, hfile⟩, htemporary⟩
    rw [hsome] at hf
    cases hf
    refine ⟨⟨f', file, rfl, hfile⟩, fun hfresh b base hb hmem => ?_⟩
    cases hb
    have hfresh' := freshBlobs_makeBlobs hfresh _ base hsome
    rw [Std.ExtTreeMap.mem_iff_isSome_getElem?] at hmem hfresh'
    by_cases hbase : temporaryName occasion base = temporaryName occasion ("blob-" ++ digest)
    · rw [hbase] at hmem hfresh'
      rcases htemporary with h | h
      · rw [h] at hmem
        exact hfresh' hmem
      · simp [h] at hmem
    · rcases hplaced.others _ hbase with h | ⟨h, -⟩
      · rw [h] at hmem
        exact hfresh' hmem
      · exact temporaryName_ne hlower h

end

/-! ## Several blobs -/

/-- How far the publication of blobs has come. -/
structure Published (lib : Library) (content : String → List UInt8) (occasion : Occasion) (s : Store)
    (done : List (List UInt8)) (s' : Store) : Prop where
  grows : Grows lib content s s'
  fresh : FreshBlobs occasion s → FreshBlobs occasion s'
  present : ∀ bytes ∈ done, Present s' (lib.crates.sha256 bytes).asStr

section
variable {done : List (List UInt8)} {bytes : List UInt8} {good : Prop}

theorem Published.refl (h : GenuineBlobs lib content s) : Published lib content occasion s [] s :=
  ⟨.refl h, fun h => h, fun _ h => absurd h List.not_mem_nil⟩

theorem Published.next (h : Published lib content occasion s done s')
    (hgrows : Grows lib content s' s'')
    (hfresh : FreshBlobs occasion s' → FreshBlobs occasion s'')
    (hpresent : Present s'' (lib.crates.sha256 bytes).asStr) :
    Published lib content occasion s (bytes :: done) s'' := by
  refine ⟨h.grows.trans hgrows, fun hf => hfresh (h.fresh hf), ?_⟩
  rw [List.forall_mem_cons]
  refine ⟨hpresent, fun b hb => ?_⟩
  exact hgrows.present _ (lib.crates.sha256 b).canonical (h.present b hb)

theorem ensures_publishBlobDeferred (h : Published lib content occasion s done s')
    (hcontent : content (lib.crates.sha256 bytes).asStr = bytes)
    (hgood : good → FreshBlobs occasion s ∧ bytes.length < 2 ^ 63) :
    (publishBlobDeferred lib occasion (lib.crates.sha256 bytes).asStr bytes).Ensures A s'
      (Grows lib content s) good fun _ s'' => Published lib content occasion s (bytes :: done) s'' := by
  have hlower := (lib.crates.sha256 bytes).canonical
  refine Exec.Ensures.bind (P := fun _ s'' => s'' = s') (ensures_checking h.grows ?_ ?_) ?_
  · exact fun _ _ => rfl
  · intro e he
    simp [Except.refuseIf, hlower] at he
  rintro _ s₁ - rfl
  have hplace := (ensures_inBlobs_placeBlob (A := A) occasion (· == bytes) h.grows.blobs rfl
    hcontent (beq_self_eq_true bytes)).keep fun _ hg => h.grows.trans hg
  refine hplace.mono (fun _ hi => hi) ?_ ?_
  · exact fun hg => ⟨h.fresh (hgood hg).1, (hgood hg).2⟩
  · rintro _ s₂ - ⟨hgrows, hpresent, hfresh⟩
    exact h.next hgrows hfresh hpresent

theorem ensures_publishVerifiedFileDeferred {payload : VerifiedBytes}
    (h : Published lib content occasion s done s')
    (hcontent : content (lib.crates.sha256 payload.bytes).asStr = payload.bytes)
    (hgood : good → FreshBlobs occasion s) :
    (publishVerifiedFileDeferred lib occasion payload).Ensures A s' (Grows lib content s) good
      fun _ s'' => Published lib content occasion s (payload.bytes :: done) s'' := by
  have hlower := (lib.crates.sha256 payload.bytes).canonical
  refine Exec.Ensures.bind (P := fun _ s'' => s'' = s') (ensures_checking h.grows ?_ ?_) ?_
  · exact fun _ _ => rfl
  · intro e he
    simp [Except.refuseIf, hlower] at he
  rintro _ s₁ - rfl
  have hplace := (ensures_inBlobs_placeBlob (A := A) occasion
    (fun existing => existing.length == payload.bytes.length &&
      (lib.crates.sha256 existing).asStr == (lib.crates.sha256 payload.bytes).asStr)
    h.grows.blobs rfl hcontent (by simp)).keep fun _ hg => h.grows.trans hg
  refine hplace.mono (fun _ hi => hi) ?_ ?_
  · exact fun hg => ⟨h.fresh (hgood hg), payload.fits⟩
  · rintro _ s₂ - ⟨hgrows, hpresent, hfresh⟩
    exact h.next hgrows hfresh hpresent

/-- The loop over the auxiliary objects. -/
theorem ensures_publishVerifiedBlobsDeferred {payloads : List VerifiedBytes}
    (h : Published lib content occasion s done s')
    (hcontent : ∀ payload ∈ payloads,
      content (lib.crates.sha256 payload.bytes).asStr = payload.bytes)
    (hgood : good → FreshBlobs occasion s) :
    (Exec.forEach (publishVerifiedBlobDeferred lib occasion) payloads).Ensures A s'
      (Grows lib content s) good
      fun _ s'' => Published lib content occasion s (payloads.map (·.bytes) ++ done) s'' := by
  induction payloads generalizing s' done with
  | nil => exact Exec.Ensures.pure h.grows h
  | cons payload payloads ih =>
    rw [List.forall_mem_cons] at hcontent
    refine Exec.Ensures.bind (ensures_publishBlobDeferred h hcontent.1 fun hg => ⟨hgood hg, payload.fits⟩)
      fun _ s₁ _ h₁ => ?_
    refine (ih h₁ hcontent.2).imp fun _ s₂ _ h₂ => ⟨h₂.grows, h₂.fresh, fun b hb => h₂.present b ?_⟩
    simp only [List.map_cons, List.cons_append, List.mem_append, List.mem_cons] at hb ⊢
    tauto

end

/-! ## One repository -/

/-- The contents that a repository offers to the store. -/
def Staged.contents (staged : Staged) : List (List UInt8) :=
  [staged.index, staged.generation.repomd.bytes, staged.generation.primary.bytes,
    staged.generation.filelists.bytes] ++ staged.auxiliary.toList.map (·.bytes)

section
variable {validAtUnix : UInt64} {configured : RepoConfig} {staged : Staged} {good : Prop}

theorem fileProvides_of_stageRepository
    (h : stageRepository lib.crates occasion.host configured validAtUnix = .ok staged) :
    staged.fileProvides =
        ⟨(lib.crates.sha256 staged.index).asStr, UInt64.ofNat staged.index.length, ""⟩ ∧
      ∃ m, LazyIndex.validateLazyBinaryManifest staged.index
        (lib.crates.sha256 staged.generation.primary.bytes).asStr
        (lib.crates.sha256 staged.generation.filelists.bytes).asStr = .ok m := by
  obtain ⟨-, -, -, -, records, identities, -, -, -, hbuild⟩ := stageRepository_eq_ok.mp h
  simp only [LazyIndex.build, Except.bind_eq_ok, Except.pure_eq_ok, Prod.mk.injEq] at hbuild
  obtain ⟨_, -, m, hvalid, rfl, hprovides⟩ := hbuild
  exact ⟨hprovides.symm, m, hvalid⟩

theorem isLazyBinary_of_validate {bytes : List UInt8} {primary filelists : String}
    {m : LazyIndex.LazyBinaryManifest}
    (h : LazyIndex.validateLazyBinaryManifest bytes primary filelists = .ok m) :
    isLazyBinary bytes := by
  simp only [LazyIndex.validateLazyBinaryManifest, Except.bind_eq_ok] at h
  obtain ⟨magic, hmagic, -⟩ := h
  unfold LazyIndex.lazyMagic at hmagic
  split at hmagic
  next h => exact .inr h
  next h =>
    split at hmagic
    next h => exact .inl h
    · cases hmagic

/-- The descriptor of a content. -/
def descriptorOf (lib : Library) (bytes : List UInt8) : PlanningBytes :=
  ⟨(lib.crates.sha256 bytes).asStr, UInt64.ofNat bytes.length, ""⟩

theorem exists_of_mem_descriptors
    (h : stageRepository lib.crates occasion.host configured validAtUnix = .ok staged)
    {d : PlanningBytes}
    (hd : d ∈ (staged.repository lib.crates occasion.host configured).descriptors) :
    ∃ bytes ∈ staged.contents, d = descriptorOf lib bytes := by
  have hprovides := (fileProvides_of_stageRepository h).1
  simp only [PlanningRepository.descriptors, Staged.repository, List.mem_append, List.mem_cons,
    List.not_mem_nil, or_false, Option.mem_toList, Option.map_eq_some_iff, Option.some.injEq] at hd
  simp only [Staged.contents, AuxiliaryPayloads.toList, List.mem_append, List.mem_cons,
    List.not_mem_nil, or_false, List.mem_map, Option.mem_toList]
  rcases hd with ((((rfl | rfl | rfl) | rfl) | ⟨payload, hpayload, rfl⟩) | ⟨payload, hpayload, rfl⟩) |
    ⟨payload, hpayload, rfl⟩
  · exact ⟨_, .inl (.inr (.inl rfl)), rfl⟩
  · exact ⟨_, .inl (.inr (.inr (.inl rfl))), rfl⟩
  · exact ⟨_, .inl (.inr (.inr (.inr rfl))), rfl⟩
  · exact ⟨_, .inl (.inl rfl), hprovides⟩
  · exact ⟨_, .inr ⟨payload, .inl (.inl hpayload), rfl⟩, rfl⟩
  · exact ⟨_, .inr ⟨payload, .inl (.inr hpayload), rfl⟩, rfl⟩
  · exact ⟨_, .inr ⟨payload, .inr hpayload, rfl⟩, rfl⟩

theorem describes_descriptorOf {bytes : List UInt8} (hblobs : GenuineBlobs lib content s)
    (hcontent : content (lib.crates.sha256 bytes).asStr = bytes)
    (hpresent : Present s (lib.crates.sha256 bytes).asStr) :
    (descriptorOf lib bytes).Describes lib bytes := by
  obtain ⟨blobs, file, hsome, hfile⟩ := hpresent
  have hgenuine := hblobs blobs _ file hsome (lib.crates.sha256 bytes).canonical hfile
  have hfits : bytes.length < 2 ^ 63 := by
    rw [← hcontent, hgenuine.content]
    exact hgenuine.fits
  refine ⟨?_, rfl⟩
  rw [descriptorOf, UInt64.toNat_ofNat_of_lt' (hfits.trans (by decide))]

theorem referencedShardsForGc_of_stageRepository
    (h : stageRepository lib.crates occasion.host configured validAtUnix = .ok staged) :
    referencedShardsForGc lib.indexJson staged.index
      (staged.repository lib.crates occasion.host configured) = .ok [] := by
  obtain ⟨-, m, hvalid⟩ := fileProvides_of_stageRepository h
  have hvalid' : retainedLazyBinary (staged.repository lib.crates occasion.host configured)
      staged.index = .ok [] := Except.bind_eq_ok.mpr ⟨m, hvalid, rfl⟩
  rw [referencedShardsForGc, if_pos (isLazyBinary_of_validate hvalid), hvalid']

/-- A repository whose contents are all in the store is backed. -/
theorem backedRepository_of_present
    (h : stageRepository lib.crates occasion.host configured validAtUnix = .ok staged)
    (hcontent : ∀ bytes ∈ staged.contents, content (lib.crates.sha256 bytes).asStr = bytes)
    (hblobs : GenuineBlobs lib content s)
    (hpresent : ∀ bytes ∈ staged.contents, Present s (lib.crates.sha256 bytes).asStr) :
    BackedRepository lib content s (staged.repository lib.crates occasion.host configured) := by
  have hprovides : (staged.repository lib.crates occasion.host configured).fileProvides =
      some (descriptorOf lib staged.index) := congrArg some (fileProvides_of_stageRepository h).1
  have hindex : staged.index ∈ staged.contents := List.mem_cons_self
  have hshards : referencedShardsForGc lib.indexJson (content (descriptorOf lib staged.index).sha256)
      (staged.repository lib.crates occasion.host configured) = .ok [] := by
    rw [descriptorOf, hcontent _ hindex]
    exact referencedShardsForGc_of_stageRepository h
  have hnone : shards lib content (staged.repository lib.crates occasion.host configured) = [] := by
    rw [shards, hprovides]
    simp only [hshards]
    rfl
  have hdescribed : ∀ d ∈ (staged.repository lib.crates occasion.host configured).descriptors,
      Present s d.sha256 ∧ d.Describes lib (content d.sha256) := by
    intro d hd
    obtain ⟨bytes, hbytes, rfl⟩ := exists_of_mem_descriptors h hd
    have hc := hcontent bytes hbytes
    refine ⟨hpresent bytes hbytes, ?_⟩
    show (descriptorOf lib bytes).Describes lib (content (lib.crates.sha256 bytes).asStr)
    rw [hc]
    exact describes_descriptorOf hblobs hc (hpresent bytes hbytes)
  refine ⟨fun n hn => ?_, fun d hd _ => hdescribed d hd, fun d hd => ?_, fun n hn => ?_⟩
  · rw [references, hnone, List.append_nil] at hn
    obtain ⟨d, hd, rfl⟩ := List.mem_map.mp hn
    obtain ⟨bytes, -, rfl⟩ := exists_of_mem_descriptors h hd
    exact (lib.crates.sha256 bytes).canonical
  · have hmem : d ∈ (staged.repository lib.crates occasion.host configured).descriptors := by
      simp [PlanningRepository.descriptors, hd]
    cases hprovides.symm.trans hd
    exact ⟨(hdescribed _ hmem).1, (hdescribed _ hmem).2, [], hshards⟩
  · rw [hnone] at hn
    exact absurd hn List.not_mem_nil

/-- What is asked of a repository for it to be built: its computations succeed, and its index is not too
large for a file. -/
def Buildable (lib : Library) (host : Host) (validAtUnix : UInt64) (configured : RepoConfig) : Prop :=
  ∃ staged, stageRepository lib.crates host configured validAtUnix = .ok staged ∧
    staged.generation.repository = configured.id ∧ staged.index.length < 2 ^ 63

/-- The contents that a repository offers have no digest in common with others. -/
def Uncollided (lib : Library) (content : String → List UInt8) (host : Host) (validAtUnix : UInt64)
    (configured : RepoConfig) : Prop :=
  ∀ staged, stageRepository lib.crates host configured validAtUnix = .ok staged →
    ∀ bytes ∈ staged.contents, content (lib.crates.sha256 bytes).asStr = bytes

theorem finishRepository_eq_ok {r : PlanningRepository} :
    finishRepository lib.crates occasion.host configured staged = .ok r ↔
      staged.generation.repository = configured.id ∧
        staged.repository lib.crates occasion.host configured = r := by
  simp only [finishRepository, Except.check_bind_eq_ok, Except.refuseIf_eq_ok, Except.pure_eq_ok,
    not_not]

theorem ensures_storeRepository (hblobs : GenuineBlobs lib content s)
    (huncollided : Uncollided lib content occasion.host validAtUnix configured)
    (hgood : good → FreshBlobs occasion s ∧ Buildable lib occasion.host validAtUnix configured) :
    (storeRepository lib occasion validAtUnix configured).Ensures A s (Grows lib content s) good
      fun r s' => repositoryPayload lib.crates occasion.host validAtUnix configured = .ok r ∧
        BackedRepository lib content s' r ∧ s'.blobs.isSome = true ∧
        (FreshBlobs occasion s → FreshBlobs occasion s') := by
  have h : Published lib content occasion s [] s := .refl hblobs
  refine Exec.Ensures.bind (P := fun staged s' => s' = s ∧
      stageRepository lib.crates occasion.host configured validAtUnix = .ok staged)
    (Exec.Ensures.lift h.grows (fun staged hstaged => ⟨rfl, hstaged⟩) ?_) ?_
  · intro e he _ hg
    obtain ⟨-, staged, hstaged, -⟩ := hgood hg
    rw [hstaged] at he
    cases he
  rintro staged s₁ - ⟨rfl, hstaged⟩
  have hcontent := huncollided staged hstaged
  have hbuild : good → staged.index.length < 2 ^ 63 ∧
      staged.generation.repository = configured.id := by
    intro hg
    obtain ⟨-, staged', hstaged', hid, hfits⟩ := hgood hg
    cases hstaged.symm.trans hstaged'
    exact ⟨hfits, hid⟩
  simp only [Staged.contents, List.mem_append, List.mem_cons, List.not_mem_nil, or_false,
    List.mem_map] at hcontent
  rw [(fileProvides_of_stageRepository hstaged).1]
  refine Exec.Ensures.bind (ensures_publishBlobDeferred h (hcontent _ (.inl (.inl rfl)))
    fun hg => ⟨(hgood hg).1, (hbuild hg).1⟩) fun _ s₂ _ h₂ => ?_
  refine Exec.Ensures.bind (P := fun r s' => s' = s₂ ∧
      finishRepository lib.crates occasion.host configured staged = .ok r)
    (Exec.Ensures.lift h₂.grows (fun r hr => ⟨rfl, hr⟩) ?_) ?_
  · intro e he _ hg
    rw [finishRepository_eq_ok.mpr ⟨(hbuild hg).2, rfl⟩] at he
    cases he
  rintro r s₃ - ⟨rfl, hfinish⟩
  have hfresh := fun hg : good => (hgood hg).1
  refine Exec.Ensures.bind (ensures_publishBlobDeferred h₂ (hcontent _ (.inl (.inr (.inl rfl))))
    fun hg => ⟨hfresh hg, staged.generation.repomd.fits⟩) fun _ s₄ _ h₄ => ?_
  refine Exec.Ensures.bind (ensures_publishVerifiedFileDeferred h₄
    (hcontent _ (.inl (.inr (.inr (.inl rfl))))) hfresh) fun _ s₅ _ h₅ => ?_
  refine Exec.Ensures.bind (ensures_publishVerifiedFileDeferred h₅
    (hcontent _ (.inl (.inr (.inr (.inr rfl))))) hfresh) fun _ s₆ _ h₆ => ?_
  refine Exec.Ensures.bind (ensures_publishVerifiedBlobsDeferred h₆
    (fun payload hp => hcontent _ (.inr ⟨payload, hp, rfl⟩)) hfresh) fun _ s₇ _ h₇ => ?_
  have hpresent : ∀ bytes ∈ staged.contents, Present s₇ (lib.crates.sha256 bytes).asStr := by
    intro bytes hbytes
    refine h₇.present bytes ?_
    simp only [Staged.contents, List.mem_append, List.mem_cons, List.not_mem_nil, or_false] at hbytes ⊢
    tauto
  refine Exec.Ensures.pure h₇.grows ⟨?_, ?_, ?_, h₇.fresh⟩
  · exact Except.bind_eq_ok.mpr ⟨staged, hstaged, hfinish⟩
  · rw [← (finishRepository_eq_ok.mp hfinish).2]
    exact backedRepository_of_present hstaged (huncollided staged hstaged) h₇.grows.blobs hpresent
  · obtain ⟨blobs, _, hsome, -⟩ := hpresent staged.index List.mem_cons_self
    rw [hsome, Option.isSome_some]

end

/-! ## All repositories -/

section
variable {r : Refresh} {good : Prop}

theorem grows_flush {blobs : Folder File} (hs : s.blobs = some blobs)
    (hblobs : GenuineBlobs lib content s) :
    Grows lib content s { s with blobs := some blobs.flush } := by
  refine ⟨rfl, rfl, ?_, ?_⟩
  · rintro name - ⟨b, file, hb, hfile⟩
    cases hs.symm.trans hb
    exact ⟨blobs.flush, file, rfl, hfile⟩
  · intro b name file hb hname hfile
    cases hb
    exact hblobs blobs name file hs hname hfile

/-- Where the loop over the repositories has come to. -/
structure RebuiltAt (lib : Library) (content : String → List UInt8) (occasion : Occasion)
    (validAtUnix : UInt64) (enabled : List RepoConfig) (s : Store) (built : List PlanningRepository)
    (rest : List RepoConfig) (s' : Store) : Prop where
  grows : Grows lib content s s'
  fresh : FreshBlobs occasion s → FreshBlobs occasion s'
  payload : ∃ front, enabled = front ++ rest ∧ List.Forall₂ (fun configured r =>
    repositoryPayload lib.crates occasion.host validAtUnix configured = .ok r) front built
  backed : ∀ r ∈ built, BackedRepository lib content s' r
  made : built ≠ [] → s'.blobs.isSome = true

theorem ensures_storeRepositories {enabled : List RepoConfig} {validAtUnix : UInt64}
    (hblobs : GenuineBlobs lib content s)
    (huncollided : ∀ configured ∈ enabled,
      Uncollided lib content occasion.host validAtUnix configured)
    (hgood : good → FreshBlobs occasion s ∧
      ∀ configured ∈ enabled, Buildable lib occasion.host validAtUnix configured) :
    (Exec.mapEach (storeRepository lib occasion validAtUnix) enabled).Ensures A s
      (Grows lib content s) good fun built s' =>
        RebuiltAt lib content occasion validAtUnix enabled s built [] s' := by
  have hstart : RebuiltAt lib content occasion validAtUnix enabled s [] enabled s :=
    ⟨.refl hblobs, fun h => h, ⟨[], rfl, .nil⟩, fun _ h => absurd h List.not_mem_nil,
      fun h => absurd rfl h⟩
  refine (Exec.Ensures.mapEach (P := fun built rest s' =>
    RebuiltAt lib content occasion validAtUnix enabled s built rest s') (.refl hblobs) hstart ?_).imp
      fun built s' _ h => h
  rintro built configured rest s₁ - hat
  obtain ⟨front, hfront, hbuilt⟩ := hat.payload
  have hmem : configured ∈ enabled := by
    rw [hfront]
    exact List.mem_append_right _ List.mem_cons_self
  have hstore := (ensures_storeRepository (A := A) hat.grows.blobs (huncollided configured hmem)
    fun hg : good => ⟨hat.fresh (hgood hg).1, (hgood hg).2 configured hmem⟩).keep
      fun _ h => hat.grows.trans h
  refine hstore.imp ?_
  rintro r s₂ - ⟨hgrows, hpayload, hr, hsome, hfresh⟩
  refine ⟨hat.grows.trans hgrows, fun h => hfresh (hat.fresh h), ⟨front ++ [configured], ?_, ?_⟩,
    fun r' hr' => ?_, fun _ => hsome⟩
  · rw [hfront, List.append_assoc]
    rfl
  · exact List.rel_append hbuilt (.cons hpayload .nil)
  · rcases List.mem_append.mp hr' with hr' | hr'
    · exact hgrows.backedRepository (hat.backed r' hr')
    · rwa [List.mem_singleton.mp hr']

theorem enabledRepositories_ne_nil {policy : PlanningPolicy}
    (h : planningPolicy r.profile r.hostArchitecture = .ok policy) :
    enabledRepositories r.profile ≠ [] := by
  simp only [planningPolicy, LazyIndex.refuse, Except.bind_eq_ok, Except.refuseIf_eq_ok, not_or] at h
  obtain ⟨_, h, -⟩ := h
  exact h.1

theorem ensures_syncBlobs {blobs : Folder File} (hgrows : Grows lib content s s')
    (hblobs : s'.blobs = some blobs) :
    syncBlobs.Ensures A s' (Grows lib content s) good fun _ s'' =>
      s'' = { s' with blobs := some blobs.flush } := by
  unfold syncBlobs inBlobs
  refine Exec.Ensures.zoom (K := fun f => f = blobs ∨ f = blobs.flush)
    (P := fun _ f => f = blobs.flush) ?_ ?_ ?_ ?_
  · intro h
    rw [hblobs] at h
    cases h
  · intro f hf
    cases hblobs.symm.trans hf
    exact Exec.Ensures.change (.inl rfl) (.inr rfl) rfl
  · rintro f f' hf (rfl | rfl)
    · have hsame : { s' with blobs := some f' } = s' := by rw [← hblobs]
      rwa [hsame]
    · exact hgrows.trans (grows_flush hblobs hgrows.blobs)
  · rintro f _ f' hf - rfl
    rfl

theorem ensures_storeSnapshotFrom {moduleState : ModuleState} (hblobs : GenuineBlobs lib content s)
    (huncollided : ∀ configured ∈ enabledRepositories r.profile,
      Uncollided lib content occasion.host r.publishedAtUnix configured)
    (hgood : good → FreshBlobs occasion s ∧
      (∀ configured ∈ enabledRepositories r.profile,
        Buildable lib occasion.host r.publishedAtUnix configured) ∧
      ∃ snapshot, snapshotFrom lib.crates occasion.host r.profile ⟨r.inventory, moduleState⟩
        r.publishedAtUnix r.hostArchitecture r.refreshedRepositoryIds = .ok snapshot) :
    (storeSnapshotFrom lib occasion r moduleState).Ensures A s (Grows lib content s) good
      fun snapshot s' => snapshotFrom lib.crates occasion.host r.profile ⟨r.inventory, moduleState⟩
          r.publishedAtUnix r.hostArchitecture r.refreshedRepositoryIds = .ok snapshot ∧
        Backed lib content s' snapshot ∧ (FreshBlobs occasion s → FreshBlobs occasion s') := by
  have hrefl : Grows lib content s s := .refl hblobs
  refine Exec.Ensures.bind (P := fun configuration s' => s' = s ∧
      normalizedConfiguration r.profile = .ok configuration)
    (Exec.Ensures.lift hrefl (fun _ h => ⟨rfl, h⟩) ?_) ?_
  · intro e he _ hg
    obtain ⟨-, -, snapshot, hsnapshot⟩ := hgood hg
    obtain ⟨_, _, _, hconfiguration, -⟩ := snapshotFrom_eq_ok.mp hsnapshot
    rw [hconfiguration] at he
    cases he
  rintro configuration s₁ - ⟨rfl, hconfiguration⟩
  refine Exec.Ensures.bind (P := fun policy s' => s' = s₁ ∧
      planningPolicy r.profile r.hostArchitecture = .ok policy)
    (Exec.Ensures.lift hrefl (fun _ h => ⟨rfl, h⟩) ?_) ?_
  · intro e he _ hg
    obtain ⟨-, -, snapshot, hsnapshot⟩ := hgood hg
    obtain ⟨_, _, _, -, hpolicy, -⟩ := snapshotFrom_eq_ok.mp hsnapshot
    rw [hpolicy] at he
    cases he
  rintro policy s₂ - ⟨rfl, hpolicy⟩
  refine Exec.Ensures.bind (ensures_storeRepositories hblobs huncollided
    fun hg => ⟨(hgood hg).1, (hgood hg).2.1⟩) fun repositories s₃ hgrows hat => ?_
  obtain ⟨front, hfront, hbuilt⟩ := hat.payload
  rw [List.append_nil] at hfront
  subst hfront
  have hrepositories := Except.mapM_eq_ok.mpr hbuilt
  have hsome : s₃.blobs.isSome = true := by
    refine hat.made fun hnil => enabledRepositories_ne_nil hpolicy ?_
    rw [hnil] at hbuilt
    exact List.forall₂_nil_right_iff.mp hbuilt
  obtain ⟨blobs, hblobs₃⟩ := Option.isSome_iff_exists.mp hsome
  have hflush := grows_flush hblobs₃ hgrows.blobs
  refine Exec.Ensures.bind (ensures_syncBlobs hgrows hblobs₃) ?_
  rintro _ s₄ hgrows₄ rfl
  refine Exec.Ensures.lift hgrows₄ ?_ ?_
  · intro snapshot hnew
    refine ⟨snapshotFrom_eq_ok.mpr ⟨configuration, policy, repositories, hconfiguration, hpolicy,
      hrepositories, hnew⟩, ?_, fun hfresh b base hb => ?_⟩
    · obtain ⟨rfl, -⟩ := newSnapshot_eq_ok.mp hnew
      exact fun r' hr' => hflush.backedRepository (hat.backed r' hr')
    · cases hb
      exact hat.fresh hfresh blobs base hblobs₃
  · intro e he _ hg
    obtain ⟨-, -, snapshot, hsnapshot⟩ := hgood hg
    obtain ⟨_, _, _, hconfiguration', hpolicy', hrepositories', hnew⟩ :=
      snapshotFrom_eq_ok.mp hsnapshot
    cases hconfiguration.symm.trans hconfiguration'
    cases hpolicy.symm.trans hpolicy'
    cases hrepositories.symm.trans hrepositories'
    rw [hnew] at he
    cases he

end

end Dnfast.Planning
