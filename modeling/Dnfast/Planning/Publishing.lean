import Dnfast.Planning.Rebuild

/-! # Storing a snapshot

`publish_snapshot` moves the pointer in one step: before it, the snapshot is staged beside the others
(`Before`); after it, the pointer names the new snapshot (`After`). Then `garbage_collect` removes old
snapshots, and `garbage_collect_blobs` the blobs that none of those left refers to. -/

namespace Dnfast.Planning

open Durable
open Core (isLowerDigest)

variable {A : Fate (Fault PlanningError) → Prop} {lib : Library} {content : String → List UInt8}
  {occasion : Occasion} {s s' s'' : Store} {digest : String} {bytes : List UInt8}

/-! ## The pointer moves -/

/-- At most the snapshot `digest` was added. -/
structure Added (digest : String) (bytes : List UInt8) (s s' : Store) : Prop where
  snapshots : ∀ name, isLowerDigest name = true →
    s'.snapshots.now[name]? = s.snapshots.now[name]? ∨ name = digest ∧
      s.snapshots.now[name]? = none ∧ bytes.length < 2 ^ 63 ∧
      ∃ d, s'.snapshots.now[name]? = some d ∧ d.file = some ⟨bytes, true⟩
  blobs : s'.blobs = s.blobs

/-- The pointer has not moved yet. -/
structure Before (digest : String) (bytes : List UInt8) (s s' : Store) : Prop extends
    Added digest bytes s s' where
  pointer : s'.files.now[currentPointerName]? = s.files.now[currentPointerName]?

/-- The pointer names the snapshot. -/
structure After (digest : String) (bytes : List UInt8) (s s' : Store) : Prop extends
    Added digest bytes s s' where
  stored : ∃ d file, s'.snapshots.now[digest]? = some d ∧ d.file = some file ∧ file.bytes = bytes
  pointer : Points s' digest

/-- No temporary file or directory of the occasion is left from another publication. -/
structure Fresh (occasion : Occasion) (s : Store) : Prop where
  files : ∀ base, temporaryName occasion base ∉ s.files.now
  snapshots : ∀ base, temporaryName occasion base ∉ s.snapshots.now
  blobs : FreshBlobs occasion s

theorem Before.refl (digest : String) (bytes : List UInt8) (s : Store) : Before digest bytes s s :=
  ⟨⟨fun _ _ => .inl rfl, rfl⟩, rfl⟩

/-- What is asked for a snapshot to be stored. -/
structure Storable (occasion : Occasion) (digest : String) (bytes : List UInt8) (s : Store) : Prop where
  fresh : Fresh occasion s
  fits : bytes.length < 2 ^ 63
  same : ∀ d, s.snapshots.now[digest]? = some d → readSnapshotFile digest s.snapshots = .ok bytes

theorem ensures_inSnapshots_placeSnapshot (hdigest : isLowerDigest digest = true) :
    (inSnapshots (placeSnapshot (temporaryName occasion ("staging-" ++ digest)) digest
      occasion.stagedAt bytes)).Ensures A s (Before digest bytes s) (Storable occasion digest bytes s)
      fun _ s' => s'.files = s.files ∧
        ∃ d file, s'.snapshots.now[digest]? = some d ∧ d.file = some file ∧ file.bytes = bytes := by
  refine Exec.Ensures.zoom (K := Staging (temporaryName occasion ("staging-" ++ digest)) digest
    occasion.stagedAt bytes s.snapshots) (P := fun _ f' => ∃ d file, f'.now[digest]? = some d ∧
      d.file = some file ∧ file.bytes = bytes) nofun ?_ ?_ ?_
  · rintro f hf
    cases hf
    refine (ensures_placeSnapshot hdigest (temporaryName_ne hdigest)).mono (fun _ h => h) ?_
      fun _ _ _ h => h.1
    exact fun hg => ⟨hg.fresh.snapshots _, hg.fits, hg.same⟩
  · rintro f f' hf hstaging
    cases hf
    refine ⟨⟨fun name hname => ?_, rfl⟩, rfl⟩
    refine (hstaging.others name (temporaryName_ne hname).symm).imp_right ?_
    rintro ⟨rfl, hnone, hfits, hsome⟩
    exact ⟨rfl, hnone, hfits, _, hsome, rfl⟩
  · rintro f _ f' hf - h
    exact ⟨rfl, h⟩

theorem sat_publishSnapshot (hdigest : isLowerDigest digest = true) :
    (publishSnapshot occasion digest bytes).Sat A s fun o s' => match o with
      | .ok _ => After digest bytes s s'
      | .err _ => (Before digest bytes s s' ∨ After digest bytes s s') ∧
          (Exec.NoFail A → Before digest bytes s s' ∧ ¬ Storable occasion digest bytes s)
      | .crashed => (Before digest bytes s s' ∨ After digest bytes s s') ∧ A .die := by
  refine Exec.Sat.bind (ensures_inSnapshots_placeSnapshot hdigest) ?_ ?_ ?_
  · rintro _ s₁ ⟨hbefore, hfiles, hstored⟩
    have hwrite : (inPlanning (writeFile (temporaryName occasion "current")
        (digest ++ "\n").asBytes)).Ensures A s₁ (Before digest bytes s) (Storable occasion digest bytes s)
        fun _ s₂ => s₂.snapshots = s₁.snapshots ∧ s₂.files.now[temporaryName occasion "current"]? =
          some ⟨pointerBytes digest, true⟩ := by
      refine Exec.Ensures.zoom (K := Apart (temporaryName occasion "current") s₁.files)
        (P := fun _ f' => f'.now[temporaryName occasion "current"]? = some ⟨pointerBytes digest, true⟩)
        nofun ?_ ?_ ?_
      · rintro f hf
        cases hf
        refine (ensures_writeFile _ _ _).mono (fun _ h => h) ?_ fun _ _ _ h => h
        intro hg
        refine ⟨hfiles ▸ hg.fresh.files _, ?_⟩
        have hlength := length_of_pointerDigest (pointerDigest_pointerBytes hdigest)
        rw [pointerBytes] at hlength
        rw [hlength]
        decide
      · rintro f f' hf hapart
        cases hf
        refine ⟨⟨hbefore.snapshots, hbefore.blobs⟩, ?_⟩
        exact (hapart.others _ (temporaryName_ne_current occasion "current").symm).trans hbefore.pointer
      · rintro f _ f' hf - h
        cases hf
        exact ⟨rfl, h⟩
    refine Exec.Sat.bind hwrite ?_ ?_ ?_
    · rintro _ s₂ ⟨hbefore₂, hsnapshots, htemporary⟩
      have hafter : ∀ f, f.now[currentPointerName]? = some ⟨pointerBytes digest, true⟩ → ∀ kept,
          After digest bytes s { s₂ with files := f, snapshotsKept := kept } := by
        intro f hf kept
        refine ⟨⟨hbefore₂.snapshots, hbefore₂.blobs⟩, ?_, _, hf, pointerDigest_pointerBytes hdigest⟩
        show ∃ d file, s₂.snapshots.now[digest]? = some d ∧ _
        rwa [hsnapshots]
      refine Exec.sat_bind (Exec.sat_zoom nofun fun f hf => ?_)
      cases hf
      refine Exec.sat_step ?_ ?_ ?_ ?_
      · exact fun hdie => ⟨.inl hbefore₂, hdie⟩
      · exact fun e hA => ⟨.inl hbefore₂, fun hno => absurd hA (hno e)⟩
      · intro _ f' h
        simp only [htemporary] at h
        cases h
        have hmoved := hafter (s₂.files.move (temporaryName occasion "current") currentPointerName
          ⟨pointerBytes digest, true⟩) (by rw [Folder.getElem?_move, if_pos rfl])
        simp only [Exec.Then]
        refine Exec.sat_change ?_ ?_ ?_
        · exact fun hdie => ⟨.inr (hmoved s₂.snapshotsKept), hdie⟩
        · exact fun e hA => ⟨.inr (hmoved s₂.snapshotsKept), fun hno => absurd hA (hno e)⟩
        · exact hafter _ (by rw [Folder.now_flush, Folder.getElem?_move, if_pos rfl]) true
      · intro e h
        simp only [htemporary] at h
        cases h
    · rintro e s₂ ⟨hi, hbad⟩
      exact ⟨.inl hi, fun hno => ⟨hi, hbad hno⟩⟩
    · rintro s₂ ⟨hi, hdie⟩
      exact ⟨.inl hi, hdie⟩
  · rintro e s₁ ⟨hi, hbad⟩
    exact ⟨.inl hi, fun hno => ⟨hi, hbad hno⟩⟩
  · rintro s₁ ⟨hi, hdie⟩
    exact ⟨.inl hi, hdie⟩

/-! ## A sound store stays sound -/

section
variable {snapshot : PlanningSnapshot}

theorem Added.holds (h : Added digest bytes s s') {name : String} (hname : Holds lib content s name)
    (hdigest : isLowerDigest name = true) : Holds lib content s' name := by
  rcases h.snapshots name hdigest with hsame | ⟨-, hnone, -⟩
  · exact hname.mono hsame fun n _ ⟨b, file, hb, hfile⟩ => ⟨b, file, h.blobs.trans hb, hfile⟩
  · obtain ⟨d, _, _, hd, -⟩ := hname
    rw [hnone] at hd
    cases hd

theorem Added.backed (h : Added digest bytes s s') (hbacked : Backed lib content s snapshot) :
    Backed lib content s' snapshot :=
  hbacked.mono fun _ _ _ _ ⟨b, file, hb, hfile⟩ => ⟨b, file, h.blobs.trans hb, hfile⟩

/-- The blobs and the snapshots, without the pointer. -/
theorem Added.sound (h : Added digest bytes s s') (hs : Sound lib content s)
    (hdecodes : Decodes lib bytes snapshot) (hcontent : content digest = bytes)
    (hsha : (lib.crates.sha256 bytes).asStr = digest) (hbacked : Backed lib content s snapshot) :
    GenuineBlobs lib content s' ∧ ∀ name d, isLowerDigest name = true →
      s'.snapshots.now[name]? = some d → d.file = none ∨ Holds lib content s' name := by
  refine ⟨fun b name file hb => hs.blobs b name file (h.blobs.symm.trans hb), ?_⟩
  intro name d hname hd
  rcases h.snapshots name hname with hsame | ⟨rfl, -, hfits, d', hd', hfile⟩
  · rcases hs.snapshots name d hname (hsame.symm.trans hd) with hnone | hholds
    · exact .inl hnone
    · exact .inr (h.holds hholds hname)
  · exact .inr ⟨d', _, snapshot, hd', hfile, hdecodes, ⟨hcontent, hsha, hfits⟩, h.backed hbacked⟩

theorem Before.sound (h : Before digest bytes s s') (hs : Sound lib content s)
    (hdecodes : Decodes lib bytes snapshot) (hcontent : content digest = bytes)
    (hsha : (lib.crates.sha256 bytes).asStr = digest) (hbacked : Backed lib content s snapshot) :
    Sound lib content s' := by
  obtain ⟨hblobs, hsnapshots⟩ := h.toAdded.sound hs hdecodes hcontent hsha hbacked
  refine ⟨hblobs, hsnapshots, fun file hfile => ?_⟩
  obtain ⟨name, hpoints, hholds⟩ := hs.current file (h.pointer.symm.trans hfile)
  obtain ⟨pointer, hpointer, hdigest⟩ := id hpoints
  exact ⟨name, ⟨pointer, h.pointer.trans hpointer, hdigest⟩,
    h.toAdded.holds hholds hpoints.isLowerDigest⟩

theorem After.sound (h : After digest bytes s s') (hs : Sound lib content s)
    (hdecodes : Decodes lib bytes snapshot) (hcontent : content digest = bytes)
    (hsha : (lib.crates.sha256 bytes).asStr = digest) (hbacked : Backed lib content s snapshot) :
    Sound lib content s' := by
  obtain ⟨hblobs, hsnapshots⟩ := h.toAdded.sound hs hdecodes hcontent hsha hbacked
  refine ⟨hblobs, hsnapshots, fun file hfile => ⟨digest, h.pointer, ?_⟩⟩
  obtain ⟨d, file, hd, hfile, -⟩ := h.stored
  refine (hsnapshots digest d h.pointer.isLowerDigest hd).resolve_left ?_
  rw [hfile]
  exact Option.some_ne_none file

end

/-! ## Old snapshots are collected -/

/-- Every digest that names a directory names one with a file. -/
def Whole (s : Store) : Prop :=
  ∀ name d, isLowerDigest name = true → s.snapshots.now[name]? = some d → d.file.isSome = true

/-- No snapshot is larger than what is read of one. -/
def Fits (s : Store) : Prop :=
  ∀ name d file, isLowerDigest name = true → s.snapshots.now[name]? = some d → d.file = some file →
    file.bytes.length ≤ maxSnapshotBytes

/-- Snapshots besides the current one were collected. -/
structure Collects (current : String) (s s' : Store) : Prop where
  files : s'.files = s.files
  blobs : s'.blobs = s.blobs
  snapshots : Collecting current s.snapshots s'.snapshots
  kept : s'.snapshotsKept = s.snapshotsKept ∧ s'.blobsKept = s.blobsKept

theorem Collects.holds {current name : String} (h : Collects current s s')
    (hname : Holds lib content s name)
    (hsame : s'.snapshots.now[name]? = s.snapshots.now[name]?) : Holds lib content s' name :=
  hname.mono hsame fun _ _ ⟨b, file, hb, hfile⟩ => ⟨b, file, h.blobs.trans hb, hfile⟩

theorem Collects.sound {current : String} (h : Collects current s s') (hs : Sound lib content s)
    (hpoints : Points s current) : Sound lib content s' := by
  refine ⟨fun b name file hb => hs.blobs b name file (h.blobs.symm.trans hb), ?_, ?_⟩
  · intro name d hname hd
    rcases h.snapshots.others name with hsame | ⟨-, -, hnone⟩
    · exact (hs.snapshots name d hname (hsame.symm.trans hd)).imp_right (h.holds · hsame)
    · exact .inl (hnone d hd)
  · intro file hfile
    rw [h.files] at hfile
    obtain ⟨name, hpoints', hholds⟩ := hs.current file hfile
    cases hpoints.unique hpoints'
    refine ⟨current, ?_, h.holds hholds ?_⟩
    · rwa [Points, h.files]
    · exact (h.snapshots.others current).resolve_right fun hne => hne.1 rfl

theorem ensures_garbageCollect {current : String} :
    (garbageCollect occasion current).Ensures A s (Collects current s)
      (Readable current s.snapshots) fun _ s' => Collected s.snapshots s'.snapshots := by
  unfold garbageCollect inSnapshots
  refine Exec.Ensures.zoom (K := Collecting current s.snapshots)
    (P := fun _ f' => Collected s.snapshots f') nofun ?_ ?_ ?_
  · rintro f hf
    cases hf
    exact ensures_collectSnapshots s.snapshots
  · rintro f f' hf hcollecting
    exact ⟨rfl, rfl, hcollecting, rfl, rfl⟩
  · rintro f _ f' hf - h
    exact h

theorem readable_of_fits {current : String} (hwhole : Whole s) (hfits : ∀ name d file, name ≠ current →
    isLowerDigest name = true → s.snapshots.now[name]? = some d → d.file = some file →
      file.bytes.length ≤ maxSnapshotBytes) : Readable current s.snapshots := by
  intro name hne hname d hd
  obtain ⟨file, hfile⟩ := Option.isSome_iff_exists.mp (hwhole name d hname hd)
  exact ⟨file.bytes, readSnapshotFile_eq_ok.mpr
    ⟨d, file, hd, hfile, hfits name d file hne hname hd hfile, rfl⟩⟩

/-! ## Blobs are collected -/

section
variable {r : PlanningRepository} {blobs : Folder File} {names : List String}

theorem retainedShardsOf_eq_ok (hs : GenuineBlobs lib content s) (hblobs : s.blobs = some blobs)
    (hdigests : ∀ d ∈ r.descriptors, isLowerDigest d.sha256 = true)
    (h : retainedShardsOf lib blobs r = .ok names) : names = shards lib content r := by
  unfold retainedShardsOf at h
  unfold shards
  cases hprovides : r.fileProvides with
  | none =>
    rw [hprovides] at h
    cases h
    rfl
  | some d =>
    rw [hprovides] at h
    simp only [Except.bind_eq_ok, liftRun_eq_ok, Except.refuseIf_eq_ok, not_not, read] at h
    obtain ⟨maximum, -, manifest, hread, _, -, hshards⟩ := h
    have hmem : d ∈ r.descriptors := by simp [PlanningRepository.descriptors, hprovides]
    split at hread
    · cases hread
    next file hfile =>
      have hgenuine := hs blobs d.sha256 file hblobs (hdigests d hmem) hfile
      obtain ⟨-, rfl⟩ := bounded_eq_ok.mp hread
      simp only [hgenuine.content, hshards]
      rfl

theorem retainedBy_eq_ok (hs : GenuineBlobs lib content s) (hblobs : s.blobs = some blobs)
    (h : retainedBy lib blobs r = .ok names) : names = references lib content r := by
  simp only [retainedBy, Except.bind_eq_ok, Except.refuseIf_eq_ok, Except.pure_eq_ok] at h
  obtain ⟨_, hdigests, names', hshards, rfl⟩ := h
  rw [references, retainedShardsOf_eq_ok hs hblobs ?_ hshards]
  intro d hd
  by_contra hno
  exact hdigests ⟨d, hd, by simpa using hno⟩

/-- A snapshot of the store refers to the blob. -/
def Referenced (lib : Library) (content : String → List UInt8) (s : Store) (name : String) : Prop :=
  ∃ directory d file snapshot, isLowerDigest directory = true ∧
    s.snapshots.now[directory]? = some d ∧ d.file = some file ∧ Decodes lib file.bytes snapshot ∧
    ∃ r ∈ snapshot.payload.allowedRepositories, name ∈ references lib content r

theorem retainedIn_eq_ok (hs : GenuineBlobs lib content s) (hblobs : s.blobs = some blobs)
    {directory : String} (hdigest : isLowerDigest directory = true)
    (h : retainedIn lib s blobs directory = .ok names) :
    ∃ d file snapshot, s.snapshots.now[directory]? = some d ∧ d.file = some file ∧
      file.bytes.length ≤ maxSnapshotBytes ∧ Decodes lib file.bytes snapshot ∧
      ∀ name, name ∈ names ↔ ∃ r ∈ snapshot.payload.allowedRepositories,
        name ∈ references lib content r := by
  unfold retainedIn at h
  rw [if_neg (by simp [hdigest])] at h
  simp only [Except.bind_eq_ok, liftRun_eq_ok, Except.refuseIf_eq_ok, Except.pure_eq_ok,
    readSnapshotFile_eq_ok, fromCanonicalBytes_eq_ok] at h
  obtain ⟨_, ⟨d, file, hd, hfile, hlength, rfl⟩, snapshot, ⟨-, hdecodes⟩, -, -, -, -, lists, hlists,
    rfl⟩ := h
  refine ⟨d, file, snapshot, hd, hfile, hlength, hdecodes, fun name => ?_⟩
  have hmap := Except.mapM_eq_map hlists fun r _ l hl => retainedBy_eq_ok hs hblobs hl
  rw [hmap, List.mem_flatten]
  simp

theorem mem_retained (hs : GenuineBlobs lib content s)
    (h : retained lib occasion s = .ok (some names)) (name : String) :
    name ∈ names ↔ Referenced lib content s name := by
  unfold retained at h
  split at h
  · cases h
  next blobs hblobs =>
    simp only [Except.bind_eq_ok, Except.pure_eq_ok, Option.some.injEq] at h
    obtain ⟨lists, hlists, rfl⟩ := h
    have hforall := Except.mapM_eq_ok.mp hlists
    rw [List.mem_flatten]
    constructor
    · rintro ⟨l, hl, hname⟩
      obtain ⟨directory, hdirectory, hretained⟩ := hforall.exists_left hl
      by_cases hdigest : isLowerDigest directory = true
      · obtain ⟨d, file, snapshot, hd, hfile, -, hdecodes, hiff⟩ :=
          retainedIn_eq_ok hs hblobs hdigest hretained
        exact ⟨directory, d, file, snapshot, hdigest, hd, hfile, hdecodes, (hiff name).mp hname⟩
      · unfold retainedIn at hretained
        rw [if_pos (by simpa using hdigest)] at hretained
        cases hretained
        exact absurd hname List.not_mem_nil
    · rintro ⟨directory, d, file, snapshot, hdigest, hd, hfile, hdecodes, hname⟩
      have hmem : directory ∈ occasion.readDir s.snapshots.now.keys := by
        rw [mem_readDir, Std.ExtTreeMap.mem_keys, Std.ExtTreeMap.mem_iff_isSome_getElem?, hd]
        rfl
      obtain ⟨l, hl, hretained⟩ := hforall.exists_right hmem
      obtain ⟨d', file', snapshot', hd', hfile', -, hdecodes', hiff⟩ :=
        retainedIn_eq_ok hs hblobs hdigest hretained
      cases hd.symm.trans hd'
      cases hfile.symm.trans hfile'
      cases hdecodes.unique hdecodes'
      exact ⟨l, hl, (hiff name).mpr hname⟩

/-- No directory of a snapshot is without its file when the blobs that stay are known. -/
theorem whole_of_retained (hs : GenuineBlobs lib content s)
    (h : retained lib occasion s = .ok (some names)) : Whole s := by
  unfold retained at h
  split at h
  · cases h
  next blobs hblobs =>
    simp only [Except.bind_eq_ok, Except.pure_eq_ok, Option.some.injEq] at h
    obtain ⟨lists, hlists, -⟩ := h
    intro name d hname hd
    have hmem : name ∈ occasion.readDir s.snapshots.now.keys := by
      rw [mem_readDir, Std.ExtTreeMap.mem_keys, Std.ExtTreeMap.mem_iff_isSome_getElem?, hd]
      rfl
    obtain ⟨l, -, hretained⟩ := (Except.mapM_eq_ok.mp hlists).exists_right hmem
    obtain ⟨d', file, _, hd', hfile, -⟩ := retainedIn_eq_ok hs hblobs hname hretained
    cases hd.symm.trans hd'
    rw [hfile, Option.isSome_some]

/-- Blobs were removed, but none that a snapshot refers to. -/
structure Sweeps (lib : Library) (content : String → List UInt8) (s s' : Store) : Prop where
  files : s'.files = s.files
  snapshots : s'.snapshots = s.snapshots
  present : ∀ name, Referenced lib content s name → Present s name → Present s' name
  blobs : GenuineBlobs lib content s'

theorem Sweeps.holds (h : Sweeps lib content s s') {name : String} (hname : Holds lib content s name)
    (hdigest : isLowerDigest name = true) : Holds lib content s' name := by
  obtain ⟨d, file, snapshot, hd, hfile, hdecodes, hgenuine, hbacked⟩ := hname
  refine ⟨d, file, snapshot, by rw [h.snapshots, hd], hfile, hdecodes, hgenuine, ?_⟩
  refine hbacked.mono fun r hr n hn => h.present n ?_
  exact ⟨name, d, file, snapshot, hdigest, hd, hfile, hdecodes, r, hr, hn⟩

theorem Sweeps.sound (h : Sweeps lib content s s') (hs : Sound lib content s) :
    Sound lib content s' := by
  refine ⟨h.blobs, fun name d hname hd => ?_, fun file hfile => ?_⟩
  · rw [h.snapshots] at hd
    exact (hs.snapshots name d hname hd).imp_right (h.holds · hname)
  · rw [h.files] at hfile
    obtain ⟨name, hpoints, hholds⟩ := hs.current file hfile
    exact ⟨name, by rwa [Points, h.files], h.holds hholds hpoints.isLowerDigest⟩

/-- Every blob is referred to. -/
def Tidy (lib : Library) (content : String → List UInt8) (s : Store) : Prop :=
  ∀ name, isLowerDigest name = true → Present s name → Referenced lib content s name

theorem exists_retainedShardsOf (hs : GenuineBlobs lib content s) (hblobs : s.blobs = some blobs)
    (hbacked : BackedRepository lib content s r) : ∃ names, retainedShardsOf lib blobs r = .ok names := by
  unfold retainedShardsOf
  cases hprovides : r.fileProvides with
  | none => exact ⟨[], rfl⟩
  | some d =>
    obtain ⟨⟨b, file, hb, hfile⟩, hdescribes, names, hnames⟩ := hbacked.index d hprovides
    cases hblobs.symm.trans hb
    have hmem : d.sha256 ∈ references lib content r := by
      simp [references, PlanningRepository.descriptors, hprovides]
    have hgenuine := hs blobs d.sha256 file hblobs (hbacked.digests _ hmem) hfile
    rw [hgenuine.content] at hdescribes hnames
    have hsize : file.bytes.length = d.size.toNat := hdescribes.1
    have hfits := hgenuine.fits
    refine ⟨names, ?_⟩
    simp only [Except.bind_eq_ok, liftRun_eq_ok, Except.refuseIf_eq_ok, not_not]
    refine ⟨d.size.toNat + 1, ?_, file.bytes, ?_, (), hdescribes, hnames⟩
    · rw [blobMaximum, if_pos (by omega)]
    · rw [read, hfile]
      exact bounded_eq_ok.mpr ⟨by omega, rfl⟩

theorem exists_retainedBy (hs : GenuineBlobs lib content s) (hblobs : s.blobs = some blobs)
    (hbacked : BackedRepository lib content s r) : ∃ names, retainedBy lib blobs r = .ok names := by
  obtain ⟨names, hnames⟩ := exists_retainedShardsOf hs hblobs hbacked
  refine ⟨r.descriptors.map (·.sha256) ++ names, ?_⟩
  simp only [retainedBy, Except.bind_eq_ok, Except.refuseIf_eq_ok, Except.pure_eq_ok]
  refine ⟨(), ?_, names, hnames, rfl⟩
  rintro ⟨d, hd, hno⟩
  have hdigest := hbacked.digests d.sha256 (List.mem_append_left _ (List.mem_map_of_mem hd))
  rw [hdigest] at hno
  cases hno

theorem exists_retainedIn (hs : Sound lib content s) (hblobs : s.blobs = some blobs)
    (hwhole : Whole s) (hfits : Fits s) {directory : String} (hmem : directory ∈ s.snapshots.now) :
    ∃ names, retainedIn lib s blobs directory = .ok names := by
  unfold retainedIn
  by_cases hdigest : isLowerDigest directory = true
  · rw [if_neg (by simp [hdigest])]
    obtain ⟨d, hd⟩ := Option.isSome_iff_exists.mp (Std.ExtTreeMap.mem_iff_isSome_getElem?.mp hmem)
    obtain ⟨file, hfile⟩ := Option.isSome_iff_exists.mp (hwhole directory d hdigest hd)
    obtain ⟨d', file', snapshot, hd', hfile', hdecodes, hgenuine, hbacked⟩ :=
      (hs.snapshots directory d hdigest hd).resolve_left (by rw [hfile]; exact Option.some_ne_none file)
    cases hd.symm.trans hd'
    cases hfile.symm.trans hfile'
    have hlength := hfits directory d file hdigest hd hfile
    obtain ⟨lists, hlists⟩ := Except.exists_mapM_eq_ok (f := retainedBy lib blobs)
      fun r hr => exists_retainedBy hs.blobs hblobs (hbacked r hr)
    refine ⟨lists.flatten, ?_⟩
    simp only [Except.bind_eq_ok, liftRun_eq_ok, Except.refuseIf_eq_ok, Except.pure_eq_ok, not_not]
    refine ⟨file.bytes, readSnapshotFile_eq_ok.mpr ⟨d, file, hd, hfile, hlength, rfl⟩, snapshot,
      fromCanonicalBytes_eq_ok.mpr ⟨hlength, hdecodes⟩, _, hdecodes.digest, (), hgenuine.digest, lists,
      hlists, rfl⟩
  · exact ⟨[], if_pos (by simpa using hdigest)⟩

theorem exists_retained (occasion : Occasion) (hs : Sound lib content s) (hwhole : Whole s) (hfits : Fits s) :
    ∃ o, retained lib occasion s = .ok o := by
  unfold retained
  split
  · exact ⟨none, rfl⟩
  next blobs hblobs =>
    obtain ⟨lists, hlists⟩ := Except.exists_mapM_eq_ok (f := retainedIn lib s blobs)
      (l := occasion.readDir s.snapshots.now.keys) fun directory hmem =>
        exists_retainedIn hs hblobs hwhole hfits (Std.ExtTreeMap.mem_keys.mp (mem_readDir.mp hmem))
    exact ⟨some lists.flatten, Except.bind_eq_ok.mpr ⟨lists, hlists, rfl⟩⟩

theorem Removing.sweeps {blobs' : Folder File} (h : Removing names blobs blobs')
    (hs : GenuineBlobs lib content s)
    (hblobs : s.blobs = some blobs) (hnames : ∀ name, name ∈ names ↔ Referenced lib content s name) :
    Sweeps lib content s { s with blobs := some blobs' } := by
  refine ⟨rfl, rfl, ?_, ?_⟩
  · rintro name hreferenced ⟨b, file, hb, hfile⟩
    cases hblobs.symm.trans hb
    refine ⟨blobs', file, rfl, ?_⟩
    rw [(h.others name).resolve_right fun hgone => hgone.2.1 ((hnames name).mpr hreferenced), hfile]
  · intro b name file hb hname hfile
    cases hb
    rcases h.others name with hsame | ⟨-, -, hnone⟩
    · exact hs blobs name file hblobs hname (hsame.symm.trans hfile)
    · rw [hnone] at hfile
      cases hfile

/-- Blobs that no snapshot refers to were removed. -/
def Swept (lib : Library) (content : String → List UInt8) (s s' : Store) : Prop :=
  s' = s ∨ ∃ names blobs blobs', s.blobs = some blobs ∧
    (∀ name, name ∈ names ↔ Referenced lib content s name) ∧ Removing names blobs blobs' ∧
    s' = { s with blobs := some blobs' }

theorem Swept.sweeps (h : Swept lib content s s') (hs : GenuineBlobs lib content s) :
    Sweeps lib content s s' := by
  rcases h with rfl | ⟨names, blobs, blobs', hblobs, hnames, hremoving, rfl⟩
  · exact ⟨rfl, rfl, fun _ _ h => h, hs⟩
  · exact hremoving.sweeps hs hblobs hnames

theorem ensures_garbageCollectBlobs {good : Prop} (hs : GenuineBlobs lib content s)
    (hgood : good → ∃ o, retained lib occasion s = .ok o) :
    (garbageCollectBlobs lib occasion).Ensures A s (Swept lib content s) good
      fun _ s' => Tidy lib content s' ∧ (s.blobs.isSome = true → Whole s) := by
  have hrefl : Swept lib content s s := .inl rfl
  refine Exec.Ensures.bind (P := fun o s' => s' = s ∧ retained lib occasion s = .ok o)
    (Exec.Ensures.observe hrefl (fun o ho => ⟨rfl, ho⟩) ?_) ?_
  · intro e he _ hg
    obtain ⟨o, ho⟩ := hgood hg
    rw [ho] at he
    cases he
  rintro (_ | names) s₁ - ⟨rfl, hretained⟩
  · have hnone : ∀ blobs, s₁.blobs ≠ some blobs := by
      intro blobs hblobs
      simp only [retained, hblobs, Except.bind_eq_ok, Except.pure_eq_ok, reduceCtorEq, and_false,
        exists_false] at hretained
    refine Exec.Ensures.pure hrefl ⟨fun name _ hpresent => ?_, fun hsome => ?_⟩
    · obtain ⟨blobs, _, hblobs, -⟩ := hpresent
      exact absurd hblobs (hnone blobs)
    · obtain ⟨blobs, hblobs⟩ := Option.isSome_iff_exists.mp hsome
      exact absurd hblobs (hnone blobs)
  · have hnames := mem_retained hs hretained
    refine Exec.Ensures.zoom (K := fun f => ∃ blobs, s₁.blobs = some blobs ∧ Removing names blobs f)
      (P := fun _ f => ∀ name, isLowerDigest name = true → name ∉ names → f.now[name]? = none)
      ?_ ?_ ?_ ?_
    · intro hnone
      simp only [retained, hnone, Except.ok.injEq, reduceCtorEq] at hretained
    · intro f hf
      exact (ensures_removeBlobs f).mono (fun _ h => ⟨f, hf, h⟩) (fun _ => trivial) fun _ _ _ h => h.2
    · rintro f f' - ⟨blobs, hblobs, hremoving⟩
      exact .inr ⟨names, blobs, f', hblobs, hnames, hremoving, rfl⟩
    · rintro f _ f' - - hgone
      refine ⟨?_, fun _ => whole_of_retained hs hretained⟩
      rintro name hname ⟨b, file, hb, hfile⟩
      cases hb
      by_contra hno
      have hno' : name ∉ names := fun hmem => hno ((hnames name).mp hmem)
      rw [hgone name hname hno'] at hfile
      cases hfile

end

/-! ## All together -/

/-- The snapshot lies in its directory. -/
def HasFile (s : Store) (digest : String) (bytes : List UInt8) : Prop :=
  ∃ d file, s.snapshots.now[digest]? = some d ∧ d.file = some file ∧ file.bytes = bytes

/-- How a snapshot was stored, for each way that `store_snapshot` can end. -/
structure StoreEnd (A : Fate (Fault PlanningError) → Prop) (lib : Library)
    (content : String → List UInt8) (occasion : Occasion) (digest : String) (bytes : List UInt8)
    (s : Store) (o : Outcome (Fault PlanningError) String) (s' : Store) : Prop where
  sound : Sound lib content s'
  fits : Fits s → bytes.length ≤ maxSnapshotBytes → Fits s'
  ok : ∀ d, o = .ok d → d = digest ∧ Points s' digest ∧ HasFile s' digest bytes ∧
    Tidy lib content s' ∧ (Whole s → Whole s') ∧ (s.blobs.isSome = true → Whole s)
  err : ∀ e, o = .err e → Exec.NoFail A → Whole s → Fits s → Whole s' ∧
    (Before digest bytes s s' ∧ (¬ Fresh occasion s ∨ 2 ^ 63 ≤ bytes.length) ∨
      maxSnapshotBytes < bytes.length ∧ Points s' digest ∧ HasFile s' digest bytes)
  crashed : o = .crashed → A .die

theorem Added.whole (h : Added digest bytes s s') (hwhole : Whole s) : Whole s' := by
  intro name d hname hd
  rcases h.snapshots name hname with hsame | ⟨-, -, -, d', hd', hfile⟩
  · exact hwhole name d hname (hsame.symm.trans hd)
  · cases hd.symm.trans hd'
    rw [hfile, Option.isSome_some]

theorem Added.fits (h : Added digest bytes s s') (hfits : Fits s)
    (hlength : bytes.length ≤ maxSnapshotBytes) : Fits s' := by
  intro name d file hname hd hfile
  rcases h.snapshots name hname with hsame | ⟨-, -, -, d', hd', hfile'⟩
  · exact hfits name d file hname (hsame.symm.trans hd) hfile
  · cases hd.symm.trans hd'
    cases hfile.symm.trans hfile'
    exact hlength

/-- What no file can hold is not stored. -/
theorem Added.fits_of_le (h : Added digest bytes s s') (hfits : Fits s)
    (hlength : 2 ^ 63 ≤ bytes.length) : Fits s' := by
  intro name d file hname hd hfile
  rcases h.snapshots name hname with hsame | ⟨-, -, hlt, -⟩
  · exact hfits name d file hname (hsame.symm.trans hd) hfile
  · exact absurd hlength (Nat.not_le.mpr hlt)

theorem Collects.fits {current : String} (h : Collects current s s') (hfits : Fits s) : Fits s' := by
  intro name d file hname hd hfile
  rcases h.snapshots.others name with hsame | ⟨-, -, hnone⟩
  · exact hfits name d file hname (hsame.symm.trans hd) hfile
  · rw [hnone d hd] at hfile
    cases hfile

theorem Collects.hasFile (h : Collects digest s s') (hfile : HasFile s digest bytes) :
    HasFile s' digest bytes := by
  obtain ⟨d, file, hd, hfile⟩ := hfile
  have hsame := (h.snapshots.others digest).resolve_right fun hne => hne.1 rfl
  exact ⟨d, file, hsame.trans hd, hfile⟩

theorem whole_of_collected (hwhole : Whole s) (h : Collected s.snapshots s'.snapshots) : Whole s' := by
  intro name d hname hd
  rcases h name with hsame | ⟨hnone, -⟩
  · exact hwhole name d hname (hsame.symm.trans hd)
  · rw [hnone] at hd
    cases hd

/-- A directory without a file is left alone. -/
theorem whole_before {current : String} (hadded : Added digest bytes s s')
    (hcollects : Collects current s' s'') (hcollected : Collected s'.snapshots s''.snapshots)
    (hwhole : s''.blobs.isSome = true → Whole s'') (hsome : s.blobs.isSome = true) : Whole s := by
  intro name d hname hd
  have hsame := (hadded.snapshots name hname).resolve_right fun hnew => by simp [hd] at hnew
  rw [hd] at hsame
  rcases hcollected name with hstays | ⟨-, d', hd', hfile⟩
  · refine hwhole ?_ name d hname (hstays.trans hsame)
    rwa [hcollects.blobs, hadded.blobs]
  · cases hsame.symm.trans hd'
    exact hfile

/-- What is stored under the digest of the snapshot already is the snapshot. -/
theorem storable_of_fresh (hs : Sound lib content s) (hcontent : content digest = bytes)
    (hdigest : isLowerDigest digest = true) (hwhole : Whole s) (hfits : Fits s)
    (hfresh : Fresh occasion s) (hlength : bytes.length < 2 ^ 63) :
    Storable occasion digest bytes s := by
  refine ⟨hfresh, hlength, fun d hd => ?_⟩
  obtain ⟨file, hfile⟩ := Option.isSome_iff_exists.mp (hwhole digest d hdigest hd)
  obtain ⟨d', file', snapshot, hd', hfile', -, hgenuine, -⟩ :=
    (hs.snapshots digest d hdigest hd).resolve_left (by rw [hfile]; exact Option.some_ne_none file)
  cases hd.symm.trans hd'
  cases hfile.symm.trans hfile'
  exact readSnapshotFile_eq_ok.mpr
    ⟨d, file, hd, hfile, hfits digest d file hdigest hd hfile, hgenuine.content.symm.trans hcontent⟩

theorem sat_storeSnapshot {snapshot : PlanningSnapshot} (hs : Sound lib content s)
    (hdecodes : Decodes lib bytes snapshot)
    (hcontent : content (lib.crates.sha256 bytes).asStr = bytes)
    (hbacked : Backed lib content s snapshot) :
    (storeSnapshot lib occasion snapshot).Sat A s
      (StoreEnd A lib content occasion (lib.crates.sha256 bytes).asStr bytes s) := by
  have hlower := (lib.crates.sha256 bytes).canonical
  unfold storeSnapshot
  refine Exec.sat_bind (Exec.sat_lift ?_ ?_)
  · intro bytes' hbytes
    cases (liftRun_eq_ok.mp hbytes).symm.trans hdecodes.2
    refine Exec.Sat.bind (sat_publishSnapshot hlower) ?_ ?_ ?_
    · rintro _ s₁ hafter
      have hs₁ := hafter.sound hs hdecodes hcontent rfl hbacked
      refine Exec.Sat.bind ensures_garbageCollect ?_ ?_ ?_
      · rintro _ s₂ ⟨hcollects, hcollected⟩
        have hs₂ := hcollects.sound hs₁ hafter.pointer
        have hpoints : Points s₂ (lib.crates.sha256 bytes).asStr := by
          rw [Points, hcollects.files]
          exact hafter.pointer
        have hfile := hcollects.hasFile hafter.stored
        refine Exec.Sat.bind ((ensures_garbageCollectBlobs hs₂.blobs
          fun h : Whole s₂ ∧ Fits s₂ => exists_retained occasion hs₂ h.1 h.2).mono (fun _ h => h.sweeps hs₂.blobs)
          (fun h => h) fun _ _ _ h => h) ?_ ?_ ?_
        · rintro _ s₃ ⟨hsweeps, htidy, hread⟩
          refine Exec.sat_pure ⟨hsweeps.sound hs₂, fun hfits hlength => ?_, ?_,
            fun _ h => (by cases h), fun h => (by cases h)⟩
          · rw [Fits, hsweeps.snapshots]
            exact hcollects.fits (hafter.fits hfits hlength)
          · rintro d hd
            cases hd
            refine ⟨rfl, ?_, ?_, htidy, fun hwhole => ?_,
              whole_before hafter.toAdded hcollects hcollected hread⟩
            · rwa [Points, hsweeps.files]
            · rwa [HasFile, hsweeps.snapshots]
            · rw [Whole, hsweeps.snapshots]
              exact whole_of_collected (hafter.whole hwhole) hcollected
        · rintro e s₃ ⟨hsweeps, hbad⟩
          refine ⟨hsweeps.sound hs₂, fun hfits hlength => ?_, fun _ h => (by cases h), ?_,
            fun h => (by cases h)⟩
          · rw [Fits, hsweeps.snapshots]
            exact hcollects.fits (hafter.fits hfits hlength)
          · rintro _ - hno hwhole hfits
            have hwhole₂ := whole_of_collected (hafter.whole hwhole) hcollected
            refine ⟨by rwa [Whole, hsweeps.snapshots], .inr ⟨?_, ?_, ?_⟩⟩
            · by_contra hlength
              exact hbad hno ⟨hwhole₂, hcollects.fits (hafter.fits hfits (Nat.not_lt.mp hlength))⟩
            · rwa [Points, hsweeps.files]
            · rwa [HasFile, hsweeps.snapshots]
        · rintro s₃ ⟨hsweeps, hdie⟩
          refine ⟨hsweeps.sound hs₂, fun hfits hlength => ?_, fun _ h => (by cases h),
            fun _ h => (by cases h), fun _ => hdie⟩
          rw [Fits, hsweeps.snapshots]
          exact hcollects.fits (hafter.fits hfits hlength)
      · rintro e s₂ ⟨hcollects, hbad⟩
        refine ⟨hcollects.sound hs₁ hafter.pointer,
          fun hfits hlength => hcollects.fits (hafter.fits hfits hlength),
          fun _ h => (by cases h), ?_, fun h => (by cases h)⟩
        rintro _ - hno hwhole hfits
        refine absurd ?_ (hbad hno)
        refine readable_of_fits (hafter.whole hwhole) fun name d file hne hname hd hfile => ?_
        have hsame := (hafter.snapshots name hname).resolve_right fun hnew => hne hnew.1
        exact hfits name d file hname (hsame.symm.trans hd) hfile
      · rintro s₂ ⟨hcollects, hdie⟩
        exact ⟨hcollects.sound hs₁ hafter.pointer,
          fun hfits hlength => hcollects.fits (hafter.fits hfits hlength),
          fun _ h => (by cases h), fun _ h => (by cases h), fun _ => hdie⟩
    · rintro e s₁ ⟨hmoved, hbad⟩
      refine ⟨?_, fun hfits hlength => ?_, fun _ h => (by cases h), ?_, fun h => (by cases h)⟩
      · rcases hmoved with h | h
        · exact h.sound hs hdecodes hcontent rfl hbacked
        · exact h.sound hs hdecodes hcontent rfl hbacked
      · rcases hmoved with h | h
        · exact h.fits hfits hlength
        · exact h.fits hfits hlength
      · rintro _ - hno hwhole hfits
        obtain ⟨hbefore, hnot⟩ := hbad hno
        refine ⟨hbefore.whole hwhole, .inl ⟨hbefore, ?_⟩⟩
        by_contra hboth
        rw [not_or, not_not, Nat.not_le] at hboth
        exact hnot (storable_of_fresh hs hcontent hlower hwhole hfits hboth.1 hboth.2)
    · rintro s₁ ⟨hmoved, hdie⟩
      refine ⟨?_, fun hfits hlength => ?_, fun _ h => (by cases h), fun _ h => (by cases h),
        fun _ => hdie⟩
      · rcases hmoved with h | h
        · exact h.sound hs hdecodes hcontent rfl hbacked
        · exact h.sound hs hdecodes hcontent rfl hbacked
      · rcases hmoved with h | h
        · exact h.fits hfits hlength
        · exact h.fits hfits hlength
  · intro e he
    obtain ⟨e', he'⟩ := exists_of_liftRun_eq_error he
    rw [hdecodes.2] at he'
    cases he'

end Dnfast.Planning
