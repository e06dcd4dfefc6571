import Dnfast.Planning.Publishing

/-! # Histories of the store

What a publication does to a sound store, for each way that it can end (`PublicationEnd`), and what
follows for a sequence of publications, each of which finds what the one before has left. -/

namespace Dnfast.Planning

open Durable
open Core (isLowerDigest InstalledInventory Architecture)

variable {A : Fate (Fault PlanningError) → Prop} {lib : Library} {content : String → List UInt8}
  {occasion : Occasion} {s s' s'' : Store}

/-! ## Readers that agree -/

section
variable {m m' : PlanningBytes → Except PlanningError (List UInt8)} {current snapshot : PlanningSnapshot}

/-- The readers agree on what the snapshot describes. -/
def Agree (m m' : PlanningBytes → Except PlanningError (List UInt8)) (snapshot : PlanningSnapshot) :
    Prop :=
  ∀ r ∈ snapshot.payload.allowedRepositories, ∀ d ∈ r.descriptors, m d = m' d

theorem mem_of_selectedRepositories {ids : List String} {repositories : List PlanningRepository}
    (h : snapshot.selectedRepositories ids = .ok repositories) {r : PlanningRepository}
    (hr : r ∈ repositories) : r ∈ snapshot.payload.allowedRepositories := by
  simp only [PlanningSnapshot.selectedRepositories, Except.check_bind_eq_ok] at h
  obtain ⟨id, -, hfind⟩ := (Except.mapM_eq_ok.mp h.2).exists_left hr
  exact List.mem_of_find?_eq_some (Except.okOr_eq_ok.mp hfind)

theorem mapM_congr_of_mem {ε α β : Type} {f g : α → Except ε β} {l : List α}
    (h : ∀ a ∈ l, f a = g a) : l.mapM f = l.mapM g := by
  induction l with
  | nil => rfl
  | cons a l ih =>
    rw [List.forall_mem_cons] at h
    rw [List.mapM_cons, List.mapM_cons, h.1, ih h.2]

theorem validateModuleState_congr (host : Host) (state : ModuleState) (h : Agree m m' snapshot) :
    validateModuleState lib host m snapshot state = validateModuleState lib host m' snapshot state := by
  unfold validateModuleState
  cases hselected : snapshot.selectedRepositories [] with
  | error e => rfl
  | ok repositories =>
    have hmap : repositories.mapM (repositoryModules lib host m) =
        repositories.mapM (repositoryModules lib host m') := by
      refine mapM_congr_of_mem fun r hr => ?_
      have hr' := mem_of_selectedRepositories hselected hr
      unfold repositoryModules
      split
      · rfl
      next descriptor hmodules =>
        have hdescriptor : descriptor ∈ r.descriptors := by
          simp [PlanningRepository.descriptors, hmodules]
        have hrepomd : r.repomd ∈ r.descriptors := by simp [PlanningRepository.descriptors]
        rw [parseModuleMetadata, parseModuleMetadata, h r hr' _ hrepomd, h r hr' _ hdescriptor]
    simp only [Except.ok_bind, hmap]

theorem reuseRepository_congr (host : Host) (json : IndexJson) {publishedAtUnix : UInt64}
    {generations : List (String × String)} (configured : RepoConfig) (h : Agree m m' current) :
    reuseRepository host json m current publishedAtUnix generations configured =
      reuseRepository host json m' current publishedAtUnix generations configured := by
  unfold reuseRepository
  cases hfind : current.payload.allowedRepositories.find? (·.id = configured.id) with
  | none => rfl
  | some previous =>
    have hmem := List.mem_of_find?_eq_some hfind
    have hunchanged : unchangedMetadata host json m configured previous =
        unchangedMetadata host json m' configured previous := by
      have hrepomd : previous.repomd ∈ previous.descriptors := by simp [PlanningRepository.descriptors]
      unfold unchangedMetadata
      rw [h previous hmem _ hrepomd]
      cases hprovides : previous.fileProvides with
      | none => rfl
      | some descriptor =>
        have hdescriptor : descriptor ∈ previous.descriptors := by
          simp [PlanningRepository.descriptors, hprovides]
        simp only [h previous hmem _ hdescriptor]
    simp only [hunchanged]

theorem reuseRepositories_congr (host : Host) (json : IndexJson) {publishedAtUnix : UInt64}
    {generations : List (String × String)} (enabled : List RepoConfig) (h : Agree m m' current) :
    reuseRepositories host json m current publishedAtUnix generations enabled =
      reuseRepositories host json m' current publishedAtUnix generations enabled := by
  induction enabled with
  | nil => rfl
  | cons configured enabled ih =>
    rw [reuseRepositories, reuseRepositories, reuseRepository_congr host json configured h, ih]

theorem Refresh.reuse_congr (host : Host) (r : Refresh) (h : Agree m m' current) :
    r.reuse lib host m (some current) = r.reuse lib host m' (some current) := by
  unfold Refresh.reuse
  cases r.refreshedGenerations with
  | none => rfl
  | some generations =>
    simp only [reuseUnchangedGenerations, reuseRepositories_congr host lib.indexJson _ h]

/-- On a sound store, the reader of the store is the one that knows every content. -/
theorem agree_of_backed (hs : GenuineBlobs lib content s) (hbacked : Backed lib content s snapshot)
    (hvalid : snapshot.validate lib.crates = .ok ()) :
    Agree (materialize lib s) (contents lib content) snapshot :=
  fun _ hr _ hd => materialize_of_backed hs hbacked hvalid hr hd

end

/-! ## The current snapshot -/

section
variable {current : PlanningSnapshot} {name : String}

theorem validate_of_openSnapshot (h : openSnapshot lib s = .ok current) :
    current.validate lib.crates = .ok () := by
  obtain ⟨_, _, -, -, hdecodes, -⟩ := openSnapshot_eq_ok.mp h
  exact hdecodes.validate

theorem currentSnapshot_eq_ok_none : currentSnapshot lib s = .ok none ↔
    s.files.now[currentPointerName]? = none := by
  unfold currentSnapshot readIfPresent
  cases hfile : s.files.now[currentPointerName]? with
  | none => simp
  | some file =>
    simp only [Except.bind_eq_ok, Except.map_eq_ok, reduceCtorEq, iff_false]
    rintro ⟨_, ⟨b, -, rfl⟩, h⟩
    simp at h

theorem currentSnapshot_eq_ok_some : currentSnapshot lib s = .ok (some current) ↔
    openSnapshot lib s = .ok current := by
  unfold currentSnapshot readIfPresent
  cases hfile : s.files.now[currentPointerName]? with
  | none =>
    have hopen : ∀ c, openSnapshot lib s ≠ .ok c := by
      intro c h
      obtain ⟨_, _, ⟨file, hfile', -⟩, -⟩ := openSnapshot_eq_ok.mp h
      rw [hfile] at hfile'
      cases hfile'
    simp [hopen current]
  | some file =>
    simp only [Except.bind_eq_ok, Except.map_eq_ok]
    constructor
    · rintro ⟨_, ⟨b, -, rfl⟩, h⟩
      simpa using h
    · intro h
      obtain ⟨_, _, ⟨file', hfile', hpointer⟩, -⟩ := openSnapshot_eq_ok.mp h
      cases hfile.symm.trans hfile'
      refine ⟨some file.bytes, ⟨file.bytes, ?_, rfl⟩, by simpa using h⟩
      exact bounded_eq_ok.mpr ⟨(length_of_pointerDigest hpointer).le, rfl⟩

/-- A store that holds the snapshot its pointer names opens it, unless it is too large. -/
theorem openSnapshot_of_points {bytes : List UInt8} (hpoints : Points s name)
    (hfile : HasFile s name bytes) (hdecodes : Decodes lib bytes current)
    (hdigest : (lib.crates.sha256 bytes).asStr = name) (hlength : bytes.length ≤ maxSnapshotBytes) :
    openSnapshot lib s = .ok current := by
  obtain ⟨d, file, hd, hfile, rfl⟩ := hfile
  exact openSnapshot_eq_ok.mpr ⟨name, _, hpoints,
    readSnapshotFile_eq_ok.mpr ⟨d, file, hd, hfile, hlength, rfl⟩, hdecodes, hdigest⟩

theorem openSnapshot_ne_ok {bytes : List UInt8} (hpoints : Points s name)
    (hfile : HasFile s name bytes) (hlength : maxSnapshotBytes < bytes.length) :
    openSnapshot lib s ≠ .ok current := by
  intro h
  obtain ⟨name', bytes', hpoints', hread, -⟩ := openSnapshot_eq_ok.mp h
  cases hpoints.unique hpoints'
  obtain ⟨d, file, hd, hfile, rfl⟩ := hfile
  obtain ⟨d', file', hd', hfile', hlength', -⟩ := readSnapshotFile_eq_ok.mp hread
  cases hd.symm.trans hd'
  cases hfile.symm.trans hfile'
  exact absurd hlength (Nat.not_lt.mpr hlength')

theorem exists_currentSnapshot (hs : Sound lib content s) (hfits : Fits s) :
    ∃ current, currentSnapshot lib s = .ok current := by
  cases hfile : s.files.now[currentPointerName]? with
  | none => exact ⟨none, currentSnapshot_eq_ok_none.mpr hfile⟩
  | some file =>
    obtain ⟨name, hpoints, d, file', snapshot, hd, hfile', hdecodes, hgenuine, -⟩ := hs.current file hfile
    have hlength := hfits name d file' hpoints.isLowerDigest hd hfile'
    exact ⟨some snapshot, currentSnapshot_eq_ok_some.mpr (openSnapshot_of_points hpoints
      ⟨d, file', hd, hfile', rfl⟩ hdecodes hgenuine.digest hlength)⟩

/-- The pointer and the snapshots that were there are as they were. -/
structure Unmoved (s s' : Store) : Prop where
  pointer : s'.files.now[currentPointerName]? = s.files.now[currentPointerName]?
  snapshots : ∀ name d, isLowerDigest name = true → s.snapshots.now[name]? = some d →
    s'.snapshots.now[name]? = some d

theorem Unmoved.openSnapshot_eq_ok (h : Unmoved s s') (hs : Sound lib content s) :
    openSnapshot lib s' = .ok current ↔ openSnapshot lib s = .ok current := by
  have hpoints : ∀ name, Points s' name ↔ Points s name := fun name => by
    rw [Points, Points, h.pointer]
  have hread : ∀ name bytes, Points s name → (readSnapshotFile name s'.snapshots = .ok bytes ↔
      readSnapshotFile name s.snapshots = .ok bytes) := by
    intro name bytes hp
    obtain ⟨file, hfile, -⟩ := id hp
    obtain ⟨name', hp', d, _, _, hd, -⟩ := hs.current file hfile
    cases hp.unique hp'
    rw [readSnapshotFile, readSnapshotFile, h.snapshots name d hp.isLowerDigest hd, hd]
  simp only [Planning.openSnapshot_eq_ok, hpoints]
  constructor
  · rintro ⟨name, bytes, hp, hr, hrest⟩
    exact ⟨name, bytes, hp, (hread name bytes hp).mp hr, hrest⟩
  · rintro ⟨name, bytes, hp, hr, hrest⟩
    exact ⟨name, bytes, hp, (hread name bytes hp).mpr hr, hrest⟩

theorem Grows.unmoved (h : Grows lib content s s') : Unmoved s s' :=
  ⟨by rw [h.files], fun name d _ hd => by rw [h.snapshots, hd]⟩

theorem Before.unmoved {digest : String} {bytes : List UInt8} (h : Before digest bytes s s') :
    Unmoved s s' := by
  refine ⟨h.pointer, fun name d hname hd => ?_⟩
  rcases h.snapshots name hname with hsame | ⟨-, hnone, -⟩
  · rw [hsame, hd]
  · rw [hnone] at hd
    cases hd

theorem Unmoved.trans (h : Unmoved s s') (h' : Unmoved s' s'') : Unmoved s s'' :=
  ⟨h'.pointer.trans h.pointer,
    fun name d hname hd => h'.snapshots name d hname (h.snapshots name d hname hd)⟩

end

/-! ## One publication -/

section
variable (lib : Library) (content : String → List UInt8)

/-- What the publication has to store in this store. -/
def Intends (host : Host) (s : Store) (p : Publication) (new : PlanningSnapshot) : Prop :=
  ∃ current, currentSnapshot lib s = .ok current ∧
    p.snapshot lib host (contents lib content) current = .ok new

/-- What is written and read back is the same, and no two contents have one digest. -/
structure Fair (host : Host) (s : Store) (p : Publication) : Prop where
  roundTrip : ∀ new, Intends lib content host s p new → lib.fromSlice (lib.toVec new) = .ok new
  uncollided : ∀ new, Intends lib content host s p new →
    content (lib.crates.sha256 (lib.toVec new)).asStr = lib.toVec new
  blobs : ∀ r, p = .refresh r → ∀ configured ∈ enabledRepositories r.profile,
    Uncollided lib content host r.publishedAtUnix configured

/-- The inputs of the publication are valid on the current snapshot, and lead to `new`. -/
structure Publication.Valid (host : Host) (current : Option PlanningSnapshot) (p : Publication)
    (new : PlanningSnapshot) : Prop where
  snapshot : p.snapshot lib host (contents lib content) current = .ok new
  fits : (lib.toVec new).length ≤ maxSnapshotBytes
  modules : ∀ r, p = .refresh r → validateModuleState lib host (contents lib content) new
    new.payload.moduleState = .ok ()
  indexes : ∀ r, p = .refresh r → r.reuse lib host (contents lib content) current = .ok none →
    ∀ configured ∈ enabledRepositories r.profile, Buildable lib host r.publishedAtUnix configured

/-- How a publication ends. -/
structure PublicationEnd (A : Fate (Fault PlanningError) → Prop) (occasion : Occasion)
    (p : Publication) (s : Store) (o : Outcome (Fault PlanningError) String) (s' : Store) : Prop where
  sound : Sound lib content s'
  fits : Fits s → (∀ new, Intends lib content occasion.host s p new →
    (lib.toVec new).length ≤ maxSnapshotBytes) → Fits s'
  ok : ∀ d, o = .ok d → ∃ new, Intends lib content occasion.host s p new ∧
    Decodes lib (lib.toVec new) new ∧ d = (lib.crates.sha256 (lib.toVec new)).asStr ∧ Points s' d ∧
    HasFile s' d (lib.toVec new) ∧ Tidy lib content s' ∧ (Whole s → Whole s') ∧
    ∀ name, isLowerDigest name = true → Present s name → Whole s
  err : ∀ e, o = .err e → Exec.NoFail A → Whole s → Fits s → Whole s' ∧
    (Unmoved s s' ∧ (Fresh occasion s → Fits s') ∨ ∃ new d, Intends lib content occasion.host s p new ∧
      maxSnapshotBytes < (lib.toVec new).length ∧ Points s' d ∧ HasFile s' d (lib.toVec new)) ∧
    ∀ current new, currentSnapshot lib s = .ok current →
      p.Valid lib content occasion.host current new → ¬ Fresh occasion s
  crashed : o = .crashed → A .die

end

section
variable {p : Publication} {current new : PlanningSnapshot}

/-- A publication that ends before it has a snapshot. -/
theorem PublicationEnd.early (hs : Sound lib content s) (hgrows : Grows lib content s s')
    {o : Outcome (Fault PlanningError) String} (hok : ∀ d, o ≠ .ok d)
    (hbad : ∀ e, o = .err e → Exec.NoFail A → Whole s → Fits s → ∀ current new,
      currentSnapshot lib s = .ok current → p.Valid lib content occasion.host current new →
        ¬ Fresh occasion s) (hcrashed : o = .crashed → A .die) :
    PublicationEnd lib content A occasion p s o s' := by
  refine ⟨hgrows.sound hs, fun hfits _ => ?_, fun d hd => absurd hd (hok d), ?_, hcrashed⟩
  · rw [Fits, hgrows.snapshots]
    exact hfits
  · intro e he hno hwhole hfits
    refine ⟨?_, .inl ⟨hgrows.unmoved, fun _ => ?_⟩, hbad e he hno hwhole hfits⟩
    · rw [Whole, hgrows.snapshots]
      exact hwhole
    · rw [Fits, hgrows.snapshots]
      exact hfits

/-- A publication that stores its snapshot. -/
theorem PublicationEnd.store (hgrows : Grows lib content s s')
    (hfresh : FreshBlobs occasion s → FreshBlobs occasion s')
    (hintends : Intends lib content occasion.host s p new)
    (hdecodes : Decodes lib (lib.toVec new) new) {o : Outcome (Fault PlanningError) String}
    (h : StoreEnd A lib content occasion (lib.crates.sha256 (lib.toVec new)).asStr (lib.toVec new)
      s' o s'') : PublicationEnd lib content A occasion p s o s'' := by
  have hwhole' : Whole s → Whole s' := fun hwhole => by rwa [Whole, hgrows.snapshots]
  have hfits' : Fits s → Fits s' := fun hfits => by rwa [Fits, hgrows.snapshots]
  have hfresh' : Fresh occasion s → Fresh occasion s' := fun hf =>
    ⟨hgrows.files ▸ hf.files, hgrows.snapshots ▸ hf.snapshots, hfresh hf.blobs⟩
  refine ⟨h.sound, fun hfits hsmall => h.fits (hfits' hfits) (hsmall new hintends), ?_, ?_,
    h.crashed⟩
  · intro d hd
    obtain ⟨rfl, hpoints, hfile, htidy, hwhole, hread⟩ := h.ok d hd
    refine ⟨new, hintends, hdecodes, rfl, hpoints, hfile, htidy, fun hw => hwhole (hwhole' hw), ?_⟩
    intro name hname hpresent
    obtain ⟨blobs, _, hblobs, -⟩ := hgrows.present name hname hpresent
    have hwhole := hread (by rw [hblobs, Option.isSome_some])
    rwa [Whole, hgrows.snapshots] at hwhole
  · intro e he hno hwhole hfits
    obtain ⟨hwhole'', hcase⟩ := h.err e he hno (hwhole' hwhole) (hfits' hfits)
    obtain ⟨current, hcurrent, hsnapshot⟩ := id hintends
    have hsame : ∀ current' new', currentSnapshot lib s = .ok current' →
        p.Valid lib content occasion.host current' new' → new' = new := by
      intro current' new' hcurrent' hvalid
      cases hcurrent.symm.trans hcurrent'
      exact Except.ok.inj (hvalid.snapshot.symm.trans hsnapshot)
    refine ⟨hwhole'', ?_, ?_⟩
    · rcases hcase with ⟨hbefore, hbad⟩ | ⟨hlarge, hpoints, hfile⟩
      · refine .inl ⟨hgrows.unmoved.trans hbefore.unmoved, fun hf => ?_⟩
        rcases hbad with hstale | hlarge
        · exact absurd (hfresh' hf) hstale
        · exact hbefore.fits_of_le (hfits' hfits) hlarge
      · exact .inr ⟨new, _, hintends, hlarge, hpoints, hfile⟩
    · intro current' new' hcurrent' hvalid hf
      have hsmall := hsame current' new' hcurrent' hvalid ▸ hvalid.fits
      rcases hcase with ⟨-, hstale | hlarge⟩ | ⟨hlarge, -⟩
      · exact hstale (hfresh' hf)
      · exact absurd (hlarge.trans hsmall) (by decide)
      · exact absurd hlarge (Nat.not_lt.mpr hsmall)

end

/-- The publication finds no file of its own in its way, and its inputs are valid. -/
def Possible (lib : Library) (content : String → List UInt8) (occasion : Occasion) (p : Publication)
    (s : Store) : Prop :=
  Fresh occasion s ∧ ∃ current new, currentSnapshot lib s = .ok current ∧
    p.Valid lib content occasion.host current new

section
variable {p : Publication} {current new : PlanningSnapshot} {α : Type}

/-- A part of a publication from before it stores its snapshot. -/
theorem PublicationEnd.bind {m : Program α} {f : α → Program String} {P : α → Store → Prop}
    (hs : Sound lib content s)
    (hm : m.Ensures A s' (Grows lib content s) (Possible lib content occasion p s) P)
    (hf : ∀ a s'', Grows lib content s s'' → P a s'' →
      (f a).Sat A s'' (PublicationEnd lib content A occasion p s)) :
    (m >>= f).Sat A s' (PublicationEnd lib content A occasion p s) := by
  refine Exec.Sat.bind hm ?_ ?_ ?_
  · rintro a s'' ⟨hgrows, ha⟩
    exact hf a s'' hgrows ha
  · rintro e s'' ⟨hgrows, hbad⟩
    refine .early hs hgrows nofun (fun _ _ hno _ _ current new hcurrent hvalid hfresh => ?_) nofun
    exact hbad hno ⟨hfresh, current, new, hcurrent, hvalid⟩
  · rintro s'' ⟨hgrows, hdie⟩
    exact .early hs hgrows nofun nofun fun _ => hdie

theorem sat_stored (hs : Sound lib content s) (hfair : Fair lib content occasion.host s p)
    (hgrows : Grows lib content s s') (hfresh : FreshBlobs occasion s → FreshBlobs occasion s')
    (hintends : Intends lib content occasion.host s p new)
    (hvalid : new.validate lib.crates = .ok ()) (hbacked : Backed lib content s' new) :
    (storeSnapshot lib occasion new).Sat A s' (PublicationEnd lib content A occasion p s) := by
  have hdecodes : Decodes lib (lib.toVec new) new :=
    ⟨hfair.roundTrip new hintends, canonicalBytes_eq_ok.mpr ⟨hvalid, rfl⟩⟩
  refine (sat_storeSnapshot (hgrows.sound hs) hdecodes (hfair.uncollided new hintends)
    hbacked).mono fun o s'' h => ?_
  exact .store hgrows hfresh hintends hdecodes h

theorem renewed_eq_ok {payload : PlanningPayload} : current.renewed lib payload = .ok new ↔
    new = ⟨snapshotSchemaVersion, current.publishedAtUnix, current.refreshedRepositoryIds, payload⟩ ∧
      new.validate lib.crates = .ok () := by
  simp only [PlanningSnapshot.renewed, PlanningSnapshot.newWithRefreshedRepositories,
    Except.check_bind_eq_ok, Except.pure_eq_ok]
  constructor
  · rintro ⟨hvalid, rfl⟩
    exact ⟨rfl, hvalid⟩
  · rintro ⟨rfl, hvalid⟩
    exact ⟨hvalid, rfl⟩

/-- A publication that renews the current snapshot needs one. -/
theorem ensures_reading_openSnapshot (hs : GenuineBlobs lib content s)
    (hsome : ∀ current new, p.snapshot lib occasion.host (contents lib content) current = .ok new →
      current.isSome = true) :
    (reading (openSnapshot lib)).Ensures A s (Grows lib content s)
      (Possible lib content occasion p s) fun current s' => s' = s ∧ openSnapshot lib s = .ok current := by
  refine ensures_reading (.refl hs) (fun _ h => ⟨rfl, h⟩) ?_
  rintro e he - ⟨-, current, new, hcurrent, hvalid⟩
  obtain ⟨current, rfl⟩ := Option.isSome_iff_exists.mp (hsome current new hvalid.snapshot)
  rw [currentSnapshot_eq_ok_some.mp hcurrent] at he
  cases he

theorem snapshot_inventory_eq_ok {host : Host} {reader : PlanningBytes → Except PlanningError (List UInt8)}
    {current : Option PlanningSnapshot} {inventory : InstalledInventory} :
    (Publication.inventory inventory).snapshot lib host reader current = .ok new ↔
      ∃ c, current = some c ∧ withInventory lib c inventory = .ok new := by
  simp only [Publication.snapshot, liftRun_eq_ok, Except.bind_eq_ok, Except.okOr_eq_ok]

theorem snapshot_moduleState_eq_ok {host : Host}
    {reader : PlanningBytes → Except PlanningError (List UInt8)} {current : Option PlanningSnapshot}
    {expected : String} {moduleState : ModuleState} :
    (Publication.moduleState expected moduleState).snapshot lib host reader current = .ok new ↔
      ∃ c, current = some c ∧ withModuleState lib host reader c expected moduleState = .ok new := by
  simp only [Publication.snapshot, liftRun_eq_ok, Except.bind_eq_ok, Except.okOr_eq_ok]

theorem withInventory_eq_ok {inventory : InstalledInventory} :
    withInventory lib current inventory = .ok new ↔ current.validate lib.crates = .ok () ∧
      current.renewed lib { current.payload with inventory } = .ok new := by
  simp only [withInventory, PlanningSnapshot.digest, Except.bind_eq_ok, Except.pure_eq_ok,
    canonicalBytes_eq_ok]
  constructor
  · rintro ⟨_, ⟨_, ⟨hvalid, -⟩, -⟩, hnew⟩
    exact ⟨hvalid, hnew⟩
  · rintro ⟨hvalid, hnew⟩
    exact ⟨_, ⟨_, ⟨hvalid, rfl⟩, rfl⟩, hnew⟩

theorem checkExpected_eq_ok {expected : String} : checkExpected lib expected current = .ok () ↔
    current.digest lib = .ok expected := by
  simp only [checkExpected, Except.bind_eq_ok, Except.refuseIf_eq_ok, not_not]
  constructor
  · rintro ⟨_, h, rfl⟩
    exact h
  · exact fun h => ⟨expected, h, rfl⟩

theorem withModuleState_eq_ok {host : Host}
    {reader : PlanningBytes → Except PlanningError (List UInt8)} {expected : String}
    {moduleState : ModuleState} :
    withModuleState lib host reader current expected moduleState = .ok new ↔
      current.digest lib = .ok expected ∧
      validateModuleState lib host reader current moduleState = .ok () ∧
      current.renewed lib { current.payload with moduleState } = .ok new := by
  simp only [withModuleState, Except.check_bind_eq_ok, checkExpected_eq_ok]

theorem sat_publishInventoryOntoCurrent {inventory : InstalledInventory} (hs : Sound lib content s)
    (hfair : Fair lib content occasion.host s (.inventory inventory)) :
    (publishInventoryOntoCurrent lib occasion inventory).Sat A s
      (PublicationEnd lib content A occasion (.inventory inventory) s) := by
  refine PublicationEnd.bind hs (ensures_reading_openSnapshot hs.blobs fun current new h => ?_) ?_
  · obtain ⟨c, rfl, -⟩ := snapshot_inventory_eq_ok.mp h
    rfl
  rintro current s₁ - ⟨rfl, hopen⟩
  have hcurrent := currentSnapshot_eq_ok_some.mpr hopen
  refine PublicationEnd.bind (P := fun new s' => s' = s₁ ∧ withInventory lib current inventory = .ok new)
    hs (ensures_checking (.refl hs.blobs) (fun _ h => ⟨rfl, h⟩) ?_) ?_
  · rintro e he - ⟨-, current', new, hcurrent', hvalid⟩
    cases hcurrent.symm.trans hcurrent'
    obtain ⟨c, hc, hnew⟩ := snapshot_inventory_eq_ok.mp hvalid.snapshot
    cases hc
    rw [hnew] at he
    cases he
  rintro new s₂ hgrows ⟨rfl, hnew⟩
  obtain ⟨-, hrenewed⟩ := withInventory_eq_ok.mp hnew
  obtain ⟨hnew', hvalid⟩ := renewed_eq_ok.mp hrenewed
  refine sat_stored hs hfair hgrows (fun h => h)
    ⟨_, hcurrent, snapshot_inventory_eq_ok.mpr ⟨current, rfl, hnew⟩⟩ hvalid ?_
  rw [hnew']
  exact fun r hr => backed_of_openSnapshot hs.anchored hopen r hr

theorem sat_publishModuleStateOntoCurrent {expected : String} {moduleState : ModuleState}
    (hs : Sound lib content s)
    (hfair : Fair lib content occasion.host s (.moduleState expected moduleState)) :
    (publishModuleStateOntoCurrent lib occasion expected moduleState).Sat A s
      (PublicationEnd lib content A occasion (.moduleState expected moduleState) s) := by
  refine PublicationEnd.bind hs (ensures_reading_openSnapshot hs.blobs fun current new h => ?_) ?_
  · obtain ⟨c, rfl, -⟩ := snapshot_moduleState_eq_ok.mp h
    rfl
  rintro current s₁ - ⟨rfl, hopen⟩
  have hcurrent := currentSnapshot_eq_ok_some.mpr hopen
  have hagree : Agree (materialize lib s₁) (contents lib content) current :=
    agree_of_backed hs.blobs (backed_of_openSnapshot hs.anchored hopen)
      (validate_of_openSnapshot hopen)
  have hreader : ∀ new, withModuleState lib occasion.host (materialize lib s₁) current expected
        moduleState = .ok new ↔
      withModuleState lib occasion.host (contents lib content) current expected moduleState =
        .ok new := fun new => by
    rw [withModuleState_eq_ok, withModuleState_eq_ok, validateModuleState_congr _ _ hagree]
  refine PublicationEnd.bind (P := fun new s' => s' = s₁ ∧ withModuleState lib occasion.host
      (contents lib content) current expected moduleState = .ok new)
    hs (ensures_reading (.refl hs.blobs) (fun _ h => ⟨rfl, (hreader _).mp h⟩) ?_) ?_
  · rintro e he - ⟨-, current', new, hcurrent', hvalid⟩
    cases hcurrent.symm.trans hcurrent'
    obtain ⟨c, hc, hnew⟩ := snapshot_moduleState_eq_ok.mp hvalid.snapshot
    cases hc
    rw [(hreader new).mpr hnew] at he
    cases he
  rintro new s₂ hgrows ⟨rfl, hnew⟩
  obtain ⟨-, -, hrenewed⟩ := withModuleState_eq_ok.mp hnew
  obtain ⟨hnew', hvalid⟩ := renewed_eq_ok.mp hrenewed
  refine sat_stored hs hfair hgrows (fun h => h)
    ⟨_, hcurrent, snapshot_moduleState_eq_ok.mpr ⟨current, rfl, hnew⟩⟩ hvalid ?_
  rw [hnew']
  exact fun r hr => backed_of_openSnapshot hs.anchored hopen r hr

/-- A record that is taken over refers to what it did. -/
theorem BackedRepository.takenOver {previous reused : PlanningRepository}
    {generations : List (String × String)} {trust : Trust.RepoTrustPolicy}
    {identity : CurrentGenerationIdentity} (h : BackedRepository lib content s previous)
    (htaken : Planning.takenOver generations trust identity previous = some reused) :
    BackedRepository lib content s reused := by
  obtain ⟨-, rfl⟩ := takenOver_eq_some htaken
  exact ⟨h.digests, h.external, h.index, h.shards⟩

theorem backed_of_reuse {r : Refresh} {reader : PlanningBytes → Except PlanningError (List UInt8)}
    (hbacked : Backed lib content s current)
    (h : r.reuse lib occasion.host reader (some current) = .ok (some new)) :
    Backed lib content s new ∧ new.validate lib.crates = .ok () := by
  unfold Refresh.reuse at h
  split at h
  next generations hcurrent hgenerations =>
    cases hcurrent
    obtain ⟨_, _, repositories, -, -, hrepositories, hnew⟩ := reuse_eq_some h
    obtain ⟨rfl, hvalid⟩ := newSnapshot_eq_ok.mp hnew
    refine ⟨fun r' hr' => ?_, hvalid⟩
    obtain ⟨configured, -, hreuse⟩ := (forall₂_of_reuseRepositories hrepositories).exists_left hr'
    obtain ⟨previous, _, _, _, hfind, htakes⟩ := takesOver_of_reuseRepository hreuse
    exact (hbacked previous (List.mem_of_find?_eq_some hfind)).takenOver htakes.taken
  · cases h

theorem snapshot_refresh_eq_ok {r : Refresh} {host : Host}
    {reader : PlanningBytes → Except PlanningError (List UInt8)} {current : Option PlanningSnapshot} :
    (Publication.refresh r).snapshot lib host reader current = .ok new ↔ r.check = .ok () ∧
      (r.reuse lib host reader current = .ok (some new) ∨
        r.reuse lib host reader current = .ok none ∧ r.rebuilt lib host current = .ok new) := by
  simp only [Publication.snapshot, Except.check_bind_eq_ok]
  refine and_congr_right fun _ => ?_
  cases hreuse : r.reuse lib host reader current with
  | error e => simp [Except.bind_eq_ok]
  | ok o =>
    rw [Except.ok_bind]
    cases o with
    | none => simp
    | some reused => simp [Except.pure_eq_ok]

/-- The refresh reads the store as it is described. -/
theorem reuse_materialize (occasion : Occasion) (r : Refresh) {current : Option PlanningSnapshot}
    (hs : Anchored lib content s)
    (hcurrent : currentSnapshot lib s = .ok current) :
    r.reuse lib occasion.host (materialize lib s) current =
      r.reuse lib occasion.host (contents lib content) current := by
  cases current with
  | none => rfl
  | some c =>
    have hopen := currentSnapshot_eq_ok_some.mp hcurrent
    exact r.reuse_congr _ (agree_of_backed hs.blobs (backed_of_openSnapshot hs hopen)
      (validate_of_openSnapshot hopen))

theorem ensures_refreshSnapshot {r : Refresh} {current : Option PlanningSnapshot}
    (hs : Anchored lib content s) (hfair : Fair lib content occasion.host s (.refresh r))
    (hcheck : r.check = .ok ()) (hcurrent : currentSnapshot lib s = .ok current) :
    (refreshSnapshot lib occasion r current).Ensures A s (Grows lib content s)
      (Possible lib content occasion (.refresh r) s) fun new s' =>
        Intends lib content occasion.host s (.refresh r) new ∧ Backed lib content s' new ∧
          new.validate lib.crates = .ok () ∧ (FreshBlobs occasion s → FreshBlobs occasion s') := by
  have hreader := reuse_materialize occasion r hs hcurrent
  refine Exec.Ensures.bind (P := fun o s' => s' = s ∧
      r.reuse lib occasion.host (contents lib content) current = .ok o)
    (Exec.Ensures.observe (.refl hs.blobs) (fun _ h => ⟨rfl, hreader.symm.trans h⟩) ?_) ?_
  · rintro e he - ⟨-, current', new, hcurrent', hvalid⟩
    cases hcurrent.symm.trans hcurrent'
    rw [hreader] at he
    rcases (snapshot_refresh_eq_ok.mp hvalid.snapshot).2 with h | ⟨h, -⟩
    · rw [h] at he
      cases he
    · rw [h] at he
      cases he
  rintro o s₁ hgrows ⟨rfl, hreuse⟩
  cases o with
  | some new =>
    have hintends : Intends lib content occasion.host s₁ (.refresh r) new :=
      ⟨current, hcurrent, snapshot_refresh_eq_ok.mpr ⟨hcheck, .inl hreuse⟩⟩
    cases current with
    | none => cases hreuse
    | some c =>
      have hopen := currentSnapshot_eq_ok_some.mp hcurrent
      obtain ⟨hbacked, hvalid⟩ := backed_of_reuse (backed_of_openSnapshot hs hopen) hreuse
      exact Exec.Ensures.pure hgrows ⟨hintends, hbacked, hvalid, fun h => h⟩
  | none =>
    refine (ensures_storeSnapshotFrom hs.blobs (hfair.blobs r rfl) ?_).imp ?_
    · rintro ⟨hfresh, current', new, hcurrent', hvalid⟩
      cases hcurrent.symm.trans hcurrent'
      refine ⟨hfresh.blobs, hvalid.indexes r rfl hreuse, new, ?_⟩
      rcases (snapshot_refresh_eq_ok.mp hvalid.snapshot).2 with h | ⟨-, h⟩
      · cases hreuse.symm.trans h
      · exact h
    · rintro new s' - ⟨hnew, hbacked, hfresh⟩
      obtain ⟨_, _, _, -, -, -, hnew'⟩ := snapshotFrom_eq_ok.mp hnew
      exact ⟨⟨current, hcurrent, snapshot_refresh_eq_ok.mpr ⟨hcheck, .inr ⟨hreuse, hnew⟩⟩⟩, hbacked,
        (newSnapshot_eq_ok.mp hnew').2, hfresh⟩

theorem sat_publish {r : Refresh} (hs : Sound lib content s)
    (hfair : Fair lib content occasion.host s (.refresh r)) :
    (publish lib occasion r).Sat A s (PublicationEnd lib content A occasion (.refresh r) s) := by
  refine PublicationEnd.bind (P := fun _ s' => s' = s ∧ r.check = .ok ()) hs
    (Exec.Ensures.lift (.refl hs.blobs) (fun _ h => ⟨rfl, h⟩) ?_) ?_
  · rintro e he - ⟨-, _, _, -, hvalid⟩
    rw [(snapshot_refresh_eq_ok.mp hvalid.snapshot).1] at he
    cases he
  rintro _ s₁ - ⟨rfl, hcheck⟩
  refine PublicationEnd.bind (P := fun current s' => s' = s₁ ∧ currentSnapshot lib s₁ = .ok current) hs
    (ensures_reading (.refl hs.blobs) (fun _ h => ⟨rfl, h⟩) ?_) ?_
  · rintro e he - ⟨-, _, _, hcurrent, -⟩
    rw [hcurrent] at he
    cases he
  rintro current s₂ - ⟨rfl, hcurrent⟩
  refine PublicationEnd.bind hs (ensures_refreshSnapshot hs.anchored hfair hcheck hcurrent) ?_
  rintro new s₃ hgrows ⟨hintends, hbacked, hvalidated, hfresh⟩
  refine PublicationEnd.bind (P := fun _ s' => s' = s₃) hs (ensures_reading hgrows (fun _ _ => rfl) ?_) ?_
  · rintro e he - ⟨-, current', new', hcurrent', hvalid⟩
    obtain ⟨current'', hcurrent'', hsnapshot⟩ := hintends
    cases hcurrent'.symm.trans hcurrent''
    cases hsnapshot.symm.trans hvalid.snapshot
    rw [validateModuleState_congr _ _ (agree_of_backed hgrows.blobs hbacked hvalidated),
      hvalid.modules r rfl] at he
    cases he
  rintro _ s₄ - rfl
  exact sat_stored hs hfair hgrows hfresh hintends hvalidated hbacked

/-- How every publication ends. -/
theorem sat_run (p : Publication) (hs : Sound lib content s)
    (hfair : Fair lib content occasion.host s p) :
    (p.run lib occasion).Sat A s (PublicationEnd lib content A occasion p s) := by
  cases p with
  | refresh r => exact sat_publish hs hfair
  | inventory i => exact sat_publishInventoryOntoCurrent hs hfair
  | moduleState expected m => exact sat_publishModuleStateOntoCurrent hs hfair

end

end Dnfast.Planning
