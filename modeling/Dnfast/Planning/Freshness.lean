import Dnfast.Planning.Writers

/-! # Fresh metadata

`dnfast-planning`, `publisher.rs`: `current_metadata_is_fresh` tells from the current snapshot whether a
refresh can be left out. The snapshot has one time of publication and a list of the repositories that
were refreshed for it; a publication of an inventory or of a module state keeps both. -/

namespace Dnfast.Planning

open Durable
open Core (Architecture InstalledInventory RepoPreference)
open LazyIndex (refuse)

/-! ## The check -/

def MetadataExpire.expired (age : UInt64) : MetadataExpire → Bool
  | .afterSeconds seconds => age ≥ seconds
  | .never => false

/-- The turn of the loop for a selected repository. -/
def PlanningSnapshot.covers (snapshot : PlanningSnapshot) (age : UInt64) (configured : RepoConfig) :
    Bool :=
  configured.id ∈ snapshot.refreshedRepositoryIds && !configured.metadataExpire.expired age &&
    match snapshot.payload.allowedRepositories.find? (·.id = configured.id) with
    | none => false
    | some published =>
      configured.keyBundleDigest.map (·.asStr) = some published.trust.keyBundleSha256.asStr

def selectedConfigurations (profile : MutationProfile) (requested : List String) : List RepoConfig :=
  (enabledRepositories profile).filter fun r => requested = [] ∨ r.id ∈ requested

def currentMetadataIsFresh (lib : Library) (profile : MutationProfile) (host : Architecture)
    (requested : List String) (nowUnix : UInt64) (s : Store) : Run Bool := do
  let snapshot ← liftRun (openSnapshot lib s)
  if snapshot.schemaVersion ≠ snapshotSchemaVersion then return false
  else do
    let configuration ← normalizedConfiguration profile
    if snapshot.payload.configuration ≠ configuration ∨ nowUnix < snapshot.publishedAtUnix then
      return false
    else do
      let enabled := enabledRepositories profile
      let selected := selectedConfigurations profile requested
      refuse (selected = [] ∨ ∃ id ∈ requested, ∀ r ∈ enabled, r.id ≠ id)
        "selected repository is not enabled"
      let preferences ← liftRun
        ((enabled.mapM fun r => RepoPreference.new r.id r.priority.toUInt32 r.cost).mapError domain)
      let expected ← policyFor host profile preferences
      if snapshot.payload.policy ≠ ⟨expected, profile.main.includepkgs, profile.main.installonlyLimit⟩
      then return false
      else return selected.all (snapshot.covers (nowUnix - snapshot.publishedAtUnix))

/-! ## Histories -/

/-- The store after the publications. -/
def Store.publishing (lib : Library) (s : Store) (history : List Event) : Store :=
  history.foldl (fun s e => e.after lib s) s

/-- Every publication of the history holds the lock. -/
def SerialRun (lib : Library) (content : String → List UInt8) : Store → List Event → Prop
  | _, [] => True
  | s, e :: history => e.Serial lib content s ∧ SerialRun lib content (e.after lib s) history

/-- A verified refresh of the repository was published at the time. -/
def RefreshedAt (lib : Library) (s : Store) (history : List Event) (id : String) (t : UInt64) : Prop :=
  ∃ before e after r generations d, history = before ++ e :: after ∧ e.publication = .refresh r ∧
    r.refreshedGenerations = some generations ∧ id ∈ generations.map (·.1) ∧ r.publishedAtUnix = t ∧
    e.outcome lib (s.publishing lib before) = .ok d

section
variable {lib : Library} {content : String → List UInt8} {s : Store} {history : List Event} {e : Event}
  {id : String} {t : UInt64}

theorem publishing_concat : s.publishing lib (history ++ [e]) = e.after lib (s.publishing lib history) := by
  simp [Store.publishing]

theorem serialRun_concat : SerialRun lib content s (history ++ [e]) ↔
    SerialRun lib content s history ∧ e.Serial lib content (s.publishing lib history) := by
  induction history generalizing s with
  | nil => simp [SerialRun, Store.publishing]
  | cons e' history ih => simp only [List.cons_append, SerialRun, ih, Store.publishing, List.foldl_cons,
      and_assoc]

theorem steady_of_serialRun (hs : Steady lib content s) (h : SerialRun lib content s history) :
    Steady lib content (s.publishing lib history) := by
  induction history generalizing s with
  | nil => exact hs
  | cons e history ih => exact ih (h.1.opens hs).1 h.2

theorem RefreshedAt.concat (h : RefreshedAt lib s history id t) :
    RefreshedAt lib s (history ++ [e]) id t := by
  obtain ⟨before, e', after, r, generations, d, rfl, h⟩ := h
  exact ⟨before, e', after ++ [e], r, generations, d, by simp, h⟩

/-- What a snapshot of a verified refresh says of it. -/
theorem refreshed_of_snapshot {r : Refresh} {host : Host} {generations : List (String × String)}
    {reader : PlanningBytes → Except PlanningError (List UInt8)} {current : Option PlanningSnapshot}
    {new : PlanningSnapshot} (hgenerations : r.refreshedGenerations = some generations)
    (h : (Publication.refresh r).snapshot lib host reader current = .ok new) :
    new.publishedAtUnix = r.publishedAtUnix ∧
      new.refreshedRepositoryIds = generations.map (·.1) := by
  have hids : r.refreshedRepositoryIds = some (generations.map (·.1)) := by
    rw [Refresh.refreshedRepositoryIds, hgenerations]
    rfl
  rcases (snapshot_refresh_eq_ok.mp h).2 with hreuse | ⟨-, hrebuilt⟩
  · unfold Refresh.reuse at hreuse
    split at hreuse
    · obtain ⟨_, _, _, -, -, -, hnew⟩ := reuse_eq_some hreuse
      obtain ⟨rfl, -⟩ := newSnapshot_eq_ok.mp hnew
      simp [hids]
    · cases hreuse
  · obtain ⟨_, _, _, -, -, -, hnew⟩ := snapshotFrom_eq_ok.mp hrebuilt
    obtain ⟨rfl, -⟩ := newSnapshot_eq_ok.mp hnew
    simp [hids]

/-- Every repository that the current snapshot lists was refreshed when the snapshot says. -/
def Truthful (lib : Library) (s : Store) (history : List Event) : Prop :=
  ∀ c, openSnapshot lib (s.publishing lib history) = .ok c →
    ∀ id ∈ c.refreshedRepositoryIds, RefreshedAt lib s history id c.publishedAtUnix

/-- What a publication has to store is truthful. -/
theorem refreshedAt_of_intends {new : PlanningSnapshot} {d : String}
    (hverified : ∀ r, e.publication = .refresh r → r.refreshedGenerations ≠ none)
    (htruthful : Truthful lib s history)
    (hok : e.outcome lib (s.publishing lib history) = .ok d)
    (h : Intends lib content e.occasion.host (s.publishing lib history) e.publication new)
    (hid : id ∈ new.refreshedRepositoryIds) :
    RefreshedAt lib s (history ++ [e]) id new.publishedAtUnix := by
  obtain ⟨current, hcurrent, hnew⟩ := h
  have hkeeps : ∀ c, some c = current → SameSources c new →
      RefreshedAt lib s (history ++ [e]) id new.publishedAtUnix := by
    rintro c rfl hsame
    rw [hsame.refreshed] at hid
    rw [hsame.publishedAtUnix]
    exact (htruthful c (currentSnapshot_eq_ok_some.mp hcurrent) id hid).concat
  cases hp : e.publication with
  | refresh r =>
    rw [hp] at hnew
    cases hgenerations : r.refreshedGenerations with
    | none => exact absurd hgenerations (hverified r hp)
    | some generations =>
      obtain ⟨htime, hids⟩ := refreshed_of_snapshot hgenerations hnew
      rw [hids] at hid
      exact ⟨history, e, [], r, generations, d, rfl, hp, hgenerations, hid, htime.symm, hok⟩
  | inventory i =>
    rw [hp] at hnew
    obtain ⟨c, hsome, hnew⟩ := snapshot_inventory_eq_ok.mp hnew
    exact hkeeps c hsome.symm (sameSources_of_inventory hnew).1
  | moduleState expected m =>
    rw [hp] at hnew
    obtain ⟨c, hsome, hnew⟩ := snapshot_moduleState_eq_ok.mp hnew
    exact hkeeps c hsome.symm (sameSources_of_moduleState hnew).1

theorem truthful_of_serialRun (hs : Steady lib content s)
    (hempty : s.files.now[currentPointerName]? = none) (h : SerialRun lib content s history)
    (hverified : ∀ e ∈ history, ∀ r, e.publication = .refresh r → r.refreshedGenerations ≠ none) :
    Truthful lib s history := by
  induction history using List.reverseRecOn with
  | nil =>
    intro c hc
    obtain ⟨_, _, ⟨file, hfile, -⟩, -⟩ := openSnapshot_eq_ok.mp hc
    cases hempty.symm.trans hfile
  | append_singleton history e ih =>
    obtain ⟨h, he⟩ := serialRun_concat.mp h
    have htruthful := ih h fun e' he' => hverified e' (List.mem_append_left _ he')
    intro c hc id hid
    rw [publishing_concat] at hc
    rcases (he.opens (steady_of_serialRun hs h)).2.2 c hc with ⟨hsame, -⟩ | ⟨d, hok, hintends⟩
    · exact (htruthful c hsame id hid).concat
    · exact refreshedAt_of_intends (hverified e (by simp)) htruthful hok hintends hid

/-! ## What the check guarantees -/

theorem currentMetadataIsFresh_eq_true {profile : MutationProfile} {host : Architecture}
    {requested : List String} {nowUnix : UInt64}
    (h : currentMetadataIsFresh lib profile host requested nowUnix s = .ok true) :
    ∃ c, openSnapshot lib s = .ok c ∧ c.publishedAtUnix ≤ nowUnix ∧
      ∀ r ∈ selectedConfigurations profile requested, c.covers (nowUnix - c.publishedAtUnix) r := by
  obtain ⟨c, hc, h⟩ := Except.bind_eq_ok.mp h
  rcases ite_eq_ok.mp h with ⟨-, h⟩ | ⟨-, h⟩
  · cases h
  obtain ⟨configuration, -, h⟩ := Except.bind_eq_ok.mp h
  rcases ite_eq_ok.mp h with ⟨-, h⟩ | ⟨hsame, h⟩
  · cases h
  rw [not_or, UInt64.not_lt] at hsame
  rw [Except.check_bind_eq_ok] at h
  obtain ⟨preferences, -, h⟩ := Except.bind_eq_ok.mp h.2
  obtain ⟨expected, -, h⟩ := Except.bind_eq_ok.mp h
  rcases ite_eq_ok.mp h with ⟨-, h⟩ | ⟨-, h⟩
  · cases h
  exact ⟨c, liftRun_eq_ok.mp hc, hsame.2, List.all_eq_true.mp (Except.pure_eq_ok.mp h)⟩

/-- The metadata of the repository was verified and is not older than its configuration allows. -/
def InTime (lib : Library) (s : Store) (history : List Event) (nowUnix : UInt64) (r : RepoConfig) :
    Prop :=
  ∃ t, RefreshedAt lib s history r.id t ∧ t ≤ nowUnix ∧
    ∀ seconds, r.metadataExpire = .afterSeconds seconds →
      nowUnix.toNat - t.toNat < seconds.toNat

/-- **Fresh metadata was verified in time.** From a store without a snapshot, after any publications of
which no refresh goes without the generations that it has verified. -/
theorem fresh_metadata_inTime {profile : MutationProfile} {host : Architecture}
    {requested : List String} {nowUnix : UInt64} (hs : Steady lib content s)
    (hempty : s.files.now[currentPointerName]? = none) (hrun : SerialRun lib content s history)
    (hverified : ∀ e ∈ history, ∀ r, e.publication = .refresh r → r.refreshedGenerations ≠ none)
    (h : currentMetadataIsFresh lib profile host requested nowUnix (s.publishing lib history) =
      .ok true) :
    ∀ r ∈ selectedConfigurations profile requested, InTime lib s history nowUnix r := by
  intro r hr
  obtain ⟨c, hc, hle, hcovers⟩ := currentMetadataIsFresh_eq_true h
  have hr := hcovers r hr
  simp only [PlanningSnapshot.covers, Bool.and_eq_true, decide_eq_true_eq, Bool.not_eq_true'] at hr
  obtain ⟨⟨hlisted, hexpired⟩, -⟩ := hr
  refine ⟨c.publishedAtUnix, truthful_of_serialRun hs hempty hrun hverified c hc _ hlisted, hle, ?_⟩
  intro seconds hseconds
  rw [hseconds, MetadataExpire.expired, decide_eq_false_iff_not, ge_iff_le, UInt64.not_le,
    UInt64.lt_iff_toNat_lt, UInt64.toNat_sub_of_le _ _ hle] at hexpired
  exact hexpired

end

/-! ### One repository, published with and without a refresh -/

def emptyStore : Store where
  files := ⟨.empty, .empty⟩
  snapshots := ⟨.empty, .empty⟩
  snapshotsKept := true
  blobs := none
  blobsKept := true

def soloProfile : MutationProfile := { pairProfile with repositories := [pairConfig "fedora"] }

def soloRefresh (generations : Option (List (String × String))) : Event where
  publication := .refresh ⟨soloProfile, newInventory, 1, .x86_64, generations⟩
  occasion := soloOccasion
  fates := []

theorem steady_emptyStore : Steady soloLibrary soloContent emptyStore := by
  refine ⟨⟨?_, ?_, ?_⟩, ?_, .inl ?_⟩
  · intro blobs name file hblobs
    cases hblobs
  · intro name d _ hd
    simp [emptyStore] at hd
  · intro file hfile
    simp [emptyStore] at hfile
  · intro name d _ hd
    simp [emptyStore] at hd
  · intro name d file _ hd
    simp [emptyStore] at hd

theorem build_pairIndex : LazyIndex.build soloCrates
    ⟨[⟨packageSha256, "package", "noarch", "0", "1", "1"⟩], primarySha256, filelistsSha256, some []⟩ =
      .ok (pairIndex, ⟨indexSha256, 130, ""⟩) := by
  have hbuild := LazyIndex.build_single (i := ⟨packageSha256, "package", "noarch", "0", "1", "1"⟩)
    soloCrates isLowerDigest_packageSha256 Core.isLowerDigest_primary Core.isLowerDigest_filelists
  have hdigest : (soloCrates.sha256 pairIndex).asStr = indexSha256 := congrArg _ sha256_index
  exact hbuild.trans (congrArg (fun digest => Except.ok (pairIndex, PlanningBytes.mk digest 130 "")) hdigest)

/-- The repository of the pair is built to its record. -/
theorem exists_staged_solo : ∃ staged,
    stageRepository soloCrates pairHost (pairConfig "fedora") 1 = .ok staged ∧
      staged.generation.repository = "fedora" ∧
      staged.contents = [pairIndex, "repomd-f".asBytes, "primary".asBytes, "filelists".asBytes] ∧
      staged.repository soloCrates pairHost (pairConfig "fedora") = soloRepository := by
  have hrepomd : (soloCrates.sha256 "repomd-f".asBytes).asStr = fedoraGeneration := by decide +kernel
  have hprimary : (soloCrates.sha256 "primary".asBytes).asStr = primarySha256 := by decide +kernel
  have hfilelists : (soloCrates.sha256 "filelists".asBytes).asStr = filelistsSha256 := by decide +kernel
  have horigin : (soloCrates.sha256 "https://d/f/repodata/repomd.xml".asBytes).asStr =
      "81aced04e358eb3444b7729bbaa6af17a5f63b5426b161a4efbc3d5e421f31ed" := by decide +kernel
  have hgeneration : openCurrentVerifiedCompleteGeneration soloCrates pairHost "fedora" =
      .ok ⟨pairObject "fedora" "https://d/f/repodata/repomd.xml" "repomd-f" (by decide),
        fedoraGeneration, .transportOnly⟩ := by
    simp only [openCurrentVerifiedCompleteGeneration, openVerifiedCompleteGeneration, pairHost, if_true,
      Except.mapError_ok, Except.ok_bind, pairObject, pairText, hrepomd]
    rfl
  refine ⟨⟨_, ⟨none, none, none⟩, pairTrust "fedora" Core.fedora_ne_empty 1, _, pairIndex,
    ⟨indexSha256, 130, ""⟩⟩, stageRepository_eq_ok.mpr ⟨rfl, liveKeyBundle_pair "fedora",
      trustAt_pair _ 1, hgeneration, ⟨none, none, none⟩, _, rfl, rfl, rfl, ?_⟩, rfl, rfl, ?_⟩
  · rw [indexSource]
    simp only [pairObject, pairText, hprimary, hfilelists]
    exact build_pairIndex
  · simp only [Staged.repository, PlanningBytes.fromVerified, pairObject, pairText, hprimary, hfilelists,
      hrepomd, horigin]
    rfl

theorem enabled_solo : enabledRepositories soloProfile = [pairConfig "fedora"] := by
  simp [enabledRepositories, soloProfile, pairConfig]

theorem rebuilt_solo : snapshotFrom soloCrates pairHost soloProfile ⟨newInventory, ⟨[]⟩⟩ 1 .x86_64 none =
    .ok (soloSnapshot newInventory) := by
  obtain ⟨staged, hstaged, hrepository, -, hrecord⟩ := exists_staged_solo
  have hpolicy : (planningPolicy soloProfile .x86_64).toOption =
      some (soloSnapshot newInventory).payload.policy := by
    decide
  refine snapshotFrom_eq_ok.mpr ⟨(soloSnapshot newInventory).payload.configuration, _, [soloRepository],
    rfl, Except.toOption_eq_some.mp hpolicy, ?_, newSnapshot_eq_ok.mpr ⟨rfl, validate_new⟩⟩
  rw [enabled_solo, List.mapM_cons, List.mapM_nil,
    repositoryPayload_eq_ok.mpr ⟨staged, hstaged, hrepository, hrecord⟩]
  rfl

section
variable {generations : Option (List (String × String))}

/-- The generations of the repository, or none at all. -/
def IsSolo (generations : Option (List (String × String))) : Prop :=
  generations = none ∨ generations = some [("fedora", fedoraGeneration)]

theorem snapshot_soloRefresh (h : IsSolo generations) :
    (soloRefresh generations).publication.snapshot soloLibrary pairHost
      (contents soloLibrary soloContent) none = .ok (soloSnapshot newInventory) := by
  obtain ⟨_, _, _, hconfiguration, hpolicy, hrepositories, hnew⟩ := snapshotFrom_eq_ok.mp rebuilt_solo
  obtain ⟨heq, hvalid⟩ := newSnapshot_eq_ok.mp hnew
  have hlisted := congrArg (·.refreshedRepositoryIds) heq
  simp only [Option.getD_none] at hlisted
  have hcheck : (Refresh.mk soloProfile newInventory 1 .x86_64 generations).check = .ok () := by
    rcases h with rfl | rfl
    · rfl
    · simp [Refresh.check, LazyIndex.refuse, Except.refuseIf, isLowerDigest_fedoraGeneration]
  refine snapshot_refresh_eq_ok.mpr ⟨hcheck, .inr ⟨?_, ?_⟩⟩
  · rcases h with rfl | rfl <;> rfl
  · refine snapshotFrom_eq_ok.mpr ⟨_, _, _, hconfiguration, hpolicy, hrepositories, ?_⟩
    rcases h with rfl | rfl
    · exact hnew
    · refine newSnapshot_eq_ok.mpr ⟨heq.trans ?_, hvalid⟩
      simp only [Option.getD_none, ← hlisted]
      rfl

theorem intends_soloRefresh {new : PlanningSnapshot} (h : IsSolo generations) :
    Intends soloLibrary soloContent pairHost emptyStore (soloRefresh generations).publication new ↔
      new = soloSnapshot newInventory := by
  have hnone : currentSnapshot soloLibrary emptyStore = .ok none :=
    currentSnapshot_eq_ok_none.mpr (by simp [emptyStore])
  constructor
  · rintro ⟨current, hcurrent, hnew⟩
    cases hnone.symm.trans hcurrent
    exact Except.ok.inj (hnew.symm.trans (snapshot_soloRefresh h))
  · rintro rfl
    exact ⟨none, hnone, snapshot_soloRefresh h⟩

theorem serial_soloRefresh (h : IsSolo generations) :
    (soloRefresh generations).Serial soloLibrary soloContent emptyStore := by
  obtain ⟨staged, hstaged, -, hcontents, -⟩ := exists_staged_solo
  refine ⟨⟨?_, ?_, ?_⟩, rfl, ?_⟩
  · intro new hnew
    cases (intends_soloRefresh h).mp hnew
    rw [toVec_new]
    exact decodes_new.1
  · intro new hnew
    cases (intends_soloRefresh h).mp hnew
    rw [toVec_new, sha256_new]
    exact soloContent_new
  · rintro r ⟨⟩ configured hconfigured staged' hstaged' bytes hbytes
    rw [enabled_solo, List.mem_singleton] at hconfigured
    subst hconfigured
    cases hstaged.symm.trans hstaged'
    rw [hcontents] at hbytes
    have hall : ∀ bytes ∈ [pairIndex, "repomd-f".asBytes, "primary".asBytes, "filelists".asBytes],
        soloContent (soloCrates.sha256 bytes).asStr = bytes := by
      decide +kernel
    exact hall bytes hbytes
  · refine ⟨fun base hmem => ?_, fun base hmem => ?_, fun blobs base hblobs => ?_⟩
    · simp [soloRefresh, emptyStore] at hmem
    · simp [soloRefresh, emptyStore] at hmem
    · cases hblobs

theorem serialRun_soloRefresh (h : IsSolo generations) :
    SerialRun soloLibrary soloContent emptyStore [soloRefresh generations] :=
  ⟨serial_soloRefresh h, trivial⟩

/-- It is published. -/
theorem publishes_soloRefresh (h : IsSolo generations) :
    ∃ d, (soloRefresh generations).outcome soloLibrary emptyStore = .ok d ∧
      openSnapshot soloLibrary ((soloRefresh generations).after soloLibrary emptyStore) =
        .ok (soloSnapshot newInventory) := by
  have hserial := serial_soloRefresh h
  have hsteady := steady_emptyStore
  have hfits : Fits emptyStore := by
    intro name d file _ hd
    simp [emptyStore] at hd
  have hvalid : (soloRefresh generations).publication.Valid soloLibrary soloContent pairHost none
      (soloSnapshot newInventory) := by
    refine ⟨snapshot_soloRefresh h, ?_, fun r _ => by decide, ?_⟩
    · rw [toVec_new]
      exact length_soloDocument_le (by decide)
    · rintro r ⟨⟩ _ configured hconfigured
      rw [enabled_solo, List.mem_singleton] at hconfigured
      subst hconfigured
      obtain ⟨staged, hstaged, hrepository, hcontents, -⟩ := exists_staged_solo
      refine ⟨staged, hstaged, hrepository, ?_⟩
      have hindex : staged.index = pairIndex := (List.cons.inj hcontents).1
      rw [hindex, length_pairIndex]
      decide
  obtain ⟨d, s', hrun, hopen⟩ := (usable_of_whole hsteady.sound hsteady.whole hfits).publishes
    soloOccasion _ none _ (currentSnapshot_eq_ok_none.mpr (by simp [emptyStore])) hvalid hserial.fair
    hserial.fresh
  rw [Event.clean_eq] at hrun
  obtain ⟨houtcome, hafter⟩ := Prod.mk.inj hrun
  exact ⟨d, houtcome, hafter ▸ hopen⟩

/-- A second later it is fresh. -/
theorem fresh_soloRefresh (h : IsSolo generations) :
    currentMetadataIsFresh soloLibrary soloProfile .x86_64 [] 2
      (emptyStore.publishing soloLibrary [soloRefresh generations]) = .ok true := by
  obtain ⟨d, -, hopen⟩ := publishes_soloRefresh h
  have hrest : currentMetadataIsFresh soloLibrary soloProfile .x86_64 [] 2 soloStore = .ok true := by
    rw [currentMetadataIsFresh, openSnapshot_soloStore]
    decide +kernel
  rw [currentMetadataIsFresh, openSnapshot_soloStore] at hrest
  rw [currentMetadataIsFresh]
  change (liftRun (openSnapshot soloLibrary
    ((soloRefresh generations).after soloLibrary emptyStore)) >>= _) = _
  rw [hopen]
  exact hrest

end

theorem fresh_metadata_inTime_solo :
    currentMetadataIsFresh soloLibrary soloProfile .x86_64 [] 2 (emptyStore.publishing soloLibrary
        [soloRefresh (some [("fedora", fedoraGeneration)])]) = .ok true ∧
      InTime soloLibrary emptyStore [soloRefresh (some [("fedora", fedoraGeneration)])] 2
        (pairConfig "fedora") := by
  have hsolo : IsSolo (some [("fedora", fedoraGeneration)]) := .inr rfl
  have hfresh := fresh_soloRefresh hsolo
  refine ⟨hfresh, fresh_metadata_inTime steady_emptyStore (by simp [emptyStore])
    (serialRun_soloRefresh hsolo) ?_ hfresh _ ?_⟩
  · intro e he r hr
    rw [List.mem_singleton.mp he] at hr
    cases hr
    exact Option.some_ne_none _
  · simp [selectedConfigurations, enabled_solo]

/-- The time that a publication is given. -/
def Event.time (e : Event) : Option UInt64 :=
  match e.publication with
  | .refresh r => some r.publishedAtUnix
  | _ => none

/-- A publication without a refresh is taken for one of every repository. -/
theorem published_is_not_refreshed : ¬ ∀ (lib : Library) (content : String → List UInt8) (s : Store)
    (history : List Event) (profile : MutationProfile) (host : Architecture) (requested : List String)
    (nowUnix : UInt64), Steady lib content s → s.files.now[currentPointerName]? = none →
    SerialRun lib content s history → (history.filterMap Event.time ++ [nowUnix]).Pairwise (· ≤ ·) →
    currentMetadataIsFresh lib profile host requested nowUnix (s.publishing lib history) = .ok true →
    ∀ r ∈ selectedConfigurations profile requested, InTime lib s history nowUnix r := by
  intro h
  have hsolo : IsSolo none := .inl rfl
  obtain ⟨t, hrefreshed, -⟩ := h _ _ _ _ _ _ _ _ steady_emptyStore (by simp [emptyStore])
    (serialRun_soloRefresh hsolo) (by simp [Event.time, soloRefresh]) (fresh_soloRefresh hsolo) (pairConfig "fedora")
    (by simp [selectedConfigurations, enabled_solo])
  obtain ⟨before, e, after, r, generations, d, hsplit, hp, hgenerations, -⟩ := hrefreshed
  have he : e = soloRefresh none := by
    have hmem : e ∈ [soloRefresh none] := hsplit ▸ by simp
    exact List.mem_singleton.mp hmem
  rw [he] at hp
  cases hp
  cases hgenerations

end Dnfast.Planning
