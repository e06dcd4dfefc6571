import Dnfast.Data.Forall2
import Dnfast.Planning.LazyManifest
import Dnfast.Planning.Publisher

/-! # Taking repositories over against building them

`reuseUnchangedGenerations` is to be a shortcut: the snapshot that it makes from the current one has
to be the one that `snapshotFrom` would build, or `revalidateSnapshot` rejects it later. Record by
record the two agree on everything that the shortcut compares. What is left is the trust policy, which
the shortcut renews only for repositories that were refreshed, and the metadata, for which it trusts
the digest of the generation. -/

namespace Dnfast.Planning

open Core (InstalledInventory Architecture)

section
variable {crates : Crates} {host : Host} {json : IndexJson}
  {materialize : PlanningBytes → Except PlanningError (List UInt8)} {profile : MutationProfile}
  {current s : PlanningSnapshot} {inventory : InstalledInventory} {publishedAtUnix : UInt64}
  {hostArchitecture : Architecture} {ids : Option (List String)}
  {refreshedGenerations : List (String × String)} {configured : RepoConfig}
  {previous reused : PlanningRepository}

/-! ## The condition -/

/-- The record has the metadata of what was staged. -/
structure Staged.Describes (crates : Crates) (staged : Staged) (previous : PlanningRepository) :
    Prop where
  origin : previous.origin =
    ⟨staged.generation.origin, (crates.sha256 staged.generation.origin.asBytes).asStr⟩
  repomd : previous.repomd = .fromVerified crates staged.generation.repomd
  primary : previous.primary = .fromVerified crates staged.generation.primary
  filelists : previous.filelists = .fromVerified crates staged.generation.filelists
  fileProvides : previous.fileProvides = some staged.fileProvides
  group : previous.group = staged.auxiliary.group.map (.fromVerified crates)
  modules : previous.modules = staged.auxiliary.modules.map (.fromVerified crates)
  updateinfo : previous.updateinfo = staged.auxiliary.updateinfo.map (.fromVerified crates)

/-- The cache still holds, verified, the generation that the record was made from. -/
def CacheHolds (crates : Crates) (host : Host) (configured : RepoConfig)
    (previous : PlanningRepository) : Prop :=
  ∃ generation records auxiliary identities index fileProvides,
    openCurrentVerifiedCompleteGeneration crates host configured.id = .ok generation ∧
    host.parseRepomdRecords generation.repomd.bytes = .ok records ∧
    openAuxiliaries crates host records = .ok auxiliary ∧
    primaryIdentities host generation = .ok identities ∧
    LazyIndex.build crates (indexSource crates generation identities) = .ok (index, fileProvides) ∧
    ∀ trust bundle,
      (Staged.mk generation auxiliary trust bundle index fileProvides).Describes crates previous

/-- The repository was refreshed, or the trust policy of its record is the one of the publication. -/
def TrustCurrent (host : Host) (publishedAtUnix : UInt64)
    (refreshedGenerations : List (String × String)) (configured : RepoConfig)
    (previous : PlanningRepository) : Prop :=
  configured.id ∈ refreshedGenerations.map (·.1) ∨
    ∃ bundle, liveKeyBundle host configured = .ok bundle ∧
      trustAt configured bundle publishedAtUnix = .ok previous.trust

/-- The condition for a repository, on its record in the current snapshot. -/
def Renewable (crates : Crates) (host : Host) (publishedAtUnix : UInt64)
    (refreshedGenerations : List (String × String)) (current : PlanningSnapshot)
    (configured : RepoConfig) : Prop :=
  ∀ previous, current.payload.allowedRepositories.find? (·.id = configured.id) = some previous →
    CacheHolds crates host configured previous ∧
      TrustCurrent host publishedAtUnix refreshedGenerations configured previous

/-! ## One repository -/

theorem ite_eq_ok {ε α : Type} {c : Prop} [Decidable c] {x y : Except ε α} {a : α} :
    (if c then x else y) = .ok a ↔ (c ∧ x = .ok a) ∨ (¬ c ∧ y = .ok a) := by
  by_cases h : c <;> simp [h]

/-- Everything that was compared when a record is taken over. -/
structure TakesOver (host : Host) (publishedAtUnix : UInt64)
    (refreshedGenerations : List (String × String)) (configured : RepoConfig)
    (previous reused : PlanningRepository) (bundle : KeyBundle) (trust : Trust.RepoTrustPolicy)
    (identity : CurrentGenerationIdentity) : Prop where
  complete : checkTrustPolicy configured = .ok ()
  named : previous.id = configured.id
  priority : previous.priority = configured.priority.toUInt32
  cost : previous.cost = configured.cost
  live : liveKeyBundle host configured = .ok bundle
  trusted : trustAt configured bundle publishedAtUnix = .ok trust
  keys : previous.keys = planningKeys host bundle
  pointed : host.currentPointer configured.id = .ok identity
  taken : takenOver refreshedGenerations trust identity previous = some reused

theorem preferences_of_unchangedMetadata
    (h : unchangedMetadata host json materialize configured previous = .ok true) :
    previous.priority = configured.priority.toUInt32 ∧ previous.cost = configured.cost := by
  simp only [unchangedMetadata, Except.bind_eq_ok] at h
  obtain ⟨repomd, -, records, -, h⟩ := h
  rcases ite_eq_ok.mp h with ⟨-, h⟩ | ⟨h, -⟩
  · cases h
  · simp only [not_or, not_not] at h
    exact ⟨h.2.2.2.1, h.2.2.2.2⟩

theorem unchangedMetadata_of {host : Host} {json : IndexJson}
    {materialize : PlanningBytes → Except PlanningError (List UInt8)} {configured : RepoConfig}
    {previous : PlanningRepository} {repomd manifest : List UInt8} {records : RepomdRecords}
    {descriptor : PlanningBytes} (hrepomd : materialize previous.repomd = .ok repomd)
    (hrecords : host.parseRepomdRecords repomd = .ok records)
    (hauxiliary : auxiliaryDescriptorMatches records.group previous.group = true ∧
      auxiliaryDescriptorMatches records.modules previous.modules = true ∧
      auxiliaryDescriptorMatches records.updateinfo previous.updateinfo = true)
    (hpriority : previous.priority = configured.priority.toUInt32)
    (hcost : previous.cost = configured.cost) (hindex : previous.fileProvides = some descriptor)
    (hmanifest : materialize descriptor = .ok manifest)
    (hvalid : currentIndexValid json previous manifest = .ok true) :
    unchangedMetadata host json materialize configured previous = .ok true := by
  rw [unchangedMetadata, hrepomd, liftRun, Except.mapError_ok, Except.ok_bind, hrecords,
    Except.mapError_ok, Except.ok_bind]
  refine ite_eq_ok.mpr (.inr ⟨by simp [hauxiliary, hpriority, hcost], ?_⟩)
  rw [hindex]
  simp only [hmanifest, liftRun, Except.mapError_ok, Except.ok_bind, hvalid]

theorem takesOver_of_reuseRepository
    (h : reuseRepository host json materialize current publishedAtUnix refreshedGenerations
      configured = .ok (some reused)) :
    ∃ previous bundle trust identity,
      current.payload.allowedRepositories.find? (·.id = configured.id) = some previous ∧
        TakesOver host publishedAtUnix refreshedGenerations configured previous reused bundle trust
          identity := by
  simp only [reuseRepository, Except.bind_eq_ok] at h
  obtain ⟨_, hcomplete, h⟩ := h
  cases hfind : current.payload.allowedRepositories.find? (·.id = configured.id) with
  | none =>
    rw [hfind] at h
    cases h
  | some previous =>
    rw [hfind] at h
    obtain ⟨unchanged, hunchanged, h⟩ := Except.bind_eq_ok.mp h
    rcases ite_eq_ok.mp h with ⟨-, h⟩ | ⟨hneg, h⟩
    · cases h
    · have htrue : unchanged = true := by simpa using hneg
      subst htrue
      obtain ⟨bundle, hbundle, h⟩ := Except.bind_eq_ok.mp h
      obtain ⟨trust, htrust, h⟩ := Except.bind_eq_ok.mp h
      rcases ite_eq_ok.mp h with ⟨-, h⟩ | ⟨hkeys, h⟩
      · cases h
      · obtain ⟨identity, hidentity, h⟩ := Except.bind_eq_ok.mp h
        obtain ⟨hpriority, hcost⟩ := preferences_of_unchangedMetadata hunchanged
        refine ⟨previous, bundle, trust, identity, rfl, ?_⟩
        exact {
          complete := hcomplete
          named := by simpa using List.find?_some hfind
          priority := hpriority
          cost := hcost
          live := hbundle
          trusted := htrust
          keys := not_not.mp hkeys
          pointed := Except.mapError_eq_ok.mp hidentity
          taken := Except.pure_eq_ok.mp h }

/-- What a record that is taken over keeps, and what it gets anew. -/
theorem takenOver_eq_some {trust : Trust.RepoTrustPolicy} {identity : CurrentGenerationIdentity}
    (h : takenOver refreshedGenerations trust identity previous = some reused) :
    previous.generationSha256 = identity.digest ∧
      reused = { previous with
        trust := if previous.id ∈ refreshedGenerations.map (·.1) then trust else previous.trust
        repomdAuthentication := identity.repomdAuthentication } := by
  unfold takenOver at h
  split at h
  · cases h
  next hdigest =>
    refine ⟨not_not.mp hdigest, ?_⟩
    split at h
    next hfind =>
      have hmem : previous.id ∈ refreshedGenerations.map (·.1) := by
        have hid := List.find?_some hfind
        exact List.mem_map.mpr ⟨_, List.mem_of_find?_eq_some hfind, of_decide_eq_true hid⟩
      split at h
      · rw [if_pos hmem, ← Option.some.inj h]
      · cases h
    next hfind =>
      have hmem : previous.id ∉ refreshedGenerations.map (·.1) := by
        intro hmem
        obtain ⟨pair, hpair, hid⟩ := List.mem_map.mp hmem
        exact absurd hid (by simpa using List.find?_eq_none.mp hfind pair hpair)
      split at h
      next hauthentication =>
        rw [if_neg hmem, ← Option.some.inj h, ← hauthentication]
      · cases h

/-- What `repository_payload` has done when it succeeds. -/
theorem stageRepository_eq_ok {staged : Staged} :
    stageRepository crates host configured publishedAtUnix = .ok staged ↔
      checkTrustPolicy configured = .ok () ∧ liveKeyBundle host configured = .ok staged.bundle ∧
      trustAt configured staged.bundle publishedAtUnix = .ok staged.trust ∧
      openCurrentVerifiedCompleteGeneration crates host configured.id = .ok staged.generation ∧
      ∃ records identities,
        host.parseRepomdRecords staged.generation.repomd.bytes = .ok records ∧
        openAuxiliaries crates host records = .ok staged.auxiliary ∧
        primaryIdentities host staged.generation = .ok identities ∧
        LazyIndex.build crates (indexSource crates staged.generation identities) =
          .ok (staged.index, staged.fileProvides) := by
  simp only [stageRepository, Except.bind_eq_ok, Except.pure_eq_ok, Except.mapError_eq_ok]
  constructor
  · rintro ⟨_, hcomplete, bundle, hbundle, trust, htrust, generation, hgeneration, records, hrecords,
      auxiliary, hauxiliary, identities, hidentities, ⟨index, fileProvides⟩, hindex, rfl⟩
    exact ⟨hcomplete, hbundle, htrust, hgeneration, records, identities, hrecords, hauxiliary,
      hidentities, hindex⟩
  · rintro ⟨hcomplete, hbundle, htrust, hgeneration, records, identities, hrecords, hauxiliary,
      hidentities, hindex⟩
    exact ⟨_, hcomplete, _, hbundle, _, htrust, _, hgeneration, records, hrecords, _, hauxiliary,
      identities, hidentities, _, hindex, rfl⟩

theorem openCurrent_eq_ok {id : String} {generation : VerifiedCompleteGeneration}
    {identity : CurrentGenerationIdentity} (hidentity : host.currentPointer id = .ok identity)
    (h : openCurrentVerifiedCompleteGeneration crates host id = .ok generation) :
    generation.digest = identity.digest ∧ generation.repository = id ∧
      generation.repomdAuthentication = identity.repomdAuthentication := by
  simp only [openCurrentVerifiedCompleteGeneration, openVerifiedCompleteGeneration, hidentity,
    Except.bind_eq_ok, Except.pure_eq_ok, Except.mapError_eq_ok, Except.refuseIf_eq_ok, not_not,
    Except.ok.injEq] at h
  obtain ⟨pointer, rfl, opened, ⟨object, -, _, -, rfl⟩, _, hrepository, rfl⟩ := h
  exact ⟨rfl, hrepository, rfl⟩

/-- Of the fields of a record, those that are not compared decide whether building the repository
gives the record that is taken over. -/
theorem repositoryPayload_eq_reused {bundle : KeyBundle} {trust : Trust.RepoTrustPolicy}
    {identity : CurrentGenerationIdentity} {staged : Staged}
    (h : TakesOver host publishedAtUnix refreshedGenerations configured previous reused bundle trust
      identity)
    (hstaged : stageRepository crates host configured publishedAtUnix = .ok staged) :
    staged.repository crates host configured = reused ↔ staged.Describes crates previous ∧
      (configured.id ∈ refreshedGenerations.map (·.1) ∨ previous.trust = trust) := by
  obtain ⟨-, hbundle, htrust, hgeneration, -⟩ := stageRepository_eq_ok.mp hstaged
  rw [Except.ok.inj (hbundle.symm.trans h.live)] at htrust
  have hsame : staged.trust = trust := Except.ok.inj (htrust.symm.trans h.trusted)
  obtain ⟨hdigest, -, hauthentication⟩ := openCurrent_eq_ok h.pointed hgeneration
  obtain ⟨hpointed, rfl⟩ := takenOver_eq_some h.taken
  have hkeys : planningKeys host staged.bundle = previous.keys := by
    rw [Except.ok.inj (hbundle.symm.trans h.live), h.keys]
  rw [← h.named]
  constructor
  · intro heq
    simp only [Staged.repository, PlanningRepository.mk.injEq] at heq
    obtain ⟨-, -, -, -, horigin, hrepomd, hprimary, hfilelists, hfileProvides, hgroup, hmodules,
      hupdateinfo, htrust, -, -⟩ := heq
    refine ⟨⟨horigin.symm, hrepomd.symm, hprimary.symm, hfilelists.symm, hfileProvides.symm,
      hgroup.symm, hmodules.symm, hupdateinfo.symm⟩, ?_⟩
    by_cases hmem : previous.id ∈ refreshedGenerations.map (·.1)
    · exact .inl hmem
    · rw [if_neg hmem, hsame] at htrust
      exact .inr htrust.symm
  · rintro ⟨hdescribes, hrenewed⟩
    simp only [Staged.repository, PlanningRepository.mk.injEq]
    refine ⟨h.named.symm, h.priority.symm, h.cost.symm, hdigest.trans hpointed.symm,
      hdescribes.origin.symm, hdescribes.repomd.symm, hdescribes.primary.symm,
      hdescribes.filelists.symm, hdescribes.fileProvides.symm, hdescribes.group.symm,
      hdescribes.modules.symm, hdescribes.updateinfo.symm, ?_, hkeys, hauthentication⟩
    rw [hsame]
    split
    · rfl
    next hmem => exact (hrenewed.resolve_left hmem).symm

theorem repositoryPayload_eq_ok {r : PlanningRepository} :
    repositoryPayload crates host publishedAtUnix configured = .ok r ↔
      ∃ staged, stageRepository crates host configured publishedAtUnix = .ok staged ∧
        staged.generation.repository = configured.id ∧ staged.repository crates host configured = r := by
  simp only [repositoryPayload, finishRepository, Except.bind_eq_ok, Except.refuseIf_eq_ok,
    Except.pure_eq_ok, not_not]
  constructor
  · rintro ⟨staged, hstaged, _, hrepository, rfl⟩
    exact ⟨staged, hstaged, hrepository, rfl⟩
  · rintro ⟨staged, hstaged, hrepository, rfl⟩
    exact ⟨staged, hstaged, (), hrepository, rfl⟩

/-- Building a repository gives the record that was taken over exactly when the repository is
renewable. -/
theorem repositoryPayload_eq_ok_iff
    (h : reuseRepository host json materialize current publishedAtUnix refreshedGenerations
      configured = .ok (some reused)) :
    repositoryPayload crates host publishedAtUnix configured = .ok reused ↔
      Renewable crates host publishedAtUnix refreshedGenerations current configured := by
  obtain ⟨previous, bundle, trust, identity, hfind, htakes⟩ := takesOver_of_reuseRepository h
  rw [repositoryPayload_eq_ok]
  constructor
  · rintro ⟨staged, hstaged, -, hreused⟩ previous' hfind'
    obtain rfl := Option.some.inj (hfind.symm.trans hfind')
    obtain ⟨hdescribes, hrenewed⟩ := (repositoryPayload_eq_reused htakes hstaged).mp hreused
    obtain ⟨-, -, -, hgeneration, records, identities, hrecords, hauxiliary, hidentities, hindex⟩ :=
      stageRepository_eq_ok.mp hstaged
    refine ⟨⟨_, records, _, identities, _, _, hgeneration, hrecords, hauxiliary, hidentities, hindex,
      fun _ _ => { hdescribes with }⟩, hrenewed.imp_right fun htrust => ?_⟩
    exact ⟨bundle, htakes.live, htrust ▸ htakes.trusted⟩
  · intro hrenewable
    obtain ⟨⟨generation, records, auxiliary, identities, index, fileProvides, hgeneration, hrecords,
      hauxiliary, hidentities, hindex, hdescribes⟩, hrenewed⟩ := hrenewable previous hfind
    have hstaged : stageRepository crates host configured publishedAtUnix =
        .ok ⟨generation, auxiliary, trust, bundle, index, fileProvides⟩ :=
      stageRepository_eq_ok.mpr ⟨htakes.complete, htakes.live, htakes.trusted, hgeneration, records,
        identities, hrecords, hauxiliary, hidentities, hindex⟩
    refine ⟨_, hstaged, (openCurrent_eq_ok htakes.pointed hgeneration).2.1, ?_⟩
    refine (repositoryPayload_eq_reused htakes hstaged).mpr ⟨hdescribes trust bundle, ?_⟩
    rcases hrenewed with hmem | ⟨bundle', hbundle', htrust'⟩
    · exact .inl hmem
    · rw [Except.ok.inj (hbundle'.symm.trans htakes.live)] at htrust'
      exact .inr (Except.ok.inj (htrust'.symm.trans htakes.trusted))

/-! ## The snapshot -/

theorem forall₂_of_reuseRepositories {enabled : List RepoConfig} {rs : List PlanningRepository}
    (h : reuseRepositories host json materialize current publishedAtUnix refreshedGenerations enabled =
      .ok (some rs)) :
    List.Forall₂ (fun configured reused => reuseRepository host json materialize current
      publishedAtUnix refreshedGenerations configured = .ok (some reused)) enabled rs := by
  induction enabled generalizing rs with
  | nil =>
    cases h
    exact .nil
  | cons configured enabled ih =>
    obtain ⟨o, hfirst, h⟩ := Except.bind_eq_ok.mp h
    cases o with
    | none => cases h
    | some reused =>
      obtain ⟨others, hothers, h⟩ := Except.bind_eq_ok.mp h
      cases others with
      | none => cases h
      | some rest =>
        cases h
        exact .cons hfirst (ih hothers)

theorem forall₂_iff_forall {α β : Type} {R S : α → β → Prop} {p : α → Prop} {l : List α}
    {l' : List β} (h : List.Forall₂ R l l') (hiff : ∀ a b, R a b → (S a b ↔ p a)) :
    List.Forall₂ S l l' ↔ ∀ a ∈ l, p a := by
  induction h with
  | nil => simp
  | cons hr _ ih => rw [List.forall₂_cons, ih, hiff _ _ hr, List.forall_mem_cons]

theorem newSnapshot_eq_ok {payload : PlanningPayload} :
    newSnapshot crates publishedAtUnix ids payload = .ok s ↔
      s = ⟨snapshotSchemaVersion, publishedAtUnix,
        ids.getD (payload.allowedRepositories.map (·.id)), payload⟩ ∧ s.validate crates = .ok () := by
  have hnew : ∀ ids : List String, liftRun (PlanningSnapshot.newWithRefreshedRepositories crates
      publishedAtUnix ids payload) = .ok s ↔
        s = ⟨snapshotSchemaVersion, publishedAtUnix, ids, payload⟩ ∧ s.validate crates = .ok () := by
    intro ids
    simp only [liftRun, PlanningSnapshot.newWithRefreshedRepositories, Except.mapError_eq_ok,
      Except.bind_eq_ok, Except.pure_eq_ok]
    constructor
    · rintro ⟨_, hvalid, rfl⟩
      exact ⟨rfl, hvalid⟩
    · rintro ⟨rfl, hvalid⟩
      exact ⟨_, hvalid, rfl⟩
  cases ids with
  | none => exact hnew _
  | some ids => exact hnew ids

/-- A snapshot is as valid under all of its repositories as under some of them. -/
theorem validate_all {schema : UInt32} {ids : List String} {payload : PlanningPayload}
    (h : PlanningSnapshot.validate crates ⟨schema, publishedAtUnix, ids, payload⟩ = .ok ()) :
    PlanningSnapshot.validate crates
      ⟨schema, publishedAtUnix, payload.allowedRepositories.map (·.id), payload⟩ = .ok () := by
  simp only [PlanningSnapshot.validate, Except.check_bind_eq_ok, Except.refuseIf_eq_ok,
    not_or, not_not] at h ⊢
  obtain ⟨hschema, ⟨hsome, -, -, hchain, hconfiguration⟩, hrest⟩ := h
  refine ⟨hschema, ⟨hsome, ?_, List.Subset.refl _, hchain, hconfiguration⟩, hrest⟩
  rwa [List.isChain_map]

theorem exists_newSnapshot_none {payload : PlanningPayload}
    (h : newSnapshot crates publishedAtUnix ids payload = .ok s) :
    ∃ s', newSnapshot crates publishedAtUnix none payload = .ok s' ∧ s'.payload = payload := by
  obtain ⟨rfl, hvalid⟩ := newSnapshot_eq_ok.mp h
  exact ⟨_, newSnapshot_eq_ok.mpr ⟨rfl, validate_all hvalid⟩, rfl⟩

theorem snapshotFrom_eq_ok {hostState : SnapshotHostState} :
    snapshotFrom crates host profile hostState publishedAtUnix hostArchitecture ids = .ok s ↔
      ∃ configuration policy repositories, normalizedConfiguration profile = .ok configuration ∧
        planningPolicy profile hostArchitecture = .ok policy ∧
        (enabledRepositories profile).mapM (repositoryPayload crates host publishedAtUnix) =
          .ok repositories ∧
        newSnapshot crates publishedAtUnix ids ⟨policy, hostState.inventory, repositories,
          configuration, hostState.moduleState⟩ = .ok s := by
  simp only [snapshotFrom, Except.bind_eq_ok]
  constructor
  · rintro ⟨configuration, hconfiguration, policy, hpolicy, repositories, hrepositories, hnew⟩
    exact ⟨configuration, policy, repositories, hconfiguration, hpolicy, hrepositories, hnew⟩
  · rintro ⟨configuration, policy, repositories, hconfiguration, hpolicy, hrepositories, hnew⟩
    exact ⟨configuration, hconfiguration, policy, hpolicy, repositories, hrepositories, hnew⟩

/-- A snapshot that is built passes revalidation as long as the host stays as it is. -/
theorem revalidateSnapshot_of_snapshotFrom {hostState : SnapshotHostState}
    (h : snapshotFrom crates host profile hostState publishedAtUnix hostArchitecture ids = .ok s) :
    revalidateSnapshot crates host profile hostArchitecture (.ok s) s = .ok () := by
  obtain ⟨configuration, policy, repositories, hconfiguration, hpolicy, hrepositories, hnew⟩ :=
    snapshotFrom_eq_ok.mp h
  obtain ⟨s', hnew', hpayload⟩ := exists_newSnapshot_none hnew
  obtain ⟨rfl, -⟩ := newSnapshot_eq_ok.mp hnew
  have hagain := snapshotFrom_eq_ok.mpr
    ⟨configuration, policy, repositories, hconfiguration, hpolicy, hrepositories, hnew'⟩
  rw [revalidateSnapshot, hagain]
  simp only [Except.ok_bind, requireSameSourcePayload, requireCurrentSnapshot, LazyIndex.refuse,
    hpayload, Except.check_bind_eq_ok, Except.refuseIf_eq_ok, ne_eq, not_true_eq_false, not_false_eq_true,
    and_self]

/-- What `reuse_unchanged_generations` has found when it makes a snapshot. -/
theorem reuse_eq_some (h : reuseUnchangedGenerations crates host json materialize profile current
      inventory publishedAtUnix hostArchitecture ids refreshedGenerations = .ok (some s)) :
    ∃ configuration policy repositories, normalizedConfiguration profile = .ok configuration ∧
      planningPolicy profile hostArchitecture = .ok policy ∧
      reuseRepositories host json materialize current publishedAtUnix refreshedGenerations
        (enabledRepositories profile) = .ok (some repositories) ∧
      newSnapshot crates publishedAtUnix ids ⟨policy, inventory, repositories, configuration,
        current.payload.moduleState⟩ = .ok s := by
  unfold reuseUnchangedGenerations at h
  rcases ite_eq_ok.mp h with ⟨-, h⟩ | ⟨-, h⟩
  · cases h
  obtain ⟨configuration, hconfiguration, h⟩ := Except.bind_eq_ok.mp h
  rcases ite_eq_ok.mp h with ⟨-, h⟩ | ⟨-, h⟩
  · cases h
  obtain ⟨policy, hpolicy, h⟩ := Except.bind_eq_ok.mp h
  rcases ite_eq_ok.mp h with ⟨-, h⟩ | ⟨-, h⟩
  · cases h
  obtain ⟨o, hrepositories, h⟩ := Except.bind_eq_ok.mp h
  cases o with
  | none => cases h
  | some repositories =>
    obtain ⟨_, -, h⟩ := Except.bind_eq_ok.mp h
    obtain ⟨s', hnew, h⟩ := Except.bind_eq_ok.mp h
    cases h
    exact ⟨configuration, policy, repositories, hconfiguration, hpolicy, hrepositories, hnew⟩

theorem reuse_of {repositories : List PlanningRepository}
    (hschema : current.schemaVersion = snapshotSchemaVersion)
    (hconfiguration : normalizedConfiguration profile = .ok current.payload.configuration)
    (hpolicy : planningPolicy profile hostArchitecture = .ok current.payload.policy)
    (hlength : current.payload.allowedRepositories.length = (enabledRepositories profile).length)
    (hrepositories : reuseRepositories host json materialize current publishedAtUnix
      refreshedGenerations (enabledRepositories profile) = .ok (some repositories))
    (hnew : newSnapshot crates publishedAtUnix (some (refreshedGenerations.map (·.1)))
      ⟨current.payload.policy, inventory, repositories, current.payload.configuration,
        current.payload.moduleState⟩ = .ok s) :
    reuseUnchangedGenerations crates host json materialize profile current inventory publishedAtUnix
      hostArchitecture (some (refreshedGenerations.map (·.1))) refreshedGenerations = .ok (some s) := by
  have hrefuse : LazyIndex.refuse (some (refreshedGenerations.map (·.1)) ≠
      some (refreshedGenerations.map (·.1)))
        "verified refresh identities differ from repository selection" = .ok () :=
    Except.refuseIf_eq_ok.mpr fun h => h rfl
  rw [reuseUnchangedGenerations, if_neg (not_not.mpr hschema), hconfiguration, Except.ok_bind,
    if_neg (not_not.mpr rfl), hpolicy, Except.ok_bind,
    if_neg (not_or.mpr ⟨not_not.mpr rfl, not_not.mpr hlength⟩), hrepositories, Except.ok_bind]
  dsimp only
  rw [hrefuse, Except.ok_bind, hnew]
  rfl

/-- Building the repositories of the profile gives those that were taken over exactly when all of them
are renewable. -/
theorem mapM_repositoryPayload_iff {repositories : List PlanningRepository}
    (h : reuseRepositories host json materialize current publishedAtUnix refreshedGenerations
      (enabledRepositories profile) = .ok (some repositories)) :
    (enabledRepositories profile).mapM (repositoryPayload crates host publishedAtUnix) =
        .ok repositories ↔
      ∀ configured ∈ enabledRepositories profile,
        Renewable crates host publishedAtUnix refreshedGenerations current configured := by
  rw [Except.mapM_eq_ok]
  exact forall₂_iff_forall (forall₂_of_reuseRepositories h) fun _ _ => repositoryPayload_eq_ok_iff

/-- A snapshot made by taking repositories over is the one that would be built, and passes
revalidation, exactly when every enabled repository is renewable: it was refreshed or carries the
trust policy of this publication, and the cache still holds the generation of its record. A snapshot
that was built passes in any case. -/
theorem reuse_unchanged_generations_iff
    (h : reuseUnchangedGenerations crates host json materialize profile current inventory
      publishedAtUnix hostArchitecture ids refreshedGenerations = .ok (some s)) :
    ((∃ s', snapshotFrom crates host profile ⟨inventory, current.payload.moduleState⟩
          publishedAtUnix hostArchitecture ids = .ok s' ∧ s'.payload = s.payload) ↔
        ∀ configured ∈ enabledRepositories profile,
          Renewable crates host publishedAtUnix refreshedGenerations current configured) ∧
      (revalidateSnapshot crates host profile hostArchitecture (.ok s) s = .ok () ↔
        ∀ configured ∈ enabledRepositories profile,
          Renewable crates host publishedAtUnix refreshedGenerations current configured) ∧
      ∀ s', snapshotFrom crates host profile ⟨inventory, current.payload.moduleState⟩
          publishedAtUnix hostArchitecture ids = .ok s' →
        revalidateSnapshot crates host profile hostArchitecture (.ok s') s' = .ok () := by
  obtain ⟨configuration, policy, repositories, hconfiguration, hpolicy, hrepositories, hnew⟩ :=
    reuse_eq_some h
  obtain ⟨hs, -⟩ := newSnapshot_eq_ok.mp hnew
  have hsame : ∀ {ids' s'}, snapshotFrom crates host profile
      ⟨inventory, current.payload.moduleState⟩ publishedAtUnix hostArchitecture ids' = .ok s' →
      s'.payload = s.payload →
      (enabledRepositories profile).mapM (repositoryPayload crates host publishedAtUnix) =
        .ok repositories := by
    intro ids' s' hfrom hpayload
    obtain ⟨_, _, repositories', -, -, hbuilt, hnew'⟩ := snapshotFrom_eq_ok.mp hfrom
    obtain ⟨rfl, -⟩ := newSnapshot_eq_ok.mp hnew'
    subst hs
    simp only [PlanningPayload.mk.injEq] at hpayload
    rw [hbuilt, hpayload.2.2.1]
  have hrebuilt : (∀ configured ∈ enabledRepositories profile,
      Renewable crates host publishedAtUnix refreshedGenerations current configured) →
      snapshotFrom crates host profile ⟨inventory, current.payload.moduleState⟩ publishedAtUnix
        hostArchitecture ids = .ok s := by
    intro hrenewable
    have hbuilt := (mapM_repositoryPayload_iff hrepositories).mpr hrenewable
    exact snapshotFrom_eq_ok.mpr
      ⟨configuration, policy, repositories, hconfiguration, hpolicy, hbuilt, hnew⟩
  refine ⟨⟨?_, ?_⟩, ⟨?_, ?_⟩, fun s' => revalidateSnapshot_of_snapshotFrom⟩
  · rintro ⟨s', hfrom, hpayload⟩
    exact (mapM_repositoryPayload_iff hrepositories).mp (hsame hfrom hpayload)
  · intro hrenewable
    exact ⟨s, hrebuilt hrenewable, rfl⟩
  · intro hvalid
    obtain ⟨s', hfrom, hrest⟩ := Except.bind_eq_ok.mp hvalid
    obtain ⟨_, hpayload, -⟩ := Except.bind_eq_ok.mp hrest
    have hpayload' : s'.payload = s.payload := (not_not.mp (Except.refuseIf_eq_ok.mp hpayload)).symm
    subst hs
    exact (mapM_repositoryPayload_iff hrepositories).mp (hsame hfrom hpayload')
  · intro hrenewable
    exact revalidateSnapshot_of_snapshotFrom (hrebuilt hrenewable)

end

/-! ## Two repositories, one of them refreshed -/

def packageSha256 : String := "bc4a71180870f7945155fbb02f4b0a2e3faa2a62d6d31b7039013055ed19869a"

def pairBundle : Core.Sha256Digest := fedoraBundle

/-- The index of one package without files. -/
def pairIndex : List UInt8 :=
  lazyBinaryV3Magic ++
    LazyIndex.hexDecode "986a1b7135f4986150aa5fa0028feeaa66cdaf3ed6a00a355dd86e042f7fb494".toList ++
    LazyIndex.hexDecode "d34b6d53edfbb763dde137d3a4cb839f7699c59a730b4b3bd74f0dc7d6acf2cd".toList ++
    [0, 0, 0, 1] ++ [0, 0, 0, 0, 0, 0, 0, 0] ++ LazyIndex.hexDecode packageSha256.toList ++ [0, 0, 0, 0]

/-- The digests of the texts below. -/
def pairHashes : List (List UInt8 × Core.Sha256Digest) := [
  ("repomd-f".asBytes,
    ⟨"2abe34bb8d1ac922233d4d5fc4da1a37057ae534d0431910ed612073ede88c06",
      Core.isLowerDigest_ofList (by decide)⟩),
  ("repomd-u".asBytes,
    ⟨"d6af02fd7884880ede1f8fdbe322fb153ebd7353e79aa7a224aeea7437bc2808",
      Core.isLowerDigest_ofList (by decide)⟩),
  ("primary".asBytes,
    ⟨"986a1b7135f4986150aa5fa0028feeaa66cdaf3ed6a00a355dd86e042f7fb494", Core.isLowerDigest_primary⟩),
  ("filelists".asBytes,
    ⟨"d34b6d53edfbb763dde137d3a4cb839f7699c59a730b4b3bd74f0dc7d6acf2cd", Core.isLowerDigest_filelists⟩),
  ("https://d/f/repodata/repomd.xml".asBytes,
    ⟨"81aced04e358eb3444b7729bbaa6af17a5f63b5426b161a4efbc3d5e421f31ed", isLowerDigest_fedoraUrl⟩),
  ("https://d/u/repodata/repomd.xml".asBytes,
    ⟨"adc4ee7ecfd7dda9165330153a8cb154dadada0eaaa02498312e2a7f6a3421de",
      Core.isLowerDigest_ofList (by decide)⟩),
  (pairIndex, ⟨"9e6d749279c27448b1e88294a45081bcd79e148ec6f30f61eba0610bb7c4fed5",
    Core.isLowerDigest_ofList (by decide)⟩)]

def pairCrates : Crates where
  sha256 bytes := (pairHashes.lookup bytes).getD pairBundle
  base64Decode _ := some "key".asBytes
  urlParse url := some ⟨"https", some "d", "", none, none, none, url⟩

def pairText (s : String) (h : s.asBytes.length < 2 ^ 63) : VerifiedBytes := ⟨s.asBytes, h⟩

def pairObject (id origin repomd : String) (h : repomd.asBytes.length < 2 ^ 63) : CacheObject where
  repository := id
  origin := origin
  repomd := pairText repomd h
  primary := pairText "primary" (by decide)
  filelists := pairText "filelists" (by decide)
  primaryIdentities := some [⟨packageSha256, "package", "noarch", "0", "1", "1"⟩]
  primaryFiles := some []

def fedoraGeneration : String := "2abe34bb8d1ac922233d4d5fc4da1a37057ae534d0431910ed612073ede88c06"
def updatesGeneration : String := "d6af02fd7884880ede1f8fdbe322fb153ebd7353e79aa7a224aeea7437bc2808"

def pairHost : Host where
  keyBundleDigest _ paths := .ok ⟨paths, pairBundle, ["key".asBytes]⟩
  currentPointer id :=
    .ok ⟨if id = "fedora" then fedoraGeneration else updatesGeneration, .transportOnly⟩
  object digest :=
    if digest = fedoraGeneration then
      .ok (pairObject "fedora" "https://d/f/repodata/repomd.xml" "repomd-f" (by decide))
    else .ok (pairObject "updates" "https://d/u/repodata/repomd.xml" "repomd-u" (by decide))
  auxiliary _ := .error "missing"
  parseRepomdRecords _ := .ok ⟨none, none, none⟩
  validatePrimaryRecord _ _ := .ok []
  base64Encode _ := "a2V5"

def pairConfig (id : String) : RepoConfig where
  id := id
  enabled := true
  baseurl := []
  metalink := none
  mirrorlist := none
  priority := 99
  cost := 1000
  metadataExpire := .afterSeconds 172800
  sslverify := true
  gpgcheck := true
  pkgGpgcheck := true
  repoGpgcheck := false
  excludepkgs := []
  includepkgs := []
  gpgkey := ["/etc/pki/rpm-gpg/f"]
  allowedFingerprints := ["AAAAAAAAAAAAAAAAAAAAAAAAAAAAAAAAAAAAAAAA"]
  keyBundleDigest := some pairBundle

def pairProfile : MutationProfile where
  main := ⟨true, false, [], [], ["rpm"], [], 3⟩
  repositories := [pairConfig "fedora", pairConfig "updates"]

def pairTrust (id : String) (h : id ≠ "") (validAtUnix : UInt64) : Trust.RepoTrustPolicy :=
  keyTrust id h pairBundle validAtUnix

def pairRepository (id : String) (h : id ≠ "") (generation : String) (origin : PlanningOrigin)
    (validAtUnix : UInt64) : PlanningRepository where
  id := id
  priority := 99
  cost := 1000
  generationSha256 := generation
  origin := origin
  repomd := ⟨generation, 8, ""⟩
  primary := ⟨"986a1b7135f4986150aa5fa0028feeaa66cdaf3ed6a00a355dd86e042f7fb494", 7, ""⟩
  filelists := ⟨"d34b6d53edfbb763dde137d3a4cb839f7699c59a730b4b3bd74f0dc7d6acf2cd", 9, ""⟩
  fileProvides := some ⟨"9e6d749279c27448b1e88294a45081bcd79e148ec6f30f61eba0610bb7c4fed5", 130, ""⟩
  group := none
  modules := none
  updateinfo := none
  trust := pairTrust id h validAtUnix
  keys := [⟨"/etc/pki/rpm-gpg/f", "a2V5"⟩]
  repomdAuthentication := .transportOnly

def pairInventory : InstalledInventory := Core.emptyInventory "4.20" (by decide)

/-- A snapshot of the two repositories, with the times of their trust policies. -/
def pairSnapshot (publishedAtUnix : UInt64) (ids : List String) (fedora updates : UInt64) :
    PlanningSnapshot where
  schemaVersion := 7
  publishedAtUnix := publishedAtUnix
  refreshedRepositoryIds := ids
  payload := {
    policy := ⟨{ Core.SolverPolicy.fedora44 .x86_64 ["rpm"] [] with
      repoPreferences := [⟨99, 1000, "fedora"⟩, ⟨99, 1000, "updates"⟩] }, [], 3⟩
    inventory := pairInventory
    allowedRepositories := [
      pairRepository "fedora" Core.fedora_ne_empty fedoraGeneration ⟨"https://d/f/repodata/repomd.xml",
        "81aced04e358eb3444b7729bbaa6af17a5f63b5426b161a4efbc3d5e421f31ed"⟩ fedora,
      pairRepository "updates" Core.updates_ne_empty updatesGeneration ⟨"https://d/u/repodata/repomd.xml",
        "adc4ee7ecfd7dda9165330153a8cb154dadada0eaaa02498312e2a7f6a3421de"⟩ updates]
    configuration := [configurationOf (pairConfig "fedora"), configurationOf (pairConfig "updates")]
    moduleState := ⟨[]⟩ }

/-- The blobs of the snapshot. -/
def pairMaterialize (d : PlanningBytes) : Except PlanningError (List UInt8) :=
  if d.sha256 = fedoraGeneration then .ok "repomd-f".asBytes
  else if d.sha256 = updatesGeneration then .ok "repomd-u".asBytes
  else .ok pairIndex

def noJson : IndexJson :=
  ⟨fun _ => .error "", fun _ => .error "", fun _ => [], fun _ => .error "", fun _ => []⟩

theorem isLowerDigest_fedoraGeneration : Core.isLowerDigest fedoraGeneration = true :=
  Core.isLowerDigest_ofList (by decide)

theorem isLowerDigest_updatesGeneration : Core.isLowerDigest updatesGeneration = true :=
  Core.isLowerDigest_ofList (by decide)

theorem isLowerDigest_pairIndex :
    Core.isLowerDigest "9e6d749279c27448b1e88294a45081bcd79e148ec6f30f61eba0610bb7c4fed5" = true :=
  Core.isLowerDigest_ofList (by decide)

/-- The repository is valid when its generation is a digest and its key and its origin have the digests
that it says. -/
theorem validateRepository_pair {crates : Crates} {id generation : String} {h : id ≠ ""}
    {origin : PlanningOrigin} {validAtUnix : UInt64}
    (hgeneration : Core.isLowerDigest generation = true)
    (horigin : (crates.sha256 origin.repomdUrl.asBytes).asStr = origin.sha256 ∧
      (selectedOrigin crates origin.repomdUrl).toOption = some origin.repomdUrl)
    (hkey : (keyFrame crates id ⟨"/etc/pki/rpm-gpg/f", "a2V5"⟩).toOption.map (fun bytes =>
      (crates.sha256 ("dnfast-key-bundle-v1".asBytes ++ [bytes].flatten)).asStr) =
        some pairBundle.asStr) :
    validateRepository crates 7 (pairRepository id h generation origin validAtUnix) = .ok () := by
  obtain ⟨bytes, hbytes, hbundle⟩ := Except.toOption_map_eq_some.mp hkey
  refine validateRepository_eq_ok.mpr ⟨⟨h, rfl, rfl, List.cons_ne_nil _ _, .singleton _⟩,
    fun hold => absurd hold.1 (by decide), fun hold => absurd hold.1 (by decide), ?_, horigin.1,
    ⟨_, Except.toOption_eq_some.mp horigin.2⟩, rfl, [bytes], ?_, hbundle⟩
  · simp only [pairRepository, Option.toList_some, Option.toList_none, List.append_nil,
      List.cons_append, List.nil_append, List.forall_mem_cons, PlanningBytes.validateShape_eq_ok]
    exact ⟨⟨by decide, hgeneration, by decide⟩, ⟨by decide, Core.isLowerDigest_primary, by decide⟩,
      ⟨by decide, Core.isLowerDigest_filelists, by decide⟩,
      ⟨by decide, isLowerDigest_pairIndex, by decide⟩, List.forall_mem_nil _⟩
  · simp only [pairRepository, List.mapM_cons, List.mapM_nil, hbytes]
    rfl

theorem validate_pair : (pairSnapshot 2 ["fedora"] 2 1).validate pairCrates = .ok () := by
  refine PlanningSnapshot.validate_eq_ok.mpr ⟨by decide, by decide, ?_, rfl,
    fun hold => absurd hold.1 (by decide), ?_⟩
  · rw [← Except.toOption_eq_some]
    decide
  · simp only [pairSnapshot, List.forall_mem_cons]
    refine ⟨⟨validateRepository_pair isLowerDigest_fedoraGeneration (by decide +kernel)
      (by decide +kernel), ?_⟩, ⟨validateRepository_pair isLowerDigest_updatesGeneration
      (by decide +kernel) (by decide +kernel), ?_⟩, List.forall_mem_nil _⟩ <;>
    · rw [← Except.toOption_eq_some]
      decide +kernel

theorem enabled_pair :
    enabledRepositories pairProfile = [pairConfig "fedora", pairConfig "updates"] := by
  simp [enabledRepositories, pairProfile, pairConfig, List.insertionSort]

section
variable {id generation : String}

theorem checkTrustPolicy_pair (id : String) : checkTrustPolicy (pairConfig id) = .ok () := rfl

theorem liveKeyBundle_pair (id : String) : liveKeyBundle pairHost (pairConfig id) =
    .ok ⟨["/etc/pki/rpm-gpg/f"], pairBundle, ["key".asBytes]⟩ := by
  simp only [liveKeyBundle, pairHost, pairConfig, LazyIndex.refuse, Except.mapError_ok, Except.ok_bind]
  rfl

/-- One key is a policy as it is written. -/
theorem new_keyTrust (h : id ≠ "") (bundle : Core.Sha256Digest) (validAtUnix : UInt64) :
    RepoTrustPolicy.new id bundle ["AAAAAAAAAAAAAAAAAAAAAAAAAAAAAAAAAAAAAAAA"] .authorizedSubkeys
      validAtUnix = .ok (keyTrust id h bundle validAtUnix) := by
  have hallowed : (["AAAAAAAAAAAAAAAAAAAAAAAAAAAAAAAAAAAAAAAA"].map (·.map Char.toUpper)).insertionSort
      (· ≤ ·) = (keyTrust id h bundle validAtUnix).allowedPrimaryFingerprints := by
    simp [keyTrust, List.insertionSort, String.map_eq_internal]
  rw [RepoTrustPolicy.new]
  simp only [hallowed]
  rw [dif_neg h, dif_neg (keyTrust id h bundle validAtUnix).supplied,
    dif_pos (keyTrust id h bundle validAtUnix).ordered,
    dif_pos (keyTrust id h bundle validAtUnix).hexadecimal]
  rfl

theorem trustAt_pair (h : id ≠ "") (validAtUnix : UInt64) :
    trustAt (pairConfig id) ⟨["/etc/pki/rpm-gpg/f"], pairBundle, ["key".asBytes]⟩ validAtUnix =
      .ok (pairTrust id h validAtUnix) :=
  congrArg (fun result : Except Core.DomainError Trust.RepoTrustPolicy => liftRun (result.mapError domain))
    (new_keyTrust h pairBundle validAtUnix)

theorem isLowerDigest_packageSha256 : Core.isLowerDigest packageSha256 = true :=
  Core.isLowerDigest_ofList (by decide)

theorem validates_pairIndex : ∃ m, LazyIndex.validateLazyBinaryManifest pairIndex
    "986a1b7135f4986150aa5fa0028feeaa66cdaf3ed6a00a355dd86e042f7fb494"
    "d34b6d53edfbb763dde137d3a4cb839f7699c59a730b4b3bd74f0dc7d6acf2cd" = .ok m :=
  LazyIndex.validates_single (i := ⟨packageSha256, "package", "noarch", "0", "1", "1"⟩) pairCrates
    isLowerDigest_packageSha256 Core.isLowerDigest_primary Core.isLowerDigest_filelists

theorem lazyBinaryV3Magic_prefix : lazyBinaryV3Magic <+: pairIndex :=
  LazyIndex.lazyBinaryV3Magic_prefix_singleIndex packageSha256

theorem currentIndexValid_pair {r : PlanningRepository}
    (hprimary : r.primary.sha256 = "986a1b7135f4986150aa5fa0028feeaa66cdaf3ed6a00a355dd86e042f7fb494")
    (hfilelists : r.filelists.sha256 =
      "d34b6d53edfbb763dde137d3a4cb839f7699c59a730b4b3bd74f0dc7d6acf2cd") :
    currentIndexValid noJson r pairIndex = .ok true := by
  obtain ⟨m, hm⟩ := validates_pairIndex
  rw [currentIndexValid, if_pos (.inr lazyBinaryV3Magic_prefix), currentLazyBinary, hprimary, hfilelists, hm, Except.ok_bind,
    decide_eq_true lazyBinaryV3Magic_prefix]
  rfl

theorem unchangedMetadata_pair {h : id ≠ ""} {origin : PlanningOrigin} {validAtUnix : UInt64}
    {repomd : List UInt8} (hrepomd : pairMaterialize ⟨generation, 8, ""⟩ = .ok repomd) :
    unchangedMetadata pairHost noJson pairMaterialize (pairConfig id)
      (pairRepository id h generation origin validAtUnix) = .ok true := by
  have hindex : pairMaterialize ⟨"9e6d749279c27448b1e88294a45081bcd79e148ec6f30f61eba0610bb7c4fed5",
      130, ""⟩ = .ok pairIndex := by
    rw [pairMaterialize, if_neg (by decide), if_neg (by decide)]
  exact unchangedMetadata_of hrepomd rfl ⟨rfl, rfl, rfl⟩ rfl rfl rfl hindex
    (currentIndexValid_pair rfl rfl)

/-- A repository of the pair is taken over with the trust policy of the moment when it was refreshed,
and as it is otherwise. -/
theorem reuseRepository_pair {h : id ≠ ""} {origin : PlanningOrigin} {current : PlanningSnapshot}
    {publishedAtUnix : UInt64} {refreshed : List (String × String)} {repomd : List UInt8}
    {reused : PlanningRepository}
    (hfind : current.payload.allowedRepositories.find? (·.id = id) =
      some (pairRepository id h generation origin 1))
    (hrepomd : pairMaterialize ⟨generation, 8, ""⟩ = .ok repomd)
    (htaken : takenOver refreshed (pairTrust id h publishedAtUnix)
      ⟨if id = "fedora" then fedoraGeneration else updatesGeneration, .transportOnly⟩
      (pairRepository id h generation origin 1) = some reused) :
    reuseRepository pairHost noJson pairMaterialize current publishedAtUnix refreshed (pairConfig id) =
      .ok (some reused) := by
  have hfind' : current.payload.allowedRepositories.find? (·.id = (pairConfig id).id) =
      some (pairRepository id h generation origin 1) := hfind
  have hkeys : (pairRepository id h generation origin 1).keys =
      planningKeys pairHost ⟨["/etc/pki/rpm-gpg/f"], pairBundle, ["key".asBytes]⟩ := rfl
  simp only [reuseRepository, checkTrustPolicy_pair, Except.ok_bind, hfind',
    unchangedMetadata_pair hrepomd, liveKeyBundle_pair, trustAt_pair h, hkeys, ne_eq, not_true_eq_false,
    if_false, Bool.not_true, Bool.false_eq_true]
  exact congrArg Except.ok htaken

end

theorem reuseRepository_fedora : reuseRepository pairHost noJson pairMaterialize
    (pairSnapshot 1 ["fedora", "updates"] 1 1) 2 [("fedora", fedoraGeneration)] (pairConfig "fedora") =
      .ok (some (pairRepository "fedora" Core.fedora_ne_empty fedoraGeneration
        ⟨"https://d/f/repodata/repomd.xml",
          "81aced04e358eb3444b7729bbaa6af17a5f63b5426b161a4efbc3d5e421f31ed"⟩ 2)) := by
  refine reuseRepository_pair rfl (by rw [pairMaterialize, if_pos rfl]) ?_
  rw [if_pos rfl]
  rfl

theorem reuseRepository_updates : reuseRepository pairHost noJson pairMaterialize
    (pairSnapshot 1 ["fedora", "updates"] 1 1) 2 [("fedora", fedoraGeneration)] (pairConfig "updates") =
      .ok (some (pairRepository "updates" Core.updates_ne_empty updatesGeneration
        ⟨"https://d/u/repodata/repomd.xml",
          "adc4ee7ecfd7dda9165330153a8cb154dadada0eaaa02498312e2a7f6a3421de"⟩ 1)) := by
  refine reuseRepository_pair rfl (by rw [pairMaterialize, if_neg (by decide), if_pos rfl]) ?_
  rw [if_neg (by decide)]
  rfl

theorem reuse_pair : reuseUnchangedGenerations pairCrates pairHost noJson pairMaterialize
    pairProfile (pairSnapshot 1 ["fedora", "updates"] 1 1) pairInventory 2 .x86_64 (some ["fedora"])
    [("fedora", fedoraGeneration)] = .ok (some (pairSnapshot 2 ["fedora"] 2 1)) := by
  have hconfiguration : (normalizedConfiguration pairProfile).toOption =
      some (pairSnapshot 1 ["fedora", "updates"] 1 1).payload.configuration := by
    rfl
  have hpolicy : (planningPolicy pairProfile .x86_64).toOption =
      some (pairSnapshot 1 ["fedora", "updates"] 1 1).payload.policy := by
    decide
  have hlength : (pairSnapshot 1 ["fedora", "updates"] 1 1).payload.allowedRepositories.length =
      (enabledRepositories pairProfile).length := by
    rw [enabled_pair]
    rfl
  rw [Except.toOption_eq_some] at hconfiguration hpolicy
  refine @reuse_of _ _ _ _ _ _ _ _ _ _ _ (pairSnapshot 2 ["fedora"] 2 1).payload.allowedRepositories rfl
    hconfiguration hpolicy hlength ?_ (newSnapshot_eq_ok.mpr ⟨rfl, validate_pair⟩)
  rw [enabled_pair, reuseRepositories, reuseRepository_fedora, Except.ok_bind]
  dsimp only
  rw [reuseRepositories, reuseRepository_updates, Except.ok_bind]
  rfl

/-- The repository that was not refreshed still has the trust policy of the publication before. -/
theorem not_renewable_updates : ¬ ∀ configured ∈ enabledRepositories pairProfile,
    Renewable pairCrates pairHost 2 [("fedora", fedoraGeneration)]
      (pairSnapshot 1 ["fedora", "updates"] 1 1) configured := by
  intro h
  have hmem : pairConfig "updates" ∈ enabledRepositories pairProfile := by simp [enabled_pair]
  obtain ⟨-, hrefreshed | ⟨bundle, hbundle, htrust⟩⟩ := h _ hmem _ rfl
  · exact absurd hrefreshed (by decide)
  · have hlive : liveKeyBundle pairHost (pairConfig "updates") =
        .ok ⟨["/etc/pki/rpm-gpg/f"], pairBundle, ["key".asBytes]⟩ := liveKeyBundle_pair "updates"
    rw [← Except.ok.inj (hlive.symm.trans hbundle)] at htrust
    have hnow : trustAt (pairConfig "updates") ⟨["/etc/pki/rpm-gpg/f"], pairBundle,
        ["key".asBytes]⟩ 2 = .ok (pairTrust "updates" (by decide) 2) := trustAt_pair (by decide) 2
    have hsame := congrArg (·.validAtUnix) (Except.ok.inj (htrust.symm.trans hnow))
    exact absurd hsame (by decide)

theorem reuse_unchanged_generations_pair :
    reuseUnchangedGenerations pairCrates pairHost noJson pairMaterialize pairProfile
        (pairSnapshot 1 ["fedora", "updates"] 1 1) pairInventory 2 .x86_64 (some ["fedora"])
        [("fedora", fedoraGeneration)] = .ok (some (pairSnapshot 2 ["fedora"] 2 1)) ∧
      revalidateSnapshot pairCrates pairHost pairProfile .x86_64
        (.ok (pairSnapshot 2 ["fedora"] 2 1)) (pairSnapshot 2 ["fedora"] 2 1) ≠ .ok () :=
  ⟨reuse_pair, fun h =>
    not_renewable_updates ((reuse_unchanged_generations_iff reuse_pair).2.1.mp h)⟩

/-- A snapshot made after one of two repositories was refreshed is not the one that would be built. -/
theorem reuse_differs_from_rebuild : ¬ ∀ (crates : Crates) (host : Host) (json : IndexJson)
    (materialize : PlanningBytes → Except PlanningError (List UInt8)) (profile : MutationProfile)
    (current s : PlanningSnapshot) (inventory : InstalledInventory) (publishedAtUnix : UInt64)
    (hostArchitecture : Architecture) (ids : Option (List String))
    (refreshedGenerations : List (String × String)),
    reuseUnchangedGenerations crates host json materialize profile current inventory publishedAtUnix
      hostArchitecture ids refreshedGenerations = .ok (some s) →
    ∃ s', snapshotFrom crates host profile ⟨inventory, current.payload.moduleState⟩
      publishedAtUnix hostArchitecture ids = .ok s' ∧ s'.payload = s.payload := by
  intro h
  obtain ⟨s', hfrom, hpayload⟩ := h _ _ _ _ _ _ _ _ _ _ _ _ reuse_pair
  obtain ⟨_, _, built, -, -, hbuilt, hnew⟩ := snapshotFrom_eq_ok.mp hfrom
  obtain ⟨_, _, repositories, -, -, hrepositories, hnew'⟩ := reuse_eq_some reuse_pair
  have hsame : built = repositories := by
    have hleft := congrArg (·.payload.allowedRepositories) (newSnapshot_eq_ok.mp hnew).1
    have hright := congrArg (·.payload.allowedRepositories) (newSnapshot_eq_ok.mp hnew').1
    rw [hpayload] at hleft
    exact hleft.symm.trans hright
  rw [hsame] at hbuilt
  exact not_renewable_updates ((mapM_repositoryPayload_iff hrepositories).mp hbuilt)

end Dnfast.Planning
