import Dnfast.Cache.Kept
import Dnfast.Refresh.Orchestrator

/-! # What an attempt at a refresh leaves

An attempt with one `repomd.xml` ends with the generation it names as the current one, or it keeps what
a reader sees of the repository. The exception is `Exposed`: the pointer of a generation that is used
again is written before the files that its `repomd.xml` lists are there. -/

namespace Dnfast.Refresh

open Durable
open Cache (CacheStore CacheError CurrentPointer Kept Grows Holds)
open Metadata (AuxiliaryRecord RepomdRecords)
open Planning (RepomdAuthentication)

/-- The files besides primary and filelists. -/
def auxiliaries (records : RepomdRecords) : List AuxiliaryRecord :=
  [records.group, records.modules, records.updateinfo].filterMap id

section
variable (env : Environment)

/-- The evidence that an attempt may end with. -/
def Authenticates (metadataTrust : Option MetadataTrust) (repomd : List UInt8)
    (authentication : RepomdAuthentication) : Prop :=
  match metadataTrust with
  | none => authentication = .transportOnly
  | some trust => ∃ signature, verifyRepomd env trust signature repomd = .ok authentication

/-- The current generation is the one of this `repomd.xml`, which can be authenticated with other
evidence than the pointer has, and a file that it lists is not in the cache. -/
def Exposed (repository : String) (metadataTrust : Option MetadataTrust) (s : CacheStore) (url : String)
    (repomd : List UInt8) : Prop :=
  ∃ origin authentication records pointer snapshot,
    Planning.selectedOrigin env.cache.crates url = .ok origin ∧
    Authenticates env metadataTrust repomd authentication ∧
    env.cache.parsers.parseRepomdRecords repomd = .ok records ∧
    Cache.currentPointer env.cache s repository = .ok pointer ∧
    pointer.repomdAuthentication ≠ authentication ∧
    Cache.reusable env.cache repository repomd origin authentication s = .ok (some snapshot) ∧
    Cache.checkedRepoId env.cache s repository = .ok () ∧
    ∃ record ∈ auxiliaries records, ∀ bytes, Cache.openAuxiliary env.cache s record ≠ .ok bytes

/-- The generation of a `repomd.xml` is the current one, with evidence for it. -/
structure Refreshed (repository : String) (metadataTrust : Option MetadataTrust) (s : CacheStore)
    (url : String) (repomd : List UInt8) (digest : String) : Prop where
  digest_eq : digest = Cache.sha256 env.cache repomd
  origin : ∃ origin, Planning.selectedOrigin env.cache.crates url = .ok origin
  pointer : ∃ authentication, Authenticates env metadataTrust repomd authentication ∧
    Cache.currentPointer env.cache s repository = .ok ⟨1, digest, authentication⟩
  holds : Holds env.cache s digest

end

section
variable {env : Environment} {repository url origin : String} {metadataTrust : Option MetadataTrust}
  {repomd : List UInt8} {records : RepomdRecords} {s : RefreshState}

theorem Exposed.of_kept {s s' : CacheStore} (hkept : Kept env.cache repository s s')
    (h : Exposed env repository metadataTrust s' url repomd) :
    Exposed env repository metadataTrust s url repomd := by
  obtain ⟨origin, authentication, records, pointer, snapshot, horigin, hauthentication, hrecords,
    hpointer, hne, hreusable, hchecked, record, hrecord, hmissing⟩ := h
  exact ⟨origin, authentication, records, pointer, snapshot, horigin, hauthentication, hrecords,
    hkept.pointer ▸ hpointer, hne, hkept.reusable hreusable,
    Cache.checkedRepoId_of_grows hkept.grows hchecked, record, hrecord,
    fun bytes hopen => hmissing bytes (Cache.openAuxiliary_of_grows hkept.grows hopen)⟩

/-! ## Requests -/

theorem post_get {maximumBytes : UInt64} : (get env url maximumBytes).Post s fun r s' =>
    s'.cache = s.cache ∧ ∀ bytes, r = .ok bytes →
      env.transport s.requests url maximumBytes = .ok bytes :=
  And.intro rfl fun _ h => h

theorem post_get_cache {maximumBytes : UInt64} {c : CacheStore} (h : s.cache = c) :
    (get env url maximumBytes).Post s fun _ s' => s'.cache = c := h

theorem post_authenticate : (authenticate env metadataTrust url repomd).Post s fun r s' =>
    s'.cache = s.cache ∧ ∀ authentication, r = .ok authentication →
      Authenticates env metadataTrust repomd authentication := by
  unfold authenticate
  cases metadataTrust with
  | none =>
    refine .pure ⟨rfl, ?_⟩
    rintro _ ⟨⟩
    rfl
  | some trust =>
    refine .bind post_get (fun signature s' ⟨hsame, _⟩ => ?_) fun e s' ⟨hsame, _⟩ => ⟨hsame, nofun⟩
    refine .lift (fun authentication h => ⟨hsame, ?_⟩) fun e _ => ⟨hsame, nofun⟩
    rintro _ ⟨⟩
    exact ⟨signature, h⟩

theorem post_lift_cache {α : Type} {x : Except RefreshError α} {c : CacheStore} (h : s.cache = c) :
    (Fallible.lift x : RefreshM α).Post s fun _ s' => s'.cache = c := h

theorem post_fetchArtifacts {parallel : Bool} :
    (fetchArtifacts env parallel origin records).Post s fun _ s' => s'.cache = s.cache := by
  unfold fetchArtifacts
  refine .keeps (post_lift_cache rfl) fun primaryUrl s₁ h₁ => ?_
  refine .keeps (post_lift_cache h₁) fun filelistsUrl s₂ h₂ => ?_
  split
  · refine .keeps (.attempt (post_get_cache h₂)) fun primary s₃ h₃ => ?_
    refine .keeps (.attempt (post_get_cache h₃)) fun filelists s₄ h₄ => ?_
    exact .keeps (post_lift_cache h₄) fun _ _ h₅ => .keeps (post_lift_cache h₅) fun _ _ h₆ => h₆
  · exact .keeps (post_get_cache h₂) fun _ _ h₃ => .keeps (post_get_cache h₃) fun _ _ h₄ => h₄

/-! ## The cache -/

theorem post_onCache {α : Type} {m : Cache.Program α} {P : Outcome CacheError α → CacheStore → Prop}
    {Q : Except RefreshError α → RefreshState → Prop}
    (hm : Exec.Sat (fun _ => False) m s.cache P)
    (hok : ∀ a c, P (.ok a) c → Q (.ok a) { s with cache := c })
    (herr : ∀ e c, P (.err e) c → Q (.error (.cache (repr e).pretty)) { s with cache := c })
    (hcrashed : ∀ c, ¬ P .crashed c) : (onCache m).Post s Q := by
  have hclean := hm.clean
  unfold Fallible.Post onCache
  rcases hrun : m.clean s.cache with ⟨_ | _ | _, c⟩
  all_goals
    rw [hrun] at hclean
    simp only
  · exact hok _ c hclean
  · exact herr _ c hclean
  · exact absurd hclean (hcrashed c)

theorem post_onCache_requests {α : Type} {m : Cache.Program α} :
    (onCache m).Post s fun _ s' => s'.requests = s.requests := by
  unfold Fallible.Post onCache
  split <;> rfl

/-- Nothing but auxiliary objects is new. -/
structure OnlyAuxiliary (s s' : CacheStore) : Prop where
  objects : s'.objects = s.objects
  repos : s'.repos = s.repos
  grows : Grows s s'

theorem OnlyAuxiliary.refl {s : CacheStore} : OnlyAuxiliary s s := ⟨rfl, rfl, .refl⟩

theorem OnlyAuxiliary.trans {s s' s'' : CacheStore} (h : OnlyAuxiliary s s') (h' : OnlyAuxiliary s' s'') :
    OnlyAuxiliary s s'' :=
  ⟨h'.objects.trans h.objects, h'.repos.trans h.repos, h.grows.trans h'.grows⟩

theorem OnlyAuxiliary.kept {s s' : CacheStore} (h : OnlyAuxiliary s s') : Kept env.cache repository s s' :=
  .of_same h.objects h.repos h.grows

theorem post_fetchAuxiliary {record : AuxiliaryRecord} :
    (fetchAuxiliary env origin record).Post s fun _ s' => OnlyAuxiliary s.cache s'.cache := by
  unfold fetchAuxiliary
  refine .bind (post_lift_cache rfl) (fun auxiliaryUrl s₁ h₁ => ?_) fun _ _ h => h ▸ .refl
  refine .bind (post_get_cache h₁) (fun bytes s₂ h₂ => ?_) fun _ _ h => h ▸ .refl
  rw [← h₂]
  refine .keeps (post_onCache Cache.clean_publishAuxiliary ?_ ?_ ?_) fun _ _ h => h
  · rintro _ c ⟨hobjects, hrepos, hgrows, -⟩
    exact ⟨hobjects, hrepos, hgrows⟩
  · rintro e c ⟨hobjects, hrepos, hgrows, -⟩
    exact ⟨hobjects, hrepos, hgrows⟩
  · rintro c ⟨-, -, -, hcrashed⟩
    exact hcrashed rfl

/-- An error is about a file that was not there. -/
theorem post_ensureAuxiliary {record : Option AuxiliaryRecord} :
    (ensureAuxiliary env origin record).Post s fun r s' => OnlyAuxiliary s.cache s'.cache ∧
      ∀ e, r = .error e → ∃ r ∈ record, ∀ bytes, Cache.openAuxiliary env.cache s.cache r ≠ .ok bytes := by
  cases record with
  | none => exact .pure ⟨.refl, nofun⟩
  | some record =>
    unfold ensureAuxiliary Fallible.Post
    cases hopen : Cache.openAuxiliary env.cache s.cache record with
    | ok bytes => simpa only [hopen] using And.intro (OnlyAuxiliary.refl (s := s.cache)) nofun
    | error e =>
      have hmissing : ∃ r ∈ some record, ∀ bytes, Cache.openAuxiliary env.cache s.cache r ≠ .ok bytes := by
        refine ⟨record, rfl, fun bytes h => ?_⟩
        rw [hopen] at h
        cases h
      simp only [hopen]
      split
      · exact ⟨.refl, fun _ _ => hmissing⟩
      · exact ⟨post_fetchAuxiliary, fun _ _ => hmissing⟩
      · exact ⟨.refl, fun _ _ => hmissing⟩

theorem post_ensureAuxiliaries : (ensureAuxiliaries env origin records).Post s fun r s' =>
    OnlyAuxiliary s.cache s'.cache ∧ ∀ e, r = .error e →
      ∃ record ∈ auxiliaries records, ∀ bytes, Cache.openAuxiliary env.cache s.cache record ≠ .ok bytes := by
  have hmem : ∀ {o : Option AuxiliaryRecord} {s' : CacheStore},
      o ∈ [records.group, records.modules, records.updateinfo] → Grows s.cache s' →
      (∃ r ∈ o, ∀ bytes, Cache.openAuxiliary env.cache s' r ≠ .ok bytes) →
      ∃ record ∈ auxiliaries records, ∀ bytes, Cache.openAuxiliary env.cache s.cache record ≠ .ok bytes := by
    rintro o s' ho hgrows ⟨r, rfl, hr⟩
    refine ⟨r, List.mem_filterMap.mpr ⟨_, ho, rfl⟩, fun bytes hopen => ?_⟩
    exact hr bytes (Cache.openAuxiliary_of_grows hgrows hopen)
  unfold ensureAuxiliaries
  refine .bind post_ensureAuxiliary (fun _ s₁ ⟨h₁, _⟩ => ?_) fun e s₁ ⟨h₁, hmissing⟩ =>
    ⟨h₁, fun _ _ => hmem (by simp) .refl (hmissing e rfl)⟩
  refine .bind post_ensureAuxiliary (fun _ s₂ ⟨h₂, _⟩ => ?_) fun e s₂ ⟨h₂, hmissing⟩ =>
    ⟨h₁.trans h₂, fun _ _ => hmem (by simp) h₁.grows (hmissing e rfl)⟩
  refine post_ensureAuxiliary.mono fun r s₃ ⟨h₃, hmissing⟩ =>
    ⟨(h₁.trans h₂).trans h₃, fun e he => hmem (by simp) (h₁.trans h₂).grows (hmissing e he)⟩

/-! ## A generation -/

/-- The publication of a generation that the current pointer does not name. -/
theorem post_publish {primary filelists : List UInt8} {authentication : RepomdAuthentication}
    (hother : ∀ p, Cache.currentPointer env.cache s.cache repository = .ok p →
      p.digest ≠ Cache.sha256 env.cache repomd) :
    (onCache (Cache.publishVerifiedCompleteFast env.cache repository repomd primary filelists
      (some origin) authentication)).Post s fun r s' => match r with
        | .ok snapshot => snapshot.digest = Cache.sha256 env.cache repomd ∧
          Cache.currentPointer env.cache s'.cache repository = .ok ⟨1, snapshot.digest, authentication⟩ ∧
          Holds env.cache s'.cache snapshot.digest
        | .error _ => Kept env.cache repository s.cache s'.cache := by
  refine post_onCache Cache.clean_publishVerifiedCompleteFast ?_ ?_ ?_
  · rintro snapshot c ⟨hends, -, hok⟩
    obtain ⟨hdigest, hholds, hvalid⟩ := hok snapshot rfl
    have hcurrent := hends.current (Cache.repositoryKey env.cache repository)
    rw [if_pos rfl] at hcurrent
    rw [← hdigest] at hcurrent hholds
    refine ⟨hdigest, Cache.currentPointer_of_bytes ?_ hvalid hcurrent, hholds⟩
    rw [hdigest]
    exact Cache.isLowerDigest_sha256 _
  · rintro e c ⟨hends, -, -⟩
    exact .of_ends hends hother
  · rintro c ⟨-, hcrashed, -⟩
    exact hcrashed rfl

/-- The pointer of a generation that is used again. -/
theorem post_reuse {authentication : RepomdAuthentication} :
    (onCache (Cache.reuseCurrentVerifiedComplete env.cache repository repomd origin authentication)).Post s
      fun r s' => match r with
        | .ok (some snapshot) =>
          Cache.reusable env.cache repository repomd origin authentication s.cache = .ok (some snapshot) ∧
          Cache.checkedRepoId env.cache s.cache repository = .ok () ∧
          s'.cache.objects = s.cache.objects ∧ s'.cache.auxiliary = s.cache.auxiliary ∧
          Grows s.cache s'.cache ∧
          Cache.currentPointer env.cache s'.cache repository =
            .ok ⟨1, snapshot.digest, authentication⟩
        | .ok none => Kept env.cache repository s.cache s'.cache ∧
          Cache.reusable env.cache repository repomd origin authentication s.cache = .ok none
        | .error _ => Kept env.cache repository s.cache s'.cache ∧
          ((∃ e, Cache.reusable env.cache repository repomd origin authentication s.cache = .error e) ∨
            ∃ e, Cache.checkedRepoId env.cache s.cache repository = .error e) := by
  refine post_onCache Cache.clean_reuseCurrentVerifiedComplete ?_ ?_ ?_
  · rintro (_ | snapshot) c ⟨hpointed, -, hok, -⟩
    · exact ⟨.of_pointed hpointed, (hok none rfl).1⟩
    · obtain ⟨hreusable, hchecked⟩ := hok (some snapshot) rfl
      obtain ⟨hvalid, hdigest, -⟩ := Cache.reusable_eq_ok hreusable
      have hcurrent := hpointed.current (Cache.repositoryKey env.cache repository)
      rw [if_pos rfl, ← hdigest] at hcurrent
      refine ⟨hreusable, hchecked nofun, hpointed.objects, hpointed.auxiliary, hpointed.grows,
        Cache.currentPointer_of_bytes ?_ hvalid hcurrent⟩
      rw [hdigest]
      exact Cache.isLowerDigest_sha256 _
  · rintro e c ⟨hpointed, -, -, herror⟩
    exact ⟨.of_pointed hpointed, (herror e rfl).imp (fun h => ⟨e, h⟩) fun h => ⟨e, h⟩⟩
  · rintro c ⟨-, hcrashed, -⟩
    exact hcrashed rfl

/-- The same evidence as before: the pointer is the one that was there. -/
theorem kept_of_same_evidence {s s₁ s' : CacheStore} {pointer : CurrentPointer}
    (hpointer : Cache.currentPointer env.cache s repository = .ok pointer)
    (hpointer₁ : Cache.currentPointer env.cache s₁ repository =
      .ok ⟨1, pointer.digest, pointer.repomdAuthentication⟩)
    (hobjects : s₁.objects = s.objects) (hgrows : Grows s s₁) (h : OnlyAuxiliary s₁ s') :
    Kept env.cache repository s s' := by
  have hversion := Cache.version_of_currentPointer hpointer
  have hsame : (⟨1, pointer.digest, pointer.repomdAuthentication⟩ : CurrentPointer) = pointer := by
    rw [← hversion]
  have hkept : Kept env.cache repository s s₁ :=
    ⟨by rw [hpointer₁, hpointer, hsame], fun _ _ => by rw [hobjects], hgrows⟩
  exact hkept.trans h.kept

theorem post_finishGeneration {parallel : Bool} :
    (finishGeneration env repository url parallel repomd metadataTrust).Post s fun r s' => match r with
      | .ok outcome => Refreshed env repository metadataTrust s'.cache url repomd outcome.digest
      | .error _ => Exposed env repository metadataTrust s.cache url repomd ∨
        Kept env.cache repository s.cache s'.cache := by
  have hkept : ∀ {s' : RefreshState}, s'.cache = s.cache →
      Exposed env repository metadataTrust s.cache url repomd ∨ Kept env.cache repository s.cache s'.cache :=
    fun h => .inr (h ▸ .refl)
  unfold finishGeneration
  refine .bind post_authenticate (fun authentication s₁ ⟨hsame, hauthentication⟩ => ?_)
    fun e s' h => hkept h.1
  replace hauthentication := hauthentication authentication rfl
  refine .bind .lift_eq (fun records s₂ ⟨h₂, hrecords⟩ => ?_) fun e s' h => hkept (h.1 ▸ hsame)
  subst h₂
  refine .bind .lift_eq (fun origin s₃ ⟨h₃, horigin⟩ => ?_) fun e s' h => hkept (h.1 ▸ hsame)
  subst h₃
  replace horigin := Except.mapError_eq_ok.mp horigin.symm
  replace hrecords := Except.mapError_eq_ok.mp hrecords.symm
  rw [← hsame]
  refine .bind post_reuse (fun reused s₄ h₄ => ?_) fun e s' h => .inr h.1
  cases reused with
  | some snapshot =>
    obtain ⟨hreusable, hchecked, hobjects, hauxiliary, hgrows, hpointer₁⟩ := h₄
    obtain ⟨hvalid, hdigest, ⟨pointer, hpointer, hpointerDigest⟩, hholds⟩ := Cache.reusable_eq_ok hreusable
    refine .bind post_ensureAuxiliaries (fun _ s₅ ⟨h₅, _⟩ => ?_) fun e s' ⟨h₅, hmissing⟩ => ?_
    · refine .pure ⟨hdigest, ⟨origin, horigin⟩, ⟨authentication, hauthentication, ?_⟩, ?_⟩
      · exact h₅.kept.pointer.trans hpointer₁
      · refine (hdigest ▸ hholds).congr ?_
        rw [h₅.objects, hobjects]
    · by_cases heq : pointer.repomdAuthentication = authentication
      · refine .inr (kept_of_same_evidence hpointer ?_ hobjects hgrows h₅)
        rw [hpointer₁, hdigest, hpointerDigest, heq]
      · obtain ⟨record, hrecord, hclosed⟩ := hmissing e rfl
        exact .inl ⟨origin, authentication, records, pointer, snapshot, horigin, hauthentication, hrecords,
          hpointer, heq, hreusable, hchecked, record, hrecord,
          fun bytes hopen => hclosed bytes (Cache.openAuxiliary_of_grows hgrows hopen)⟩
  | none =>
    obtain ⟨h₄, hnone⟩ := h₄
    refine .bind post_fetchArtifacts (fun artifacts s₅ h₅ => ?_) fun e s' h => .inr (h ▸ h₄)
    obtain ⟨primary, filelists⟩ := artifacts
    refine .bind post_ensureAuxiliaries (fun _ s₆ ⟨h₆, _⟩ => ?_) fun e s' ⟨h₆, _⟩ =>
      .inr (h₄.trans (h₅ ▸ h₆.kept))
    have hkept₆ := h₄.trans (h₅ ▸ h₆.kept)
    refine .bind (post_publish fun p hp => ?_) (fun snapshot s₇ ⟨hdigest, hpointer, hholds⟩ => ?_)
      fun e s' h₇ => .inr (hkept₆.trans h₇)
    · exact Cache.reusable_eq_none hnone (hkept₆.pointer ▸ hp)
    · exact .pure ⟨hdigest, ⟨origin, horigin⟩, ⟨authentication, hauthentication, hpointer⟩, hholds⟩

end

end Dnfast.Refresh
