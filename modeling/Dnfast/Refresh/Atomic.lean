import Dnfast.Refresh.Attempt

/-! # A refresh replaces the current generation or keeps it

Whatever the servers answer, a refresh that succeeds has made the generation that it reports the current
one, and one that fails has kept what a reader sees, exactly when no answer of the source finds the
repository exposed. -/

namespace Dnfast.Refresh

open Cache (CacheStore CurrentPointer Kept Grows Holds)
open Planning (RepomdAuthentication)

section
variable (env : Environment)

/-- The URLs of a source with a `repomd.xml` that may come from them, given which answers there are. -/
inductive Serves (answers : String → List UInt8 → Prop) : Source → String → List UInt8 → Prop
  | baseUrl {base : String} {repomd : List UInt8} (hallowed : validateHttps env base = .ok ())
    (hanswer : answers (repomdUrl (trimEndSlashes base)) repomd) :
    Serves answers (.baseUrl base) (repomdUrl (trimEndSlashes base)) repomd
  | metalink {url resource : String} {bytes repomd : List UInt8} {metalink : Metalink}
    (hallowed : validateHttpsEndpoint env url = .ok ()) (hlist : answers url bytes)
    (hparse : env.parseMetalink bytes = .ok metalink) (hresource : resource ∈ metalink.resources)
    (hanswer : answers resource repomd) (haccepts : metalink.accepts env repomd = true) :
    Serves answers (.metalink url) resource repomd
  | mirrorlist {url base : String} {bytes repomd : List UInt8} {mirrors : List String}
    (hallowed : validateHttpsEndpoint env url = .ok ()) (hlist : answers url bytes)
    (hparse : parseMirrorlist env bytes = .ok mirrors) (hbase : base ∈ mirrors)
    (hanswer : answers (repomdUrl base) repomd) :
    Serves answers (.mirrorlist url) (repomdUrl base) repomd

/-- A request for the URL was answered so. -/
def Answered (url : String) (bytes : List UInt8) : Prop :=
  ∃ n maximumBytes, env.transport n url maximumBytes = .ok bytes

/-- The evidence names an allowed certificate that signed the text. -/
def NamesSigner (trust : MetadataTrust) (repomd : List UInt8) : RepomdAuthentication → Prop
  | .transportOnly => False
  | .openPgp primary signing _ _ => primary ∈ trust.allowedPrimaryFingerprints ∧
    ∃ signature layers good,
      env.verifySignatures trust.certificates trust.validAt signature repomd = .ok layers ∧
      some good ∈ layers.flatten ∧ good.primary = primary ∧ good.signing.map Char.toUpper = signing

/-- The generation of a `repomd.xml` from an allowed URL is the current one, and its evidence names a
signer if there are keys to trust. -/
structure Replaced (repository : String) (metadataTrust : Option MetadataTrust) (s : CacheStore)
    (url : String) (repomd : List UInt8) (digest : String) : Prop where
  digest_eq : digest = Cache.sha256 env.cache repomd
  allowed : ∃ parsed, env.cache.crates.urlParse url = some parsed ∧ parsed.scheme = "https" ∧
    Planning.selectedOrigin env.cache.crates url = .ok url
  pointer : ∃ authentication,
    Cache.currentPointer env.cache s repository = .ok ⟨1, digest, authentication⟩ ∧
    ∀ trust, metadataTrust = some trust → NamesSigner env trust repomd authentication
  holds : Holds env.cache s digest

/-- What a refresh is to leave: a generation that the source served, or what there was. -/
def ReplacesOrKeeps (lock : Except RefreshError Unit) (repository : String) (source : Source)
    (metadataTrust : Option MetadataTrust) (s : CacheStore) : Prop :=
  (refreshWithMetadataTrust env lock repository source metadataTrust).Post ⟨s, 0⟩ fun r s' =>
    match r with
    | .ok outcome => ∃ url repomd, Serves env (Answered env) source url repomd ∧
      Replaced env repository metadataTrust s'.cache url repomd outcome.digest
    | .error _ =>
      Cache.currentPointer env.cache s'.cache repository = Cache.currentPointer env.cache s repository ∧
      Cache.openCurrentVerifiedCompleteGeneration env.cache s'.cache repository =
        Cache.openCurrentVerifiedCompleteGeneration env.cache s repository

end

section
variable {env : Environment} {repository : String} {metadataTrust : Option MetadataTrust}
  {s : RefreshState}

/-! ## Whatever the servers answer -/

/-- What a loop over URLs leaves. -/
def Outcome (env : Environment) (repository : String) (metadataTrust : Option MetadataTrust)
    (served : String → List UInt8 → Prop) (s : CacheStore) (r : Except RefreshError RefreshOutcome)
    (s' : RefreshState) : Prop :=
  match r with
  | .ok outcome => ∃ url repomd, served url repomd ∧
    Refreshed env repository metadataTrust s'.cache url repomd outcome.digest
  | .error _ => Kept env.cache repository s s'.cache

theorem Outcome.mono {served served' : String → List UInt8 → Prop} {s s₁ : CacheStore}
    {r : Except RefreshError RefreshOutcome} {s' : RefreshState} (hkept : Kept env.cache repository s s₁)
    (himp : ∀ url repomd, served url repomd → served' url repomd)
    (h : Outcome env repository metadataTrust served s₁ r s') :
    Outcome env repository metadataTrust served' s r s' := by
  cases r with
  | ok outcome =>
    obtain ⟨url, repomd, hserved, hrefreshed⟩ := h
    exact ⟨url, repomd, himp url repomd hserved, hrefreshed⟩
  | error e => exact hkept.trans h

theorem post_attempt {url : String} {repomd : List UInt8} {parallel : Bool}
    (hsafe : ¬ Exposed env repository metadataTrust s.cache url repomd) :
    (finishGeneration env repository url parallel repomd metadataTrust).Post s
      (Outcome env repository metadataTrust (fun u r => u = url ∧ r = repomd) s.cache) := by
  refine post_finishGeneration.mono fun r s' h => ?_
  cases r with
  | ok outcome => exact ⟨url, repomd, ⟨rfl, rfl⟩, h⟩
  | error e => exact h.resolve_left hsafe

theorem post_tryResources {metalink : Metalink} {resources : List String}
    {lastError lastVerificationError : Option RefreshError}
    (hsafe : ∀ url ∈ resources, ∀ repomd, metalink.accepts env repomd = true →
      ¬ Exposed env repository metadataTrust s.cache url repomd) :
    (tryResources env repository metalink metadataTrust resources lastError lastVerificationError).Post s
      (Outcome env repository metadataTrust (fun url repomd => url ∈ resources ∧
        Answered env url repomd ∧ metalink.accepts env repomd = true) s.cache) := by
  induction resources generalizing s lastError lastVerificationError with
  | nil => exact .throw .refl
  | cons url rest ih =>
    -- the loop goes on with a repository that was kept
    have hrest : ∀ {s' : RefreshState} {e₁ e₂ : Option RefreshError},
        Kept env.cache repository s.cache s'.cache →
        (tryResources env repository metalink metadataTrust rest e₁ e₂).Post s'
          (Outcome env repository metadataTrust (fun u repomd => u ∈ url :: rest ∧
            Answered env u repomd ∧ metalink.accepts env repomd = true) s.cache) := by
      intro s' e₁ e₂ hkept
      refine (ih fun u hu repomd haccepts hexposed => ?_).mono fun r s'' h =>
        h.mono hkept fun u repomd h => ⟨List.mem_cons_of_mem _ h.1, h.2⟩
      exact hsafe u (List.mem_cons_of_mem _ hu) repomd haccepts (hexposed.of_kept hkept)
    unfold tryResources
    refine .bind_attempt post_get fun answer s₁ ⟨h₁, hanswer⟩ => ?_
    cases answer with
    | error e => exact hrest (h₁ ▸ .refl)
    | ok bytes =>
      simp only
      split
      next haccepts =>
        have hsafe₁ : ¬ Exposed env repository metadataTrust s₁.cache url bytes :=
          h₁ ▸ hsafe url List.mem_cons_self bytes haccepts
        refine .bind_attempt (post_attempt hsafe₁) fun result s₂ h₂ => ?_
        cases result with
        | ok outcome =>
          refine .pure (h₂.mono (h₁ ▸ .refl) fun u repomd hserved => ?_)
          obtain ⟨rfl, rfl⟩ := hserved
          exact ⟨List.mem_cons_self, ⟨_, _, hanswer _ rfl⟩, haccepts⟩
        | error e =>
          have hkept : Kept env.cache repository s.cache s₂.cache := h₁ ▸ h₂
          cases e <;> exact hrest hkept
      · exact hrest (h₁ ▸ .refl)

theorem post_tryMirror {url : String}
    (hsafe : ∀ repomd, ¬ Exposed env repository metadataTrust s.cache url repomd) :
    (tryMirror env repository url metadataTrust).Post s (Outcome env repository metadataTrust
      (fun u repomd => u = url ∧ Answered env u repomd) s.cache) := by
  unfold tryMirror
  refine .bind post_get (fun repomd s₁ ⟨h₁, hanswer⟩ => ?_) fun e s₁ ⟨h₁, _⟩ => ?_
  · refine (post_attempt (h₁ ▸ hsafe repomd)).mono fun r s₂ h₂ =>
      h₂.mono (h₁ ▸ .refl) fun u bytes hserved => ?_
    obtain ⟨rfl, rfl⟩ := hserved
    exact ⟨rfl, _, _, hanswer _ rfl⟩
  · exact (h₁ ▸ .refl : Kept env.cache repository s.cache s₁.cache)

theorem post_tryMirrors {mirrors : List String} {lastError : Option RefreshError}
    (hsafe : ∀ base ∈ mirrors, ∀ repomd,
      ¬ Exposed env repository metadataTrust s.cache (repomdUrl base) repomd) :
    (tryMirrors env repository metadataTrust mirrors lastError).Post s
      (Outcome env repository metadataTrust
        (fun url repomd => (∃ base ∈ mirrors, repomdUrl base = url) ∧ Answered env url repomd)
        s.cache) := by
  induction mirrors generalizing s lastError with
  | nil => exact .throw .refl
  | cons base rest ih =>
    unfold tryMirrors
    refine .bind_attempt (post_tryMirror (hsafe base List.mem_cons_self)) fun result s₁ h₁ => ?_
    cases result with
    | ok outcome =>
      refine .pure (h₁.mono .refl fun u repomd hserved => ?_)
      obtain ⟨rfl, hanswered⟩ := hserved
      exact ⟨⟨base, List.mem_cons_self, rfl⟩, hanswered⟩
    | error e =>
      refine (ih fun b hb repomd hexposed => ?_).mono fun r s₂ h₂ => h₂.mono h₁ fun u repomd h => ?_
      · exact hsafe b (List.mem_cons_of_mem _ hb) repomd (hexposed.of_kept h₁)
      · obtain ⟨⟨b, hb, hu⟩, hanswered⟩ := h
        exact ⟨⟨b, List.mem_cons_of_mem _ hb, hu⟩, hanswered⟩

theorem post_refresh {lock : Except RefreshError Unit} {source : Source}
    (hsafe : lock = .ok () → ∀ url repomd, Serves env (fun _ _ => True) source url repomd →
      ¬ Exposed env repository metadataTrust s.cache url repomd) :
    (refreshWithMetadataTrust env lock repository source metadataTrust).Post s
      (Outcome env repository metadataTrust (Serves env (Answered env) source) s.cache) := by
  have hsame : ∀ {s' : RefreshState} {e : RefreshError}, s'.cache = s.cache →
      Outcome env repository metadataTrust (Serves env (Answered env) source) s.cache (.error e) s' :=
    fun {s'} {_} h => (h ▸ .refl : Kept env.cache repository s.cache s'.cache)
  unfold refreshWithMetadataTrust
  refine .bind .lift_eq (fun _ s₁ ⟨h₁, hlock⟩ => ?_)
    fun e s₁ h₁ => hsame (h₁.1 ▸ rfl)
  subst h₁
  replace hsafe := hsafe hlock.symm
  cases source with
  | baseUrl base =>
    simp only
    refine .bind .lift_eq
      (fun _ s₂ ⟨h₂, hallowed⟩ => ?_) fun e s₂ h₂ => hsame (h₂.1 ▸ rfl)
    subst h₂
    refine .bind post_get (fun repomd s₃ ⟨h₃, hanswer⟩ => ?_) fun e s₃ h₃ => hsame h₃.1
    have hserves : ∀ {answers : String → List UInt8 → Prop},
        answers (repomdUrl (trimEndSlashes base)) repomd →
        Serves env answers (.baseUrl base) (repomdUrl (trimEndSlashes base)) repomd :=
      fun h => .baseUrl hallowed.symm h
    refine (post_attempt (h₃ ▸ hsafe _ _ (hserves trivial))).mono fun r s₄ h₄ =>
      h₄.mono (h₃ ▸ .refl) fun u bytes hserved => ?_
    obtain ⟨rfl, rfl⟩ := hserved
    exact hserves ⟨_, _, hanswer _ rfl⟩
  | metalink url =>
    simp only
    refine .bind .lift_eq
      (fun _ s₂ ⟨h₂, hallowed⟩ => ?_) fun e s₂ h₂ => hsame (h₂.1 ▸ rfl)
    subst h₂
    refine .bind post_get (fun bytes s₃ ⟨h₃, hlist⟩ => ?_) fun e s₃ h₃ => hsame h₃.1
    refine .bind .lift_eq
      (fun metalink s₄ ⟨h₄, hparse⟩ => ?_) fun e s₄ h₄ => hsame (h₄.1 ▸ h₃)
    subst h₄
    replace hparse := Except.mapError_eq_ok.mp hparse.symm
    refine (post_tryResources fun u hu repomd haccepts => ?_).mono fun r s₅ h₅ =>
      h₅.mono (h₃ ▸ .refl) fun u repomd h => ?_
    · exact h₃ ▸ hsafe _ _ (.metalink hallowed.symm trivial hparse hu trivial haccepts)
    · exact .metalink hallowed.symm ⟨_, _, hlist _ rfl⟩ hparse h.1 h.2.1 h.2.2
  | mirrorlist url =>
    simp only
    refine .bind .lift_eq
      (fun _ s₂ ⟨h₂, hallowed⟩ => ?_) fun e s₂ h₂ => hsame (h₂.1 ▸ rfl)
    subst h₂
    refine .bind post_get (fun bytes s₃ ⟨h₃, hlist⟩ => ?_) fun e s₃ h₃ => hsame h₃.1
    refine .bind .lift_eq
      (fun mirrors s₄ ⟨h₄, hparse⟩ => ?_) fun e s₄ h₄ => hsame (h₄.1 ▸ h₃)
    subst h₄
    refine (post_tryMirrors fun base hbase repomd => ?_).mono fun r s₅ h₅ =>
      h₅.mono (h₃ ▸ .refl) fun u repomd h => ?_
    · exact h₃ ▸ hsafe _ _ (.mirrorlist hallowed.symm trivial hparse.symm hbase trivial)
    · obtain ⟨⟨base, hbase, rfl⟩, hanswered⟩ := h
      exact .mirrorlist hallowed.symm ⟨_, _, hlist _ rfl⟩ hparse.symm hbase hanswered

/-! ## Evidence -/

theorem toUpper_eq_self {text : String} (h : RepomdAuthentication.validFingerprint text = true) :
    text.map Char.toUpper = text := by
  have hself : ∀ c ∈ Core.lowerHexDigits ++ "ABCDEF".toList, c.isLower = false → c.toUpper = c :=
    List.all_iff_forall_prop.mp (by decide)
  rw [← String.toList_inj, String.toList_map]
  conv_rhs => rw [← List.map_id text.toList]
  refine List.map_congr_left fun c hc => ?_
  simp only [RepomdAuthentication.validFingerprint, Bool.and_eq_true, List.all_eq_true,
    Bool.not_eq_true'] at h
  obtain ⟨hhex, hlower⟩ := h.2 c hc
  exact hself c (by simpa [Core.isAsciiHexdigit] using hhex) hlower

theorem namesSigner_of_verifyRepomd {trust : MetadataTrust} {signature repomd : List UInt8}
    {authentication : RepomdAuthentication} (h : verifyRepomd env trust signature repomd = .ok authentication) :
    NamesSigner env trust repomd authentication := by
  simp only [verifyRepomd, openPgpRecord, Except.bind_eq_ok, Except.mapError_eq_ok, Except.okOr_eq_ok,
    Except.pure_eq_ok] at h
  obtain ⟨_, -, layers, hlayers, good, hgood, _, -, rfl⟩ := h
  have hallowed : good.primary ∈ trust.allowedPrimaryFingerprints := by
    simpa using List.find?_some hgood
  have hupper := toUpper_eq_self (trust.valid_allowed _ hallowed)
  refine ⟨hupper.symm ▸ hallowed, signature, layers, good, hlayers, ?_, hupper.symm, rfl⟩
  obtain ⟨_, hmem, heq⟩ := List.mem_filterMap.mp (List.mem_of_find?_eq_some hgood)
  exact (show _ = some good from heq) ▸ hmem

theorem selectedOrigin_eq_ok {crates : Planning.Crates} {url origin : String}
    (h : Planning.selectedOrigin crates url = .ok origin) :
    (∃ parsed, crates.urlParse url = some parsed ∧ parsed.scheme = "https") ∧ origin = url := by
  simp only [Planning.selectedOrigin, Except.bind_eq_ok, Except.okOr_eq_ok, Except.refuseIf_eq_ok,
    Except.pure_eq_ok, not_or, ne_eq, not_not] at h
  obtain ⟨parsed, hparse, _, ⟨hscheme, -⟩, _, -, rfl⟩ := h
  exact ⟨⟨parsed, hparse, hscheme⟩, rfl⟩

theorem Refreshed.replaced {s : CacheStore} {url digest : String} {repomd : List UInt8}
    (h : Refreshed env repository metadataTrust s url repomd digest) :
    Replaced env repository metadataTrust s url repomd digest := by
  obtain ⟨origin, horigin⟩ := h.origin
  obtain ⟨authentication, hauthentication, hpointer⟩ := h.pointer
  obtain ⟨⟨parsed, hparsed, hscheme⟩, rfl⟩ := selectedOrigin_eq_ok horigin
  refine ⟨h.digest_eq, ⟨parsed, hparsed, hscheme, horigin⟩, ⟨authentication, hpointer, ?_⟩, h.holds⟩
  rintro trust rfl
  obtain ⟨signature, hverify⟩ := hauthentication
  exact namesSigner_of_verifyRepomd hverify

/-! ## An exposed repository -/

/-- An answer, or none. -/
def reply : Option (List UInt8) → Except RefreshError (List UInt8)
  | some bytes => .ok bytes
  | none => .error (.transport "connection refused")

/-- The requests from one on are answered as a script says, and the ones after it are not. -/
def Follows (env : Environment) (n : Nat) (script : List (Option (List UInt8))) : Prop :=
  ∀ i url maximumBytes, env.transport (n + i) url maximumBytes = reply (script[i]?.getD none)

theorem Follows.tail {n : Nat} {script : List (Option (List UInt8))} (h : Follows env n script) :
    Follows env (n + 1) script.tail := by
  intro i url maximumBytes
  have := h (i + 1) url maximumBytes
  rw [List.getElem?_tail]
  rwa [show n + 1 + i = n + (i + 1) by omega]

theorem post_get_follows {url : String} {maximumBytes : UInt64} {script : List (Option (List UInt8))}
    (h : Follows env s.requests script) : (get env url maximumBytes).Post s fun r s' =>
      r = reply (script.head?.getD none) ∧ s'.cache = s.cache ∧ Follows env s'.requests script.tail := by
  refine ⟨?_, rfl, h.tail⟩
  have := h 0 url maximumBytes
  rwa [Nat.add_zero, ← List.head?_eq_getElem?] at this

/-- The answers that end in the evidence. -/
def EvidenceScript (env : Environment) (metadataTrust : Option MetadataTrust) (repomd : List UInt8)
    (authentication : RepomdAuthentication) (script : List (Option (List UInt8))) : Prop :=
  match metadataTrust with
  | none => authentication = .transportOnly ∧ script = []
  | some trust => ∃ signature, script = [some signature] ∧
    verifyRepomd env trust signature repomd = .ok authentication

theorem exists_evidenceScript {repomd : List UInt8} {authentication : RepomdAuthentication}
    (h : Authenticates env metadataTrust repomd authentication) :
    ∃ script, EvidenceScript env metadataTrust repomd authentication script := by
  cases metadataTrust with
  | none => exact ⟨[], h, rfl⟩
  | some trust =>
    obtain ⟨signature, hverify⟩ := h
    exact ⟨_, signature, rfl, hverify⟩

theorem post_authenticate_follows {url : String} {repomd : List UInt8}
    {authentication : RepomdAuthentication} {script : List (Option (List UInt8))}
    (hscript : EvidenceScript env metadataTrust repomd authentication script)
    (h : Follows env s.requests script) :
    (authenticate env metadataTrust url repomd).Post s fun r s' =>
      r = .ok authentication ∧ s'.cache = s.cache ∧ Follows env s'.requests [] := by
  cases metadataTrust with
  | none =>
    obtain ⟨rfl, rfl⟩ := hscript
    exact .pure ⟨rfl, rfl, h⟩
  | some trust =>
    obtain ⟨signature, rfl, hverify⟩ := hscript
    refine .bind (post_get_follows h) (fun answer s₁ ⟨hanswer, hsame, h₁⟩ => ?_) ?_
    · cases hanswer
      exact .lift (fun _ hok => ⟨hok ▸ hverify, hsame, h₁⟩) fun e he => by rw [hverify] at he; cases he
    · rintro e s' ⟨⟨⟩, -⟩

theorem post_fetchAuxiliary_down {origin : String} {record : Metadata.AuxiliaryRecord}
    (h : Follows env s.requests []) : (fetchAuxiliary env origin record).Post s fun r s' =>
      s'.cache = s.cache ∧ Follows env s'.requests [] ∧ r ≠ .ok () := by
  unfold fetchAuxiliary
  refine .bind .lift_eq (fun url s₁ ⟨h₁, _⟩ => ?_) fun e s₁ ⟨h₁, _⟩ => ?_
  on_goal 2 => exact ⟨h₁ ▸ rfl, h₁ ▸ h, nofun⟩
  subst h₁
  refine .bind (post_get_follows h) (fun bytes s₂ h₂ => ?_) fun e s₂ ⟨_, h₂, hf₂⟩ => ⟨h₂, hf₂, nofun⟩
  cases h₂.1

theorem post_ensureAuxiliary_down {origin : String} {record : Option Metadata.AuxiliaryRecord}
    (h : Follows env s.requests []) : (ensureAuxiliary env origin record).Post s fun r s' =>
      s'.cache = s.cache ∧ Follows env s'.requests [] ∧
      (r = .ok () → ∀ a ∈ record, ∃ bytes, Cache.openAuxiliary env.cache s.cache a = .ok bytes) := by
  cases record with
  | none => exact .pure ⟨rfl, h, nofun⟩
  | some record =>
    unfold ensureAuxiliary Fallible.Post
    cases hopen : Cache.openAuxiliary env.cache s.cache record with
    | ok bytes =>
      simp only [hopen]
      refine ⟨trivial, h, ?_⟩
      rintro - _ ⟨⟩
      exact ⟨bytes, hopen⟩
    | error e =>
      simp only [hopen]
      split
      next heq => cases heq
      · obtain ⟨hsame, hdown, hfail⟩ := @post_fetchAuxiliary_down _ _ origin record h
        exact ⟨hsame, hdown, fun hr => absurd hr hfail⟩
      · exact ⟨rfl, h, nofun⟩

theorem post_ensureAuxiliaries_down {origin : String} {records : Metadata.RepomdRecords}
    (h : Follows env s.requests []) : (ensureAuxiliaries env origin records).Post s fun r s' =>
      s'.cache = s.cache ∧ Follows env s'.requests [] ∧
      (r = .ok () → ∀ a ∈ auxiliaries records, ∃ bytes, Cache.openAuxiliary env.cache s.cache a = .ok bytes) := by
  unfold ensureAuxiliaries
  refine .bind (post_ensureAuxiliary_down h) (fun _ s₁ ⟨h₁, hf₁, hopen₁⟩ => ?_) fun e s₁ h₁ =>
    ⟨h₁.1, h₁.2.1, nofun⟩
  refine .bind (post_ensureAuxiliary_down hf₁) (fun _ s₂ ⟨h₂, hf₂, hopen₂⟩ => ?_) fun e s₂ h₂ =>
    ⟨h₂.1.trans h₁, h₂.2.1, nofun⟩
  refine (post_ensureAuxiliary_down hf₂).mono fun r s₃ ⟨h₃, hf₃, hopen₃⟩ =>
    ⟨h₃.trans (h₂.trans h₁), hf₃, fun hr a ha => ?_⟩
  obtain ⟨o, ho, hoa⟩ := List.mem_filterMap.mp ha
  simp only [List.mem_cons, List.not_mem_nil, or_false] at ho
  rcases ho with rfl | rfl | rfl
  · exact hopen₁ rfl a hoa
  · exact h₁ ▸ hopen₂ rfl a hoa
  · exact h₁ ▸ h₂ ▸ hopen₃ hr a hoa

/-- A pointer that was moved before the refresh failed. -/
def Moved (env : Environment) (repository : String) (pointer : CurrentPointer)
    (r : Except RefreshError RefreshOutcome) (s' : RefreshState) : Prop :=
  (∃ e, r = .error e) ∧ Follows env s'.requests [] ∧ ∃ pointer',
    Cache.currentPointer env.cache s'.cache repository = .ok pointer' ∧
    pointer.repomdAuthentication ≠ pointer'.repomdAuthentication

theorem post_finishGeneration_exposed {url origin : String} {repomd : List UInt8} {parallel : Bool}
    {authentication : RepomdAuthentication} {records : Metadata.RepomdRecords} {pointer : CurrentPointer}
    {snapshot : Cache.Snapshot} {record : Metadata.AuxiliaryRecord} {script : List (Option (List UInt8))}
    (horigin : Planning.selectedOrigin env.cache.crates url = .ok origin)
    (hscript : EvidenceScript env metadataTrust repomd authentication script)
    (hrecords : env.cache.parsers.parseRepomdRecords repomd = .ok records)
    (hne : pointer.repomdAuthentication ≠ authentication)
    (hreusable : Cache.reusable env.cache repository repomd origin authentication s.cache =
      .ok (some snapshot))
    (hchecked : Cache.checkedRepoId env.cache s.cache repository = .ok ())
    (hrecord : record ∈ auxiliaries records)
    (hmissing : ∀ bytes, Cache.openAuxiliary env.cache s.cache record ≠ .ok bytes)
    (hfollows : Follows env s.requests script) :
    (finishGeneration env repository url parallel repomd metadataTrust).Post s
      (Moved env repository pointer) := by
  unfold finishGeneration
  refine .bind (post_authenticate_follows hscript hfollows) (fun _ s₁ ⟨hok, hsame, hdown⟩ => ?_) ?_
  · cases hok
    rw [← hsame] at hreusable hchecked hmissing
    refine .bind .lift_eq (fun records' s₂ ⟨h₂, hr⟩ => ?_) fun e s₂ ⟨h₂, hr⟩ => ?_
    · rw [hrecords] at hr
      cases hr
      subst h₂
      refine .bind .lift_eq (fun origin' s₃ ⟨h₃, ho⟩ => ?_) fun e s₃ ⟨h₃, ho⟩ => ?_
      · rw [horigin] at ho
        cases ho
        subst h₃
        refine .bind (post_reuse.and post_onCache_requests) (fun reused s₄ ⟨h₄, hrequests⟩ => ?_)
          fun e s₄ ⟨⟨_, h₄⟩, _⟩ => ?_
        · rw [← hrequests] at hdown
          cases reused with
          | none =>
            rw [hreusable] at h₄
            cases h₄.2
          | some snapshot' =>
            obtain ⟨-, -, -, hauxiliary, -, hpointer⟩ := h₄
            refine .bind (post_ensureAuxiliaries_down hdown) (fun _ s₅ ⟨_, _, hopen⟩ => ?_)
              fun e s₅ ⟨h₅, hdown₅, _⟩ => ⟨⟨e, rfl⟩, hdown₅, _, h₅ ▸ hpointer, hne⟩
            obtain ⟨bytes, hbytes⟩ := hopen rfl record hrecord
            refine absurd ?_ (hmissing bytes)
            unfold Cache.openAuxiliary at hbytes ⊢
            rwa [hauxiliary] at hbytes
        · rw [hreusable, hchecked] at h₄
          rcases h₄ with ⟨_, ⟨⟩⟩ | ⟨_, ⟨⟩⟩
      · rw [horigin] at ho
        cases ho
    · rw [hrecords] at hr
      cases hr
  · rintro e s₁ ⟨⟨⟩, -⟩

/-! ## The sources of an exposed repository -/

theorem post_tryResources_down {metalink : Metalink} {resources : List String} {pointer : CurrentPointer}
    {lastError lastVerificationError : Option RefreshError} {e : RefreshError}
    (h : Moved env repository pointer (.error e) s) :
    (tryResources env repository metalink metadataTrust resources lastError lastVerificationError).Post s
      (Moved env repository pointer) := by
  induction resources generalizing s lastError lastVerificationError with
  | nil => exact .throw ⟨⟨_, rfl⟩, h.2⟩
  | cons url rest ih =>
    unfold tryResources
    refine .bind_attempt (post_get_follows h.2.1) fun answer s₁ ⟨hanswer, hsame, hdown⟩ => ?_
    cases hanswer
    exact ih ⟨⟨_, rfl⟩, hdown, hsame ▸ h.2.2⟩

theorem post_tryMirrors_down {mirrors : List String} {pointer : CurrentPointer}
    {lastError : Option RefreshError} {e : RefreshError} (h : Moved env repository pointer (.error e) s) :
    (tryMirrors env repository metadataTrust mirrors lastError).Post s (Moved env repository pointer) := by
  induction mirrors generalizing s lastError e with
  | nil => exact .throw ⟨⟨_, rfl⟩, h.2⟩
  | cons base rest ih =>
    unfold tryMirrors tryMirror
    refine .bind_attempt (P := fun r s' => ∃ e, r = .error e ∧ Moved env repository pointer (.error e) s')
      (.bind (post_get_follows h.2.1) ?_ ?_) ?_
    · rintro _ s₁ ⟨⟨⟩, -⟩
    · rintro e s₁ ⟨-, hsame, hdown⟩
      exact ⟨e, rfl, ⟨_, rfl⟩, hdown, hsame ▸ h.2.2⟩
    · rintro _ s₁ ⟨e, rfl, h₁⟩
      exact ih h₁

/-- The first servers do not answer. -/
theorem post_tryResources_append {metalink : Metalink} {before rest : List String}
    {lastError lastVerificationError : Option RefreshError} {script : List (Option (List UInt8))}
    {Q : Except RefreshError RefreshOutcome → RefreshState → Prop}
    (h : Follows env s.requests (List.replicate before.length none ++ script))
    (hrest : ∀ s' e₁ e₂, s'.cache = s.cache → Follows env s'.requests script →
      (tryResources env repository metalink metadataTrust rest e₁ e₂).Post s' Q) :
    (tryResources env repository metalink metadataTrust (before ++ rest) lastError
      lastVerificationError).Post s Q := by
  induction before generalizing s lastError lastVerificationError with
  | nil => exact hrest s _ _ rfl h
  | cons url before ih =>
    rw [List.cons_append]
    unfold tryResources
    refine .bind_attempt (post_get_follows h) fun answer s₁ ⟨hanswer, hsame, hfollows⟩ => ?_
    cases hanswer
    exact ih hfollows fun s' e₁ e₂ hs' => hrest s' e₁ e₂ (hs'.trans hsame)

theorem post_tryMirrors_append {before rest : List String} {lastError : Option RefreshError}
    {script : List (Option (List UInt8))} {Q : Except RefreshError RefreshOutcome → RefreshState → Prop}
    (h : Follows env s.requests (List.replicate before.length none ++ script))
    (hrest : ∀ s' e, s'.cache = s.cache → Follows env s'.requests script →
      (tryMirrors env repository metadataTrust rest e).Post s' Q) :
    (tryMirrors env repository metadataTrust (before ++ rest) lastError).Post s Q := by
  induction before generalizing s lastError with
  | nil => exact hrest s _ rfl h
  | cons base before ih =>
    rw [List.cons_append]
    unfold tryMirrors tryMirror
    refine .bind_attempt (P := fun r s' => (∃ e, r = .error e) ∧ s'.cache = s.cache ∧
      Follows env s'.requests (List.replicate before.length none ++ script))
      (.bind (post_get_follows h) ?_ ?_) ?_
    · rintro _ s₁ ⟨⟨⟩, -⟩
    · rintro e s₁ ⟨-, hsame, hfollows⟩
      exact ⟨⟨_, rfl⟩, hsame, hfollows⟩
    · rintro _ s₁ ⟨⟨e, rfl⟩, hsame, hfollows⟩
      exact ih hfollows fun s' e' hs' => hrest s' e' (hs'.trans hsame)

/-- The transport that follows a script. -/
def scripted (script : List (Option (List UInt8))) : Nat → String → UInt64 → Except RefreshError (List UInt8) :=
  fun n _ _ => reply (script[n]?.getD none)

theorem follows_scripted (script : List (Option (List UInt8))) :
    Follows { env with transport := scripted script } 0 script :=
  fun i _ _ => by simp only [scripted, Nat.zero_add]

/-- The list of mirrors does not depend on what the servers answer. -/
theorem parseMirrors_transport (transport : Nat → String → UInt64 → Except RefreshError (List UInt8))
    (lines : List (List Char)) (mirrors : List String) :
    parseMirrors { env with transport } lines mirrors = parseMirrors env lines mirrors := by
  induction lines generalizing mirrors with
  | nil => rfl
  | cons line rest ih =>
    simp only [parseMirrors, ih]
    rfl

theorem parseMirrorlist_transport (transport : Nat → String → UInt64 → Except RefreshError (List UInt8))
    (bytes : List UInt8) :
    parseMirrorlist { env with transport } bytes = parseMirrorlist env bytes := by
  simp only [parseMirrorlist, parseMirrors_transport]

/-- The attempts that move the pointer to the end of a script and fail. -/
def Attempts (env : Environment) (repository url : String) (metadataTrust : Option MetadataTrust)
    (repomd : List UInt8) (pointer : CurrentPointer) (evidence : List (Option (List UInt8)))
    (cache : CacheStore) : Prop :=
  ∀ (s : RefreshState) (parallel : Bool), s.cache = cache → Follows env s.requests evidence →
    (finishGeneration env repository url parallel repomd metadataTrust).Post s
      (Moved env repository pointer)

section
variable {repomd : List UInt8} {pointer : CurrentPointer} {evidence : List (Option (List UInt8))}

theorem post_baseUrl_moved {base : String} (hallowed : validateHttps env base = .ok ())
    (hattempts : Attempts env repository (repomdUrl (trimEndSlashes base)) metadataTrust repomd pointer
      evidence s.cache) (hfollows : Follows env s.requests (some repomd :: evidence)) :
    (refreshWithMetadataTrust env (.ok ()) repository (.baseUrl base) metadataTrust).Post s
      (Moved env repository pointer) := by
  unfold refreshWithMetadataTrust
  refine .bind .lift_eq (fun _ s₁ ⟨h₁, _⟩ => ?_) fun e s₁ ⟨_, h₁⟩ => nomatch h₁
  subst h₁
  refine .bind .lift_eq (fun _ s₂ ⟨h₂, _⟩ => ?_) fun e s₂ ⟨_, h₂⟩ => nomatch h₂.trans hallowed
  subst h₂
  refine .bind (post_get_follows hfollows) (fun bytes s₃ ⟨hanswer, hsame, h₃⟩ => ?_) fun e s₃ h₃ => ?_
  · cases hanswer
    exact hattempts s₃ true hsame h₃
  · cases h₃.1

theorem post_metalink_moved {url resource : String} {bytes : List UInt8} {metalink : Metalink}
    {before after : List String} (hallowed : validateHttpsEndpoint env url = .ok ())
    (hparse : env.parseMetalink bytes = .ok metalink)
    (hresources : metalink.resources = before ++ resource :: after)
    (haccepts : metalink.accepts env repomd = true)
    (hattempts : Attempts env repository resource metadataTrust repomd pointer evidence s.cache)
    (hfollows : Follows env s.requests
      (some bytes :: (List.replicate before.length none ++ some repomd :: evidence))) :
    (refreshWithMetadataTrust env (.ok ()) repository (.metalink url) metadataTrust).Post s
      (Moved env repository pointer) := by
  unfold refreshWithMetadataTrust
  refine .bind .lift_eq (fun _ s₁ ⟨h₁, _⟩ => ?_) fun e s₁ ⟨_, h₁⟩ => nomatch h₁
  subst h₁
  refine .bind .lift_eq (fun _ s₂ ⟨h₂, _⟩ => ?_) fun e s₂ ⟨_, h₂⟩ => nomatch h₂.trans hallowed
  subst h₂
  refine .bind (post_get_follows hfollows) (fun list s₃ ⟨hanswer, hsame, h₃⟩ => ?_) fun e s₃ h₃ => ?_
  · cases hanswer
    refine .bind .lift_eq (fun metalink' s₄ ⟨h₄, hm⟩ => ?_) fun e s₄ ⟨_, h₄⟩ => ?_
    · rw [hparse] at hm
      cases hm
      subst h₄
      rw [hresources]
      refine post_tryResources_append h₃ fun s₅ e₁ e₂ h₅ hfollows₅ => ?_
      unfold tryResources
      refine .bind_attempt (post_get_follows hfollows₅) fun answer s₆ ⟨hanswer, hsame₆, h₆⟩ => ?_
      replace hanswer : answer = .ok repomd := hanswer
      subst hanswer
      simp only [haccepts, if_true]
      refine .bind_attempt (hattempts s₆ _ (hsame₆.trans (h₅.trans hsame)) h₆) fun r s₇ h₇ => ?_
      obtain ⟨e, rfl⟩ := h₇.1
      cases e <;> exact post_tryResources_down h₇
    · rw [hparse] at h₄
      cases h₄
  · cases h₃.1

theorem post_mirrorlist_moved {url base : String} {bytes : List UInt8} {before after : List String}
    (hallowed : validateHttpsEndpoint env url = .ok ())
    (hparse : parseMirrorlist env bytes = .ok (before ++ base :: after))
    (hattempts : Attempts env repository (repomdUrl base) metadataTrust repomd pointer evidence s.cache)
    (hfollows : Follows env s.requests
      (some bytes :: (List.replicate before.length none ++ some repomd :: evidence))) :
    (refreshWithMetadataTrust env (.ok ()) repository (.mirrorlist url) metadataTrust).Post s
      (Moved env repository pointer) := by
  unfold refreshWithMetadataTrust
  refine .bind .lift_eq (fun _ s₁ ⟨h₁, _⟩ => ?_) fun e s₁ ⟨_, h₁⟩ => nomatch h₁
  subst h₁
  refine .bind .lift_eq (fun _ s₂ ⟨h₂, _⟩ => ?_) fun e s₂ ⟨_, h₂⟩ => nomatch h₂.trans hallowed
  subst h₂
  refine .bind (post_get_follows hfollows) (fun list s₃ ⟨hanswer, hsame, h₃⟩ => ?_) fun e s₃ h₃ => ?_
  · cases hanswer
    refine .bind .lift_eq (fun mirrors s₄ ⟨h₄, hm⟩ => ?_) fun e s₄ ⟨_, h₄⟩ => nomatch h₄.trans hparse
    rw [hparse] at hm
    cases hm
    subst h₄
    refine post_tryMirrors_append h₃ fun s₅ e₅ h₅ hfollows₅ => ?_
    unfold tryMirrors tryMirror
    refine .bind_attempt (P := Moved env repository pointer)
      (.bind (post_get_follows hfollows₅) (fun answer s₆ ⟨hanswer, hsame₆, h₆⟩ => ?_) fun e s₆ h₆ => ?_) ?_
    · cases hanswer
      exact hattempts s₆ true (hsame₆.trans (h₅.trans hsame)) h₆
    · cases h₆.1
    · intro r s₇ h₇
      obtain ⟨e, rfl⟩ := h₇.1
      exact post_tryMirrors_down h₇
  · cases h₃.1

end

/-- The servers of an exposed repository can make a refresh move its pointer and fail. -/
theorem exists_moved {source : Source} {s : CacheStore} {url : String} {repomd : List UInt8}
    (hserves : Serves env (fun _ _ => True) source url repomd)
    (hexposed : Exposed env repository metadataTrust s url repomd) :
    ∃ transport pointer, Cache.currentPointer env.cache s repository = .ok pointer ∧
      (refreshWithMetadataTrust { env with transport } (.ok ()) repository source metadataTrust).Post ⟨s, 0⟩
        (Moved { env with transport } repository pointer) := by
  obtain ⟨origin, authentication, records, pointer, snapshot, horigin, hauthentication, hrecords,
    hpointer, hne, hreusable, hchecked, record, hrecord, hmissing⟩ := hexposed
  obtain ⟨evidence, hevidence⟩ := exists_evidenceScript hauthentication
  have hattempts : ∀ transport,
      Attempts { env with transport } repository url metadataTrust repomd pointer evidence s := by
    rintro transport s' parallel rfl hfollows
    exact post_finishGeneration_exposed horigin hevidence hrecords hne hreusable hchecked hrecord hmissing
      hfollows
  cases hserves with
  | baseUrl hallowed _ =>
    exact ⟨scripted (some repomd :: evidence), pointer, hpointer,
      post_baseUrl_moved hallowed (hattempts _) (follows_scripted _)⟩
  | @metalink _ _ bytes _ metalink hallowed _ hparse hresource _ haccepts =>
    obtain ⟨before, after, hresources⟩ := List.append_of_mem hresource
    exact ⟨scripted (some bytes :: (List.replicate before.length none ++ some repomd :: evidence)), pointer,
      hpointer, post_metalink_moved hallowed hparse hresources haccepts (hattempts _) (follows_scripted _)⟩
  | @mirrorlist _ base bytes _ mirrors hallowed _ hparse hbase _ =>
    obtain ⟨before, after, rfl⟩ := List.append_of_mem hbase
    exact ⟨scripted (some bytes :: (List.replicate before.length none ++ some repomd :: evidence)), pointer,
      hpointer, post_mirrorlist_moved hallowed
        ((parseMirrorlist_transport _ _).trans hparse) (hattempts _) (follows_scripted _)⟩

/-! ## When a refresh is atomic -/

theorem replacesOrKeeps_of_safe {lock : Except RefreshError Unit} {source : Source} {s : CacheStore}
    (hsafe : lock = .ok () → ∀ url repomd, Serves env (fun _ _ => True) source url repomd →
      ¬ Exposed env repository metadataTrust s url repomd) :
    ReplacesOrKeeps env lock repository source metadataTrust s := by
  refine (post_refresh (s := ⟨s, 0⟩) hsafe).mono fun r s' h => ?_
  cases r with
  | ok outcome =>
    obtain ⟨url, repomd, hserves, hrefreshed⟩ := h
    exact ⟨url, repomd, hserves, hrefreshed.replaced⟩
  | error e => exact ⟨h.pointer, h.openCurrentVerifiedCompleteGeneration⟩

theorem not_replacesOrKeeps_of_moved {lock : Except RefreshError Unit} {source : Source} {s : CacheStore}
    {pointer : CurrentPointer} (hpointer : Cache.currentPointer env.cache s repository = .ok pointer)
    (hmoved : (refreshWithMetadataTrust env lock repository source metadataTrust).Post ⟨s, 0⟩
      (Moved env repository pointer)) : ¬ ReplacesOrKeeps env lock repository source metadataTrust s := by
  intro h
  unfold ReplacesOrKeeps Fallible.Post at h
  obtain ⟨⟨e, he⟩, -, pointer', hpointer', hne⟩ := hmoved
  rw [he] at h
  have hsame := h.1
  rw [hpointer', hpointer] at hsame
  cases hsame
  exact hne rfl

/-- Every refresh, whatever the servers answer, replaces the generation of its repository or keeps it,
exactly when the repository is not exposed to what its source may serve. -/
theorem replacesOrKeeps_iff (env : Environment) (lock : Except RefreshError Unit) (repository : String)
    (source : Source) (metadataTrust : Option MetadataTrust) (s : CacheStore) :
    (∀ transport, ReplacesOrKeeps { env with transport } lock repository source metadataTrust s) ↔
      (lock = .ok () → ∀ url repomd, Serves env (fun _ _ => True) source url repomd →
        ¬ Exposed env repository metadataTrust s url repomd) := by
  constructor
  · rintro h rfl url repomd hserves hexposed
    obtain ⟨transport, pointer, hpointer, hmoved⟩ := exists_moved hserves hexposed
    exact @not_replacesOrKeeps_of_moved { env with transport } _ _ _ _ _ _ hpointer hmoved (h transport)
  · intro hsafe transport
    refine replacesOrKeeps_of_safe fun hlock url repomd hserves hexposed => ?_
    refine hsafe hlock url repomd ?_ hexposed
    cases hserves with
    | baseUrl hallowed h => exact .baseUrl hallowed h
    | metalink hallowed h hparse hresource h' haccepts =>
      exact .metalink hallowed h hparse hresource h' haccepts
    | mirrorlist hallowed h hparse hbase h' => exact .mirrorlist hallowed h ((parseMirrorlist_transport _ _).symm.trans hparse) hbase h'

end

/-! ## A failed refresh that changes the evidence -/

def appOrigin : String := "https://d/r/repodata/repomd.xml"

/-- The digests of the texts of the repository. -/
def appHashes : List (List UInt8 × Core.Sha256Digest) := [
  ("app".asBytes, ⟨"a172cedcae47474b615c54d510a5d84a8dea3032e958587430b413538be3f333",
    Core.isLowerDigest_ofList (by decide)⟩),
  ("repomd".asBytes, ⟨"d0df476353bf7bd128a22e414a59d0baebd1fb57d11d6a197ad839227e02dad0",
    Core.isLowerDigest_ofList (by decide)⟩),
  ("primary".asBytes, ⟨"986a1b7135f4986150aa5fa0028feeaa66cdaf3ed6a00a355dd86e042f7fb494",
    Core.isLowerDigest_primary⟩),
  ("filelists".asBytes, ⟨"d34b6d53edfbb763dde137d3a4cb839f7699c59a730b4b3bd74f0dc7d6acf2cd",
    Core.isLowerDigest_filelists⟩),
  ("packages".asBytes, ⟨"b28b1ed9821f38c64524ea13e19264bb0772f8376afffd5d8a1f8277621833eb",
    Core.isLowerDigest_ofList (by decide)⟩),
  ("identities".asBytes, ⟨"13c7351360f0032d02f4aafa524e669afec7079584fd02a2a6f7171f5abf365d",
    Core.isLowerDigest_ofList (by decide)⟩),
  (appOrigin.asBytes, ⟨"d2d576c93df232b52d736c5cb94b75ad2491c8ba38c423126edf4374017a6761",
    Core.isLowerDigest_ofList (by decide)⟩)]

/-- The digest of no bytes. -/
def emptyHash : Core.Sha256Digest :=
  ⟨"e3b0c44298fc1c149afbf4c8996fb92427ae41e4649b934ca495991b7852b855", Core.isLowerDigest_noBytes⟩

def appHash (text : String) : String := ((appHashes.lookup text.asBytes).getD emptyHash).asStr

def appRecord (name text : String) : Cache.FileRecord :=
  ⟨name, appHash text, UInt64.ofNat text.utf8ByteSize⟩

def appManifest : Cache.Manifest where
  version := 5
  repomd := appRecord "repomd.xml" "repomd"
  primary := appRecord "primary" "primary"
  searchIndex := appRecord "packages.json" "packages"
  repository := appRecord "repo-id" "app"
  integrity := .completeMetadata
  filelists := some (appRecord "filelists" "filelists")
  filelistsIndex := none
  solverInputs := none
  primaryIdentities := some (appRecord "primary-identities.json" "identities")
  primaryFiles := some (appRecord "primary-files.bin" "")
  sourceOrigin := some (appRecord "source-origin" appOrigin)

def appFiles : Cache.Files := Std.ExtTreeMap.ofList [("manifest.json", "manifest".asBytes),
  ("repomd.xml", "repomd".asBytes), ("primary", "primary".asBytes), ("packages.json", "packages".asBytes),
  ("repo-id", "app".asBytes), ("filelists", "filelists".asBytes),
  ("primary-identities.json", "identities".asBytes), ("primary-files.bin", []),
  ("source-origin", appOrigin.asBytes)]

/-- The comps of the repository. -/
def appGroup : Metadata.AuxiliaryRecord :=
  ⟨"repodata/comps.xml", "32c4572e452cfe58b80c76a23488c10b23739ccc37cbb027e465e2fad37b6031", 8⟩

def appMetadata (text : String) : Metadata.MetadataRecord :=
  ⟨"repodata/" ++ text ++ ".xml", appHash text, UInt64.ofNat text.utf8ByteSize, appHash text,
    UInt64.ofNat text.utf8ByteSize⟩

def appPackage : Metadata.Package := ⟨"app", "noarch", "0", "1", "1", "application"⟩

def appIdentity : Planning.LazyIndex.PrimaryPackageIdentity :=
  ⟨"0000000000000000000000000000000000000000000000000000000000000001", "app", "noarch", "0", "1", "1"⟩

def appLibrary : Cache.Library where
  crates := ⟨fun bytes => (appHashes.lookup bytes).getD emptyHash, fun _ => none,
    fun url => some ⟨"https", some "d", "", none, none, none, url⟩⟩
  parsers := {
    parseRepomd _ := .ok (appMetadata "primary")
    parseRepomdRecords _ := .ok ⟨appMetadata "primary", appMetadata "filelists", some appGroup, none, none⟩
    decodePrimary _ _ := .ok []
    parsePrimary _ := .ok [appPackage]
    decodeRecord _ _ := .ok []
    parsePrimaryRecords _ := .error "unexpected end of document"
    parseFilelistsRecord _ _ := .error "unexpected end of document"
    validateFilelistsGeneration _ _ := .ok ()
    validatePrimaryRecord _ _ := .ok ⟨[appPackage], [appIdentity], []⟩
    validateFilelistsRecordIdentities _ _ _ := .ok () }
  json := {
    manifestToVec _ := "manifest".asBytes
    manifestFromSlice _ := .ok appManifest
    versionFromSlice _ := .ok (some 5)
    packagesToVec _ := "packages".asBytes
    packagesFromSlice _ := .ok [appPackage]
    identitiesToVec _ := "identities".asBytes
    identitiesFromSlice _ := .ok [appIdentity]
    solverInputsFromSlice _ := .error "unexpected end of document"
    filelistsFromSlice _ := .error "unexpected end of document" }

/-- The evidence of the current generation: it was signed. -/
def appEvidence : RepomdAuthentication :=
  .openPgp "AAAAAAAAAAAAAAAAAAAAAAAAAAAAAAAAAAAAAAAA" "BBBBBBBBBBBBBBBBBBBBBBBBBBBBBBBBBBBBBBBB"
    "1a2fc26dc7ea5a2a4748b7cb2b1ef193d96ab2c99f93092f69e63075b28d1278"
    "13c7351360f0032d02f4aafa524e669afec7079584fd02a2a6f7171f5abf365d"

def appPointer : CurrentPointer := ⟨1, appHash "repomd", appEvidence⟩

def appCache : CacheStore where
  objects := Std.ExtTreeMap.ofList [(appHash "repomd", appFiles)]
  repos := Std.ExtTreeMap.ofList [(appHash "app", (⟨some "app".asBytes, some appPointer.bytes⟩ : Cache.RepositoryDir))]
  auxiliary := ∅

def appEnvironment : Environment where
  cache := appLibrary
  urlPath _ := "/r"
  parseMetalink _ := .error "unexpected end of document"
  verifySignatures _ _ _ _ := .error "unexpected end of document"
  transport := scripted [some "repomd".asBytes]

def appGeneration : Cache.VerifiedCompleteGeneration where
  digest := appHash "repomd"
  repository := "app"
  origin := appOrigin
  repomd := "repomd".asBytes
  primary := "primary".asBytes
  filelists := "filelists".asBytes
  primaryIdentities := some [appIdentity]
  primaryFiles := some []
  repomdAuthentication := .transportOnly

theorem opens_app :
    Cache.openVerifiedCompleteGeneration appLibrary appCache (appHash "repomd") = .ok appGeneration ∧
      Cache.openSearchIndex appLibrary appCache (appHash "repomd") = .ok ("app", [appPackage]) := by
  simp only [← Except.toOption_eq_some]
  decide +kernel

theorem pointer_app : Cache.currentPointer appLibrary appCache "app" = .ok appPointer := by
  have hcurrent : appCache.currentOf (Cache.repositoryKey appLibrary "app") = some appPointer.bytes := by
    decide +kernel
  exact Cache.currentPointer_of_bytes (by decide +kernel) rfl hcurrent

/-- The generation is the current one and its comps are not in the cache; without keys to trust, it is
authenticated with less than before. -/
theorem reusable_app : Cache.reusable appLibrary "app" "repomd".asBytes appOrigin .transportOnly appCache =
    .ok (some ⟨appHash "repomd", [appPackage]⟩) := by
  have horigin : (Planning.selectedOrigin appLibrary.crates appOrigin).toOption = some appOrigin := by
    decide +kernel
  rw [Except.toOption_eq_some] at horigin
  have hdigest : Cache.sha256 appLibrary "repomd".asBytes = appHash "repomd" := rfl
  unfold Cache.reusable
  rw [horigin, pointer_app, hdigest, opens_app.1, opens_app.2]
  rfl

theorem refresh_moves_evidence :
    ¬ ReplacesOrKeeps appEnvironment (.ok ()) "app" (.baseUrl "https://d/r") none appCache := by
  have hallowed : (validateHttps appEnvironment "https://d/r").toOption = some () := by decide +kernel
  have horigin : (Planning.selectedOrigin appLibrary.crates appOrigin).toOption = some appOrigin := by
    decide +kernel
  have hurl : repomdUrl (trimEndSlashes "https://d/r") = appOrigin := by decide +kernel
  have hmissing : ∀ bytes, Cache.openAuxiliary appLibrary appCache appGroup ≠ .ok bytes := by
    have hnone : (Cache.openAuxiliary appLibrary appCache appGroup).toOption = none := by decide +kernel
    intro bytes h
    rw [h] at hnone
    cases hnone
  have hchecked : (Cache.checkedRepoId appLibrary appCache "app").toOption = some () := by decide +kernel
  rw [Except.toOption_eq_some] at hallowed horigin hchecked
  have hattempts : Attempts appEnvironment "app" (repomdUrl (trimEndSlashes "https://d/r")) none
      "repomd".asBytes appPointer [] appCache := by
    intro s parallel hs hfollows
    rw [hurl]
    rw [← hs] at hmissing hchecked
    exact post_finishGeneration_exposed horigin ⟨rfl, rfl⟩ rfl nofun (hs ▸ reusable_app) hchecked
      (List.mem_singleton.mpr rfl) hmissing hfollows
  have hfollows : Follows appEnvironment 0 [some "repomd".asBytes] := by
    intro i url maximumBytes
    rw [Nat.zero_add]
    rfl
  exact not_replacesOrKeeps_of_moved pointer_app
    (@post_baseUrl_moved _ _ _ ⟨appCache, 0⟩ _ _ _ _ hallowed hattempts hfollows)

end Dnfast.Refresh
