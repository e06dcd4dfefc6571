import Dnfast.Repo.Loader

/-! # Options on the command line

`dnfast-repo`, `apply_setopts` of `profile.rs`: an option names a key of the main configuration or of a
repository, and overrides it in a profile that has been loaded. -/

namespace Dnfast.Repo

open Except (refuseIf okOr)

/-- What an option names. -/
inductive SetoptTarget where
  | main (key : String)
  | repo (id key : String)
  deriving DecidableEq, Repr

def setoptError (line : Nat) (message : String) : MutationError := ⟨"<command-line>", line, message⟩

def setoptTarget (line : Nat) (target : String) : Except MutationError SetoptTarget :=
  match target.toList.dropPrefix? "main.".toList with
  | some key => .ok (.main (String.ofList key))
  | none => do
    let rest ← okOr (target.toList.dropPrefix? "repo.".toList)
      (setoptError line "malformed setopt target")
    let (id, key) ← okOr (List.rsplitOnce '.' rest)
      (setoptError line "malformed repo setopt target")
    return .repo (String.ofList id) (String.ofList key)

/-- What the option names, and the value. -/
def readSetopt (line : Nat) (option : String) : Except MutationError (SetoptTarget × String) := do
  let (target, value) ← pair "<command-line>" line option.toList
  let target ← setoptTarget line target
  return (target, value)

/-- The loop over the options: the profile, and the ids whose trust has to be settled again. -/
structure SetoptState where
  profile : MutationProfile
  trustChanged : List String := []

def assignSetopt (line : Nat) (repo : RepoConfig) (key value : String) :
    Except ExpireFailure RepoConfig :=
  match key with
  | "excludepkgs" => .ok { repo with excludepkgs := resetOrAppend repo.excludepkgs value }
  | "includepkgs" => .ok { repo with includepkgs := resetOrAppend repo.includepkgs value }
  | _ => assignRepo "<command-line>" line repo key value

/-- The first repository with the id is changed. -/
def updateRepository (line : Nat) (id key value : String) :
    List RepoConfig → Except ExpireFailure (List RepoConfig)
  | [] => .error (.refused (setoptError line "unknown repository setopt target"))
  | repo :: repositories =>
    if repo.id = id then do
      let repo ← assignSetopt line repo key value
      return repo :: repositories
    else do
      let repositories ← updateRepository line id key value repositories
      return repo :: repositories

def setTarget (line : Nat) (s : SetoptState) (target : SetoptTarget) (value : String) :
    Except ExpireFailure SetoptState :=
  match target with
  | .main key => do
    let main ← (applyMainValue "<command-line>" line s.profile.main key value).mapError .refused
    return ⟨{ s.profile with main }, s.trustChanged⟩
  | .repo id key => do
    let repositories ← updateRepository line id key value s.profile.repositories
    return ⟨{ s.profile with repositories },
      if key = "gpgkey" ∨ key = "enabled" then id :: s.trustChanged else s.trustChanged⟩

def setopt (s : SetoptState) (option : String × Nat) : Except ExpireFailure SetoptState := do
  let (target, value) ← (readSetopt (option.2 + 1) option.1).mapError .refused
  setTarget (option.2 + 1) s target value

/-- The options one after another, the first with the index that is given. -/
def setopts (s : SetoptState) (options : List String) (index : Nat) :
    Except ExpireFailure SetoptState :=
  (options.zipIdx index).foldlM setopt s

section
variable (host : KeyHost)

def settleTrust (trustChanged : List String) (repo : RepoConfig) : Except MutationError RepoConfig :=
  if repo.id ∉ trustChanged then .ok repo
  else if repo.enabled then do
    let gpgkey ← normalizeGpgkeyLocations repo.gpgkey
    let bundle ← keyBundleDigest host repo.id gpgkey
    return { repo with gpgkey, keyBundleDigest := some bundle.digest }
  else .ok { repo with keyBundleDigest := none }

def applySetopts (profile : MutationProfile) (options : List String) :
    Except ExpireFailure MutationProfile := do
  let s ← setopts ⟨profile, []⟩ options 0
  let repositories ← (s.profile.repositories.mapM (settleTrust host s.trustChanged)).mapError .refused
  return { s.profile with repositories }

end

/-! ## Settings -/

/-- What an accepted setting does to a repository. -/
inductive Setting (repo : RepoConfig) (value : String) : String → RepoConfig → Prop
  | name : Setting repo value "name" { repo with name := some value }
  | checked {key : String} (h : key ∈ ["type", "countme", "enabled_metadata"]) :
      Setting repo value key repo
  | enabled {enabled : Bool} (h : booleanValue value = some enabled) :
      Setting repo value "enabled" { repo with enabled }
  | baseurl : Setting repo value "baseurl" { repo with baseurl := resetOrAppend repo.baseurl value }
  | metalink : Setting repo value "metalink" { repo with metalink := nonempty value }
  | mirrorlist : Setting repo value "mirrorlist" { repo with mirrorlist := nonempty value }
  | priority {priority : UInt16} : Setting repo value "priority" { repo with priority }
  | cost {cost : UInt32} : Setting repo value "cost" { repo with cost }
  | skip {skipIfUnavailable : Bool} :
      Setting repo value "skip_if_unavailable" { repo with skipIfUnavailable }
  | expire {metadataExpire : MetadataExpire} :
      Setting repo value "metadata_expire" { repo with metadataExpire }
  | sslverify : Setting repo value "sslverify" { repo with sslverify := true }
  | gpgcheck : Setting repo value "gpgcheck" { repo with gpgcheck := true }
  | pkgGpgcheck : Setting repo value "pkg_gpgcheck" { repo with pkgGpgcheck := true }
  | repoGpgcheck {repoGpgcheck : Bool} :
      Setting repo value "repo_gpgcheck" { repo with repoGpgcheck }
  | proxy : Setting repo value "proxy"
      { repo with proxy := if value = "" ∨ value = "_none_" then none else some value }
  | excludepkgs : Setting repo value "excludepkgs"
      { repo with excludepkgs := resetOrAppend repo.excludepkgs value }
  | includepkgs : Setting repo value "includepkgs"
      { repo with includepkgs := resetOrAppend repo.includepkgs value }
  | gpgkey : Setting repo value "gpgkey"
      { repo with gpgkey := resetOrAppendChecked repo.gpgkey (words value) }
  | fingerprints : Setting repo value "dnfast_allowed_fingerprints"
      { repo with
        allowedFingerprints := resetOrAppendChecked repo.allowedFingerprints (words value) }

section
variable {path : String} {line : Nat} {repo repo' other : RepoConfig} {key value : String}

theorem uniqueWords_eq_ok {values : List String} (h : uniqueWords path line value = .ok values) :
    values = words value := by
  unfold uniqueWords at h
  split at h
  · cases h
    rfl
  · cases h

theorem fingerprints_eq_ok {values : List String} (h : fingerprints path line value = .ok values) :
    values = words value := by
  unfold fingerprints at h
  split at h
  · cases h
    rfl
  · cases h

theorem setting_of_assignRepo (h : assignRepo path line repo key value = .ok repo') :
    Setting repo value key repo' := by
  unfold assignRepo at h
  split at h
  case h_1 =>
    cases h
    exact .name
  case h_2 | h_11 =>
    split at h
    · cases h
      exact .checked (by decide)
    · cases h
  case h_3 =>
    obtain ⟨_, hvalue, h⟩ := Except.bind_eq_ok.mp h
    cases h
    exact .enabled (Except.okOr_eq_ok.mp (Except.mapError_eq_ok.mp hvalue))
  case h_4 =>
    cases h
    exact .baseurl
  case h_5 =>
    cases h
    exact .metalink
  case h_6 =>
    cases h
    exact .mirrorlist
  case h_7 =>
    split at h
    · cases h
      exact .priority
    · cases h
  case h_8 =>
    split at h
    · cases h
      exact .cost
    · cases h
  case h_9 =>
    obtain ⟨_, -, h⟩ := Except.bind_eq_ok.mp h
    cases h
    exact .skip
  case h_10 =>
    obtain ⟨_, -, h⟩ := Except.bind_eq_ok.mp h
    cases h
    exact .expire
  case h_12 =>
    obtain ⟨_, -, h⟩ := Except.bind_eq_ok.mp h
    cases h
    exact .checked (by decide)
  case h_13 =>
    obtain ⟨_, -, h⟩ := Except.bind_eq_ok.mp h
    cases h
    exact .sslverify
  case h_14 =>
    obtain ⟨_, -, h⟩ := Except.bind_eq_ok.mp h
    cases h
    exact .gpgcheck
  case h_15 =>
    obtain ⟨_, -, h⟩ := Except.bind_eq_ok.mp h
    cases h
    exact .pkgGpgcheck
  case h_16 =>
    obtain ⟨_, -, h⟩ := Except.bind_eq_ok.mp h
    cases h
    exact .repoGpgcheck
  case h_17 =>
    split at h
    · cases h
    · cases h
      exact .proxy
  case h_18 =>
    cases h
    exact .excludepkgs
  case h_19 =>
    cases h
    exact .includepkgs
  case h_20 =>
    obtain ⟨_, hwords, h⟩ := Except.bind_eq_ok.mp h
    cases h
    rw [uniqueWords_eq_ok hwords]
    exact .gpgkey
  case h_21 =>
    obtain ⟨_, hwords, h⟩ := Except.bind_eq_ok.mp h
    cases h
    rw [fingerprints_eq_ok hwords]
    exact .fingerprints
  case h_22 => cases h

theorem setting_of_assignSetopt (h : assignSetopt line repo key value = .ok repo') :
    Setting repo value key repo' := by
  unfold assignSetopt at h
  split at h
  · cases h
    exact .excludepkgs
  · cases h
    exact .includepkgs
  · exact setting_of_assignRepo h

/-- Whether a setting is accepted does not depend on the repository. -/
theorem exists_assignRepo (other : RepoConfig) (h : assignRepo path line repo key value = .ok repo') :
    ∃ other', assignRepo path line other key value = .ok other' := by
  unfold assignRepo at h ⊢
  split at h
  case h_1 | h_4 | h_5 | h_6 | h_18 | h_19 => exact ⟨_, rfl⟩
  case h_2 | h_11 =>
    split at h
    · next haccepted => exact ⟨_, if_pos haccepted⟩
    · cases h
  case h_7 | h_8 =>
    split at h
    · exact ⟨_, rfl⟩
    · cases h
  case h_17 =>
    split at h
    · cases h
    · next hproxy => exact ⟨_, if_neg hproxy⟩
  case h_22 => cases h
  case h_3 | h_9 | h_10 | h_12 | h_13 | h_14 | h_15 | h_16 | h_20 | h_21 =>
    obtain ⟨_, hvalue, -⟩ := Except.bind_eq_ok.mp h
    rw [hvalue]
    exact ⟨_, rfl⟩

theorem exists_assignSetopt (other : RepoConfig) (h : assignSetopt line repo key value = .ok repo') :
    ∃ other', assignSetopt line other key value = .ok other' := by
  unfold assignSetopt at h ⊢
  split at h
  · exact ⟨_, rfl⟩
  · exact ⟨_, rfl⟩
  · exact exists_assignRepo other h

end

/-! ## The settings of one repository -/

/-- What the option names, whichever line it stands on. -/
def addressed (option : String) : Option (SetoptTarget × String) := (readSetopt 0 option).toOption

def settingOf (id : String) : SetoptTarget × String → Option (String × String)
  | (.main _, _) => none
  | (.repo id' key, value) => if id' = id then some (key, value) else none

/-- The keys and values that the options name for the repository. -/
def repoSettings (id : String) (options : List String) : List (String × String) :=
  (options.filterMap addressed).filterMap (settingOf id)

/-- The values of one key. -/
def valuesOf (key : String) (settings : List (String × String)) : List String :=
  settings.filterMap fun setting => if setting.1 = key then some setting.2 else none

/-- A key that the bundle of keys depends on is named. -/
def namesTrust (settings : List (String × String)) : Bool :=
  settings.any fun setting => setting.1 = "gpgkey" || setting.1 = "enabled"

/-- Settings one after another. -/
inductive Settings : RepoConfig → List (String × String) → RepoConfig → Prop
  | nil (repo : RepoConfig) : Settings repo [] repo
  | cons {repo next repo' : RepoConfig} {key value : String} {rest : List (String × String)}
      (h : Setting repo value key next) (hrest : Settings next rest repo') :
      Settings repo ((key, value) :: rest) repo'

section
variable {line line' index : Nat} {option id key value : String} {options : List String}
  {target : SetoptTarget} {repo repo' : RepoConfig} {settings : List (String × String)}

theorem readSetopt_line (h : readSetopt line option = .ok (target, value)) :
    readSetopt line' option = .ok (target, value) := by
  simp only [readSetopt, pair, setoptTarget, Except.bind_eq_ok, Except.okOr_eq_ok,
    Except.refuseIf_eq_ok, Except.pure_eq_ok] at h ⊢
  obtain ⟨⟨target, value⟩, hpair, target', htarget, heq⟩ := h
  refine ⟨(target, value), hpair, target', ?_, heq⟩
  revert htarget
  cases target.toList.dropPrefix? "main.".toList with
  | some key => exact id
  | none => simp only [Except.bind_eq_ok, Except.okOr_eq_ok, imp_self]

theorem addressed_eq_some (h : readSetopt line option = .ok (target, value)) :
    addressed option = some (target, value) := by
  rw [addressed, readSetopt_line h]
  rfl

theorem repoSettings_cons_of_main (h : addressed option = some (.main key, value)) :
    repoSettings id (option :: options) = repoSettings id options := by
  rw [repoSettings, List.filterMap_cons_some h, List.filterMap_cons_none rfl, repoSettings]

theorem repoSettings_cons_of_repo (h : addressed option = some (.repo id key, value)) :
    repoSettings id (option :: options) = (key, value) :: repoSettings id options := by
  have hsetting : settingOf id (.repo id key, value) = some (key, value) := if_pos rfl
  rw [repoSettings, List.filterMap_cons_some h, List.filterMap_cons_some hsetting, repoSettings]

theorem repoSettings_cons_of_ne {id' : String} (h : addressed option = some (.repo id' key, value))
    (hne : id ≠ id') : repoSettings id (option :: options) = repoSettings id options := by
  have hsetting : settingOf id (.repo id' key, value) = none := if_neg hne.symm
  rw [repoSettings, List.filterMap_cons_some h, List.filterMap_cons_none hsetting, repoSettings]

theorem Setting.id_eq (h : Setting repo value key repo') : repo'.id = repo.id := by
  cases h <;> rfl

theorem Settings.id_eq (h : Settings repo settings repo') : repo'.id = repo.id := by
  induction h with
  | nil => rfl
  | cons h _ ih => rw [ih, h.id_eq]

/-- A field that one key determines is what the values of the key make of it. -/
theorem Settings.fold {α : Type} {field : RepoConfig → α} {set : α → String → α}
    (hset : ∀ {repo value k repo'}, Setting repo value k repo' →
      field repo' = if k = key then set (field repo) value else field repo)
    (h : Settings repo settings repo') :
    field repo' = (valuesOf key settings).foldl set (field repo) := by
  induction h with
  | nil => rfl
  | @cons _ _ _ k _ _ h _ ih =>
    rw [ih, hset h]
    by_cases hkey : k = key
    · simp [valuesOf, hkey]
    · simp [valuesOf, hkey]

/-! ## One option, and all of them -/

/-- The repository of the id is changed by the setting, the others are not. -/
def Addresses (line : Nat) (id key value : String) (repo repo' : RepoConfig) : Prop :=
  if repo.id = id then assignSetopt line repo key value = .ok repo' else repo' = repo

theorem Addresses.id_eq (h : Addresses line id key value repo repo') : repo'.id = repo.id := by
  unfold Addresses at h
  split at h
  · exact (setting_of_assignSetopt h).id_eq
  · rw [h]

variable {repositories repositories' others : List RepoConfig} {s s' t : SetoptState}

theorem forall₂_addresses (hid : ∀ repo ∈ repositories, repo.id ≠ id) :
    List.Forall₂ (Addresses line id key value) repositories repositories := by
  rw [List.forall₂_same]
  intro repo hrepo
  exact (if_neg (hid repo hrepo)).mpr rfl

theorem updateRepository_eq_ok (hnodup : (repositories.map (·.id)).Nodup)
    (h : updateRepository line id key value repositories = .ok repositories') :
    List.Forall₂ (Addresses line id key value) repositories repositories' := by
  induction repositories generalizing repositories' with
  | nil => cases h
  | cons repo repositories ih =>
    rw [List.map_cons, List.nodup_cons] at hnodup
    rw [updateRepository] at h
    split at h
    · next hid =>
      obtain ⟨repo', hassign, h⟩ := Except.bind_eq_ok.mp h
      cases h
      refine .cons ((if_pos hid).mpr hassign) (forall₂_addresses fun other hother heq => ?_)
      exact hnodup.1 (List.mem_map.mpr ⟨other, hother, heq.trans hid.symm⟩)
    · next hid =>
      obtain ⟨rest, hrest, h⟩ := Except.bind_eq_ok.mp h
      cases h
      exact .cons ((if_neg hid).mpr rfl) (ih hnodup.2 hrest)

/-- Over other repositories with the same ids the update succeeds as well. -/
theorem exists_updateRepository (hids : others.map (·.id) = repositories.map (·.id))
    (h : updateRepository line id key value repositories = .ok repositories') :
    ∃ others', updateRepository line id key value others = .ok others' := by
  induction repositories generalizing others repositories' with
  | nil => cases h
  | cons repo repositories ih =>
    obtain ⟨other, others, rfl, -⟩ := List.map_eq_cons_iff.mp (hids.trans (List.map_cons ..))
    rw [List.map_cons, List.map_cons, List.cons.injEq] at hids
    rw [updateRepository] at h ⊢
    rw [hids.1]
    split at h
    · next hid =>
      obtain ⟨repo', hassign, -⟩ := Except.bind_eq_ok.mp h
      obtain ⟨other', hother⟩ := exists_assignSetopt other hassign
      rw [if_pos hid, hother]
      exact ⟨_, rfl⟩
    · next hid =>
      obtain ⟨rest, hrest, -⟩ := Except.bind_eq_ok.mp h
      obtain ⟨others', hothers⟩ := ih hids.2 hrest
      rw [if_neg hid, hothers]
      exact ⟨_, rfl⟩

/-- What an accepted option does. -/
inductive OptionStep (line : Nat) (option : String) (s : SetoptState) : SetoptState → Prop
  | main {key value : String} {main : MainConfig} (haddressed : addressed option = some (.main key, value))
      (h : applyMainValue "<command-line>" line s.profile.main key value = .ok main) :
      OptionStep line option s ⟨{ s.profile with main }, s.trustChanged⟩
  | repo {id key value : String} {repositories : List RepoConfig}
      (haddressed : addressed option = some (.repo id key, value))
      (h : updateRepository line id key value s.profile.repositories = .ok repositories) :
      OptionStep line option s ⟨{ s.profile with repositories },
        if key = "gpgkey" ∨ key = "enabled" then id :: s.trustChanged else s.trustChanged⟩

theorem setopt_eq_ok (h : setopt s (option, index) = .ok s') : OptionStep (index + 1) option s s' := by
  obtain ⟨⟨target, value⟩, hread, h⟩ := Except.bind_eq_ok.mp h
  have haddressed := addressed_eq_some (Except.mapError_eq_ok.mp hread)
  cases target with
  | main key =>
    obtain ⟨main, hmain, h⟩ := Except.bind_eq_ok.mp h
    cases h
    exact .main haddressed (Except.mapError_eq_ok.mp hmain)
  | repo id key =>
    obtain ⟨repositories, hrepositories, h⟩ := Except.bind_eq_ok.mp h
    cases h
    exact .repo haddressed hrepositories

theorem setopts_cons : setopts s (option :: options) index =
    setopt s (option, index) >>= fun next => setopts next options (index + 1) := by
  rw [setopts, List.zipIdx_cons, List.foldlM_cons]
  rfl

end

end Dnfast.Repo
