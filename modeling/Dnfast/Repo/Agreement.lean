import Dnfast.Data.Exchange
import Dnfast.Data.Forall2
import Dnfast.Repo.Parser

/-! # Both readings of a repository file agree

What the strict reading accepts, the lenient one reads the same, and the refresh policy follows it
unless a section sets a proxy. The readings go over the lines together: `Reached` says what the
strict reading knows of its sections, `Tracks` how the lenient one stands beside it, and `Policed`
what the policy of a repository has come to. -/

namespace Dnfast.Repo

open Except (refuseIf okOr)

/-! ## One line of the strict reading -/

section
variable {path : String} {main : MainConfig} {number : Nat} {line : List Char}
  {s s' : ProfileState} {repo repo' : RepoConfig} {key value : String}

/-- What an accepted line does. -/
inductive ProfileStep (path : String) (main : MainConfig) (number : Nat) (line : List Char)
    (s : ProfileState) : ProfileState → Prop
  | comment (h : isComment line = true) : ProfileStep path main number line s s
  | opens {id : String} {repositories : List RepoConfig} (hcomment : isComment line = false)
      (hhead : line.head? = some '[') (hlast : line.getLast? = some ']')
      (hid : String.ofList (sectionName line) = id) (hvalid : validId id = true)
      (hfresh : id ∉ s.seenIds) (hfinish : finishCurrent path number s = .ok repositories) :
      ProfileStep path main number line s ⟨repositories, some (.new id main), id :: s.seenIds, []⟩
  | sets {repo repo' : RepoConfig} {key value : List Char} (hcomment : isComment line = false)
      (hhead : line.head? ≠ some '[') (hcurrent : s.current = some repo)
      (hpair : List.splitOnce ['='] line = some (key, value))
      (hfresh : String.ofList (trim key) ∉ s.seenKeys)
      (hassign : assignRepo path number repo (String.ofList (trim key)) (String.ofList (trim value)) =
        .ok repo') :
      ProfileStep path main number line s
        { s with current := some repo', seenKeys := String.ofList (trim key) :: s.seenKeys }

theorem splitOnce_of_pair (h : pair path number line = .ok (key, value)) :
    ∃ key' value', List.splitOnce ['='] line = some (key', value') ∧
      String.ofList (trim key') = key ∧ String.ofList (trim value') = value := by
  obtain ⟨⟨key', value'⟩, hsplit, h⟩ := Except.bind_eq_ok.mp h
  simp only [Except.bind_eq_ok, Except.pure_eq_ok] at h
  obtain ⟨_, -, _, -, h⟩ := h
  obtain ⟨rfl, rfl⟩ := Prod.mk.inj h
  exact ⟨key', value', Except.okOr_eq_ok.mp hsplit, rfl, rfl⟩

theorem profileStep_of_line {raw : List Char × Nat} (h : profileLine path main s raw = .ok s') :
    ProfileStep path main (raw.2 + 1) (trim raw.1) s s' := by
  unfold profileLine at h
  simp only at h
  split at h
  · next hcomment =>
    cases h
    exact .comment hcomment
  · next hcomment =>
    rw [Bool.not_eq_true] at hcomment
    split at h
    · next hhead =>
      simp only [profileSection, Except.refuseIf_eq_ok, Except.bind_eq_ok, Except.pure_eq_ok,
        not_not] at h
      obtain ⟨_, hlast, repositories, hfinish, _, hvalid, _, hfresh, _, -, rfl⟩ := h
      exact .opens hcomment hhead hlast rfl (by simpa using hvalid) hfresh hfinish
    · next hhead =>
      simp only [profileKey, Except.bind_eq_ok, Except.okOr_eq_ok] at h
      obtain ⟨repo, hcurrent, ⟨key, value⟩, hpair, h⟩ := h
      simp only [Except.refuseIf_eq_ok, Except.pure_eq_ok] at h
      obtain ⟨_, hfresh, repo', hassign, rfl⟩ := h
      obtain ⟨key', value', hsplit, rfl, rfl⟩ := splitOnce_of_pair (Except.mapError_eq_ok.mp hpair)
      exact .sets hcomment hhead hcurrent hsplit hfresh hassign

theorem finishCurrent_eq_ok {repositories : List RepoConfig} :
    finishCurrent path number s = .ok repositories ↔
      (∀ repo ∈ s.current, repo.enabled = true → repo.hasSource = true) ∧
        repositories = s.repositories ++ s.current.toList := by
  unfold finishCurrent
  cases s.current with
  | none =>
    rw [Option.toList_none, List.append_nil, Except.ok.injEq, eq_comm]
    exact ⟨fun h => ⟨fun _ hrepo => absurd hrepo (Option.not_mem_none _), h⟩, And.right⟩
  | some repo =>
    dsimp only [finish, refused]
    split
    · next hbad =>
      rw [Bool.and_eq_true, Bool.not_eq_true'] at hbad
      refine iff_of_false (fun h => by cases h) fun h => ?_
      have hsource := h.1 repo rfl hbad.1
      rw [hbad.2] at hsource
      cases hsource
    · next hgood =>
      rw [Except.ok.injEq, Option.toList_some, eq_comm, iff_and_self]
      rintro - _ ⟨⟩ henabled
      by_contra hsource
      rw [Bool.not_eq_true] at hsource
      rw [henabled, hsource] at hgood
      exact hgood rfl

/-- The keys that neither the lenient reading nor the policy looks at. -/
def otherKeys : List String :=
  ["name", "type", "priority", "cost", "metadata_expire", "countme", "enabled_metadata", "gpgcheck",
    "pkg_gpgcheck", "repo_gpgcheck", "excludepkgs", "includepkgs", "gpgkey",
    "dnfast_allowed_fingerprints"]

/-- The same sources, and the same for the policy. -/
structure SameSources (repo repo' : RepoConfig) : Prop where
  id : repo'.id = repo.id
  enabled : repo'.enabled = repo.enabled
  baseurl : repo'.baseurl = repo.baseurl
  metalink : repo'.metalink = repo.metalink
  mirrorlist : repo'.mirrorlist = repo.mirrorlist
  skipIfUnavailable : repo'.skipIfUnavailable = repo.skipIfUnavailable
  proxy : repo'.proxy = repo.proxy

/-- What an accepted setting does to what the other readings look at. -/
inductive Assigned (repo : RepoConfig) (value : String) : String → RepoConfig → Prop
  | enabled {enabled : Bool} (h : booleanValue value = some enabled) :
      Assigned repo value "enabled" { repo with enabled }
  | baseurl : Assigned repo value "baseurl" { repo with baseurl := resetOrAppend repo.baseurl value }
  | metalink : Assigned repo value "metalink" { repo with metalink := nonempty value }
  | mirrorlist : Assigned repo value "mirrorlist" { repo with mirrorlist := nonempty value }
  | skip {skipIfUnavailable : Bool} (h : booleanValue value = some skipIfUnavailable) :
      Assigned repo value "skip_if_unavailable" { repo with skipIfUnavailable }
  | sslverify (h : booleanValue value = some true) :
      Assigned repo value "sslverify" { repo with sslverify := true }
  | proxy : Assigned repo value "proxy"
      { repo with proxy := if value = "" ∨ value = "_none_" then none else some value }
  | other {key : String} {repo' : RepoConfig} (hkey : key ∈ otherKeys)
      (hsame : SameSources repo repo') : Assigned repo value key repo'

theorem booleanOf_eq_ok {b : Bool} :
    booleanOf path number value = .ok b ↔ booleanValue value = some b := by
  rw [booleanOf, Except.mapError_eq_ok, boolean, Except.okOr_eq_ok]

theorem keptOn_eq_ok {u : Unit} :
    keptOn path number key value = .ok u ↔ booleanValue value = some true := by
  simp only [keptOn, Except.bind_eq_ok, booleanOf_eq_ok]
  constructor
  · rintro ⟨_ | _, hb, h⟩
    · cases h
    · exact hb
  · exact fun h => ⟨true, h, rfl⟩

theorem assigned_of_assignRepo (h : assignRepo path number repo key value = .ok repo') :
    Assigned repo value key repo' := by
  unfold assignRepo at h
  split at h
  case h_3 =>
    obtain ⟨_, hvalue, h⟩ := Except.bind_eq_ok.mp h
    cases h
    exact .enabled (booleanOf_eq_ok.mp hvalue)
  case h_4 =>
    cases h
    exact .baseurl
  case h_5 =>
    cases h
    exact .metalink
  case h_6 =>
    cases h
    exact .mirrorlist
  case h_9 =>
    obtain ⟨_, hvalue, h⟩ := Except.bind_eq_ok.mp h
    cases h
    exact .skip (booleanOf_eq_ok.mp hvalue)
  case h_13 =>
    obtain ⟨_, hvalue, h⟩ := Except.bind_eq_ok.mp h
    cases h
    exact .sslverify (keptOn_eq_ok.mp hvalue)
  case h_17 =>
    split at h
    · cases h
    · cases h
      exact .proxy
  case h_22 => cases h
  -- the other keys
  case h_1 | h_18 | h_19 =>
    cases h
    exact .other (by decide) ⟨rfl, rfl, rfl, rfl, rfl, rfl, rfl⟩
  case h_2 | h_7 | h_8 | h_11 =>
    split at h
    · cases h
      exact .other (by decide) ⟨rfl, rfl, rfl, rfl, rfl, rfl, rfl⟩
    · cases h
  case h_10 | h_12 | h_14 | h_15 | h_16 | h_20 | h_21 =>
    obtain ⟨_, -, h⟩ := Except.bind_eq_ok.mp h
    cases h
    exact .other (by decide) ⟨rfl, rfl, rfl, rfl, rfl, rfl, rfl⟩

namespace Assigned

variable (h : Assigned repo value key repo')

include h

theorem id_eq : repo'.id = repo.id := by
  cases h with
  | other _ hsame => exact hsame.id
  | _ => rfl

theorem baseurl_eq (hne : key ≠ "baseurl") : repo'.baseurl = repo.baseurl := by
  cases h with
  | baseurl => exact absurd rfl hne
  | other _ hsame => exact hsame.baseurl
  | _ => rfl

theorem proxy_eq (hne : key ≠ "proxy") : repo'.proxy = repo.proxy := by
  cases h with
  | proxy => exact absurd rfl hne
  | other _ hsame => exact hsame.proxy
  | _ => rfl

end Assigned

/-! ## The sections that have been read -/

def ProfileState.sections (s : ProfileState) : List RepoConfig := s.repositories ++ s.current.toList

/-- Each section is there once, and a setting that has not come is as it is in a new section. -/
structure Reached (s : ProfileState) : Prop where
  nodup : (s.sections.map (·.id)).Nodup
  seen : ∀ repo ∈ s.sections, repo.id ∈ s.seenIds
  baseurl : "baseurl" ∉ s.seenKeys → ∀ repo ∈ s.current, repo.baseurl = []
  proxy : "proxy" ∉ s.seenKeys → ∀ repo ∈ s.current, repo.proxy = none

theorem reached_start : Reached {} :=
  ⟨.nil, fun _ h => (by cases h), fun _ _ h => (by cases h), fun _ _ h => (by cases h)⟩

theorem reached_opens {id : String} {keys : List String} (hs : Reached s) (hfresh : id ∉ s.seenIds) :
    Reached ⟨s.sections, some (.new id main), id :: s.seenIds, keys⟩ where
  nodup := by
    rw [ProfileState.sections, Option.toList_some, List.map_append, List.map_singleton]
    refine List.Nodup.append hs.nodup (List.nodup_singleton _) ?_
    rw [List.disjoint_singleton]
    intro hmem
    obtain ⟨repo, hrepo, hid⟩ := List.mem_map.mp hmem
    have hseen := hs.seen repo hrepo
    rw [hid] at hseen
    exact hfresh hseen
  seen repo hrepo := by
    rcases List.mem_append.mp hrepo with hrepo | hrepo
    · exact List.mem_cons_of_mem _ (hs.seen repo hrepo)
    · rw [Option.toList_some, List.mem_singleton] at hrepo
      rw [hrepo]
      exact List.mem_cons_self
  baseurl _ repo hrepo := by
    rw [← Option.mem_some_iff.mp hrepo]
    rfl
  proxy _ repo hrepo := by
    rw [← Option.mem_some_iff.mp hrepo]
    rfl

theorem reached_sets (hs : Reached s) (hcurrent : s.current = some repo)
    (h : Assigned repo value key repo') :
    Reached { s with current := some repo', seenKeys := key :: s.seenKeys } where
  nodup := by
    have hnodup := hs.nodup
    rw [ProfileState.sections, hcurrent, Option.toList_some, List.map_append, List.map_singleton,
      ← h.id_eq] at hnodup
    rw [ProfileState.sections, Option.toList_some, List.map_append, List.map_singleton]
    exact hnodup
  seen r hr := by
    rcases List.mem_append.mp hr with hr | hr
    · exact hs.seen r (List.mem_append_left _ hr)
    · rw [Option.toList_some, List.mem_singleton] at hr
      rw [hr, h.id_eq]
      refine hs.seen repo (List.mem_append_right _ ?_)
      rw [hcurrent]
      exact List.mem_singleton_self _
  baseurl hkeys r hr := by
    rw [List.mem_cons, not_or] at hkeys
    rw [← Option.mem_some_iff.mp hr, h.baseurl_eq (Ne.symm hkeys.1),
      hs.baseurl hkeys.2 repo hcurrent]
  proxy hkeys r hr := by
    rw [List.mem_cons, not_or] at hkeys
    rw [← Option.mem_some_iff.mp hr, h.proxy_eq (Ne.symm hkeys.1), hs.proxy hkeys.2 repo hcurrent]

theorem reached_of_step (h : ProfileStep path main number line s s') (hs : Reached s) :
    Reached s' := by
  cases h with
  | comment => exact hs
  | opens _ _ _ _ _ hfresh hfinish =>
    obtain ⟨-, rfl⟩ := finishCurrent_eq_ok.mp hfinish
    exact reached_opens hs hfresh
  | sets _ _ hcurrent _ _ hassign => exact reached_sets hs hcurrent (assigned_of_assignRepo hassign)

/-! ## The lenient reading -/

/-- The repository is read the same. -/
structure Agrees (repo : RepoConfig) (r : Repository) : Prop where
  id : r.id = repo.id
  enabled : r.enabled = repo.enabled
  baseurls : r.baseurls = repo.baseurl
  metalink : r.metalink = repo.metalink
  mirrorlist : r.mirrorlist = repo.mirrorlist

structure Tracks (s : ProfileState) (t : ParserState) : Prop where
  repositories : List.Forall₂ Agrees s.repositories t.repositories
  current : Option.Rel (fun repo b => Agrees repo b.repository) s.current t.current

variable {t : ParserState} {r : Repository}

theorem Agrees.selectedSource_isSome (h : Agrees repo r) :
    r.selectedSource.isSome = repo.hasSource := by
  rw [Repository.selectedSource, Repository.sources, RepoConfig.hasSource, h.baseurls, h.metalink,
    h.mirrorlist]
  cases repo.baseurl <;> cases repo.metalink <;> cases repo.mirrorlist <;> rfl

theorem exists_finishRepository {repositories : List RepoConfig} (hs : Reached s) (ht : Tracks s t)
    (h : finishCurrent path number s = .ok repositories) :
    ∃ rs, finishRepository path t.current t.repositories = .ok rs ∧
      List.Forall₂ Agrees repositories rs := by
  obtain ⟨hsources, rfl⟩ := finishCurrent_eq_ok.mp h
  have hcurrent := ht.current
  have hnodup := hs.nodup
  unfold ProfileState.sections at hnodup
  cases hrepo : s.current with
  | none =>
    rw [hrepo] at hcurrent
    cases hb : t.current with
    | none => exact ⟨t.repositories, rfl, by simpa using ht.repositories⟩
    | some b =>
      rw [hb] at hcurrent
      cases hcurrent
  | some repo =>
    rw [hrepo] at hcurrent hnodup hsources
    cases hb : t.current with
    | none =>
      rw [hb] at hcurrent
      cases hcurrent
    | some b =>
      rw [hb] at hcurrent
      obtain ⟨hagrees⟩ := hcurrent
      refine ⟨t.repositories ++ [b.repository], ?_, ?_⟩
      · have hsource : ¬ (b.repository.enabled = true ∧ b.repository.selectedSource = none) := by
          rintro ⟨henabled, hnone⟩
          have hsome := hsources repo rfl (hagrees.enabled ▸ henabled)
          rw [← hagrees.selectedSource_isSome, hnone] at hsome
          cases hsome
        have hother : ¬ ∃ r ∈ t.repositories, r.id = b.repository.id := by
          rintro ⟨r, hr, hid⟩
          obtain ⟨repo', hrepo', hagrees'⟩ := ht.repositories.exists_left hr
          rw [List.map_append] at hnodup
          refine List.disjoint_of_nodup_append hnodup (List.mem_map_of_mem hrepo') ?_
          rw [Option.toList_some, List.map_singleton, List.mem_singleton, ← hagrees.id, ← hid]
          exact hagrees'.id.symm
        rw [finishRepository, refuseIf, if_neg hsource, refuseIf, if_neg hother]
        rfl
      · exact List.rel_append ht.repositories (.cons hagrees .nil)

/-- The keys that the other readings look at. -/
def sourceKeys : List String :=
  ["enabled", "baseurl", "metalink", "mirrorlist", "skip_if_unavailable", "sslverify", "proxy"]

theorem asciiLowercase_sourceKeys : ∀ key ∈ sourceKeys, asciiLowercase key = key := by decide

theorem otherKeys_spec : ∀ key ∈ otherKeys, asciiLowercase key = key ∧ key ∉ sourceKeys := by decide

theorem Assigned.lower (h : Assigned repo value key repo') : asciiLowercase key = key := by
  cases h with
  | other hkey => exact (otherKeys_spec key hkey).1
  | _ => exact asciiLowercase_sourceKeys _ (by decide)

theorem setRepository_of_other (hkey : key ∈ otherKeys) :
    setRepository path number r key value = .ok r := by
  have hnot := (otherKeys_spec key hkey).2
  unfold setRepository
  split
  case h_5 => rfl
  all_goals exact absurd (by decide) hnot

theorem resetOrAppend_nil : resetOrAppend [] value = words value := by
  unfold resetOrAppend
  split
  · next h =>
    rw [h]
    rfl
  · rfl

theorem exists_setRepository (h : Assigned repo value key repo') (hr : Agrees repo r)
    (hbaseurl : key = "baseurl" → repo.baseurl = []) :
    ∃ r', setRepository path number r (asciiLowercase key) value = .ok r' ∧ Agrees repo' r' := by
  rw [h.lower]
  cases h with
  | @enabled enabled hvalue =>
    refine ⟨{ r with enabled }, ?_, ⟨hr.id, rfl, hr.baseurls, hr.metalink, hr.mirrorlist⟩⟩
    rw [setRepository, hvalue]
    rfl
  | baseurl =>
    have hnil := hbaseurl rfl
    refine ⟨{ r with baseurls := r.baseurls ++ words value }, rfl, hr.id, hr.enabled, ?_, hr.metalink,
      hr.mirrorlist⟩
    dsimp only
    rw [hr.baseurls, hnil, resetOrAppend_nil, List.nil_append]
  | metalink =>
    exact ⟨{ r with metalink := nonempty value }, rfl, hr.id, hr.enabled, hr.baseurls, rfl, hr.mirrorlist⟩
  | mirrorlist =>
    exact ⟨{ r with mirrorlist := nonempty value }, rfl, hr.id, hr.enabled, hr.baseurls, hr.metalink, rfl⟩
  | skip | sslverify | proxy =>
    exact ⟨r, rfl, hr.id, hr.enabled, hr.baseurls, hr.metalink, hr.mirrorlist⟩
  | other hkey hsame =>
    exact ⟨r, setRepository_of_other hkey, hr.id.trans hsame.id.symm,
      hr.enabled.trans hsame.enabled.symm, hr.baseurls.trans hsame.baseurl.symm,
      hr.metalink.trans hsame.metalink.symm, hr.mirrorlist.trans hsame.mirrorlist.symm⟩

theorem exists_parseLine {raw : List Char × Nat}
    (h : ProfileStep path main (raw.2 + 1) (trim raw.1) s s') (hs : Reached s) (ht : Tracks s t) :
    ∃ t', parseLine path t raw = .ok t' ∧ Tracks s' t' := by
  unfold parseLine
  dsimp only
  cases h with
  | comment hcomment =>
    rw [if_pos hcomment]
    exact ⟨t, rfl, ht⟩
  | @opens id repositories hcomment hhead hlast hid hvalid _ hfinish =>
    obtain ⟨rs, hrs, hall⟩ := exists_finishRepository hs ht hfinish
    have hne : ¬ id = "" := by
      rintro rfl
      cases hvalid
    have hsection : parseSection path (raw.2 + 1) (trim raw.1) t =
        .ok ⟨rs, some ⟨⟨id, true, [], none, none, path⟩, raw.2 + 1⟩⟩ := by
      simp only [parseSection, Except.bind_eq_ok, Except.refuseIf_eq_ok, Except.pure_eq_ok, not_not,
        hid]
      exact ⟨(), hlast, (), hne, rs, hrs, rfl⟩
    rw [hcomment, if_neg (by simp), if_pos hhead, hsection]
    exact ⟨_, rfl, hall, .some ⟨rfl, rfl, rfl, rfl, rfl⟩⟩
  | @sets repo repo' key value hcomment hhead hcurrent hpair hfresh hassign =>
    have hrel := ht.current
    rw [hcurrent] at hrel
    cases hb : t.current with
    | none =>
      rw [hb] at hrel
      cases hrel
    | some b =>
      rw [hb] at hrel
      obtain ⟨hagrees⟩ := hrel
      obtain ⟨r', hset, hr'⟩ := @exists_setRepository path (raw.2 + 1) _ _ _ _ _
        (assigned_of_assignRepo hassign) hagrees fun hkey => hs.baseurl (hkey ▸ hfresh) repo hcurrent
      rw [hcomment, if_neg (by simp), if_neg hhead, parseKey, hb, hpair]
      simp only [okOr, Option.elim, Except.ok_bind, hset]
      exact ⟨_, rfl, ht.repositories, .some hr'⟩

/-! ## The policy of a repository -/

/-- What the section says of the policy, or an error where it sets a proxy. -/
def Says (selected : Bool) (repo : RepoConfig) (x : Except ParseError PolicyState) : Prop :=
  x = .ok ⟨selected, repo.skipIfUnavailable⟩ ∨ (∃ e, x = .error e) ∧ repo.proxy.isSome = true

/-- What the policy of the repository with the id has come to. -/
structure Policed (id : String) (s : ProfileState) (x : Except ParseError PolicyState) : Prop where
  unseen : id ∉ s.seenIds → x = .ok {}
  current : ∀ repo ∈ s.current, repo.id = id → Says true repo x
  done : ∀ repo ∈ s.repositories, repo.id = id → Says false repo x

variable {id : String} {x : Except ParseError PolicyState}

theorem setPolicy_of_other {p : PolicyState} (hkey : key ∈ otherKeys) :
    setPolicy path number p key value = .ok p := by
  have hnot := (otherKeys_spec key hkey).2
  unfold setPolicy
  split
  case h_4 => rfl
  all_goals exact absurd (by decide) hnot

theorem says_setPolicy (h : Assigned repo value key repo') :
    Says true repo' (setPolicy path number ⟨true, repo.skipIfUnavailable⟩ (asciiLowercase key) value) := by
  rw [h.lower]
  cases h with
  | skip hvalue =>
    left
    rw [setPolicy, policyBoolean, hvalue]
    rfl
  | sslverify hvalue =>
    left
    rw [setPolicy, policyBoolean, hvalue]
    rfl
  | proxy =>
    rw [setPolicy]
    by_cases hnone : value = "" ∨ value = "_none_"
    · left
      rw [refuseIf, if_neg (not_not.mpr hnone)]
      rfl
    · right
      rw [refuseIf, if_pos hnone, if_neg hnone]
      exact ⟨⟨_, rfl⟩, rfl⟩
  | enabled | baseurl | metalink | mirrorlist => exact .inl rfl
  | other hkey hsame =>
    left
    rw [setPolicy_of_other hkey, hsame.skipIfUnavailable]

theorem not_isComment_of_open {l : List Char} (h : isComment l = true) : l.head? ≠ some '[' := by
  intro hhead
  rw [isComment, hhead] at h
  cases l with
  | nil => cases hhead
  | cons c l => simp at h

theorem policed_of_step {raw : List Char × Nat}
    (h : ProfileStep path main (raw.2 + 1) (trim raw.1) s s') (hs : Reached s)
    (hx : Policed id s x) : Policed id s' (x >>= fun p => policyLine path id p raw) := by
  cases h with
  | comment hcomment =>
    have hsame : (x >>= fun p => policyLine path id p raw) = x := by
      cases x with
      | error e => rfl
      | ok p =>
        rw [Except.ok_bind, policyLine, if_neg fun h => not_isComment_of_open hcomment h.1,
          hcomment, Bool.or_true, if_pos rfl]
    rw [hsame]
    exact hx
  | @opens id' repositories _ hhead hlast hid _ hfresh hfinish =>
    obtain ⟨-, rfl⟩ := finishCurrent_eq_ok.mp hfinish
    have hline : ∀ p : PolicyState, policyLine path id p raw = .ok { p with selected := id' = id } := by
      intro p
      rw [policyLine, if_pos ⟨hhead, hlast⟩, hid]
    simp only [hline]
    refine ⟨fun hunseen => ?_, ?_, ?_⟩
    · rw [List.mem_cons, not_or] at hunseen
      rw [hx.unseen hunseen.2, Except.ok_bind, decide_eq_false (Ne.symm hunseen.1)]
    · intro repo hrepo hrepoid
      rw [← Option.mem_some_iff.mp hrepo] at hrepoid ⊢
      obtain rfl : id' = id := hrepoid
      left
      rw [hx.unseen hfresh, Except.ok_bind, decide_eq_true rfl]
      rfl
    · intro repo hrepo hrepoid
      have hother : ¬ id' = id := by
        rintro rfl
        exact hfresh (hrepoid ▸ hs.seen repo hrepo)
      have hsays : ∃ selected, Says selected repo x := by
        rcases List.mem_append.mp hrepo with hrepo | hrepo
        · exact ⟨false, hx.done repo hrepo hrepoid⟩
        · exact ⟨true, hx.current repo (Option.mem_toList.mp hrepo) hrepoid⟩
      obtain ⟨selected, rfl | ⟨⟨e, rfl⟩, hproxy⟩⟩ := hsays
      · left
        rw [Except.ok_bind, decide_eq_false hother]
      · exact .inr ⟨⟨e, rfl⟩, hproxy⟩
  | @sets repo repo' key value hcomment hhead hcurrent hpair hfresh hassign =>
    have hassigned := assigned_of_assignRepo hassign
    have hunselected (skip : Bool) : policyLine path id ⟨false, skip⟩ raw = .ok ⟨false, skip⟩ := by
      rw [policyLine, if_neg fun h => hhead h.1]
      rfl
    refine ⟨fun hunseen => ?_, ?_, ?_⟩
    · rw [hx.unseen hunseen, Except.ok_bind, hunselected]
    · intro r hr hid
      rw [← Option.mem_some_iff.mp hr] at hid ⊢
      rw [hassigned.id_eq] at hid
      rcases hx.current repo hcurrent hid with rfl | ⟨⟨e, rfl⟩, hproxy⟩
      · rw [Except.ok_bind, policyLine, if_neg fun h => hhead h.1, hcomment, if_neg (by simp), hpair]
        exact says_setPolicy hassigned
      · -- the section has set its proxy, and does so once
        refine .inr ⟨⟨e, rfl⟩, ?_⟩
        have hne : String.ofList (trim key) ≠ "proxy" := by
          intro hkey
          rw [hkey] at hfresh
          rw [hs.proxy hfresh repo hcurrent] at hproxy
          cases hproxy
        rw [hassigned.proxy_eq hne]
        exact hproxy
    · intro r hr hid
      rcases hx.done r hr hid with rfl | ⟨⟨e, rfl⟩, hproxy⟩
      · rw [Except.ok_bind, hunselected]
        exact .inl rfl
      · exact .inr ⟨⟨e, rfl⟩, hproxy⟩

end

/-- **Both readings agree.** A text that the strict reading accepts is accepted by the lenient one, with
the same repositories in the same order. The refresh policy of each of them skips it alike, unless its
section sets a proxy. -/
theorem parseRepoProfile_agrees (path : String) (main : MainConfig) (input : String)
    (profile : MutationProfile) (h : parseRepoProfile path main input = .ok profile) :
    (∃ repositories, parseRepositoryFile path input = .ok repositories ∧
      List.Forall₂ Agrees profile.repositories repositories) ∧
    ∀ repo ∈ profile.repositories,
      parseRefreshPolicy path repo.id input = .ok ⟨repo.skipIfUnavailable⟩ ∨ repo.proxy.isSome = true := by
  rw [parseRepoProfile, Except.check_bind_eq_ok] at h
  obtain ⟨-, h⟩ := h
  simp only [Except.bind_eq_ok, Except.pure_eq_ok] at h
  obtain ⟨s, hlines, repositories, hfinish, rfl⟩ := h
  constructor
  · -- the lenient reading beside the strict one
    have hbeside := @Except.foldlM_beside _ _ _ _ _ (profileLine path main) (parseLine path)
      (fun s x => Reached s ∧ ∃ t, x = .ok t ∧ Tracks s t)
      (fun {s s' x raw} hline hR => by
        obtain ⟨hs, t, rfl, ht⟩ := hR
        have hstep := profileStep_of_line hline
        obtain ⟨t', ht', htracks⟩ := exists_parseLine hstep hs ht
        exact ⟨reached_of_step hstep hs, t', ht', htracks⟩)
      _ _ _ (.ok {}) hlines ⟨reached_start, {}, rfl, .nil, .none⟩
    obtain ⟨hs, t, ht, htracks⟩ := hbeside
    obtain ⟨rs, hrs, hall⟩ := exists_finishRepository hs htracks hfinish
    refine ⟨rs, ?_, hall⟩
    rw [parseRepositoryFile, show (lines input).zipIdx.foldlM (parseLine path) {} = .ok t from ht,
      Except.ok_bind, hrs]
  · intro repo hrepo
    obtain ⟨-, rfl⟩ := finishCurrent_eq_ok.mp hfinish
    have hbeside := @Except.foldlM_beside _ _ _ _ _ (profileLine path main) (policyLine path repo.id)
      (fun s x => Reached s ∧ Policed repo.id s x)
      (fun {s s' x raw} hline hR => by
        have hstep := profileStep_of_line hline
        exact ⟨reached_of_step hstep hR.1, policed_of_step hstep hR.1 hR.2⟩)
      _ _ _ (.ok {}) hlines ⟨reached_start, fun _ => rfl, fun _ h => (by cases h), fun _ h => (by cases h)⟩
    obtain ⟨-, hpoliced⟩ := hbeside
    have hsays : ∃ selected, Says selected repo
        ((lines input).zipIdx.foldlM (policyLine path repo.id) {}) := by
      rcases List.mem_append.mp hrepo with hrepo | hrepo
      · exact ⟨false, hpoliced.done repo hrepo rfl⟩
      · exact ⟨true, hpoliced.current repo (Option.mem_toList.mp hrepo) rfl⟩
    obtain ⟨selected, hx | ⟨-, hproxy⟩⟩ := hsays
    · left
      rw [parseRefreshPolicy, hx]
      rfl
    · exact .inr hproxy

/-! A file with two repositories, one of which is not enabled. -/

def mainDefaults : MainConfig := ⟨[], [], true, false, [], [], [], [], 3⟩

def twoRepositories : String :=
  "[a]\nbaseurl = https://a/ https://b/\nskip_if_unavailable=Yes\n; note\n[b]\nenabled=0\nproxy=https://p/\n"

theorem parseRepoProfile_agrees_two : ∃ profile,
    parseRepoProfile "two.repo" mainDefaults twoRepositories = .ok profile ∧
    (∃ repositories, parseRepositoryFile "two.repo" twoRepositories = .ok repositories ∧
      List.Forall₂ Agrees profile.repositories repositories) ∧
    ∀ repo ∈ profile.repositories,
      parseRefreshPolicy "two.repo" repo.id twoRepositories = .ok ⟨repo.skipIfUnavailable⟩ ∨
        repo.proxy.isSome = true := by
  have haccepted : (parseRepoProfile "two.repo" mainDefaults twoRepositories).toOption.map
      (·.repositories.map (·.id)) = some ["a", "b"] := by decide +kernel
  obtain ⟨profile, hprofile, -⟩ := Except.toOption_map_eq_some.mp haccepted
  exact ⟨profile, hprofile, parseRepoProfile_agrees _ _ _ _ hprofile⟩

end Dnfast.Repo
