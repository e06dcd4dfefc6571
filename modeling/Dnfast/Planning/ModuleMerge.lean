import Dnfast.Data.Exchange
import Dnfast.Planning.ModuleCatalog

/-! # The order of the raw modules

Only the texts of a stream depend on the order in which its contexts are merged. Without them merging is
the same function, and its steps change places. -/

namespace Dnfast.Planning

open Std (ExtTreeMap ExtTreeSet)
open Core (Architecture)

variable {architecture : Architecture} {name : String}

/-! ## Maps -/

section Maps

variable {β γ : Type} {m : ExtTreeMap String β} {k k' : String} {x y : β}

theorem map_insert {f : String → β → γ} : (m.insert k x).map f = (m.map f).insert k (f k x) := by
  refine ExtTreeMap.ext_getElem? fun j => ?_
  rw [ExtTreeMap.getElem?_map, ExtTreeMap.getElem?_insert, ExtTreeMap.getElem?_insert,
    ExtTreeMap.getElem?_map]
  split
  next hj =>
    rw [Std.compare_eq_iff_eq.mp hj]
    rfl
  · rfl

theorem insert_insert_self : (m.insert k x).insert k y = m.insert k y := by
  refine ExtTreeMap.ext_getElem? fun j => ?_
  simp only [ExtTreeMap.getElem?_insert]
  split <;> rfl

theorem insert_comm (h : k ≠ k') : (m.insert k x).insert k' y = (m.insert k' y).insert k x := by
  refine ExtTreeMap.ext_getElem? fun j => ?_
  simp only [ExtTreeMap.getElem?_insert, Std.compare_eq_iff_eq]
  by_cases hj : k = j
  · subst hj
    simp [Ne.symm h]
  · simp [hj]

theorem getD_insert_ne {fallback : β} (h : k ≠ k') : (m.insert k x).getD k' fallback = m.getD k' fallback := by
  rw [ExtTreeMap.getD_insert, if_neg (mt Std.compare_eq_iff_eq.mp h)]

end Maps

/-! ## Without texts -/

def RawStream.bare (r : RawStream) : RawStream :=
  { r with version := 0, summary := none, description := none }

def RawModule.bare (r : RawModule) : RawModule := { r with streams := r.streams.map RawStream.bare }

def LogicalStream.bare (s : LogicalStream) : LogicalStream :=
  { s with latestVersion := 0, summary := "", description := "" }

def LogicalModule.bare (m : LogicalModule) : LogicalModule :=
  { m with streams := m.streams.map fun _ s => s.bare }

def Merge.bare (s : Merge) : Merge := { s with modules := s.modules.map fun _ m => m.bare }

def ModuleStream.bare (s : ModuleStream) : ModuleStream := { s with summary := "", description := "" }

def Module.bare (m : Module) : Module := { m with streams := m.streams.map fun _ s => s.bare }

/-- The catalog without the summaries and descriptions of its streams. -/
def ModuleCatalog.bare (c : ModuleCatalog) : ModuleCatalog :=
  { c with modules := c.modules.map fun _ m => m.bare }

theorem bare_extend (existing incoming : LogicalStream) :
    (existing.extend incoming).bare = existing.bare.extend incoming.bare := by
  have hsame : existing.bare.extend incoming.bare =
      { existing.bare with artifacts := existing.artifacts ∪ incoming.artifacts } := by
    unfold LogicalStream.extend
    exact if_neg (UInt64.lt_irrefl 0)
  rw [hsame, LogicalStream.extend]
  dsimp only
  split
  all_goals rfl

theorem addDefault_bare {m : LogicalModule} {default : Option String} :
    m.bare.addDefault name default = (m.addDefault name default).map LogicalModule.bare := by
  obtain ⟨left, streams⟩ := m
  cases left with
  | none => cases default <;> rfl
  | some left =>
    cases default with
    | none => rfl
    | some right =>
      unfold LogicalModule.addDefault LogicalModule.bare
      dsimp only
      split <;> rfl

theorem addStream_bare {m : LogicalModule} {stream : String} {incoming : LogicalStream} :
    m.bare.addStream name stream incoming.bare =
      (m.addStream name stream incoming).map LogicalModule.bare := by
  have hget : m.bare.streams[stream]? = m.streams[stream]?.map LogicalStream.bare :=
    ExtTreeMap.getElem?_map
  unfold LogicalModule.addStream
  rw [hget]
  cases m.streams[stream]? with
  | none =>
    refine congrArg Except.ok ?_
    rw [LogicalModule.bare, LogicalModule.bare, map_insert]
  | some existing =>
    rw [Option.map_some]
    dsimp only
    by_cases hpolicy : existing.dependencies ≠ incoming.dependencies ∨ existing.profiles ≠ incoming.profiles
    · rw [if_pos hpolicy]
      exact if_pos hpolicy
    · rw [if_neg hpolicy]
      refine (if_neg hpolicy).trans (congrArg Except.ok ?_)
      rw [LogicalModule.bare, LogicalModule.bare, map_insert, bare_extend]

theorem getD_bare {s : Merge} {fallback : LogicalModule} (h : fallback.bare = fallback) :
    s.bare.modules.getD name fallback = (s.modules.getD name fallback).bare := by
  rw [ExtTreeMap.getD_eq_getD_getElem?, ExtTreeMap.getD_eq_getD_getElem?, Merge.bare,
    ExtTreeMap.getElem?_map]
  cases s.modules[name]? with
  | none => exact h.symm
  | some m => rfl

theorem bare_empty (default : Option String) : (LogicalModule.mk default ∅).bare = ⟨default, ∅⟩ := by
  rw [LogicalModule.bare]
  congr

theorem mergeDefault_bare {s : Merge} {default : Option String} :
    mergeDefault s.bare name default = (mergeDefault s name default).map Merge.bare := by
  refine Except.bind_eq_map_bind fun _ => Except.bind_eq_map_bind fun _ => ?_
  rw [getD_bare (bare_empty default), addDefault_bare]
  cases (s.modules.getD name ⟨default, ∅⟩).addDefault name default with
  | error e => rfl
  | ok m =>
    refine congrArg Except.ok ?_
    rw [Merge.bare, Merge.bare, map_insert]

theorem mergeStream_bare {s : Merge} {raw : RawStream} :
    mergeStream architecture name s.bare raw.bare =
      (mergeStream architecture name s raw).map Merge.bare := by
  refine Except.bind_eq_map_bind fun _ => Except.bind_eq_map_bind fun _ =>
    Except.bind_eq_map_bind fun _ => Except.bind_eq_map_bind fun _ => ?_
  change (if matchesArch raw.arch architecture then _ else _) = _
  split
  · refine Except.bind_eq_map_bind fun _ => Except.bind_eq_map_bind fun artifacts =>
      Except.bind_eq_map_bind fun _ => Except.bind_eq_map_bind fun dependencies =>
      Except.bind_eq_map_bind fun profiles => ?_
    rw [getD_bare (bare_empty none)]
    have hadd := @addStream_bare name (s.modules.getD name ⟨none, ∅⟩) raw.stream
      ⟨raw.version, raw.summary.getD "", raw.description.getD "", profiles, .ofList artifacts, dependencies⟩
    refine (congrArg (· >>= _) hadd).trans ?_
    cases (s.modules.getD name ⟨none, ∅⟩).addStream name raw.stream _ with
    | error e => rfl
    | ok m =>
      refine congrArg Except.ok ?_
      rw [Merge.bare, Merge.bare, map_insert]
  · rfl

theorem mergeModule_bare {s : Merge} {raw : RawModule} :
    mergeModule architecture s.bare raw.bare = (mergeModule architecture s raw).map Merge.bare := by
  unfold mergeModule
  change (mergeDefault s.bare raw.name raw.defaultStream >>= _) = _
  rw [mergeDefault_bare]
  cases mergeDefault s raw.name raw.defaultStream with
  | error e => rfl
  | ok next => exact Except.foldlM_image fun _ _ => mergeStream_bare

theorem ownModule_bare {owners : Owners} {m : LogicalModule} :
    ownModule owners (name, m.bare) = ownModule owners (name, m) := by
  unfold ownModule LogicalModule.bare
  dsimp only
  rw [ExtTreeMap.toList_map, List.foldlM_map]
  simp only [ExtTreeMap.contains_map]
  rfl

theorem catalogFromRaw_bare {raw : List RawModule} :
    catalogFromRaw (raw.map RawModule.bare) architecture =
      (catalogFromRaw raw architecture).map ModuleCatalog.bare := by
  have hempty : (Merge.mk ∅ 0 0).bare = ⟨∅, 0, 0⟩ := by
    rw [Merge.bare]
    congr
  have hmerge := @Except.foldlM_image _ _ _ _ _ (mergeModule architecture) (mergeModule architecture)
    RawModule.bare Merge.bare (fun _ _ => mergeModule_bare) raw ⟨∅, 0, 0⟩
  rw [hempty] at hmerge
  unfold catalogFromRaw
  rw [List.length_map]
  refine Except.bind_eq_map_bind fun _ => ?_
  rw [hmerge]
  cases raw.foldlM (mergeModule architecture) ⟨∅, 0, 0⟩ with
  | error e => rfl
  | ok s =>
    change (List.foldlM ownModule ∅ s.bare.modules.toList >>= _) = _
    rw [Merge.bare, ExtTreeMap.toList_map, List.foldlM_map]
    have howners : ∀ owners : Owners, ∀ entry : String × LogicalModule,
        ownModule owners (entry.1, entry.2.bare) = ownModule owners entry := fun _ _ => ownModule_bare
    simp only [howners]
    refine Except.bind_eq_map_bind fun owners => congrArg Except.ok ?_
    rw [ModuleCatalog.bare]
    congr 1
    refine ExtTreeMap.ext_getElem? fun k => ?_
    simp only [ExtTreeMap.getElem?_map, Option.map_map]
    refine congrArg (Option.map · _) (funext fun m => ?_)
    simp only [Function.comp_apply, LogicalModule.bare, LogicalModule.toModule, Module.bare]
    congr 1
    refine ExtTreeMap.ext_getElem? fun stream => ?_
    simp only [ExtTreeMap.getElem?_map, Option.map_map]
    rfl

/-! ## Parts -/

/-- What one turn of a loop merges: the default of a module, or one of its streams. -/
inductive Part where
  | default (name : String) (default : Option String)
  | stream (name : String) (raw : RawStream)

def mergePart (architecture : Architecture) (s : Merge) : Part → Except PlanningError Merge
  | .default name default => mergeDefault s name default
  | .stream name raw => mergeStream architecture name s raw

def RawModule.parts (raw : RawModule) : List Part :=
  .default raw.name raw.defaultStream :: raw.streams.map (.stream raw.name)

theorem mergeModule_eq (s : Merge) (raw : RawModule) :
    mergeModule architecture s raw = raw.parts.foldlM (mergePart architecture) s := by
  rw [RawModule.parts, List.foldlM_cons]
  refine congrArg (_ >>= ·) (funext fun _ => ?_)
  rw [List.foldlM_map]
  rfl

theorem foldlM_mergeModule (s : Merge) (raws : List RawModule) :
    raws.foldlM (mergeModule architecture) s =
      (raws.flatMap RawModule.parts).foldlM (mergePart architecture) s := by
  rw [Except.foldlM_flatMap]
  exact congrArg (raws.foldlM · s) (funext fun s => funext fun raw => mergeModule_eq s raw)

variable {m m' m'' : LogicalModule} {x x' y y' z : LogicalStream} {o : Option LogicalStream}

/-- The default that a module has or gets. -/
theorem addDefault_eq_ok {default : Option String} : m.addDefault name default = .ok m' ↔
    (∀ left ∈ m.defaultStream, ∀ right ∈ default, left = right) ∧
      m' = { m with defaultStream := m.defaultStream.or default } := by
  obtain ⟨left, streams⟩ := m
  cases left with
  | none =>
    cases default <;> simp [LogicalModule.addDefault, eq_comm]
  | some left =>
    cases default with
    | none => simp [LogicalModule.addDefault, eq_comm]
    | some right =>
      by_cases h : left = right
      · simp [LogicalModule.addDefault, h, eq_comm]
      · simp [LogicalModule.addDefault, h]

/-- A context joins what is there of its stream. -/
inductive Joins : Option LogicalStream → LogicalStream → LogicalStream → Prop
  | first (x : LogicalStream) : Joins none x x
  | further {e x : LogicalStream} (hd : e.dependencies = x.dependencies) (hp : e.profiles = x.profiles) :
    Joins (some e) x (e.extend x)

theorem addStream_eq_ok {stream : String} : m.addStream name stream x = .ok m' ↔
    ∃ y, Joins m.streams[stream]? x y ∧ m' = { m with streams := m.streams.insert stream y } := by
  unfold LogicalModule.addStream
  cases m.streams[stream]? with
  | none =>
    constructor
    · intro h
      cases h
      exact ⟨x, .first x, rfl⟩
    · rintro ⟨_, ⟨⟩, rfl⟩
      rfl
  | some e =>
    dsimp only
    constructor
    · intro h
      split at h
      · cases h
      next hpolicy =>
        rw [not_or, not_not, not_not] at hpolicy
        cases h
        exact ⟨_, .further hpolicy.1 hpolicy.2, rfl⟩
    · rintro ⟨_, ⟨⟩, rfl⟩
      rename_i hd hp
      exact if_neg (by simp [hd, hp])

theorem extend_of_version (h : x.latestVersion = 0) (e : LogicalStream) :
    e.extend x = { e with artifacts := e.artifacts ∪ x.artifacts } := by
  refine if_neg ?_
  rw [h]
  exact UInt64.not_lt_zero

theorem union_right_comm (a b c : ExtTreeSet String) : a ∪ b ∪ c = a ∪ c ∪ b := by
  refine ExtTreeSet.ext_mem fun k => ?_
  simp only [ExtTreeSet.mem_union_iff]
  tauto

theorem union_comm (a b : ExtTreeSet String) : a ∪ b = b ∪ a := by
  refine ExtTreeSet.ext_mem fun k => ?_
  simp only [ExtTreeSet.mem_union_iff]
  tauto

/-- Contexts without texts join in any order. -/
theorem joins_swap (hx : x.bare = x) (hx' : x'.bare = x') (h : Joins o x y) (h' : Joins (some y) x' z) :
    ∃ y', Joins o x' y' ∧ Joins (some y') x z := by
  have hv : x.latestVersion = 0 := by rw [← hx, LogicalStream.bare]
  have hv' : x'.latestVersion = 0 := by rw [← hx', LogicalStream.bare]
  cases h with
  | first =>
    cases h' with
    | further hd hp =>
      have hsame : x.extend x' = x'.extend x := by
        rw [extend_of_version hv, extend_of_version hv', union_comm, ← hx, ← hx']
        simp only [LogicalStream.bare, hd, hp]
      rw [hsame]
      exact ⟨x', .first x', .further hd.symm hp.symm⟩
  | @further e _ hd hp =>
    cases h' with
    | further hd' hp' =>
      rw [extend_of_version hv] at hd' hp' ⊢
      have hsame : ({ e with artifacts := e.artifacts ∪ x.artifacts } : LogicalStream).extend x' =
          (e.extend x').extend x := by
        rw [extend_of_version hv', extend_of_version hv', extend_of_version hv]
        dsimp only
        rw [union_right_comm]
      rw [hsame]
      refine ⟨_, .further hd' hp', .further ?_ ?_⟩
      · rw [extend_of_version hv']
        exact hd
      · rw [extend_of_version hv']
        exact hp

/-- What a part does to its module: it gets the default, or a context of a stream with its artifacts. -/
inductive Acts : Part → LogicalModule → LogicalModule → Nat → Nat → Prop
  | default {name : String} {m m' : LogicalModule} {default : Option String}
    (h : m.addDefault name default = .ok m') : Acts (.default name default) m m' 0 0
  | stream {name : String} {m m' : LogicalModule} {raw : RawStream} {artifacts : List String} {dependencies : List ModuleDependencies}
    {profiles : List ModuleProfile}
    (hartifacts : normalizeStrings raw.artifacts "module artifact" = .ok artifacts)
    (hdependencies : normalizeDependencies raw.dependencies = .ok dependencies)
    (hprofiles : normalizeProfiles raw.profiles = .ok profiles)
    (h : m.addStream name raw.stream ⟨raw.version, raw.summary.getD "", raw.description.getD "", profiles,
      .ofList artifacts, dependencies⟩ = .ok m') :
    Acts (.stream name raw) m m' 1 artifacts.length

def Part.moduleName : Part → String
  | .default name _ => name
  | .stream name _ => name

/-- The part has no version and no texts. -/
def Part.IsBare : Part → Prop
  | .default .. => True
  | .stream _ raw => raw.bare = raw

theorem isBare_of_mem_parts {raw : RawModule} {p : Part} (h : p ∈ raw.bare.parts) : p.IsBare := by
  rcases List.mem_cons.mp h with rfl | h
  · trivial
  · obtain ⟨r, hr, rfl⟩ := List.mem_map.mp h
    obtain ⟨r', -, rfl⟩ := List.mem_map.mp hr
    rfl

/-- A context of a stream without texts. -/
theorem bare_incoming {raw : RawStream} {profiles : List ModuleProfile} {artifacts : ExtTreeSet String}
    {dependencies : List ModuleDependencies} (h : raw.bare = raw) :
    (LogicalStream.mk raw.version (raw.summary.getD "") (raw.description.getD "") profiles artifacts
      dependencies).bare = ⟨raw.version, raw.summary.getD "", raw.description.getD "", profiles, artifacts,
        dependencies⟩ := by
  rw [← h]
  rfl

theorem or_swap {a b c : Option String} (hab : ∀ x ∈ a, ∀ y ∈ b, x = y)
    (hbc : ∀ x ∈ a.or b, ∀ y ∈ c, x = y) :
    (∀ x ∈ a, ∀ y ∈ c, x = y) ∧ (∀ x ∈ a.or c, ∀ y ∈ b, x = y) ∧ (a.or b).or c = (a.or c).or b := by
  cases a <;> cases b <;> cases c <;> simp_all

theorem acts_swap {p q : Part} {i j i' j' : Nat} (hp : p.IsBare) (hq : q.IsBare) (h : Acts p m m' i j)
    (h' : Acts q m' m'' i' j') : ∃ n, Acts q m n i' j' ∧ Acts p n m'' i j := by
  cases h with
  | default h =>
    obtain ⟨hagree, rfl⟩ := addDefault_eq_ok.mp h
    cases h' with
    | default h' =>
      obtain ⟨hagree', rfl⟩ := addDefault_eq_ok.mp h'
      obtain ⟨hfirst, hsecond, hor⟩ := or_swap hagree hagree'
      refine ⟨_, .default (addDefault_eq_ok.mpr ⟨hfirst, rfl⟩),
        .default (addDefault_eq_ok.mpr ⟨hsecond, ?_⟩)⟩
      dsimp only
      rw [hor]
    | stream hartifacts hdependencies hprofiles h' =>
      obtain ⟨y, hjoins, rfl⟩ := addStream_eq_ok.mp h'
      exact ⟨_, .stream hartifacts hdependencies hprofiles (addStream_eq_ok.mpr ⟨y, hjoins, rfl⟩),
        .default (addDefault_eq_ok.mpr ⟨hagree, rfl⟩)⟩
  | @stream _ _ _ raw _ _ _ hartifacts hdependencies hprofiles h =>
    obtain ⟨y, hjoins, rfl⟩ := addStream_eq_ok.mp h
    cases h' with
    | default h' =>
      obtain ⟨hagree', rfl⟩ := addDefault_eq_ok.mp h'
      exact ⟨_, .default (addDefault_eq_ok.mpr ⟨hagree', rfl⟩),
        .stream hartifacts hdependencies hprofiles (addStream_eq_ok.mpr ⟨y, hjoins, rfl⟩)⟩
    | @stream _ _ _ raw' _ _ _ hartifacts' hdependencies' hprofiles' h' =>
      obtain ⟨y', hjoins', rfl⟩ := addStream_eq_ok.mp h'
      dsimp only at hjoins' ⊢
      by_cases hstream : raw.stream = raw'.stream
      · rw [hstream, ExtTreeMap.getElem?_insert_self] at hjoins'
        rw [hstream] at hjoins
        obtain ⟨y₁, hfirst, hsecond⟩ := joins_swap (bare_incoming hp) (bare_incoming hq) hjoins hjoins'
        refine ⟨_, .stream hartifacts' hdependencies' hprofiles' (addStream_eq_ok.mpr ⟨y₁, hfirst, rfl⟩),
          .stream hartifacts hdependencies hprofiles (addStream_eq_ok.mpr ⟨y', ?_, ?_⟩)⟩
        · rw [hstream, ExtTreeMap.getElem?_insert_self]
          exact hsecond
        · rw [hstream, insert_insert_self, insert_insert_self]
      · rw [ExtTreeMap.getElem?_insert, if_neg (mt Std.compare_eq_iff_eq.mp hstream)] at hjoins'
        refine ⟨_, .stream hartifacts' hdependencies' hprofiles' (addStream_eq_ok.mpr ⟨y', hjoins', rfl⟩),
          .stream hartifacts hdependencies hprofiles (addStream_eq_ok.mpr ⟨y, ?_, ?_⟩)⟩
        · rw [ExtTreeMap.getElem?_insert, if_neg (mt Std.compare_eq_iff_eq.mp (Ne.symm hstream))]
          exact hjoins
        · rw [insert_comm hstream]

/-- The checks of a part that do not look at the state. -/
def Part.Fits : Part → Prop
  | .default name value => identifier name "module name" = .ok () ∧
    forM value.toList (identifier · "module default stream") = .ok ()
  | .stream name raw => raw.name = name ∧ identifier raw.stream "module stream" = .ok () ∧
    identifier raw.context "module context" = .ok () ∧
    identifier raw.arch "module architecture" = .ok ()

/-- A stream of another architecture. -/
def Part.Skipped (architecture : Architecture) : Part → Prop
  | .default .. => False
  | .stream _ raw => ¬ matchesArch raw.arch architecture

/-- The counts stay within their limits. -/
def Merge.Within (s : Merge) (i j : Nat) : Prop :=
  (i = 0 ∧ j = 0) ∨ (s.streamCount + i ≤ MAX_STREAMS ∧ s.artifactCount + j ≤ MAX_ARTIFACTS)

def Merge.module (s : Merge) (name : String) : LogicalModule := s.modules.getD name ⟨none, ∅⟩

/-- The module gets a new value, and the counts grow. -/
def Merge.put (s : Merge) (name : String) (m : LogicalModule) (i j : Nat) : Merge :=
  ⟨s.modules.insert name m, s.streamCount + i, s.artifactCount + j⟩

/-- A part that is not skipped changes its module. -/
def Merges (architecture : Architecture) (p : Part) (s s' : Merge) : Prop :=
  (p.Skipped architecture ∧ s' = s) ∨
    (¬ p.Skipped architecture ∧ ∃ m i j, Acts p (s.module p.moduleName) m i j ∧ s.Within i j ∧
      s' = s.put p.moduleName m i j)

variable {s s' t : Merge} {p q : Part}

theorem addDefault_getD {default : Option String} :
    (s.modules.getD name ⟨default, ∅⟩).addDefault name default = .ok m' ↔
      (s.module name).addDefault name default = .ok m' := by
  unfold Merge.module
  rw [ExtTreeMap.getD_eq_getD_getElem?, ExtTreeMap.getD_eq_getD_getElem?]
  cases s.modules[name]? with
  | some m => rfl
  | none =>
    rw [Option.getD_none, Option.getD_none, addDefault_eq_ok, addDefault_eq_ok]
    cases default <;> simp

theorem mergeDefault_eq_ok {default : Option String} : mergeDefault s name default = .ok s' ↔
    (Part.default name default).Fits ∧ Merges architecture (.default name default) s s' := by
  constructor
  · intro h
    obtain ⟨hname, h⟩ := Except.check_bind_eq_ok.mp h
    obtain ⟨hdefault, h⟩ := Except.check_bind_eq_ok.mp h
    obtain ⟨m, hm, h⟩ := Except.bind_eq_ok.mp h
    cases Except.pure_eq_ok.mp h
    exact ⟨⟨hname, hdefault⟩, .inr ⟨not_false, m, 0, 0, .default (addDefault_getD.mp hm), .inl ⟨rfl, rfl⟩, rfl⟩⟩
  · rintro ⟨⟨hname, hdefault⟩, ⟨⟨⟩, -⟩ | ⟨-, m, i, j, hacts, -, rfl⟩⟩
    cases hacts with
    | default hm =>
      refine Except.check_bind_eq_ok.mpr ⟨hname, Except.check_bind_eq_ok.mpr ⟨hdefault, ?_⟩⟩
      exact Except.bind_eq_ok.mpr ⟨m, addDefault_getD.mpr hm, rfl⟩

theorem mergeStream_eq_ok {raw : RawStream} : mergeStream architecture name s raw = .ok s' ↔
    (Part.stream name raw).Fits ∧ Merges architecture (.stream name raw) s s' := by
  constructor
  · intro h
    obtain ⟨hname, h⟩ := Except.check_bind_eq_ok.mp h
    obtain ⟨hstream, h⟩ := Except.check_bind_eq_ok.mp h
    obtain ⟨hcontext, h⟩ := Except.check_bind_eq_ok.mp h
    obtain ⟨harch, h⟩ := Except.check_bind_eq_ok.mp h
    rw [Except.refuseIf_eq_ok, not_not] at hname
    refine ⟨⟨hname, hstream, hcontext, harch⟩, ?_⟩
    split at h
    next hmatches =>
      obtain ⟨hstreams, h⟩ := Except.check_bind_eq_ok.mp h
      obtain ⟨artifacts, hartifacts, h⟩ := Except.bind_eq_ok.mp h
      obtain ⟨hcount, h⟩ := Except.check_bind_eq_ok.mp h
      obtain ⟨dependencies, hdependencies, h⟩ := Except.bind_eq_ok.mp h
      obtain ⟨profiles, hprofiles, h⟩ := Except.bind_eq_ok.mp h
      obtain ⟨m, hm, h⟩ := Except.bind_eq_ok.mp h
      cases Except.pure_eq_ok.mp h
      rw [Except.refuseIf_eq_ok, not_lt] at hstreams hcount
      exact .inr ⟨not_not.mpr hmatches, m, 1, artifacts.length,
        .stream hartifacts hdependencies hprofiles hm, .inr ⟨hstreams, hcount⟩, rfl⟩
    next hmatches =>
      cases Except.pure_eq_ok.mp h
      exact .inl ⟨hmatches, rfl⟩
  · rintro ⟨⟨hname, hstream, hcontext, harch⟩, h⟩
    refine Except.check_bind_eq_ok.mpr ⟨Except.refuseIf_eq_ok.mpr (not_not.mpr hname), ?_⟩
    refine Except.check_bind_eq_ok.mpr ⟨hstream, Except.check_bind_eq_ok.mpr ⟨hcontext, ?_⟩⟩
    refine Except.check_bind_eq_ok.mpr ⟨harch, ?_⟩
    rcases h with ⟨hskipped, rfl⟩ | ⟨hmatches, m, i, j, hacts, hwithin, rfl⟩
    · exact if_neg hskipped
    · refine (if_pos (not_not.mp hmatches)).trans ?_
      cases hacts with
      | @stream _ _ _ _ artifacts dependencies profiles hartifacts hdependencies hprofiles hm =>
        rcases hwithin with ⟨⟨⟩, -⟩ | ⟨hstreams, hcount⟩
        refine Except.check_bind_eq_ok.mpr ⟨Except.refuseIf_eq_ok.mpr (not_lt.mpr hstreams), ?_⟩
        refine Except.bind_eq_ok.mpr ⟨artifacts, hartifacts, ?_⟩
        refine Except.check_bind_eq_ok.mpr ⟨Except.refuseIf_eq_ok.mpr (not_lt.mpr hcount), ?_⟩
        refine Except.bind_eq_ok.mpr ⟨dependencies, hdependencies, ?_⟩
        refine Except.bind_eq_ok.mpr ⟨profiles, hprofiles, ?_⟩
        exact Except.bind_eq_ok.mpr ⟨m, hm, rfl⟩

theorem mergePart_eq_ok : mergePart architecture s p = .ok s' ↔ p.Fits ∧ Merges architecture p s s' := by
  cases p with
  | default name default => exact mergeDefault_eq_ok
  | stream name raw => exact mergeStream_eq_ok

theorem within_swap {i j i' j' : Nat} {n : String} (h : s.Within i j) (h' : (s.put n m i j).Within i' j') :
    s.Within i' j' ∧ (s.put n m' i' j').Within i j := by
  simp only [Merge.Within, Merge.put] at *
  omega

/-- Parts without texts change places. -/
theorem merges_swap (hp : p.IsBare) (hq : q.IsBare) (h : Merges architecture p s t)
    (h' : Merges architecture q t s') : ∃ t', Merges architecture q s t' ∧ Merges architecture p t' s' := by
  rcases h with ⟨hskipped, rfl⟩ | ⟨hp', m, i, j, hacts, hwithin, rfl⟩
  · exact ⟨s', h', .inl ⟨hskipped, rfl⟩⟩
  rcases h' with ⟨hskipped, rfl⟩ | ⟨hq', m', i', j', hacts', hwithin', rfl⟩
  · exact ⟨s, .inl ⟨hskipped, rfl⟩, .inr ⟨hp', m, i, j, hacts, hwithin, rfl⟩⟩
  by_cases hname : p.moduleName = q.moduleName
  · have hmodule : (s.put p.moduleName m i j).module q.moduleName = m := by
      rw [← hname]
      exact ExtTreeMap.getD_insert_self
    rw [hmodule] at hacts'
    obtain ⟨n, hfirst, hsecond⟩ := acts_swap hp hq hacts hacts'
    obtain ⟨hw, hw'⟩ := @within_swap m n s i j i' j' q.moduleName hwithin (hname ▸ hwithin')
    refine ⟨s.put q.moduleName n i' j', .inr ⟨hq', n, i', j', hname ▸ hfirst, hw, rfl⟩,
      .inr ⟨hp', m', i, j, ?_, hw', ?_⟩⟩
    · have hmodule' : (s.put q.moduleName n i' j').module p.moduleName = n := by
        rw [hname]
        exact ExtTreeMap.getD_insert_self
      rw [hmodule']
      exact hsecond
    · simp only [Merge.put, hname, insert_insert_self, Nat.add_right_comm]
  · have hmodule : (s.put p.moduleName m i j).module q.moduleName = s.module q.moduleName :=
      getD_insert_ne hname
    have hmodule' : (s.put q.moduleName m' i' j').module p.moduleName = s.module p.moduleName :=
      getD_insert_ne (Ne.symm hname)
    rw [hmodule] at hacts'
    obtain ⟨hw, hw'⟩ := @within_swap m m' s i j i' j' p.moduleName hwithin hwithin'
    refine ⟨s.put q.moduleName m' i' j', .inr ⟨hq', m', i', j', hacts', hw, rfl⟩,
      .inr ⟨hp', m, i, j, hmodule'.symm ▸ hacts, hw', ?_⟩⟩
    simp only [Merge.put, insert_comm hname, Nat.add_right_comm]

theorem exchange_mergePart : Except.Exchange (mergePart architecture) (· = ·) Part.IsBare := by
  refine .of_eq fun {s m s' p q} hp hq h h' => ?_
  rw [mergePart_eq_ok] at h h'
  obtain ⟨t, ht, hs'⟩ := merges_swap hp hq h.2 h'.2
  exact ⟨t, mergePart_eq_ok.mpr ⟨h'.1, ht⟩, mergePart_eq_ok.mpr ⟨h.1, hs'⟩⟩

/-- Every permutation of the raw modules gives the same catalog, up to the texts. -/
theorem catalogFromRaw_perm {raw raw' : List RawModule} {c : ModuleCatalog} (hperm : raw.Perm raw')
    (h : catalogFromRaw raw architecture = .ok c) :
    ∃ c', catalogFromRaw raw' architecture = .ok c' ∧ c'.bare = c.bare := by
  have hbare : catalogFromRaw (raw.map RawModule.bare) architecture = .ok c.bare := by
    rw [catalogFromRaw_bare, h]
    rfl
  have hbare' : catalogFromRaw (raw'.map RawModule.bare) architecture = .ok c.bare := by
    obtain ⟨hlength, hrest⟩ := Except.check_bind_eq_ok.mp hbare
    obtain ⟨s, hmerge, hrest⟩ := Except.bind_eq_ok.mp hrest
    rw [foldlM_mergeModule] at hmerge
    obtain ⟨_, hmerge', rfl⟩ := exchange_mergePart.foldlM_perm ((hperm.map _).flatMap_right _)
      (fun p hp => by
        obtain ⟨r, hr, hp⟩ := List.mem_flatMap.mp hp
        obtain ⟨r', -, rfl⟩ := List.mem_map.mp hr
        exact isBare_of_mem_parts hp) rfl hmerge
    rw [List.length_map, hperm.length_eq, ← List.length_map (f := RawModule.bare)] at hlength
    refine Except.check_bind_eq_ok.mpr ⟨hlength, Except.bind_eq_ok.mpr ⟨s, ?_, hrest⟩⟩
    rw [foldlM_mergeModule, hmerge']
  rw [catalogFromRaw_bare] at hbare'
  exact Except.map_eq_ok.mp hbare'

end Dnfast.Planning
