import Dnfast.Executor.Pool
import Dnfast.Planning.Digest
import Dnfast.Solver.Consumed

/-! # Module artifacts

`dnfast_solver_set_module_excludes` takes the packages of excluded artifacts out of the pool, and
`apply_module_artifact_policy` marks the candidates of the same policy. The native side compares the
identity of a package as it is and without its first `0:` behind a dash; the other side looks up the one
text with the epoch. -/

namespace Dnfast.Native

open Except (refuseIf)
open Executor (RepositoryPackage)

/-- A package of the pool under its identifier. -/
structure PoolPackage where
  id : Nat
  system : Bool
  package : RepositoryPackage

/-- `dnfast_solvable_identity`. -/
def solvableIdentity (package : RepositoryPackage) : String :=
  if ':' ∈ package.evr.toList then package.name ++ "-" ++ package.evr ++ "." ++ package.arch
  else package.name ++ "-0:" ++ package.evr ++ "." ++ package.arch

def zeroEpoch : List Char := ['-', '0', ':']

/-- The identity without the `0:` of its first `-0:`. -/
def withoutZeroEpoch (identity : String) : Option String :=
  (List.splitOnce zeroEpoch identity.toList).map fun (before, after) =>
    String.ofList (before ++ '-' :: after)

/-- The artifact is the package. -/
def isArtifact (package : RepositoryPackage) (nevra : String) : Bool :=
  solvableIdentity package = nevra || withoutZeroEpoch (solvableIdentity package) = some nevra

/-- The packages of an artifact. -/
def artifactIds (pool : List PoolPackage) (nevra : String) : List Nat :=
  (pool.filter fun p => !p.system && isArtifact p.package nevra).map (·.id)

/-- One round of the loop over the artifacts: those before it and the packages that are resolved. -/
def resolveArtifact (pool : List PoolPackage) (found : List String × List Nat) (nevra : String) :
    Except NativeError (List String × List Nat) := do
  refuseIf (nevra = "") (.nativeFailure 1 "empty module artifact identity")
  refuseIf (nevra ∈ found.1) (.nativeFailure 1 "duplicate module artifact identity")
  refuseIf (artifactIds pool nevra = [])
    (.nativeFailure 7 "module artifact is absent from selected repositories")
  return (nevra :: found.1, found.2 ++ artifactIds pool nevra)

/-- `set_module_excludes`: the packages that are not considered any more. A text with a zero byte is no
string of C. -/
def setModuleExcludes (pool : List PoolPackage) (nevras : List String) :
    Except NativeError (List Nat) := do
  refuseIf (nevras.any fun nevra => '\x00' ∈ nevra.toList) (.nativeFailure 1 "string contains NUL")
  refuseIf (nevras.length ≥ 2 ^ 32) (.nativeFailure 1 "invalid module exclude set")
  return (← nevras.foldlM (resolveArtifact pool) ([], [])).2

section
variable {pool : List PoolPackage} {nevras : List String} {found found' : List String × List Nat}
  {resolved : List Nat}

theorem foldlM_resolveArtifact (h : nevras.foldlM (resolveArtifact pool) found = .ok found') :
    found'.2 = found.2 ++ nevras.flatMap (artifactIds pool) := by
  induction nevras generalizing found with
  | nil =>
    cases Except.pure_eq_ok.mp h
    simp
  | cons nevra nevras ih =>
    rw [List.foldlM_cons, Except.bind_eq_ok] at h
    obtain ⟨next, hstep, h⟩ := h
    simp only [resolveArtifact, Except.check_bind_eq_ok] at hstep
    cases Except.pure_eq_ok.mp hstep.2.2.2
    rw [ih h, List.flatMap_cons, List.append_assoc]

theorem setModuleExcludes_eq_ok (h : setModuleExcludes pool nevras = .ok resolved) :
    resolved = nevras.flatMap (artifactIds pool) := by
  simp only [setModuleExcludes, Except.bind_eq_ok] at h
  obtain ⟨_, -, _, -, found, hfold, hresolved⟩ := h
  rw [← Except.pure_eq_ok.mp hresolved, foldlM_resolveArtifact hfold, List.nil_append]

/-- A package leaves the pool when an artifact of the list is it. -/
theorem mem_resolved_iff {p : PoolPackage} (h : setModuleExcludes pool nevras = .ok resolved)
    (hids : (pool.map (·.id)).Nodup) (hp : p ∈ pool) (hsystem : p.system = false) :
    p.id ∈ resolved ↔ ∃ nevra ∈ nevras, isArtifact p.package nevra = true := by
  rw [setModuleExcludes_eq_ok h, List.mem_flatMap]
  refine exists_congr fun nevra => and_congr Iff.rfl ?_
  unfold artifactIds
  rw [List.mem_map]
  constructor
  · rintro ⟨q, hq, hid⟩
    obtain ⟨hq, hnevra⟩ := List.mem_filter.mp hq
    cases List.inj_on_of_nodup_map hids hq hp hid
    simpa [hsystem] using hnevra
  · intro hnevra
    exact ⟨p, List.mem_filter.mpr ⟨hp, by simp [hsystem, hnevra]⟩, rfl⟩

end

end Dnfast.Native

namespace Dnfast.Executor

open Native (PoolPackage isArtifact setModuleExcludes solvableIdentity withoutZeroEpoch zeroEpoch)
open Planning (PlanningRepository)
open Solver (CandidatePackage fullNevra)

/-- The excluded artifacts of a policy. -/
def moduleExcludes (policies : List (String × Bool)) : List String :=
  policies.filterMap fun (artifact, excluded) => if excluded then some artifact else none

section
variable {policies : List (String × Bool)} {nevra : String} {c c' : CandidatePackage}

theorem mem_moduleExcludes : nevra ∈ moduleExcludes policies ↔ (nevra, true) ∈ policies := by
  simp [moduleExcludes]

theorem lookup_eq_some_true (hkeys : (policies.map Prod.fst).Nodup) :
    policies.lookup nevra = some true ↔ (nevra, true) ∈ policies := by
  induction policies with
  | nil => simp
  | cons entry policies ih =>
    obtain ⟨key, value⟩ := entry
    rw [List.map_cons, List.nodup_cons] at hkeys
    by_cases h : nevra = key
    · subst h
      have hno : (nevra, true) ∉ policies := fun hmem =>
        hkeys.1 (List.mem_map.mpr ⟨(nevra, true), hmem, rfl⟩)
      simp [hno, eq_comm]
    · have hne : (nevra == key) = false := by simpa using h
      rw [List.lookup_cons, hne]
      simp [h, ih hkeys.2]

/-- A candidate of the pool is marked when its text is excluded. -/
theorem excluded_applyModuleArtifactPolicy (hkeys : (policies.map Prod.fst).Nodup)
    (hc : c.excluded = false) :
    (applyModuleArtifactPolicy policies c).excluded = true ↔ (fullNevra c, true) ∈ policies := by
  rw [← lookup_eq_some_true hkeys, applyModuleArtifactPolicy]
  cases policies.lookup (fullNevra c) <;> simp [hc]

end

/-! ## Texts of a package -/

/-- `name-version-release.arch` without an epoch. -/
def shortNevra (c : CandidatePackage) : String :=
  c.name ++ "-" ++ c.evra.version ++ "-" ++ c.evra.release ++ "." ++ c.evra.arch.asRpmArch

/-- The texts of a package as RPM has them: no dash and no colon in a version or a release and no marker
of an epoch in a name. -/
structure Plain (c : CandidatePackage) : Prop where
  name : ¬ zeroEpoch <:+: c.name.toList
  version : '-' ∉ c.evra.version.toList ∧ ':' ∉ c.evra.version.toList
  release : '-' ∉ c.evra.release.toList ∧ ':' ∉ c.evra.release.toList

/-- The name, the version, the release and the architecture of a text, read from its end. -/
def textParts (text : List Char) : Option (List Char × List Char × List Char × List Char) := do
  let (front, back) ← text.rsplitOnce '-'
  let (release, arch) ← back.rsplitOnce '.'
  let (name, version) ← front.rsplitOnce '-'
  return (name, version, release, arch)

theorem textParts_eq {name version release arch : List Char} (hversion : '-' ∉ version)
    (hrelease : '-' ∉ release) (harch : '-' ∉ arch) (hdot : '.' ∉ arch) :
    textParts (name ++ '-' :: version ++ '-' :: (release ++ '.' :: arch)) =
      some (name, version, release, arch) := by
  have hback : '-' ∉ release ++ '.' :: arch := by simp [hrelease, harch]
  simp only [textParts, List.rsplitOnce_of_notMem hback, List.rsplitOnce_of_notMem hdot,
    List.rsplitOnce_of_notMem hversion, Option.bind_eq_bind, Option.bind_some, Option.pure_def]

section
variable {c c' : CandidatePackage}

theorem asRpmArch_plain (arch : Core.Architecture) :
    '-' ∉ arch.asRpmArch.toList ∧ '.' ∉ arch.asRpmArch.toList ∧ ':' ∉ arch.asRpmArch.toList := by
  cases arch <;> decide

theorem repr_plain {n : Nat} {a : Char} (ha : a.isDigit = false) : a ∉ n.repr.toList := by
  intro hmem
  rw [Nat.repr, String.toList_ofList] at hmem
  rw [Nat.isDigit_of_mem_toDigits (by decide) (by decide) hmem] at ha
  cases ha

theorem textParts_fullNevra (hc : Plain c) : textParts (fullNevra c).toList =
    some (c.name.toList, c.evra.epoch.toNat.repr.toList ++ ':' :: c.evra.version.toList,
      c.evra.release.toList, c.evra.arch.asRpmArch.toList) := by
  obtain ⟨hdash, hdot, -⟩ := asRpmArch_plain c.evra.arch
  have hversion : '-' ∉ c.evra.epoch.toNat.repr.toList ++ ':' :: c.evra.version.toList := by
    rw [List.mem_append, List.mem_cons, not_or, not_or]
    exact ⟨repr_plain (by decide), by decide, hc.version.1⟩
  rw [← textParts_eq hversion hc.release.1 hdash hdot]
  simp [fullNevra, Solver.nevraText, String.toList_append]

theorem textParts_shortNevra (hc : Plain c) : textParts (shortNevra c).toList =
    some (c.name.toList, c.evra.version.toList, c.evra.release.toList,
      c.evra.arch.asRpmArch.toList) := by
  obtain ⟨hdash, hdot, -⟩ := asRpmArch_plain c.evra.arch
  rw [← textParts_eq hc.version.1 hc.release.1 hdash hdot]
  simp [shortNevra, String.toList_append]

theorem epoch_eq_of_repr {a b : UInt32} (h : a.toNat.repr.toList = b.toNat.repr.toList) : a = b := by
  rw [Nat.repr, Nat.repr, String.toList_ofList, String.toList_ofList] at h
  have hnat := congrArg (fun digits => Nat.ofDigitChars 10 digits 0) h
  simp only [Nat.ofDigitChars_toDigits (b := 10) (by decide) (by decide)] at hnat
  exact UInt32.toNat_inj.mp hnat

theorem asRpmArch_injective {a b : Core.Architecture} (h : a.asRpmArch.toList = b.asRpmArch.toList) :
    a = b := by
  cases a <;> cases b <;> first | rfl | exact absurd h (by decide)

/-- The text with the epoch is that of one package. -/
theorem nevra_eq_of_fullNevra (hc : Plain c) (hc' : Plain c') (h : fullNevra c = fullNevra c') :
    c.name = c'.name ∧ c.evra = c'.evra := by
  have hparts := textParts_fullNevra hc
  rw [h, textParts_fullNevra hc'] at hparts
  simp only [Option.some.injEq, Prod.mk.injEq] at hparts
  obtain ⟨hname, hversion, hrelease, harch⟩ := hparts
  have hsplit := congrArg (List.rsplitOnce ':') hversion
  rw [List.rsplitOnce_of_notMem hc.version.2, List.rsplitOnce_of_notMem hc'.version.2] at hsplit
  simp only [Option.some.injEq, Prod.mk.injEq] at hsplit
  refine ⟨(String.toList_injective hname).symm, ?_⟩
  have hepoch := epoch_eq_of_repr hsplit.1.symm
  have hversion := (String.toList_injective hsplit.2).symm
  have hrelease := (String.toList_injective hrelease).symm
  have harch := (asRpmArch_injective harch).symm
  cases hevra : c.evra
  cases hevra' : c'.evra
  simp_all

theorem nevra_eq_of_shortNevra (hc : Plain c) (hc' : Plain c') (hepoch : c.evra.epoch = c'.evra.epoch)
    (h : shortNevra c = shortNevra c') : c.name = c'.name ∧ c.evra = c'.evra := by
  have hparts := textParts_shortNevra hc
  rw [h, textParts_shortNevra hc'] at hparts
  simp only [Option.some.injEq, Prod.mk.injEq] at hparts
  obtain ⟨hname, hversion, hrelease, harch⟩ := hparts
  refine ⟨(String.toList_injective hname).symm, ?_⟩
  have hversion := (String.toList_injective hversion).symm
  have hrelease := (String.toList_injective hrelease).symm
  have harch := (asRpmArch_injective harch).symm
  cases hevra : c.evra
  cases hevra' : c'.evra
  simp_all

theorem fullNevra_ne_shortNevra (hc : Plain c) (hc' : Plain c') : fullNevra c ≠ shortNevra c' := by
  intro h
  have hparts := textParts_fullNevra hc
  rw [h, textParts_shortNevra hc'] at hparts
  simp only [Option.some.injEq, Prod.mk.injEq] at hparts
  apply hc'.version.2
  rw [hparts.2.1]
  exact List.mem_append_right _ List.mem_cons_self

/-! ## The first marker of a zero epoch -/

/-- A marker does not begin in a name without one. -/
theorem splitOnce_zeroEpoch_append {name rest : List Char} (hname : ¬ zeroEpoch <:+: name) :
    List.splitOnce zeroEpoch (name ++ '-' :: rest) =
      (List.splitOnce zeroEpoch ('-' :: rest)).map fun (before, after) => (name ++ before, after) := by
  induction name with
  | nil => simp
  | cons x name ih =>
    have htail : ¬ zeroEpoch <:+: name := fun h => hname (h.trans (List.suffix_cons x name).isInfix)
    have hno : ¬ zeroEpoch <+: x :: (name ++ '-' :: rest) := by
      intro h
      have hx : zeroEpoch <+: x :: name := by
        match name with
        | [] => simp [zeroEpoch] at h
        | [a] => simp [zeroEpoch] at h
        | a :: b :: name => simpa [zeroEpoch] using h
      exact hname hx.isInfix
    rw [List.cons_append, List.splitOnce, if_neg hno, ih htail, Option.map_map]
    rfl

theorem splitOnce_zeroEpoch_eq_none {text : List Char} (h : ¬ zeroEpoch <:+: text) :
    List.splitOnce zeroEpoch text = none := by
  cases hsplit : List.splitOnce zeroEpoch text with
  | none => rfl
  | some split =>
    obtain ⟨before, after⟩ := split
    exact absurd ⟨before, after, (List.eq_of_splitOnce hsplit).symm⟩ h

/-- A text with one colon has no marker when there is no dash in front of the colon. -/
theorem not_zeroEpoch_infix {front back : List Char} (hdash : '-' ∉ front) (hfront : ':' ∉ front)
    (hback : ':' ∉ back) : ¬ zeroEpoch <:+: front ++ ':' :: back := by
  rintro ⟨before, after, h⟩
  have hsplit := @List.rsplitOnce_of_notMem _ _ ':' front back hback
  rw [← h, show before ++ zeroEpoch ++ after = (before ++ ['-', '0']) ++ ':' :: after by
    simp [zeroEpoch]] at hsplit
  by_cases hafter : ':' ∈ after
  · obtain ⟨⟨left, right⟩, hmore⟩ := Option.ne_none_iff_exists'.mp
      (mt List.rsplitOnce_eq_none.mp (not_not.mpr hafter))
    have hagain := List.rsplitOnce_append (before ++ ['-', '0', ':']) hmore
    simp only [List.append_assoc, List.cons_append, List.nil_append] at hagain hsplit
    rw [hagain] at hsplit
    simp only [Option.some.injEq, Prod.mk.injEq] at hsplit
    exact hfront (hsplit.1 ▸ by simp)
  · rw [List.rsplitOnce_of_notMem hafter] at hsplit
    simp only [Option.some.injEq, Prod.mk.injEq] at hsplit
    exact hdash (hsplit.1 ▸ by simp)

theorem epoch_zero_of_prefixed {epoch : UInt32} {rest : List Char}
    (h : zeroEpoch <+: '-' :: (epoch.toNat.repr.toList ++ ':' :: rest)) : epoch = 0 := by
  have hcolon : ':' ∉ epoch.toNat.repr.toList := repr_plain (by decide)
  apply epoch_eq_of_repr
  match hrepr : epoch.toNat.repr.toList with
  | [] => simp [zeroEpoch, hrepr] at h
  | [a] =>
    rw [hrepr] at h
    have ha : '0' = a := by simpa [zeroEpoch] using h
    rw [← ha]
    decide
  | a :: b :: digits =>
    rw [hrepr] at h hcolon
    have hb : '0' = a ∧ ':' = b := by simpa [zeroEpoch] using h
    rw [hb.2] at hcolon
    exact absurd (List.mem_cons_of_mem _ List.mem_cons_self) hcolon

/-- Of a plain package the marker of a zero epoch is the epoch. -/
theorem withoutZeroEpoch_fullNevra (hc : Plain c) : withoutZeroEpoch (fullNevra c) =
    if c.evra.epoch = 0 then some (shortNevra c) else none := by
  obtain ⟨hdash, -, hcolon⟩ := asRpmArch_plain c.evra.arch
  have htext : (fullNevra c).toList = c.name.toList ++ '-' :: (c.evra.epoch.toNat.repr.toList ++ ':' ::
      (c.evra.version.toList ++ '-' :: (c.evra.release.toList ++ '.' ::
        c.evra.arch.asRpmArch.toList))) := by
    simp [fullNevra, Solver.nevraText, String.toList_append]
  have hback : ':' ∉ c.evra.version.toList ++ '-' :: (c.evra.release.toList ++ '.' ::
      c.evra.arch.asRpmArch.toList) := by
    simp [hc.version.2, hc.release.2, hcolon]
  unfold withoutZeroEpoch
  rw [htext, splitOnce_zeroEpoch_append hc.name]
  split
  · next hepoch =>
    have hzero : (0 : UInt32).toNat.repr.toList = ['0'] := by decide
    rw [hepoch, hzero, List.splitOnce, if_pos ⟨_, rfl⟩]
    refine congrArg some (String.toList_injective ?_)
    simp [zeroEpoch, shortNevra, String.toList_append]
  · next hepoch =>
    rw [splitOnce_zeroEpoch_eq_none]
    · rfl
    intro hinfix
    rcases List.infix_cons_iff.mp hinfix with hprefix | hinfix
    · exact hepoch (epoch_zero_of_prefixed hprefix)
    · exact not_zeroEpoch_infix (repr_plain (by decide)) (repr_plain (by decide)) hback hinfix

end

/-! ## The two sides -/

/-- The text that marks a candidate is excluded together with the texts that take its package out of the
pool. -/
structure ExcludedTogether (policies : List (String × Bool)) (package : RepositoryPackage)
    (c : CandidatePackage) : Prop where
  identity : (solvableIdentity package, true) ∈ policies → (fullNevra c, true) ∈ policies
  short : ∀ nevra, withoutZeroEpoch (solvableIdentity package) = some nevra →
    (nevra, true) ∈ policies → (fullNevra c, true) ∈ policies
  full : (fullNevra c, true) ∈ policies → (solvableIdentity package, true) ∈ policies ∨
    ∃ nevra, withoutZeroEpoch (solvableIdentity package) = some nevra ∧ (nevra, true) ∈ policies

section
variable {policies : List (String × Bool)} {pool : List PoolPackage} {resolved : List Nat}
  {package package' : RepositoryPackage} {c c' : CandidatePackage} {nevra : String}

theorem isArtifact_iff : isArtifact package nevra = true ↔
    solvableIdentity package = nevra ∨ withoutZeroEpoch (solvableIdentity package) = some nevra := by
  simp [isArtifact]

theorem excludedTogether_iff : ((∃ nevra ∈ moduleExcludes policies, isArtifact package nevra = true) ↔
    (fullNevra c, true) ∈ policies) ↔ ExcludedTogether policies package c := by
  simp only [mem_moduleExcludes, isArtifact_iff]
  constructor
  · intro h
    refine ⟨fun hid => h.mp ⟨_, hid, .inl rfl⟩, fun nevra hshort hmem => h.mp ⟨nevra, hmem, .inr hshort⟩,
      fun hfull => ?_⟩
    obtain ⟨nevra, hmem, rfl | hshort⟩ := h.mpr hfull
    · exact .inl hmem
    · exact .inr ⟨nevra, hshort, hmem⟩
  · intro h
    constructor
    · rintro ⟨nevra, hmem, rfl | hshort⟩
      · exact h.identity hmem
      · exact h.short nevra hshort hmem
    · intro hfull
      rcases h.full hfull with hmem | ⟨nevra, hshort, hmem⟩
      · exact ⟨_, hmem, .inl rfl⟩
      · exact ⟨nevra, hmem, .inr hshort⟩

/-- The artifacts of a plain package are its text and, with a zero epoch, its text without the epoch. -/
theorem isArtifact_plain (hc : Plain c) (hidentity : solvableIdentity package = fullNevra c) :
    isArtifact package nevra = true ↔
      nevra = fullNevra c ∨ c.evra.epoch = 0 ∧ nevra = shortNevra c := by
  rw [isArtifact_iff, hidentity, withoutZeroEpoch_fullNevra hc]
  split
  · next h => simp [h, eq_comm]
  · next h => simp [h, eq_comm]

theorem excludedTogether_plain (hc : Plain c) (hidentity : solvableIdentity package = fullNevra c) :
    ExcludedTogether policies package c ↔
      (c.evra.epoch = 0 → (shortNevra c, true) ∈ policies → (fullNevra c, true) ∈ policies) := by
  rw [← excludedTogether_iff]
  simp only [mem_moduleExcludes, isArtifact_plain hc hidentity]
  constructor
  · intro h hepoch hmem
    exact h.mp ⟨_, hmem, .inr ⟨hepoch, rfl⟩⟩
  · intro h
    constructor
    · rintro ⟨nevra, hmem, rfl | ⟨hepoch, rfl⟩⟩
      · exact hmem
      · exact h hepoch hmem
    · exact fun hmem => ⟨_, hmem, .inl rfl⟩

theorem excluded_of_residentCandidateFor {repository : PlanningRepository} {base : Core.Architecture}
    (h : residentCandidateFor repository base package = .ok (some c)) : c.excluded = false := by
  obtain ⟨⟨epoch, version, release⟩, -, h⟩ := Except.bind_eq_ok.mp h
  obtain ⟨architecture, -, h⟩ := Except.bind_eq_ok.mp h
  cases architecture with
  | none => cases h
  | some architecture =>
    simp only [Except.check_bind_eq_ok] at h
    cases Except.pure_eq_ok.mp h.2
    rfl

/-- A package leaves the pool and its candidate is marked exactly together when the policy excludes their
texts together; for a package with plain texts, when an artifact without the zero epoch is excluded only
with the one that has it. One artifact is no two plain packages. -/
theorem excluded_iff_marked_iff (hkeys : (policies.map Prod.fst).Nodup)
    (hids : (pool.map (·.id)).Nodup)
    (h : setModuleExcludes pool (moduleExcludes policies) = .ok resolved) :
    (∀ p ∈ pool, p.system = false → ∀ (repository : PlanningRepository) (base : Core.Architecture)
      (c : CandidatePackage), residentCandidateFor repository base p.package = .ok (some c) →
      ((p.id ∈ resolved ↔ (applyModuleArtifactPolicy policies c).excluded = true) ↔
        ExcludedTogether policies p.package c)) ∧
    (∀ (package : RepositoryPackage) (c : CandidatePackage), Plain c →
      solvableIdentity package = fullNevra c →
      (ExcludedTogether policies package c ↔
        (c.evra.epoch = 0 → (shortNevra c, true) ∈ policies → (fullNevra c, true) ∈ policies)) ∧
      ∀ nevra, isArtifact package nevra = true ↔
        nevra = fullNevra c ∨ c.evra.epoch = 0 ∧ nevra = shortNevra c) ∧
    ∀ (package package' : RepositoryPackage) (c c' : CandidatePackage) (nevra : String), Plain c →
      Plain c' → solvableIdentity package = fullNevra c → solvableIdentity package' = fullNevra c' →
      isArtifact package nevra = true → isArtifact package' nevra = true →
      c.name = c'.name ∧ c.evra = c'.evra := by
  refine ⟨fun p hp hsystem repository base c hc => ?_, fun package c hc hidentity => ?_,
    fun package package' c c' nevra hc hc' hidentity hidentity' hnevra hnevra' => ?_⟩
  · rw [Native.mem_resolved_iff h hids hp hsystem,
      excluded_applyModuleArtifactPolicy hkeys (excluded_of_residentCandidateFor hc)]
    exact excludedTogether_iff
  · exact ⟨excludedTogether_plain hc hidentity, fun nevra => isArtifact_plain hc hidentity⟩
  · rw [isArtifact_plain hc hidentity] at hnevra
    rw [isArtifact_plain hc' hidentity'] at hnevra'
    rcases hnevra with rfl | ⟨hepoch, rfl⟩
    · rcases hnevra' with heq | ⟨-, heq⟩
      · exact nevra_eq_of_fullNevra hc hc' heq
      · exact absurd heq (fullNevra_ne_shortNevra hc hc')
    · rcases hnevra' with heq | ⟨hepoch', heq⟩
      · exact absurd heq.symm (fullNevra_ne_shortNevra hc' hc)
      · exact nevra_eq_of_shortNevra hc hc' (hepoch.trans hepoch'.symm) heq

end

/-! ### An artifact without its epoch -/

def demoPackage : RepositoryPackage where
  name := "demo"
  arch := "x86_64"
  evr := "1-1"
  vendor := "Fedora"
  packageSize := 100
  installedSize := 200
  checksumSha256 := Core.zeroDigest.asStr
  location := "Packages/demo.rpm"
  requires := []
  recommends := []
  supplements := []
  enhances := []

def demoCandidate : CandidatePackage where
  name := "demo"
  evra := ⟨0, "1", "1", .x86_64⟩
  vendor := "Fedora"
  repoId := "fedora"
  priority := 99
  cost := 1000
  packageSize := 100
  installedSize := 200
  checksumSha256 := Core.zeroDigest.asStr
  location := "Packages/demo.rpm"
  excluded := false
  modular := false

theorem demo_facts :
    setModuleExcludes [⟨2, false, demoPackage⟩] (moduleExcludes [("demo-1-1.x86_64", true)]) = .ok [2] ∧
    residentCandidateFor Planning.fedoraRepository .x86_64 demoPackage = .ok (some demoCandidate) ∧
    (applyModuleArtifactPolicy [("demo-1-1.x86_64", true)] demoCandidate).excluded = false := by
  simp only [← Except.toOption_eq_some]
  decide +kernel

theorem excluded_iff_marked_iff_demo :
    ¬ ExcludedTogether [("demo-1-1.x86_64", true)] demoPackage demoCandidate := by
  obtain ⟨hexcludes, hcandidate, hmarked⟩ := demo_facts
  have hiff := (excluded_iff_marked_iff (by decide) (by decide) hexcludes).1 ⟨2, false, demoPackage⟩
    List.mem_cons_self rfl Planning.fedoraRepository .x86_64 demoCandidate hcandidate
  intro htogether
  have hmark := (hiff.mpr htogether).mp List.mem_cons_self
  rw [hmarked] at hmark
  cases hmark

/-- An artifact without the epoch takes the package out of the pool and leaves its candidate. -/
theorem excluded_is_not_marked :
    ∃ (policies : List (String × Bool)) (p : PoolPackage) (c : CandidatePackage) (resolved : List Nat),
      setModuleExcludes [p] (moduleExcludes policies) = .ok resolved ∧
      residentCandidateFor Planning.fedoraRepository .x86_64 p.package = .ok (some c) ∧
      p.id ∈ resolved ∧ (applyModuleArtifactPolicy policies c).excluded = false := by
  obtain ⟨hexcludes, hcandidate, hmarked⟩ := demo_facts
  exact ⟨_, ⟨2, false, demoPackage⟩, demoCandidate, _, hexcludes, hcandidate, List.mem_cons_self,
    hmarked⟩

end Dnfast.Executor
