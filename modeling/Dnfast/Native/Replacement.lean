import Dnfast.Native.Inventory
import Dnfast.Solver.Coverage
import Dnfast.Solver.Preference

/-! # The package of a requested replacement

`solver.c`: a requested downgrade or reinstallation is not left to libsolv. The selector has to name one
installed package, and `exact_replacement_candidate` picks the package that takes its place. What libsolv
or this function picks has to be the preferred candidate of the plan builder, which orders them otherwise. -/

namespace Dnfast.Native

open Core (Evra)
open Except (okOr)

/-- A package of the pool. The one of the installed repository is a `system` package; a repository has
the negated priority and cost of its configuration. -/
structure Solvable where
  id : Nat
  system : Bool
  name : String
  evra : Evra
  vendor : Option String
  priority : Int
  subpriority : Int
  deriving DecidableEq

def replacementFailure (message : String) : NativeError := .nativeFailure 7 message

/-- The one package of a list, under an identifier. -/
def onlyOne (message : String) (l : List Solvable) : Except NativeError (Option Solvable) :=
  l.foldlM (fun found s => match found with
    | some other => if other.id ≠ s.id then .error (replacementFailure message) else .ok (some s)
    | none => .ok (some s)) none

/-- The installed package that a selection is about. -/
def replacementTarget (pool selected : List Solvable) : Except NativeError Solvable := do
  match ← onlyOne "selector matches multiple installed packages" (selected.filter (·.system)) with
  | some installed => return installed
  | none =>
    let mapped := pool.filter fun old => old.system && selected.any fun available =>
      !available.system && available.name = old.name && available.evra.arch = old.evra.arch
    okOr (← onlyOne "selector maps to multiple installed packages" mapped)
      (replacementFailure "replacement target is not installed")

/-- Operation 3 is a downgrade, operation 4 a reinstallation. -/
def replaces (operation : UInt8) (old item : Solvable) : Bool :=
  !item.system && item.name = old.name && item.evra.arch = old.evra.arch && item.vendor = old.vendor &&
    !(operation = 3 && (Evra.cmp item.evra old.evra).isGE) &&
    !(operation = 4 && Evra.cmp item.evra old.evra ≠ .eq)

def betterCandidate (current item : Solvable) : Bool :=
  let version := Evra.cmp item.evra current.evra
  version = .gt || (version = .eq && item.priority > current.priority) ||
    (version = .eq && item.priority = current.priority && item.subpriority > current.subpriority) ||
    (version = .eq && item.priority = current.priority && item.subpriority = current.subpriority &&
      item.id < current.id)

def exactReplacementCandidate (pool selected : List Solvable) (operation : UInt8) :
    Except NativeError Solvable := do
  let old ← replacementTarget pool selected
  let candidate := (selected.filter (replaces operation old)).foldl (fun candidate item =>
    match candidate with
    | none => some item
    | some current => if betterCandidate current item then some item else some current) none
  okOr candidate (replacementFailure (if operation = 3 then "no older same-identity repository package"
    else "exact installed EVRA is absent from repositories"))

section
variable {pool selected : List Solvable} {operation : UInt8} {s : Solvable}

theorem mem_of_foldl_better (l : List Solvable) (start : Option Solvable)
    (h : l.foldl (fun candidate item => match candidate with
      | none => some item
      | some current => if betterCandidate current item then some item else some current) start =
        some s) : start = some s ∨ s ∈ l := by
  induction l generalizing start with
  | nil => exact .inl h
  | cons item l ih =>
    rw [List.foldl_cons] at h
    rcases ih _ h with hstart | hmem
    · cases start with
      | none =>
        cases hstart
        exact .inr List.mem_cons_self
      | some current =>
        simp only at hstart
        split at hstart
        · cases hstart
          exact .inr List.mem_cons_self
        · exact .inl hstart
    · exact .inr (List.mem_cons_of_mem _ hmem)

/-- What is picked is of the name, the architecture and the vendor of the installed package. -/
theorem exactReplacementCandidate_eq_ok
    (h : exactReplacementCandidate pool selected operation = .ok s) :
    ∃ old, replacementTarget pool selected = .ok old ∧ s ∈ selected ∧ replaces operation old s = true := by
  obtain ⟨old, htarget, h⟩ := Except.bind_eq_ok.mp h
  rcases mem_of_foldl_better _ none (Except.okOr_eq_ok.mp h) with hno | hmem
  · cases hno
  · obtain ⟨hselected, hreplaces⟩ := List.mem_filter.mp hmem
    exact ⟨old, htarget, hselected, hreplaces⟩

end

/-! ## What is picked and what is preferred -/

open Solver (CandidatePackage LastOfTied PlacedBefore PlanBuilder SameVersion Tied candidateCmp)

/-- What libsolv takes for a requested name under `SOLVER_FLAG_STRICT_REPO_PRIORITY`: of the packages of
the best priority, one of the highest version. -/
structure LibsolvSelects (candidates : List CandidatePackage) (c : CandidatePackage) : Prop where
  mem : c ∈ candidates
  considered : c.excluded = false
  best : ∀ o ∈ candidates, o.name = c.name → o.excluded = false → c.priority ≤ o.priority
  highest : ∀ o ∈ candidates, o.name = c.name → o.excluded = false → o.priority = c.priority →
    o.evra.isStrictlyNewerThan c.evra = false

section
variable {b : PlanBuilder} {c o : CandidatePackage} {installed : Core.InstalledPackage}

theorem not_rejects_iff {package : Option Core.InstalledPackage} {vendor : Option String} :
    ¬ b.Rejects c package vendor ↔ b.Barred c ∨
      (∀ o ∈ b.contenders package vendor c.name, o.evra.isStrictlyNewerThan c.evra = false ∧
        ¬ (SameVersion o.evra c.evra ∧ PlacedBefore o c)) ∧
      LastOfTied (b.contenders package vendor c.name) c := by
  rw [PlanBuilder.rejects_iff, Solver.lastGreatest_iff, not_and_or, not_not, not_not]
  simp only [ne_eq, Solver.candidateCmp_eq_gt, not_or, Bool.not_eq_true]

/-- Only a package of a worse priority is newer than the one that libsolv takes. -/
theorem LibsolvSelects.newer_iff (h : LibsolvSelects b.candidates c)
    (ho : o ∈ b.contenders none none c.name) :
    o.evra.isStrictlyNewerThan c.evra = false ↔
      ¬ (c.priority < o.priority ∧ o.evra.isStrictlyNewerThan c.evra = true) := by
  obtain ⟨hmem, hcontends⟩ := List.mem_filter.mp ho
  have hnamed : o.name = c.name ∧ o.excluded = false := by
    simpa [PlanBuilder.contends] using hcontends
  have hbest := h.best o hmem hnamed.1 hnamed.2
  have hhighest := h.highest o hmem hnamed.1 hnamed.2
  rw [not_and, Bool.not_eq_true]
  refine ⟨fun hnot _ => hnot, fun hworse => ?_⟩
  rcases UInt32.lt_or_eq_of_le hbest with hlt | heq
  · exact hworse hlt
  · exact hhighest heq.symm

/-- What is picked for a reinstallation is of the version of the installed package. -/
theorem newer_iff_of_reinstall {old : Solvable}
    (hpicked : exactReplacementCandidate pool selected 4 = .ok s)
    (htarget : replacementTarget pool selected = .ok old) (hold : old.evra = installed.evra)
    (hs : s.evra = c.evra) (o : CandidatePackage) :
    (o.evra.isStrictlyNewerThan c.evra = o.evra.isStrictlyNewerThan installed.evra) ∧
      (SameVersion o.evra c.evra ↔ SameVersion o.evra installed.evra) := by
  obtain ⟨old', htarget', -, hreplaces⟩ := exactReplacementCandidate_eq_ok hpicked
  cases htarget.symm.trans htarget'
  have hsame : Evra.cmp c.evra installed.evra = .eq := by
    rw [← hs, ← hold]
    have h := hreplaces
    simp only [replaces, Bool.and_eq_true] at h
    simpa using h.2
  have hcmp : Evra.cmp o.evra c.evra = Evra.cmp o.evra installed.evra :=
    Std.TransCmp.congr_right hsame
  rw [Bool.eq_iff_iff, ← Evra.cmp_eq_gt, ← Evra.cmp_eq_gt, Solver.sameVersion_iff,
    Solver.sameVersion_iff, hcmp]
  exact ⟨Iff.rfl, Iff.rfl⟩

/-- The candidate of an installation by a name that libsolv takes is not rejected exactly when no package
of a worse priority is newer and the candidate comes first among those of its version; the candidate
picked for a reinstallation is not rejected exactly when its vendor reads as that of the installed
package, nothing of this identity is newer than the installed package and the candidate comes first among
those of its version. The order of the candidates is a total preorder, and the verdict does not depend on
the order of the list exactly when the greatest candidate is tied with no other one. -/
theorem preferred_agrees_iff (b : PlanBuilder) (c : CandidatePackage) :
    (LibsolvSelects b.candidates c →
      (¬ b.Rejects c none none ↔ b.Barred c ∨
        (∀ o ∈ b.contenders none none c.name,
          ¬ (c.priority < o.priority ∧ o.evra.isStrictlyNewerThan c.evra = true) ∧
          ¬ (SameVersion o.evra c.evra ∧ PlacedBefore o c)) ∧
        LastOfTied (b.contenders none none c.name) c)) ∧
    (∀ (pool selected : List Solvable) (s old : Solvable) (installed : Core.InstalledPackage),
      exactReplacementCandidate pool selected 4 = .ok s → replacementTarget pool selected = .ok old →
      old.evra = installed.evra → s.evra = c.evra →
      (¬ b.Rejects c (some installed) (some installed.vendor) ↔ b.Barred c ∨
        c.vendor = installed.vendor ∧
        (∀ o ∈ b.contenders (some installed) (some installed.vendor) c.name,
          o.evra.isStrictlyNewerThan installed.evra = false ∧
          ¬ (SameVersion o.evra installed.evra ∧ PlacedBefore o c)) ∧
        LastOfTied (b.contenders (some installed) (some installed.vendor) c.name) c)) ∧
    Std.TransCmp candidateCmp ∧
    ∀ (installed : Option Core.InstalledPackage) (vendor : Option String),
      (∀ l, l.Perm b.candidates →
        (({ b with candidates := l } : PlanBuilder).Rejects c installed vendor ↔
          b.Rejects c installed vendor)) ↔
      b.Barred c ∨ ¬ (c ∈ b.contenders installed vendor c.name ∧
        (∀ o ∈ b.contenders installed vendor c.name, candidateCmp o c ≠ .gt) ∧
        ∃ o ∈ b.contenders installed vendor c.name, o ≠ c ∧ Tied o c) := by
  refine ⟨fun h => ?_, fun pool selected s old installed hpicked htarget hold hs => ?_, inferInstance,
    fun installed vendor => PlanBuilder.rejects_perm_iff⟩
  · rw [not_rejects_iff]
    refine or_congr Iff.rfl (and_congr (forall₂_congr fun o ho => ?_) Iff.rfl)
    rw [h.newer_iff ho]
  · rw [not_rejects_iff]
    refine or_congr Iff.rfl ?_
    have hversion := newer_iff_of_reinstall hpicked htarget hold hs
    simp only [(hversion _).1, (hversion _).2]
    refine ⟨fun h => ⟨?_, h⟩, fun h => h.2⟩
    have hcontends := (List.mem_filter.mp h.2.mem).2
    simp only [PlanBuilder.contends, Bool.and_eq_true] at hcontends
    simpa using hcontends.2

end

/-! ### Two repositories with one name -/

/-- `app` in a repository of the priority. -/
def appOf (repoId : String) (priority : UInt32) (version : String) : CandidatePackage :=
  { Solver.candidateNamed "app" with
    evra := ⟨0, version, "1", .x86_64⟩
    repoId := repoId
    priority := priority }

/-- The repository of the best priority has the older version. -/
def mixedBuilder : PlanBuilder :=
  { Solver.installBuilder with candidates := [appOf "base" 10 "1", appOf "extra" 99 "2"] }

def solvableOf (id : Nat) (system : Bool) (c : CandidatePackage) : Solvable :=
  ⟨id, system, c.name, c.evra, some c.vendor, -(c.priority.toNat : Int), -(c.cost.toNat : Int)⟩

def mixedPool : List Solvable :=
  [solvableOf 2 true (appOf "system" 0 "1"), solvableOf 3 false (appOf "base" 10 "1"),
    solvableOf 4 false (appOf "extra" 99 "2")]

def appInstalled : Core.InstalledPackage where
  name := "app"
  evra := ⟨0, "1", "1", .x86_64⟩
  vendor := (Solver.candidateNamed "app").vendor
  dbInstance := 7
  installTime := 1
  immutableHeaderSha256 := Core.zeroDigest
  named := Core.app_ne_empty
  valid := Core.validate_first

theorem libsolvSelects_mixed : LibsolvSelects mixedBuilder.candidates (appOf "base" 10 "1") := by
  constructor <;> decide +kernel

theorem exactReplacementCandidate_mixed :
    exactReplacementCandidate mixedPool mixedPool 4 = .ok (solvableOf 3 false (appOf "base" 10 "1")) ∧
      replacementTarget mixedPool mixedPool = .ok (solvableOf 2 true (appOf "system" 0 "1")) := by
  simp only [← Except.toOption_eq_some]
  decide +kernel

theorem barred_mixed : ¬ mixedBuilder.Barred (appOf "base" 10 "1") := by
  unfold PlanBuilder.Barred
  decide +kernel

theorem preferred_agrees_iff_mixed :
    mixedBuilder.Rejects (appOf "base" 10 "1") none none ∧
      mixedBuilder.Rejects (appOf "base" 10 "1") (some appInstalled) (some appInstalled.vendor) := by
  obtain ⟨hinstall, hreinstall, -⟩ := preferred_agrees_iff mixedBuilder (appOf "base" 10 "1")
  have hold := hreinstall _ _ _ _ appInstalled exactReplacementCandidate_mixed.1
    exactReplacementCandidate_mixed.2 rfl rfl
  constructor
  · by_contra h
    rcases (hinstall libsolvSelects_mixed).mp h with hbarred | ⟨hno, -⟩
    · exact barred_mixed hbarred
    · exact (hno (appOf "extra" 99 "2") (by decide +kernel)).1 (by decide +kernel)
  · by_contra h
    rcases hold.mp h with hbarred | ⟨-, hno, -⟩
    · exact barred_mixed hbarred
    · exact absurd (hno (appOf "extra" 99 "2") (by decide +kernel)).1 (by decide +kernel)

theorem rejects_mixed {package : Option Core.InstalledPackage} {vendor : Option String}
    (hpreferred : mixedBuilder.preferred "app" package vendor ≠ some (appOf "base" 10 "1")) :
    mixedBuilder.Rejects (appOf "base" 10 "1") package vendor := by
  rw [PlanBuilder.rejects_iff]
  exact ⟨barred_mixed, fun h => hpreferred (Solver.maxBy_eq_some.mpr h)⟩

/-- With an older version in the repository of the best priority neither the installation that libsolv
chooses nor the reinstallation of the installed version passes. -/
theorem preferred_disagrees :
    ∃ (b : PlanBuilder) (c : CandidatePackage) (pool : List Solvable) (s old : Solvable)
      (installed : Core.InstalledPackage),
      LibsolvSelects b.candidates c ∧ b.Rejects c none none ∧
      exactReplacementCandidate pool pool 4 = .ok s ∧ replacementTarget pool pool = .ok old ∧
      old.evra = installed.evra ∧ s.evra = c.evra ∧ c.vendor = installed.vendor ∧
      b.Rejects c (some installed) (some installed.vendor) := by
  refine ⟨mixedBuilder, appOf "base" 10 "1", mixedPool, _, _, appInstalled, libsolvSelects_mixed,
    rejects_mixed (by decide +kernel), exactReplacementCandidate_mixed.1,
    exactReplacementCandidate_mixed.2, rfl, rfl, rfl, rejects_mixed (by decide +kernel)⟩

end Dnfast.Native
