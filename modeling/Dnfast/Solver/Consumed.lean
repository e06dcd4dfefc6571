import Dnfast.Core.PlanAgreement
import Dnfast.Solver.Answer
import Dnfast.Solver.Coverage
import Dnfast.Solver.Pairing

/-! # The installed packages that a plan consumes

The rows of the native answer name installed packages by NEVRA texts, the plan names them by their
instances. `consumes_iff` says when the plan is right about them: exactly when the text that
`nevra_name` takes for the name of a package has the same part of the EVRA in it on both sides of a
replacement (`evraInName`; there is none in it unless a version or release has a `-`). -/

namespace Dnfast.Solver

open Dnfast.Core (Evra InstalledInventory InstalledPackage PackageAction PlanEnvelope)

/-! ## Names and NEVRA texts -/

/-- What stands behind the name in a NEVRA text. -/
def evraText (e : Evra) : List Char :=
  '-' :: (e.epoch.toNat.repr.toList ++ ':' :: e.version.toList ++ '-' :: (e.release.toList ++
    '.' :: e.arch.asRpmArch.toList))

/-- The part of the EVRA that `nevra_name` leaves with the name. -/
def evraInName (e : Evra) : List Char :=
  (((evraText e).rsplitOnce '-').bind fun split => split.1.rsplitOnce '-').elim [] Prod.fst

theorem nevraText_toList (name : String) (e : Evra) :
    (nevraText name e.epoch.toNat.repr e.version e.release e.arch.asRpmArch).toList =
      name.toList ++ evraText e := by
  simp [nevraText, evraText, String.toList_append]

/-- The EVRA has the two dashes that `nevra_name` looks for. -/
theorem evraText_splits (e : Evra) : ∃ left right rest,
    (evraText e).rsplitOnce '-' = some (left, right) ∧
      left.rsplitOnce '-' = some (evraInName e, rest) := by
  have hmem : '-' ∈ (e.epoch.toNat.repr.toList ++ ':' :: e.version.toList ++ '-' ::
      (e.release.toList ++ '.' :: e.arch.asRpmArch.toList)) := by simp
  obtain ⟨⟨left, right⟩, hsplit⟩ : ∃ split, (e.epoch.toNat.repr.toList ++ ':' ::
      e.version.toList ++ '-' :: (e.release.toList ++ '.' :: e.arch.asRpmArch.toList)).rsplitOnce
      '-' = some split := by
    rw [← Option.ne_none_iff_exists']
    exact fun hnone => List.rsplitOnce_eq_none.mp hnone hmem
  have hfirst : (evraText e).rsplitOnce '-' = some ('-' :: left, right) :=
    List.rsplitOnce_append ['-'] hsplit
  obtain ⟨⟨name, rest⟩, hsecond⟩ : ∃ split, ('-' :: left).rsplitOnce '-' = some split := by
    rw [← Option.ne_none_iff_exists']
    exact fun hnone => List.rsplitOnce_eq_none.mp hnone List.mem_cons_self
  refine ⟨'-' :: left, right, rest, hfirst, ?_⟩
  rw [hsecond, evraInName, hfirst, Option.bind_some, hsecond]
  rfl

/-- Nothing of an EVRA without dashes is left with the name. -/
theorem evraInName_eq_nil {e : Evra} (hversion : '-' ∉ e.version.toList)
    (hrelease : '-' ∉ e.release.toList) : evraInName e = [] := by
  have hepoch : '-' ∉ e.epoch.toNat.repr.toList := by
    intro hmem
    have hdigit : Char.isDigit '-' = true := by
      rw [Nat.repr, String.toList_ofList] at hmem
      exact Nat.isDigit_of_mem_toDigits (by decide) (by decide) hmem
    cases hdigit
  have harch : '-' ∉ e.arch.asRpmArch.toList := by cases e.arch <;> decide
  have hfirst : (evraText e).rsplitOnce '-' = some ('-' :: (e.epoch.toNat.repr.toList ++ ':' ::
      e.version.toList), e.release.toList ++ '.' :: e.arch.asRpmArch.toList) := by
    have hlast : '-' ∉ e.release.toList ++ '.' :: e.arch.asRpmArch.toList := by
      simp [hrelease, harch]
    simpa [evraText] using @List.rsplitOnce_of_notMem _ _ '-'
      ('-' :: (e.epoch.toNat.repr.toList ++ ':' :: e.version.toList)) _ hlast
  have hsecond : ('-' :: (e.epoch.toNat.repr.toList ++ ':' :: e.version.toList)).rsplitOnce '-' =
      some ([], e.epoch.toNat.repr.toList ++ ':' :: e.version.toList) := by
    apply @List.rsplitOnce_of_notMem _ _ '-' []
    simp only [List.mem_append, List.mem_cons, not_or]
    exact ⟨hepoch, by decide, hversion⟩
  rw [evraInName, hfirst, Option.bind_some, hsecond]
  rfl

theorem nevraName_nevraText (name : String) (e : Evra) :
    nevraName (nevraText name e.epoch.toNat.repr e.version e.release e.arch.asRpmArch) =
      .ok (String.ofList (name.toList ++ evraInName e)) := by
  obtain ⟨left, right, rest, hfirst, hsecond⟩ := evraText_splits e
  rw [nevraName, nevraText_toList, List.rsplitOnce_append _ hfirst]
  simp only [Option.bind_eq_bind, Option.bind_some, List.rsplitOnce_append _ hsecond]
  rfl

/-- Packages with the same text for their name have the same name exactly when the parts of their
EVRA in that text are the same. -/
theorem name_eq_iff {c : CandidatePackage} {p : InstalledPackage}
    (h : nevraName (fullNevra c) = nevraName (installedNevra p)) :
    c.name = p.name ↔ evraInName c.evra = evraInName p.evra := by
  rw [fullNevra, installedNevra, nevraName_nevraText, nevraName_nevraText, Except.ok.injEq] at h
  have htext : c.name.toList ++ evraInName c.evra = p.name.toList ++ evraInName p.evra := by
    simpa using congrArg String.toList h
  constructor
  · intro hname
    rw [hname] at htext
    exact List.append_cancel_left htext
  · intro hevra
    rw [hevra] at htext
    exact String.toList_injective (List.append_cancel_right htext)

/-! ## What a plan says about installed packages -/

/-- What an action of a plan says about the package it consumes. -/
structure Taken where
  name : String
  evra : Option Evra
  vendor : Option String
  dbInstance : Option UInt64
  header : Option String

def ExplainedAction.taken (a : ExplainedAction) : Taken :=
  ⟨a.name, a.installedEvra, a.installedVendor, a.installedInstance, a.installedHeaderSha256⟩

/-- The same of an action of the proposal. -/
def proposalTaken (a : PackageAction) : Taken :=
  ⟨a.name, a.installedEvra, a.installedVendor, a.installedInstance,
    a.installedHeaderSha256.map (·.asStr)⟩

/-- It says of the package what the inventory has. -/
def Taken.Agrees (t : Taken) (p : InstalledPackage) : Prop :=
  t = ⟨p.name, some p.evra, some p.vendor, some p.dbInstance, some p.immutableHeaderSha256.asStr⟩

/-- A row of the native answer, without its selector. -/
structure Step where
  nevra : String
  repository : String
  kind : String
  counterpart : Option String

def SolveResult.steps (result : SolveResult) : List Step :=
  result.rows.map fun row => ⟨row.1.1.1.1.1, row.1.1.1.1.2, row.1.1.1.2, row.1.1.2⟩

/-- The kinds that the native transaction reports installed packages with. -/
def consumedKinds : List String := ["erase", "obsoleted"] ++ replacedKinds

/-- What is said about the installed packages is right and complete. -/
structure Consumes (inventory : InstalledInventory) (steps : List Step) (taken : List Taken) :
    Prop where
  /-- An action with an instance names one package of the inventory, and agrees with it. -/
  named : ∀ t ∈ taken, t.dbInstance.isSome → ∃! p, p ∈ inventory.packages ∧ t.Agrees p
  once : (taken.filterMap (·.dbInstance)).Nodup
  /-- An installed package that was reported is consumed by one action. -/
  complete : ∀ step ∈ steps, step.repository = systemRepository → step.kind ∈ consumedKinds →
    ∃ p ∈ inventory.packages, installedNevra p = step.nevra ∧
      (taken.filterMap (·.dbInstance)).count p.dbInstance = 1

theorem Consumes.of_perm {inventory : InstalledInventory} {steps : List Step}
    {taken taken' : List Taken} (hperm : taken.Perm taken') (h : Consumes inventory steps taken) :
    Consumes inventory steps taken' where
  named t ht := h.named t (hperm.mem_iff.mpr ht)
  once := (hperm.filterMap _).nodup_iff.mp h.once
  complete step hstep hsystem hkind := by
    obtain ⟨p, hp, hnevra, hcount⟩ := h.complete step hstep hsystem hkind
    refine ⟨p, hp, hnevra, ?_⟩
    rw [← (hperm.filterMap _).count_eq]
    exact hcount

/-! ## From the rows to the plan -/

/-- What becomes of a paired row: nothing is consumed, the candidate replaces the package that the
row has, or that package is removed. -/
inductive Outcome (candidates : List CandidatePackage) (inventory : InstalledInventory)
    (a : NativeAction) (t : Taken) : Prop where
  | installed (kind : a.kind = "install" ∨ a.kind = "obsoletes") (none : t.dbInstance = none)
  | replaced (kind : a.kind ∈ replacingKinds) (c : CandidatePackage) (p : InstalledPackage)
      (found : findCandidate candidates a.repository a.nevra = some c)
      (exact : exactInstalled a inventory = .ok p)
      (taken : t = ⟨c.name, some p.evra, some p.vendor, some p.dbInstance,
        some p.immutableHeaderSha256.asStr⟩)
  | removed (kind : a.kind = "erase" ∨ a.kind = "obsoleted") (p : InstalledPackage)
      (exact : exactInstalled a inventory = .ok p) (taken : t.Agrees p)

section
variable {inventory : InstalledInventory} {a : NativeAction} {p : InstalledPackage}

/-- The package that a row has: of the row's instance and NEVRA. -/
theorem exactInstalled_eq_ok (h : exactInstalled a inventory = .ok p) :
    p ∈ inventory.packages ∧ a.installedInstance = some p.dbInstance ∧
      installedNevra p = a.oldNevra.getD a.nevra := by
  rw [exactInstalled, Except.bind_eq_ok] at h
  obtain ⟨dbInstance, hinstance, h⟩ := h
  obtain ⟨header, hheader, h⟩ := Except.bind_eq_ok.mp h
  obtain ⟨item, hitem, h⟩ := Except.bind_eq_ok.mp h
  rw [Except.check_bind_eq_ok, Except.refuseIf_eq_ok, not_not, Except.pure_eq_ok] at h
  obtain ⟨hnevra, rfl⟩ := h
  obtain ⟨hmem, hid, -⟩ := 
    InstalledInventory.eraseTarget_eq_ok (Except.mapError_eq_ok.mp hitem)
  rw [Except.okOr_eq_ok] at hinstance
  exact ⟨hmem, hid ▸ hinstance, hnevra⟩

/-- The identity of a resolved action, by the kind of the row. -/
def ResolvedFrom (candidates : List CandidatePackage) (inventory : InstalledInventory)
    (a : NativeAction) (identity : ResolvedIdentity) : Prop :=
  ((a.kind = "install" ∨ a.kind = "obsoletes") ∧
      identity = ⟨.install, identity.name, none, none, none⟩) ∨
    (a.kind ∈ replacingKinds ∧ identity.operation ≠ .install ∧ identity.operation ≠ .remove ∧
      ∃ c p, findCandidate candidates a.repository a.nevra = some c ∧
      exactInstalled a inventory = .ok p ∧
      identity = .consuming identity.operation c.name p) ∨
    ((a.kind = "erase" ∨ a.kind = "obsoleted") ∧ ∃ p, exactInstalled a inventory = .ok p ∧
      identity = .consuming .remove p.name p)

theorem replacementIdentity_eq_ok {operation : ResolvedOperation} {missing : String}
    {candidates : List CandidatePackage} {identity : ResolvedIdentity}
    (hkind : a.kind ∈ replacingKinds) (hoperation : operation ≠ .install ∧ operation ≠ .remove)
    (h : replacementIdentity operation missing a (findCandidate candidates a.repository a.nevra)
      inventory = .ok identity) : ResolvedFrom candidates inventory a identity := by
  rw [replacementIdentity, Except.bind_eq_ok] at h
  obtain ⟨c, hc, h⟩ := h
  obtain ⟨p, hp, h⟩ := Except.bind_eq_ok.mp h
  obtain rfl := Except.pure_eq_ok.mp h
  exact .inr (.inl ⟨hkind, hoperation.1, hoperation.2, c, p, Except.okOr_eq_ok.mp hc, hp, rfl⟩)

theorem nativeActionIdentity_eq_ok {candidates : List CandidatePackage} {identity : ResolvedIdentity}
    (h : nativeActionIdentity a (findCandidate candidates a.repository a.nevra) inventory =
      .ok identity) : ResolvedFrom candidates inventory a identity := by
  unfold nativeActionIdentity at h
  split at h
  · next hkind =>
    obtain ⟨c, -, h⟩ := Except.bind_eq_ok.mp h
    obtain rfl := Except.pure_eq_ok.mp h
    exact .inl ⟨hkind, rfl⟩
  · split at h
    · next hkind => exact replacementIdentity_eq_ok (by rw [hkind]; decide) (by decide) h
    · split at h
      · next hkind => exact replacementIdentity_eq_ok (by rw [hkind]; decide) (by decide) h
      · split at h
        · next hkind =>
          refine replacementIdentity_eq_ok ?_ (by decide) h
          rcases hkind with hkind | hkind <;> rw [hkind] <;> decide
        · split at h
          · next hkind =>
            obtain ⟨p, hp, h⟩ := Except.bind_eq_ok.mp h
            obtain rfl := Except.pure_eq_ok.mp h
            exact .inr (.inr ⟨hkind, p, hp, rfl⟩)
          · cases h

/-- The builder finds the package again by its instance. -/
theorem installedOf_eq_ok {b : PlanBuilder} {resolved : ResolvedAction}
    {installed : Option InstalledPackage} (hp : p ∈ b.inventory.packages)
    (hinstance : resolved.installedInstance = some p.dbInstance)
    (h : b.installedOf resolved = .ok installed) : installed = some p := by
  rw [PlanBuilder.installedOf, hinstance] at h
  obtain ⟨q, hq, rfl⟩ := Except.map_eq_ok.mp h
  rw [Except.okOr_eq_ok] at hq
  have hid : q.dbInstance = p.dbInstance := by simpa using List.find?_some hq
  rw [InstalledInventory.eq_of_dbInstance (List.mem_of_find?_eq_some hq) hp hid]

/-- The row of a resolved action that was explained, and that an installation consumes nothing. -/
theorem outcome_of_resolveAction {output : NativeSolveOutput} {candidates : List CandidatePackage}
    {noneExpected : Bool} {b : PlanBuilder} {resolved : ResolvedAction} {explained : ExplainedAction}
    (h : output.resolveAction candidates b.inventory noneExpected a = .ok resolved)
    (hexplains : Explains b resolved explained) :
    Outcome candidates b.inventory a explained.taken ∧
      (resolved.operation = .install →
        explained.taken = ⟨explained.name, none, none, none, none⟩) := by
  rw [NativeSolveOutput.resolveAction, Except.bind_eq_ok] at h
  obtain ⟨identity, hidentity, h⟩ := h
  obtain ⟨edges, -, h⟩ := Except.bind_eq_ok.mp h
  obtain rfl := Except.pure_eq_ok.mp h
  obtain ⟨installed, hinstalled, hevra, hinstance, hheader, -⟩ := hexplains.installed
  have htaken : explained.taken = ⟨explained.name, installed.map (·.evra), identity.vendor,
      installed.map (·.dbInstance), installed.map (·.immutableHeaderSha256.asStr)⟩ := by
    rw [ExplainedAction.taken, hexplains.vendor, hevra, hinstance, hheader]
  have hname : explained.name = identity.name := hexplains.name
  rcases nativeActionIdentity_eq_ok hidentity with ⟨hkind, hnone⟩ |
    ⟨hkind, hoperation, -, c, p, hfound, hexact, hsame⟩ | ⟨hkind, p, hexact, hsame⟩
  · rw [PlanBuilder.installedOf, show identity.dbInstance = none by rw [hnone]] at hinstalled
    cases hinstalled
    rw [show identity.vendor = none by rw [hnone]] at htaken
    exact ⟨.installed hkind (by rw [htaken]; rfl), fun _ => htaken⟩
  · have hp := (exactInstalled_eq_ok hexact).1
    rw [installedOf_eq_ok hp (by rw [hsame]; rfl) hinstalled, hname, hsame] at htaken
    exact ⟨.replaced hkind c p hfound hexact htaken, fun h => absurd h hoperation⟩
  · have hp := (exactInstalled_eq_ok hexact).1
    rw [installedOf_eq_ok hp (by rw [hsame]; rfl) hinstalled, hname, hsame] at htaken
    refine ⟨.removed hkind p hexact htaken, fun h => ?_⟩
    rw [hsame] at h
    cases h

end

/-! ## The rows as they were reported -/

def NativeAction.step (a : NativeAction) : Step :=
  ⟨a.nevra, a.repository, a.kind, a.transactionCounterpartNevra⟩

/-- A row that `pair_actions` takes for the old side of a replacing row. -/
def Step.OldSide (new old : Step) : Prop :=
  ∃ oldKind ∈ replacedKinds, oldKindOf new.kind = some oldKind ∧ old.kind = oldKind ∧
    old.repository = systemRepository ∧
    (old.counterpart = some new.nevra ∨ new.counterpart = some old.nevra) ∧
    nevraName old.nevra = nevraName new.nevra

theorem steps_eq {result : SolveResult} {raw : List NativeAction}
    (h : List.Forall₂ (fun row a => rowAction row = .ok a) result.rows raw) :
    raw.map NativeAction.step = result.steps := by
  refine (h.map_eq fun row _ a _ hrow => ?_).symm
  obtain ⟨⟨⟨⟨⟨nevra, repository⟩, kind⟩, counterpart⟩, spec⟩, relation⟩ := row
  obtain ⟨requestedSpec, -, hpure⟩ := Except.bind_eq_ok.mp hrow
  rw [← Except.pure_eq_ok.mp hpure]
  rfl

section
variable {inventory : InstalledInventory}

theorem uniqueInstalled_eq_ok {nevra : String} {p : InstalledPackage}
    (h : uniqueInstalled nevra inventory = .ok p) :
    p ∈ inventory.packages ∧ installedNevra p = nevra ∧
      ∀ q ∈ inventory.packages, installedNevra q = nevra → q = p := by
  unfold uniqueInstalled at h
  split at h
  · cases h
  · next q hfilter =>
    cases h
    have hmem (q : InstalledPackage) :
        q ∈ inventory.packages ∧ installedNevra q = nevra ↔ q = p := by
      rw [show q = p ↔ q ∈ [p] from List.mem_singleton.symm, ← hfilter, List.mem_filter,
        decide_eq_true_eq]
    exact ⟨((hmem p).mpr rfl).1, ((hmem p).mpr rfl).2, fun q hq hnevra => (hmem q).mp ⟨hq, hnevra⟩⟩
  · cases h

/-- What the first loop adds to a row. -/
structure Bound (inventory : InstalledInventory) (a b : NativeAction) : Prop where
  step : b.step = a.step
  spec : b.requestedSpec = a.requestedSpec
  provenance : b.provenance = a.provenance
  installed : b.repository = systemRepository → b.oldNevra = some b.nevra ∧
    ∃ p, uniqueInstalled b.nevra inventory = .ok p ∧ b.installedInstance = some p.dbInstance
  other : b.repository ≠ systemRepository → b.installedInstance = a.installedInstance

theorem bindInstalled_eq_ok {a b : NativeAction} (h : bindInstalled inventory a = .ok b) :
    Bound inventory a b := by
  unfold bindInstalled at h
  split at h
  · next hrepository =>
    obtain ⟨p, hp, hpure⟩ := Except.bind_eq_ok.mp h
    rw [← Except.pure_eq_ok.mp hpure]
    exact ⟨rfl, rfl, rfl, fun _ => ⟨rfl, p, hp, rfl⟩, fun hother => absurd hrepository hother⟩
  · next hrepository =>
    cases h
    exact ⟨rfl, rfl, rfl, fun hsystem => absurd hsystem hrepository, fun _ => rfl⟩

end

/-! ## Tracing the packages -/

/-- How the rows of an answer came into the plan. -/
structure Traced (steps : List Step) (candidates : List CandidatePackage)
    (inventory : InstalledInventory) (bound : List NativeAction) (s : Pairing) (taken : List Taken) :
    Prop where
  steps : bound.map NativeAction.step = steps
  installed : ∀ b ∈ bound, b.repository = systemRepository → b.oldNevra = some b.nevra ∧
    ∃ p, uniqueInstalled b.nevra inventory = .ok p ∧ b.installedInstance = some p.dbInstance
  paired : PairedUpTo bound bound.length s
  complete : ∀ j row, s.rows[j]? = some row → row.kind ∈ replacedKinds → j ∈ s.paired
  outcomes : List.Forall₂ (Outcome candidates inventory) (s.rows.filter (·.kind ∉ replacedKinds))
    taken
  names : (taken.map (·.name)).Nodup

section
variable {steps : List Step} {candidates : List CandidatePackage} {inventory : InstalledInventory}
  {bound : List NativeAction} {s : Pairing} {taken : List Taken}

theorem Replaces.unique {i j j' : Nat} (h : Replaces bound i j) (h' : Replaces bound i j') :
    j = j' := by
  obtain ⟨new, oldKind, name, hnew, hkind, -, hname, hfound⟩ := h.found
  obtain ⟨new', oldKind', name', hnew', hkind', -, hname', hfound'⟩ := h'.found
  obtain rfl : new = new' := Option.some_injective _ (hnew.symm.trans hnew')
  obtain rfl : oldKind = oldKind' := Option.some_injective _ (hkind.symm.trans hkind')
  obtain rfl : name = name' := Except.ok.inj (hname.symm.trans hname')
  exact List.singleton_inj.mp (hfound.symm.trans hfound')

/-- The old row of a replacing one is one of its old sides. -/
theorem Replaces.oldSide {i j : Nat} (h : Replaces bound i j) : ∃ new old, bound[i]? = some new ∧
    bound[j]? = some old ∧ new.kind ∈ replacingKinds ∧ new.step.OldSide old.step := by
  obtain ⟨new, oldKind, name, hnew, hkindOf, hreplaced, hname, hfound⟩ := h.found
  obtain ⟨old, hold, hside⟩ := mem_matchesOf.mp (hfound ▸ List.mem_singleton_self j)
  have hne : oldKind ≠ "obsoleted" := by
    rintro rfl
    exact absurd hreplaced (by decide)
  have hnewKind : new.kind ∈ replacingKinds := by
    rcases oldKindOf_cases hkindOf with ⟨hkind, -⟩ | ⟨-, heq⟩
    · exact hkind
    · exact absurd heq hne
  simp only [isOldSide, Bool.and_eq_true, Bool.or_eq_true, decide_eq_true_eq] at hside
  obtain ⟨⟨⟨hkind, hsystem⟩, hcounterpart⟩, hnames⟩ := hside
  refine ⟨new, old, hnew, hold, hnewKind, oldKind, hreplaced, hkindOf, hkind, hsystem, hcounterpart,
    ?_⟩
  rw [show nevraName new.step.nevra = .ok name from hname]
  exact hnames.resolve_left hne

/-- A row that is an old side of a replacing one is its old row. -/
theorem Replaces.of_oldSide {i j k : Nat} {new old : NativeAction} (h : Replaces bound i j)
    (hnew : bound[i]? = some new) (hold : bound[k]? = some old) (hside : new.step.OldSide old.step) :
    k = j := by
  obtain ⟨new', oldKind, name, hnew', hkindOf, -, hname, hfound⟩ := h.found
  obtain rfl : new = new' := Option.some_injective _ (hnew.symm.trans hnew')
  obtain ⟨oldKind', -, hkindOf', hkind, hsystem, hcounterpart, hnames⟩ := hside
  obtain rfl : oldKind = oldKind' := Option.some_injective _ (hkindOf.symm.trans hkindOf')
  have hmem : k ∈ matchesOf bound new oldKind name := by
    refine mem_matchesOf.mpr ⟨old, hold, ?_⟩
    simp only [isOldSide, Bool.and_eq_true, Bool.or_eq_true, decide_eq_true_eq]
    exact ⟨⟨⟨hkind, hsystem⟩, hcounterpart⟩, .inr (hnames.trans hname)⟩
  rw [hfound] at hmem
  exact List.mem_singleton.mp hmem

namespace Traced

variable (h : Traced steps candidates inventory bound s taken)

include h

/-- The row at the place of a bound one. -/
theorem row_of_bound {i : Nat} {before : NativeAction} (hbefore : bound[i]? = some before) :
    ∃ row, s.rows[i]? = some row ∧ Marked before row := by
  have hi : i < s.rows.length := by
    rw [h.paired.length]
    exact (List.getElem?_eq_some_iff.mp hbefore).1
  have hrow : s.rows[i]? = some s.rows[i] := List.getElem?_eq_getElem hi
  exact ⟨s.rows[i], hrow, h.paired.marked i before _ hbefore hrow⟩

theorem outcome_of_row {i : Nat} {row : NativeAction} (hrow : s.rows[i]? = some row)
    (hkind : row.kind ∉ replacedKinds) : ∃ t ∈ taken, Outcome candidates inventory row t := by
  refine h.outcomes.exists_right (List.mem_filter.mpr ⟨List.mem_of_getElem? hrow, ?_⟩)
  exact decide_eq_true hkind

/-- A replacing row has the package of its old row. -/
theorem replacing {i : Nat} {row : NativeAction} (hrow : s.rows[i]? = some row)
    (hkind : row.kind ∈ replacingKinds) :
    ∃ j new old, Replaces bound i j ∧ bound[i]? = some new ∧ bound[j]? = some old ∧ Marked new row ∧
      row.oldNevra = some old.nevra ∧ row.installedInstance = old.installedInstance := by
  have hi : i < bound.length := by
    rw [← h.paired.length]
    exact (List.getElem?_eq_some_iff.mp hrow).1
  have hnew : bound[i]? = some bound[i] := List.getElem?_eq_getElem hi
  have hmarked := h.paired.marked i _ row hnew hrow
  have hkind' : bound[i].kind ∈ replacingKinds := by
    rcases hmarked.kind with hsame | ⟨-, herase⟩
    · rwa [← hsame]
    · exact absurd herase (replacing_not_replaced hkind).2.2
  obtain ⟨j, old, hreplaces, hold, holdNevra, hinstance, -⟩ :=
    h.paired.taken i _ row hnew hrow hkind' hi
  exact ⟨j, bound[i], old, hreplaces, hnew, hold, hmarked, holdNevra, hinstance⟩

/-- The replacing row makes an action that consumes the package of its old row. -/
theorem replaces {i j : Nat} (hreplaces : Replaces bound i j) :
    ∃ new old c p t, bound[i]? = some new ∧ bound[j]? = some old ∧ p ∈ inventory.packages ∧
      old.installedInstance = some p.dbInstance ∧
      findCandidate candidates new.repository new.nevra = some c ∧ t ∈ taken ∧
      t = ⟨c.name, some p.evra, some p.vendor, some p.dbInstance,
        some p.immutableHeaderSha256.asStr⟩ := by
  obtain ⟨new, -, hnew, -, hkind, -⟩ := hreplaces.oldSide
  obtain ⟨row, hrow, hmarked⟩ := h.row_of_bound hnew
  have hrowKind : row.kind ∈ replacingKinds := by
    rcases hmarked.kind with hsame | ⟨hobsoleted, -⟩
    · rwa [hsame]
    · exact absurd hobsoleted (replacing_not_replaced hkind).2.1
  obtain ⟨j', new', old, hreplaces', hnew', hold, -, -, hinstance⟩ := h.replacing hrow hrowKind
  obtain rfl := hreplaces.unique hreplaces'
  obtain ⟨t, ht, houtcome⟩ := h.outcome_of_row hrow (replacing_not_replaced hrowKind).1
  cases houtcome with
  | installed hinstall =>
    rcases hinstall with hinstall | hinstall <;> rw [hinstall] at hrowKind <;>
      exact absurd hrowKind (by decide)
  | replaced _ c p hfound hexact htaken =>
    obtain ⟨hp, hid, -⟩ := exactInstalled_eq_ok hexact
    rw [hmarked.repository, hmarked.nevra] at hfound
    exact ⟨new, old, c, p, t, hnew, hold, hp, hinstance.symm.trans hid, hfound, ht, htaken⟩
  | removed hremove =>
    rcases hremove with hremove | hremove
    · exact absurd hremove (replacing_not_replaced hrowKind).2.2
    · exact absurd hremove (replacing_not_replaced hrowKind).2.1

/-- An erased or obsoleted row makes an action that consumes its package. -/
theorem erased {j : Nat} {old : NativeAction} (hold : bound[j]? = some old)
    (hkind : old.kind = "erase" ∨ old.kind = "obsoleted") :
    ∃ p ∈ inventory.packages, old.installedInstance = some p.dbInstance ∧
      ∃ t ∈ taken, t.Agrees p := by
  obtain ⟨row, hrow, hmarked⟩ := h.row_of_bound hold
  have hrowKind : row.kind = "erase" ∨ row.kind = "obsoleted" := by
    rcases hmarked.kind with hsame | ⟨-, herase⟩
    · rwa [hsame]
    · exact .inl herase
  have hnotReplaced : row.kind ∉ replacedKinds ∧ row.kind ∉ replacingKinds ∧
      ¬ (row.kind = "install" ∨ row.kind = "obsoletes") := by
    rcases hrowKind with hkind | hkind <;> rw [hkind] <;> decide
  have hown : SameInstalled old row := by
    refine h.paired.own j old row hold hrow fun hreplacing => ?_
    rcases hkind with hkind | hkind
    · exact absurd hkind (replacing_not_replaced hreplacing).2.2
    · exact absurd hkind (replacing_not_replaced hreplacing).2.1
  obtain ⟨t, ht, houtcome⟩ := h.outcome_of_row hrow hnotReplaced.1
  cases houtcome with
  | installed hinstall => exact absurd hinstall hnotReplaced.2.2
  | replaced hreplacing => exact absurd hreplacing hnotReplaced.2.1
  | removed _ p hexact htaken =>
    obtain ⟨hp, hid, -⟩ := exactInstalled_eq_ok hexact
    exact ⟨p, hp, hown.dbInstance.symm.trans hid, t, ht, htaken⟩

/-- A package that the answer reported is consumed. -/
theorem consumed {step : Step} (hstep : step ∈ steps) (hsystem : step.repository = systemRepository)
    (hkind : step.kind ∈ consumedKinds) :
    ∃ p ∈ inventory.packages, installedNevra p = step.nevra ∧
      ∃ t ∈ taken, t.dbInstance = some p.dbInstance := by
  rw [← h.steps] at hstep
  obtain ⟨old, hmem, rfl⟩ := List.mem_map.mp hstep
  obtain ⟨j, hold⟩ := List.mem_iff_getElem?.mp hmem
  obtain ⟨-, q, hunique, hid⟩ := h.installed old hmem hsystem
  obtain ⟨hq, hnevra, -⟩ := uniqueInstalled_eq_ok hunique
  refine ⟨q, hq, hnevra, ?_⟩
  rcases List.mem_append.mp hkind with herased | hreplaced
  · obtain ⟨p, hp, hid', t, ht, htaken⟩ := h.erased hold (by simpa [NativeAction.step] using herased)
    refine ⟨t, ht, ?_⟩
    rw [htaken, ← hid', hid]
  · obtain ⟨row, hrow, hmarked⟩ := h.row_of_bound hold
    have hrowKind : row.kind ∈ replacedKinds := by
      rcases hmarked.kind with hsame | ⟨hobsoleted, -⟩
      · rwa [hsame]
      · rw [show old.step.kind = _ from hobsoleted] at hreplaced
        exact absurd hreplaced (by decide)
    obtain ⟨i, -, hreplaces⟩ := h.paired.paired j (h.complete j row hrow hrowKind) old hold hreplaced
    obtain ⟨-, old', c, p, t, -, hold', -, hid', -, ht, htaken⟩ := h.replaces hreplaces
    obtain rfl : old = old' := Option.some_injective _ (hold.symm.trans hold')
    refine ⟨t, ht, ?_⟩
    rw [htaken, ← hid', hid]

end Traced

/-! ## When the plan is right -/

/-- The two sides of a replacement have the same part of their EVRA in the text that is taken for
the name. -/
def SameInName (candidates : List CandidatePackage) (inventory : InstalledInventory)
    (steps : List Step) : Prop :=
  ∀ new ∈ steps, ∀ old ∈ steps, new.OldSide old → ∀ c p,
    findCandidate candidates new.repository new.nevra = some c → p ∈ inventory.packages →
    installedNevra p = old.nevra → evraInName c.evra = evraInName p.evra

/-- It is so when no version and no release has a dash. -/
theorem sameInName_of_noDash
    (hcandidates : ∀ c ∈ candidates, '-' ∉ c.evra.version.toList ∧ '-' ∉ c.evra.release.toList)
    (hinstalled : ∀ p ∈ inventory.packages,
      '-' ∉ p.evra.version.toList ∧ '-' ∉ p.evra.release.toList) :
    SameInName candidates inventory steps := by
  intro new _ old _ _ c p hfound hp _
  obtain ⟨c', hc, heq⟩ := List.mem_map.mp (mem_of_collected hfound)
  obtain rfl : c' = c := (Prod.mk.inj heq).2
  rw [evraInName_eq_nil (hcandidates c' hc).1 (hcandidates c' hc).2,
    evraInName_eq_nil (hinstalled p hp).1 (hinstalled p hp).2]

theorem fullNevra_of_findCandidate {repository nevra : String} {c : CandidatePackage}
    (h : findCandidate candidates repository nevra = some c) : fullNevra c = nevra := by
  obtain ⟨c', -, heq⟩ := List.mem_map.mp (mem_of_collected h)
  simp only [Prod.mk.injEq] at heq
  obtain ⟨⟨-, hnevra⟩, rfl⟩ := heq
  exact hnevra

namespace Traced

variable (h : Traced steps candidates inventory bound s taken)

include h

/-- Every action that consumes a package agrees with it, when the names are right. -/
theorem agrees (hsame : SameInName candidates inventory steps) {t : Taken} (ht : t ∈ taken) :
    t.dbInstance = none ∨ ∃ p ∈ inventory.packages, t.Agrees p := by
  obtain ⟨row, hrow, houtcome⟩ := h.outcomes.exists_left ht
  obtain ⟨i, hrow⟩ := List.mem_iff_getElem?.mp (List.mem_filter.mp hrow).1
  cases houtcome with
  | installed _ hnone => exact .inl hnone
  | removed _ p hexact htaken => exact .inr ⟨p, (exactInstalled_eq_ok hexact).1, htaken⟩
  | replaced hkind c p hfound hexact htaken =>
    obtain ⟨hp, -, hnevra⟩ := exactInstalled_eq_ok hexact
    obtain ⟨j, new, old, hreplaces, hnew, hold, hmarked, holdNevra, -⟩ := h.replacing hrow hkind
    rw [holdNevra, Option.getD_some] at hnevra
    rw [hmarked.repository, hmarked.nevra] at hfound
    obtain ⟨new', old', hnew', hold', -, hside⟩ := hreplaces.oldSide
    obtain rfl : new = new' := Option.some_injective _ (hnew.symm.trans hnew')
    obtain rfl : old = old' := Option.some_injective _ (hold.symm.trans hold')
    have hmem {k : Nat} {b : NativeAction} (hb : bound[k]? = some b) : b.step ∈ steps := by
      rw [← h.steps]
      exact List.mem_map_of_mem (List.mem_of_getElem? hb)
    have hevra := hsame _ (hmem hnew) _ (hmem hold) hside c p hfound hp hnevra
    obtain ⟨-, -, -, -, -, -, hnames⟩ := hside
    have hname : c.name = p.name := by
      refine (name_eq_iff ?_).mpr hevra
      rw [fullNevra_of_findCandidate hfound, hnevra]
      exact hnames.symm
    exact .inr ⟨p, hp, by rw [Taken.Agrees, htaken, hname]⟩

/-- A package is consumed once when the names are right, since they are distinct. -/
theorem once (hsame : SameInName candidates inventory steps) :
    (taken.filterMap (·.dbInstance)).Nodup := by
  rw [List.Nodup, List.pairwise_filterMap]
  refine (List.pairwise_map.mp h.names).imp_of_mem fun {t u} ht hu hne id hid id' hid' heq => ?_
  have hagrees {t : Taken} (ht : t ∈ taken) (hid : t.dbInstance = some id) :
      ∃ p ∈ inventory.packages, t.name = p.name ∧ p.dbInstance = id := by
    rcases h.agrees hsame ht with hnone | ⟨p, hp, hagrees⟩
    · rw [hnone] at hid
      cases hid
    · rw [hagrees, Option.some.injEq] at hid
      exact ⟨p, hp, by rw [hagrees], hid⟩
  obtain ⟨p, hp, htname, hpid⟩ := hagrees ht hid
  obtain ⟨q, hq, huname, hqid⟩ := hagrees hu (heq ▸ hid')
  apply hne
  rw [htname, huname, InstalledInventory.eq_of_dbInstance hp hq (hpid.trans hqid.symm)]

/-- In a plan that is right the two sides of a replacement have one name. -/
theorem name_eq (hconsumes : Consumes inventory steps taken) {new old : Step} (hnew : new ∈ steps)
    (hold : old ∈ steps) (hside : new.OldSide old) {c : CandidatePackage} {p : InstalledPackage}
    (hfound : findCandidate candidates new.repository new.nevra = some c)
    (hp : p ∈ inventory.packages) (hnevra : installedNevra p = old.nevra) : c.name = p.name := by
  rw [← h.steps] at hnew hold
  obtain ⟨new, hmem, rfl⟩ := List.mem_map.mp hnew
  obtain ⟨old, hmem', rfl⟩ := List.mem_map.mp hold
  obtain ⟨i, hi⟩ := List.mem_iff_getElem?.mp hmem
  obtain ⟨k, hk⟩ := List.mem_iff_getElem?.mp hmem'
  have hkind : new.kind ∈ replacingKinds := by
    obtain ⟨oldKind, hreplaced, hkindOf, -⟩ := hside
    rcases oldKindOf_cases hkindOf with ⟨hkind, -⟩ | ⟨-, rfl⟩
    · exact hkind
    · exact absurd hreplaced (by decide)
  obtain ⟨j, -, hreplaces, -⟩ := h.paired.taken i new _ hi (h.row_of_bound hi).choose_spec.1 hkind
    (List.getElem?_eq_some_iff.mp hi).1
  obtain rfl := hreplaces.of_oldSide hi hk hside
  obtain ⟨new', old', c', p', t, hi', hk', hp', hid', hfound', ht, htaken⟩ := h.replaces hreplaces
  obtain rfl : new = new' := Option.some_injective _ (hi.symm.trans hi')
  obtain rfl : old = old' := Option.some_injective _ (hk.symm.trans hk')
  obtain rfl : c = c' := Option.some_injective _ (hfound.symm.trans hfound')
  -- the package of the old row is the one with its NEVRA
  obtain ⟨-, -, -, -, hsystem, -⟩ := hside
  obtain ⟨-, q, hunique, hqid⟩ := h.installed old hmem' hsystem
  obtain ⟨hq, -, hall⟩ := uniqueInstalled_eq_ok hunique
  obtain rfl := hall p hp hnevra
  have hsame : p'.dbInstance = p.dbInstance := Option.some_injective _ (hid'.symm.trans hqid)
  obtain rfl := InstalledInventory.eq_of_dbInstance hp' hp hsame
  obtain ⟨r, ⟨hr, hagrees⟩, -⟩ := hconsumes.named t ht (by rw [htaken]; rfl)
  have heq := htaken.symm.trans hagrees
  simp only [Taken.mk.injEq, Option.some.injEq] at heq
  rw [heq.1, InstalledInventory.eq_of_dbInstance hp hr heq.2.2.2.1]

theorem consumes_iff : Consumes inventory steps taken ↔ SameInName candidates inventory steps := by
  constructor
  · intro hconsumes new hnew old hold hside c p hfound hp hnevra
    have hname := h.name_eq hconsumes hnew hold hside hfound hp hnevra
    obtain ⟨-, -, -, -, -, -, hnames⟩ := hside
    refine (name_eq_iff ?_).mp hname
    rw [fullNevra_of_findCandidate hfound, hnevra]
    exact hnames.symm
  · intro hsame
    have honce := h.once hsame
    refine ⟨fun t ht hsome => ?_, honce, fun step hstep hsystem hkind => ?_⟩
    · rcases h.agrees hsame ht with hnone | ⟨p, hp, hagrees⟩
      · rw [hnone] at hsome
        cases hsome
      · refine ⟨p, ⟨hp, hagrees⟩, ?_⟩
        rintro q ⟨hq, hagrees'⟩
        have hid := hagrees.symm.trans hagrees'
        simp only [Taken.mk.injEq, Option.some.injEq] at hid
        exact InstalledInventory.eq_of_dbInstance hq hp hid.2.2.2.1.symm
    · obtain ⟨p, hp, hnevra, t, ht, hid⟩ := h.consumed hstep hsystem hkind
      refine ⟨p, hp, hnevra, List.count_eq_one_of_mem honce ?_⟩
      exact List.mem_filterMap.mpr ⟨t, ht, hid⟩

end Traced

end

/-! ## The proposal -/

section
variable {e : ExplainedAction} {c : PackageAction}

/-- The proposal says of a replaced package what the explained action does. -/
theorem proposalTaken_of_replacement {operation : Core.PackageOperation}
    (hheader : ∀ text, e.installedHeaderSha256 = some text →
      ∃ header : Core.Sha256Digest, header.asStr = text)
    (h : replacementAction (PackageAction.replaceWith operation) e = .ok c) :
    proposalTaken c = e.taken := by
  unfold replacementAction at h
  obtain ⟨evra, hevra, h⟩ := Except.bind_eq_ok.mp h
  obtain ⟨repoId, -, h⟩ := Except.bind_eq_ok.mp h
  obtain ⟨installedVendor, hvendor, h⟩ := Except.bind_eq_ok.mp h
  obtain ⟨vendor, -, h⟩ := Except.bind_eq_ok.mp h
  obtain ⟨dbInstance, hinstance, h⟩ := Except.bind_eq_ok.mp h
  obtain ⟨text, htext, h⟩ := Except.bind_eq_ok.mp h
  rw [Except.okOr_eq_ok] at hevra hvendor hinstance htext
  obtain ⟨header, rfl⟩ := hheader text htext
  rw [Except.mapError_eq_ok, PackageAction.replaceWith, Core.Sha256Digest.parse_asStr,
    Except.ok_bind, Except.pure_eq_ok] at h
  rw [← h, ExplainedAction.taken, hevra, hvendor, hinstance, htext]
  rfl

theorem proposalTaken_of_removal
    (hheader : ∀ text, e.installedHeaderSha256 = some text →
      ∃ header : Core.Sha256Digest, header.asStr = text)
    (htarget : e.installedEvra = some e.targetEvra) (h : removalAction e = .ok c) :
    proposalTaken c = e.taken := by
  unfold removalAction at h
  obtain ⟨installedVendor, hvendor, h⟩ := Except.bind_eq_ok.mp h
  obtain ⟨dbInstance, hinstance, h⟩ := Except.bind_eq_ok.mp h
  obtain ⟨text, htext, h⟩ := Except.bind_eq_ok.mp h
  rw [Except.okOr_eq_ok] at hvendor hinstance htext
  obtain ⟨header, rfl⟩ := hheader text htext
  obtain ⟨provenance, hmade⟩ : ∃ provenance, PackageAction.removeWith e.name e.targetEvra
      installedVendor e.reason dbInstance header.asStr provenance = .ok c := by
    split at h
    · exact ⟨_, Except.mapError_eq_ok.mp h⟩
    · exact ⟨_, Except.mapError_eq_ok.mp h⟩
  rw [PackageAction.removeWith, Core.Sha256Digest.parse_asStr, Except.ok_bind,
    Except.pure_eq_ok] at hmade
  rw [← hmade, ExplainedAction.taken, htarget, hvendor, hinstance, htext]
  rfl

theorem proposalTaken_of_coreAction (h : coreAction e = .ok c)
    (hheader : ∀ text, e.installedHeaderSha256 = some text →
      ∃ header : Core.Sha256Digest, header.asStr = text)
    (hinstall : e.operation = "install" → e.taken = ⟨e.name, none, none, none, none⟩)
    (htarget : e.operation = "remove" → e.installedEvra = some e.targetEvra) :
    proposalTaken c = e.taken := by
  unfold coreAction at h
  split at h
  · next hoperation =>
    obtain ⟨repoId, -, h⟩ := Except.bind_eq_ok.mp h
    obtain ⟨vendor, -, h⟩ := Except.bind_eq_ok.mp h
    rw [← Except.pure_eq_ok.mp h, hinstall hoperation]
    rfl
  · split at h
    · exact proposalTaken_of_replacement hheader h
    · split at h
      · exact proposalTaken_of_replacement hheader h
      · split at h
        · exact proposalTaken_of_replacement hheader h
        · split at h
          · next hoperation => exact proposalTaken_of_removal hheader (htarget hoperation) h
          · cases h

end

theorem operationText_eq_install {o : ResolvedOperation}
    (h : PlanBuilder.operationText o = "install") : o = .install := by
  cases o <;> first | rfl | exact absurd h (by decide)

theorem operationText_eq_remove {o : ResolvedOperation}
    (h : PlanBuilder.operationText o = "remove") : o = .remove := by
  cases o <;> first | rfl | exact absurd h (by decide)

/-! ## The whole way from the answer to the plan -/

section
variable {result : SolveResult} {digest : String} {metadata : List (String × CompletePackage)}
  {requested : List String} {candidates : List CandidatePackage} {output : NativeSolveOutput}
  {resolved : List ResolvedAction} {b : PlanBuilder} {satisfied : List Core.PackageSpec}
  {plan : CanonicalSolverPlan}

/-- The parts of a build that a plan is traced by. -/
theorem traced_of_parts {raw bound : List NativeAction} {s : Pairing} {noneExpected : Bool}
    {explained : List ExplainedAction}
    (hraw : List.Forall₂ (fun row a => rowAction row = .ok a) result.rows raw)
    (hbound : List.Forall₂ (fun a b' => bindInstalled b.inventory a = .ok b') raw bound)
    (hpaired : PairedUpTo bound bound.length s)
    (hcomplete : ∀ j row, s.rows[j]? = some row → row.kind ∈ replacedKinds → j ∈ s.paired)
    (hexplained : List.Forall₂ (fun a e => ∃ r, output.resolveAction candidates b.inventory
      noneExpected a = .ok r ∧ Explains b r e) (s.rows.filter (·.kind ∉ replacedKinds)) explained)
    (hnames : (explained.map (·.name)).Nodup) :
    Traced result.steps candidates b.inventory bound s (explained.map ExplainedAction.taken) := by
  have hspec := hbound.imp fun _ _ => bindInstalled_eq_ok
  constructor
  case steps =>
    rw [← steps_eq hraw]
    exact (hspec.map_eq fun _ _ _ _ h => h.step.symm).symm
  case installed =>
    intro row hrow
    obtain ⟨_, -, hbound⟩ := hspec.exists_left hrow
    exact hbound.installed
  case paired => exact hpaired
  case complete => exact hcomplete
  case outcomes =>
    rw [List.forall₂_map_right_iff]
    refine hexplained.imp fun a e h => ?_
    obtain ⟨r, hr, he⟩ := h
    exact (outcome_of_resolveAction hr he).1
  case names =>
    rw [List.map_map]
    exact hnames

theorem names_of_built {explained : List ExplainedAction} (h : Built b resolved satisfied plan)
    (hexplained : List.Forall₂ (Explains b) resolved explained) :
    (explained.map (·.name)).Nodup := by
  have hnames : explained.map (·.name) = resolved.map (·.name) :=
    (hexplained.map_eq fun _ _ _ _ h => h.name.symm).symm
  exact hnames ▸ (validateInputs_accounts h.inputs).names

/-- The actions of the plan come from the rows of the answer. -/
theorem traced_of_plan
    (hread : NativeSolveOutput.fromNative result digest metadata b.inventory = .ok output)
    (hresolve : output.intoResolved requested candidates metadata b.inventory = .ok resolved)
    (hbuild : b.buildWithSatisfied resolved satisfied = .ok plan) :
    ∃ bound s taken, Traced result.steps candidates b.inventory bound s taken ∧
      (plan.actions.map ExplainedAction.taken).Perm taken ∧
      (plan.proposal.actions.map proposalTaken).Perm taken := by
  have hreads := fromNativeEvidence_eq_ok.mp hread
  obtain ⟨identities, raw, -, hraw, hpair, -⟩ := hreads.rest
  obtain ⟨bound, s, hbound, hpaired, hcomplete, hactions⟩ := (pairActions_eq_ok hpair).run
  obtain ⟨expected, assigned, covered, hresolves⟩ := intoResolvedEvidence_eq_ok.mp hresolve
  have hbuilt := buildWithSatisfied_eq_ok hbuild
  obtain ⟨explained, hexplained, hperm⟩ := hbuilt.explained
  have hall := hresolves.resolved.comp hexplained
  refine ⟨bound, s, explained.map ExplainedAction.taken, ?_, hperm.map _, ?_⟩
  · exact traced_of_parts hraw hbound hpaired hcomplete (hactions ▸ hall)
      (names_of_built hbuilt hexplained)
  · obtain ⟨actions, hcore, hnew⟩ := hbuilt.proposal
    rw [(PlanEnvelope.new_eq_ok.mp hnew).1]
    refine ((List.perm_insertionSort _ actions).map _).trans (.trans (.of_eq ?_) (hperm.map _))
    refine (hcore.map_eq fun e he c _ h => ?_).symm
    obtain ⟨a, -, r, hr, hexplains⟩ := hall.exists_left (hperm.mem_iff.mp he)
    have hoperation := hexplains.operation
    refine (proposalTaken_of_coreAction h (fun text htext => ?_) (fun hinstall => ?_)
      fun hremove => ?_).symm
    · obtain ⟨installed, -, -, -, hheader, -⟩ := hexplains.installed
      rw [htext] at hheader
      obtain ⟨p, -, hp⟩ := Option.map_eq_some_iff.mp hheader.symm
      exact ⟨p.immutableHeaderSha256, hp⟩
    · rw [hinstall] at hoperation
      exact (outcome_of_resolveAction hr hexplains).2 (operationText_eq_install hoperation.symm)
    · rw [hremove] at hoperation
      exact hexplains.removed (operationText_eq_remove hoperation.symm)

/-- **The plan is right about the installed packages exactly when the names are.** Of an answer that
is read, resolved and built into a plan, the actions of the plan and of its proposal name, consume
and account for the installed packages as they should if and only if the two sides of every
replacement have the same part of their EVRA in the text that is taken for the name. -/
theorem plan_consumes_iff
    (hread : NativeSolveOutput.fromNative result digest metadata b.inventory = .ok output)
    (hresolve : output.intoResolved requested candidates metadata b.inventory = .ok resolved)
    (hbuild : b.buildWithSatisfied resolved satisfied = .ok plan) :
    (Consumes b.inventory result.steps (plan.actions.map ExplainedAction.taken) ∧
      Consumes b.inventory result.steps (plan.proposal.actions.map proposalTaken)) ↔
    SameInName candidates b.inventory result.steps := by
  obtain ⟨bound, s, taken, htraced, hplan, hproposal⟩ := traced_of_plan hread hresolve hbuild
  rw [← htraced.consumes_iff]
  constructor
  · rintro ⟨h, -⟩
    exact h.of_perm hplan
  · intro h
    exact ⟨h.of_perm hplan.symm, h.of_perm hproposal.symm⟩

end

/-! An upgrade of one package. -/

/-- The answer that reports the upgrade of one NEVRA to another. -/
def upgradeAnswer (old new : String) : SolveResult where
  actions := [new, old]
  repositories := ["fedora", systemRepository]
  kinds := ["upgrade", "upgraded"]
  obsoletes := [some old, some new]
  requestedSpecs := [none, none]
  requestedRelationKinds := [false, false]
  satisfiedSpecs := []
  decisions := []

def onlyPackage (p : InstalledPackage) : InstalledInventory :=
  Core.singleInventory "6.0" Core.rpm6_ne_empty p

def upgradeBuilder (p : InstalledPackage) (c : CandidatePackage) : PlanBuilder where
  intent := Core.upgradeAll
  snapshots := Core.fedoraIntegrity
  inventory := onlyPackage p
  policy := Core.kernelPolicy
  candidates := [c]
  expiresAtUnix := 100

/-- The three stages on the upgrade of the package to the candidate. -/
def planUpgrade (p : InstalledPackage) (c : CandidatePackage) :
    Except PlanError CanonicalSolverPlan := do
  let b := upgradeBuilder p c
  let output ← NativeSolveOutput.fromNative (upgradeAnswer (installedNevra p) (fullNevra c))
    Core.zeroDigest.asStr [] b.inventory
  let resolved ← output.intoResolved [] b.candidates [] b.inventory
  b.buildWithSatisfied resolved []

def packageA (evra : Evra) (h : evra.validate = .ok ()) : InstalledPackage :=
  ⟨"a", evra, "Fedora", 7, 0, Core.zeroDigest, by decide, h⟩

def plainPackage : InstalledPackage := packageA ⟨0, "0.9", "1", .x86_64⟩ (by decide)

/-- The release has a dash, as nothing forbids. -/
def dashedPackage : InstalledPackage := packageA ⟨0, "1", "2-3", .x86_64⟩ (by decide)

/-- A package of another name, which is the text taken for the name of `dashedPackage`. -/
def dashedUpgrade : CandidatePackage :=
  { candidateNamed "a-0:1" with evra := ⟨1, "5", "1", .x86_64⟩ }

/-- Without dashes the plan is right. -/
theorem consumes_plainUpgrade : ∃ plan, planUpgrade plainPackage (candidateNamed "a") = .ok plan ∧
    Consumes (onlyPackage plainPackage)
      (upgradeAnswer "a-0:0.9-1.x86_64" "a-0:1-1.fc44.x86_64").steps
      (plan.proposal.actions.map proposalTaken) := by
  have hok : (planUpgrade plainPackage (candidateNamed "a")).isOk = true := by decide +kernel
  cases hplan : planUpgrade plainPackage (candidateNamed "a") with
  | error e =>
    rw [hplan] at hok
    cases hok
  | ok plan =>
    obtain ⟨output, hread, h⟩ := Except.bind_eq_ok.mp hplan
    obtain ⟨resolved, hresolve, hbuild⟩ := Except.bind_eq_ok.mp h
    refine ⟨plan, rfl, ((plan_consumes_iff hread hresolve hbuild).mpr
      (sameInName_of_noDash (fun c hc => ?_) fun p hp => ?_)).2⟩
    · rw [List.mem_singleton.mp hc]
      decide
    · rw [List.mem_singleton.mp hp]
      decide

/-- The plan upgrades the package under another name. -/
theorem misnamed_dashedUpgrade : ∃ plan, planUpgrade dashedPackage dashedUpgrade = .ok plan ∧
    ¬ Consumes (onlyPackage dashedPackage)
      (upgradeAnswer "a-0:1-2-3.x86_64" "a-0:1-1:5-1.x86_64").steps
      (plan.actions.map ExplainedAction.taken) := by
  have hok : ((planUpgrade dashedPackage dashedUpgrade).toOption.map fun plan =>
      plan.actions.map fun a => (a.name, a.installedInstance)) = some [("a-0:1", some 7)] := by
    decide +kernel
  obtain ⟨plan, hplan, hactions⟩ := Except.toOption_map_eq_some.mp hok
  refine ⟨plan, hplan, fun hconsumes => ?_⟩
  have hmem : ("a-0:1", some (7 : UInt64)) ∈
      plan.actions.map fun a => (a.name, a.installedInstance) := by
    rw [hactions]
    exact List.mem_singleton_self _
  obtain ⟨a, ha, heq⟩ := List.mem_map.mp hmem
  obtain ⟨hname, hinstance⟩ := Prod.mk.inj heq
  obtain ⟨p, ⟨hp, hagrees⟩, -⟩ := hconsumes.named a.taken (List.mem_map_of_mem ha)
    (show a.installedInstance.isSome = true by rw [hinstance]; rfl)
  have hp : p = dashedPackage := List.mem_singleton.mp hp
  have hnames : a.name = p.name := congrArg Taken.name hagrees
  rw [hname, hp] at hnames
  exact absurd hnames (by decide)

end Dnfast.Solver
