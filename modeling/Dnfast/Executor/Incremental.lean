import Dnfast.Native.Selected
import Dnfast.Native.Transaction
import Dnfast.Solver.Consumed

/-! # Reconciliation after an incremental transaction

`dnfast-executor`, `execute.rs`: after a transaction that was bound to an rpmdb cookie, the packages
that the plan names are read again and compared with the identities that the plan leads to
(`expectedIncrementalIdentities`). Both sides are sorted lists of name, EVRA and vendor.
`reconcileSelectedExpected_iff` says what the comparison decides, in terms of the inventory before,
the plan and a full read after. -/

namespace Dnfast.Executor

open Except (okOr)
open Core (Evra InstalledInventory InstalledPackage Sha256Digest)
open Native (CachedInventory Call ExecutorInventory Identity NativeError Rpmdb SameOutside
  Selectable)
open Native.ExecutorInventory (actualIdentities checkIdentities knownVendor reconcileResult)
open Solver (CanonicalSolverPlan ExplainedAction PlanBuilder ResolvedAction)
open State (JournalEntry Process StateError)

/-- The errors of the executor that this model has. -/
inductive ExecutorError where
  | plan (message : String)
  deriving DecidableEq

/-- The operations that leave a package of the action's name. -/
def installs (a : ExplainedAction) : Bool :=
  a.operation ∈ ["install", "upgrade", "downgrade", "reinstall"]

def identityOf (name : String) (evra : Evra) (vendor : String) : Identity :=
  toLex (name, toLex (evra, knownVendor vendor))

/-- `changed_names`: sorted, each name once. -/
def changedNames (plan : CanonicalSolverPlan) : List String := (plan.actions.map (·.name)).sortDedup

def expectedIncrementalIdentities (plan : CanonicalSolverPlan) (before : InstalledInventory) :
    Except ExecutorError (List Identity) := do
  let changed := plan.actions.map (·.name)
  let replacedInstances := plan.actions.filterMap (·.installedInstance)
  let kept := before.packages.filter fun package =>
    package.name ∈ changed ∧ package.dbInstance ∉ replacedInstances
  let installed ← (plan.actions.filter installs).mapM fun action => do
    let vendor ← okOr action.vendor (.plan "installed action has no vendor")
    return identityOf action.name action.targetEvra vendor
  let expected := kept.map (fun package => identityOf package.name package.evra package.vendor)
  return (expected ++ installed).insertionSort (· ≤ ·)

section
variable (fromSlice : List UInt8 → Except String JournalEntry) (p : Process)
  (sha256 : List UInt8 → Sha256Digest)

def reconcileSelectedExpected (db : Except NativeError Rpmdb) (faults : List (Option StateError))
    (changedNames : List String) (expected : List Identity) (s : ExecutorInventory)
    (cache : Option CachedInventory) : Call Unit × Option CachedInventory :=
  s.reconcileWithSuccess fromSlice p sha256 db faults true (some changedNames) (some expected) cache

end

/-! ## What the transaction should leave -/

/-- The identity of an installed package, with an unknown vendor read as an empty one. -/
def identity (package : InstalledPackage) : Identity :=
  identityOf package.name package.evra package.vendor

/-- The identities of the packages under the names of the plan. -/
def identitiesOf (plan : CanonicalSolverPlan) (inventory : InstalledInventory) :
    Multiset Identity :=
  (inventory.packages.filter (·.name ∈ changedNames plan)).map identity

/-- The same without the instances that the plan consumes. -/
def keptBy (plan : CanonicalSolverPlan) (inventory : InstalledInventory) : Multiset Identity :=
  (inventory.packages.filter fun package => package.name ∈ changedNames plan ∧
    ∀ action ∈ plan.actions, action.installedInstance ≠ some package.dbInstance).map identity

/-- The packages that the plan brings in. -/
def targetsOf (plan : CanonicalSolverPlan) : Multiset Identity :=
  (plan.actions.filter (·.operation ≠ "remove")).map fun action =>
    identityOf action.name action.targetEvra (action.vendor.getD "")

/-- Under the names of the plan there is what the plan kept and what it brought in. -/
def LeadsTo (plan : CanonicalSolverPlan) (before after : InstalledInventory) : Prop :=
  identitiesOf plan after = keptBy plan before + targetsOf plan

instance (plan : CanonicalSolverPlan) (before after : InstalledInventory) :
    Decidable (LeadsTo plan before after) :=
  inferInstanceAs (Decidable (_ = _))

/-! ## Plans of a builder -/

section
variable {b : PlanBuilder} {resolved : List ResolvedAction} {satisfied : List Core.PackageSpec}
  {plan : CanonicalSolverPlan} {before full : InstalledInventory}

theorem mem_changedNames {name : String} :
    name ∈ changedNames plan ↔ ∃ action ∈ plan.actions, action.name = name := by
  rw [changedNames, List.mem_sortDedup, List.mem_map]

/-- The actions that leave a package are those that are no removals, and they have a vendor. -/
theorem installs_of_coreAction {action : ExplainedAction} {core : Core.PackageAction}
    (h : Solver.coreAction action = .ok core) :
    (installs action = true ↔ action.operation ≠ "remove") ∧
      (installs action = true → ∃ vendor, action.vendor = some vendor) := by
  have hreplaced : ∀ make, Solver.replacementAction make action = .ok core →
      ∃ vendor, action.vendor = some vendor := by
    intro make hmake
    obtain ⟨_, -, hmake⟩ := Except.bind_eq_ok.mp hmake
    obtain ⟨_, -, hmake⟩ := Except.bind_eq_ok.mp hmake
    obtain ⟨_, -, hmake⟩ := Except.bind_eq_ok.mp hmake
    obtain ⟨vendor, hvendor, -⟩ := Except.bind_eq_ok.mp hmake
    exact ⟨vendor, Except.okOr_eq_ok.mp hvendor⟩
  unfold Solver.coreAction at h
  split_ifs at h with hinstall hupgrade hdowngrade hreinstall hremove
  · obtain ⟨_, -, h⟩ := Except.bind_eq_ok.mp h
    obtain ⟨vendor, hvendor, -⟩ := Except.bind_eq_ok.mp h
    exact ⟨by simp [installs, hinstall], fun _ => ⟨vendor, Except.okOr_eq_ok.mp hvendor⟩⟩
  · exact ⟨by simp [installs, hupgrade], fun _ => hreplaced _ h⟩
  · exact ⟨by simp [installs, hdowngrade], fun _ => hreplaced _ h⟩
  · exact ⟨by simp [installs, hreinstall], fun _ => hreplaced _ h⟩
  · exact ⟨by simp [installs, hremove], fun hno => by simp [installs, hremove] at hno⟩

theorem installs_of_built (h : Solver.Built b resolved satisfied plan) {action : ExplainedAction}
    (haction : action ∈ plan.actions) :
    (installs action = true ↔ action.operation ≠ "remove") ∧
      (installs action = true → ∃ vendor, action.vendor = some vendor) := by
  obtain ⟨actions, hcore, -⟩ := h.proposal
  obtain ⟨core, -, hcore⟩ := hcore.exists_right haction
  exact installs_of_coreAction hcore

theorem named_of_checkActions {actions as : List ResolvedAction}
    {seen : List (Solver.ResolvedOperation × String × Option UInt64 × Option (Evra × String))}
    (h : b.checkActions actions seen as = .ok ()) : ∀ a ∈ as, a.name ≠ "" := by
  induction as generalizing seen with
  | nil => simp
  | cons a as ih =>
    simp only [PlanBuilder.checkActions, Except.check_bind_eq_ok, Except.refuseIf_eq_ok, not_or] at h
    exact List.forall_mem_cons.mpr ⟨h.1.1, ih h.2.2.2⟩

/-- An answer that is accepted has actions, not too many of them, and they have names. -/
theorem bounds_of_validateInputs (h : b.validateInputs resolved satisfied = .ok ()) :
    resolved ≠ [] ∧ resolved.length ≤ Core.maxPlanActions ∧ ∀ a ∈ resolved, a.name ≠ "" := by
  rw [PlanBuilder.validateInputs] at h
  simp only [Except.check_bind_eq_ok, Except.refuseIf_eq_ok, not_lt] at h
  obtain ⟨hnonempty, hcount, -, -, h⟩ := h
  obtain ⟨bytes, -, h⟩ := Except.bind_eq_ok.mp h
  simp only [Except.check_bind_eq_ok] at h
  exact ⟨hnonempty, hcount, named_of_checkActions h.2.2.2.1⟩

/-- The names of a plan can be read, as far as C strings can. -/
theorem selectable_of_built (h : Solver.Built b resolved satisfied plan)
    (hnul : ∀ name ∈ changedNames plan, Rpmdb.hasNul name = false) :
    Selectable (changedNames plan) := by
  obtain ⟨hnonempty, hcount, hnamed⟩ := bounds_of_validateInputs h.inputs
  obtain ⟨explained, hexplained, hperm⟩ := h.explained
  have hlength : plan.actions.length = resolved.length :=
    hperm.length_eq.trans hexplained.length_eq.symm
  constructor
  case nonempty =>
    intro hempty
    have hactions : plan.actions ≠ [] := by
      rw [← List.length_pos_iff, hlength]
      exact List.length_pos_iff.mpr hnonempty
    obtain ⟨action, haction⟩ := List.exists_mem_of_ne_nil _ hactions
    have hmem := mem_changedNames.mpr ⟨action, haction, rfl⟩
    rw [hempty] at hmem
    cases hmem
  case canonical => exact Native.canonicalNames_of_pairwise (List.pairwise_sortDedup _)
  case noNul => exact hnul
  case count =>
    have hle := List.length_sortDedup_le (plan.actions.map (·.name))
    rw [List.length_map, hlength] at hle
    exact hle.trans (hcount.trans (by decide))
  case named =>
    intro hmem
    obtain ⟨action, haction, hname⟩ := mem_changedNames.mp hmem
    obtain ⟨a, ha, hexplains⟩ := hexplained.exists_left (hperm.mem_iff.mp haction)
    exact hnamed a ha (hexplains.name ▸ hname)

/-- The identities that a plan leads to are computed without error, and they are these. -/
theorem expectedIncrementalIdentities_of_built (h : Solver.Built b resolved satisfied plan)
    (before : InstalledInventory) :
    ∃ expected, expectedIncrementalIdentities plan before = .ok expected ∧
      (expected : Multiset Identity) = keptBy plan before + targetsOf plan := by
  have hvendors : (plan.actions.filter installs).mapM (fun action => (do
      let vendor ← okOr action.vendor (ExecutorError.plan "installed action has no vendor")
      return identityOf action.name action.targetEvra vendor)) = .ok
      ((plan.actions.filter installs).map fun action =>
        identityOf action.name action.targetEvra (action.vendor.getD "")) := by
    rw [Except.mapM_eq_ok, List.forall₂_map_right_iff, List.forall₂_same]
    intro action haction
    obtain ⟨hmem, hinstalls⟩ := List.mem_filter.mp haction
    obtain ⟨vendor, hvendor⟩ := (installs_of_built h hmem).2 hinstalls
    rw [hvendor]
    rfl
  have htargets : plan.actions.filter installs = plan.actions.filter (·.operation ≠ "remove") := by
    refine List.filter_congr fun action haction => ?_
    rw [Bool.eq_iff_iff, (installs_of_built h haction).1, decide_eq_true_eq]
  refine ⟨_, by rw [expectedIncrementalIdentities, hvendors, Except.ok_bind]; rfl, ?_⟩
  rw [Multiset.coe_eq_coe.mpr (List.perm_insertionSort ..), ← Multiset.coe_add, htargets]
  refine congrArg₂ (· + ·) (congrArg _ (congrArg _ (List.filter_congr fun package _ => ?_))) rfl
  rw [decide_eq_decide, mem_changedNames, List.mem_map, List.mem_filterMap]
  simp only [not_exists, not_and]

/-- A name of the plan that is no C string is not under the names before, so the plan does not lead
to an inventory of C strings. -/
theorem not_leadsTo_of_hasNul (h : Solver.Built b resolved satisfied plan)
    (hbefore : ∀ p ∈ b.inventory.packages, Rpmdb.hasNul p.name = false)
    (hfull : ∀ p ∈ full.packages, Rpmdb.hasNul p.name = false) {name : String}
    (hname : name ∈ changedNames plan) (hnul : Rpmdb.hasNul name = true) :
    ¬ LeadsTo plan before full := by
  obtain ⟨action, haction, rfl⟩ := mem_changedNames.mp hname
  obtain ⟨explained, hexplained, hperm⟩ := h.explained
  obtain ⟨a, ha, hexplains⟩ := hexplained.exists_left (hperm.mem_iff.mp haction)
  have hkept : action.operation ≠ "remove" := by
    intro hremove
    have hoperation := Solver.operationText_eq_remove (hexplains.operation.symm.trans hremove)
    obtain ⟨installed, hinstalled, -, -, -, hremoved⟩ := hexplains.installed
    obtain ⟨p, rfl, hp⟩ := hremoved hoperation
    have hmem : p ∈ b.inventory.packages := by
      unfold PlanBuilder.installedOf at hinstalled
      split at hinstalled
      · cases hinstalled
      · obtain ⟨q, hq, hsome⟩ := Except.map_eq_ok.mp hinstalled
        cases hsome
        exact List.mem_of_find?_eq_some (Except.okOr_eq_ok.mp hq)
    rw [hexplains.name, ← hp, hbefore p hmem] at hnul
    cases hnul
  intro hleads
  have htarget : identityOf action.name action.targetEvra (action.vendor.getD "") ∈
      identitiesOf plan full := by
    rw [hleads]
    refine Multiset.mem_add.mpr (.inr (Multiset.mem_coe.mpr (List.mem_map.mpr ⟨action, ?_, rfl⟩)))
    exact List.mem_filter.mpr ⟨haction, by simpa using hkept⟩
  obtain ⟨p, hp, heq⟩ := List.mem_map.mp (Multiset.mem_coe.mp htarget)
  have hpname : p.name = action.name := congrArg (fun i : Identity => (ofLex i).1) heq
  rw [← hpname, hfull p (List.mem_of_mem_filter hp)] at hnul
  cases hnul

end

/-! ## The reconciliation -/

section
variable {fromSlice : List UInt8 → Except String JournalEntry} {p : Process}
  {sha256 : List UInt8 → Sha256Digest} {s : ExecutorInventory} {db : Rpmdb}
  {full : InstalledInventory} {names : List String} {expected : List Identity}
  {faults : List (Option StateError)} {cache : Option CachedInventory}

/-- The journal, if there is one, takes the record of the reconciliation. -/
def JournalTakes (fromSlice : List UInt8 → Except String JournalEntry) (p : Process)
    (sha256 : List UInt8 → Sha256Digest) (faults : List (Option StateError)) (s : ExecutorInventory)
    (after : InstalledInventory) : Prop :=
  ∀ d, s.journal = some d →
    (Native.onJournal (State.reconcile fromSlice p (reconcileResult sha256 s.inventory after true))
      faults d).1 = .ok ()

/-- Sorted lists are compared as multisets. -/
theorem checkIdentities_eq_ok_iff :
    checkIdentities full (some names) (some expected) = .ok () ↔
      (((full.packages.filter (·.name ∈ names)).map identity : List Identity) : Multiset Identity) =
        expected := by
  rw [checkIdentities, Except.refuseIf_eq_ok, not_not, Multiset.coe_eq_coe]
  constructor
  · intro h
    have hactual := List.perm_insertionSort (· ≤ ·) ((full.packages.filter (·.name ∈ names)).map
      identity)
    exact hactual.symm.trans ((List.Perm.of_eq h).trans (List.perm_insertionSort ..))
  · exact fun h => List.insertionSort_eq_of_perm h

theorem recordReconciliation_eq_ok_iff (result : State.ReconcileResult) :
    (s.recordReconciliation fromSlice p result faults).1 = .ok () ↔
      ∀ d, s.journal = some d → (Native.onJournal (State.reconcile fromSlice p result) faults d).1 = .ok () := by
  unfold ExecutorInventory.recordReconciliation
  cases hjournal : s.journal with
  | none => simp
  | some d =>
    simp only [Option.some.injEq, forall_eq']
    cases hwrite : Native.onJournal (State.reconcile fromSlice p result) faults d with
    | mk result d' =>
      cases result with
      | ok u => simp
      | error e => simp

theorem recordReconciliation_inventory (result : State.ReconcileResult) :
    (s.recordReconciliation fromSlice p result faults).2.inventory = s.inventory := by
  unfold ExecutorInventory.recordReconciliation
  split
  · rfl
  · split <;> rfl

/-- A read of the names that does not give the inventory ends the reconciliation. -/
theorem reconcile_of_read_error {e : Native.InventoryError} (hstarted : s.state = .started)
    (h : Native.selectedSnapshot (.ok db) s.inventory names = .error e) :
    (reconcileSelectedExpected fromSlice p sha256 (.ok db) faults names expected s cache).1 =
      (.error e, s) := by
  simp [reconcileSelectedExpected, ExecutorInventory.reconcileWithSuccess, hstarted,
    ExecutorInventory.readAfter, Native.readLockedSelected, h, Except.bind]

/-- What becomes of an inventory that was read. -/
theorem reconcile_of_read (hstarted : s.state = .started)
    (h : Native.selectedSnapshot (.ok db) s.inventory names = .ok ⟨full, db.cookie⟩) :
    (reconcileSelectedExpected fromSlice p sha256 (.ok db) faults names expected s cache).1 =
      if s.rpmdbCookie = some db.cookie then (.error .unchangedCookie, s)
      else
        match checkIdentities full (some names) (some expected) with
        | .error e => (.error e, s)
        | .ok () =>
          match s.recordReconciliation fromSlice p (reconcileResult sha256 s.inventory full true)
            faults with
          | (.error e, s) => (.error e, s)
          | (.ok (), s) => (.ok (), { s with
              inventory := full, rpmdbCookie := some db.cookie, state := .reconciled }) := by
  simp only [reconcileSelectedExpected, ExecutorInventory.reconcileWithSuccess, hstarted, ne_eq,
    not_true, if_false, ExecutorInventory.readAfter, Native.readLockedSelected, h]
  by_cases hcookie : s.rpmdbCookie = some db.cookie
  · simp [hcookie, Except.bind]
  · simp only [Except.bind, if_neg hcookie]
    cases checkIdentities full (some names) (some expected) with
    | error e => rfl
    | ok u =>
      simp only
      cases s.recordReconciliation fromSlice p (reconcileResult sha256 s.inventory full true)
        faults with
      | mk result s' =>
        cases result with
        | error e => rfl
        | ok u => rfl

/-- What the result of a reconciliation says. `agreed` is that the database is what the plan leads to
and that its cookie changed, `taken` that the journal takes the record. -/
structure Decides (agreed taken : Prop) (s : ExecutorInventory) (full : InstalledInventory)
    (call : Call Unit) : Prop where
  succeeds : call.1 = .ok () ↔ agreed ∧ taken
  inventory : call.1 = .ok () → call.2.inventory = full
  /-- Whatever is refused changes neither the inventory nor the journal nor anything else. -/
  refused : ¬ agreed → (∃ e, call.1 = .error e) ∧ call.2 = s
  kept : call.1 ≠ .ok () → call.2.inventory = s.inventory

theorem Decides.of_error {agreed taken : Prop} {e : Native.InventoryError} (h : ¬ agreed) :
    Decides agreed taken s full (.error e, s) where
  succeeds := by simp [h]
  inventory h := by cases h
  refused _ := ⟨⟨e, rfl⟩, rfl⟩
  kept _ := rfl

/-- The comparison decides what it should, for any list of the expected identities. -/
theorem decides_of_read (hstarted : s.state = .started)
    (h : Native.selectedSnapshot (.ok db) s.inventory names = .ok ⟨full, db.cookie⟩) :
    Decides ((((full.packages.filter (·.name ∈ names)).map identity : List Identity) :
        Multiset Identity) = expected ∧ s.rpmdbCookie ≠ some db.cookie)
      (JournalTakes fromSlice p sha256 faults s full) s full
      (reconcileSelectedExpected fromSlice p sha256 (.ok db) faults names expected s cache).1 := by
  rw [reconcile_of_read hstarted h]
  by_cases hcookie : s.rpmdbCookie = some db.cookie
  · rw [if_pos hcookie]
    exact .of_error fun hagreed => hagreed.2 hcookie
  · rw [if_neg hcookie]
    cases hcheck : checkIdentities full (some names) (some expected) with
    | error e =>
      refine .of_error fun hagreed => ?_
      rw [checkIdentities_eq_ok_iff.mpr hagreed.1] at hcheck
      cases hcheck
    | ok u =>
      have hagreed := checkIdentities_eq_ok_iff.mp hcheck
      have htaken := @recordReconciliation_eq_ok_iff fromSlice p s faults
        (reconcileResult sha256 s.inventory full true)
      have hinventory := @recordReconciliation_inventory fromSlice p s faults
        (reconcileResult sha256 s.inventory full true)
      simp only
      -- what remains is the record in the journal
      cases hrecord : s.recordReconciliation fromSlice p
        (reconcileResult sha256 s.inventory full true) faults with
      | mk result s' =>
        rw [hrecord] at htaken hinventory
        cases result with
        | ok u =>
          refine ⟨?_, fun _ => rfl, fun hno => absurd ⟨hagreed, hcookie⟩ hno, fun hno => ?_⟩
          · exact ⟨fun _ => ⟨⟨hagreed, hcookie⟩, htaken.mp rfl⟩, fun _ => rfl⟩
          · exact absurd rfl hno
        | error e =>
          refine ⟨?_, fun h => ?_, fun hno => absurd ⟨hagreed, hcookie⟩ hno, fun _ => hinventory⟩
          · exact ⟨fun h => (nomatch h), fun h => (nomatch htaken.mpr h.2)⟩
          · cases h

end

section
variable {b : PlanBuilder} {resolved : List ResolvedAction} {satisfied : List Core.PackageSpec}
  {plan : CanonicalSolverPlan} {s : ExecutorInventory} {db : Rpmdb} {full : InstalledInventory}

/-- **The comparison after a transaction is exact.** The plan is one that the builder made for the
inventory before, the database differs from that inventory only under names of the plan, and `full`
is a full read of it. The identities that are expected are computed, and the reconciliation succeeds
exactly when the packages under the names of the plan are, as a multiset of identities, those before
without the instances that the plan consumes and with the targets of the plan, and the cookie
changed (and the journal takes the record). Then the inventory is the full read. Otherwise there is
an error, and the executor with its inventory and journal is as before. -/
theorem reconcileSelectedExpected_decides (fromSlice : List UInt8 → Except String JournalEntry)
    (p : Process) (sha256 : List UInt8 → Sha256Digest) (faults : List (Option StateError))
    (hbuild : b.buildWithSatisfied resolved satisfied = .ok plan)
    (hbefore : b.inventory = s.inventory) (hstarted : s.state = .started)
    (hnul : ∀ q ∈ s.inventory.packages ++ full.packages, Rpmdb.hasNul q.name = false)
    (hread : db.Reads full) (hsame : SameOutside (changedNames plan) s.inventory full) :
    ∃ expected, expectedIncrementalIdentities plan s.inventory = .ok expected ∧ ∀ cache,
      Decides (LeadsTo plan s.inventory full ∧ s.rpmdbCookie ≠ some db.cookie)
        (JournalTakes fromSlice p sha256 faults s full) s full
        (reconcileSelectedExpected fromSlice p sha256 (.ok db) faults (changedNames plan) expected s
          cache).1 := by
  have hbuilt := Solver.buildWithSatisfied_eq_ok hbuild
  obtain ⟨expected, hexpected, hmultiset⟩ := expectedIncrementalIdentities_of_built hbuilt s.inventory
  refine ⟨expected, hexpected, fun cache => ?_⟩
  by_cases hnames : ∀ name ∈ changedNames plan, Rpmdb.hasNul name = false
  · have hsnapshot := Native.selectedSnapshot_of_agree (selectable_of_built hbuilt hnames)
      (Native.reads_iff.mp hread) hsame
    rw [LeadsTo, ← hmultiset]
    exact decides_of_read hstarted hsnapshot
  · -- a name that is no C string: the read is refused, and the plan leads nowhere
    obtain ⟨name, hname, hno⟩ : ∃ name ∈ changedNames plan, Rpmdb.hasNul name = true := by
      simpa using hnames
    obtain ⟨e, he⟩ := @Native.selectedSnapshot_of_hasNul db s.inventory _ _ hname hno
    rw [reconcile_of_read_error hstarted he]
    refine .of_error fun hagreed => not_leadsTo_of_hasNul hbuilt ?_ ?_ hname hno hagreed.1
    · exact fun q hq => hnul q (List.mem_append_left _ (hbefore ▸ hq))
    · exact fun q hq => hnul q (List.mem_append_right _ hq)

end

/-! ## A transaction -/

/-- A package of the database after the transaction. -/
def installedRaw (name : String) (dbInstance : UInt64) : Native.InventoryPackage where
  name := name
  version := "1"
  release := "1.fc44"
  arch := "x86_64"
  vendor := "Fedora"
  epoch := 0
  dbInstance := dbInstance
  installTime := 1
  immutableHeaderSha256 := Core.zeroDigest.asStr

def installedNamed (name : String) (dbInstance : UInt64) (named : name ≠ "") : InstalledPackage where
  name := name
  evra := ⟨0, "1", "1.fc44", .x86_64⟩
  vendor := "Fedora"
  dbInstance := dbInstance
  installTime := 1
  immutableHeaderSha256 := Core.zeroDigest
  named := named
  valid := rfl

def appAndLibInstalled : InstalledInventory where
  rpmdbBackend := "sqlite"
  rpmVersion := "6.0"
  packages := [installedNamed "app" 1 Core.app_ne_empty, installedNamed "lib" 2 Core.lib_ne_empty]
  backendNamed := Solver.noPackages.backendNamed
  versionNamed := Core.rpm6_ne_empty
  ordered := by decide +kernel
  instances := by decide

def appAndLibRpmdb : Rpmdb where
  cookie := "after"
  inventory := ⟨"sqlite", "6.0", [installedRaw "lib" 2, installedRaw "app" 1]⟩

/-- An executor after the real run, without a journal. -/
def ranExecutor : ExecutorInventory :=
  { ExecutorInventory.begin Solver.noPackages (some "before") with state := .started }

theorem appAndLibRpmdb_reads : appAndLibRpmdb.Reads appAndLibInstalled := by
  have hpackages : appAndLibRpmdb.inventory.packages.mapM Native.convertPackage =
      .ok [installedNamed "lib" 2 (by decide), installedNamed "app" 1 (by decide)] := rfl
  have hnew := @InstalledInventory.new_of_perm appAndLibInstalled _ (List.Perm.swap _ _ [])
  refine Native.reads_iff.mpr ⟨by decide, by decide, by decide, ?_⟩
  rw [Native.convert, hpackages, Except.ok_bind]
  exact congrArg (Except.mapError _) hnew

theorem sameOutside_appAndLib :
    SameOutside ["app", "lib"] ranExecutor.inventory appAndLibInstalled :=
  ⟨rfl, rfl, by simp [ranExecutor, ExecutorInventory.begin, Solver.noPackages,
    Core.emptyInventory, Core.sqliteInventory, appAndLibInstalled, installedNamed]⟩

/-- The installation of the application with its library is reconciled. -/
theorem reconcileSelectedExpected_appAndLib :
    ∃ plan expected,
      Solver.installBuilder.buildWithSatisfied Solver.appAndLib [] = .ok plan ∧
      expectedIncrementalIdentities plan ranExecutor.inventory = .ok expected ∧
      LeadsTo plan Solver.noPackages appAndLibInstalled ∧
      (reconcileSelectedExpected (fun _ => .error "") ⟨7, 0⟩ (fun _ => Core.zeroDigest)
        (.ok appAndLibRpmdb) [] (changedNames plan) expected ranExecutor none).1.1 = .ok () := by
  have heval : (Solver.installBuilder.buildWithSatisfied Solver.appAndLib []).toOption.map
      (fun plan => (changedNames plan,
        decide (LeadsTo plan Solver.noPackages appAndLibInstalled))) = some (["app", "lib"], true) := by
    decide +kernel
  obtain ⟨plan, hplan, heq⟩ := Option.map_eq_some_iff.mp heval
  obtain ⟨hnames, hleads⟩ := Prod.mk.inj heq
  have hbuild : Solver.installBuilder.buildWithSatisfied Solver.appAndLib [] = .ok plan := by
    cases h : Solver.installBuilder.buildWithSatisfied Solver.appAndLib [] with
    | ok plan' =>
      rw [h] at hplan
      exact congrArg _ (Option.some.inj hplan)
    | error e =>
      rw [h] at hplan
      cases hplan
  obtain ⟨expected, hexpected, hdecides⟩ := reconcileSelectedExpected_decides (fun _ => .error "")
    ⟨7, 0⟩ (fun _ => Core.zeroDigest) [] hbuild (s := ranExecutor) rfl rfl (by decide +kernel)
    appAndLibRpmdb_reads (hnames ▸ sameOutside_appAndLib)
  refine ⟨plan, expected, hbuild, hexpected, of_decide_eq_true hleads, ?_⟩
  refine (hdecides none).succeeds.mpr ⟨⟨of_decide_eq_true hleads, by decide⟩, ?_⟩
  intro d hd
  cases hd

end Dnfast.Executor
