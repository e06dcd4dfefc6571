import Dnfast.Executor.Incremental
import Dnfast.Executor.Recheck

/-! # The inventory that an incremental transaction publishes

`dnfast-executor`, `resident.rs`: after the transaction `prepare_and_execute` reconciles the packages
under the names of the plan, publishes the merged inventory onto the current planning snapshot and
hands it to the planner, which compares it with the database once more. `read_locked_selected` has
cached the merged inventory under the new cookie by then, and the planner reads through that cache, so
the comparison is of the inventory with itself (`readSnapshot_of_reconciled`). What is published is the
database as far as the transaction left the other packages alone. -/

namespace Dnfast.Executor

open Core (InstalledInventory PlanIntegrity Sha256Digest)
open Native (CachedInventory ExecutorInventory Identity Rpmdb SameOutside Selectable)
open Planning (PlanningError PlanningSnapshot)
open State (JournalEntry Process StateError)

/-! ## The path -/

/-- What `publish_inventory_onto_current_with_source` returns, with the snapshot that is current
after it. -/
structure PublishedOnto where
  source : String
  published : String
  snapshot : PlanningSnapshot

/-- `publish_inventory_onto_current_with_source`, over the current snapshot. -/
def publishInventoryOntoCurrentWithSource (lib : Planning.Library) (current : PlanningSnapshot)
    (inventory : InstalledInventory) : Except PlanningError PublishedOnto := do
  let source ← current.digest lib
  let snapshot ← Planning.withInventory lib current inventory
  let published ← snapshot.digest lib
  return ⟨source, published, snapshot⟩

inductive PathError where
  | inventory (error : Native.InventoryError)
  | planning (error : PlanningError)
  | daemon (error : DaemonError)

section
variable (out : Outside) (fromSlice : List UInt8 → Except String JournalEntry) (p : Process)

/-- From the end of the transaction to the answer: the snapshot that is published, and the planner. -/
def incrementalPath (w : World) (faults : List (Option StateError)) (current : PlanningSnapshot)
    (names : List String) (expected : List Identity) (executor : ExecutorInventory)
    (planner : ResidentPlanner) : Except PathError (PlanningSnapshot × ResidentPlanner) := do
  let ((reconciled, executor), cache) := reconcileSelectedExpected fromSlice p out.lib.crates.sha256
    w.files.db faults names expected executor w.cache
  reconciled.mapError .inventory
  let onto ← (publishInventoryOntoCurrentWithSource out.lib current executor.inventory).mapError
    .planning
  let (refreshed, planner) := planner.refreshAfterMutation out { w with cache } executor.inventory
    onto.source onto.published
  refreshed.mapError .daemon
  return (onto.snapshot, planner)

end

/-! ## What the cache holds -/

section
variable {out : Outside} {fromSlice : List UInt8 → Except String JournalEntry} {p : Process}
  {sha256 : List UInt8 → Sha256Digest} {db : Rpmdb} {faults : List (Option StateError)}
  {names : List String} {expected : List Identity} {s : ExecutorInventory}
  {cache : Option CachedInventory}

/-- Names that could be read are such as can be read. -/
theorem selectable_of_readSelected {read : Native.InventoryRead}
    (h : db.readSelected names = .ok read) : Selectable names ∧ read.cookie = db.cookie := by
  simp only [Rpmdb.readSelected, Except.check_bind_eq_ok, Except.refuseIf_eq_ok, not_or, not_not]
    at h
  obtain ⟨⟨hnonempty, hcanonical⟩, hnul, h⟩ := h
  obtain ⟨cookie, hcookie, h⟩ := Except.bind_eq_ok.mp h
  simp only [Except.check_bind_eq_ok, Except.refuseIf_eq_ok, not_lt] at h
  obtain ⟨hcount, hnamed, h⟩ := h
  obtain ⟨inventory, -, h⟩ := Except.bind_eq_ok.mp h
  constructor
  · refine ⟨hnonempty, hcanonical, fun name hname => ?_, hcount, hnamed⟩
    rw [← Bool.not_eq_true]
    exact fun hno => hnul (List.any_eq_true.mpr ⟨name, hname, hno⟩)
  · cases h
    rw [Rpmdb.takeCookie] at hcookie
    split at hcookie
    · cases hcookie
    · exact (Except.ok.inj hcookie).symm

theorem selectable_of_selectedSnapshot {before : InstalledInventory}
    {snapshot : Native.InventorySnapshot}
    (h : Native.selectedSnapshot (.ok db) before names = .ok snapshot) :
    Selectable names ∧ snapshot.rpmdbCookie = db.cookie := by
  simp only [Native.selectedSnapshot, Except.check_bind_eq_ok] at h
  obtain ⟨-, h⟩ := h
  obtain ⟨read, hread, h⟩ := Except.bind_eq_ok.mp h
  obtain ⟨hnames, hcookie⟩ := selectable_of_readSelected (Except.mapError_eq_ok.mp hread)
  refine ⟨hnames, ?_⟩
  obtain ⟨raw, -, h⟩ := Except.bind_eq_ok.mp h
  obtain ⟨selected, -, h⟩ := Except.bind_eq_ok.mp h
  simp only [Except.check_bind_eq_ok] at h
  obtain ⟨-, -, h⟩ := h
  obtain ⟨inventory, -, h⟩ := Except.bind_eq_ok.mp h
  cases Except.pure_eq_ok.mp h
  exact hcookie

/-- After a reconciliation the inventory of the executor is the merged one, and it is what the cache
has for the cookie of the database. -/
theorem reconciled_of_ok {s' : ExecutorInventory} {cache' : Option CachedInventory}
    (h : reconcileSelectedExpected fromSlice p sha256 (.ok db) faults names expected s cache =
      ((.ok (), s'), cache')) :
    Native.selectedSnapshot (.ok db) s.inventory names = .ok ⟨s'.inventory, db.cookie⟩ ∧
      cache' = some ⟨db.cookie, s'.inventory⟩ := by
  have hstarted : s.state = .started := by
    by_contra hno
    simp [reconcileSelectedExpected, ExecutorInventory.reconcileWithSuccess, hno] at h
  cases hsnapshot : Native.selectedSnapshot (.ok db) s.inventory names with
  | error e =>
    have herror := @reconcile_of_read_error fromSlice p sha256 s db names expected faults cache e
      hstarted hsnapshot
    rw [h] at herror
    cases herror
  | ok snapshot =>
    obtain ⟨inventory, cookie⟩ := snapshot
    obtain rfl : cookie = db.cookie := (selectable_of_selectedSnapshot hsnapshot).2
    have hdecides := @decides_of_read fromSlice p sha256 s db inventory names expected faults cache
      hstarted hsnapshot
    rw [h] at hdecides
    obtain rfl : s'.inventory = inventory := hdecides.inventory rfl
    refine ⟨rfl, ?_⟩
    have hcache : (reconcileSelectedExpected fromSlice p sha256 (.ok db) faults names expected s
        cache).2 = some ⟨db.cookie, s'.inventory⟩ := by
      simp only [reconcileSelectedExpected, ExecutorInventory.reconcileWithSuccess, hstarted, ne_eq,
        not_true, if_false, ExecutorInventory.readAfter, Native.readLockedSelected, hsnapshot]
      split
      · rfl
      · split
        · rfl
        · split <;> rfl
    rw [h] at hcache
    exact hcache

/-- A read through a cache that has the cookie of the database returns what the cache holds, whatever
the database is. -/
theorem readSnapshot_of_reconciled {inventory : InstalledInventory} (hcookie : db.cookie ≠ "") :
    (Native.readSnapshotFromContext (.ok db) (some ⟨db.cookie, inventory⟩)).1 =
      .ok ⟨inventory, db.cookie⟩ := by
  simp [Native.readSnapshotFromContext, Native.readThrough, Except.bind, Rpmdb.readCached,
    Rpmdb.takeCookie, hcookie, bind, Native.finishCachedRead, Except.map]

end

/-! ## What is published -/

section
variable {out : Outside} {w : World} {faults : List (Option StateError)}
  {current published : PlanningSnapshot} {names : List String} {expected : List Identity}
  {s : ExecutorInventory} {planner planner' : ResidentPlanner} {db : Rpmdb}

theorem inventory_of_published {lib : Planning.Library} {inventory : InstalledInventory}
    {onto : PublishedOnto}
    (h : publishInventoryOntoCurrentWithSource lib current inventory = .ok onto) :
    onto.snapshot.payload.inventory = inventory := by
  obtain ⟨source, -, h⟩ := Except.bind_eq_ok.mp h
  obtain ⟨snapshot, hsnapshot, h⟩ := Except.bind_eq_ok.mp h
  obtain ⟨digest, -, h⟩ := Except.bind_eq_ok.mp h
  cases Except.pure_eq_ok.mp h
  obtain ⟨rfl, -⟩ := Planning.renewed_eq_ok.mp (Planning.withInventory_eq_ok.mp hsnapshot).2
  rfl

/-- **What an incremental transaction publishes.** Whenever the path after the transaction succeeds,
the inventory that it publishes is a full read of the database exactly when the database has a full
read that agrees with the inventory before on all packages under other names. Nothing on the path
finds out when it does not. -/
theorem incrementalPath_publishes_full_read_iff
    (fromSlice : List UInt8 → Except String JournalEntry) (p : Process)
    (hdb : w.files.db = .ok db)
    (hok : incrementalPath out fromSlice p w faults current names expected s planner =
      .ok (published, planner')) :
    db.Reads published.payload.inventory ↔
      ∃ full, db.Reads full ∧ SameOutside names s.inventory full := by
  unfold incrementalPath at hok
  rw [hdb] at hok
  generalize hreconcile : reconcileSelectedExpected fromSlice p out.lib.crates.sha256 (.ok db) faults
    names expected s w.cache = reconciled at hok
  obtain ⟨⟨result, s'⟩, cache⟩ := reconciled
  simp only [Except.bind_eq_ok, Except.mapError_eq_ok] at hok
  obtain ⟨⟨⟩, rfl, onto, honto, ⟨⟩, -, hok⟩ := hok
  cases Except.pure_eq_ok.mp hok
  obtain ⟨hsnapshot, -⟩ := reconciled_of_ok hreconcile
  obtain ⟨hnames, -⟩ := selectable_of_selectedSnapshot hsnapshot
  rw [inventory_of_published honto]
  constructor
  · intro hread
    refine ⟨_, hread, ?_⟩
    exact (Native.selectedSnapshot_eq_full_iff hnames (Native.reads_iff.mp hread) hsnapshot).mp rfl
  · rintro ⟨full, hread, hsame⟩
    have hfull := Native.selectedSnapshot_of_agree hnames (Native.reads_iff.mp hread) hsame
    obtain rfl : s'.inventory = full := by
      have heq := hsnapshot.symm.trans hfull
      simpa using heq
    exact hread

end

/-! ## Two transactions -/

section
variable {out : Outside} {w : World} {current : PlanningSnapshot} {names : List String}
  {expected : List Identity} {s : ExecutorInventory} {planner : ResidentPlanner} {db : Rpmdb}
  {inventory : InstalledInventory} {pool : ResidentPool}

/-- The comparison of the planner holds for whatever is in the cache. -/
theorem refreshAfterMutation_of_cached {source : String} {published : Sha256Digest}
    (hrun : ∀ operation, w.run operation = .ok ()) (hdb : w.files.db = .ok db)
    (hcookie : db.cookie ≠ "") (hcache : w.cache = some ⟨db.cookie, inventory⟩)
    (hcached : planner.cached = some pool) (hvalid : pool.integrity.validate = .ok ()) :
    (planner.refreshAfterMutation out w inventory source published.asStr).1 = .ok () := by
  have hread : w.readSnapshot .readRefreshed = .ok ⟨inventory, db.cookie⟩ := by
    rw [World.readSnapshot, hrun, Except.ok_bind, hdb, hcache, readSnapshot_of_reconciled hcookie]
    rfl
  have hadd : ∃ context, addInstalledRpmdb w pool.context = .ok context := by
    rw [addInstalledRpmdb, hrun, Except.ok_bind, hdb]
    exact ⟨_, rfl⟩
  obtain ⟨context, hadd⟩ := hadd
  have hintegrity := PlanIntegrity.new_asStr.mpr ⟨rfl, (show PlanIntegrity.validate
    ⟨pool.integrity.policySha256, pool.integrity.trustSha256,
      Planning.inventorySha256 out.lib.crates inventory, pool.integrity.metadataSha256, published,
      pool.integrity.selectedRepositories⟩ = .ok () from hvalid)⟩
  unfold ResidentPlanner.refreshAfterMutation
  rw [hcached]
  simp only
  split
  · rfl
  · have hpool : ∃ pool', ResidentPlanner.refreshedPool out w inventory published.asStr pool =
        .ok pool' := by
      rw [ResidentPlanner.refreshedPool, hadd, Except.ok_bind, hread, Except.ok_bind, Except.refuseIf,
        if_neg (by simp), Except.ok_bind, hintegrity]
      exact ⟨_, rfl⟩
    obtain ⟨pool', hpool⟩ := hpool
    rw [hpool]

/-- The path succeeds when the packages under the names are as expected. -/
theorem incrementalPath_of_selected {onto : PublishedOnto} {published : Sha256Digest}
    (fromSlice : List UInt8 → Except String JournalEntry) (p : Process)
    (hrun : ∀ operation, w.run operation = .ok ()) (hdb : w.files.db = .ok db)
    (hcookie : db.cookie ≠ "") (hstarted : s.state = .started) (hjournal : s.journal = none)
    (hselected : Native.selectedSnapshot (.ok db) s.inventory names = .ok ⟨inventory, db.cookie⟩)
    (hchanged : s.rpmdbCookie ≠ some db.cookie)
    (hexpected : (((inventory.packages.filter (·.name ∈ names)).map identity : List Identity) :
      Multiset Identity) = expected)
    (honto : publishInventoryOntoCurrentWithSource out.lib current inventory = .ok onto)
    (hpublished : onto.published = published.asStr) (hcached : planner.cached = some pool)
    (hvalid : pool.integrity.validate = .ok ()) :
    ∃ planner', incrementalPath out fromSlice p w [] current names expected s planner =
      .ok (onto.snapshot, planner') := by
  have hdecides := @decides_of_read fromSlice p out.lib.crates.sha256 s db inventory names expected []
    w.cache hstarted hselected
  have hok := hdecides.succeeds.mpr ⟨⟨hexpected, hchanged⟩, fun d hd => by
    rw [hjournal] at hd
    cases hd⟩
  have hinventory := hdecides.inventory hok
  generalize hreconcile : reconcileSelectedExpected fromSlice p out.lib.crates.sha256 (.ok db) []
    names expected s w.cache = reconciled at hok hinventory
  obtain ⟨⟨result, s'⟩, cache⟩ := reconciled
  cases hok
  cases hinventory
  obtain ⟨-, rfl⟩ := reconciled_of_ok hreconcile
  have hrefresh := @refreshAfterMutation_of_cached out { w with cache := some ⟨db.cookie, s'.inventory⟩ }
    planner db s'.inventory pool onto.source published hrun hdb hcookie rfl hcached hvalid
  unfold incrementalPath
  rw [hdb, hreconcile]
  simp only [Except.mapError_ok, Except.ok_bind, honto, hpublished]
  cases hresult : planner.refreshAfterMutation out { w with cache := some ⟨db.cookie, s'.inventory⟩ }
    s'.inventory onto.source published.asStr with
  | mk refreshed planner' =>
    rw [hresult] at hrefresh
    cases hrefresh
    exact ⟨planner', rfl⟩

end

/-! ### The installation of an application with its library -/

open Planning (soloLibrary soloRepository soloSnapshot)

/-- The document of a snapshot of the one repository. -/
def installedValue (inventory : InstalledInventory) : Json.Value :=
  .obj [("payload", .obj [("allowed_repositories", .arr [Planning.soloRepositoryValue]),
      ("configuration", .arr [Planning.soloConfigurationValue]), ("inventory", inventory.toValue),
      ("policy", Planning.soloPolicyValue)]),
    ("published_at_unix", .num 1), ("refreshed_repository_ids", .arr [.str "fedora"]),
    ("schema_version", .num 7)]

def installedLibrary : Planning.Library :=
  { soloLibrary with toVec := fun s => (installedValue s.payload.inventory).render }

theorem validate_installed (inventory : InstalledInventory) :
    (soloSnapshot inventory).validate installedLibrary.crates = .ok () := Planning.validate_new

theorem digest_installed (inventory : InstalledInventory) :
    (soloSnapshot inventory).digest installedLibrary =
      .ok (installedLibrary.crates.sha256 (installedValue inventory).render).asStr := by
  have hbytes : (soloSnapshot inventory).canonicalBytes installedLibrary =
    .ok (installedValue inventory).render :=
      Planning.canonicalBytes_eq_ok.mpr ⟨validate_installed inventory, rfl⟩
  rw [PlanningSnapshot.digest, hbytes]
  rfl

theorem exists_onto_installed (before after : InstalledInventory) : ∃ source published : Sha256Digest,
    publishInventoryOntoCurrentWithSource installedLibrary (soloSnapshot before) after =
      .ok ⟨source.asStr, published.asStr, soloSnapshot after⟩ := by
  have hwith : Planning.withInventory installedLibrary (soloSnapshot before) after =
      .ok (soloSnapshot after) :=
    Planning.withInventory_eq_ok.mpr ⟨validate_installed before,
      Planning.renewed_eq_ok.mpr ⟨rfl, validate_installed after⟩⟩
  refine ⟨installedLibrary.crates.sha256 (installedValue before).render,
    installedLibrary.crates.sha256 (installedValue after).render, ?_⟩
  rw [publishInventoryOntoCurrentWithSource, digest_installed, Except.ok_bind, hwith, Except.ok_bind,
    digest_installed]
  rfl

/-- The pool over the snapshot without packages. -/
def installedPool : ResidentPool where
  snapshot := soloSnapshot Solver.noPackages
  repositoryIds := []
  integrity := ⟨Planning.policySha256 soloLibrary.crates
      (soloSnapshot Solver.noPackages).payload.policy.solver, Core.zeroDigest,
    Planning.inventorySha256 soloLibrary.crates Solver.noPackages, Core.zeroDigest,
    installedLibrary.crates.sha256 (installedValue Solver.noPackages).render,
    [soloBinding soloLibrary.crates]⟩
  policy := (soloSnapshot Solver.noPackages).payload.policy.solver
  repositories := [soloRepository]
  moduleArtifactPolicy := []
  context := ⟨.x86_64, some (.rpmdb ⟨"before", ⟨"sqlite", "6.0", []⟩⟩), [soloRepository], [], true⟩
  inventory := Solver.noPackages
  rpmdbCookie := "before"
  rpmdbGeneration := none
  lastSolve := none

def installedPlanner : ResidentPlanner := ⟨some installedPool, some "before", none, []⟩

def installedWorld (db : Rpmdb) : World :=
  ⟨⟨.ok db, .ok none, fun _ => .ok none, .ok none⟩, .empty, none, 1, fun _ => false, noFault⟩

/-- The transaction also left a package that the plan does not name. -/
def withToolsRpmdb : Rpmdb where
  cookie := "after"
  inventory := ⟨"sqlite", "6.0", [installedRaw "lib" 2, installedRaw "tools" 3, installedRaw "app" 1]⟩

def withToolsInstalled : InstalledInventory where
  rpmdbBackend := "sqlite"
  rpmVersion := "6.0"
  packages := [installedNamed "app" 1 Core.app_ne_empty, installedNamed "lib" 2 Core.lib_ne_empty,
    installedNamed "tools" 3 (by decide)]
  backendNamed := Solver.noPackages.backendNamed
  versionNamed := Core.rpm6_ne_empty
  ordered := by decide +kernel
  instances := by decide

theorem withToolsRpmdb_reads : withToolsRpmdb.Reads withToolsInstalled := by
  have hpackages : withToolsRpmdb.inventory.packages.mapM Native.convertPackage =
      .ok [installedNamed "lib" 2 (by decide), installedNamed "tools" 3 (by decide),
        installedNamed "app" 1 (by decide)] := rfl
  have hnew := @InstalledInventory.new_of_perm withToolsInstalled
    [installedNamed "lib" 2 (by decide), installedNamed "tools" 3 (by decide),
      installedNamed "app" 1 (by decide)] (by decide +kernel)
  refine Native.reads_iff.mpr ⟨by decide, by decide, by decide, ?_⟩
  rw [Native.convert, hpackages, Except.ok_bind]
  exact congrArg (Except.mapError _) hnew

/-- The plan, with what it expects. -/
theorem exists_plan_appAndLib : ∃ plan expected,
    Solver.installBuilder.buildWithSatisfied Solver.appAndLib [] = .ok plan ∧
      expectedIncrementalIdentities plan ranExecutor.inventory = .ok expected ∧
      changedNames plan = ["app", "lib"] ∧
      (((appAndLibInstalled.packages.filter (·.name ∈ changedNames plan)).map identity :
        List Identity) : Multiset Identity) = expected := by
  have heval : (Solver.installBuilder.buildWithSatisfied Solver.appAndLib []).toOption.map
      (fun plan => (changedNames plan,
        decide (LeadsTo plan ranExecutor.inventory appAndLibInstalled))) =
          some (["app", "lib"], true) := by
    decide +kernel
  obtain ⟨plan, hplan, heq⟩ := Except.toOption_map_eq_some.mp heval
  obtain ⟨hnames, hleads⟩ := Prod.mk.inj heq
  obtain ⟨expected, hexpected, hmultiset⟩ := expectedIncrementalIdentities_of_built
    (Solver.buildWithSatisfied_eq_ok hplan) ranExecutor.inventory
  exact ⟨plan, expected, hplan, hexpected, hnames, (of_decide_eq_true hleads).trans hmultiset.symm⟩

/-- Both databases have the same packages under the names of the plan. -/
theorem selectedSnapshot_appAndLib : ∀ db ∈ [appAndLibRpmdb, withToolsRpmdb],
    Native.selectedSnapshot (.ok db) ranExecutor.inventory ["app", "lib"] =
      .ok ⟨appAndLibInstalled, "after"⟩ := by
  have hnames : Selectable ["app", "lib"] :=
    ⟨by decide, by decide, by decide, by decide, by decide⟩
  have hplain : Native.selectedSnapshot (.ok appAndLibRpmdb) ranExecutor.inventory ["app", "lib"] =
      .ok ⟨appAndLibInstalled, "after"⟩ :=
    Native.selectedSnapshot_of_agree hnames (Native.reads_iff.mp appAndLibRpmdb_reads)
      sameOutside_appAndLib
  have hsame : withToolsRpmdb.readSelected ["app", "lib"] =
    appAndLibRpmdb.readSelected ["app", "lib"] := rfl
  intro db hdb
  simp only [List.mem_cons, List.not_mem_nil, or_false] at hdb
  rcases hdb with rfl | rfl
  · exact hplain
  · rw [← hplain]
    simp only [Native.selectedSnapshot, Except.bind, hsame]

theorem incrementalPath_appAndLib {lib : Planning.Library} {current : PlanningSnapshot}
    {onto : PublishedOnto} {published : Sha256Digest} {planner : ResidentPlanner} {pool : ResidentPool}
    (honto : publishInventoryOntoCurrentWithSource lib current appAndLibInstalled = .ok onto)
    (hpublished : onto.published = published.asStr) (hcached : planner.cached = some pool)
    (hvalid : pool.integrity.validate = .ok ()) : ∃ plan expected,
    Solver.installBuilder.buildWithSatisfied Solver.appAndLib [] = .ok plan ∧
      expectedIncrementalIdentities plan ranExecutor.inventory = .ok expected ∧
      changedNames plan = ["app", "lib"] ∧ ∀ db ∈ [appAndLibRpmdb, withToolsRpmdb], ∃ planner',
        incrementalPath (plainOutside lib) (fun _ => .error "") ⟨7, 0⟩ (installedWorld db) [] current
          (changedNames plan) expected ranExecutor planner = .ok (onto.snapshot, planner') := by
  obtain ⟨plan, expected, hplan, hexpected, hnames, hmultiset⟩ := exists_plan_appAndLib
  refine ⟨plan, expected, hplan, hexpected, hnames, fun db hdb => ?_⟩
  have hcookie : db.cookie = "after" := by
    simp only [List.mem_cons, List.not_mem_nil, or_false] at hdb
    rcases hdb with rfl | rfl <;> rfl
  have hselected := selectedSnapshot_appAndLib db hdb
  rw [← hcookie, ← hnames] at hselected
  have hnonempty : db.cookie ≠ "" := by
    rw [hcookie]
    decide
  have hchanged : ranExecutor.rpmdbCookie ≠ some db.cookie := by
    rw [hcookie]
    decide
  exact incrementalPath_of_selected (fun _ => .error "") ⟨7, 0⟩ (fun _ => rfl) rfl hnonempty rfl rfl
    hselected hchanged hmultiset honto hpublished hcached hvalid

theorem validate_installedPool : installedPool.integrity.validate = .ok () := by
  have hselected : installedPool.integrity.selectedRepositories = [soloBinding soloLibrary.crates] := rfl
  rw [PlanIntegrity.validate, hselected]
  simp [Except.refuseIf]

/-- The database after the installation is published. -/
theorem incrementalPath_publishes_appAndLib : ∃ plan expected published planner',
    Solver.installBuilder.buildWithSatisfied Solver.appAndLib [] = .ok plan ∧
      expectedIncrementalIdentities plan ranExecutor.inventory = .ok expected ∧
      incrementalPath (plainOutside installedLibrary) (fun _ => .error "") ⟨7, 0⟩
        (installedWorld appAndLibRpmdb) [] (soloSnapshot Solver.noPackages) (changedNames plan)
        expected ranExecutor installedPlanner = .ok (published, planner') ∧
      appAndLibRpmdb.Reads published.payload.inventory := by
  obtain ⟨source, published, honto⟩ := exists_onto_installed Solver.noPackages appAndLibInstalled
  obtain ⟨plan, expected, hplan, hexpected, hnames, hpath⟩ :=
    @incrementalPath_appAndLib _ _ _ published installedPlanner _ honto rfl rfl validate_installedPool
  obtain ⟨planner', hpath⟩ := hpath appAndLibRpmdb (by simp)
  refine ⟨plan, expected, _, planner', hplan, hexpected, hpath, ?_⟩
  refine (incrementalPath_publishes_full_read_iff _ _ rfl hpath).mpr ⟨_, appAndLibRpmdb_reads, ?_⟩
  rw [hnames]
  exact sameOutside_appAndLib

/-- A package that the plan does not name is in the database and not in what is published, and the
path succeeds. -/
theorem incrementalPath_misses_tools : ∃ plan expected published planner',
    Solver.installBuilder.buildWithSatisfied Solver.appAndLib [] = .ok plan ∧
      expectedIncrementalIdentities plan ranExecutor.inventory = .ok expected ∧
      incrementalPath (plainOutside installedLibrary) (fun _ => .error "") ⟨7, 0⟩
        (installedWorld withToolsRpmdb) [] (soloSnapshot Solver.noPackages) (changedNames plan)
        expected ranExecutor installedPlanner = .ok (published, planner') ∧
      ∃ full, withToolsRpmdb.Reads full ∧ published.payload.inventory ≠ full := by
  obtain ⟨source, published, honto⟩ := exists_onto_installed Solver.noPackages appAndLibInstalled
  obtain ⟨plan, expected, hplan, hexpected, -, hpath⟩ :=
    @incrementalPath_appAndLib _ _ _ published installedPlanner _ honto rfl rfl validate_installedPool
  obtain ⟨planner', hpath⟩ := hpath withToolsRpmdb (by simp)
  refine ⟨plan, expected, _, planner', hplan, hexpected, hpath, _, withToolsRpmdb_reads, ?_⟩
  intro heq
  have hlength := congrArg (fun i : InstalledInventory => i.packages.length) heq
  cases hlength

end Dnfast.Executor
