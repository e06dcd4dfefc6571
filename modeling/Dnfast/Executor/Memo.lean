import Dnfast.Executor.Published
import Dnfast.Executor.Solving

/-! # A plan from the resident pool is the plan of a new planner

`dnfast-executor`, `resident.rs`: `solve` answers from the pool that it keeps, from the last plan of
that pool, or from a pool that a transaction patched. -/

namespace Dnfast.Executor

open Core (Action InstalledInventory PlanIntegrity TransactionIntent)
open Native (InventorySnapshot Rpmdb)
open Planning (PlanningRepository PlanningSnapshot)
open Solver (CanonicalSolverPlan)

/-! ## What the planner relies on -/

/-- What a planner may rely on in all the worlds that it meets. Digests identify planning snapshots and
inventories, among those that occur, and a cookie identifies the database and the inventory that is
read for it. -/
structure Evidence (out : Outside) where
  snapshots : Set PlanningSnapshot
  inventories : Set InstalledInventory
  content : String → Rpmdb × InstalledInventory
  snapshot_of_digest : ∀ s ∈ snapshots, ∀ s' ∈ snapshots, ∀ digest, s.digest out.lib = .ok digest →
    s'.digest out.lib = .ok digest → s = s'
  inventory_of_digest : Set.InjOn (Planning.inventorySha256 out.lib.crates) inventories

/-- A world that the evidence is about. The clock counts seconds in 63 bits. -/
structure Evidence.Covers {out : Outside} (e : Evidence out) (w : World) : Prop where
  opened : ∀ s, Planning.openSnapshot out.lib w.store = .ok s → s ∈ e.snapshots
  read : ∀ found, (Native.readSnapshotFromContext w.files.db w.cache).1 = .ok found →
    w.files.db = .ok (e.content found.rpmdbCookie).1 ∧
      found.inventory = (e.content found.rpmdbCookie).2 ∧ found.inventory ∈ e.inventories
  clock : w.now.toNat < 2 ^ 63

/-- The calls after startup. What is handed over after a transaction is what was published. -/
def Evidence.Requests {out : Outside} (e : Evidence out) : PlannerCall → Prop
  | .verifyStartup _ => False
  | .warm _ => True
  | .solve _ _ _ => True
  | .refreshAfterMutation inventory source published =>
    inventory ∈ e.inventories ∧ ∃ current ∈ e.snapshots, ∃ onto,
      publishInventoryOntoCurrentWithSource out.lib current inventory = .ok onto ∧
        onto.source = source ∧ onto.published = published ∧ onto.snapshot ∈ e.snapshots

/-- A transaction that patches the pool started from a snapshot of the current schema. -/
def PatchesCurrentSchema {out : Outside} (e : Evidence out) (s : ResidentPlanner) : PlannerCall → Prop
  | .refreshAfterMutation _ source _ => ∀ pool, s.cached = some pool →
      pool.integrity.planningSnapshotSha256.asStr = source →
      ∀ current ∈ e.snapshots, current.digest out.lib = .ok source →
        current.schemaVersion = Planning.snapshotSchemaVersion
  | _ => True

/-- All calls of the run meet the condition. -/
def PatchesCurrentSchemaRun {out : Outside} (e : Evidence out) (s : ResidentPlanner) :
    List (World × PlannerCall) → Prop
  | [] => True
  | (w, call) :: history => PatchesCurrentSchema e s call ∧
      PatchesCurrentSchemaRun e (s.apply out w call) history

/-! ## The pool -/

/-- The pool is one over the snapshot and over the database that its cookie identifies. -/
structure PoolOf {out : Outside} (e : Evidence out) (snapshot : PlanningSnapshot)
    (pool : ResidentPool) : Prop where
  known : snapshot ∈ e.snapshots
  integrity : Planning.integrityForRepositories out.lib snapshot pool.repositoryIds = .ok pool.integrity
  policy : pool.policy = snapshot.payload.policy.solver
  selected : selectedRepositories snapshot pool.integrity = .ok pool.repositories
  modules : moduleArtifactPolicy out snapshot pool.repositoryIds = .ok pool.moduleArtifactPolicy
  context : pool.context = ⟨pool.policy.baseArch, some (.rpmdb (e.content pool.rpmdbCookie).1),
    pool.repositories, (pool.moduleArtifactPolicy.filter (·.2)).map (·.1), true⟩
  inventory : pool.inventory = (e.content pool.rpmdbCookie).2
  published : Planning.inventorySha256 out.lib.crates pool.inventory =
    Planning.inventorySha256 out.lib.crates snapshot.payload.inventory
  generation : pool.rpmdbGeneration = none
  narrow : ∀ r ∈ pool.repositories, r.priority.toNat < 2 ^ 31 ∧ r.cost.toNat < 2 ^ 31
  remembered : ∀ entry, pool.lastSolve = some entry → ∃ intent now,
    intent.action = entry.action ∧ intent.packages.map (·.asStr) = entry.packages ∧
      solveOn out pool intent now none = .ok entry.plan

/-- The planner has no startup state, and its pool is one of some snapshot. -/
structure MemoInv {out : Outside} (e : Evidence out) (s : ResidentPlanner) : Prop where
  pending : s.pendingInstalled = none
  pool : ∀ pool, s.cached = some pool → ∃ snapshot, PoolOf e snapshot pool

section
variable {out : Outside} {e : Evidence out} {w : World} {snapshot snapshot' : PlanningSnapshot}
  {pool pool' : ResidentPool} {ids : List String}

theorem intent_of_texts {intent intent' : TransactionIntent} (haction : intent.action = intent'.action)
    (hpackages : intent.packages.map (·.asStr) = intent'.packages.map (·.asStr)) :
    intent = intent' := by
  have hinjective : Function.Injective Core.PackageSpec.asStr := fun _ _ => Core.PackageSpec.ext
  have heq := hinjective.list_map hpackages
  cases intent
  cases intent'
  cases haction
  cases heq
  rfl

theorem foundById_of_selected {integrity : PlanIntegrity} {repositories : List PlanningRepository}
    (h : selectedRepositories snapshot integrity = .ok repositories) : FoundById repositories := by
  have hfound : ∀ r ∈ repositories,
      snapshot.payload.allowedRepositories.find? (·.id = r.id) = some r := by
    intro r hr
    obtain ⟨binding, -, hbinding⟩ := (Except.mapM_eq_ok.mp h).exists_left hr
    have hfind := Except.okOr_eq_ok.mp hbinding
    have hid : r.id = binding.id := by simpa using List.find?_some hfind
    rw [hid, hfind]
  intro r hr
  cases hfirst : repositories.find? (·.id = r.id) with
  | none =>
    have hno := List.find?_eq_none.mp hfirst r hr
    simp at hno
  | some r' =>
    have hid : r'.id = r.id := by simpa using List.find?_some hfirst
    have hr' := hfound r' (List.mem_of_find?_eq_some hfirst)
    rw [hid, hfound r hr] at hr'
    exact hr'.symm

theorem digest_of_integrity {integrity : PlanIntegrity}
    (h : Planning.integrityForRepositories out.lib snapshot ids = .ok integrity) :
    snapshot.digest out.lib = .ok integrity.planningSnapshotSha256.asStr := by
  obtain ⟨b⟩ := Planning.integrityForRepositories_eq_ok.mp h
  have hsha : integrity.planningSnapshotSha256 = out.lib.crates.sha256 b.bytes :=
    congrArg (·.planningSnapshotSha256) b.record
  rw [PlanningSnapshot.digest, b.encodes, hsha]
  rfl

theorem digest_of_openSnapshot {store : Planning.Store} {digest : String}
    (hopen : Planning.openSnapshot out.lib store = .ok snapshot)
    (hdigest : Planning.currentDigest store = .ok digest) : snapshot.digest out.lib = .ok digest := by
  obtain ⟨name, bytes, hpoints, -, hdecodes, hname⟩ := Planning.openSnapshot_eq_ok.mp hopen
  obtain rfl := hpoints.unique (Planning.currentDigest_eq_ok.mp hdigest)
  rw [hdecodes.digest, hname]

namespace PoolOf

theorem digest (h : PoolOf e snapshot pool) :
    snapshot.digest out.lib = .ok pool.integrity.planningSnapshotSha256.asStr :=
  digest_of_integrity h.integrity

theorem foundById (h : PoolOf e snapshot pool) : FoundById pool.repositories :=
  foundById_of_selected h.selected

/-- The digest of a pool identifies its snapshot. -/
theorem unique (h : PoolOf e snapshot pool) (hknown : snapshot' ∈ e.snapshots)
    (hdigest : snapshot'.digest out.lib = .ok pool.integrity.planningSnapshotSha256.asStr) :
    snapshot' = snapshot :=
  e.snapshot_of_digest _ hknown _ h.known _ hdigest h.digest

/-- Pools of one snapshot, one selection and one cookie are the same for a request. -/
theorem sameView (h : PoolOf e snapshot pool) (h' : PoolOf e snapshot pool')
    (hids : pool.repositoryIds = pool'.repositoryIds) (hcookie : pool.rpmdbCookie = pool'.rpmdbCookie) :
    SameView pool pool' := by
  have hintegrity : pool.integrity = pool'.integrity :=
    Except.ok.inj (h.integrity.symm.trans (hids ▸ h'.integrity))
  have hrepositories : pool.repositories = pool'.repositories :=
    Except.ok.inj (h.selected.symm.trans (hintegrity ▸ h'.selected))
  have hmodules : pool.moduleArtifactPolicy = pool'.moduleArtifactPolicy :=
    Except.ok.inj (h.modules.symm.trans (hids ▸ h'.modules))
  have hpolicy : pool.policy = pool'.policy := h.policy.trans h'.policy.symm
  refine ⟨hintegrity, hpolicy, hrepositories, hmodules, ?_, ?_⟩
  · rw [h.context, h'.context, hpolicy, hcookie, hrepositories, hmodules]
  · rw [h.inventory, h'.inventory, hcookie]

/-- The plan that the pool remembers for a request is one for it. -/
theorem solved_of_remembered (h : PoolOf e snapshot pool) {intent : TransactionIntent} {now : UInt64}
    {plan : CanonicalSolverPlan}
    (hplan : pool.remembered intent.action (intent.packages.map (·.asStr)) now = some plan) :
    plan.proposal.expiresAtUnix > now ∧
      ∃ earlier, solveOn out pool intent earlier none = .ok plan := by
  obtain ⟨entry, hentry, rfl⟩ := Option.map_eq_some_iff.mp hplan
  obtain ⟨hlast, hfor⟩ := Option.filter_eq_some_iff.mp hentry
  simp only [decide_eq_true_eq] at hfor
  obtain ⟨haction, hpackages, hexpires⟩ := hfor
  obtain ⟨intent', earlier, haction', hpackages', hsolved⟩ := h.remembered entry hlast
  obtain rfl : intent = intent' := intent_of_texts (haction.symm.trans haction'.symm)
    (hpackages.symm.trans hpackages'.symm)
  exact ⟨hexpires, earlier, hsolved⟩

end PoolOf

/-! ## Building -/

theorem foldlM_loadRepository_eq_ok {repositories : List PlanningRepository}
    {context context' : NativeContext}
    (h : repositories.foldlM (fun context r => loadRepository w r context) context = .ok context') :
    context' = { context with repositories := context.repositories ++ repositories } ∧
      ∀ r ∈ repositories, r.priority.toNat < 2 ^ 31 ∧ r.cost.toNat < 2 ^ 31 := by
  induction repositories generalizing context with
  | nil =>
    cases Except.pure_eq_ok.mp h
    simp
  | cons r repositories ih =>
    rw [List.foldlM_cons] at h
    obtain ⟨loaded, hload, h⟩ := Except.bind_eq_ok.mp h
    rw [loadRepository, Except.check_bind_eq_ok, Except.refuseIf_eq_ok, not_or,
      Except.check_bind_eq_ok] at hload
    obtain ⟨⟨hpriority, hcost⟩, -, hload⟩ := hload
    cases Except.pure_eq_ok.mp hload
    obtain ⟨rfl, hrest⟩ := ih h
    refine ⟨by simp, List.forall_mem_cons.mpr ⟨by omega, hrest⟩⟩

/-- What is read in the world, whatever may fail. -/
def Reads (w : World) (found : InventorySnapshot) : Prop :=
  (Native.readSnapshotFromContext w.files.db w.cache).1 = .ok found

theorem reads_of_readSnapshot {operation : External} {found : InventorySnapshot}
    (h : w.readSnapshot operation = .ok found) : Reads w found := by
  rw [World.readSnapshot, Except.check_bind_eq_ok, Except.mapError_eq_ok] at h
  exact h.2

theorem Reads.unique {found found' : InventorySnapshot} (h : Reads w found) (h' : Reads w found') :
    found = found' := Except.ok.inj (h.symm.trans h')

theorem openPool_none_eq_ok {architecture : Core.Architecture} {o : Opened} (hw : e.Covers w)
    (h : openPool out w architecture none = .ok o) :
    Reads w o.current ∧ o.generation = none ∧ o.context =
      { NativeContext.open architecture with
        installed := some (.rpmdb (e.content o.current.rpmdbCookie).1) } := by
  rw [openPool] at h
  obtain ⟨⟨context, found⟩, hopened, h⟩ := Except.bind_eq_ok.mp h
  cases Except.pure_eq_ok.mp h
  rw [openInstalledContext, Except.check_bind_eq_ok] at hopened
  obtain ⟨-, hopened⟩ := hopened
  obtain ⟨context', hcontext, hopened⟩ := Except.bind_eq_ok.mp hopened
  obtain ⟨found', hread, hopened⟩ := Except.bind_eq_ok.mp hopened
  cases Except.pure_eq_ok.mp hopened
  have hreads := reads_of_readSnapshot hread
  rw [addInstalledRpmdb, Except.check_bind_eq_ok] at hcontext
  obtain ⟨-, hcontext⟩ := hcontext
  obtain ⟨db, hdb, hcontext⟩ := Except.bind_eq_ok.mp hcontext
  cases Except.pure_eq_ok.mp hcontext
  have hcontent := (hw.read found hreads).1
  rw [Except.mapError_eq_ok, hcontent] at hdb
  cases hdb
  exact ⟨hreads, rfl, rfl⟩

theorem reads_of_verify {o : Opened} {cookie : Option String} {current : InventorySnapshot}
    (h : o.verify out w cookie = .ok current) (hreads : Reads w o.current) : Reads w current := by
  unfold Opened.verify at h
  split at h
  · rw [verifyRpmdbUnchanged, Except.check_bind_eq_ok] at h
    obtain ⟨after, hafter, h⟩ := Except.bind_eq_ok.mp h.2
    rw [Except.check_bind_eq_ok] at h
    cases Except.pure_eq_ok.mp h.2
    exact reads_of_readSnapshot hafter
  · cases h
    exact hreads

/-- A build without a startup state gives a pool of the snapshot. -/
theorem poolOf_of_buildPool {integrity : PlanIntegrity} {cookie : Option String} (hw : e.Covers w)
    (hopen : Planning.openSnapshot out.lib w.store = .ok snapshot)
    (hintegrity : Planning.integrityForRepositories out.lib snapshot ids = .ok integrity)
    (h : buildPool out w snapshot ids integrity cookie none = .ok pool) :
    PoolOf e snapshot pool ∧ pool.repositoryIds = ids ∧
      ∃ found, Reads w found ∧ found.rpmdbCookie = pool.rpmdbCookie := by
  obtain ⟨o, hopened, h⟩ := Except.bind_eq_ok.mp h
  obtain ⟨current, hverify, h⟩ := Except.bind_eq_ok.mp h
  obtain ⟨hreads, hgeneration, hcontext⟩ := openPool_none_eq_ok hw hopened
  have hcurrent := reads_of_verify hverify hreads
  obtain rfl := hreads.unique hcurrent
  obtain ⟨-, hinventory, -⟩ := hw.read _ hcurrent
  rw [fillPool, Except.check_bind_eq_ok, Except.refuseIf_eq_ok, not_not] at h
  obtain ⟨hpublished, h⟩ := h
  obtain ⟨selected, hselected, h⟩ := Except.bind_eq_ok.mp h
  obtain ⟨policies, hpolicies, h⟩ := Except.bind_eq_ok.mp h
  rw [Except.check_bind_eq_ok] at h
  obtain ⟨loaded, hloaded, h⟩ := Except.bind_eq_ok.mp h.2
  simp only [Except.check_bind_eq_ok] at h
  obtain ⟨-, -, h⟩ := h
  cases Except.pure_eq_ok.mp h
  obtain ⟨rfl, hnarrow⟩ := foldlM_loadRepository_eq_ok hloaded
  refine ⟨⟨hw.opened _ hopen, hintegrity, rfl, hselected, hpolicies, ?_, hinventory, hpublished,
    hgeneration, hnarrow, fun _ hno => ?_⟩, rfl, _, hcurrent, rfl⟩
  · rw [hcontext]
    rfl
  · cases hno

/-! ## Requests -/

/-- The pool is current in the world, and for the repositories. -/
structure Ready (e : Evidence out) (w : World) (repositories : List String) (snapshot : PlanningSnapshot)
    (pool : ResidentPool) : Prop where
  poolOf : PoolOf e snapshot pool
  ids : pool.repositoryIds = repositories
  reads : ∃ found, Reads w found ∧ found.rpmdbCookie = pool.rpmdbCookie
  current : ∀ s, Planning.openSnapshot out.lib w.store = .ok s → s = snapshot

variable {s : ResidentPlanner} {repositories : List String}

theorem MemoInv.new : MemoInv e .new := ⟨rfl, fun _ h => by cases h⟩

theorem MemoInv.rebuild (h : MemoInv e s) (hw : e.Covers w) :
    MemoInv e (s.rebuild out w repositories).2 ∧ ((s.rebuild out w repositories).1 = .ok () →
      ∃ snapshot pool, (s.rebuild out w repositories).2.cached = some pool ∧
        Ready e w repositories snapshot pool ∧ Planning.openSnapshot out.lib w.store = .ok snapshot) := by
  unfold ResidentPlanner.rebuild
  simp only
  split
  · exact ⟨h, fun hno => by cases hno⟩
  · next snapshot integrity hbound =>
    obtain ⟨_, hopen, hbound⟩ := Except.bind_eq_ok.mp hbound
    obtain ⟨_, hintegrity, hbound⟩ := Except.bind_eq_ok.mp hbound
    cases Except.pure_eq_ok.mp hbound
    rw [openSystem, Except.check_bind_eq_ok, Except.mapError_eq_ok] at hopen
    rw [Except.mapError_eq_ok] at hintegrity
    split
    · exact ⟨⟨rfl, h.pool⟩, fun hno => by cases hno⟩
    · next pool hbuild =>
      rw [h.pending] at hbuild
      obtain ⟨hpool, hids, hreads⟩ := poolOf_of_buildPool hw hopen.2 hintegrity hbuild
      refine ⟨⟨rfl, ?_⟩, fun _ => ⟨snapshot, pool, rfl, ⟨hpool, hids, hreads, ?_⟩, hopen.2⟩⟩
      · rintro _ ⟨⟩
        exact ⟨snapshot, hpool⟩
      · intro found hfound
        exact Except.ok.inj (hfound.symm.trans hopen.2)

theorem MemoInv.ensure (h : MemoInv e s) (hw : e.Covers w) :
    MemoInv e (s.ensure out w repositories).2 ∧ ((s.ensure out w repositories).1 = .ok () →
      ∃ snapshot pool, (s.ensure out w repositories).2.cached = some pool ∧
        Ready e w repositories snapshot pool ∧
        (s.cached = none → Planning.openSnapshot out.lib w.store = .ok snapshot)) := by
  have hrebuild : ∀ s' : ResidentPlanner, MemoInv e s' → MemoInv e (s'.rebuild out w repositories).2 ∧
      ((s'.rebuild out w repositories).1 = .ok () → ∃ snapshot pool,
        (s'.rebuild out w repositories).2.cached = some pool ∧
          Ready e w repositories snapshot pool ∧
          (s.cached = none → Planning.openSnapshot out.lib w.store = .ok snapshot)) := by
    intro s' h'
    obtain ⟨hinv, hok⟩ := h'.rebuild hw
    refine ⟨hinv, fun hresult => ?_⟩
    obtain ⟨snapshot, pool, hcached, hready, hopen⟩ := hok hresult
    exact ⟨snapshot, pool, hcached, hready, fun _ => hopen⟩
  unfold ResidentPlanner.ensure
  split
  · exact ⟨h, fun hno => by cases hno⟩
  · next hfresh =>
    refine ⟨⟨h.pending, h.pool⟩, fun _ => ?_⟩
    obtain ⟨digest, hdigest, hfresh⟩ := Except.bind_eq_ok.mp hfresh
    rw [currentSystemDigest, Except.check_bind_eq_ok, Except.mapError_eq_ok] at hdigest
    cases hcached : s.cached with
    | none =>
      rw [hcached] at hfresh
      cases hfresh
    | some pool =>
      obtain ⟨snapshot, hpool⟩ := h.pool pool hcached
      rw [hcached, freshness] at hfresh
      simp only [hpool.generation] at hfresh
      split at hfresh
      · next hsame =>
        obtain ⟨hids, hsame⟩ := hsame
        obtain ⟨found, hread, hfresh⟩ := Except.bind_eq_ok.mp hfresh
        have hcookie : pool.rpmdbCookie = found.rpmdbCookie := by
          by_contra hno
          rw [if_neg hno] at hfresh
          cases hfresh
        refine ⟨snapshot, pool, hcached, ⟨hpool, hids, ⟨found, reads_of_readSnapshot hread,
          hcookie.symm⟩, fun opened hopened => ?_⟩, fun hno => by cases hno⟩
        have hopenedDigest := digest_of_openSnapshot hopened hdigest.2
        rw [← hsame] at hopenedDigest
        exact hpool.unique (hw.opened opened hopened) hopenedDigest
      · cases hfresh
  · exact hrebuild s h
  · exact hrebuild _ ⟨h.pending, h.pool⟩

/-- What the prefetch of a request has read. -/
theorem prefetchFor_of_ready {pool : ResidentPool} {names : List String}
    (hready : Ready e w repositories snapshot pool) :
    PrefetchFor out pool names (prefetchFileSelectors out w names repositories) := by
  intro prefetched h _
  rw [prefetchFileSelectors, Except.check_bind_eq_ok] at h
  obtain ⟨opened, hopened, h⟩ := Except.bind_eq_ok.mp h.2
  obtain ⟨digest, -, h⟩ := Except.bind_eq_ok.mp h
  obtain ⟨integrity, hintegrity, h⟩ := Except.bind_eq_ok.mp h
  obtain ⟨selected, hselected, h⟩ := Except.bind_eq_ok.mp h
  obtain ⟨selectors, hselectors, h⟩ := Except.bind_eq_ok.mp h
  cases Except.pure_eq_ok.mp h
  rw [Except.mapError_eq_ok] at hopened hintegrity
  obtain rfl := hready.current opened hopened
  rw [← hready.ids] at hintegrity
  obtain rfl := Except.ok.inj (hintegrity.symm.trans hready.poolOf.integrity)
  obtain rfl := Except.ok.inj (hselected.symm.trans hready.poolOf.selected)
  exact hselectors

theorem lt_saturatingAdd {now : UInt64} (h : now.toNat < 2 ^ 63) :
    now < saturatingAdd now planLifetimeSeconds := by
  rw [UInt64.lt_iff_toNat_lt, saturatingAdd, UInt64.toNat_ofNat_of_lt' (by simp [UInt64.size]),
    planLifetimeSeconds]
  omega

variable {intent : TransactionIntent} {solved : SolvedPlan}
  {prefetch : Option (Except DaemonError PrefetchedFileSelectors)}

/-- What is returned from a pool that is ready. -/
theorem MemoInv.solveCached (h : MemoInv e s) (hw : e.Covers w) (hcached : s.cached = some pool)
    (hready : Ready e w repositories snapshot pool)
    (hfor : ∀ p, prefetch = some p → PrefetchFor out pool (intent.packages.map (·.asStr)) p) :
    MemoInv e (s.solveCached out w intent prefetch).2 ∧
      ∀ solved, (s.solveCached out w intent prefetch).1 = .ok solved → ∃ plan earlier,
        solved = pool.solved plan ∧ w.now < plan.proposal.expiresAtUnix ∧
          solveOn out pool intent earlier none = .ok plan := by
  unfold ResidentPlanner.solveCached
  rw [hcached]
  simp only
  split
  · next plan hplan =>
    refine ⟨h, ?_⟩
    rintro _ ⟨⟩
    obtain ⟨hexpires, earlier, hsolved⟩ := hready.poolOf.solved_of_remembered hplan
    exact ⟨plan, earlier, rfl, hexpires, hsolved⟩
  · split
    · refine ⟨h, ?_⟩
      rintro _ ⟨⟩
    · next plan hplan =>
      have hnone := solveOn_of_prefetch hready.poolOf.foundById hfor hplan
      constructor
      · refine ⟨h.pending, ?_⟩
        rintro _ ⟨⟩
        refine ⟨snapshot, { hready.poolOf with remembered := ?_ }⟩
        rintro _ ⟨⟩
        exact ⟨intent, w.now, rfl, rfl, hnone⟩
      · rintro _ ⟨⟩
        refine ⟨plan, w.now, rfl, ?_, hnone⟩
        rw [(proposal_of_solveOn hplan).2.2]
        exact lt_saturatingAdd hw.clock

variable {action : Action} {packages : List String}

/-- What `solve` returns is a plan of a pool that is ready. -/
theorem MemoInv.solve (h : MemoInv e s) (hw : e.Covers w) :
    MemoInv e (s.solve out w action packages repositories).2 ∧
      ∀ solved, (s.solve out w action packages repositories).1 = .ok solved →
        ∃ intent snapshot pool plan earlier, intentOf action packages = .ok intent ∧
          Ready e w repositories snapshot pool ∧
          (s.cached = none → Planning.openSnapshot out.lib w.store = .ok snapshot) ∧
          solved = pool.solved plan ∧ w.now < plan.proposal.expiresAtUnix ∧
          solveOn out pool intent earlier none = .ok plan := by
  unfold ResidentPlanner.solve
  cases hintent : intentOf action packages with
  | error error => exact ⟨h, fun _ hno => by cases hno⟩
  | ok intent =>
    simp only
    obtain ⟨hinv, hok⟩ := @MemoInv.ensure out e w s repositories h hw
    cases hensure : s.ensure out w repositories with
    | mk result s' =>
      rw [hensure] at hinv hok
      cases result with
      | error error => exact ⟨hinv, fun _ hno => by cases hno⟩
      | ok u =>
        obtain ⟨snapshot, pool, hcached, hready, hopen⟩ := hok rfl
        generalize hprefetch : (if s.cached.isNone ∧ (intent.packages.map (·.asStr)).any isAbsolute
          then some (prefetchFileSelectors out w (intent.packages.map (·.asStr)) repositories)
          else none) = prefetch
        have hfor : ∀ p, prefetch = some p →
            PrefetchFor out pool (intent.packages.map (·.asStr)) p := by
          rintro p rfl
          split at hprefetch
          · cases hprefetch
            exact prefetchFor_of_ready hready
          · cases hprefetch
        obtain ⟨hinv, hsolve⟩ := hinv.solveCached hw hcached hready hfor
        refine ⟨hinv, fun solved hsolved => ?_⟩
        obtain ⟨plan, earlier, heq, hexpires, hplan⟩ := hsolve solved hsolved
        exact ⟨intent, snapshot, pool, plan, earlier, rfl, hready, hopen, heq, hexpires, hplan⟩

/-! ## After a transaction -/

/-- What is published onto a snapshot. -/
theorem snapshot_of_onto {current : PlanningSnapshot} {inventory : InstalledInventory}
    {onto : PublishedOnto}
    (h : publishInventoryOntoCurrentWithSource out.lib current inventory = .ok onto) :
    current.digest out.lib = .ok onto.source ∧ onto.snapshot.digest out.lib = .ok onto.published ∧
      onto.snapshot.validate out.lib.crates = .ok () ∧
      onto.snapshot = ⟨Planning.snapshotSchemaVersion, current.publishedAtUnix,
        current.refreshedRepositoryIds, { current.payload with inventory }⟩ := by
  obtain ⟨source, hsource, h⟩ := Except.bind_eq_ok.mp h
  obtain ⟨snapshot, hsnapshot, h⟩ := Except.bind_eq_ok.mp h
  obtain ⟨published, hpublished, h⟩ := Except.bind_eq_ok.mp h
  cases Except.pure_eq_ok.mp h
  obtain ⟨heq, hvalid⟩ := Planning.renewed_eq_ok.mp (Planning.withInventory_eq_ok.mp hsnapshot).2
  exact ⟨hsource, hpublished, hvalid, heq⟩

/-- Over a snapshot of the current schema, the record of the published snapshot is the old one with
the new inventory and the new digest. -/
theorem integrity_of_onto {current : PlanningSnapshot} {inventory : InstalledInventory}
    {onto : PublishedOnto} {integrity integrity' : PlanIntegrity}
    (hschema : current.schemaVersion = Planning.snapshotSchemaVersion)
    (honto : publishInventoryOntoCurrentWithSource out.lib current inventory = .ok onto)
    (h : Planning.integrityForRepositories out.lib current ids = .ok integrity)
    (hnew : PlanIntegrity.new integrity.policySha256.asStr integrity.trustSha256.asStr
      (Planning.inventorySha256 out.lib.crates inventory).asStr integrity.metadataSha256.asStr
      onto.published integrity.selectedRepositories = .ok integrity') :
    Planning.integrityForRepositories out.lib onto.snapshot ids = .ok integrity' := by
  obtain ⟨-, hdigest, hvalid, heq⟩ := snapshot_of_onto honto
  obtain ⟨b⟩ := Planning.integrityForRepositories_eq_ok.mp h
  obtain ⟨bytes, hbytes, hdigest⟩ := Except.bind_eq_ok.mp hdigest
  rw [Except.pure_eq_ok] at hdigest
  rw [← hdigest] at hnew
  obtain ⟨hrecord, hcanonical⟩ := PlanIntegrity.new_asStr.mp hnew
  have hselects : onto.snapshot.selectedRepositories ids = .ok b.selected := by
    rw [heq]
    exact b.selects
  have hdescribes : Planning.metadataInput out.lib.crates onto.snapshot.schemaVersion b.selected =
      .ok b.metadata := by
    rw [heq]
    exact hschema ▸ b.describes
  refine Planning.integrityForRepositories_eq_ok.mpr ⟨⟨b.selected, bytes, b.metadata, b.trust,
    b.bindings, hvalid, hselects, hbytes, hdescribes, b.trusts, b.binds, ?_, hcanonical⟩⟩
  have hold := b.record
  rw [hrecord, heq]
  simp only [hold]

theorem MemoInv.refreshAfterMutation {inventory : InstalledInventory} {source published : String}
    (h : MemoInv e s) (hw : e.Covers w)
    (hcall : e.Requests (.refreshAfterMutation inventory source published))
    (hschema : PatchesCurrentSchema e s (.refreshAfterMutation inventory source published)) :
    MemoInv e (s.refreshAfterMutation out w inventory source published).2 := by
  have hinvalid : MemoInv e s.invalidate := ⟨rfl, fun _ hno => by cases hno⟩
  unfold ResidentPlanner.refreshAfterMutation
  cases hcached : s.cached with
  | none => exact hinvalid
  | some pool =>
    simp only
    split
    · exact hinvalid
    · next hsame =>
      rw [not_not] at hsame
      split
      · exact hinvalid
      · next pool' hpool' =>
        refine ⟨h.pending, ?_⟩
        rintro _ ⟨⟩
        obtain ⟨hinventory, current, hcurrent, onto, honto, rfl, rfl, hknown⟩ := hcall
        obtain ⟨snapshot, hpool⟩ := h.pool pool hcached
        obtain ⟨hsource, hpublished, hvalid, heq⟩ := snapshot_of_onto honto
        obtain rfl : current = snapshot := hpool.unique hcurrent (hsame ▸ hsource)
        have hseven := hschema pool hcached hsame current hcurrent hsource
        obtain ⟨context, hcontext, hpool'⟩ := Except.bind_eq_ok.mp hpool'
        obtain ⟨found, hread, hpool'⟩ := Except.bind_eq_ok.mp hpool'
        rw [Except.check_bind_eq_ok, Except.refuseIf_eq_ok, not_not] at hpool'
        obtain ⟨hdigests, hpool'⟩ := hpool'
        obtain ⟨integrity, hintegrity, hpool'⟩ := Except.bind_eq_ok.mp hpool'
        cases Except.pure_eq_ok.mp hpool'
        rw [Except.mapError_eq_ok] at hintegrity
        obtain ⟨hdb, hcontent, hfound⟩ := hw.read found (reads_of_readSnapshot hread)
        obtain rfl : found.inventory = inventory := e.inventory_of_digest hfound hinventory hdigests
        rw [addInstalledRpmdb, Except.check_bind_eq_ok, hdb] at hcontext
        cases Except.pure_eq_ok.mp hcontext.2
        refine ⟨onto.snapshot, hknown, integrity_of_onto hseven honto hpool.integrity hintegrity, ?_,
          ?_, ?_, ?_, hcontent, ?_, rfl, hpool.narrow, fun _ hno => by cases hno⟩
        · rw [heq]
          exact hpool.policy
        · have hbindings : integrity.selectedRepositories = pool.integrity.selectedRepositories := by
            obtain ⟨bytes, -, hpublished⟩ := Except.bind_eq_ok.mp hpublished
            rw [← Except.pure_eq_ok.mp hpublished] at hintegrity
            rw [(PlanIntegrity.new_asStr.mp hintegrity).1]
          rw [selectedRepositories, hbindings, heq]
          exact hpool.selected
        · rw [heq]
          exact hpool.modules
        · rw [hpool.context]
        · rw [heq]

/-! ## A new planner -/

/-- The same world, where nothing fails. -/
def World.calm (w : World) : World := { w with fault := fun _ => none }

theorem covers_calm (hw : e.Covers w) : e.Covers w.calm := ⟨hw.opened, hw.read, hw.clock⟩

theorem readSnapshot_calm {operation : External} {found : InventorySnapshot} (h : Reads w found) :
    w.calm.readSnapshot operation = .ok found := by
  have hreads : (Native.readSnapshotFromContext w.calm.files.db w.calm.cache).1 = .ok found := h
  rw [World.readSnapshot, hreads]
  rfl

theorem foldlM_loadRepository_calm {selected : List PlanningRepository}
    (h : ∀ r ∈ selected, r.priority.toNat < 2 ^ 31 ∧ r.cost.toNat < 2 ^ 31) (context : NativeContext) :
    ∃ loaded, selected.foldlM (fun context r => loadRepository w.calm r context) context =
      .ok loaded := by
  induction selected generalizing context with
  | nil => exact ⟨context, rfl⟩
  | cons r selected ih =>
    have hr := h r List.mem_cons_self
    have hload : loadRepository w.calm r context =
        .ok { context with repositories := context.repositories ++ [r] } := by
      rw [loadRepository, Except.refuseIf, if_neg (by omega)]
      rfl
    rw [List.foldlM_cons, hload, Except.ok_bind]
    exact ih (fun r hr => h r (List.mem_cons_of_mem _ hr)) _

/-- A new planner builds its pool, where another one has a pool that is ready. -/
theorem exists_buildPool_calm (hw : e.Covers w) (hready : Ready e w repositories snapshot pool) :
    ∃ pool', buildPool out w.calm snapshot repositories pool.integrity none none = .ok pool' ∧
      pool'.lastSolve = none := by
  obtain ⟨found, hreads, hcookie⟩ := hready.reads
  obtain ⟨hdb, hinventory, -⟩ := hw.read found hreads
  have hopened : openPool out w.calm snapshot.payload.policy.solver.baseArch none =
      .ok ⟨{ NativeContext.open snapshot.payload.policy.solver.baseArch with
        installed := some (.rpmdb (e.content found.rpmdbCookie).1) }, found, false, none⟩ := by
    have hadd : ∀ context, addInstalledRpmdb w.calm context =
        .ok { context with installed := some (.rpmdb (e.content found.rpmdbCookie).1) } := by
      intro context
      have hdb : w.calm.files.db = .ok (e.content found.rpmdbCookie).1 := hdb
      rw [addInstalledRpmdb, hdb]
      rfl
    rw [openPool, openInstalledContext, hadd]
    simp only [Except.ok_bind, readSnapshot_calm hreads]
    rfl
  have hverify : verifyRpmdbUnchanged out w.calm found = .ok found := by
    rw [verifyRpmdbUnchanged, readSnapshot_calm hreads, Except.ok_bind, sameInventoryGeneration_self]
    rfl
  have hpublished : Planning.inventorySha256 out.lib.crates found.inventory =
      Planning.inventorySha256 out.lib.crates snapshot.payload.inventory := by
    rw [hinventory, hcookie, ← hready.poolOf.inventory, hready.poolOf.published]
  obtain ⟨loaded, hloaded⟩ := @foldlM_loadRepository_calm w _ hready.poolOf.narrow
    { NativeContext.open snapshot.payload.policy.solver.baseArch with
        installed := some (.rpmdb (e.content found.rpmdbCookie).1) }
  have hmodules := hready.poolOf.modules
  rw [hready.ids] at hmodules
  rw [buildPool, hopened, Except.ok_bind, Opened.verify, if_pos (by simp [Opened.needsVerify]), hverify,
    Except.ok_bind, fillPool, Except.refuseIf, if_neg (not_not.mpr hpublished), Except.ok_bind,
    hready.poolOf.selected, Except.ok_bind, hmodules, Except.ok_bind]
  simp only [hloaded]
  exact ⟨_, rfl, rfl⟩

theorem new_ensure_eq {digest : String} (h : Planning.currentDigest w.store = .ok digest) :
    ResidentPlanner.new.ensure out w.calm repositories =
      ResidentPlanner.new.rebuild out w.calm repositories := by
  have hdigest : currentSystemDigest w.calm = .ok digest := by
    rw [currentSystemDigest]
    exact congrArg (Except.mapError DaemonError.snapshot) h
  simp only [ResidentPlanner.ensure, hdigest, Except.ok_bind, ResidentPlanner.new, freshness]

/-- A new planner is ready with a pool that is the same for a request. -/
theorem new_ensure_calm (hw : e.Covers w) (hready : Ready e w repositories snapshot pool)
    (hopen : Planning.openSnapshot out.lib w.store = .ok snapshot) :
    ∃ s' pool', ResidentPlanner.new.ensure out w.calm repositories = (.ok (), s') ∧
      s'.cached = some pool' ∧ pool'.lastSolve = none ∧ Ready e w.calm repositories snapshot pool' ∧
      SameView pool pool' := by
  obtain ⟨name, bytes, hpoints, -⟩ := Planning.openSnapshot_eq_ok.mp hopen
  obtain ⟨pool', hbuild, hlast⟩ := exists_buildPool_calm hw hready
  have hbound : (do
      let snapshot ← openSystem out w.calm
      let integrity ← (Planning.integrityForRepositories out.lib snapshot repositories).mapError
        DaemonError.snapshot
      return (snapshot, integrity)) = .ok (snapshot, pool.integrity) := by
    have hsystem : openSystem out w.calm = .ok snapshot :=
      congrArg (Except.mapError DaemonError.snapshot) hopen
    have hintegrity := hready.poolOf.integrity
    rw [hready.ids] at hintegrity
    rw [hsystem, Except.ok_bind, hintegrity]
    rfl
  have hintegrity := hready.poolOf.integrity
  rw [hready.ids] at hintegrity
  obtain ⟨hpool', hids, hreads⟩ := poolOf_of_buildPool (covers_calm hw) hopen hintegrity hbuild
  have hview : SameView pool pool' := by
    refine hready.poolOf.sameView hpool' (hready.ids.trans hids.symm) ?_
    obtain ⟨found, hfound, hcookie⟩ := hready.reads
    obtain ⟨found', hfound', hcookie'⟩ := hreads
    obtain rfl := Reads.unique hfound hfound'
    exact hcookie.symm.trans hcookie'
  have hrebuild : ∃ s', ResidentPlanner.new.rebuild out w.calm repositories = (.ok (), s') ∧
      s'.cached = some pool' := by
    have hcold : ResidentPlanner.new.verifiedRpmdbCookie = none ∧
      ResidentPlanner.new.pendingInstalled = none := ⟨rfl, rfl⟩
    rw [ResidentPlanner.rebuild]
    simp only [hbound, hcold, hbuild]
    exact ⟨_, rfl, rfl⟩
  obtain ⟨s', hrebuild, hcached⟩ := hrebuild
  refine ⟨s', pool', ?_, hcached, hlast, ⟨hpool', hids, hreads, ?_⟩, hview⟩
  · rw [new_ensure_eq (Planning.currentDigest_eq_ok.mpr hpoints), hrebuild]
  · exact fun found hfound => Except.ok.inj (hfound.symm.trans hopen)

theorem exists_prefetch_calm {names : List String} (hready : Ready e w repositories snapshot pool)
    (hopen : Planning.openSnapshot out.lib w.store = .ok snapshot)
    (hscan : ∀ r ∈ pool.repositories, ∀ name ∈ names, isAbsolute name = true →
      (out.fileProviders r name).isOk = true) :
    ∃ prefetched, prefetchFileSelectors out w.calm names repositories = .ok prefetched := by
  have hintegrity := hready.poolOf.integrity
  rw [hready.ids] at hintegrity
  have hscans : ∀ named ∈ absoluteSelectors names, ∃ found,
      prefetchSelector out pool.repositories named = .ok found := by
    intro named hnamed
    obtain ⟨hmem, habsolute⟩ := List.mem_filter.mp hnamed
    have hname : named.1 ∈ names := List.fst_mem_of_mem_zipIdx hmem
    have hordinals : ∃ ordinals, scan out pool.repositories named.1 = .ok ordinals := by
      obtain ⟨ordinals, hordinals⟩ := @Except.exists_mapM_eq_ok _ _ _
        (fun repository => do return (repository, ← out.fileProviders repository named.1))
        pool.repositories fun r hr => by
          have hok := hscan r hr named.1 hname habsolute
          cases hfound : out.fileProviders r named.1 with
          | error e =>
            rw [hfound] at hok
            cases hok
          | ok ordinals => exact ⟨_, rfl⟩
      exact ⟨ordinals, Except.mapError_eq_ok.mpr hordinals⟩
    obtain ⟨ordinals, hordinals⟩ := hordinals
    rw [prefetchSelector, hordinals]
    exact ⟨_, rfl⟩
  obtain ⟨selectors, hselectors⟩ := Except.exists_mapM_eq_ok hscans
  refine ⟨⟨pool.integrity.planningSnapshotSha256.asStr, selectors⟩, ?_⟩
  rw [prefetchFileSelectors, Except.check_bind_eq_ok]
  refine ⟨rfl, Except.bind_eq_ok.mpr ⟨snapshot, Except.mapError_eq_ok.mpr hopen, ?_⟩⟩
  refine Except.bind_eq_ok.mpr ⟨_, Except.mapError_eq_ok.mpr hready.poolOf.digest, ?_⟩
  refine Except.bind_eq_ok.mpr ⟨_, Except.mapError_eq_ok.mpr hintegrity, ?_⟩
  refine Except.bind_eq_ok.mpr ⟨_, hready.poolOf.selected, ?_⟩
  exact Except.bind_eq_ok.mpr ⟨_, hselectors, rfl⟩

/-- A new planner solves the request as well, with the same plan up to its expiry, when the prefetch
of its absolute selectors succeeds. -/
theorem new_solve_calm {plan : CanonicalSolverPlan} {earlier : UInt64} (hw : e.Covers w)
    (hready : Ready e w repositories snapshot pool)
    (hopen : Planning.openSnapshot out.lib w.store = .ok snapshot)
    (hintent : intentOf action packages = .ok intent)
    (hscan : ∀ r ∈ pool.repositories, ∀ spec ∈ intent.packages, isAbsolute spec.asStr = true →
      (out.fileProviders r spec.asStr).isOk = true)
    (hplan : solveOn out pool intent earlier none = .ok plan) :
    ∃ solved, (ResidentPlanner.new.solve out w.calm action packages repositories).1 = .ok solved ∧
      plan.SameUpToExpiry solved.plan := by
  obtain ⟨s', pool', hensure, hcached, hlast, hready', hview⟩ := new_ensure_calm hw hready hopen
  generalize hprefetch : (if ResidentPlanner.new.cached.isNone ∧
      (intent.packages.map (·.asStr)).any isAbsolute then
    some (prefetchFileSelectors out w.calm (intent.packages.map (·.asStr)) repositories)
    else none) = prefetch
  have hsolve : solveOn out pool' intent w.now prefetch =
      .ok (plan.withExpiry (saturatingAdd w.now planLifetimeSeconds)) := by
    have hnone : solveOn out pool' intent w.now none =
        .ok (plan.withExpiry (saturatingAdd w.now planLifetimeSeconds)) := by
      rw [← solveOn_congr hview, @solveOn_withExpiry out pool intent w.now earlier, hplan]
      rfl
    split at hprefetch
    · -- the prefetch is of the repositories of the pool
      have hscan' : ∀ r ∈ pool'.repositories, ∀ name ∈ intent.packages.map (·.asStr),
          isAbsolute name = true → (out.fileProviders r name).isOk = true := by
        intro r hr name hname habsolute
        obtain ⟨spec, hspec, rfl⟩ := List.mem_map.mp hname
        exact hscan r (hview.repositories ▸ hr) spec hspec habsolute
      obtain ⟨prefetched, hok⟩ := exists_prefetch_calm hready' hopen hscan'
      have hcalm : w.calm.calm = w.calm := rfl
      rw [hcalm] at hok
      have hfor := @prefetchFor_of_ready out e w.calm snapshot repositories pool'
        (intent.packages.map (·.asStr)) hready'
      rw [hok] at hfor hprefetch
      rw [← hprefetch, ← hnone, solveOn, requestSelectors_of_prefetched hready'.poolOf.foundById hfor]
      rfl
    · rw [← hprefetch]
      exact hnone
  have hremembered : pool'.remembered intent.action (intent.packages.map (·.asStr)) w.now = none := by
    rw [ResidentPool.remembered, hlast]
    rfl
  have hnow : w.calm.now = w.now := rfl
  simp only [ResidentPlanner.solve, hintent, hensure, hprefetch, ResidentPlanner.solveCached, hcached,
    hremembered, hnow, hsolve]
  exact ⟨_, rfl, rfl⟩

end

/-! ## Runs -/

/-- What is said of an answer of `solve`: its plan has not expired, embeds the record that comes with
it, which is the record of the current planning snapshot, and is the plan of a new planner in the same
world, where nothing fails. There is such a plan when the snapshot can be read and the file lists can
be searched for the absolute selectors, which a new planner does ahead. -/
structure IsFresh (out : Outside) (w : World) (action : Action) (packages repositories : List String)
    (solved : SolvedPlan) : Prop where
  unexpired : w.now < solved.plan.proposal.expiresAtUnix
  embeds : solved.plan.proposal.integrity = solved.integrity
  current : ∀ snapshot, Planning.openSnapshot out.lib w.store = .ok snapshot →
    Planning.integrityForRepositories out.lib snapshot repositories = .ok solved.integrity
  anew : ∀ solved', (ResidentPlanner.new.solve out w.calm action packages repositories).1 =
    .ok solved' → solved.plan.SameUpToExpiry solved'.plan
  solvable : ∀ snapshot, Planning.openSnapshot out.lib w.store = .ok snapshot →
    (∀ r ∈ solved.repositories, ∀ spec ∈ solved.plan.proposal.intent.packages,
      isAbsolute spec.asStr = true → (out.fileProviders r spec.asStr).isOk = true) →
    ∃ solved', (ResidentPlanner.new.solve out w.calm action packages repositories).1 = .ok solved'

section
variable {out : Outside} {e : Evidence out} {s : ResidentPlanner} {w : World}

theorem MemoInv.isFresh {action : Action} {packages repositories : List String} {solved : SolvedPlan}
    (h : MemoInv e s) (hw : e.Covers w)
    (hsolved : (s.solve out w action packages repositories).1 = .ok solved) :
    IsFresh out w action packages repositories solved := by
  obtain ⟨intent, snapshot, pool, plan, earlier, hintent, hready, -, rfl, hexpires, hplan⟩ :=
    (h.solve hw).2 solved hsolved
  obtain ⟨hembeds, hplanIntent, -⟩ := proposal_of_solveOn hplan
  constructor
  case unexpired => exact hexpires
  case embeds => exact hembeds
  case current =>
    intro opened hopen
    obtain rfl := hready.current opened hopen
    rw [← hready.ids]
    exact hready.poolOf.integrity
  case anew =>
    intro solved' hsolved'
    obtain ⟨intent', snapshot', pool', plan', earlier', hintent', hready', hopen, rfl, -, hplan'⟩ :=
      (MemoInv.new.solve (covers_calm hw)).2 solved' hsolved'
    obtain rfl := Except.ok.inj (hintent.symm.trans hintent')
    obtain rfl := hready.current snapshot' (hopen rfl)
    have hview : SameView pool pool' := by
      refine hready.poolOf.sameView hready'.poolOf (hready.ids.trans hready'.ids.symm) ?_
      obtain ⟨found, hfound, hcookie⟩ := hready.reads
      obtain ⟨found', hfound', hcookie'⟩ := hready'.reads
      obtain rfl := Reads.unique hfound hfound'
      exact hcookie.symm.trans hcookie'
    rw [← solveOn_congr hview] at hplan'
    exact sameUpToExpiry_of_solveOn hplan hplan'
  case solvable =>
    intro opened hopen hscan
    obtain rfl := hready.current opened hopen
    simp only [ResidentPool.solved] at hscan
    rw [hplanIntent] at hscan
    obtain ⟨solved', hsolved', -⟩ := new_solve_calm hw hready hopen hintent hscan hplan
    exact ⟨solved', hsolved'⟩

theorem MemoInv.apply {call : PlannerCall} (h : MemoInv e s) (hw : e.Covers w)
    (hcall : e.Requests call) (hschema : PatchesCurrentSchema e s call) :
    MemoInv e (s.apply out w call) := by
  cases call with
  | verifyStartup architecture => exact hcall.elim
  | warm repositories => exact (h.ensure hw).1
  | solve action packages repositories => exact (h.solve hw).1
  | refreshAfterMutation inventory source published =>
    exact h.refreshAfterMutation hw hcall hschema

theorem MemoInv.run {history : List (World × PlannerCall)} (h : MemoInv e s)
    (hhistory : ∀ step ∈ history, e.Covers step.1 ∧ e.Requests step.2)
    (hschema : PatchesCurrentSchemaRun e s history) : MemoInv e (s.run out history) := by
  induction history generalizing s with
  | nil => exact h
  | cons step history ih =>
    obtain ⟨⟨hw, hcall⟩, hrest⟩ := List.forall_mem_cons.mp hhistory
    exact ih (h.apply hw hcall hschema.1) hrest hschema.2

theorem PatchesCurrentSchemaRun.of_append {before after : List (World × PlannerCall)}
    (h : PatchesCurrentSchemaRun e s (before ++ after)) : PatchesCurrentSchemaRun e s before := by
  induction before generalizing s with
  | nil => trivial
  | cons step before ih => exact ⟨h.1, ih h.2⟩

end

/-- **Every plan is as good as new.** The calls of a history are requests and transactions, in worlds
that the evidence covers, and each transaction that patches the pool started from a snapshot of the
current schema. Then every plan that `solve` returns anywhere in the history, from the pool, from the
last plan or from a new pool, is fresh. -/
theorem solved_isFresh {out : Outside} (e : Evidence out) (history : List (World × PlannerCall))
    (hhistory : ∀ step ∈ history, e.Covers step.1 ∧ e.Requests step.2)
    (hschema : PatchesCurrentSchemaRun e .new history)
    {before after : List (World × PlannerCall)} {w : World} {action : Action}
    {packages repositories : List String} {solved : SolvedPlan}
    (hsplit : history = before ++ (w, .solve action packages repositories) :: after)
    (hsolved : ((ResidentPlanner.new.run out before).solve out w action packages repositories).1 =
      .ok solved) :
    IsFresh out w action packages repositories solved := by
  subst hsplit
  have hbefore : MemoInv e (ResidentPlanner.new.run out before) :=
    MemoInv.new.run (fun step hstep => hhistory step (List.mem_append_left _ hstep)) hschema.of_append
  have hw := (hhistory (w, .solve action packages repositories) (by simp)).1
  exact hbefore.isFresh hw hsolved

/-! ### Snapshots of two schemas -/

open Planning (newInventory newDigest soloCrates soloLibrary soloRepository soloSnapshot)

/-- The snapshot of the repository, as an earlier version has published it too. -/
def schemaSnapshot (schema : UInt32) : PlanningSnapshot :=
  { soloSnapshot newInventory with schemaVersion := schema }

def schemaValue (schema : Nat) : Json.Value :=
  .obj [("payload", .obj [("allowed_repositories", .arr [Planning.soloRepositoryValue]),
      ("configuration", .arr [Planning.soloConfigurationValue]), ("inventory", newInventory.toValue),
      ("policy", Planning.soloPolicyValue)]),
    ("published_at_unix", .num 1), ("refreshed_repository_ids", .arr [.str "fedora"]),
    ("schema_version", .num schema)]

def schemaDocument (schema : Nat) : List UInt8 := (schemaValue schema).render

def sixDigest : Core.Sha256Digest :=
  ⟨"5785cbe64dda8d189208bd98b66b0f098327939300b7b838b8d15b7ecb444bdc",
    Core.isLowerDigest_ofList (by decide)⟩

def sixMetadataDigest : Core.Sha256Digest :=
  ⟨"a3f1c8e5d0b2947f6e8d1c0b3a5f7e9d2c4b6a8f0e1d3c5b7a9f8e6d4c2b0a1f",
    Core.isLowerDigest_ofList (by decide)⟩

def schemaCrates : Planning.Crates :=
  { soloCrates with sha256 := fun bytes =>
      if "dnfast-root-metadata-v5".asBytes <+: bytes then sixMetadataDigest
      else if bytes = schemaDocument 6 then sixDigest
      else soloCrates.sha256 bytes }

def schemaLibrary : Planning.Library :=
  { soloLibrary with
    crates := schemaCrates
    toVec := fun s => if s = schemaSnapshot 6 then schemaDocument 6 else schemaDocument 7
    fromSlice := fun bytes => if bytes = schemaDocument 6 then .ok (schemaSnapshot 6)
      else if bytes = schemaDocument 7 then .ok (schemaSnapshot 7)
      else .error "expected value at line 1 column 1" }

theorem schemaDocument_injective : Function.Injective schemaDocument := by
  intro m n h
  have hvalue : schemaValue m = schemaValue n := by
    rw [← Option.some.injEq, ← Json.parse_render, ← Json.parse_render]
    exact congrArg Json.parse h
  simpa [schemaValue] using hvalue

theorem length_schemaDocument : (schemaDocument 6).length ≤ Planning.maxSnapshotBytes ∧
    (schemaDocument 7).length ≤ Planning.maxSnapshotBytes := by
  have hweight : (schemaValue 6).weight ≤ Planning.maxSnapshotBytes ∧
    (schemaValue 7).weight ≤ Planning.maxSnapshotBytes := by decide +kernel
  exact ⟨(Json.Value.size_le_weight _).trans hweight.1, (Json.Value.size_le_weight _).trans hweight.2⟩

theorem document_ne : schemaDocument 7 ≠ schemaDocument 6 := fun h =>
  absurd (schemaDocument_injective h) (by decide)

theorem snapshot_ne : schemaSnapshot 7 ≠ schemaSnapshot 6 := fun h =>
  absurd (congrArg (·.schemaVersion) h) (by decide)

theorem head_schemaDocument (n : Nat) : (schemaDocument n).head? = some 0x7b := rfl

theorem not_prefix_schemaDocument (n : Nat) :
    ¬ "dnfast-root-metadata-v5".asBytes <+: schemaDocument n := by
  rintro ⟨rest, h⟩
  have hhead := congrArg List.head? h
  rw [head_schemaDocument] at hhead
  cases hhead

theorem sha256_schemas : schemaLibrary.crates.sha256 (schemaDocument 6) = sixDigest ∧
    schemaLibrary.crates.sha256 (schemaDocument 7) = newDigest := by
  constructor
  · unfold schemaLibrary schemaCrates
    simp only [if_neg (not_prefix_schemaDocument 6), if_true]
  · have hnew : soloCrates.sha256 (schemaDocument 7) = newDigest := Planning.sha256_new
    unfold schemaLibrary schemaCrates
    simp only [if_neg (not_prefix_schemaDocument 7), if_neg document_ne, hnew]

theorem validate_schemas : (schemaSnapshot 6).validate schemaCrates = .ok () ∧
    (schemaSnapshot 7).validate schemaCrates = .ok () := by decide +kernel

theorem decodes_schemas : Planning.Decodes schemaLibrary (schemaDocument 6) (schemaSnapshot 6) ∧
    Planning.Decodes schemaLibrary (schemaDocument 7) (schemaSnapshot 7) := by
  refine ⟨⟨?_, Planning.canonicalBytes_eq_ok.mpr ⟨validate_schemas.1, ?_⟩⟩,
    ⟨?_, Planning.canonicalBytes_eq_ok.mpr ⟨validate_schemas.2, ?_⟩⟩⟩
  · unfold schemaLibrary
    simp only [if_true]
  · unfold schemaLibrary
    simp only [if_true]
  · unfold schemaLibrary
    simp only [if_neg document_ne, if_true]
  · unfold schemaLibrary
    simp only [if_neg snapshot_ne]

def metadataOf (schema : UInt32) : List UInt8 :=
  (Planning.metadataInput schemaCrates schema [soloRepository]).toOption.getD []

theorem metadata_schemas :
    ((Planning.metadataInput schemaCrates 6 [soloRepository]).toOption.map fun _ => ()) = some () ∧
    ((Planning.metadataInput schemaCrates 7 [soloRepository]).toOption.map fun _ => ()) = some () ∧
    schemaCrates.sha256 (metadataOf 6) ≠ schemaCrates.sha256 (metadataOf 7) := by decide +kernel

/-- A store with one snapshot, which is current. -/
def schemaStore (digest : Core.Sha256Digest) (document : List UInt8) : Planning.Store where
  files := ⟨Std.ExtTreeMap.empty.insert Planning.currentPointerName
    (Planning.kept (Planning.pointerBytes digest.asStr)), .empty⟩
  snapshots := ⟨Std.ExtTreeMap.empty.insert digest.asStr
    ⟨1, some (Planning.kept document), some (Planning.kept document)⟩, .empty⟩
  snapshotsKept := true
  blobs := none
  blobsKept := true

theorem points_schemaStore {digest : Core.Sha256Digest} {document : List UInt8} :
    Planning.Points (schemaStore digest document) digest.asStr := by
  refine ⟨Planning.kept (Planning.pointerBytes digest.asStr), ?_,
    Planning.pointerDigest_pointerBytes digest.canonical⟩
  rw [schemaStore, Std.ExtTreeMap.getElem?_insert_self]

/-- What requests find in it. -/
theorem exists_published_schema {digest : Core.Sha256Digest} {document metadata : List UInt8}
    {snapshot : PlanningSnapshot} (hdecodes : Planning.Decodes schemaLibrary document snapshot)
    (hpayload : snapshot.payload = (soloSnapshot newInventory).payload)
    (hdigest : schemaLibrary.crates.sha256 document = digest)
    (hlength : document.length ≤ Planning.maxSnapshotBytes)
    (hmetadata : Planning.metadataInput schemaCrates snapshot.schemaVersion [soloRepository] =
      .ok metadata) :
    ∃ p : Published schemaLibrary (schemaStore digest document), p.snapshot = snapshot ∧
      p.integrity.metadataSha256 = schemaCrates.sha256 metadata := by
  have hfile : Planning.HasFile (schemaStore digest document) digest.asStr document := by
    refine ⟨⟨1, some (Planning.kept document), some (Planning.kept document)⟩,
      Planning.kept document, ?_, rfl, rfl⟩
    rw [schemaStore, Std.ExtTreeMap.getElem?_insert_self]
  exact exists_published_of_payload (Planning.currentDigest_eq_ok.mpr points_schemaStore)
    (Planning.openSnapshot_of_points points_schemaStore hfile hdecodes (congrArg _ hdigest) hlength) hpayload
    hdecodes hmetadata

theorem metadataInput_schema {schema : UInt32}
    (h : ((Planning.metadataInput schemaCrates schema [soloRepository]).toOption.map fun _ => ()) =
      some ()) :
    Planning.metadataInput schemaCrates schema [soloRepository] = .ok (metadataOf schema) := by
  obtain ⟨_, hmetadata, -⟩ := Except.toOption_map_eq_some.mp h
  unfold metadataOf
  rw [hmetadata]
  rfl

theorem exists_published_six :
    ∃ p : Published schemaLibrary (schemaStore sixDigest (schemaDocument 6)),
      p.snapshot = schemaSnapshot 6 ∧
        p.integrity.metadataSha256 = schemaCrates.sha256 (metadataOf 6) :=
  exists_published_schema decodes_schemas.1 rfl sha256_schemas.1 length_schemaDocument.1
    (metadataInput_schema metadata_schemas.1)

theorem exists_published_seven :
    ∃ p : Published schemaLibrary (schemaStore newDigest (schemaDocument 7)),
      p.snapshot = schemaSnapshot 7 ∧
        p.integrity.metadataSha256 = schemaCrates.sha256 (metadataOf 7) :=
  exists_published_schema decodes_schemas.2 rfl sha256_schemas.2 length_schemaDocument.2
    (metadataInput_schema metadata_schemas.2.1)

/-! ### A transaction over them -/

def appPackage : RepositoryPackage where
  name := "app"
  arch := "x86_64"
  evr := "1-1.fc44"
  vendor := "Fedora"
  packageSize := 100
  installedSize := 200
  checksumSha256 := Core.zeroDigest.asStr
  location := "Packages/a/app-1-1.fc44.x86_64.rpm"
  requires := []
  recommends := []
  supplements := []
  enhances := []

def appAnswer : Solver.SolveResult where
  actions := ["app-0:1-1.fc44.x86_64"]
  repositories := ["fedora"]
  kinds := ["install"]
  obsoletes := [none]
  requestedSpecs := [some "app"]
  requestedRelationKinds := [false]
  satisfiedSpecs := []
  decisions := []

/-- A native library with one package. -/
def appOutside (lib : Planning.Library) : Outside where
  lib := lib
  hasProvider _ _ := .ok false
  packageEvidence _ _ _ := .ok appPackage
  identityEvidence _ _ _ := .ok appPackage
  catalogNamed _ _ _ := .ok [appPackage]
  solve _ _ := .ok appAnswer
  fileProviders _ _ := .ok []
  artifactPolicies _ _ _ := .ok []

/-- The database of `plainFiles`. -/
def plainDatabase : Native.Rpmdb := ⟨"cookie", ⟨"sqlite", "4.20", []⟩⟩

def schemaEvidence : Evidence (appOutside schemaLibrary) where
  snapshots := {schemaSnapshot 6, schemaSnapshot 7}
  inventories := {newInventory}
  content _ := (plainDatabase, newInventory)
  snapshot_of_digest := by
    have hsix := decodes_schemas.1.digest
    have hseven := decodes_schemas.2.digest
    rw [sha256_schemas.1] at hsix
    rw [sha256_schemas.2] at hseven
    have hne : sixDigest.asStr ≠ newDigest.asStr := by decide
    rintro s (rfl | rfl) s' (rfl | rfl) digest hdigest hdigest'
    · rfl
    · exact absurd (Except.ok.inj (hsix.symm.trans (hdigest.trans (hdigest'.symm.trans hseven)))) hne
    · exact absurd (Except.ok.inj (hsix.symm.trans (hdigest'.trans (hdigest.symm.trans hseven)))) hne
    · rfl
  inventory_of_digest := Set.injOn_singleton _ _

theorem covers_schema {store : Planning.Store} (p : Published schemaLibrary store)
    (h : p.snapshot ∈ schemaEvidence.snapshots) :
    schemaEvidence.Covers (plainWorld store none noFault) where
  opened s hs := Except.ok.inj (p.opens.symm.trans hs) ▸ h
  read found hfound := by
    have hplain : (Native.readSnapshotFromContext (plainWorld store none noFault).files.db
      (plainWorld store none noFault).cache).1 = .ok plainInstalled := rfl
    cases hplain.symm.trans hfound
    exact ⟨rfl, rfl, rfl⟩
  clock := by
    change (1 : UInt64).toNat < 2 ^ 63
    decide

section
variable {lib : Planning.Library} {store : Planning.Store} {e : Evidence (appOutside lib)}

/-- The first request builds a pool. -/
theorem exists_ready (p : Published lib store) (hw : e.Covers (plainWorld store none noFault)) :
    ∃ s pool, ResidentPlanner.new.ensure (appOutside lib) (plainWorld store none noFault) [] =
      (.ok (), s) ∧ s.cached = some pool ∧
        Ready e (plainWorld store none noFault) [] p.snapshot pool := by
  have hok : (ResidentPlanner.new.ensure (appOutside lib) (plainWorld store none noFault) []).1 =
      .ok () := by
    have hbound : (do
        let snapshot ← openSystem (appOutside lib) (plainWorld store none noFault)
        let integrity ← (Planning.integrityForRepositories (appOutside lib).lib snapshot
          []).mapError DaemonError.snapshot
        return (snapshot, integrity)) = .ok (p.snapshot, p.integrity) := by
      have hopen : openSystem (appOutside lib) (plainWorld store none noFault) = .ok p.snapshot :=
        congrArg (Except.mapError DaemonError.snapshot) p.opens
      rw [hopen, Except.ok_bind]
      exact congrArg (fun x => (Except.mapError _ x).bind fun integrity => .ok (p.snapshot, integrity))
        p.binds
    have hpool : openPool (appOutside lib) (plainWorld store none noFault) .x86_64 none =
      .ok ⟨(plainPending lib).context, plainInstalled, false, none⟩ := rfl
    have hverify : verifyRpmdbUnchanged (appOutside lib) (plainWorld store none noFault)
        plainInstalled = .ok plainInstalled := by
      rw [verifyRpmdbUnchanged, readSnapshot_plain rfl, Except.ok_bind, sameInventoryGeneration_self]
      rfl
    obtain ⟨pool, hfill⟩ := @exists_fillPool lib store (appOutside lib) (fun _ _ _ => rfl) p
      (plainPending lib).context false
    have hbuild : buildPool (appOutside lib) (plainWorld store none noFault) p.snapshot []
        p.integrity none none = .ok pool := by
      rw [buildPool, p.arch, hpool, Except.ok_bind, Opened.verify,
        if_pos (by simp [Opened.needsVerify]), hverify, Except.ok_bind, hfill]
    have hcold : ResidentPlanner.new.verifiedRpmdbCookie = none ∧
      ResidentPlanner.new.pendingInstalled = none := ⟨rfl, rfl⟩
    have hcalm : (plainWorld store none noFault).calm = plainWorld store none noFault := rfl
    rw [← hcalm, new_ensure_eq p.points, hcalm, ResidentPlanner.rebuild]
    simp only [hbound, hcold, hbuild]
  obtain ⟨snapshot, pool, hcached, hready, hopen⟩ := (MemoInv.new.ensure hw).2 hok
  obtain rfl := Except.ok.inj ((hopen rfl).symm.trans p.opens)
  exact ⟨_, pool, Prod.ext hok rfl, hcached, hready⟩

/-- The pool after a transaction that left the database of `plainFiles`. -/
def patchedPool (pool : ResidentPool) (integrity : PlanIntegrity) : ResidentPool :=
  { pool with
    context := { pool.context with installed := some (.rpmdb plainDatabase) }
    integrity := integrity
    inventory := newInventory
    rpmdbCookie := "cookie"
    rpmdbGeneration := none
    lastSolve := none }

theorem refreshAfterMutation_patched {s : ResidentPlanner} {pool : ResidentPool}
    {published : Core.Sha256Digest} {integrity : PlanIntegrity} (hcached : s.cached = some pool)
    (hintegrity : integrity = { pool.integrity with
      inventorySha256 := Planning.inventorySha256 lib.crates newInventory
      planningSnapshotSha256 := published })
    (hvalid : integrity.validate = .ok ()) :
    (s.refreshAfterMutation (appOutside lib) (plainWorld store none noFault) newInventory
      pool.integrity.planningSnapshotSha256.asStr published.asStr).2.cached =
        some (patchedPool pool integrity) := by
  have hadd : addInstalledRpmdb (plainWorld store none noFault) pool.context =
    .ok { pool.context with installed := some (.rpmdb plainDatabase) } := rfl
  have hnew : PlanIntegrity.new pool.integrity.policySha256.asStr pool.integrity.trustSha256.asStr
      (Planning.inventorySha256 lib.crates newInventory).asStr pool.integrity.metadataSha256.asStr
      published.asStr pool.integrity.selectedRepositories = .ok integrity :=
    PlanIntegrity.new_asStr.mpr ⟨hintegrity, hvalid⟩
  have hlib : (appOutside lib).lib = lib := rfl
  have hpool : ResidentPlanner.refreshedPool (appOutside lib) (plainWorld store none noFault)
      newInventory published.asStr pool = .ok (patchedPool pool integrity) := by
    rw [ResidentPlanner.refreshedPool, hadd, Except.ok_bind, readSnapshot_plain rfl, Except.ok_bind,
      hlib, plainInstalled, Except.refuseIf, if_neg (by simp), Except.ok_bind, hnew]
    rfl
  simp only [ResidentPlanner.refreshAfterMutation, hcached, ne_eq, not_true_eq_false, if_false, hpool]

theorem solve_of_current {s : ResidentPlanner} {pool : ResidentPool} {intent : TransactionIntent}
    {plan : Solver.CanonicalSolverPlan} {action : Action} {packages : List String}
    (hcached : s.cached = some pool) (hids : pool.repositoryIds = [])
    (hcookie : pool.rpmdbCookie = "cookie") (hgeneration : pool.rpmdbGeneration = none)
    (hlast : pool.lastSolve = none)
    (hdigest : Planning.currentDigest store = .ok pool.integrity.planningSnapshotSha256.asStr)
    (hintent : intentOf action packages = .ok intent)
    (hplan : solveOn (appOutside lib) pool intent 1 none = .ok plan) :
    (s.solve (appOutside lib) (plainWorld store none noFault) action packages []).1 =
      .ok (pool.solved plan) := by
  have hsystem : currentSystemDigest (plainWorld store none noFault) =
    .ok pool.integrity.planningSnapshotSha256.asStr := congrArg (Except.mapError DaemonError.snapshot) hdigest
  have hensure : s.ensure (appOutside lib) (plainWorld store none noFault) [] =
      (.ok (), s.logged [.accepted (plainFiles none)]) := by
    have hfresh : freshness (appOutside lib) (plainWorld store none noFault) []
        pool.integrity.planningSnapshotSha256.asStr (some pool) = .ok .current := by
      simp only [freshness, hids, hgeneration, hcookie, true_and, if_true]
      rfl
    simp only [ResidentPlanner.ensure, hsystem, hcached, Except.ok_bind, hfresh]
    rfl
  have hlogged : (s.logged [.accepted (plainFiles none)]).cached = some pool := hcached
  have hremembered : pool.remembered intent.action (intent.packages.map (·.asStr)) 1 = none := by
    rw [ResidentPool.remembered, hlast]
    rfl
  have hnow : (plainWorld store none noFault).now = 1 := rfl
  have hsome : (some pool).isNone = false := rfl
  simp only [ResidentPlanner.solve, hintent, hensure, ResidentPlanner.solveCached, hlogged, hcached,
    hnow, hremembered, hsome, Bool.false_eq_true, false_and, if_false, hplan]

end

def trustOf : List (List UInt8) :=
  ([soloRepository].mapM (Planning.trustInput schemaCrates)).toOption.getD []

/-- The record of the pool after the transaction, over a snapshot of a schema. -/
def patchedIntegrity (schema : UInt32) : PlanIntegrity where
  policySha256 := Planning.policySha256 schemaCrates (soloSnapshot newInventory).payload.policy.solver
  trustSha256 := schemaCrates.sha256 ("dnfast-root-trust-v3".asBytes ++ trustOf.flatten)
  inventorySha256 := Planning.inventorySha256 schemaCrates newInventory
  metadataSha256 := schemaCrates.sha256 (metadataOf schema)
  planningSnapshotSha256 := newDigest
  selectedRepositories := [soloBinding schemaCrates]

def appPool (schema : UInt32) : ResidentPool where
  snapshot := schemaSnapshot schema
  repositoryIds := []
  integrity := patchedIntegrity schema
  policy := (soloSnapshot newInventory).payload.policy.solver
  repositories := [soloRepository]
  moduleArtifactPolicy := []
  context := ⟨.x86_64, some (.rpmdb plainDatabase), [soloRepository], [], true⟩
  inventory := newInventory
  rpmdbCookie := "cookie"
  rpmdbGeneration := none
  lastSolve := none

def appIntent : TransactionIntent := Solver.installApp

theorem intentOf_app : intentOf .install ["app"] = .ok appIntent := rfl

theorem solveOn_appPool :
    ((solveOn (appOutside schemaLibrary) (appPool 6) appIntent 1 none).toOption.map fun _ => ()) =
      some () ∧
    ((solveOn (appOutside schemaLibrary) (appPool 7) appIntent 1 none).toOption.map fun _ => ()) =
      some () := by
  decide +kernel

/-- The pool that the first request builds over a snapshot of a schema. -/
theorem sameView_patched {schema : UInt32} {pool : ResidentPool} {w : World}
    (hmetadata : Planning.metadataInput schemaCrates schema [soloRepository] =
      .ok (metadataOf schema))
    (hready : Ready schemaEvidence w [] (schemaSnapshot schema) pool) :
    patchedIntegrity schema = { pool.integrity with
      inventorySha256 := Planning.inventorySha256 schemaLibrary.crates newInventory
      planningSnapshotSha256 := newDigest } ∧
    SameView (patchedPool pool (patchedIntegrity schema)) (appPool schema) := by
  have hids := hready.ids
  have hpool := hready.poolOf
  have hintegrity := hpool.integrity
  rw [hids] at hintegrity
  obtain ⟨b⟩ := Planning.integrityForRepositories_eq_ok.mp hintegrity
  have hselected : b.selected = [soloRepository] := by
    have hsolo : (soloSnapshot newInventory).selectedRepositories [] = .ok [soloRepository] := by
      decide +kernel
    exact Except.ok.inj (b.selects.symm.trans hsolo)
  have hmetadata : b.metadata = metadataOf schema := by
    have hdescribes := b.describes
    rw [hselected] at hdescribes
    exact Except.ok.inj (hdescribes.symm.trans hmetadata)
  have htrust : b.trust = trustOf := by
    have htrusts := b.trusts
    rw [hselected] at htrusts
    unfold trustOf
    rw [show schemaCrates = (appOutside schemaLibrary).lib.crates from rfl, htrusts]
    rfl
  have hbindings : b.bindings = [soloBinding schemaCrates] := by
    have hbinds := b.binds
    rw [hselected, List.mapM_cons, repositoryBinding_solo] at hbinds
    exact (Except.ok.inj hbinds).symm
  have hrecord := b.record
  have hlib : (appOutside schemaLibrary).lib.crates = schemaCrates := rfl
  have hcrates : schemaLibrary.crates = schemaCrates := rfl
  rw [hmetadata, htrust, hbindings, hlib] at hrecord
  refine ⟨?_, ?_⟩
  · rw [hrecord, hcrates]
    unfold patchedIntegrity
    simp only [schemaSnapshot]
  · have hrepositories : pool.repositories = [soloRepository] := by
      have hfound : (soloSnapshot newInventory).payload.allowedRepositories.find?
        (·.id = "fedora") = some soloRepository := by decide +kernel
      have hselects := hpool.selected
      rw [hrecord] at hselects
      have hid : (soloBinding schemaCrates).id = "fedora" := rfl
      have hpayload : (schemaSnapshot schema).payload = (soloSnapshot newInventory).payload := rfl
      simp only [selectedRepositories, List.mapM_cons, List.mapM_nil, hid, hpayload, hfound] at hselects
      exact (Except.ok.inj hselects).symm
    have hmodules : pool.moduleArtifactPolicy = [] := by
      have hmodules := hpool.modules
      rw [moduleArtifactPolicy, hids, b.selects] at hmodules
      exact (Except.ok.inj hmodules).symm
    refine ⟨rfl, hpool.policy, hrepositories, hmodules, ?_, rfl⟩
    have hcontext := hpool.context
    rw [hpool.policy, hrepositories, hmodules] at hcontext
    rw [patchedPool, hcontext]
    rfl

/-- A request, and a transaction over the snapshot of its pool. -/
def schemaHistory (digest : Core.Sha256Digest) (document : List UInt8) : List (World × PlannerCall) :=
  [(plainWorld (schemaStore digest document) none noFault, .warm []),
    (plainWorld (schemaStore newDigest (schemaDocument 7)) none noFault,
      .refreshAfterMutation newInventory digest.asStr newDigest.asStr)]

/-- The request after them. -/
def appStep : World × PlannerCall :=
  (plainWorld (schemaStore newDigest (schemaDocument 7)) none noFault, .solve .install ["app"] [])

theorem mem_schemaEvidence : schemaSnapshot 6 ∈ schemaEvidence.snapshots ∧
    schemaSnapshot 7 ∈ schemaEvidence.snapshots := ⟨.inl rfl, .inr rfl⟩

theorem covers_six : schemaEvidence.Covers
    (plainWorld (schemaStore sixDigest (schemaDocument 6)) none noFault) := by
  obtain ⟨p, hp, -⟩ := exists_published_six
  exact covers_schema p (hp ▸ mem_schemaEvidence.1)

theorem covers_seven : schemaEvidence.Covers
    (plainWorld (schemaStore newDigest (schemaDocument 7)) none noFault) := by
  obtain ⟨p, hp, -⟩ := exists_published_seven
  exact covers_schema p (hp ▸ mem_schemaEvidence.2)

section
variable {schema : UInt32} {digest : Core.Sha256Digest} {document : List UInt8}

/-- The inventory is published onto a snapshot of either schema. -/
theorem requests_patch (hknown : schemaSnapshot schema ∈ schemaEvidence.snapshots)
    (hdecodes : Planning.Decodes schemaLibrary document (schemaSnapshot schema))
    (hsha : schemaLibrary.crates.sha256 document = digest) :
    schemaEvidence.Requests (.refreshAfterMutation newInventory digest.asStr newDigest.asStr) := by
  have hdigest := hdecodes.digest
  rw [hsha] at hdigest
  have hpublished := decodes_schemas.2.digest
  rw [sha256_schemas.2] at hpublished
  have hwith : Planning.withInventory schemaLibrary (schemaSnapshot schema) newInventory =
      .ok (schemaSnapshot 7) :=
    Planning.withInventory_eq_ok.mpr ⟨hdecodes.validate,
      Planning.renewed_eq_ok.mpr ⟨rfl, decodes_schemas.2.validate⟩⟩
  refine ⟨rfl, schemaSnapshot schema, hknown, ⟨digest.asStr, newDigest.asStr, schemaSnapshot 7⟩, ?_, rfl,
    rfl, mem_schemaEvidence.2⟩
  have hlib : (appOutside schemaLibrary).lib = schemaLibrary := rfl
  rw [publishInventoryOntoCurrentWithSource, hlib, hdigest, Except.ok_bind, hwith, Except.ok_bind,
    hpublished]
  rfl

/-- The request is answered from the patched pool, with the record of the old schema. -/
theorem solve_schemaHistory
    (p : Published schemaLibrary (schemaStore digest document))
    (hp : p.snapshot = schemaSnapshot schema)
    (hw : schemaEvidence.Covers (plainWorld (schemaStore digest document) none noFault))
    (hdecodes : Planning.Decodes schemaLibrary document (schemaSnapshot schema))
    (hsha : schemaLibrary.crates.sha256 document = digest)
    (hmetadata : Planning.metadataInput schemaCrates schema [soloRepository] =
      .ok (metadataOf schema))
    (hplan : ((solveOn (appOutside schemaLibrary) (appPool schema) appIntent 1 none).toOption.map
      fun _ => ()) = some ()) :
    ∃ solved, ((ResidentPlanner.new.run (appOutside schemaLibrary)
      (schemaHistory digest document)).solve (appOutside schemaLibrary)
        (plainWorld (schemaStore newDigest (schemaDocument 7)) none noFault) .install ["app"] []).1 =
          .ok solved ∧ solved.integrity = patchedIntegrity schema := by
  obtain ⟨s, pool, hensure, hcached, hready⟩ := exists_ready p hw
  rw [hp] at hready
  obtain ⟨hpatched, hview⟩ := sameView_patched hmetadata hready
  have hsource : pool.integrity.planningSnapshotSha256 = digest := by
    refine Core.Sha256Digest.ext (Except.ok.inj (hready.poolOf.digest.symm.trans ?_))
    rw [← hsha]
    exact hdecodes.digest
  have hwarm : ResidentPlanner.new.apply (appOutside schemaLibrary)
      (plainWorld (schemaStore digest document) none noFault) (.warm []) = s := by
    rw [ResidentPlanner.apply, ResidentPlanner.warm, hensure]
  have hvalid : (patchedIntegrity schema).validate = .ok () := by
    simp [patchedIntegrity, PlanIntegrity.validate, Except.refuseIf]
  have hcached' := @refreshAfterMutation_patched schemaLibrary
    (schemaStore newDigest (schemaDocument 7)) s pool newDigest _ hcached hpatched hvalid
  rw [hsource] at hcached'
  obtain ⟨plan, hplan, -⟩ := Except.toOption_map_eq_some.mp hplan
  rw [← solveOn_congr hview] at hplan
  have hdigest : Planning.currentDigest (schemaStore newDigest (schemaDocument 7)) =
      .ok newDigest.asStr := Planning.currentDigest_eq_ok.mpr points_schemaStore
  have hsolve := solve_of_current hcached' hready.ids rfl rfl rfl hdigest intentOf_app hplan
  refine ⟨(patchedPool pool (patchedIntegrity schema)).solved plan, ?_, rfl⟩
  simp only [ResidentPlanner.run, schemaHistory, List.foldl_cons, List.foldl_nil, hwarm]
  exact hsolve

end

theorem forall_mem_schemaHistory {P : World × PlannerCall → Prop} {digest : Core.Sha256Digest}
    {document : List UInt8} {step : World × PlannerCall} :
    (∀ x ∈ schemaHistory digest document ++ [step], P x) ↔
      P (plainWorld (schemaStore digest document) none noFault, .warm []) ∧
      P (plainWorld (schemaStore newDigest (schemaDocument 7)) none noFault,
        .refreshAfterMutation newInventory digest.asStr newDigest.asStr) ∧ P step := by
  simp [schemaHistory]

/-- A transaction over a pool of the current schema, and a request after it. -/
theorem solved_isFresh_seven : ∃ solved, ((ResidentPlanner.new.run (appOutside schemaLibrary)
    (schemaHistory newDigest (schemaDocument 7))).solve (appOutside schemaLibrary) appStep.1 .install
      ["app"] []).1 = .ok solved ∧ IsFresh (appOutside schemaLibrary) appStep.1 .install ["app"] []
        solved := by
  obtain ⟨p, hp, -⟩ := exists_published_seven
  obtain ⟨solved, hsolved, -⟩ := solve_schemaHistory p hp covers_seven decodes_schemas.2
    sha256_schemas.2 (metadataInput_schema metadata_schemas.2.1) solveOn_appPool.2
  refine ⟨solved, hsolved, solved_isFresh schemaEvidence
    (schemaHistory newDigest (schemaDocument 7) ++ [appStep]) ?_ ?_ rfl hsolved⟩
  · refine forall_mem_schemaHistory.mpr ⟨⟨covers_seven, trivial⟩, ⟨covers_seven, ?_⟩, covers_seven, trivial⟩
    exact requests_patch mem_schemaEvidence.2 decodes_schemas.2 sha256_schemas.2
  · refine ⟨trivial, ?_, trivial, trivial⟩
    intro pool _ _ current hcurrent hdigest
    have hseven := decodes_schemas.2.digest
    rw [sha256_schemas.2] at hseven
    rw [schemaEvidence.snapshot_of_digest _ hcurrent _ mem_schemaEvidence.2 _ hdigest hseven]
    rfl

/-- The pool is one over a snapshot of schema 6 when the transaction publishes one of schema 7. The
patched pool answers with the digest of the metadata as schema 6 has it. -/
theorem patched_schema_is_stale : ¬ ∀ (out : Outside) (e : Evidence out)
    (before : List (World × PlannerCall)) (w : World) (action : Action)
    (packages repositories : List String) (solved : SolvedPlan),
    (∀ step ∈ before ++ [(w, .solve action packages repositories)],
      e.Covers step.1 ∧ e.Requests step.2) →
    ((ResidentPlanner.new.run out before).solve out w action packages repositories).1 = .ok solved →
    IsFresh out w action packages repositories solved := by
  intro h
  obtain ⟨p, hp, -⟩ := exists_published_six
  obtain ⟨solved, hsolved, hintegrity⟩ := solve_schemaHistory p hp covers_six decodes_schemas.1
    sha256_schemas.1 (metadataInput_schema metadata_schemas.1) solveOn_appPool.1
  have hfresh := h _ schemaEvidence (schemaHistory sixDigest (schemaDocument 6)) appStep.1 .install
    ["app"] [] solved ?_ hsolved
  · obtain ⟨q, hq, hmetadata⟩ := exists_published_seven
    have hcurrent := hfresh.current _ q.opens
    have hsame := Except.ok.inj (q.binds.symm.trans hcurrent)
    rw [hsame, hintegrity] at hmetadata
    exact metadata_schemas.2.2 hmetadata
  · refine forall_mem_schemaHistory.mpr ⟨⟨covers_six, trivial⟩, ⟨covers_seven, ?_⟩, covers_seven, trivial⟩
    exact requests_patch mem_schemaEvidence.1 decodes_schemas.1 sha256_schemas.1

end Dnfast.Executor
