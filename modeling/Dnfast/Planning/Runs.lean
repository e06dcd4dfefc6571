import Mathlib.Algebra.Order.BigOperators.Group.List
import Dnfast.Durable.May
import Dnfast.Json.Parse
import Dnfast.Json.Weight
import Dnfast.Planning.History

/-! # Sequences of publications

A history of the store is a sequence of publications. Each is made on an occasion of its own, and the
environment decides what becomes of its steps: they happen, they fail, or the process is stopped. The
publication after it finds what it has left.

Whatever the environment does, the store stays sound. A process that is stopped between the removal of a
snapshot's file and the removal of its directory leaves a directory that `garbage_collect_blobs` cannot
read, and no later publication succeeds. -/

namespace Dnfast.Planning

open Durable
open Core (isLowerDigest InstalledInventory)

/-! ## Histories -/

structure Event where
  publication : Publication
  occasion : Occasion
  fates : List (Fate (Fault PlanningError))

namespace Event

def outcome (lib : Library) (e : Event) (s : Store) : Outcome (Fault PlanningError) String :=
  (e.publication.run lib e.occasion e.fates s).1

def after (lib : Library) (e : Event) (s : Store) : Store :=
  (e.publication.run lib e.occasion e.fates s).2.1

/-- The assumptions on serialization and digests, for the store that the publication finds. -/
def Fair (lib : Library) (content : String → List UInt8) (s : Store) (e : Event) : Prop :=
  Planning.Fair lib content e.occasion.host s e.publication

end Event

/-- The stores that a history of allowed publications leads to. -/
inductive Reaches (lib : Library) (allowed : Store → Event → Prop) (s : Store) : Store → Prop
  | start : Reaches lib allowed s s
  | next {s' : Store} {e : Event} : Reaches lib allowed s s' → allowed s' e →
    Reaches lib allowed s (e.after lib s')

section
variable {A : Fate (Fault PlanningError) → Prop} {lib : Library} {content : String → List UInt8}
  {s s' : Store} {e : Event} {allowed : Store → Event → Prop}

theorem Reaches.invariant {I : Store → Prop} (h : Reaches lib allowed s s') (hs : I s)
    (hstep : ∀ s e, I s → allowed s e → I (e.after lib s)) : I s' := by
  induction h with
  | start => exact hs
  | next _ he ih => exact hstep _ _ ih he

theorem Event.clean_eq (p : Publication) (occasion : Occasion) : (p.run lib occasion).clean s =
    ((Event.mk p occasion []).outcome lib s, (Event.mk p occasion []).after lib s) := rfl

theorem Event.ends (hs : Sound lib content s) (hfair : e.Fair lib content s)
    (hfates : ∀ f ∈ e.fates, A f) :
    PublicationEnd lib content A e.occasion e.publication s (e.outcome lib s) (e.after lib s) :=
  (sat_run e.publication hs hfair e.fates hfates).1

theorem Event.sound (hs : Sound lib content s) (hfair : e.Fair lib content s) :
    Sound lib content (e.after lib s) :=
  (e.ends (A := fun _ => True) hs hfair fun _ _ => trivial).sound

/-! ## A store that can be published to -/

/-- Every publication with valid inputs succeeds, and its snapshot is then opened. -/
structure Usable (lib : Library) (content : String → List UInt8) (s : Store) : Prop where
  current : ∃ current, currentSnapshot lib s = .ok current
  publishes : ∀ occasion p current new, currentSnapshot lib s = .ok current →
    p.Valid lib content occasion.host current new → Planning.Fair lib content occasion.host s p →
    Fresh occasion s → ∃ d s', (p.run lib occasion).clean s = (.ok d, s') ∧ openSnapshot lib s' = .ok new

theorem usable_of_whole (hs : Sound lib content s) (hwhole : Whole s) (hfits : Fits s) :
    Usable lib content s := by
  refine ⟨exists_currentSnapshot hs hfits, ?_⟩
  intro occasion p current new hcurrent hvalid hfair hfresh
  have hend := (sat_run (A := fun _ => False) p hs hfair).clean
  cases hclean : (p.run lib occasion).clean s with
  | mk o s' =>
    rw [hclean] at hend
    cases o with
    | ok d =>
      obtain ⟨new', ⟨current', hcurrent', hnew'⟩, hdecodes, rfl, hpoints, hfile, -⟩ := hend.ok d rfl
      cases hcurrent.symm.trans hcurrent'
      cases hvalid.snapshot.symm.trans hnew'
      exact ⟨_, s', rfl, openSnapshot_of_points hpoints hfile hdecodes rfl hvalid.fits⟩
    | err e =>
      obtain ⟨-, -, hbad⟩ := hend.err e rfl (fun _ h => h) hwhole hfits
      exact absurd hfresh (hbad current new hcurrent hvalid)
    | crashed => exact (hend.crashed rfl).elim

end

/-! ## A publication that is stopped while it collects -/

section
variable {A : Fate (Fault PlanningError) → Prop} {lib : Library} {content : String → List UInt8}
  {occasion : Occasion} {s s' : Store} {current : PlanningSnapshot} {digest name : String}
  {bytes : List UInt8}

theorem may_reading {σ α : Type} {f : σ → Except PlanningError α} {s : σ} {a : α} (hgo : A .go)
    (h : f s = .ok a) : Exec.May A (reading f) s (.ok a) s :=
  .observe hgo (liftRun_eq_ok.mpr h)

theorem may_checking {σ α : Type} {x : Except PlanningError α} {s : σ} {a : α} (h : x = .ok a) :
    Exec.May A (checking x : Action σ α) s (.ok a) s :=
  .lift (liftRun_eq_ok.mpr h)

/-- A snapshot that is there already is not staged. -/
theorem may_placeSnapshot {f : Folder SnapshotDirectory} {staging : String} {mtime : Nat} (hgo : A .go)
    (hdigest : isLowerDigest digest = true) (hread : readSnapshotFile digest f = .ok bytes) :
    Exec.May A (placeSnapshot staging digest mtime bytes) f (.ok ()) f := by
  obtain ⟨d, file, hd, -⟩ := readSnapshotFile_eq_ok.mp hread
  have hexists : Exec.May A (snapshotExists digest) f (.ok true) f := by
    refine .bind (a := ()) (may_checking (by simp [Except.refuseIf, hdigest])) (may_reading hgo ?_)
    rw [Std.ExtTreeMap.contains_eq_isSome_getElem?, hd, Option.isSome_some]
  refine .bind hexists (.bind (may_reading hgo hread) (may_checking ?_))
  simp [Except.refuseIf]

theorem may_writeFile {f : Folder File} {temporary : String} (hgo : A .go) (hfresh : temporary ∉ f.now)
    (hlength : bytes.length < 2 ^ 63) : ∃ f', Exec.May A (writeFile temporary bytes) f (.ok ()) f' ∧
      f'.now[temporary]? = some ⟨bytes, true⟩ := by
  have hcreate : Exec.May A (createNew temporary) f (.ok ()) (f.put temporary ⟨[], false⟩) :=
    .step hgo (if_neg hfresh)
  have hwrite : Exec.May A (writeAll temporary bytes) (f.put temporary ⟨[], false⟩) (.ok ()) _ :=
    .step hgo (if_pos hlength)
  refine ⟨_, .bind hcreate (.bind hwrite (.bind (.change hgo) (.bind (.sync hgo) (.change hgo)))), ?_⟩
  simp only [Folder.getElem?_modify, Folder.getElem?_put, if_true, Option.map_some]

/-- The publication of the snapshot that is current already can go through up to its end. -/
theorem may_publishSnapshot (hgo : A .go) (hfresh : Fresh occasion s) (hpoints : Points s digest)
    (hread : readSnapshotFile digest s.snapshots = .ok bytes) :
    ∃ s', Exec.May A (publishSnapshot occasion digest bytes) s (.ok ()) s' ∧
      s'.snapshots = s.snapshots ∧ s'.blobs = s.blobs ∧ Points s' digest := by
  have hlength : (digest ++ "\n").asBytes.length < 2 ^ 63 := by
    have h := length_of_pointerDigest (pointerDigest_pointerBytes hpoints.isLowerDigest)
    rw [pointerBytes] at h
    rw [h]
    decide
  obtain ⟨f, hwrite, htemporary⟩ := may_writeFile hgo (hfresh.files "current") hlength
  have hrename : Exec.May A (rename (temporaryName occasion "current") currentPointerName) f (.ok ())
      (f.move (temporaryName occasion "current") currentPointerName ⟨pointerBytes digest, true⟩) :=
    .step hgo (by simp only [htemporary]; rfl)
  refine ⟨_, .bind (.zoom rfl (may_placeSnapshot hgo hpoints.isLowerDigest hread))
    (.bind (.zoom rfl hwrite) (.bind (.zoom rfl hrename) (.change hgo))), rfl, rfl, ?_⟩
  refine ⟨⟨pointerBytes digest, true⟩, ?_, pointerDigest_pointerBytes hpoints.isLowerDigest⟩
  simp only [planningFlush, Folder.now_flush, Folder.getElem?_move, if_true]

/-- Collection can be stopped with the file of the first snapshot that it collects removed. -/
theorem may_garbageCollect {front rest : List String} (hgo : A .go) (hdie : A .die)
    (hentries : (entries occasion s.snapshots).drop maxRetainedSnapshots = front ++ name :: rest)
    (hfront : ∀ n ∈ front, n = digest ∨ isLowerDigest n = false) (hne : name ≠ digest)
    (hname : isLowerDigest name = true) (hread : readSnapshotFile name s.snapshots = .ok bytes) :
    Exec.May A (garbageCollect occasion digest) s .crashed { s with
      snapshots := s.snapshots.modify name
        fun d => { d with mtime := occasion.collectedAt, file := none } } := by
  obtain ⟨d, file, hd, hfile, -⟩ := readSnapshotFile_eq_ok.mp hread
  have hcollect : Exec.May A (collectSnapshot occasion digest name) s.snapshots .crashed
      (s.snapshots.modify name
        fun d => { d with mtime := occasion.collectedAt, file := none }) := by
    rw [collectSnapshot, if_neg (by simp [hne, hname])]
    refine .bind (may_reading hgo hread) (.bind (a := ()) (.step hgo ?_) (.die hdie))
    rw [hd, Option.bind_some, hfile]
    rfl
  have hloop : Exec.May A (Exec.forEach (collectSnapshot occasion digest)
      ((entries occasion s.snapshots).drop maxRetainedSnapshots)) s.snapshots .crashed
      (s.snapshots.modify name
        fun d => { d with mtime := occasion.collectedAt, file := none }) := by
    rw [hentries]
    refine .forEach_append (fun n hn => ?_) (.forEach_cons (.stop hcollect))
    exact if_pos ((hfront n hn).imp_right fun h => by simp [h])
  unfold garbageCollect inSnapshots
  exact Exec.May.zoom rfl (.bind (may_reading hgo rfl) hloop)

/-- A publication of the inventory that is current already. -/
theorem withInventory_self (hvalid : current.validate lib.crates = .ok ())
    (hschema : current.schemaVersion = snapshotSchemaVersion) :
    withInventory lib current current.payload.inventory = .ok current := by
  refine withInventory_eq_ok.mpr ⟨hvalid, renewed_eq_ok.mpr ⟨?_, hvalid⟩⟩
  rw [← hschema]

/-- A publication that has a snapshot to collect can be stopped with the directory of that snapshot
empty. -/
theorem may_halfRemove {front rest : List String} (hgo : A .go) (hdie : A .die)
    (hopen : openSnapshot lib s = .ok current)
    (hschema : current.schemaVersion = snapshotSchemaVersion) (hpoints : Points s digest)
    (hfresh : Fresh occasion s)
    (hentries : (entries occasion s.snapshots).drop maxRetainedSnapshots = front ++ name :: rest)
    (hfront : ∀ n ∈ front, n = digest ∨ isLowerDigest n = false) (hne : name ≠ digest)
    (hname : isLowerDigest name = true) (hread : readSnapshotFile name s.snapshots = .ok bytes) :
    ∃ s', Exec.May A ((Publication.inventory current.payload.inventory).run lib occasion) s .crashed s' ∧
      s'.blobs = s.blobs ∧ ¬ Whole s' ∧ openSnapshot lib s' = .ok current := by
  obtain ⟨digest', document, hpoints', hcurrent, hdecodes, rfl⟩ := openSnapshot_eq_ok.mp hopen
  cases hpoints.unique hpoints'
  obtain ⟨s₁, hpublish, hsnapshots, hblobs, hpoints₁⟩ := may_publishSnapshot hgo hfresh hpoints hcurrent
  rw [← hsnapshots] at hentries hread
  have hcollect := may_garbageCollect hgo hdie hentries hfront hne hname hread
  obtain ⟨d, file, hd, hfile, -⟩ := readSnapshotFile_eq_ok.mp hread
  refine ⟨_, .bind (may_reading hgo hopen)
    (.bind (may_checking (withInventory_self hdecodes.validate hschema))
      (.bind (may_checking hdecodes.2) (.bind hpublish (.stop hcollect)))), hblobs, ?_, ?_⟩
  · intro hwhole
    have h := hwhole name { d with mtime := occasion.collectedAt, file := none } hname
      (by rw [Folder.getElem?_modify, if_pos rfl, hd, Option.map_some])
    cases h
  · refine openSnapshot_eq_ok.mpr ⟨_, document, hpoints₁, ?_, hdecodes, rfl⟩
    rw [readSnapshotFile, Folder.getElem?_modify, if_neg hne, hsnapshots]
    exact hcurrent

/-- A store with a directory without its file is lost for every publication. -/
theorem not_ok_of_not_whole {p : Publication} (hs : Sound lib content s)
    (hfair : Planning.Fair lib content occasion.host s p) (hpresent : Present s name)
    (hname : isLowerDigest name = true) (hwhole : ¬ Whole s) (fates : List (Fate (Fault PlanningError)))
    (d : String) : (p.run lib occasion fates s).1 ≠ .ok d := by
  intro hok
  have hend := ((sat_run p hs hfair).run fates).ok d hok
  obtain ⟨_, -, -, -, -, -, -, -, hread⟩ := hend
  exact hwhole (hread name hname hpresent)

/-- The oldest entry is collected first when there are too many. -/
theorem exists_split_entries (occasion : Occasion) {f : Folder SnapshotDirectory} (hmem : name ∈ f.now)
    (hmany : maxRetainedSnapshots < f.now.size)
    (holdest : ∀ n d d', f.now[name]? = some d → f.now[n]? = some d' → n ≠ name →
      d.mtime < d'.mtime) :
    ∃ front rest, (entries occasion f).drop maxRetainedSnapshots = front ++ name :: rest ∧
      ∀ n ∈ front, n ≠ name ∧ n ∈ f.now := by
  have hperm : (entries occasion f).Perm f.now.keys :=
    (List.perm_insertionSort _ _).trans (occasion.complete _)
  have hnodup : (entries occasion f).Nodup := hperm.nodup_iff.mpr Std.ExtTreeMap.nodup_keys
  have hkeys : ∀ n, n ∈ entries occasion f ↔ n ∈ f.now := fun n => by
    rw [hperm.mem_iff, Std.ExtTreeMap.mem_keys]
  rw [← List.take_append_drop maxRetainedSnapshots (entries occasion f)] at hnodup
  have hdrop : name ∈ (entries occasion f).drop maxRetainedSnapshots := by
    -- an entry behind it in the order would be as old
    have hsome : (entries occasion f).drop maxRetainedSnapshots ≠ [] := by
      rw [ne_eq, List.drop_eq_nil_iff, hperm.length_eq, Std.ExtTreeMap.length_keys]
      omega
    obtain ⟨n, hn⟩ := List.exists_mem_of_ne_nil _ hsome
    by_contra hno
    have htake : name ∈ (entries occasion f).take maxRetainedSnapshots := by
      have h := (hkeys name).mpr hmem
      rw [← List.take_append_drop maxRetainedSnapshots (entries occasion f), List.mem_append] at h
      exact h.resolve_right hno
    have hsorted : (entries occasion f).Pairwise fun a b =>
        (f.now[b]?.map (·.mtime)).getD 0 ≤ (f.now[a]?.map (·.mtime)).getD 0 :=
      List.pairwise_insertionSort _ _
    rw [← List.take_append_drop maxRetainedSnapshots (entries occasion f), List.pairwise_append]
      at hsorted
    have hle := hsorted.2.2 name htake n hn
    obtain ⟨d, hd⟩ := Option.isSome_iff_exists.mp (Std.ExtTreeMap.mem_iff_isSome_getElem?.mp hmem)
    obtain ⟨d', hd'⟩ := Option.isSome_iff_exists.mp (Std.ExtTreeMap.mem_iff_isSome_getElem?.mp
      ((hkeys n).mp (List.mem_of_mem_drop hn)))
    rw [hd, hd', Option.map_some, Option.map_some, Option.getD_some, Option.getD_some] at hle
    by_cases hne : n = name
    · exact hno (hne ▸ hn)
    · exact absurd (holdest n d d' hd hd' hne) (Nat.not_lt.mpr hle)
  obtain ⟨front, rest, hsplit⟩ := List.append_of_mem hdrop
  refine ⟨front, rest, hsplit, fun n hn => ⟨?_, ?_⟩⟩
  · rintro rfl
    have h := (List.nodup_append.mp hnodup).2.1
    rw [hsplit, List.nodup_append] at h
    exact h.2.2 n hn n List.mem_cons_self rfl
  · refine (hkeys n).mp (List.mem_of_mem_drop (i := maxRetainedSnapshots) ?_)
    rw [hsplit]
    exact List.mem_append_left _ hn

/-- Every store has occasions whose names it does not know. -/
theorem exists_fresh (host : Host) (s : Store) :
    ∃ occasion : Occasion, occasion.host = host ∧ Fresh occasion s := by
  let names := s.files.now.keys ++ s.snapshots.now.keys ++ (s.blobs.elim [] (·.now.keys))
  let stamp := String.ofList (List.replicate (names.map (·.toList.length)).sum '0')
  refine ⟨⟨host, fun _ => stamp, 0, 0, id, fun l => .refl l⟩, rfl, ?_⟩
  have hlong : ∀ base, temporaryName ⟨host, fun _ => stamp, 0, 0, id, fun l => .refl l⟩ base ∉ names := by
    intro base hmem
    have hle := List.single_le_sum (fun _ _ => Nat.zero_le _) _
      (List.mem_map_of_mem (f := fun n : String => n.toList.length) hmem)
    simp only [temporaryName, stamp, String.toList_ofList, List.length_cons, List.length_append,
      List.length_replicate] at hle
    omega
  refine ⟨fun base hmem => hlong base ?_, fun base hmem => hlong base ?_, fun blobs base hblobs hmem =>
    hlong base ?_⟩
  · simp only [names, List.mem_append, Std.ExtTreeMap.mem_keys]
    exact .inl (.inl hmem)
  · simp only [names, List.mem_append, Std.ExtTreeMap.mem_keys]
    exact .inl (.inr hmem)
  · simp only [names, List.mem_append, Std.ExtTreeMap.mem_keys, hblobs, Option.elim_some]
    exact .inr hmem

end

/-! ## A store with one repository

Two snapshots of one repository, which differ in the inventory, and the directories of eight publications
that were stopped before they renamed them. -/

def describedValue (sha256 : String) (size : Int) : Json.Value :=
  .obj [("sha256", .str sha256), ("size", .num size)]

def primarySha256 : String := "986a1b7135f4986150aa5fa0028feeaa66cdaf3ed6a00a355dd86e042f7fb494"
def filelistsSha256 : String := "d34b6d53edfbb763dde137d3a4cb839f7699c59a730b4b3bd74f0dc7d6acf2cd"
def indexSha256 : String := "9e6d749279c27448b1e88294a45081bcd79e148ec6f30f61eba0610bb7c4fed5"

def soloInventory (rpmVersion : String) (h : rpmVersion ≠ "") : InstalledInventory :=
  Core.emptyInventory rpmVersion h

def soloRepository : PlanningRepository :=
  pairRepository "fedora" Core.fedora_ne_empty fedoraGeneration ⟨"https://d/f/repodata/repomd.xml",
    "81aced04e358eb3444b7729bbaa6af17a5f63b5426b161a4efbc3d5e421f31ed"⟩ 1

/-- A snapshot of one repository. -/
def soloSnapshot (inventory : InstalledInventory) : PlanningSnapshot where
  schemaVersion := 7
  publishedAtUnix := 1
  refreshedRepositoryIds := ["fedora"]
  payload := {
    policy := ⟨{ Core.SolverPolicy.fedora44 .x86_64 ["rpm"] [] with
      repoPreferences := [⟨99, 1000, "fedora"⟩] }, [], 3⟩
    inventory := inventory
    allowedRepositories := [soloRepository]
    configuration := [configurationOf (pairConfig "fedora")]
    moduleState := ⟨[]⟩ }

def soloTrustValue : Json.Value :=
  .obj [("allowed_primary_fingerprints", .arr [.str "AAAAAAAAAAAAAAAAAAAAAAAAAAAAAAAAAAAAAAAA"]),
    ("key_bundle_sha256", .str pairBundle.asStr), ("repo_id", .str "fedora"),
    ("require_package_signature", .bool true), ("schema_version", .num 1),
    ("signing_subkey_rule", .str "authorized_subkeys"), ("valid_at_unix", .num 1)]

def soloRepositoryValue : Json.Value :=
  .obj [("cost", .num 1000), ("file_provides", describedValue indexSha256 130),
    ("filelists", describedValue filelistsSha256 9), ("generation_sha256", .str fedoraGeneration),
    ("id", .str "fedora"),
    ("keys", .arr [.obj [("bundle_path", .str "/etc/pki/rpm-gpg/f"),
      ("certificate_base64", .str "a2V5")]]),
    ("origin", .obj [("repomd_url", .str "https://d/f/repodata/repomd.xml"),
      ("sha256", .str "81aced04e358eb3444b7729bbaa6af17a5f63b5426b161a4efbc3d5e421f31ed")]),
    ("primary", describedValue primarySha256 7), ("priority", .num 99),
    ("repomd", describedValue fedoraGeneration 8),
    ("repomd_authentication", .obj [("kind", .str "transport_only")]), ("trust", soloTrustValue)]

def soloConfigurationValue : Json.Value :=
  .obj [("allowed_fingerprints", .arr [.str "AAAAAAAAAAAAAAAAAAAAAAAAAAAAAAAAAAAAAAAA"]),
    ("baseurl", .arr []), ("cost", .num 1000), ("enabled", .bool true), ("excludes", .arr []),
    ("gpgkey", .arr [.str "/etc/pki/rpm-gpg/f"]), ("id", .str "fedora"), ("includes", .arr []),
    ("metalink", .null), ("mirrorlist", .null), ("priority", .num 99), ("repo_gpgcheck", .bool false)]

def soloPolicyValue : Json.Value :=
  .obj [("included_packages", .arr []), ("installonly_limit", .num 3),
    ("solver", .obj [("allow_multilib", .bool false), ("allow_vendor_change", .bool false),
      ("allowed_arches", .arr [.str "x86_64", .str "noarch"]), ("base_arch", .str "x86_64"),
      ("best", .bool false), ("excludes", .arr []), ("install_weak_deps", .bool true),
      ("installonly_packages", .arr []), ("protected_packages", .arr [.str "rpm"]),
      ("repo_preferences", .arr [.obj [("cost", .num 1000), ("priority", .num 99),
        ("repo_id", .str "fedora")]]),
      ("running_kernel_name", .null), ("schema_version", .num 1), ("upgrade_only", .bool true)])]

def soloValue (rpmVersion : String) : Json.Value :=
  .obj [("payload", .obj [("allowed_repositories", .arr [soloRepositoryValue]),
      ("configuration", .arr [soloConfigurationValue]),
      ("inventory", .obj [("install_root", .str "/"), ("packages", .arr []),
        ("rpm_version", .str rpmVersion), ("rpmdb_backend", .str "sqlite"), ("schema_version", .num 1)]),
      ("policy", soloPolicyValue)]),
    ("published_at_unix", .num 1), ("refreshed_repository_ids", .arr [.str "fedora"]),
    ("schema_version", .num 7)]

/-- The document of the snapshot. -/
def soloDocument (rpmVersion : String) : List UInt8 := (soloValue rpmVersion).render

def oldInventory : InstalledInventory := soloInventory "4.19" (by decide)
def newInventory : InstalledInventory := soloInventory "4.20" pairInventory.versionNamed

def oldDigest : Core.Sha256Digest :=
  ⟨"7c25556f1331eb4cb9baad44c1bc7087e6d1a2d51588bb8446835358abfd6816",
    Core.isLowerDigest_ofList (by decide)⟩

def newDigest : Core.Sha256Digest :=
  ⟨"cb8e4616f877baa80bd8df3c02f15ccc24f390e8160d84cf99162e4c40a297d3",
    Core.isLowerDigest_ofList (by decide)⟩

def indexDigest : Core.Sha256Digest := ⟨indexSha256, by decide⟩

def soloCrates : Crates :=
  { pairCrates with sha256 := fun bytes =>
      if bytes.head? = some 0x7b then
        if bytes = soloDocument "4.19" then oldDigest else newDigest
      else if bytes = pairIndex then indexDigest
      else pairCrates.sha256 bytes }

def soloLibrary : Library where
  crates := soloCrates
  indexJson := noJson
  toVec s :=
    if s = soloSnapshot oldInventory then soloDocument "4.19"
    else if s = soloSnapshot newInventory then soloDocument "4.20"
    else []
  fromSlice bytes :=
    if bytes = soloDocument "4.19" then .ok (soloSnapshot oldInventory)
    else if bytes = soloDocument "4.20" then .ok (soloSnapshot newInventory)
    else .error "expected value at line 1 column 1"
  RawModule := Unit
  parseModules _ _ := .ok []
  validateState _ _ _ := .ok ()

theorem soloDocument_injective : Function.Injective soloDocument := by
  intro v w h
  have hvalue : soloValue v = soloValue w := by
    rw [← Option.some.injEq, ← Json.parse_render, ← Json.parse_render]
    exact congrArg Json.parse h
  simpa [soloValue] using hvalue

theorem length_soloDocument_le {rpmVersion : String} (h : rpmVersion.utf8ByteSize ≤ 4) :
    (soloDocument rpmVersion).length ≤ maxSnapshotBytes := by
  have hweight : (soloValue rpmVersion).weight ≤ (soloValue "4.19").weight := by
    have hsize : "4.19".utf8ByteSize = 4 := by decide
    simp only [soloValue, Json.Value.weight, Json.Value.weightMembers, hsize]
    omega
  calc (soloDocument rpmVersion).length ≤ (soloValue rpmVersion).weight :=
        Json.Value.size_le_weight (soloValue rpmVersion)
    _ ≤ (soloValue "4.19").weight := hweight
    _ ≤ maxSnapshotBytes := by decide

theorem head_soloDocument (rpmVersion : String) : (soloDocument rpmVersion).head? = some 0x7b := rfl

theorem sha256_old : soloLibrary.crates.sha256 (soloDocument "4.19") = oldDigest := by
  rw [soloLibrary, soloCrates]
  simp only [head_soloDocument, if_true]

theorem sha256_new : soloLibrary.crates.sha256 (soloDocument "4.20") = newDigest := by
  have hne : soloDocument "4.20" ≠ soloDocument "4.19" := fun h =>
    absurd (soloDocument_injective h) (by decide)
  rw [soloLibrary, soloCrates]
  simp only [head_soloDocument, if_true, if_neg hne]

theorem validate_new : (soloSnapshot newInventory).validate soloLibrary.crates = .ok () := by
  refine PlanningSnapshot.validate_eq_ok.mpr ⟨by decide, by decide, ?_, rfl,
    fun hold => absurd hold.1 (by decide), ?_⟩
  · rw [← Except.toOption_eq_some]
    decide
  · simp only [soloSnapshot, List.forall_mem_cons]
    refine ⟨⟨validateRepository_pair isLowerDigest_fedoraGeneration (by decide +kernel)
      (by decide +kernel), ?_⟩, List.forall_mem_nil _⟩
    rw [← Except.toOption_eq_some]
    decide +kernel

theorem validate_old : (soloSnapshot oldInventory).validate soloLibrary.crates = .ok () :=
  validate_new

/-- The contents of the digests. -/
def soloContent (name : String) : List UInt8 :=
  if name = oldDigest.asStr then soloDocument "4.19"
  else if name = newDigest.asStr then soloDocument "4.20"
  else if name = fedoraGeneration then "repomd-f".asBytes
  else if name = primarySha256 then "primary".asBytes
  else if name = filelistsSha256 then "filelists".asBytes
  else pairIndex

theorem decodes_old : Decodes soloLibrary (soloDocument "4.19") (soloSnapshot oldInventory) := by
  refine ⟨?_, canonicalBytes_eq_ok.mpr ⟨validate_old, ?_⟩⟩
  · rw [soloLibrary]
    simp only [if_true]
  · rw [soloLibrary]
    simp only [if_true]

theorem decodes_new : Decodes soloLibrary (soloDocument "4.20") (soloSnapshot newInventory) := by
  have hne : soloDocument "4.20" ≠ soloDocument "4.19" := fun h =>
    absurd (soloDocument_injective h) (by decide)
  have hne' : soloSnapshot newInventory ≠ soloSnapshot oldInventory := fun h =>
    absurd (congrArg (·.payload.inventory.rpmVersion) h) (by decide)
  refine ⟨?_, canonicalBytes_eq_ok.mpr ⟨validate_new, ?_⟩⟩
  · rw [soloLibrary]
    simp only [if_neg hne, if_true]
  · rw [soloLibrary]
    simp only [if_neg hne', if_true]

/-- A file that was flushed. -/
def kept (bytes : List UInt8) : File := ⟨bytes, true⟩

def soloBlobs : Std.ExtTreeMap String File :=
  (((Std.ExtTreeMap.empty.insert fedoraGeneration (kept "repomd-f".asBytes)).insert primarySha256
    (kept "primary".asBytes)).insert filelistsSha256 (kept "filelists".asBytes)).insert indexSha256
    (kept pairIndex)

/-- A publication that was stopped before it renamed its directory. -/
def stoppedOccasion (n : Nat) : Occasion where
  host := pairHost
  stamp _ := String.ofList ('7' :: '-' :: List.replicate (n + 1) '1')
  stagedAt := 3 + n
  collectedAt := 3 + n
  readDir names := names
  complete names := .refl names

/-- The directory that it has left. -/
def stoppedStaging (n : Nat) : String :=
  temporaryName (stoppedOccasion n) ("staging-" ++ newDigest.asStr)

def soloStaging : List Nat → Std.ExtTreeMap String SnapshotDirectory
  | [] => .empty
  | n :: rest => (soloStaging rest).insert (stoppedStaging n) ⟨3 + n, none, none⟩

def soloSnapshots : Std.ExtTreeMap String SnapshotDirectory :=
  ((soloStaging (List.range 8)).insert oldDigest.asStr
      ⟨1, some (kept (soloDocument "4.19")), some (kept (soloDocument "4.19"))⟩).insert
    newDigest.asStr ⟨2, some (kept (soloDocument "4.20")), some (kept (soloDocument "4.20"))⟩

def soloStore : Store where
  files := ⟨Std.ExtTreeMap.empty.insert currentPointerName (kept (pointerBytes newDigest.asStr)),
    Std.ExtTreeMap.empty.insert currentPointerName (kept (pointerBytes newDigest.asStr))⟩
  snapshots := ⟨soloSnapshots, soloSnapshots⟩
  snapshotsKept := true
  blobs := some ⟨soloBlobs, soloBlobs⟩
  blobsKept := true

def soloOccasion : Occasion where
  host := pairHost
  stamp _ := "9-9"
  stagedAt := 20
  collectedAt := 21
  readDir names := names
  complete names := .refl names

theorem stoppedStaging_injective : Function.Injective stoppedStaging := by
  intro n m h
  have hlength := congrArg (fun name : String => name.toList.length) h
  simp only [stoppedStaging, temporaryName, stoppedOccasion, String.toList_ofList, List.length_cons,
    List.length_append, List.length_replicate] at hlength
  omega

theorem getElem?_soloStaging (l : List Nat) {name : String} {d : SnapshotDirectory}
    (h : (soloStaging l)[name]? = some d) : ∃ n ∈ l, name = stoppedStaging n ∧ d = ⟨3 + n, none, none⟩ := by
  induction l with
  | nil => simp [soloStaging] at h
  | cons n rest ih =>
    rw [soloStaging, Std.ExtTreeMap.getElem?_insert] at h
    split at h
    next heq =>
      cases h
      exact ⟨n, List.mem_cons_self, (Std.compare_eq_iff_eq.mp heq).symm, rfl⟩
    · obtain ⟨m, hm, hname⟩ := ih h
      exact ⟨m, List.mem_cons_of_mem _ hm, hname⟩

theorem size_soloStaging {l : List Nat} (h : l.Nodup) : (soloStaging l).size = l.length := by
  induction l with
  | nil => rfl
  | cons n rest ih =>
    rw [List.nodup_cons] at h
    have hnot : stoppedStaging n ∉ soloStaging rest := by
      intro hmem
      obtain ⟨d, hd⟩ := Option.isSome_iff_exists.mp (Std.ExtTreeMap.mem_iff_isSome_getElem?.mp hmem)
      obtain ⟨m, hm, hname, -⟩ := getElem?_soloStaging rest hd
      exact h.1 (stoppedStaging_injective hname ▸ hm)
    rw [soloStaging, Std.ExtTreeMap.size_insert,
      if_neg (by rwa [Std.ExtTreeMap.contains_iff_mem]), ih h.2, List.length_cons]

theorem newDigest_ne : newDigest.asStr ≠ oldDigest.asStr := by decide

/-- The entries of `snapshots`. -/
theorem getElem?_soloSnapshots {name : String} {d : SnapshotDirectory} (h : soloSnapshots[name]? = some d) :
    (name = newDigest.asStr ∧ d = ⟨2, some (kept (soloDocument "4.20")),
        some (kept (soloDocument "4.20"))⟩) ∨
      (name = oldDigest.asStr ∧ d = ⟨1, some (kept (soloDocument "4.19")),
        some (kept (soloDocument "4.19"))⟩) ∨
      ∃ n, name = stoppedStaging n ∧ d = ⟨3 + n, none, none⟩ := by
  rw [soloSnapshots, Std.ExtTreeMap.getElem?_insert] at h
  split at h
  next heq =>
    cases h
    exact .inl ⟨(Std.compare_eq_iff_eq.mp heq).symm, rfl⟩
  · rw [Std.ExtTreeMap.getElem?_insert] at h
    split at h
    next heq =>
      cases h
      exact .inr (.inl ⟨(Std.compare_eq_iff_eq.mp heq).symm, rfl⟩)
    · obtain ⟨n, -, hname⟩ := getElem?_soloStaging _ h
      exact .inr (.inr ⟨n, hname⟩)

theorem getElem?_soloSnapshots_new : soloSnapshots[newDigest.asStr]? =
    some ⟨2, some (kept (soloDocument "4.20")), some (kept (soloDocument "4.20"))⟩ := by
  rw [soloSnapshots, Std.ExtTreeMap.getElem?_insert_self]

theorem getElem?_soloSnapshots_old : soloSnapshots[oldDigest.asStr]? =
    some ⟨1, some (kept (soloDocument "4.19")), some (kept (soloDocument "4.19"))⟩ := by
  rw [soloSnapshots, Std.ExtTreeMap.getElem?_insert, if_neg (by simpa using newDigest_ne),
    Std.ExtTreeMap.getElem?_insert_self]

theorem size_soloSnapshots : maxRetainedSnapshots < soloSnapshots.size := by
  have hstaging := size_soloStaging (l := List.range 8) List.nodup_range
  have hold : oldDigest.asStr ∉ soloStaging (List.range 8) := by
    intro hmem
    obtain ⟨d, hd⟩ := Option.isSome_iff_exists.mp (Std.ExtTreeMap.mem_iff_isSome_getElem?.mp hmem)
    obtain ⟨n, -, hname, -⟩ := getElem?_soloStaging _ hd
    exact temporaryName_ne oldDigest.canonical hname.symm
  have hsize := Std.ExtTreeMap.size_insert (t := soloStaging (List.range 8)) (k := oldDigest.asStr)
    (v := ⟨1, some (kept (soloDocument "4.19")), some (kept (soloDocument "4.19"))⟩)
  rw [if_neg (by rwa [Std.ExtTreeMap.contains_iff_mem]), hstaging, List.length_range] at hsize
  refine Nat.lt_of_lt_of_le ?_ Std.ExtTreeMap.size_le_size_insert
  rw [hsize]
  decide

theorem soloContent_old : soloContent oldDigest.asStr = soloDocument "4.19" := if_pos rfl

theorem soloContent_new : soloContent newDigest.asStr = soloDocument "4.20" := by
  rw [soloContent, if_neg newDigest_ne, if_pos rfl]

theorem soloContent_repomd : soloContent fedoraGeneration = "repomd-f".asBytes := by
  rw [soloContent, if_neg (by decide), if_neg (by decide), if_pos rfl]

theorem soloContent_primary : soloContent primarySha256 = "primary".asBytes := by
  rw [soloContent, if_neg (by decide), if_neg (by decide), if_neg (by decide), if_pos rfl]

theorem soloContent_filelists : soloContent filelistsSha256 = "filelists".asBytes := by
  rw [soloContent, if_neg (by decide), if_neg (by decide), if_neg (by decide), if_neg (by decide),
    if_pos rfl]

theorem soloContent_index : soloContent indexSha256 = pairIndex := by
  rw [soloContent, if_neg (by decide), if_neg (by decide), if_neg (by decide), if_neg (by decide),
    if_neg (by decide)]

theorem length_pairIndex : pairIndex.length = 130 :=
  LazyIndex.length_singleIndex (i := ⟨packageSha256, "package", "noarch", "0", "1", "1"⟩)
    isLowerDigest_packageSha256 Core.isLowerDigest_primary Core.isLowerDigest_filelists

theorem sha256_index : soloLibrary.crates.sha256 pairIndex = indexDigest := by
  have hhead : pairIndex.head? ≠ some 0x7b := by
    obtain ⟨rest, hrest⟩ := lazyBinaryV3Magic_prefix
    have hfirst : lazyBinaryV3Magic.head? = some 0x44 := by decide
    rw [← hrest, List.head?_append, hfirst, Option.some_or]
    decide
  rw [soloLibrary, soloCrates]
  simp only [if_neg hhead, if_true]

/-- The blobs, with what they are. -/
theorem getElem?_soloBlobs {name : String} {file : File} (h : soloBlobs[name]? = some file) :
    (name = indexSha256 ∧ file = kept pairIndex) ∨
      (name = filelistsSha256 ∧ file = kept "filelists".asBytes) ∨
      (name = primarySha256 ∧ file = kept "primary".asBytes) ∨
      (name = fedoraGeneration ∧ file = kept "repomd-f".asBytes) := by
  simp only [soloBlobs, Std.ExtTreeMap.getElem?_insert, Std.compare_eq_iff_eq] at h
  split at h
  next heq =>
    cases h
    exact .inl ⟨heq.symm, rfl⟩
  split at h
  next heq =>
    cases h
    exact .inr (.inl ⟨heq.symm, rfl⟩)
  split at h
  next heq =>
    cases h
    exact .inr (.inr (.inl ⟨heq.symm, rfl⟩))
  split at h
  next heq =>
    cases h
    exact .inr (.inr (.inr ⟨heq.symm, rfl⟩))
  · simp at h

theorem genuine_blob {name : String} {file : File} (h : soloBlobs[name]? = some file) :
    Genuine soloLibrary soloContent name file.bytes := by
  rcases getElem?_soloBlobs h with ⟨rfl, rfl⟩ | ⟨rfl, rfl⟩ | ⟨rfl, rfl⟩ | ⟨rfl, rfl⟩
  · refine ⟨soloContent_index, by rw [kept, sha256_index, indexDigest], ?_⟩
    rw [kept, length_pairIndex]
    decide
  · exact ⟨soloContent_filelists, by decide +kernel, by decide⟩
  · exact ⟨soloContent_primary, by decide +kernel, by decide⟩
  · exact ⟨soloContent_repomd, by decide +kernel, by decide⟩

theorem shards_soloRepository : referencedShardsForGc noJson pairIndex soloRepository = .ok [] := by
  obtain ⟨m, hm⟩ := validates_pairIndex
  rw [referencedShardsForGc, if_pos (.inr lazyBinaryV3Magic_prefix), retainedLazyBinary, soloRepository,
    pairRepository, hm, Except.ok_bind]
  rfl

theorem mem_descriptors {d : PlanningBytes} (h : d ∈ soloRepository.descriptors) :
    d ∈ [⟨fedoraGeneration, 8, ""⟩, ⟨primarySha256, 7, ""⟩, ⟨filelistsSha256, 9, ""⟩,
      (⟨indexSha256, 130, ""⟩ : PlanningBytes)] := h

theorem backed_solo (inventory : InstalledInventory) :
    Backed soloLibrary soloContent soloStore (soloSnapshot inventory) := by
  have hpresent : ∀ d ∈ soloRepository.descriptors, Present soloStore d.sha256 ∧
      d.Describes soloLibrary (soloContent d.sha256) := by
    intro d hd
    have hblob : ∃ file, soloBlobs[d.sha256]? = some file ∧ file.bytes.length = d.size.toNat := by
      have hmem := mem_descriptors hd
      simp only [List.mem_cons, List.not_mem_nil, or_false] at hmem
      rcases hmem with rfl | rfl | rfl | rfl
      · refine ⟨kept "repomd-f".asBytes, ?_, by decide⟩
        simp only [soloBlobs, Std.ExtTreeMap.getElem?_insert, Std.compare_eq_iff_eq]
        rw [if_neg (by decide), if_neg (by decide), if_neg (by decide), if_pos trivial]
      · refine ⟨kept "primary".asBytes, ?_, by decide⟩
        simp only [soloBlobs, Std.ExtTreeMap.getElem?_insert, Std.compare_eq_iff_eq]
        rw [if_neg (by decide), if_neg (by decide), if_pos trivial]
      · refine ⟨kept "filelists".asBytes, ?_, by decide⟩
        simp only [soloBlobs, Std.ExtTreeMap.getElem?_insert, Std.compare_eq_iff_eq]
        rw [if_neg (by decide), if_pos trivial]
      · refine ⟨kept pairIndex, ?_, length_pairIndex⟩
        rw [soloBlobs, Std.ExtTreeMap.getElem?_insert_self]
    obtain ⟨file, hfile, hsize⟩ := hblob
    have hgenuine := genuine_blob hfile
    refine ⟨⟨_, file, rfl, hfile⟩, ?_, ?_⟩
    · rw [hgenuine.content, hsize]
    · rw [hgenuine.content, hgenuine.digest]
  have hshards : shards soloLibrary soloContent soloRepository = [] := by
    have hcontent : soloContent indexSha256 = pairIndex := soloContent_index
    show (referencedShardsForGc noJson (soloContent indexSha256) soloRepository).toOption.getD [] = []
    rw [hcontent, shards_soloRepository]
    rfl
  intro r hr
  cases List.mem_singleton.mp hr
  refine ⟨fun name hname => ?_, fun d hd _ => hpresent d hd, fun d hd => ?_, fun name hname => ?_⟩
  · rw [references, hshards, List.append_nil] at hname
    obtain ⟨d, hd, rfl⟩ := List.mem_map.mp hname
    exact isLowerDigest_of_validate validate_new List.mem_cons_self hd
  · cases hd
    obtain ⟨h, hdescribes⟩ := hpresent ⟨indexSha256, 130, ""⟩ (by decide)
    refine ⟨h, hdescribes, [], ?_⟩
    show referencedShardsForGc noJson (soloContent indexSha256) soloRepository = .ok []
    rw [soloContent_index, shards_soloRepository]
  · rw [hshards] at hname
    exact absurd hname List.not_mem_nil

theorem holds_new : Holds soloLibrary soloContent soloStore newDigest.asStr :=
  ⟨_, _, _, getElem?_soloSnapshots_new, rfl, decodes_new,
    ⟨soloContent_new, congrArg _ sha256_new,
      (length_soloDocument_le (by decide)).trans_lt (by decide)⟩, backed_solo _⟩

theorem holds_old : Holds soloLibrary soloContent soloStore oldDigest.asStr :=
  ⟨_, _, _, getElem?_soloSnapshots_old, rfl, decodes_old,
    ⟨soloContent_old, congrArg _ sha256_old,
      (length_soloDocument_le (by decide)).trans_lt (by decide)⟩, backed_solo _⟩

theorem points_soloStore : Points soloStore newDigest.asStr := by
  refine ⟨kept (pointerBytes newDigest.asStr), ?_, pointerDigest_pointerBytes newDigest.canonical⟩
  rw [soloStore, Std.ExtTreeMap.getElem?_insert_self]

theorem digest_of_mem {name : String} {d : SnapshotDirectory} (hname : isLowerDigest name = true)
    (h : soloSnapshots[name]? = some d) : name = newDigest.asStr ∨ name = oldDigest.asStr := by
  rcases getElem?_soloSnapshots h with ⟨rfl, -⟩ | ⟨rfl, -⟩ | ⟨n, rfl, -⟩
  · exact .inl rfl
  · exact .inr rfl
  · exact absurd rfl (temporaryName_ne hname)

theorem sound_soloStore : Sound soloLibrary soloContent soloStore := by
  refine ⟨?_, fun name d hname hd => .inr ?_, fun _ _ => ⟨_, points_soloStore, holds_new⟩⟩
  · intro blobs name file hblobs _ hfile
    cases hblobs
    exact genuine_blob hfile
  · rcases digest_of_mem hname hd with rfl | rfl
    · exact holds_new
    · exact holds_old

theorem file_of_mem {name : String} {d : SnapshotDirectory} (hname : isLowerDigest name = true)
    (h : soloSnapshots[name]? = some d) : ∃ file, d.file = some file ∧
      file.bytes.length ≤ maxSnapshotBytes := by
  rcases getElem?_soloSnapshots h with ⟨-, rfl⟩ | ⟨-, rfl⟩ | ⟨n, rfl, -⟩
  · exact ⟨_, rfl, length_soloDocument_le (by decide)⟩
  · exact ⟨_, rfl, length_soloDocument_le (by decide)⟩
  · exact absurd rfl (temporaryName_ne hname)

theorem whole_soloStore : Whole soloStore := by
  intro name d hname hd
  obtain ⟨file, hfile, -⟩ := file_of_mem hname hd
  rw [hfile, Option.isSome_some]

theorem fits_soloStore : Fits soloStore := by
  intro name d file hname hd hfile
  obtain ⟨file', hfile', hlength⟩ := file_of_mem hname hd
  cases hfile.symm.trans hfile'
  exact hlength

theorem openSnapshot_soloStore : openSnapshot soloLibrary soloStore = .ok (soloSnapshot newInventory) :=
  openSnapshot_of_points points_soloStore ⟨_, _, getElem?_soloSnapshots_new, rfl, rfl⟩ decodes_new
    (congrArg _ sha256_new) (length_soloDocument_le (by decide))

theorem toVec_new : soloLibrary.toVec (soloSnapshot newInventory) = soloDocument "4.20" :=
  (canonicalBytes_eq_ok.mp decodes_new.2).2

/-- The inventory that is current already is published once more. -/
theorem intends_again {s : Store} {host : Host} {new : PlanningSnapshot}
    (hopen : openSnapshot soloLibrary s = .ok (soloSnapshot newInventory)) :
    Intends soloLibrary soloContent host s (.inventory newInventory) new ↔
      new = soloSnapshot newInventory := by
  have hself : withInventory soloLibrary (soloSnapshot newInventory) newInventory =
      .ok (soloSnapshot newInventory) := withInventory_self decodes_new.validate rfl
  constructor
  · rintro ⟨current, hcurrent, hnew⟩
    cases hcurrent.symm.trans (currentSnapshot_eq_ok_some.mpr hopen)
    obtain ⟨c, hc, hnew⟩ := snapshot_inventory_eq_ok.mp hnew
    cases hc
    exact Except.ok.inj (hnew.symm.trans hself)
  · rintro rfl
    exact ⟨_, currentSnapshot_eq_ok_some.mpr hopen, snapshot_inventory_eq_ok.mpr ⟨_, rfl, hself⟩⟩

theorem fair_again {s : Store} {host : Host}
    (hopen : openSnapshot soloLibrary s = .ok (soloSnapshot newInventory)) :
    Fair soloLibrary soloContent host s (.inventory newInventory) := by
  refine ⟨fun new hnew => ?_, fun new hnew => ?_, nofun⟩
  · rw [(intends_again hopen).mp hnew, toVec_new]
    exact decodes_new.1
  · rw [(intends_again hopen).mp hnew, toVec_new, sha256_new, soloContent_new]

theorem fits_again {s : Store} {host : Host}
    (hopen : openSnapshot soloLibrary s = .ok (soloSnapshot newInventory)) (new : PlanningSnapshot)
    (hnew : Intends soloLibrary soloContent host s (.inventory newInventory) new) :
    (soloLibrary.toVec new).length ≤ maxSnapshotBytes := by
  rw [(intends_again hopen).mp hnew, toVec_new]
  exact length_soloDocument_le (by decide)

theorem valid_again (host : Host) : (Publication.inventory newInventory).Valid soloLibrary soloContent
    host (some (soloSnapshot newInventory)) (soloSnapshot newInventory) := by
  refine ⟨?_, ?_, nofun, nofun⟩
  · exact snapshot_inventory_eq_ok.mpr ⟨_, rfl, withInventory_self decodes_new.validate rfl⟩
  · rw [toVec_new]
    exact length_soloDocument_le (by decide)

theorem fresh_soloStore : Fresh soloOccasion soloStore := by
  have hlast : ∀ base, (temporaryName soloOccasion base).toList.getLast? = some '9' := by
    intro base
    have hsplit : (temporaryName soloOccasion base).toList =
        ('.' :: base.toList ++ ['-', '9', '-']) ++ ['9'] := by
      simp [temporaryName, soloOccasion]
    rw [hsplit, List.getLast?_append, List.getLast?_singleton, Option.some_or]
  have hstaging : ∀ n, (stoppedStaging n).toList.getLast? = some '1' := by
    intro n
    have hsplit : (stoppedStaging n).toList = ('.' :: ("staging-" ++ newDigest.asStr).toList ++
        '-' :: '7' :: '-' :: List.replicate n '1') ++ ['1'] := by
      simp [stoppedStaging, temporaryName, stoppedOccasion, List.replicate_succ']
    rw [hsplit, List.getLast?_append, List.getLast?_singleton, Option.some_or]
  refine ⟨fun base hmem => ?_, fun base hmem => ?_, fun blobs base hblobs hmem => ?_⟩
  · rw [soloStore, Std.ExtTreeMap.mem_insert] at hmem
    rcases hmem with hmem | hmem
    · exact temporaryName_ne_current soloOccasion base (Std.compare_eq_iff_eq.mp hmem).symm
    · simp at hmem
  · obtain ⟨d, hd⟩ := Option.isSome_iff_exists.mp (Std.ExtTreeMap.mem_iff_isSome_getElem?.mp hmem)
    rcases getElem?_soloSnapshots hd with ⟨hname, -⟩ | ⟨hname, -⟩ | ⟨n, hname, -⟩
    · exact temporaryName_ne newDigest.canonical hname
    · exact temporaryName_ne oldDigest.canonical hname
    · have h := hlast base
      rw [hname, hstaging n] at h
      exact absurd h (by decide)
  · cases hblobs
    obtain ⟨file, hfile⟩ := Option.isSome_iff_exists.mp (Std.ExtTreeMap.mem_iff_isSome_getElem?.mp hmem)
    have hdigest := (genuine_blob hfile).digest
    exact temporaryName_ne (soloLibrary.crates.sha256 file.bytes).canonical hdigest.symm

/-- The publication of the inventory that is current already. -/
def soloEvent : Event := ⟨.inventory newInventory, soloOccasion, []⟩

section
variable {A : Fate (Fault PlanningError) → Prop} {lib : Library} {content : String → List UInt8}
  {s s' : Store} {e : Event} {allowed : Store → Event → Prop}

/-! ## Collection -/

/-- Whatever becomes of its steps, a publication keeps the snapshot that the pointer names, and of every
snapshot that stays, everything that it refers to; and when it succeeds, only blobs are left that a
snapshot refers to. -/
theorem collection_keeps_references (h₀ : Sound lib content s)
    (h : Reaches lib (fun s e => e.Fair lib content s) s s') (hfair : e.Fair lib content s') :
    (∀ name, Points (e.after lib s') name → Holds lib content (e.after lib s') name) ∧
      (∀ name d, isLowerDigest name = true → (e.after lib s').snapshots.now[name]? = some d →
        d.file.isSome = true → Holds lib content (e.after lib s') name) ∧
      ∀ digest, e.outcome lib s' = .ok digest → Points (e.after lib s') digest ∧
        ∀ name, isLowerDigest name = true → Present (e.after lib s') name →
          Referenced lib content (e.after lib s') name := by
  have hs : Sound lib content s' := h.invariant h₀ fun _ _ hs hf => Event.sound hs hf
  have hend := e.ends (A := fun _ => True) hs hfair fun _ _ => trivial
  refine ⟨fun name hpoints => ?_, fun name d hname hd hfile => ?_, fun digest hok => ?_⟩
  · obtain ⟨file, hfile, -⟩ := id hpoints
    obtain ⟨name', hpoints', hholds⟩ := hend.sound.current file hfile
    rwa [hpoints.unique hpoints']
  · refine (hend.sound.snapshots name d hname hd).resolve_left fun hnone => ?_
    rw [hnone] at hfile
    cases hfile
  · obtain ⟨_, -, -, -, hpoints, -, htidy, -⟩ := hend.ok digest hok
    exact ⟨hpoints, htidy⟩

end

theorem fair_soloEvent : soloEvent.Fair soloLibrary soloContent soloStore :=
  fair_again openSnapshot_soloStore

theorem collection_keeps_references_solo : ∃ digest,
    soloEvent.outcome soloLibrary soloStore = .ok digest ∧
      Holds soloLibrary soloContent (soloEvent.after soloLibrary soloStore) digest ∧
      ∀ name, isLowerDigest name = true → Present (soloEvent.after soloLibrary soloStore) name →
        Referenced soloLibrary soloContent (soloEvent.after soloLibrary soloStore) name := by
  obtain ⟨digest, s', hrun, -⟩ := (usable_of_whole sound_soloStore whole_soloStore
    fits_soloStore).publishes soloOccasion _ _ _ (currentSnapshot_eq_ok_some.mpr openSnapshot_soloStore)
    (valid_again soloOccasion.host) (fair_again openSnapshot_soloStore) fresh_soloStore
  rw [Event.clean_eq] at hrun
  have hok : soloEvent.outcome soloLibrary soloStore = .ok digest := (Prod.mk.inj hrun).1
  obtain ⟨hcurrent, -, htidy⟩ := collection_keeps_references sound_soloStore .start fair_soloEvent
  obtain ⟨hpoints, hreferenced⟩ := htidy digest hok
  exact ⟨digest, hok, hcurrent digest hpoints, hreferenced⟩

section
variable {A : Fate (Fault PlanningError) → Prop} {lib : Library} {content : String → List UInt8}
  {s s' : Store} {e : Event} {allowed : Store → Event → Prop}

/-! ## A history that is stopped -/

/-- The publication may be stopped, but no step of it fails, and what it has to store can be read
again. -/
structure Event.Stoppable (lib : Library) (content : String → List UInt8) (s : Store) (e : Event) :
    Prop where
  fair : e.Fair lib content s
  fates : ∀ f ∈ e.fates, ∀ error, f ≠ .fail error
  fits : ∀ new, Intends lib content e.occasion.host s e.publication new →
    (lib.toVec new).length ≤ maxSnapshotBytes

/-- Moreover it is not stopped while the directory of a snapshot is without its file. -/
structure Event.Spared (lib : Library) (content : String → List UInt8) (s : Store) (e : Event) : Prop
    extends e.Stoppable lib content s where
  spared : e.outcome lib s = .crashed → Whole (e.after lib s)

theorem Event.Spared.keeps (he : e.Spared lib content s) (hs : Sound lib content s) (hwhole : Whole s)
    (hfits : Fits s) : Whole (e.after lib s) ∧ Fits (e.after lib s) := by
  have hend := e.ends hs he.fair he.fates
  refine ⟨?_, hend.fits hfits he.fits⟩
  cases ho : e.outcome lib s with
  | ok d =>
    obtain ⟨_, -, -, -, -, -, -, hkeeps, -⟩ := hend.ok d ho
    exact hkeeps hwhole
  | err error => exact (hend.err error ho (fun x h => h x rfl) hwhole hfits).1
  | crashed => exact he.spared ho

/-- In a history that is never stopped while a snapshot is half removed, every store can be published
to. -/
theorem usable_of_spared (hs : Sound lib content s) (hwhole : Whole s) (hfits : Fits s)
    (h : Reaches lib (fun s e => e.Spared lib content s) s s') : Usable lib content s' := by
  have hinv : Sound lib content s' ∧ Whole s' ∧ Fits s' :=
    h.invariant (I := fun s => Sound lib content s ∧ Whole s ∧ Fits s) ⟨hs, hwhole, hfits⟩
      fun _ e ⟨hs, hw, hf⟩ he => ⟨e.sound hs he.fair, he.keeps hs hw hf⟩
  exact usable_of_whole hinv.1 hinv.2.1 hinv.2.2

end

theorem usable_of_spared_solo :
    Usable soloLibrary soloContent (soloEvent.after soloLibrary soloStore) := by
  refine usable_of_spared sound_soloStore whole_soloStore fits_soloStore (.next .start ?_)
  refine ⟨⟨fair_soloEvent, nofun, fits_again openSnapshot_soloStore⟩, fun hcrashed => ?_⟩
  exact ((soloEvent.ends (A := fun _ => False) sound_soloStore fair_soloEvent nofun).crashed hcrashed).elim

/-- The publication is stopped after it has removed the file of the older snapshot. -/
theorem exists_stopped : ∃ e s', Event.Stoppable soloLibrary soloContent soloStore e ∧
    e.after soloLibrary soloStore = s' ∧ s'.blobs = soloStore.blobs ∧ ¬ Whole s' ∧
    openSnapshot soloLibrary s' = .ok (soloSnapshot newInventory) := by
  have hmem : oldDigest.asStr ∈ soloSnapshots := by
    rw [Std.ExtTreeMap.mem_iff_isSome_getElem?, getElem?_soloSnapshots_old, Option.isSome_some]
  obtain ⟨front, rest, hsplit, hfront⟩ := exists_split_entries soloOccasion
    (f := soloStore.snapshots) hmem size_soloSnapshots (by
      intro n d d' hd hd' hne
      cases getElem?_soloSnapshots_old.symm.trans hd
      rcases getElem?_soloSnapshots hd' with ⟨-, rfl⟩ | ⟨rfl, -⟩ | ⟨k, -, rfl⟩
      · decide
      · exact absurd rfl hne
      · show 1 < 3 + k
        omega)
  have hothers : ∀ n ∈ front, n = newDigest.asStr ∨ isLowerDigest n = false := by
    intro n hn
    obtain ⟨hne, hn⟩ := hfront n hn
    obtain ⟨d, hd⟩ := Option.isSome_iff_exists.mp (Std.ExtTreeMap.mem_iff_isSome_getElem?.mp hn)
    rcases getElem?_soloSnapshots hd with ⟨hname, -⟩ | ⟨hname, -⟩ | ⟨k, rfl, -⟩
    · exact .inl hname
    · exact absurd hname hne
    · exact .inr (isLowerDigest_temporaryName _ _)
  have hread : readSnapshotFile oldDigest.asStr soloStore.snapshots = .ok (soloDocument "4.19") :=
    readSnapshotFile_eq_ok.mpr ⟨_, _, getElem?_soloSnapshots_old, rfl,
      length_soloDocument_le (by decide), rfl⟩
  obtain ⟨s', ⟨fates, hfates, hrun⟩, hblobs, hwhole, hopen⟩ := may_halfRemove
    (A := fun f => ∀ error, f ≠ .fail error) nofun nofun openSnapshot_soloStore rfl points_soloStore
    fresh_soloStore hsplit hothers newDigest_ne.symm oldDigest.canonical hread
  refine ⟨⟨.inventory newInventory, soloOccasion, fates⟩, s',
    ⟨fair_again openSnapshot_soloStore, hfates, fits_again openSnapshot_soloStore⟩, ?_, hblobs, hwhole, hopen⟩
  · have h := hrun []
    rw [List.append_nil] at h
    rw [Event.after]
    exact congrArg (·.2.1) h

/-- A publication that is stopped after it has removed the file of a snapshot leaves a store that no
publication succeeds on. -/
theorem stopped_publication_wedges : ¬ ∀ (lib : Library) (content : String → List UInt8) (s s' : Store),
    Sound lib content s → Whole s → Fits s →
    Reaches lib (fun s e => e.Stoppable lib content s) s s' → Usable lib content s' := by
  intro h
  obtain ⟨e, s', hstoppable, hafter, hblobs, hwhole, hopen⟩ := exists_stopped
  have hsound : Sound soloLibrary soloContent s' := hafter ▸ e.sound sound_soloStore hstoppable.fair
  have husable := h soloLibrary soloContent soloStore s' sound_soloStore whole_soloStore fits_soloStore
    (hafter ▸ .next .start hstoppable)
  obtain ⟨occasion, -, hfresh⟩ := exists_fresh pairHost s'
  obtain ⟨d, s'', hrun, -⟩ := husable.publishes occasion _ _ _ (currentSnapshot_eq_ok_some.mpr hopen)
    (valid_again _) (fair_again hopen) hfresh
  have hpresent : Present s' indexSha256 := by
    refine ⟨⟨soloBlobs, soloBlobs⟩, kept pairIndex, hblobs, ?_⟩
    rw [soloBlobs, Std.ExtTreeMap.getElem?_insert_self]
  exact not_ok_of_not_whole hsound (fair_again hopen) hpresent indexDigest.canonical hwhole [] d
    (congrArg Prod.fst hrun)

end Dnfast.Planning
