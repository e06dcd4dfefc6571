import Dnfast.Planning.CacheHost
import Dnfast.Planning.Settles
import Dnfast.Refresh.Atomic
import Dnfast.Refresh.Growth

/-! # The refresh command

`dnfast-cli`, `repo.rs`. Each selected repository is refreshed by a worker of its own, from the first of
its sources that succeeds, and the planning snapshot is published when all of them have succeeded. The
workers take turns in any order: a turn is an attempt with one source. -/

namespace Dnfast.Cli

open Durable
open Except (refuseIf)
open Core (Architecture InstalledInventory)
open Planning (MutationProfile RepoConfig)
open Refresh (Source RefreshOutcome RefreshState)

/-- `AppFailure` of the refresh. -/
structure RefreshFailure where
  code : Nat
  message : String
  deriving DecidableEq

structure RefreshReport where
  refreshed : List String
  planningSnapshot : String
  deriving DecidableEq

/-! ## Texts -/

/-- `char::escape_default` of a control character. -/
def escapeControl (c : Char) : List Char :=
  match c with
  | '\t' => ['\\', 't']
  | '\n' => ['\\', 'n']
  | '\r' => ['\\', 'r']
  | c => "\\u\x7b".toList ++ Nat.toDigits 16 c.toNat ++ "\x7d".toList

def escapedField (value : String) : String :=
  String.ofList (value.toList.flatMap fun c => if Metadata.isControl c then escapeControl c else [c])

/-! ## Selection -/

def sources (r : RepoConfig) : List Source :=
  r.baseurl.map .baseUrl ++ (r.metalink.map .metalink).toList ++ (r.mirrorlist.map .mirrorlist).toList

def checkRequested (profile : MutationProfile) (requested : List String) : Except RefreshFailure Unit :=
  forM requested fun id => refuseIf (¬ ∃ r ∈ profile.repositories, r.enabled = true ∧ r.id = id)
    ⟨1, "unknown repository: " ++ id⟩

/-- The repositories that are not requested and have no generation yet. -/
def missingGenerations (requested : List String) (hasGeneration : String → Except String Bool) :
    List RepoConfig → Except RefreshFailure (List String)
  | [] => .ok []
  | r :: rest =>
    if r.id ∈ requested then missingGenerations requested hasGeneration rest
    else do
      let found ← (hasGeneration r.id).mapError fun error =>
        ⟨1, "cannot inspect repository " ++ r.id ++ " cache: " ++ error⟩
      let missing ← missingGenerations (if found then requested else r.id :: requested)
        hasGeneration rest
      return if found then missing else r.id :: missing

def expandBootstrapSelection (profile : MutationProfile) (requested : List String)
    (hasGeneration : String → Except String Bool) : Except RefreshFailure (List String) := do
  let requested := requested.sortDedup
  checkRequested profile requested
  if requested = [] then return requested
  else do
    let missing ← missingGenerations requested hasGeneration (profile.repositories.filter (·.enabled))
    return (requested ++ missing).insertionSort (· ≤ ·)

/-- The repositories that are refreshed, in the order of their identifiers. -/
def selectedRepositories (profile : MutationProfile) (requested : List String) : List RepoConfig :=
  ((profile.repositories.filter (·.enabled)).filter fun r =>
    requested = [] ∨ r.id ∈ requested).insertionSort (·.id ≤ ·.id)

/-! ## Workers -/

structure Worker where
  repository : RepoConfig
  remaining : List Source
  outcome : Option RefreshOutcome
  lastError : Option String

namespace Worker

def start (r : RepoConfig) : Worker := ⟨r, sources r, none, none⟩

/-- What the worker returns. -/
def result (w : Worker) : Except String (String × String × String) :=
  match w.outcome with
  | some outcome => .ok (escapedField w.repository.id, w.repository.id, outcome.digest)
  | none => .error (w.repository.id ++ ": " ++ w.lastError.getD "repository has no usable source")

section
variable {σ : Type} (refreshSource : RepoConfig → Source → Fallible σ String RefreshOutcome)

/-- An attempt with the next source. A worker that has succeeded makes none. -/
def turn (w : Worker) (s : σ) : Worker × σ :=
  match w.outcome, w.remaining with
  | none, source :: rest =>
    match refreshSource w.repository source s with
    | (.ok value, s') => (⟨w.repository, rest, some value, w.lastError⟩, s')
    | (.error e, s') => (⟨w.repository, rest, none, some e⟩, s')
  | _, _ => (w, s)

/-- The turns that are left. -/
def finish : List Source → Worker → σ → Worker × σ
  | [], w, s => (w, s)
  | _ :: rest, w, s => finish rest (w.turn refreshSource s).1 (w.turn refreshSource s).2

end

end Worker

section
variable {σ : Type} (refreshSource : RepoConfig → Source → Fallible σ String RefreshOutcome)

/-- The turns of the workers with the numbers that a schedule has. -/
def takeTurns : List Nat → List Worker → σ → List Worker × σ
  | [], workers, s => (workers, s)
  | i :: schedule, workers, s =>
    match workers[i]? with
    | none => takeTurns schedule workers s
    | some w => takeTurns schedule (workers.set i (w.turn refreshSource s).1) (w.turn refreshSource s).2

/-- What the schedule has left is done. -/
def finishAll : List Worker → σ → List Worker × σ
  | [], s => ([], s)
  | w :: rest, s =>
    let (w', s') := w.finish refreshSource w.remaining s
    let (rest', s'') := finishAll rest s'
    (w' :: rest', s'')

/-- `std::thread::scope`: the workers run, and their results are collected. -/
def runWorkers (schedule : List Nat) (workers : List Worker) :
    Fallible σ RefreshFailure (List (String × String × String)) := fun s =>
  let (workers, s) := takeTurns refreshSource schedule workers s
  let (workers, s) := finishAll refreshSource workers s
  ((workers.mapM Worker.result).mapError fun error => ⟨1, error⟩, s)

/-- `refresh_profile` up to the publication. -/
def refreshSelected (profile : MutationProfile) (requested : List String) (schedule : List Nat) :
    Fallible σ RefreshFailure (List (String × String × String)) := do
  let requested := requested.sortDedup
  Fallible.lift (checkRequested profile requested)
  let selected := selectedRepositories profile requested
  Fallible.lift (refuseIf (selected = []) ⟨1, "no enabled repositories selected"⟩)
  runWorkers refreshSource schedule (selected.map Worker.start)

/-- `refresh_profile` from the publication on. -/
def publishRefreshed (publishSnapshot : UInt64 → List (String × String) → Fallible σ String String)
    (publishedAtUnix : UInt64) (results : List (String × String × String)) :
    Fallible σ RefreshFailure RefreshReport := do
  let planningSnapshot ← Fallible.mapError (fun error => ⟨1, error⟩)
    (publishSnapshot publishedAtUnix (results.map fun (_, repository, digest) => (repository, digest)))
  return ⟨results.map (·.1), planningSnapshot⟩

def refreshProfile (profile : MutationProfile) (requested : List String) (schedule : List Nat)
    (publishSnapshot : UInt64 → List (String × String) → Fallible σ String String)
    (publishedAtUnix : UInt64) : Fallible σ RefreshFailure RefreshReport := do
  let results ← refreshSelected refreshSource profile requested schedule
  publishRefreshed publishSnapshot publishedAtUnix results

end

/-! ## The publishing process -/

/-- `split_once('=')`. -/
def splitOnceEq (text : List Char) : Option (List Char × List Char) :=
  match text.span (· ≠ '=') with
  | (repository, _ :: digest) => some (repository, digest)
  | (_, []) => none

def parseGeneration (generation : String) : Except RefreshFailure (String × String) :=
  match splitOnceEq generation.toList with
  | none => .error ⟨2, "planning generation must be REPOSITORY=SHA256"⟩
  | some (repository, digest) => do
    refuseIf (repository = [] ∨ digest = [] ∨ '=' ∈ digest)
      ⟨2, "planning generation must be REPOSITORY=SHA256"⟩
    return (String.ofList repository, String.ofList digest)

/-! ## The command -/

/-- What the command changes. -/
structure RefreshSystem where
  refresh : RefreshState
  planning : Planning.Store

/-- What a refresh command is given and what it finds, besides the cache and the planning store. -/
structure RefreshCommand where
  env : Refresh.Environment
  library : Planning.Library
  profile : MutationProfile
  hostArchitecture : Architecture
  inventory : InstalledInventory
  keyBundleDigest : String → List String → Except String Planning.KeyBundle
  base64Encode : List UInt8 → String
  /-- `metadata_trust`. -/
  metadataTrust : RepoConfig → Except String (Option Refresh.MetadataTrust)
  /-- What becomes of the lock of a repository, by the number of requests before. -/
  locks : String → Nat → Except Refresh.RefreshError Unit
  requested : List String
  /-- The order in which the workers take turns. -/
  schedule : List Nat
  publishedAtUnix : UInt64
  /-- The publishing process: whether it starts, what it finds, what becomes of its steps, what is
  reported when it fails, and whether its answer is read. -/
  spawned : Except String Unit
  occasion : Planning.Occasion
  fates : List (Fate (Fault Planning.PlanningError))
  status : String
  answered : Except String Unit

namespace RefreshCommand
variable (c : RefreshCommand)

def host (cache : Cache.CacheStore) : Planning.Host :=
  Planning.hostOf c.env.cache c.keyBundleDigest c.base64Encode cache

def refreshSource (r : RepoConfig) (source : Source) :
    Fallible RefreshSystem String RefreshOutcome := fun s =>
  match c.metadataTrust r with
  | .error e => (.error e, s)
  | .ok trust =>
    match Refresh.refreshWithMetadataTrust c.env (c.locks r.id s.refresh.requests) r.id source trust
        s.refresh with
    | (.ok outcome, refresh) => (.ok outcome, { s with refresh })
    | (.error e, refresh) => (.error e.text, { s with refresh })

def refreshOf (publishedAtUnix : UInt64) (generations : List (String × String)) : Planning.Refresh where
  profile := c.profile
  inventory := c.inventory
  publishedAtUnix := publishedAtUnix
  hostArchitecture := c.hostArchitecture
  refreshedGenerations := some (generations.insertionSort fun a b => a.1 ≤ b.1)

/-- `publish_internal` with the arguments of the process. `none` is a process that failed. -/
def publishInternal (cache : Cache.CacheStore) (publishedAtUnix : UInt64) (generations : List String)
    (planning : Planning.Store) : Option String × Planning.Store :=
  match generations.mapM parseGeneration with
  | .error _ => (none, planning)
  | .ok parsed =>
    let published := Planning.publish c.library { c.occasion with host := c.host cache }
      (c.refreshOf publishedAtUnix parsed) c.fates planning
    (match published.1 with | .ok digest => some digest | _ => none, published.2.1)

def publishInCleanProcess (publishedAtUnix : UInt64) (generations : List (String × String)) :
    Fallible RefreshSystem String String := fun s =>
  match c.spawned with
  | .error e => (.error ("planning publisher exec failed: " ++ e), s)
  | .ok () =>
    let published := c.publishInternal s.refresh.cache publishedAtUnix
      (generations.map fun (repository, digest) => repository ++ "=" ++ digest) s.planning
    (match published.1 with
      | none => .error ("planning publisher failed with status " ++ c.status)
      | some digest => c.answered.map fun () => digest,
      { s with planning := published.2 })

def hasGeneration (cache : Cache.CacheStore) (id : String) : Except String Bool :=
  match Cache.currentPointer c.env.cache cache id with
  | .ok _ => .ok true
  | .error (.io e) => .error e
  | .error _ => .ok false

def selection : Fallible RefreshSystem RefreshFailure (List String) :=
  Fallible.observe fun s =>
    expandBootstrapSelection c.profile c.requested (c.hasGeneration s.refresh.cache)

/-- `refresh`, once the process is root and the cache is prepared. -/
def run : Fallible RefreshSystem RefreshFailure RefreshReport := do
  let requested ← c.selection
  refreshProfile c.refreshSource c.profile requested c.schedule c.publishInCleanProcess
    c.publishedAtUnix

end RefreshCommand

/-! ## What the refreshes leave -/

section
variable {σ : Type} {refreshSource : RepoConfig → Source → Fallible σ String RefreshOutcome}
  {I : σ → Prop}
  (hrefresh : ∀ r source s, I s → (refreshSource r source).Post s fun _ s' => I s')

include hrefresh

theorem Worker.turn_keeps (w : Worker) {s : σ} (h : I s) : I (w.turn refreshSource s).2 := by
  rcases w with ⟨r, _ | ⟨source, rest⟩, _ | outcome, lastError⟩
  · exact h
  · exact h
  · have hpost := hrefresh r source s h
    unfold Worker.turn
    rcases hrun : refreshSource r source s with ⟨e | value, s'⟩
    all_goals
      rw [Fallible.Post, hrun] at hpost
      simpa only [hrun] using hpost
  · exact h

theorem Worker.finish_keeps (left : List Source) (w : Worker) {s : σ} (h : I s) :
    I (w.finish refreshSource left s).2 := by
  induction left generalizing w s with
  | nil => exact h
  | cons source rest ih => exact ih _ (w.turn_keeps hrefresh h)

theorem takeTurns_keeps (schedule : List Nat) (workers : List Worker) {s : σ} (h : I s) :
    I (takeTurns refreshSource schedule workers s).2 := by
  induction schedule generalizing workers s with
  | nil => exact h
  | cons i schedule ih =>
    unfold takeTurns
    cases workers[i]? with
    | none => exact ih workers h
    | some w => exact ih _ (w.turn_keeps hrefresh h)

theorem finishAll_keeps (workers : List Worker) {s : σ} (h : I s) :
    I (finishAll refreshSource workers s).2 := by
  induction workers generalizing s with
  | nil => exact h
  | cons w rest ih => exact ih (w.finish_keeps hrefresh w.remaining h)

/-- Whatever the order of the turns, the workers keep what every attempt keeps. -/
theorem post_runWorkers {schedule : List Nat} {workers : List Worker} {s : σ} (h : I s) :
    (runWorkers refreshSource schedule workers).Post s fun _ s' => I s' :=
  finishAll_keeps hrefresh _ (takeTurns_keeps hrefresh schedule workers h)

theorem post_refreshSelected {profile : MutationProfile} {requested : List String} {schedule : List Nat}
    {s : σ} (h : I s) :
    (refreshSelected refreshSource profile requested schedule).Post s fun _ s' => I s' := by
  refine Fallible.Post.keeps (I := I) h fun _ s₁ h₁ => ?_
  exact Fallible.Post.keeps (I := I) h₁ fun _ s₂ h₂ => post_runWorkers hrefresh h₂

end

namespace RefreshCommand
variable (c : RefreshCommand)

/-- The refreshes only add to the cache and leave the planning store. -/
def Refreshing (s s' : RefreshSystem) : Prop :=
  Cache.Grows s.refresh.cache s'.refresh.cache ∧ s'.planning = s.planning

theorem post_refreshSource_of {r : RepoConfig} {source : Source} {s : RefreshSystem}
    {trust : Option Refresh.MetadataTrust} {Q : RefreshState → Prop}
    (htrust : c.metadataTrust r = .ok trust)
    (h : (Refresh.refreshWithMetadataTrust c.env (c.locks r.id s.refresh.requests) r.id source
      trust).Post s.refresh fun _ s' => Q s') :
    (c.refreshSource r source).Post s fun _ s' => Q s'.refresh ∧ s'.planning = s.planning := by
  unfold refreshSource Fallible.Post
  simp only [htrust]
  rw [Fallible.Post] at h
  rcases hrun : Refresh.refreshWithMetadataTrust c.env (c.locks r.id s.refresh.requests) r.id source
    trust s.refresh with ⟨e | outcome, s'⟩
  all_goals
    rw [hrun] at h
    exact ⟨h, rfl⟩

theorem post_refreshSource {r : RepoConfig} {source : Source} {s s₀ : RefreshSystem}
    (h : Refreshing s₀ s) : (c.refreshSource r source).Post s fun _ s' => Refreshing s₀ s' := by
  cases htrust : c.metadataTrust r with
  | error e =>
    unfold refreshSource Fallible.Post
    simp only [htrust]
    exact h
  | ok trust =>
    have hgrows := @Refresh.growing_refreshWithMetadataTrust c.env _ r.id trust
      (c.locks r.id s.refresh.requests) source s.refresh h.1
    exact (c.post_refreshSource_of htrust hgrows).mono fun _ _ h' => ⟨h'.1, h'.2.trans h.2⟩

/-- The command up to the publication. -/
def refreshAll : Fallible RefreshSystem RefreshFailure (List (String × String × String)) := do
  let requested ← c.selection
  refreshSelected c.refreshSource c.profile requested c.schedule

theorem run_eq :
    c.run = c.refreshAll >>= publishRefreshed c.publishInCleanProcess c.publishedAtUnix :=
  (Fallible.bind_assoc ..).symm

theorem post_refreshAll {s : RefreshSystem} : c.refreshAll.Post s fun _ s' => Refreshing s s' :=
  Fallible.Post.keeps (I := Refreshing s) ⟨.refl, rfl⟩ fun _ _ h =>
    post_refreshSelected (fun _ _ _ => c.post_refreshSource) h

/-! ## The publication -/

/-- The publishing process leaves the cache, and the planning store as a publication leaves it. -/
def Publishing (s s' : RefreshSystem) : Prop :=
  s'.refresh = s.refresh ∧ Planning.Settles c.library s.planning s'.planning

theorem settles_publishInternal (cache : Cache.CacheStore) (publishedAtUnix : UInt64)
    (generations : List String) (planning : Planning.Store) :
    Planning.Settles c.library planning
      (c.publishInternal cache publishedAtUnix generations planning).2 := by
  unfold publishInternal
  cases generations.mapM parseGeneration with
  | error e => exact .inl Planning.OnlyBlobs.refl.unmoved
  | ok parsed => exact (Planning.sat_publish_settles c.fates fun _ _ => trivial).1

theorem post_publishInCleanProcess {publishedAtUnix : UInt64} {generations : List (String × String)}
    {s : RefreshSystem} :
    (c.publishInCleanProcess publishedAtUnix generations).Post s fun _ s' => c.Publishing s s' := by
  unfold publishInCleanProcess Fallible.Post
  cases c.spawned with
  | error e => exact ⟨rfl, .inl Planning.OnlyBlobs.refl.unmoved⟩
  | ok => exact ⟨rfl, c.settles_publishInternal ..⟩

theorem post_publishRefreshed {publishedAtUnix : UInt64} {results : List (String × String × String)}
    {s : RefreshSystem} :
    (publishRefreshed c.publishInCleanProcess publishedAtUnix results).Post s
      fun _ s' => c.Publishing s s' :=
  Fallible.Post.keeps (I := c.Publishing s) (.mapError c.post_publishInCleanProcess) fun _ _ h => .pure h

/-! ## A command that failed -/

/-- The snapshot passes `revalidate_snapshot`. -/
def Passes (profile : MutationProfile) (hostArchitecture : Architecture) (s : RefreshSystem)
    (snapshot : Planning.PlanningSnapshot) : Prop :=
  Planning.revalidateSnapshot c.library.crates (c.host s.refresh.cache) profile hostArchitecture
    (Planning.liftRun (Planning.openSnapshot c.library s.planning)) snapshot = .ok ()

/-- The pointers of the enabled repositories are the same. -/
def SamePointers (profile : MutationProfile) (s s' : RefreshSystem) : Prop :=
  ∀ r ∈ Planning.enabledRepositories profile,
    (c.host s'.refresh.cache).currentPointer r.id = (c.host s.refresh.cache).currentPointer r.id

/-- The cache of the command only grows. -/
theorem post_run_grows (s : RefreshSystem) :
    c.run.Post s fun _ s' => Cache.Grows s.refresh.cache s'.refresh.cache := by
  rw [run_eq]
  refine c.post_refreshAll.bind ?_ fun _ _ h => h.1
  rintro results s₁ ⟨hgrows, -⟩
  exact c.post_publishRefreshed.mono fun _ _ h => by rw [h.1]; exact hgrows

/-- What a command leaves, also one that failed. When a repository was not refreshed, nothing was
published. A publication that failed left the current snapshot, or it had moved the pointer to the
snapshot that it stored. A snapshot that passed and is still the current one passes exactly when no
pointer of an enabled repository was moved. -/
structure InForce (s s' : RefreshSystem) : Prop where
  grows : Cache.Grows s.refresh.cache s'.refresh.cache
  unpublished : ∀ e, (c.refreshAll s).1 = .error e → s'.planning = s.planning
  settles : Planning.Settles c.library s.planning s'.planning
  passes : ∀ profile hostArchitecture snapshot, c.Passes profile hostArchitecture s snapshot →
    Planning.openSnapshot c.library s'.planning = .ok snapshot →
    (c.Passes profile hostArchitecture s' snapshot ↔ c.SamePointers profile s s')

theorem currentPointer_host {cache : Cache.CacheStore} {id : String} {pointer : Cache.CurrentPointer}
    (h : Cache.currentPointer c.env.cache cache id = .ok pointer) :
    (c.host cache).currentPointer id = .ok ⟨pointer.digest, pointer.repomdAuthentication⟩ := by
  unfold host Planning.hostOf
  simp only [h]
  rfl

theorem passes_iff {profile : MutationProfile} {hostArchitecture : Architecture} {s s' : RefreshSystem}
    {snapshot : Planning.PlanningSnapshot} (hgrows : Cache.Grows s.refresh.cache s'.refresh.cache)
    (hpasses : c.Passes profile hostArchitecture s snapshot)
    (hcurrent : Planning.openSnapshot c.library s'.planning = .ok snapshot) :
    c.Passes profile hostArchitecture s' snapshot ↔ c.SamePointers profile s s' :=
  Planning.revalidateSnapshot_iff (Planning.hostGrows_of_grows hgrows) hpasses
    (Except.mapError_eq_ok.mpr hcurrent)

/-- Whether it fails or not, the command leaves the snapshot in force, or a complete new one, and the
snapshot that stays passes as long as no pointer was moved. -/
theorem run_inForce (s : RefreshSystem) : c.InForce s (c.run s).2 := by
  change c.run.Post s fun _ s' => c.InForce s s'
  rw [run_eq]
  refine (c.post_refreshAll.and (Q := fun r s' => r = (c.refreshAll s).1) rfl).bind ?_ ?_
  · rintro results s₁ ⟨⟨hgrows, hplanning⟩, hrefreshed⟩
    refine c.post_publishRefreshed.mono fun _ s₂ ⟨hrefresh, hsettles⟩ => ?_
    rw [hplanning] at hsettles
    rw [← hrefresh] at hgrows
    refine ⟨hgrows, fun e herror => ?_, hsettles, fun _ _ _ => c.passes_iff hgrows⟩
    exact absurd (hrefreshed.trans herror) nofun
  · rintro e s₁ ⟨⟨hgrows, hplanning⟩, -⟩
    refine ⟨hgrows, fun _ _ => hplanning, ?_, fun _ _ _ => c.passes_iff hgrows⟩
    exact .inl (hplanning ▸ Planning.OnlyBlobs.refl.unmoved)

end RefreshCommand

/-! ## A generation ahead of the snapshot in force -/

def snapshotDigest : Core.Sha256Digest :=
  ⟨"16a0eeb0791b6c92451fd284dd9f599e0a7dbe7f6ebea6e2d2d06c7f74aec112",
    Core.isLowerDigest_ofList (by decide)⟩

/-- The digests of the texts of the snapshot. -/
def snapshotHashes : List (List UInt8 × Core.Sha256Digest) := [
  ("snapshot".asBytes, snapshotDigest),
  ("dnfast-key-bundle-v1".asBytes ++ [0, 0, 0, 0, 0, 0, 0, 20] ++ "/etc/pki/rpm-gpg/app".asBytes ++
      [0, 0, 0, 0, 0, 0, 0, 3] ++ "key".asBytes,
    ⟨"5d3c1b772cef3bbe3af26ed50f2fbef1b20b4594806363c9f39c554635a5a08a",
      Core.isLowerDigest_ofList (by decide)⟩),
  (Planning.lazyBinaryV3Magic ++ Planning.LazyIndex.hexDecode (Refresh.appHash "primary").toList ++
      Planning.LazyIndex.hexDecode (Refresh.appHash "filelists").toList ++ [0, 0, 0, 1] ++
      List.replicate 39 0 ++ [1] ++ List.replicate 4 0,
    ⟨"92aa44ed9c913cd08703efe3f6335d9ddabdb70f94989d6c44f50a3057253976",
      Core.isLowerDigest_ofList (by decide)⟩)]

def inForceCrates : Planning.Crates where
  sha256 bytes := ((Refresh.appHashes ++ snapshotHashes).lookup bytes).getD Refresh.emptyHash
  base64Decode _ := some "key".asBytes
  urlParse := Refresh.appLibrary.crates.urlParse

/-- The library of the cache, for a repository without comps. -/
def inForceCache : Cache.Library :=
  { Refresh.appLibrary with
    crates := inForceCrates
    parsers := { Refresh.appLibrary.parsers with
      parseRepomdRecords := fun _ =>
        .ok ⟨Refresh.appMetadata "primary", Refresh.appMetadata "filelists", none, none, none⟩ } }

def keyBundle : Core.Sha256Digest :=
  ⟨"5d3c1b772cef3bbe3af26ed50f2fbef1b20b4594806363c9f39c554635a5a08a",
    Core.isLowerDigest_ofList (by decide)⟩

def appConfig : RepoConfig where
  id := "app"
  enabled := true
  baseurl := ["https://d/r"]
  metalink := none
  mirrorlist := none
  priority := 99
  cost := 1000
  metadataExpire := .afterSeconds 172800
  sslverify := true
  gpgcheck := true
  pkgGpgcheck := true
  repoGpgcheck := false
  excludepkgs := []
  includepkgs := []
  gpgkey := ["/etc/pki/rpm-gpg/app"]
  allowedFingerprints := ["AAAAAAAAAAAAAAAAAAAAAAAAAAAAAAAAAAAAAAAA"]
  keyBundleDigest := some keyBundle

def appProfile : MutationProfile := ⟨⟨true, false, [], [], ["rpm"], [], 3⟩, [appConfig]⟩

def appBytes (text : String) : Planning.PlanningBytes :=
  ⟨Refresh.appHash text, UInt64.ofNat text.utf8ByteSize, ""⟩

/-- The snapshot in force: the repository was signed when it was refreshed. -/
def appSnapshot : Planning.PlanningSnapshot where
  schemaVersion := 7
  publishedAtUnix := 1
  refreshedRepositoryIds := ["app"]
  payload := {
    policy := ⟨{ Core.SolverPolicy.fedora44 .x86_64 ["rpm"] [] with
      repoPreferences := [⟨99, 1000, "app"⟩] }, [], 3⟩
    inventory := Planning.pairInventory
    allowedRepositories := [{
      id := "app"
      priority := 99
      cost := 1000
      generationSha256 := Refresh.appHash "repomd"
      origin := ⟨Refresh.appOrigin, Refresh.appHash Refresh.appOrigin⟩
      repomd := appBytes "repomd"
      primary := appBytes "primary"
      filelists := appBytes "filelists"
      fileProvides := some
        ⟨"92aa44ed9c913cd08703efe3f6335d9ddabdb70f94989d6c44f50a3057253976", 130, ""⟩
      group := none
      modules := none
      updateinfo := none
      trust := Planning.keyTrust "app" Core.app_ne_empty keyBundle 1
      keys := [⟨"/etc/pki/rpm-gpg/app", "a2V5"⟩]
      repomdAuthentication := Refresh.appEvidence }]
    configuration := [Planning.configurationOf appConfig]
    moduleState := ⟨[]⟩ }

def appCommand : RefreshCommand where
  env := { Refresh.appEnvironment with cache := inForceCache }
  library := {
    crates := inForceCrates
    indexJson := Planning.noJson
    toVec _ := "snapshot".asBytes
    fromSlice _ := .ok appSnapshot
    RawModule := Unit
    parseModules _ _ := .ok []
    validateState _ _ _ := .ok () }
  profile := appProfile
  hostArchitecture := .x86_64
  inventory := Planning.pairInventory
  keyBundleDigest _ paths := .ok ⟨paths, keyBundle, ["key".asBytes]⟩
  base64Encode _ := "a2V5"
  metadataTrust _ := .ok none
  locks _ _ := .ok ()
  requested := []
  schedule := []
  publishedAtUnix := 2
  spawned := .error "Cannot allocate memory (os error 12)"
  occasion := {
    host := Planning.pairHost
    stamp := fun _ => "9-9"
    stagedAt := 20
    collectedAt := 21
    readDir := id
    complete := .refl }
  fates := []
  status := ""
  answered := .ok ()

/-- The host of the command, with the pointer that it reads. -/
def appHost : Planning.Host :=
  { appCommand.host Refresh.appCache with
    currentPointer := fun _ => .ok ⟨Refresh.appHash "repomd", Refresh.appEvidence⟩ }

theorem rebuilt_app : Planning.snapshotFrom inForceCrates appHost appProfile
    ⟨Planning.pairInventory, ⟨[]⟩⟩ 1 .x86_64 (some ["app"]) = .ok appSnapshot := by
  simp only [← Except.toOption_eq_some]
  decide +kernel

/-- The planning store with the snapshot. -/
def appStore : Planning.Store where
  files := ⟨Std.ExtTreeMap.empty.insert Planning.currentPointerName
    ⟨Planning.pointerBytes snapshotDigest.asStr, true⟩, .empty⟩
  snapshots := ⟨Std.ExtTreeMap.empty.insert snapshotDigest.asStr
    ⟨1, some ⟨"snapshot".asBytes, true⟩, none⟩, .empty⟩
  snapshotsKept := true
  blobs := none
  blobsKept := true

def appSystem : RefreshSystem := ⟨⟨Refresh.appCache, 0⟩, appStore⟩

theorem currentPointer_appCache :
    Cache.currentPointer inForceCache Refresh.appCache "app" = .ok Refresh.appPointer := by
  have hcurrent : Refresh.appCache.currentOf (Cache.repositoryKey inForceCache "app") =
      some Refresh.appPointer.bytes := by
    decide +kernel
  exact Cache.currentPointer_of_bytes (by decide +kernel) rfl hcurrent

theorem hostGrows_appHost : Planning.HostGrows appHost (appCommand.host Refresh.appCache) :=
  ⟨rfl, fun _ _ h => h, fun _ _ h => h, rfl, rfl, rfl⟩

theorem enabled_app : Planning.enabledRepositories appProfile = [appConfig] := by
  simp [Planning.enabledRepositories, appProfile, appConfig]

theorem currentPointer_appHost :
    (appCommand.host Refresh.appCache).currentPointer "app" = appHost.currentPointer "app" :=
  appCommand.currentPointer_host currentPointer_appCache

theorem rebuilt_appCache : Planning.snapshotFrom inForceCrates (appCommand.host Refresh.appCache)
    appProfile ⟨Planning.pairInventory, ⟨[]⟩⟩ 1 .x86_64 (some ["app"]) = .ok appSnapshot := by
  refine Planning.snapshotFrom_of_grows hostGrows_appHost (fun r hr => ?_) rebuilt_app
  rw [enabled_app, List.mem_singleton] at hr
  cases hr
  exact currentPointer_appHost

theorem validate_appSnapshot : appSnapshot.validate inForceCrates = .ok () := by
  obtain ⟨_, _, _, -, -, -, hnew⟩ := Planning.snapshotFrom_eq_ok.mp rebuilt_app
  exact (Planning.newSnapshot_eq_ok.mp hnew).2

theorem openSnapshot_appStore :
    Planning.openSnapshot appCommand.library appStore = .ok appSnapshot := by
  have hdigest : inForceCrates.sha256 "snapshot".asBytes = snapshotDigest := by decide +kernel
  refine @Planning.openSnapshot_of_points _ _ _ _ "snapshot".asBytes ?_ ?_ ?_ (congrArg _ hdigest) ?_
  · refine ⟨⟨Planning.pointerBytes snapshotDigest.asStr, true⟩, ?_,
      Planning.pointerDigest_pointerBytes snapshotDigest.canonical⟩
    rw [appStore, Std.ExtTreeMap.getElem?_insert_self]
  · refine ⟨⟨1, some ⟨"snapshot".asBytes, true⟩, none⟩, ⟨"snapshot".asBytes, true⟩, ?_, rfl, rfl⟩
    rw [appStore, Std.ExtTreeMap.getElem?_insert_self]
  · exact ⟨rfl, Planning.canonicalBytes_eq_ok.mpr ⟨validate_appSnapshot, rfl⟩⟩
  · decide +kernel

theorem passes_app : appCommand.Passes appProfile .x86_64 appSystem appSnapshot := by
  have hagain := Planning.revalidateSnapshot_of_snapshotFrom rebuilt_appCache
  unfold RefreshCommand.Passes appSystem
  simp only [openSnapshot_appStore]
  exact hagain

theorem reusable_appCache : Cache.reusable inForceCache "app" "repomd".asBytes Refresh.appOrigin
    .transportOnly Refresh.appCache = .ok (some ⟨Refresh.appHash "repomd", [Refresh.appPackage]⟩) := by
  have hopens : (Cache.openVerifiedCompleteGeneration inForceCache Refresh.appCache
      (Refresh.appHash "repomd")).toOption = some Refresh.appGeneration ∧
      (Cache.openSearchIndex inForceCache Refresh.appCache (Refresh.appHash "repomd")).toOption =
        some ("app", [Refresh.appPackage]) ∧
      (Planning.selectedOrigin inForceCrates Refresh.appOrigin).toOption = some Refresh.appOrigin := by
    decide +kernel
  simp only [Except.toOption_eq_some] at hopens
  have hdigest : Cache.sha256 inForceCache "repomd".asBytes = Refresh.appHash "repomd" := rfl
  have hcrates : inForceCache.crates = inForceCrates := rfl
  unfold Cache.reusable
  rw [hcrates, hopens.2.2, currentPointer_appCache, hdigest, hopens.1, hopens.2.1]
  rfl

/-- The generation is found to be the current one, and its pointer says that it is not signed. -/
theorem post_finishGeneration_app {s : Refresh.RefreshState} (h : s.cache = Refresh.appCache) :
    (Refresh.finishGeneration appCommand.env "app" Refresh.appOrigin true "repomd".asBytes none).Post s
      fun _ s' => Cache.currentPointer inForceCache s'.cache "app" =
        .ok ⟨1, Refresh.appHash "repomd", .transportOnly⟩ := by
  have hchecks : (Cache.checkedRepoId inForceCache Refresh.appCache "app").toOption = some () ∧
      (Planning.selectedOrigin inForceCrates Refresh.appOrigin).toOption = some Refresh.appOrigin := by
    decide +kernel
  simp only [Except.toOption_eq_some] at hchecks
  have hreusable := reusable_appCache
  have hchecked := hchecks.1
  rw [← h] at hreusable hchecked
  unfold Refresh.finishGeneration
  refine .bind .lift_eq (fun _ s₁ ⟨h₁, hauthentication⟩ => ?_) fun _ _ ⟨_, h₁⟩ => nomatch h₁
  cases hauthentication
  subst h₁
  refine .bind .lift_eq (fun _ s₂ ⟨h₂, hrecords⟩ => ?_) fun _ _ ⟨_, h₂⟩ => nomatch h₂
  cases hrecords
  subst h₂
  refine .bind .lift_eq (fun origin s₃ ⟨h₃, horigin⟩ => ?_) fun _ _ ⟨_, h₃⟩ => ?_
  on_goal 2 => exact nomatch h₃.trans (congrArg _ hchecks.2)
  cases horigin.trans (congrArg _ hchecks.2)
  subst h₃
  refine .bind Refresh.post_reuse (fun reused s₄ h₄ => ?_) fun _ s₄ ⟨_, h₄⟩ => ?_
  · cases reused with
    | none => cases hreusable.symm.trans h₄.2
    | some snapshot =>
      cases hreusable.symm.trans h₄.1
      exact h₄.2.2.2.2.2
  · rcases h₄ with ⟨_, h₄⟩ | ⟨_, h₄⟩
    · cases hreusable.symm.trans h₄
    · cases hchecked.symm.trans h₄

theorem post_refreshSource_app : (appCommand.refreshSource appConfig (.baseUrl "https://d/r")).Post
    appSystem fun _ s' => Cache.currentPointer inForceCache s'.refresh.cache "app" =
      .ok ⟨1, Refresh.appHash "repomd", .transportOnly⟩ := by
  have hallowed : (Refresh.validateHttps appCommand.env "https://d/r").toOption = some () := by
    decide +kernel
  have hurl : Refresh.repomdUrl (Refresh.trimEndSlashes "https://d/r") = Refresh.appOrigin := by
    decide +kernel
  rw [Except.toOption_eq_some] at hallowed
  have hfollows : Refresh.Follows appCommand.env appSystem.refresh.requests
      [some "repomd".asBytes] := by
    intro i url maximumBytes
    exact congrArg (fun n => Refresh.scripted [some "repomd".asBytes] n url maximumBytes)
      (Nat.zero_add i)
  have hlock : appCommand.locks appConfig.id appSystem.refresh.requests = .ok () := rfl
  have hid : appConfig.id = "app" := rfl
  have hrefresh : (Refresh.refreshWithMetadataTrust appCommand.env
      (appCommand.locks appConfig.id appSystem.refresh.requests) appConfig.id
      (.baseUrl "https://d/r") none).Post appSystem.refresh fun _ s' =>
        Cache.currentPointer inForceCache s'.cache "app" =
          .ok ⟨1, Refresh.appHash "repomd", .transportOnly⟩ := by
    rw [hlock, hid]
    unfold Refresh.refreshWithMetadataTrust
    refine .bind .lift_eq (fun _ s₁ ⟨h₁, _⟩ => ?_) fun _ _ ⟨_, h₁⟩ => nomatch h₁
    subst h₁
    refine .bind .lift_eq (fun _ s₂ ⟨h₂, _⟩ => ?_) fun _ _ ⟨_, h₂⟩ => nomatch h₂.trans hallowed
    subst h₂
    refine .bind (Refresh.post_get_follows hfollows) (fun bytes s₃ ⟨hanswer, hsame, _⟩ => ?_)
      fun _ _ ⟨h₃, _⟩ => nomatch h₃
    cases hanswer
    simp only [hurl]
    exact post_finishGeneration_app hsame
  exact (appCommand.post_refreshSource_of rfl hrefresh).mono fun _ _ h => h.1

/-- One worker with one source. -/
theorem post_runWorkers_one {σ : Type}
    {refreshSource : RepoConfig → Source → Fallible σ String RefreshOutcome} {r : RepoConfig} {source : Source} {s : σ} {Q : σ → Prop} (hsources : sources r = [source])
    (h : (refreshSource r source).Post s fun _ s' => Q s') :
    (runWorkers refreshSource [] [Worker.start r]).Post s fun _ s' => Q s' := by
  rw [Fallible.Post] at h
  unfold runWorkers Worker.start Fallible.Post
  rw [hsources]
  simp only [takeTurns, finishAll, Worker.finish, Worker.turn]
  rcases hrun : refreshSource r source s with ⟨e | outcome, s'⟩
  all_goals
    rw [hrun] at h
    exact h

theorem post_refreshAll_app : appCommand.refreshAll.Post appSystem fun _ s' =>
    Cache.currentPointer inForceCache s'.refresh.cache "app" =
      .ok ⟨1, Refresh.appHash "repomd", .transportOnly⟩ := by
  have hselected : selectedRepositories appProfile [] = [appConfig] := by
    simp [selectedRepositories, appProfile, appConfig]
  refine .bind (P := fun r s' => r = .ok [] ∧ s' = appSystem) ⟨rfl, rfl⟩ ?_ fun _ _ h => nomatch h.1
  rintro requested _ ⟨⟨⟩, rfl⟩
  refine .bind .lift_eq (fun _ s₁ ⟨h₁, _⟩ => ?_) fun _ _ ⟨_, h₁⟩ => nomatch h₁
  subst h₁
  rw [show ([] : List String).sortDedup = [] from rfl, show appCommand.profile = appProfile from rfl,
    hselected]
  refine .bind .lift_eq (fun _ s₂ ⟨h₂, _⟩ => ?_) fun _ _ ⟨_, h₂⟩ => nomatch h₂
  subst h₂
  exact post_runWorkers_one rfl post_refreshSource_app

/-- The publication is not started, and the generation is ahead of the snapshot in force. -/
theorem post_run_app : appCommand.run.Post appSystem fun r s' => (∃ e, r = .error e) ∧
    s'.planning = appStore ∧ Cache.currentPointer inForceCache s'.refresh.cache "app" =
      .ok ⟨1, Refresh.appHash "repomd", .transportOnly⟩ := by
  rw [RefreshCommand.run_eq]
  refine .bind (post_refreshAll_app.and appCommand.post_refreshAll) ?_ ?_
  · rintro results s₁ ⟨hpointer, -, hplanning⟩
    exact ⟨⟨_, rfl⟩, hplanning, hpointer⟩
  · rintro e s₁ ⟨hpointer, -, hplanning⟩
    exact ⟨⟨e, rfl⟩, hplanning, hpointer⟩

/-- A command whose publication failed leaves a snapshot in force that does not pass any more. -/
theorem generation_ahead_of_snapshot : ¬ ∀ (c : RefreshCommand) (s : RefreshSystem)
    (profile : MutationProfile) (hostArchitecture : Architecture)
    (snapshot : Planning.PlanningSnapshot), (∃ e, (c.run s).1 = .error e) → c.Passes profile hostArchitecture s snapshot →
      c.Passes profile hostArchitecture (c.run s).2 snapshot := by
  intro h
  obtain ⟨herror, hplanning, hpointer⟩ := post_run_app
  have hpasses := h appCommand appSystem appProfile .x86_64 appSnapshot herror passes_app
  have hcurrent : Planning.openSnapshot appCommand.library (appCommand.run appSystem).2.planning =
      .ok appSnapshot := by rw [hplanning, openSnapshot_appStore]
  have hsame := (appCommand.passes_iff (appCommand.post_run_grows appSystem) passes_app hcurrent).mp
    hpasses appConfig (by rw [enabled_app]; exact List.mem_singleton.mpr rfl)
  have hafter := appCommand.currentPointer_host hpointer
  have hmoved := (hafter.symm.trans hsame).trans currentPointer_appHost
  exact absurd (congrArg (·.repomdAuthentication) (Except.ok.inj hmoved)) nofun

end Dnfast.Cli
