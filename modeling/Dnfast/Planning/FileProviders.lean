import Dnfast.Metadata.ScanAgreement
import Dnfast.Planning.LazyManifest

/-! # Providers of a file

`dnfast-planning`, `file_provides.rs`: `PlanningSnapshot::file_providers`. Version 3 of the index
answers from the files that primary lists, where there are any for the path, and version 2 always from
filelists. The two documents of a generation are joined by the identities of their packages; their
lists of files are not compared. -/

namespace Dnfast.Planning

open Metadata (QuickXml MetadataError FileListPackage Document)
open LazyIndex

/-! ## The generation -/

/-- What is read of a package of primary. -/
structure PrimaryPackage where
  identity : PrimaryPackageIdentity
  files : List String

/-- The files of all packages, as `State::push` of the parser of primary collects them. -/
def primaryFileRecords (crates : Crates) (packages : List PrimaryPackage) :
    List (List UInt8 ×ₗ Nat) :=
  packages.zipIdx.flatMap fun (package, ordinal) =>
    package.files.map fun path => toLex (digestBytes crates path.asBytes, ordinal)

/-- `encode_primary_files` of `dnfast-cache`. -/
def encodePrimaryFiles (records : List (List UInt8 ×ₗ Nat)) : List UInt8 :=
  records.sortDedup.flatMap fun record => (ofLex record).1 ++ (ofLex record).2.beBytes 4

def sameIdentity (package : PrimaryPackageIdentity) (files : FileListPackage) : Bool :=
  package.name == files.name && package.arch == files.arch && package.epoch == files.epoch &&
    package.version == files.version && package.release == files.release

/-- The loop over filelists, with the identifiers that have come up. -/
def joinFilelists (primary : List PrimaryPackageIdentity) :
    List FileListPackage → List String → Except MetadataError Unit
  | [], _ => .ok ()
  | files :: rest, seen => do
    Metadata.refuse (files.packageId ∈ seen) "duplicate filelists package id"
    let package ← Except.okOr (primary.find? (·.checksum = files.packageId))
      (.xml "mixed primary/filelists generation")
    Metadata.refuse (!sameIdentity package files) "primary/filelists identity mismatch"
    joinFilelists primary rest (files.packageId :: seen)

def validateFilelistsIdentities (primary : List PrimaryPackageIdentity)
    (filelists : List FileListPackage) : Except MetadataError Unit := do
  Metadata.refuse (primary.length ≠ filelists.length) "primary/filelists package count mismatch"
  Metadata.refuse (¬ (primary.map (·.checksum)).Nodup) "duplicate primary package checksum"
  joinFilelists primary filelists []

/-- A generation whose two documents passed the join. -/
structure Generation (q : QuickXml) where
  primarySha256 : String
  filelistsSha256 : String
  primary : List PrimaryPackage
  document : Document
  filelists : List FileListPackage
  parsed : Metadata.parseFilelists q document = .ok filelists
  joined : validateFilelistsIdentities (primary.map (·.identity)) filelists = .ok ()

/-- What the index of version 2 is built from. -/
def Generation.sourceV2 {q : QuickXml} (g : Generation q) : IndexSource :=
  ⟨g.primary.map (·.identity), g.primarySha256, g.filelistsSha256, none⟩

/-- What the index of version 3 is built from. -/
def Generation.sourceV3 {q : QuickXml} (g : Generation q) (crates : Crates) : IndexSource :=
  ⟨g.primary.map (·.identity), g.primarySha256, g.filelistsSha256,
    some (encodePrimaryFiles (primaryFileRecords crates g.primary))⟩

/-! ## The lookup -/

/-- `str::split('/')` of a text. -/
def splitSlash (cs : List Char) : List (List Char) := cs.splitOn '/'

def isCanonicalSelector (absolutePath : String) : Bool :=
  absolutePath.toList.head? == some '/' && !decide (['/', '/'] <:+: absolutePath.toList) &&
    !absolutePath.toList.any Metadata.isControl &&
    !(splitSlash absolutePath.toList).any fun part => part == ['.'] || part == ['.', '.']

section
variable (crates : Crates) (q : QuickXml)

/-- The identifiers that the scan of filelists returns; `chunks` are the pieces of the opened
document. -/
def scanFileProviderIds (chunks : List (List UInt8)) (absolutePath : String) : Run (List String) :=
  (Metadata.scanValidatedFilelistsXmlPath q chunks absolutePath).mapError fun _ =>
    .error (.input "file-provides index source validation failed")

def scanBinaryFileProviders (chunks : List (List UInt8)) (m : LazyBinaryManifest)
    (absolutePath : String) : Run (List Nat) := do
  let packageIds ← scanFileProviderIds q chunks absolutePath
  let providers ← packageIds.mapM (lazyBinaryOrdinal m)
  return providers.sortDedup

/-- `jsonProviders` is the lookup in the manifests of older formats, which `build` does not write. -/
def fileProviders (jsonProviders : List UInt8 → String → Run (List Nat)) (manifestBytes : List UInt8)
    (primarySha256 filelistsSha256 : String) (chunks : List (List UInt8)) (absolutePath : String) :
    Run (List Nat) := do
  refuse (!isCanonicalSelector absolutePath)
    "file-provides selector is not a canonical absolute path"
  if lazyBinaryV2Magic <+: manifestBytes ∨ lazyBinaryV3Magic <+: manifestBytes then do
    let m ← validateLazyBinaryManifest manifestBytes primarySha256 filelistsSha256
    let providers ← lazyBinaryPrimaryProviders crates m absolutePath
    if providers ≠ [] then return providers
    else scanBinaryFileProviders q chunks m absolutePath
  else jsonProviders manifestBytes absolutePath

end

variable {crates : Crates} {q : QuickXml} {g : Generation q} {path : String}

/-! ## What the two documents say -/

/-- Primary lists the path for the package with the ordinal. -/
def Generation.PrimaryLists (g : Generation q) (path : String) (ordinal : Nat) : Prop :=
  ∃ package, g.primary[ordinal]? = some package ∧ path ∈ package.files

/-- Filelists has the path in the record of the package with the ordinal. -/
def Generation.FilelistsLists (g : Generation q) (path : String) (ordinal : Nat) : Prop :=
  ∃ package files, g.primary[ordinal]? = some package ∧ files ∈ g.filelists ∧
    files.packageId = package.identity.checksum ∧ path ∈ files.files

theorem exists_of_joinFilelists {primary : List PrimaryPackageIdentity}
    {filelists : List FileListPackage} {seen : List String}
    (h : joinFilelists primary filelists seen = .ok ()) :
    ∀ files ∈ filelists, ∃ package ∈ primary, package.checksum = files.packageId := by
  induction filelists generalizing seen with
  | nil => exact nofun
  | cons files rest ih =>
    simp only [joinFilelists, Except.bind_eq_ok, Except.okOr_eq_ok] at h
    obtain ⟨_, -, package, hfind, _, -, h⟩ := h
    rw [List.forall_mem_cons]
    refine ⟨⟨package, List.mem_of_find?_eq_some hfind, ?_⟩, ih h⟩
    simpa using List.find?_some hfind

/-- Every record of filelists is one of a package of primary. -/
theorem Generation.exists_primary (g : Generation q) {files : FileListPackage}
    (hfiles : files ∈ g.filelists) : ∃ (ordinal : Nat) (package : PrimaryPackage),
      g.primary[ordinal]? = some package ∧ package.identity.checksum = files.packageId := by
  have hjoined := g.joined
  simp only [validateFilelistsIdentities, Except.check_bind_eq_ok] at hjoined
  obtain ⟨identity, hidentity, hchecksum⟩ := exists_of_joinFilelists hjoined.2.2 files hfiles
  obtain ⟨package, hpackage, rfl⟩ := List.mem_map.mp hidentity
  obtain ⟨ordinal, hordinal⟩ := List.mem_iff_getElem?.mp hpackage
  exact ⟨ordinal, package, hordinal, hchecksum⟩

/-! ## The table of version 3 -/

theorem mem_primaryFileRecords {packages : List PrimaryPackage} {record : List UInt8 ×ₗ Nat} :
    record ∈ primaryFileRecords crates packages ↔ ∃ package path,
      packages[(ofLex record).2]? = some package ∧ path ∈ package.files ∧
        (ofLex record).1 = digestBytes crates path.asBytes := by
  simp only [primaryFileRecords, List.mem_flatMap, List.mem_map, Prod.exists,
    List.mem_zipIdx_iff_getElem?]
  constructor
  · rintro ⟨package, ordinal, hpackage, path, hpath, rfl⟩
    exact ⟨package, path, hpackage, hpath, rfl⟩
  · rintro ⟨package, path, hpackage, hpath, hdigest⟩
    exact ⟨package, _, hpackage, path, hpath, by rw [← hdigest]; rfl⟩

theorem record_of_append {digest : List UInt8} {ordinal : Nat} (hdigest : digest.length = 32)
    (hordinal : ordinal < 2 ^ 32) :
    ((digest ++ ordinal.beBytes 4).take 16, Nat.ofBeBytes ((digest ++ ordinal.beBytes 4).drop 32)) =
      (digest.take 16, ordinal) := by
  rw [List.take_append_of_le_length (by omega), List.drop_left' hdigest, Nat.ofBeBytes_beBytes,
    Nat.mod_eq_of_lt (show ordinal < 256 ^ 4 from hordinal)]

/-- The second table has the prefix of a digest with an ordinal for each file of primary. -/
theorem mem_files_sourceV3 (hcount : g.primary.length < 2 ^ 32) {head : List UInt8} {ordinal : Nat} :
    (head, ordinal) ∈ (g.sourceV3 crates).tables.files ↔ ∃ package path,
      g.primary[ordinal]? = some package ∧ path ∈ package.files ∧ head = pathPrefix crates path := by
  have hpieces : ∀ c ∈ (primaryFileRecords crates g.primary).sortDedup.map
      (fun record => (ofLex record).1 ++ (ofLex record).2.beBytes 4), c.length = 36 := by
    rw [List.forall_mem_map]
    intro record hrecord
    obtain ⟨_, path, -, -, hdigest⟩ := mem_primaryFileRecords.mp (List.mem_sortDedup.mp hrecord)
    rw [List.length_append, hdigest, length_digestBytes, Nat.length_beBytes]
  have hrecords : (g.sourceV3 crates).records = (primaryFileRecords crates g.primary).sortDedup.map
      fun record => (ofLex record).1 ++ (ofLex record).2.beBytes 4 := by
    have hfiles : (g.sourceV3 crates).primaryFiles =
        some ((primaryFileRecords crates g.primary).sortDedup.map
          fun record => (ofLex record).1 ++ (ofLex record).2.beBytes 4).flatten := rfl
    rw [IndexSource.records, hfiles, Option.elim, cachePrimaryFileEntrySize,
      List.chunksExact_flatten (by decide) hpieces]
  rw [tables_files, hrecords, List.map_map, List.mem_map]
  constructor
  · rintro ⟨record, hrecord, heq⟩
    obtain ⟨package, path, hpackage, hpath, hdigest⟩ :=
      mem_primaryFileRecords.mp (List.mem_sortDedup.mp hrecord)
    have hlength : (ofLex record).1.length = 32 := by rw [hdigest, length_digestBytes]
    have hordinal := (List.getElem?_eq_some_iff.mp hpackage).1
    rw [Function.comp_apply, record_of_append hlength (hordinal.trans hcount)] at heq
    obtain ⟨rfl, rfl⟩ := Prod.mk.inj heq
    exact ⟨package, path, hpackage, hpath, by rw [hdigest, pathPrefix]⟩
  · rintro ⟨package, path, hpackage, hpath, rfl⟩
    have hordinal := (List.getElem?_eq_some_iff.mp hpackage).1
    refine ⟨toLex (digestBytes crates path.asBytes, ordinal), ?_, ?_⟩
    · rw [List.mem_sortDedup]
      exact mem_primaryFileRecords.mpr ⟨package, path, hpackage, hpath, rfl⟩
    · exact record_of_append (length_digestBytes _ _) (hordinal.trans hcount)

/-! ## The two lookups -/

/-- What is known of an index that was built. -/
structure Built (source : IndexSource) (bytes : List UInt8) : Prop where
  magic : lazyBinaryV2Magic <+: bytes ∨ lazyBinaryV3Magic <+: bytes
  valid : validateLazyBinaryManifest bytes source.primarySha256 source.filelistsSha256 =
    .ok source.tables
  wellFormed : WellFormed source.tables
  packages : source.tables.packages.Perm source.association
  count : source.identities.length < 2 ^ 32
  digests : ∀ i ∈ source.identities, Core.isLowerDigest i.checksum = true

theorem built_of_build {source : IndexSource} {bytes : List UInt8} {d : PlanningBytes}
    (h : build crates source = .ok (bytes, d)) : Built source bytes := by
  obtain ⟨hvalid, hpackages⟩ := build_eq_ok h
  obtain ⟨hwf, -, magic, has, -, hmagic, -⟩ := validate_eq_ok hvalid
  simp only [build, Except.bind_eq_ok] at h
  obtain ⟨_, hassemble, -⟩ := h
  obtain ⟨hcount, hdigests, -⟩ := assemble_eq_ok hassemble
  refine ⟨?_, hvalid, hwf, hpackages, hcount, hdigests⟩
  unfold lazyMagic at hmagic
  split at hmagic
  · next h => exact Or.inr h
  split at hmagic
  · next h => exact Or.inl h
  · cases hmagic

/-- The search for the checksum of a package of primary. -/
theorem lazyBinaryOrdinal_eq_ok {source : IndexSource} {bytes : List UInt8} (h : Built source bytes)
    {ordinal : Nat} {identity : PrimaryPackageIdentity}
    (hidentity : source.identities[ordinal]? = some identity) :
    lazyBinaryOrdinal source.tables identity.checksum = .ok ordinal := by
  rw [(lazyBinaryOrdinal_spec h.wellFormed _).2]
  refine ⟨_, decodeSha256_eq_ok.mpr ⟨h.digests _ (List.mem_of_getElem? hidentity), rfl⟩, ?_⟩
  rw [h.packages.mem_iff, IndexSource.association, List.mem_map]
  exact ⟨(identity, ordinal), List.mem_zipIdx_iff_getElem?.mpr hidentity, rfl⟩

/-- The scan of filelists finds the packages whose records have the path. -/
theorem exists_scanBinaryFileProviders {source : IndexSource} {bytes : List UInt8}
    {chunks : List (List UInt8)} (hbuilt : Built source bytes)
    (hidentities : source.identities = g.primary.map (·.identity)) (hplain : g.document.Plain)
    (hchunks : chunks.flatten = g.document.bytes) :
    ∃ ordinals, scanBinaryFileProviders q chunks source.tables path = .ok ordinals ∧
      ∀ n, n ∈ ordinals ↔ g.FilelistsLists path n := by
  obtain ⟨ids, hids, -, hmem⟩ := @Metadata.exists_scan q path g.document hplain _ g.parsed _ hchunks
  have hordinal {ordinal : Nat} {package : PrimaryPackage}
      (hpackage : g.primary[ordinal]? = some package) :
      lazyBinaryOrdinal source.tables package.identity.checksum = .ok ordinal := by
    apply lazyBinaryOrdinal_eq_ok hbuilt
    rw [hidentities, List.getElem?_map, hpackage]
    rfl
  obtain ⟨ordinals, hordinals⟩ := Except.exists_mapM_eq_ok (f := lazyBinaryOrdinal source.tables)
    (l := ids) fun id hid => by
      obtain ⟨files, hfiles, rfl, -⟩ := (hmem id).mp hid
      obtain ⟨ordinal, package, hpackage, hchecksum⟩ := g.exists_primary hfiles
      exact ⟨ordinal, hchecksum ▸ hordinal hpackage⟩
  refine ⟨ordinals.sortDedup, ?_, fun n => ?_⟩
  · rw [scanBinaryFileProviders, scanFileProviderIds, hids]
    simp only [Except.mapError_ok, Except.ok_bind, hordinals]
    rfl
  · have hall := Except.mapM_eq_ok.mp hordinals
    rw [List.mem_sortDedup]
    constructor
    · intro hn
      obtain ⟨id, hid, hn⟩ := hall.exists_left hn
      obtain ⟨files, hfiles, rfl, hpath⟩ := (hmem id).mp hid
      obtain ⟨ordinal, package, hpackage, hchecksum⟩ := g.exists_primary hfiles
      rw [← hchecksum, hordinal hpackage] at hn
      cases hn
      exact ⟨package, files, hpackage, hfiles, hchecksum.symm, hpath⟩
    · rintro ⟨package, files, hpackage, hfiles, hchecksum, hpath⟩
      obtain ⟨n', hn', h⟩ := hall.exists_right ((hmem files.packageId).mpr ⟨files, hfiles, rfl, hpath⟩)
      rw [hchecksum, hordinal hpackage] at h
      cases h
      exact hn'

section
variable {json : List UInt8 → String → Run (List Nat)} {bytes : List UInt8} {d : PlanningBytes}
  {chunks : List (List UInt8)}

/-- The lookup in an index that was built. -/
theorem fileProviders_eq {source : IndexSource} (hbuilt : Built source bytes)
    (hcanonical : isCanonicalSelector path = true) :
    fileProviders crates q json bytes source.primarySha256 source.filelistsSha256 chunks path =
      if (source.tables.files.filter (·.1 = pathPrefix crates path)).map Prod.snd ≠ [] then
        .ok ((source.tables.files.filter (·.1 = pathPrefix crates path)).map Prod.snd)
      else scanBinaryFileProviders q chunks source.tables path := by
  have hproviders := (@lazyBinaryPrimaryProviders_spec crates _ hbuilt.wellFormed path).1
  rw [fileProviders, refuse_eq_ok (by simpa using hcanonical), Except.ok_bind, if_pos hbuilt.magic,
    hbuilt.valid, Except.ok_bind, hproviders, Except.ok_bind]
  rfl

/-- Version 2 answers from filelists. -/
theorem exists_fileProviders_v2 (hplain : g.document.Plain)
    (hcanonical : isCanonicalSelector path = true) (hchunks : chunks.flatten = g.document.bytes)
    (h : build crates g.sourceV2 = .ok (bytes, d)) :
    ∃ ordinals, fileProviders crates q json bytes g.primarySha256 g.filelistsSha256 chunks path =
        .ok ordinals ∧ ∀ n, n ∈ ordinals ↔ g.FilelistsLists path n := by
  have hbuilt := built_of_build h
  have hfiles : g.sourceV2.tables.files = [] := tables_files
  obtain ⟨ordinals, hordinals, hmem⟩ :=
    exists_scanBinaryFileProviders hbuilt rfl hplain hchunks
  refine ⟨ordinals, ?_, hmem⟩
  have heq := @fileProviders_eq crates q path json bytes chunks _ hbuilt hcanonical
  rw [hfiles] at heq
  exact heq.trans hordinals

/-- Version 3 answers from primary, where that lists the path for a package. -/
theorem exists_fileProviders_v3 (hplain : g.document.Plain)
    (hcanonical : isCanonicalSelector path = true) (hchunks : chunks.flatten = g.document.bytes)
    (hdistinct : ∀ package ∈ g.primary, ∀ path' ∈ package.files,
      pathPrefix crates path' = pathPrefix crates path → path' = path)
    (h : build crates (g.sourceV3 crates) = .ok (bytes, d)) :
    ∃ ordinals, fileProviders crates q json bytes g.primarySha256 g.filelistsSha256 chunks path =
        .ok ordinals ∧
      ((∃ n, g.PrimaryLists path n) → ∀ n, n ∈ ordinals ↔ g.PrimaryLists path n) ∧
      ((∀ n, ¬ g.PrimaryLists path n) → ∀ n, n ∈ ordinals ↔ g.FilelistsLists path n) := by
  have hbuilt := built_of_build h
  have hcount : g.primary.length < 2 ^ 32 := by
    have := hbuilt.count
    rwa [Generation.sourceV3, List.length_map] at this
  have heq := @fileProviders_eq crates q path json bytes chunks _ hbuilt hcanonical
  -- the entries of the path are those of the packages that primary lists it for
  have hprimary (n : Nat) : n ∈ ((g.sourceV3 crates).tables.files.filter
      (·.1 = pathPrefix crates path)).map Prod.snd ↔ g.PrimaryLists path n := by
    rw [List.mem_map]
    constructor
    · rintro ⟨⟨head, ordinal⟩, hmem, rfl⟩
      obtain ⟨hmem, hhead⟩ := List.mem_filter.mp hmem
      obtain ⟨package, path', hpackage, hpath', rfl⟩ := (mem_files_sourceV3 hcount).mp hmem
      rw [hdistinct package (List.mem_of_getElem? hpackage) path' hpath'
        (of_decide_eq_true hhead)] at hpath'
      exact ⟨package, hpackage, hpath'⟩
    · rintro ⟨package, hpackage, hpath⟩
      refine ⟨(pathPrefix crates path, n), List.mem_filter.mpr ⟨?_, decide_eq_true rfl⟩, rfl⟩
      exact (mem_files_sourceV3 hcount).mpr ⟨package, path, hpackage, hpath, rfl⟩
  by_cases hnone : ((g.sourceV3 crates).tables.files.filter
      (·.1 = pathPrefix crates path)).map Prod.snd = []
  · obtain ⟨ordinals, hordinals, hmem⟩ :=
      exists_scanBinaryFileProviders hbuilt rfl hplain hchunks
    rw [if_neg (not_not.mpr hnone)] at heq
    refine ⟨ordinals, heq.trans hordinals, ?_, fun _ => hmem⟩
    rintro ⟨n, hn⟩
    rw [← hprimary, hnone] at hn
    cases hn
  · rw [if_pos hnone] at heq
    refine ⟨_, heq, fun _ => hprimary, fun hall => absurd ?_ hnone⟩
    rw [List.eq_nil_iff_forall_not_mem]
    exact fun n hn => hall n ((hprimary n).mp hn)

/-- The two versions answer with the packages whose filelists have the path, exactly when primary
lists the path for none of the packages or for all of these and no other. -/
theorem file_providers_agree_iff (crates : Crates) (q : QuickXml) (g : Generation q)
    (json : List UInt8 → String → Run (List Nat)) (path : String) (chunks : List (List UInt8))
    {bytes₂ bytes₃ : List UInt8} {d₂ d₃ : PlanningBytes} (hplain : g.document.Plain)
    (hcanonical : isCanonicalSelector path = true) (hchunks : chunks.flatten = g.document.bytes)
    (hdistinct : ∀ package ∈ g.primary, ∀ path' ∈ package.files,
      pathPrefix crates path' = pathPrefix crates path → path' = path)
    (h₂ : build crates g.sourceV2 = .ok (bytes₂, d₂))
    (h₃ : build crates (g.sourceV3 crates) = .ok (bytes₃, d₃)) :
    (∃ ordinals₂ ordinals₃,
      fileProviders crates q json bytes₂ g.primarySha256 g.filelistsSha256 chunks path =
        .ok ordinals₂ ∧
      fileProviders crates q json bytes₃ g.primarySha256 g.filelistsSha256 chunks path =
        .ok ordinals₃ ∧
      ∀ n, (n ∈ ordinals₂ ↔ g.FilelistsLists path n) ∧ (n ∈ ordinals₃ ↔ g.FilelistsLists path n)) ↔
    (∀ n, ¬ g.PrimaryLists path n) ∨ ∀ n, g.PrimaryLists path n ↔ g.FilelistsLists path n := by
  obtain ⟨ordinals₂, hordinals₂, hmem₂⟩ :=
    exists_fileProviders_v2 hplain hcanonical hchunks h₂
  obtain ⟨ordinals₃, hordinals₃, hsome, hnone⟩ :=
    exists_fileProviders_v3 hplain hcanonical hchunks hdistinct h₃
  constructor
  · rintro ⟨_, r, -, hr, hmem⟩
    rw [hordinals₃] at hr
    cases hr
    by_cases hall : ∀ n, ¬ g.PrimaryLists path n
    · exact Or.inl hall
    · refine Or.inr fun n => ?_
      rw [← hsome (by simpa using hall) n]
      exact (hmem n).2
  · rintro (hall | hsame)
    · exact ⟨_, _, hordinals₂, hordinals₃, fun n => ⟨hmem₂ n, hnone hall n⟩⟩
    · refine ⟨_, _, hordinals₂, hordinals₃, fun n => ⟨hmem₂ n, ?_⟩⟩
      by_cases hall : ∀ n, ¬ g.PrimaryLists path n
      · exact hnone hall n
      · exact (hsome (by simpa using hall) n).trans (hsame n)

end

/-! ## A generation with two packages -/

def sampleIdentity (checksum name : String) : PrimaryPackageIdentity :=
  ⟨checksum, name, "noarch", "0", "1", "1"⟩

def firstIdentity : PrimaryPackageIdentity :=
  sampleIdentity "aaaaaaaaaaaaaaaaaaaaaaaaaaaaaaaaaaaaaaaaaaaaaaaaaaaaaaaaaaaaaaaa" "a"

def secondIdentity : PrimaryPackageIdentity :=
  sampleIdentity "bbbbbbbbbbbbbbbbbbbbbbbbbbbbbbbbbbbbbbbbbbbbbbbbbbbbbbbbbbbbbbbb" "b"

def samplePackageEvents (identity : PrimaryPackageIdentity) : List Metadata.Event :=
  [.start (Metadata.sampleTag "package" [Metadata.sampleAttribute "pkgid" identity.checksum,
      Metadata.sampleAttribute "name" identity.name, Metadata.sampleAttribute "arch" identity.arch]),
    .empty (Metadata.sampleTag "version" [Metadata.sampleAttribute "ver" identity.version,
      Metadata.sampleAttribute "rel" identity.release])] ++ Metadata.sampleFile "/x" ++
    [.close "package".asBytes []]

/-- Filelists with the path `/x` for both packages. -/
def sharedDocument : Document where
  events := [.start (Metadata.sampleTag "filelists"
      [Metadata.sampleAttribute "xmlns" "http://linux.duke.edu/metadata/filelists",
        Metadata.sampleAttribute "packages" "2"])] ++ samplePackageEvents firstIdentity ++
    samplePackageEvents secondIdentity ++ [.close "filelists".asBytes []]
  wellFormed := by decide +kernel
  closed := by decide +kernel

def samplePackage (identity : PrimaryPackageIdentity) : FileListPackage :=
  ⟨identity.checksum, identity.name, identity.arch, identity.epoch, identity.version,
    identity.release, ["/x"]⟩

/-- Primary lists `/x` for the first package, and the given files for the second. -/
def sharedGeneration (files : List String) : Generation Metadata.sampleXml where
  primarySha256 := "1111111111111111111111111111111111111111111111111111111111111111"
  filelistsSha256 := "2222222222222222222222222222222222222222222222222222222222222222"
  primary := [⟨firstIdentity, ["/x"]⟩, ⟨secondIdentity, files⟩]
  document := sharedDocument
  filelists := [samplePackage firstIdentity, samplePackage secondIdentity]
  parsed := by decide +kernel
  joined := by
    change validateFilelistsIdentities [firstIdentity, secondIdentity] _ = _
    decide +kernel

theorem plain_sharedDocument : sharedDocument.Plain := ⟨by decide +kernel, by decide +kernel⟩

theorem exists_build_v2 (files : List String) : ∃ r,
    build fedoraCrates (sharedGeneration files).sourceV2 = .ok r := by
  change ∃ r, build fedoraCrates (sharedGeneration []).sourceV2 = .ok r
  apply exists_build
  constructor
  all_goals decide +kernel

theorem exists_build_v3 {files : List String} (h : files = [] ∨ files = ["/x"]) : ∃ r,
    build fedoraCrates ((sharedGeneration files).sourceV3 fedoraCrates) = .ok r := by
  apply exists_build
  rcases h with rfl | rfl
  · constructor
    all_goals decide +kernel
  · constructor
    all_goals decide +kernel

theorem distinct_sharedGeneration {files : List String} (h : files = [] ∨ files = ["/x"]) :
    ∀ package ∈ (sharedGeneration files).primary, ∀ path' ∈ package.files,
      pathPrefix fedoraCrates path' = pathPrefix fedoraCrates "/x" → path' = "/x" := by
  intro package hpackage path' hpath' _
  simp only [sharedGeneration, List.mem_cons, List.not_mem_nil, or_false] at hpackage
  rcases hpackage with rfl | rfl
  · simpa using hpath'
  · rcases h with rfl | rfl
    · cases hpath'
    · simpa using hpath'

theorem filelistsLists_sharedGeneration (files : List String) (n : Nat) :
    (sharedGeneration files).FilelistsLists "/x" n ↔ n < 2 := by
  constructor
  · rintro ⟨package, _, hpackage, -⟩
    exact (List.getElem?_eq_some_iff.mp hpackage).1
  · intro hn
    match n, hn with
    | 0, _ => exact ⟨_, samplePackage firstIdentity, rfl, by simp [sharedGeneration], rfl,
        List.mem_cons_self⟩
    | 1, _ => exact ⟨_, samplePackage secondIdentity, rfl, by simp [sharedGeneration], rfl,
        List.mem_cons_self⟩

theorem file_providers_agree_shared : ∃ bytes₂ bytes₃ ordinals₂ ordinals₃,
    fileProviders fedoraCrates Metadata.sampleXml (fun _ _ => .ok []) bytes₂
      (sharedGeneration ["/x"]).primarySha256 (sharedGeneration ["/x"]).filelistsSha256
      [sharedDocument.bytes] "/x" = .ok ordinals₂ ∧
    fileProviders fedoraCrates Metadata.sampleXml (fun _ _ => .ok []) bytes₃
      (sharedGeneration ["/x"]).primarySha256 (sharedGeneration ["/x"]).filelistsSha256
      [sharedDocument.bytes] "/x" = .ok ordinals₃ ∧ 1 ∈ ordinals₂ ∧ 1 ∈ ordinals₃ := by
  obtain ⟨⟨bytes₂, d₂⟩, h₂⟩ := exists_build_v2 ["/x"]
  obtain ⟨⟨bytes₃, d₃⟩, h₃⟩ := exists_build_v3 (Or.inr rfl : ["/x"] = [] ∨ ["/x"] = ["/x"])
  have hagree := file_providers_agree_iff fedoraCrates Metadata.sampleXml (sharedGeneration ["/x"])
    (fun _ _ => .ok []) "/x" [sharedDocument.bytes] plain_sharedDocument (by decide +kernel)
    List.flatten_singleton (distinct_sharedGeneration (Or.inr rfl)) h₂ h₃
  have hsame : ∀ n, (sharedGeneration ["/x"]).PrimaryLists "/x" n ↔
      (sharedGeneration ["/x"]).FilelistsLists "/x" n := by
    intro n
    rw [filelistsLists_sharedGeneration]
    constructor
    · rintro ⟨package, hpackage, -⟩
      exact (List.getElem?_eq_some_iff.mp hpackage).1
    · intro hn
      match n, hn with
      | 0, _ => exact ⟨_, rfl, List.mem_cons_self⟩
      | 1, _ => exact ⟨_, rfl, List.mem_cons_self⟩
  obtain ⟨ordinals₂, ordinals₃, hordinals₂, hordinals₃, hmem⟩ := hagree.mpr (Or.inr hsame)
  have hone := (filelistsLists_sharedGeneration ["/x"] 1).mpr (by decide)
  exact ⟨bytes₂, bytes₃, ordinals₂, ordinals₃, hordinals₂, hordinals₃, (hmem 1).1.mpr hone,
    (hmem 1).2.mpr hone⟩

/-- Primary lists `/x` for the first package, and the second one, which has it too, is hidden. -/
theorem file_providers_hidden : ¬ ∀ (crates : Crates) (q : QuickXml) (g : Generation q)
    (json : List UInt8 → String → Run (List Nat)) (path : String) (chunks : List (List UInt8))
    (bytes₂ bytes₃ : List UInt8) (d₂ d₃ : PlanningBytes), isCanonicalSelector path = true →
    chunks.flatten = g.document.bytes →
    (∀ package ∈ g.primary, ∀ path' ∈ package.files,
      pathPrefix crates path' = pathPrefix crates path → path' = path) →
    build crates g.sourceV2 = .ok (bytes₂, d₂) → build crates (g.sourceV3 crates) = .ok (bytes₃, d₃) →
    ∃ ordinals₂ ordinals₃,
      fileProviders crates q json bytes₂ g.primarySha256 g.filelistsSha256 chunks path =
        .ok ordinals₂ ∧
      fileProviders crates q json bytes₃ g.primarySha256 g.filelistsSha256 chunks path =
        .ok ordinals₃ ∧
      ∀ n, (n ∈ ordinals₂ ↔ g.FilelistsLists path n) ∧
        (n ∈ ordinals₃ ↔ g.FilelistsLists path n) := by
  intro h
  obtain ⟨⟨bytes₂, d₂⟩, h₂⟩ := exists_build_v2 []
  obtain ⟨⟨bytes₃, d₃⟩, h₃⟩ := exists_build_v3 (Or.inl rfl)
  have hdistinct := distinct_sharedGeneration (Or.inl rfl)
  have hcanonical : isCanonicalSelector "/x" = true := by decide +kernel
  obtain ⟨_, ordinals, -, hordinals, hmem⟩ := h fedoraCrates Metadata.sampleXml (sharedGeneration [])
    (fun _ _ => .ok []) "/x" [sharedDocument.bytes] bytes₂ bytes₃ d₂ d₃ hcanonical
    List.flatten_singleton hdistinct h₂ h₃
  obtain ⟨ordinals', hordinals', hprimary, -⟩ := @exists_fileProviders_v3 fedoraCrates
    Metadata.sampleXml (sharedGeneration []) "/x" (fun _ _ => .ok []) bytes₃ d₃
    [sharedDocument.bytes] plain_sharedDocument hcanonical List.flatten_singleton hdistinct h₃
  rw [hordinals] at hordinals'
  cases hordinals'
  have hone : 1 ∈ ordinals :=
    (hmem 1).2.mpr ((filelistsLists_sharedGeneration [] 1).mpr (by decide))
  obtain ⟨package, hpackage, hpath⟩ :=
    (hprimary ⟨0, _, rfl, List.mem_cons_self⟩ 1).mp hone
  cases hpackage
  cases hpath

end Dnfast.Planning
