import Dnfast.Planning.StoreSpec
import Dnfast.Planning.LazyManifest

/-! # Sound stores

A store is sound when its pointer names a snapshot, every snapshot in it is what its directory says,
and everything that a snapshot refers to is there: the blobs of its descriptors, and the shards of its
file indexes. Soundness is about what processes see; what a power loss leaves is a store of its own.

Two contents with one digest are not told apart by the store. `content` gives each digest the content
that it stands for; `Genuine` says that a file has it. -/

namespace Dnfast.Planning

open Durable
open Core (isLowerDigest)

/-! ## The pointer -/

/-- The bytes of a pointer. -/
def pointerBytes (digest : String) : List UInt8 := (digest ++ "\n").asBytes

theorem asBytes_eq_map_of_isLowerDigest {digest : String} (h : isLowerDigest digest = true) :
    digest.asBytes = digest.toList.map fun c => UInt8.ofNat c.toNat := by
  have hall : ∀ c ∈ Core.lowerHexDigits, String.utf8EncodeChar c = [UInt8.ofNat c.toNat] :=
    List.all_iff_forall_prop.mp (by decide)
  simp only [isLowerDigest, Bool.and_eq_true, List.all_eq_true, decide_eq_true_eq] at h
  have hmap : ∀ l : List Char, (∀ c ∈ l, c ∈ Core.lowerHexDigits) →
      l.flatMap String.utf8EncodeChar = l.map fun c => UInt8.ofNat c.toNat := by
    intro l hl
    induction l with
    | nil => rfl
    | cons c l ih =>
      rw [List.flatMap_cons, List.map_cons, hall c (hl c List.mem_cons_self),
        ih fun d hd => hl d (List.mem_cons_of_mem _ hd)]
      rfl
  rw [String.asBytes_eq_flatMap, hmap _ h.2]

theorem pointerDigest_pointerBytes {digest : String} (h : isLowerDigest digest = true) :
    pointerDigest (pointerBytes digest) = .ok digest := by
  have hbytes : pointerBytes digest = (digest.toList.map fun c => UInt8.ofNat c.toNat) ++ [10] := by
    rw [pointerBytes, String.asBytes_append, asBytes_eq_map_of_isLowerDigest h]
    rfl
  have hdigits : ∀ c ∈ Core.lowerHexDigits, isDigestByte (UInt8.ofNat c.toNat) = true ∧
      Char.ofNat (UInt8.ofNat c.toNat).toNat = c := List.all_iff_forall_prop.mp (by decide)
  simp only [isLowerDigest, Bool.and_eq_true, List.all_eq_true, decide_eq_true_eq,
    beq_iff_eq] at h
  have htake : (pointerBytes digest).take 64 = digest.toList.map fun c => UInt8.ofNat c.toNat := by
    rw [hbytes, List.take_left' (by rw [List.length_map, h.1])]
  have hlast : (pointerBytes digest)[64]? = some 10 := by
    rw [hbytes, List.getElem?_append_right (by rw [List.length_map, h.1]), List.length_map, h.1]
    rfl
  have hlength : (pointerBytes digest).length = 65 := by
    rw [hbytes, List.length_append, List.length_map, h.1]
    rfl
  have hall : ((pointerBytes digest).take 64).all isDigestByte = true := by
    rw [htake, List.all_map, List.all_eq_true]
    exact fun c hc => (hdigits c (h.2 c hc)).1
  have hback : ((pointerBytes digest).take 64).map (fun b => Char.ofNat b.toNat) = digest.toList := by
    rw [htake, List.map_map]
    exact (List.map_congr_left fun c hc => (hdigits c (h.2 c hc)).2).trans (List.map_id _)
  unfold pointerDigest
  rw [if_neg (by rw [hlength, hlast, hall]; decide), hback, String.ofList_toList]

theorem isLowerDigest_of_pointerDigest {pointer : List UInt8} {digest : String}
    (h : pointerDigest pointer = .ok digest) : isLowerDigest digest = true := by
  have hbytes : ∀ n < 256, isDigestByte (UInt8.ofNat n) = true →
      Char.ofNat (UInt8.ofNat n).toNat ∈ Core.lowerHexDigits := by decide +kernel
  have hdigits : ∀ b : UInt8, isDigestByte b = true → Char.ofNat b.toNat ∈ Core.lowerHexDigits := by
    intro b hb
    have h := hbytes b.toNat b.toNat_lt
    rw [UInt8.ofNat_toNat] at h
    exact h hb
  unfold pointerDigest at h
  split at h
  · cases h
  next hcase =>
    cases h
    simp only [not_or, not_not, Bool.not_eq_true', Bool.not_eq_false, List.all_eq_true] at hcase
    simp only [isLowerDigest, String.toList_ofList, List.length_map, List.length_take, hcase.1,
      List.all_map, Bool.and_eq_true, List.all_eq_true, Function.comp_apply, decide_eq_true_eq]
    exact ⟨rfl, fun b hb => hdigits b (hcase.2.2 b hb)⟩

/-! ## Snapshots as bytes -/

section
variable (lib : Library)

/-- The bytes are the canonical form of the snapshot, and are read as it. -/
def Decodes (bytes : List UInt8) (snapshot : PlanningSnapshot) : Prop :=
  lib.fromSlice bytes = .ok snapshot ∧ snapshot.canonicalBytes lib = .ok bytes

variable {lib} {bytes bytes' : List UInt8} {snapshot snapshot' : PlanningSnapshot}

theorem canonicalBytes_eq_ok : snapshot.canonicalBytes lib = .ok bytes ↔
    snapshot.validate lib.crates = .ok () ∧ lib.toVec snapshot = bytes := by
  simp only [PlanningSnapshot.canonicalBytes, Except.check_bind_eq_ok, Except.pure_eq_ok]

theorem Decodes.validate (h : Decodes lib bytes snapshot) : snapshot.validate lib.crates = .ok () :=
  (canonicalBytes_eq_ok.mp h.2).1

theorem Decodes.unique (h : Decodes lib bytes snapshot) (h' : Decodes lib bytes snapshot') :
    snapshot = snapshot' :=
  Except.ok.inj (h.1.symm.trans h'.1)

theorem fromCanonicalBytes_eq_ok : PlanningSnapshot.fromCanonicalBytes lib bytes = .ok snapshot ↔
    bytes.length ≤ maxSnapshotBytes ∧ Decodes lib bytes snapshot := by
  simp only [PlanningSnapshot.fromCanonicalBytes, Except.refuseIf_eq_ok, Except.bind_eq_ok,
    Except.mapError_eq_ok, Except.pure_eq_ok, Nat.not_lt, not_not, Decodes]
  constructor
  · rintro ⟨_, hlength, value, hread, canonical, hcanonical, _, rfl, _, -, rfl⟩
    exact ⟨hlength, hread, hcanonical⟩
  · rintro ⟨hlength, hread, hcanonical⟩
    exact ⟨(), hlength, snapshot, hread, bytes, hcanonical, (), rfl, (),
      (canonicalBytes_eq_ok.mp hcanonical).1, rfl⟩

theorem Decodes.digest (h : Decodes lib bytes snapshot) :
    snapshot.digest lib = .ok (lib.crates.sha256 bytes).asStr := by
  simp only [PlanningSnapshot.digest, h.2, Except.ok_bind]
  rfl

/-- The digests of a valid snapshot's descriptors are digests. -/
theorem isLowerDigest_of_validate (h : snapshot.validate lib.crates = .ok ()) {r : PlanningRepository}
    (hr : r ∈ snapshot.payload.allowedRepositories) {d : PlanningBytes} (hd : d ∈ r.descriptors) :
    isLowerDigest d.sha256 = true := by
  simp only [PlanningSnapshot.validate, Except.check_bind_eq_ok, Except.forM_eq_ok] at h
  have hvalid := (h.2.2.2.2.2 r hr).1
  have hshape : ∀ d' : PlanningBytes, d'.validateShape snapshot.schemaVersion = .ok () →
      isLowerDigest d'.sha256 = true := by
    intro d' h'
    simp only [PlanningBytes.validateShape, Except.refuseIf_eq_ok, not_or] at h'
    simpa using h'.2.1
  simp only [validateRepository, Except.check_bind_eq_ok, Except.forM_eq_ok] at hvalid
  obtain ⟨-, -, -, hmain, hauxiliary, hupdateinfo, hindex, -⟩ := hvalid
  simp only [PlanningRepository.descriptors, List.mem_append] at hd
  rcases hd with (((hd | hd) | hd) | hd) | hd
  · exact hshape d (hmain d hd)
  · exact hshape d (hindex d hd)
  · exact hshape d (hauxiliary d (List.mem_append_left _ hd))
  · exact hshape d (hauxiliary d (List.mem_append_right _ hd))
  · exact hshape d (hupdateinfo d hd)

end

/-! ## Soundness -/

section
variable (lib : Library) (content : String → List UInt8)

/-- A file under a digest has the content of that digest. -/
structure Genuine (name : String) (bytes : List UInt8) : Prop where
  content : content name = bytes
  digest : (lib.crates.sha256 bytes).asStr = name
  fits : bytes.length < 2 ^ 63

/-- There is a blob of the name. -/
def Present (s : Store) (name : String) : Prop :=
  ∃ blobs file, s.blobs = some blobs ∧ blobs.now[name]? = some file

/-- The blobs that the index of a repository refers to. -/
def shards (r : PlanningRepository) : List String :=
  match r.fileProvides with
  | none => []
  | some d => (referencedShardsForGc lib.indexJson (content d.sha256) r).toOption.getD []

/-- The blobs that a repository refers to. -/
def references (r : PlanningRepository) : List String :=
  r.descriptors.map (·.sha256) ++ shards lib content r

/-- What a repository refers to is there, and is what it describes. A payload may lie in the snapshot
itself; the index never does. -/
structure BackedRepository (s : Store) (r : PlanningRepository) : Prop where
  digests : ∀ name ∈ references lib content r, isLowerDigest name = true
  external : ∀ d ∈ r.descriptors, d.base64 = "" →
    Present s d.sha256 ∧ d.Describes lib (content d.sha256)
  index : ∀ d, r.fileProvides = some d → Present s d.sha256 ∧ d.Describes lib (content d.sha256) ∧
    ∃ names, referencedShardsForGc lib.indexJson (content d.sha256) r = .ok names
  shards : ∀ name ∈ shards lib content r, Present s name

def Backed (s : Store) (snapshot : PlanningSnapshot) : Prop :=
  ∀ r ∈ snapshot.payload.allowedRepositories, BackedRepository lib content s r

/-- The directory has a snapshot with everything it refers to. -/
def Holds (s : Store) (name : String) : Prop :=
  ∃ d file snapshot, s.snapshots.now[name]? = some d ∧ d.file = some file ∧
    Decodes lib file.bytes snapshot ∧ Genuine lib content name file.bytes ∧
    Backed lib content s snapshot

def GenuineBlobs (s : Store) : Prop :=
  ∀ blobs name file, s.blobs = some blobs → isLowerDigest name = true →
    blobs.now[name]? = some file → Genuine lib content name file.bytes

/-- The pointer names the snapshot. -/
def Points (s : Store) (name : String) : Prop :=
  ∃ file, s.files.now[currentPointerName]? = some file ∧ pointerDigest file.bytes = .ok name

structure Sound (s : Store) : Prop where
  blobs : GenuineBlobs lib content s
  snapshots : ∀ name d, isLowerDigest name = true → s.snapshots.now[name]? = some d →
    d.file = none ∨ Holds lib content s name
  current : ∀ file, s.files.now[currentPointerName]? = some file → ∃ name, Points s name ∧
    Holds lib content s name

end

section
variable (lib : Library) (content : String → List UInt8)

/-- What the pointer names is held; nothing is said about other snapshots. -/
structure Anchored (s : Store) : Prop where
  blobs : GenuineBlobs lib content s
  current : ∀ name, Points s name → Holds lib content s name

end

/-! ## Reading a sound store -/

section
variable {lib : Library} {content : String → List UInt8} {s s' : Store} {name : String}
  {snapshot snapshot' current : PlanningSnapshot} {r r' : PlanningRepository} {d : PlanningBytes}
  {bytes : List UInt8}

theorem length_of_pointerDigest {pointer : List UInt8} (h : pointerDigest pointer = .ok name) :
    pointer.length = 65 := by
  unfold pointerDigest at h
  split at h
  · cases h
  next hcase =>
    rw [not_or, not_not] at hcase
    exact hcase.1

theorem currentDigest_eq_ok : currentDigest s = .ok name ↔ Points s name := by
  simp only [currentDigest, Except.bind_eq_ok, read, Points]
  constructor
  · rintro ⟨pointer, hread, hdigest⟩
    split at hread
    · cases hread
    next file hfile =>
      obtain ⟨-, rfl⟩ := bounded_eq_ok.mp hread
      exact ⟨file, hfile, hdigest⟩
  · rintro ⟨file, hfile, hdigest⟩
    refine ⟨file.bytes, ?_, hdigest⟩
    rw [hfile]
    exact bounded_eq_ok.mpr ⟨(length_of_pointerDigest hdigest).le, rfl⟩

theorem Points.isLowerDigest (h : Points s name) : isLowerDigest name = true := by
  obtain ⟨file, -, hdigest⟩ := h
  exact isLowerDigest_of_pointerDigest hdigest

theorem Points.unique {name' : String} (h : Points s name) (h' : Points s name') : name = name' :=
  Except.ok.inj ((currentDigest_eq_ok.mpr h).symm.trans (currentDigest_eq_ok.mpr h'))

theorem openSnapshot_eq_ok : openSnapshot lib s = .ok snapshot ↔
    ∃ name bytes, Points s name ∧ readSnapshotFile name s.snapshots = .ok bytes ∧
      Decodes lib bytes snapshot ∧ (lib.crates.sha256 bytes).asStr = name := by
  simp only [openSnapshot, Except.bind_eq_ok, currentDigest_eq_ok, fromCanonicalBytes_eq_ok,
    Except.refuseIf_eq_ok, Except.pure_eq_ok, not_not]
  constructor
  · rintro ⟨name, hpoints, bytes, hread, value, ⟨-, hdecodes⟩, found, hfound, _, rfl, rfl⟩
    exact ⟨found, bytes, hpoints, hread, hdecodes, Except.ok.inj (hdecodes.digest.symm.trans hfound)⟩
  · rintro ⟨name, bytes, hpoints, hread, hdecodes, hdigest⟩
    obtain ⟨_, _, _, _, hlength, rfl⟩ := readSnapshotFile_eq_ok.mp hread
    exact ⟨name, hpoints, _, hread, snapshot, ⟨hlength, hdecodes⟩, _, hdecodes.digest, (), hdigest,
      rfl⟩

theorem Sound.anchored (hs : Sound lib content s) : Anchored lib content s := by
  refine ⟨hs.blobs, fun name hpoints => ?_⟩
  obtain ⟨file, hfile, -⟩ := id hpoints
  obtain ⟨name', hpoints', hholds⟩ := hs.current file hfile
  rwa [hpoints.unique hpoints']

/-- The snapshot that is opened is the one that the store holds. -/
theorem backed_of_openSnapshot (hs : Anchored lib content s) (h : openSnapshot lib s = .ok snapshot) :
    Backed lib content s snapshot := by
  obtain ⟨name, bytes, hpoints, hread, hdecodes, -⟩ := openSnapshot_eq_ok.mp h
  obtain ⟨d, file', snapshot', hd, hfile', hdecodes', -, hbacked⟩ := hs.current name hpoints
  obtain ⟨d', file'', hd', hfile'', -, rfl⟩ := readSnapshotFile_eq_ok.mp hread
  rw [hd] at hd'
  cases hd'
  rw [hfile'] at hfile''
  cases hfile''
  rwa [hdecodes.unique hdecodes']

/-- The reader that knows the content of every digest. -/
def contents (lib : Library) (content : String → List UInt8) (d : PlanningBytes) :
    Except PlanningError (List UInt8) :=
  d.decodeVerified lib (.ok (content d.sha256))

theorem materialize_eq_contents (hs : GenuineBlobs lib content s)
    (hd : isLowerDigest d.sha256 = true)
    (h : d.base64 = "" → Present s d.sha256 ∧ d.Describes lib (content d.sha256)) :
    materialize lib s d = contents lib content d := by
  by_cases hbase : d.base64 = ""
  · obtain ⟨⟨blobs, file, hblobs, hfile⟩, hdescribes⟩ := h hbase
    have hgenuine := hs blobs d.sha256 file hblobs hd hfile
    have hsize : d.size.toNat = file.bytes.length := by rw [← hdescribes.1, hgenuine.content]
    have hread : readBlob d.sha256 d.size s = .ok (content d.sha256) := by
      simp only [readBlob, Except.bind_eq_ok, Except.refuseIf_eq_ok, Except.okOr_eq_ok]
      refine ⟨(), by simp [hd], d.size.toNat + 1, ?_, blobs, hblobs, ?_⟩
      · have hfits := hgenuine.fits
        rw [blobMaximum, if_pos (by omega)]
      · rw [read, hfile]
        exact bounded_eq_ok.mpr ⟨by omega, hgenuine.content.symm⟩
    rw [materialize, contents, hread]
  · simp only [materialize, contents, PlanningBytes.decodeVerified, if_neg hbase]

theorem materialize_of_backed (hs : GenuineBlobs lib content s) (hbacked : Backed lib content s snapshot)
    (hvalid : snapshot.validate lib.crates = .ok ()) (hr : r ∈ snapshot.payload.allowedRepositories)
    (hd : d ∈ r.descriptors) : materialize lib s d = contents lib content d :=
  materialize_eq_contents hs (isLowerDigest_of_validate hvalid hr hd)
    ((hbacked r hr).external d hd)

/-! ## Keeping what is referred to -/

theorem BackedRepository.mono (h : BackedRepository lib content s r)
    (hpresent : ∀ n ∈ references lib content r, Present s n → Present s' n) :
    BackedRepository lib content s' r := by
  have hdescriptor : ∀ d ∈ r.descriptors, Present s d.sha256 → Present s' d.sha256 :=
    fun d hd => hpresent _ (List.mem_append_left _ (List.mem_map_of_mem hd))
  refine ⟨h.digests, fun d hd hbase => ?_, fun d hd => ?_, fun n hn => ?_⟩
  · obtain ⟨hpres, hdescribes⟩ := h.external d hd hbase
    exact ⟨hdescriptor d hd hpres, hdescribes⟩
  · obtain ⟨hpres, hrest⟩ := h.index d hd
    have hmem : d ∈ r.descriptors := by simp [PlanningRepository.descriptors, hd]
    exact ⟨hdescriptor d hmem hpres, hrest⟩
  · exact hpresent n (List.mem_append_right _ hn) (h.shards n hn)

theorem Backed.mono (h : Backed lib content s snapshot)
    (hpresent : ∀ r ∈ snapshot.payload.allowedRepositories, ∀ n ∈ references lib content r,
      Present s n → Present s' n) : Backed lib content s' snapshot :=
  fun r hr => (h r hr).mono (hpresent r hr)

theorem Holds.mono (h : Holds lib content s name)
    (hsnapshot : s'.snapshots.now[name]? = s.snapshots.now[name]?)
    (hpresent : ∀ n, isLowerDigest n = true → Present s n → Present s' n) :
    Holds lib content s' name := by
  obtain ⟨d, file, snapshot, hd, hfile, hdecodes, hgenuine, hbacked⟩ := h
  exact ⟨d, file, snapshot, hsnapshot.trans hd, hfile, hdecodes, hgenuine,
    hbacked.mono fun r hr n hn => hpresent n ((hbacked r hr).digests n hn)⟩

end

end Dnfast.Planning
