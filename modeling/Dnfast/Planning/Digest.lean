import Dnfast.Data.Forall2
import Dnfast.Planning.Model

/-! # The digest of the metadata

`metadata_digest` binds a plan to the metadata it was computed from. What it hashes is a concatenation
without a count of the repositories, in which optional descriptors are just absent and sizes and
preferences have no frame. It can still be read in one way only: a text is preceded by its length, an
absent descriptor shows in the length of the next name, and the descriptor at the end of a repository
cannot be taken for the next repository, whose preferences would stand where digits of the origin's
digest are. -/

namespace Dnfast.Planning

open Core (Sha256Digest isLowerDigest)

/-! ## The bytes -/

def PlanningBytes.input (b : PlanningBytes) : Except PlanningError (List UInt8) := do
  let sha256 ← frame b.sha256 b.sha256.asBytes
  return sha256 ++ b.size.toNat.beBytes 8

/-- A role that a repository may lack: its name, and its descriptor when it is there. -/
def roleInput (role : String) (bytes : Option PlanningBytes) : Except PlanningError (List UInt8) := do
  let name ← frame role role.asBytes
  match bytes with
  | none => return name
  | some b => return name ++ (← b.input)

def metadataTag (schema : UInt32) : String :=
  if schema ≥ snapshotSchemaVersion then "dnfast-root-metadata-v5"
  else if schema ≥ extendedSnapshotSchemaVersion then "dnfast-root-metadata-v4"
  else "dnfast-root-metadata-v3"

section
variable (crates : Crates) (schema : UInt32)

/-- The roles since the extended schema. -/
def extendedInput (r : PlanningRepository) : Except PlanningError (List UInt8) :=
  if schema ≥ extendedSnapshotSchemaVersion then
    ([("file-provides", r.fileProvides), ("group", r.group), ("modules", r.modules)].mapM
      fun (role, bytes) => roleInput role bytes).map List.flatten
  else .ok []

def updateinfoInput (r : PlanningRepository) : Except PlanningError (List UInt8) :=
  if schema ≥ snapshotSchemaVersion then roleInput "updateinfo" r.updateinfo else .ok []

def repositoryInput (r : PlanningRepository) : Except PlanningError (List UInt8) := do
  let id ← frame r.id r.id.asBytes
  let generation ← frame r.generationSha256 r.generationSha256.asBytes
  let origin ← frame r.origin.sha256 r.origin.sha256.asBytes
  let trust ← frame (trustSha256 crates r.trust).asStr (trustSha256 crates r.trust).asStr.asBytes
  let metadata ← [r.repomd, r.primary, r.filelists].mapM PlanningBytes.input
  let extended ← extendedInput schema r
  let updateinfo ← updateinfoInput schema r
  return id ++ r.priority.toNat.beBytes 4 ++ r.cost.toNat.beBytes 4 ++ generation ++ origin ++
    trust ++ metadata.flatten ++ extended ++ updateinfo

/-- The bytes that `metadata_digest` hashes. -/
def metadataInput (repositories : List PlanningRepository) : Except PlanningError (List UInt8) := do
  let inputs ← repositories.mapM (repositoryInput crates schema)
  return (metadataTag schema).asBytes ++ inputs.flatten

def metadataDigest (repositories : List PlanningRepository) : Except PlanningError String :=
  (metadataInput crates schema repositories).map fun input => (crates.sha256 input).asStr

end

/-! ## What it binds -/

structure BoundBytes where
  sha256 : String
  size : UInt64
  deriving DecidableEq

def PlanningBytes.bound (b : PlanningBytes) : BoundBytes := ⟨b.sha256, b.size⟩

/-- What the digest is to bind of a repository. -/
structure BoundInputs where
  id : String
  priority : UInt32
  cost : UInt32
  generation : String
  origin : String
  trust : String
  repomd : BoundBytes
  primary : BoundBytes
  filelists : BoundBytes
  fileProvides : Option BoundBytes
  group : Option BoundBytes
  modules : Option BoundBytes
  updateinfo : Option BoundBytes
  deriving DecidableEq

def PlanningRepository.bound (crates : Crates) (r : PlanningRepository) : BoundInputs where
  id := r.id
  priority := r.priority
  cost := r.cost
  generation := r.generationSha256
  origin := r.origin.sha256
  trust := (trustSha256 crates r.trust).asStr
  repomd := r.repomd.bound
  primary := r.primary.bound
  filelists := r.filelists.bound
  fileProvides := r.fileProvides.map (·.bound)
  group := r.group.map (·.bound)
  modules := r.modules.map (·.bound)
  updateinfo := r.updateinfo.map (·.bound)

/-! ## Words that are read in one way -/

/-- What `frame` gives for a text under its own name. -/
def frameBytes (s : String) : List UInt8 :=
  s.utf8ByteSize.beBytes 8 ++ s.asBytes ++ s.utf8ByteSize.beBytes 8 ++ s.asBytes

theorem lengthBytes_eq_ok {n : Nat} {x : List UInt8} :
    lengthBytes n = .ok x ↔ n < 2 ^ 64 ∧ x = n.beBytes 8 := by
  unfold lengthBytes
  split
  · next h => exact ⟨fun hx => ⟨h, (Except.ok.inj hx).symm⟩, fun hx => congrArg _ hx.2.symm⟩
  · next h =>
    refine ⟨?_, fun hx => absurd hx.1 h⟩
    intro hx
    cases hx

theorem frame_eq_ok {s : String} {x : List UInt8} :
    frame s s.asBytes = .ok x ↔ s.utf8ByteSize < 2 ^ 64 ∧ x = frameBytes s := by
  simp only [frame, String.length_asBytes, Except.bind_eq_ok, lengthBytes_eq_ok, Except.pure_eq_ok]
  constructor
  · rintro ⟨_, ⟨hlt, rfl⟩, _, ⟨-, rfl⟩, rfl⟩
    exact ⟨hlt, rfl⟩
  · rintro ⟨hlt, rfl⟩
    exact ⟨_, ⟨hlt, rfl⟩, _, ⟨hlt, rfl⟩, rfl⟩

theorem frameBytes_append_inj {s t : String} {x y : List UInt8} (hs : s.utf8ByteSize < 2 ^ 64)
    (ht : t.utf8ByteSize < 2 ^ 64) (h : frameBytes s ++ x = frameBytes t ++ y) : s = t ∧ x = y := by
  simp only [frameBytes, List.append_assoc] at h
  obtain ⟨hlength, h⟩ := List.append_inj h (by simp)
  have hsize : s.utf8ByteSize = t.utf8ByteSize := Nat.beBytes_inj hs ht hlength
  obtain ⟨htext, h⟩ := List.append_inj h (by simpa using hsize)
  obtain ⟨-, h⟩ := List.append_inj h (by simp)
  exact ⟨String.asBytes_injective htext, (List.append_inj h (by simpa using hsize)).2⟩

/-- The bytes of a descriptor. -/
def PlanningBytes.bytes (b : PlanningBytes) : List UInt8 :=
  frameBytes b.sha256 ++ b.size.toNat.beBytes 8

theorem beBytes_toNat_inj {m n : UInt64} (h : m.toNat.beBytes 8 = n.toNat.beBytes 8) : m = n :=
  UInt64.toNat_inj.mp (Nat.beBytes_inj m.toNat_lt n.toNat_lt h)

theorem beBytes_toNat_inj' {m n : UInt32} (h : m.toNat.beBytes 4 = n.toNat.beBytes 4) : m = n :=
  UInt32.toNat_inj.mp (Nat.beBytes_inj m.toNat_lt n.toNat_lt h)

/-! ## Digests as bytes -/

theorem utf8EncodeChar_of_mem_lowerHexDigits {c : Char} (h : c ∈ Core.lowerHexDigits) :
    ∃ b ≠ 0, String.utf8EncodeChar c = [b] := by
  have hall : ∀ c ∈ Core.lowerHexDigits, String.utf8EncodeChar c = [UInt8.ofNat c.toNat] ∧
      UInt8.ofNat c.toNat ≠ 0 := List.all_iff_forall_prop.mp (by decide)
  exact ⟨_, (hall c h).2, (hall c h).1⟩

theorem asBytes_of_lowerHexDigits {cs : List Char} (h : ∀ c ∈ cs, c ∈ Core.lowerHexDigits) :
    (cs.flatMap String.utf8EncodeChar).length = cs.length ∧
      0 ∉ cs.flatMap String.utf8EncodeChar := by
  induction cs with
  | nil => simp
  | cons c cs ih =>
    obtain ⟨hlength, hzero⟩ := ih fun d hd => h d (List.mem_cons_of_mem _ hd)
    obtain ⟨b, hb, hc⟩ := utf8EncodeChar_of_mem_lowerHexDigits (h c List.mem_cons_self)
    rw [List.flatMap_cons, hc, List.length_append, hlength, List.length_cons]
    refine ⟨Nat.add_comm _ _, ?_⟩
    rw [List.singleton_append, List.mem_cons, not_or]
    exact ⟨hb.symm, hzero⟩

theorem asBytes_of_isLowerDigest {s : String} (h : isLowerDigest s = true) :
    s.utf8ByteSize = 64 ∧ 0 ∉ s.asBytes := by
  simp only [isLowerDigest, Bool.and_eq_true, beq_iff_eq, List.all_eq_true, decide_eq_true_eq] at h
  have hbytes := asBytes_of_lowerHexDigits h.2
  rw [← String.asBytes_eq_flatMap, String.length_asBytes, h.1] at hbytes
  exact hbytes

theorem utf8ByteSize_lt_of_isLowerDigest {s : String} (h : isLowerDigest s = true) :
    s.utf8ByteSize < 2 ^ 64 := by
  rw [(asBytes_of_isLowerDigest h).1]
  decide

theorem PlanningBytes.bytes_append_inj {b c : PlanningBytes} {x y : List UInt8}
    (hb : isLowerDigest b.sha256 = true) (hc : isLowerDigest c.sha256 = true)
    (h : b.bytes ++ x = c.bytes ++ y) : b.bound = c.bound ∧ x = y := by
  rw [bytes, bytes, List.append_assoc, List.append_assoc] at h
  obtain ⟨hsha, h⟩ := frameBytes_append_inj (utf8ByteSize_lt_of_isLowerDigest hb)
    (utf8ByteSize_lt_of_isLowerDigest hc) h
  obtain ⟨hsize, h⟩ := List.append_inj h (by simp)
  exact ⟨by rw [bound, bound, hsha, beBytes_toNat_inj hsize], h⟩

theorem PlanningBytes.input_eq_ok {b : PlanningBytes} {x : List UInt8} (h : b.input = .ok x) :
    x = b.bytes := by
  simp only [input, Except.bind_eq_ok, frame_eq_ok, Except.pure_eq_ok] at h
  obtain ⟨_, ⟨-, rfl⟩, rfl⟩ := h
  rfl

/-- The bytes of a role. -/
def roleBytes (role : String) (o : Option PlanningBytes) : List UInt8 :=
  frameBytes role ++ o.elim [] PlanningBytes.bytes

theorem roleInput_eq_ok {role : String} {o : Option PlanningBytes} {x : List UInt8}
    (h : roleInput role o = .ok x) : x = roleBytes role o := by
  rw [roleInput, Except.bind_eq_ok] at h
  obtain ⟨_, hname, h⟩ := h
  obtain ⟨-, rfl⟩ := frame_eq_ok.mp hname
  cases o with
  | none =>
    rw [Except.pure_eq_ok] at h
    rw [← h, roleBytes, Option.elim, List.append_nil]
  | some b =>
    rw [Except.bind_eq_ok] at h
    obtain ⟨y, hy, h⟩ := h
    rw [Except.pure_eq_ok] at h
    rw [← h, PlanningBytes.input_eq_ok hy]
    rfl

/-- A role is read in one way when what follows cannot be taken for a descriptor. -/
theorem roleBytes_append_inj {role : String} {o p : Option PlanningBytes} {x y : List UInt8}
    (ho : ∀ b ∈ o, isLowerDigest b.sha256 = true) (hp : ∀ b ∈ p, isLowerDigest b.sha256 = true)
    (hxy : ∀ b : PlanningBytes, isLowerDigest b.sha256 = true → b.bytes ++ x ≠ y)
    (hyx : ∀ b : PlanningBytes, isLowerDigest b.sha256 = true → b.bytes ++ y ≠ x)
    (h : roleBytes role o ++ x = roleBytes role p ++ y) :
    o.map (·.bound) = p.map (·.bound) ∧ x = y := by
  rw [roleBytes, roleBytes, List.append_assoc, List.append_assoc, List.append_cancel_left_eq] at h
  cases o with
  | none =>
    cases p with
    | none => exact ⟨rfl, h⟩
    | some c => exact absurd h.symm (hyx c (hp c rfl))
  | some b =>
    cases p with
    | none => exact absurd h (hxy b (ho b rfl))
    | some c =>
      obtain ⟨hbound, hrest⟩ := PlanningBytes.bytes_append_inj (ho b rfl) (hp c rfl) h
      exact ⟨by rw [Option.map_some, Option.map_some, hbound], hrest⟩

/-- A descriptor is not taken for the frame of a text of another length. -/
theorem PlanningBytes.bytes_append_ne {b : PlanningBytes} {s : String} {x y : List UInt8}
    (hb : isLowerDigest b.sha256 = true) (hs : s.utf8ByteSize < 64) :
    b.bytes ++ x ≠ frameBytes s ++ y := by
  intro h
  rw [bytes, List.append_assoc] at h
  have hlt : s.utf8ByteSize < 2 ^ 64 := Nat.lt_trans hs (by decide)
  obtain ⟨hsha, -⟩ := frameBytes_append_inj (utf8ByteSize_lt_of_isLowerDigest hb) hlt h
  rw [← hsha, (asBytes_of_isLowerDigest hb).1] at hs
  exact Nat.lt_irrefl _ hs

theorem PlanningBytes.bytes_append_ne_roleBytes {b : PlanningBytes} {role : String}
    {o : Option PlanningBytes} {x y : List UInt8} (hb : isLowerDigest b.sha256 = true)
    (hrole : role.utf8ByteSize < 64) : b.bytes ++ x ≠ roleBytes role o ++ y := by
  rw [roleBytes, List.append_assoc]
  exact bytes_append_ne hb hrole

/-! ## A repository -/

section
variable (crates : Crates) (schema : UInt32)

/-- The bytes that every repository has. -/
def headBytes (r : PlanningRepository) : List UInt8 :=
  frameBytes r.id ++ r.priority.toNat.beBytes 4 ++ r.cost.toNat.beBytes 4 ++
    frameBytes r.generationSha256 ++ frameBytes r.origin.sha256 ++
    frameBytes (trustSha256 crates r.trust).asStr ++ r.repomd.bytes ++ r.primary.bytes ++
    r.filelists.bytes

def extendedBytes (r : PlanningRepository) : List UInt8 :=
  if schema ≥ extendedSnapshotSchemaVersion then
    roleBytes "file-provides" r.fileProvides ++ roleBytes "group" r.group ++
      roleBytes "modules" r.modules
  else []

def updateinfoBytes (r : PlanningRepository) : List UInt8 :=
  if schema ≥ snapshotSchemaVersion then roleBytes "updateinfo" r.updateinfo else []

def repositoryBytes (r : PlanningRepository) : List UInt8 :=
  headBytes crates r ++ extendedBytes schema r ++ updateinfoBytes schema r

/-- What validation says about a repository that is hashed. -/
structure Bindable (r : PlanningRepository) : Prop where
  id : r.id.utf8ByteSize < 2 ^ 64
  generation : isLowerDigest r.generationSha256 = true
  origin : isLowerDigest r.origin.sha256 = true
  repomd : isLowerDigest r.repomd.sha256 = true
  primary : isLowerDigest r.primary.sha256 = true
  filelists : isLowerDigest r.filelists.sha256 = true
  fileProvides : ∀ b ∈ r.fileProvides, isLowerDigest b.sha256 = true
  group : ∀ b ∈ r.group, isLowerDigest b.sha256 = true
  modules : ∀ b ∈ r.modules, isLowerDigest b.sha256 = true
  updateinfo : ∀ b ∈ r.updateinfo, isLowerDigest b.sha256 = true
  legacy : schema < extendedSnapshotSchemaVersion →
    r.fileProvides = none ∧ r.group = none ∧ r.modules = none
  legacyUpdateinfo : schema < snapshotSchemaVersion → r.updateinfo = none

end

section
variable {crates : Crates} {schema : UInt32} {r r' : PlanningRepository}

theorem metadata_eq_ok {metadata : List (List UInt8)}
    (h : [r.repomd, r.primary, r.filelists].mapM PlanningBytes.input = .ok metadata) :
    metadata.flatten = r.repomd.bytes ++ r.primary.bytes ++ r.filelists.bytes := by
  rw [Except.mapM_eq_map h fun b _ x hx => PlanningBytes.input_eq_ok hx]
  simp

theorem extendedInput_eq_ok {x : List UInt8} (h : extendedInput schema r = .ok x) :
    x = extendedBytes schema r := by
  unfold extendedInput at h
  unfold extendedBytes
  split at h
  · next hschema =>
    rw [if_pos hschema]
    obtain ⟨roles, hroles, rfl⟩ := Except.map_eq_ok.mp h
    have hvalue : roles = _ := Except.mapM_eq_map (g := fun p => roleBytes p.1 p.2) hroles
      fun p _ x hx => roleInput_eq_ok hx
    rw [hvalue]
    simp
  · next hschema =>
    rw [if_neg hschema]
    exact (Except.ok.inj h).symm

theorem updateinfoInput_eq_ok {x : List UInt8} (h : updateinfoInput schema r = .ok x) :
    x = updateinfoBytes schema r := by
  unfold updateinfoInput at h
  unfold updateinfoBytes
  split at h
  · next hschema => rw [if_pos hschema, roleInput_eq_ok h]
  · next hschema =>
    rw [if_neg hschema]
    exact (Except.ok.inj h).symm

theorem repositoryInput_eq_ok {x : List UInt8} (h : repositoryInput crates schema r = .ok x) :
    r.id.utf8ByteSize < 2 ^ 64 ∧ x = repositoryBytes crates schema r := by
  simp only [repositoryInput, Except.bind_eq_ok, frame_eq_ok, Except.pure_eq_ok] at h
  obtain ⟨_, ⟨hid, rfl⟩, _, ⟨-, rfl⟩, _, ⟨-, rfl⟩, _, ⟨-, rfl⟩, metadata, hmetadata, extended,
    hextended, updateinfo, hupdateinfo, rfl⟩ := h
  refine ⟨hid, ?_⟩
  rw [metadata_eq_ok hmetadata, extendedInput_eq_ok hextended, updateinfoInput_eq_ok hupdateinfo,
    repositoryBytes, headBytes]
  simp only [List.append_assoc]

theorem bindable_of_validateRepository (h : validateRepository crates schema r = .ok ())
    (hid : r.id.utf8ByteSize < 2 ^ 64) : Bindable schema r := by
  rw [validateRepository, Except.check_bind_eq_ok, Except.check_bind_eq_ok, Except.check_bind_eq_ok,
    Except.check_bind_eq_ok, Except.check_bind_eq_ok, Except.check_bind_eq_ok,
    Except.check_bind_eq_ok, Except.check_bind_eq_ok] at h
  obtain ⟨hcanonical, hextended, hupdateinfo, hmetadata, hgroups, hinfo, hfiles, horigin, -⟩ := h
  rw [Except.refuseIf_eq_ok, not_not] at horigin
  simp only [Except.refuseIf_eq_ok, not_or, not_not] at hcanonical
  have hshape {b : PlanningBytes} (h : b.validateShape schema = .ok ()) :
      isLowerDigest b.sha256 = true := by
    simp only [PlanningBytes.validateShape, Except.refuseIf_eq_ok, not_or] at h
    simpa using h.2.1
  rw [Except.forM_eq_ok] at hmetadata hgroups hinfo hfiles
  have hrepomd := hshape (hmetadata r.repomd (by simp))
  exact {
    id := hid
    generation := by rw [hcanonical.2.1, hrepomd]
    origin := by
      rw [← horigin]
      exact Sha256Digest.canonical _
    repomd := hrepomd
    primary := hshape (hmetadata r.primary (by simp))
    filelists := hshape (hmetadata r.filelists (by simp))
    fileProvides := fun b hb => hshape (hfiles b (Option.mem_toList.mpr hb))
    group := fun b hb => hshape (hgroups b (List.mem_append_left _ (Option.mem_toList.mpr hb)))
    modules := fun b hb => hshape (hgroups b (List.mem_append_right _ (Option.mem_toList.mpr hb)))
    updateinfo := fun b hb => hshape (hinfo b (Option.mem_toList.mpr hb))
    legacy := by
      intro hschema
      simpa [hschema] using hextended
    legacyUpdateinfo := by
      intro hschema
      simpa [hschema] using hupdateinfo }

/-! ## Reading repositories -/

/-- The part that every repository has. -/
def BoundInputs.head (b : BoundInputs) : BoundInputs :=
  { b with fileProvides := none, group := none, modules := none, updateinfo := none }

theorem headBytes_append_inj {x y : List UInt8} (hr : Bindable schema r) (hr' : Bindable schema r')
    (h : headBytes crates r ++ x = headBytes crates r' ++ y) :
    (r.bound crates).head = (r'.bound crates).head ∧ x = y := by
  simp only [headBytes, List.append_assoc] at h
  obtain ⟨hid, h⟩ := frameBytes_append_inj hr.id hr'.id h
  obtain ⟨hpriority, h⟩ := List.append_inj h (by simp)
  obtain ⟨hcost, h⟩ := List.append_inj h (by simp)
  obtain ⟨hgeneration, h⟩ := frameBytes_append_inj (utf8ByteSize_lt_of_isLowerDigest hr.generation)
    (utf8ByteSize_lt_of_isLowerDigest hr'.generation) h
  obtain ⟨horigin, h⟩ := frameBytes_append_inj (utf8ByteSize_lt_of_isLowerDigest hr.origin)
    (utf8ByteSize_lt_of_isLowerDigest hr'.origin) h
  obtain ⟨htrust, h⟩ := frameBytes_append_inj
    (utf8ByteSize_lt_of_isLowerDigest (Sha256Digest.canonical _))
    (utf8ByteSize_lt_of_isLowerDigest (Sha256Digest.canonical _)) h
  obtain ⟨hrepomd, h⟩ := PlanningBytes.bytes_append_inj hr.repomd hr'.repomd h
  obtain ⟨hprimary, h⟩ := PlanningBytes.bytes_append_inj hr.primary hr'.primary h
  obtain ⟨hfilelists, h⟩ := PlanningBytes.bytes_append_inj hr.filelists hr'.filelists h
  refine ⟨?_, h⟩
  simp only [BoundInputs.head, PlanningRepository.bound, hid, beBytes_toNat_inj' hpriority,
    beBytes_toNat_inj' hcost, hgeneration, horigin, htrust, hrepomd, hprimary, hfilelists]

/-- The bytes up to the digest of the origin. -/
theorem exists_repositoryBytes_eq (crates : Crates) (schema : UInt32) (r : PlanningRepository) :
    ∃ rest, repositoryBytes crates schema r = frameBytes r.id ++ (r.priority.toNat.beBytes 4 ++
      (r.cost.toNat.beBytes 4 ++ (frameBytes r.generationSha256 ++
        (frameBytes r.origin.sha256 ++ rest)))) := by
  simp only [repositoryBytes, headBytes, List.append_assoc]
  exact ⟨_, rfl⟩

/-- Preferences are as long as a length. What follows them is a length too, and begins with a zero,
where a digest would have a digit. -/
theorem preferences_ne_frameBytes {m n : Nat} {generation digest : String} {x y : List UInt8}
    (hgeneration : isLowerDigest generation = true) (hdigest : isLowerDigest digest = true) :
    m.beBytes 4 ++ (n.beBytes 4 ++ (frameBytes generation ++ x)) ≠ frameBytes digest ++ y := by
  intro h
  simp only [frameBytes, List.append_assoc] at h
  rw [← List.append_assoc (m.beBytes 4)] at h
  obtain ⟨-, h⟩ := List.append_inj h (by simp)
  obtain ⟨hsize, hzero⟩ := asBytes_of_isLowerDigest hdigest
  have hne : digest.asBytes ≠ [] := by
    intro hnil
    have hlength := congrArg List.length hnil
    rw [String.length_asBytes, hsize] at hlength
    cases hlength
  obtain ⟨c, cs, hcs⟩ := List.exists_cons_of_ne_nil hne
  rw [(asBytes_of_isLowerDigest hgeneration).1, hcs] at h
  have hc : 0 = c := (List.cons.inj h).1
  rw [hcs, ← hc] at hzero
  exact hzero List.mem_cons_self

/-- A descriptor in front of repositories is not taken for a repository: the preferences of the next
one would stand where the digest of an origin has to be. -/
theorem bytes_append_ne_repositories {b : PlanningBytes} {rs rs' : List PlanningRepository}
    (hb : isLowerDigest b.sha256 = true) (hrs : ∀ r ∈ rs, Bindable schema r)
    (hrs' : ∀ r ∈ rs', Bindable schema r) :
    b.bytes ++ rs.flatMap (repositoryBytes crates schema) ≠
      rs'.flatMap (repositoryBytes crates schema) := by
  intro h
  rw [PlanningBytes.bytes, List.append_assoc] at h
  cases rs' with
  | nil => simp [frameBytes, Nat.beBytes] at h
  | cons r' rs' =>
    have hr' := hrs' r' List.mem_cons_self
    obtain ⟨rest', hrest'⟩ := exists_repositoryBytes_eq crates schema r'
    rw [List.flatMap_cons, hrest'] at h
    simp only [List.append_assoc] at h
    obtain ⟨-, h⟩ := frameBytes_append_inj (utf8ByteSize_lt_of_isLowerDigest hb) hr'.id h
    rw [← List.append_assoc (r'.priority.toNat.beBytes 4)] at h
    obtain ⟨-, h⟩ := List.append_inj h (by simp)
    cases rs with
    | nil => simp [frameBytes, Nat.beBytes] at h
    | cons r rs =>
      have hr := hrs r List.mem_cons_self
      obtain ⟨rest, hrest⟩ := exists_repositoryBytes_eq crates schema r
      rw [List.flatMap_cons, hrest] at h
      simp only [List.append_assoc] at h
      obtain ⟨-, h⟩ := frameBytes_append_inj hr.id
        (utf8ByteSize_lt_of_isLowerDigest hr'.generation) h
      exact preferences_ne_frameBytes hr.generation hr'.origin h

/-- The roles of the extended schema. -/
theorem extendedBytes_append_inj {x y : List UInt8} (hr : Bindable schema r)
    (hr' : Bindable schema r') (hschema : extendedSnapshotSchemaVersion ≤ schema)
    (hxy : ∀ b : PlanningBytes, isLowerDigest b.sha256 = true → b.bytes ++ x ≠ y)
    (hyx : ∀ b : PlanningBytes, isLowerDigest b.sha256 = true → b.bytes ++ y ≠ x)
    (h : extendedBytes schema r ++ x = extendedBytes schema r' ++ y) :
    r.fileProvides.map (·.bound) = r'.fileProvides.map (·.bound) ∧
      r.group.map (·.bound) = r'.group.map (·.bound) ∧
      r.modules.map (·.bound) = r'.modules.map (·.bound) ∧ x = y := by
  rw [extendedBytes, extendedBytes, if_pos hschema, if_pos hschema] at h
  simp only [List.append_assoc] at h
  obtain ⟨hfiles, h⟩ := roleBytes_append_inj hr.fileProvides hr'.fileProvides
    (fun b hb => PlanningBytes.bytes_append_ne_roleBytes hb (by decide))
    (fun b hb => PlanningBytes.bytes_append_ne_roleBytes hb (by decide)) h
  obtain ⟨hgroup, h⟩ := roleBytes_append_inj hr.group hr'.group
    (fun b hb => PlanningBytes.bytes_append_ne_roleBytes hb (by decide))
    (fun b hb => PlanningBytes.bytes_append_ne_roleBytes hb (by decide)) h
  obtain ⟨hmodules, h⟩ := roleBytes_append_inj hr.modules hr'.modules hxy hyx h
  exact ⟨hfiles, hgroup, hmodules, h⟩

theorem bound_eq (hhead : (r.bound crates).head = (r'.bound crates).head)
    (hfiles : r.fileProvides.map (·.bound) = r'.fileProvides.map (·.bound))
    (hgroup : r.group.map (·.bound) = r'.group.map (·.bound))
    (hmodules : r.modules.map (·.bound) = r'.modules.map (·.bound))
    (hupdateinfo : r.updateinfo.map (·.bound) = r'.updateinfo.map (·.bound)) :
    r.bound crates = r'.bound crates := by
  simp only [BoundInputs.head, PlanningRepository.bound, BoundInputs.mk.injEq] at hhead ⊢
  simp only [hhead, hfiles, hgroup, hmodules, hupdateinfo, and_self]

/-- Repositories in front of repositories are read in one way. -/
theorem repositoryBytes_append_inj {rs rs' : List PlanningRepository} (hr : Bindable schema r)
    (hr' : Bindable schema r') (hrs : ∀ r ∈ rs, Bindable schema r)
    (hrs' : ∀ r ∈ rs', Bindable schema r)
    (h : repositoryBytes crates schema r ++ rs.flatMap (repositoryBytes crates schema) =
      repositoryBytes crates schema r' ++ rs'.flatMap (repositoryBytes crates schema)) :
    r.bound crates = r'.bound crates ∧
      rs.flatMap (repositoryBytes crates schema) = rs'.flatMap (repositoryBytes crates schema) := by
  have hnext : ∀ b : PlanningBytes, isLowerDigest b.sha256 = true →
      b.bytes ++ rs.flatMap (repositoryBytes crates schema) ≠
        rs'.flatMap (repositoryBytes crates schema) :=
    fun b hb => bytes_append_ne_repositories hb hrs hrs'
  have hnext' : ∀ b : PlanningBytes, isLowerDigest b.sha256 = true →
      b.bytes ++ rs'.flatMap (repositoryBytes crates schema) ≠
        rs.flatMap (repositoryBytes crates schema) :=
    fun b hb => bytes_append_ne_repositories hb hrs' hrs
  simp only [repositoryBytes, List.append_assoc] at h
  obtain ⟨hhead, h⟩ := headBytes_append_inj hr hr' h
  by_cases hcurrent : schema ≥ snapshotSchemaVersion
  · have hextended : schema ≥ extendedSnapshotSchemaVersion := UInt32.le_trans (by decide) hcurrent
    have hupdateinfo : ∀ r, updateinfoBytes schema r = roleBytes "updateinfo" r.updateinfo :=
      fun r => if_pos hcurrent
    rw [hupdateinfo, hupdateinfo] at h
    obtain ⟨hfiles, hgroup, hmodules, h⟩ := extendedBytes_append_inj hr hr' hextended
      (fun b hb => PlanningBytes.bytes_append_ne_roleBytes hb (by decide))
      (fun b hb => PlanningBytes.bytes_append_ne_roleBytes hb (by decide)) h
    obtain ⟨hinfo, h⟩ := roleBytes_append_inj hr.updateinfo hr'.updateinfo hnext hnext' h
    exact ⟨bound_eq hhead hfiles hgroup hmodules hinfo, h⟩
  have hupdateinfo : ∀ r, updateinfoBytes schema r = [] := fun r => if_neg hcurrent
  rw [hupdateinfo, hupdateinfo, List.nil_append, List.nil_append] at h
  have hlegacy := UInt32.not_le.mp hcurrent
  have hinfo : r.updateinfo.map (·.bound) = r'.updateinfo.map (·.bound) := by
    rw [hr.legacyUpdateinfo hlegacy, hr'.legacyUpdateinfo hlegacy]
  by_cases hextended : schema ≥ extendedSnapshotSchemaVersion
  · obtain ⟨hfiles, hgroup, hmodules, h⟩ :=
      extendedBytes_append_inj hr hr' hextended hnext hnext' h
    exact ⟨bound_eq hhead hfiles hgroup hmodules hinfo, h⟩
  · have hempty : ∀ r, extendedBytes schema r = [] := fun r => if_neg hextended
    rw [hempty, hempty, List.nil_append, List.nil_append] at h
    obtain ⟨hfiles, hgroup, hmodules⟩ := hr.legacy (UInt32.not_le.mp hextended)
    obtain ⟨hfiles', hgroup', hmodules'⟩ := hr'.legacy (UInt32.not_le.mp hextended)
    exact ⟨bound_eq hhead (by rw [hfiles, hfiles']) (by rw [hgroup, hgroup'])
      (by rw [hmodules, hmodules']) hinfo, h⟩

theorem frameBytes_ne_nil (s : String) : frameBytes s ≠ [] := by
  simp [frameBytes, Nat.beBytes]

theorem repositoryBytes_ne_nil (crates : Crates) (schema : UInt32) (r : PlanningRepository) :
    repositoryBytes crates schema r ≠ [] := by
  simp [repositoryBytes, headBytes, frameBytes_ne_nil]

theorem repositories_inj {rs rs' : List PlanningRepository} (hrs : ∀ r ∈ rs, Bindable schema r)
    (hrs' : ∀ r ∈ rs', Bindable schema r)
    (h : rs.flatMap (repositoryBytes crates schema) = rs'.flatMap (repositoryBytes crates schema)) :
    rs.map (·.bound crates) = rs'.map (·.bound crates) := by
  induction rs generalizing rs' with
  | nil =>
    cases rs' with
    | nil => rfl
    | cons r' rs' =>
      rw [List.flatMap_nil, List.flatMap_cons, eq_comm, List.append_eq_nil_iff] at h
      exact absurd h.1 (repositoryBytes_ne_nil crates schema r')
  | cons r rs ih =>
    cases rs' with
    | nil =>
      rw [List.flatMap_nil, List.flatMap_cons, List.append_eq_nil_iff] at h
      exact absurd h.1 (repositoryBytes_ne_nil crates schema r)
    | cons r' rs' =>
      rw [List.forall_mem_cons] at hrs hrs'
      rw [List.flatMap_cons, List.flatMap_cons] at h
      obtain ⟨hbound, hrest⟩ := repositoryBytes_append_inj hrs.1 hrs'.1 hrs.2 hrs'.2 h
      rw [List.map_cons, List.map_cons, hbound, ih hrs.2 hrs'.2 hrest]

theorem metadataInput_eq_ok {rs : List PlanningRepository} {input : List UInt8}
    (hvalid : ∀ r ∈ rs, validateRepository crates schema r = .ok ())
    (h : metadataInput crates schema rs = .ok input) :
    (∀ r ∈ rs, Bindable schema r) ∧
      input = (metadataTag schema).asBytes ++ rs.flatMap (repositoryBytes crates schema) := by
  rw [metadataInput, Except.bind_eq_ok] at h
  obtain ⟨inputs, hinputs, h⟩ := h
  rw [Except.pure_eq_ok] at h
  have hvalue := Except.mapM_eq_map hinputs fun r _ x hx => (repositoryInput_eq_ok hx).2
  refine ⟨?_, by rw [← h, hvalue, List.flatMap]⟩
  intro r hr
  obtain ⟨x, -, hx⟩ := (Except.mapM_eq_ok.mp hinputs).exists_right hr
  exact bindable_of_validateRepository (hvalid r hr) (repositoryInput_eq_ok hx).1

/-- The digest of the metadata binds all of its inputs: no two lists of repositories that differ in
one of them give the same bytes. -/
theorem metadataInput_injective {rs rs' : List PlanningRepository} {input : List UInt8}
    (hrs : ∀ r ∈ rs, validateRepository crates schema r = .ok ())
    (hrs' : ∀ r ∈ rs', validateRepository crates schema r = .ok ())
    (h : metadataInput crates schema rs = .ok input)
    (h' : metadataInput crates schema rs' = .ok input) :
    rs.map (·.bound crates) = rs'.map (·.bound crates) := by
  obtain ⟨hbind, hinput⟩ := metadataInput_eq_ok hrs h
  obtain ⟨hbind', hinput'⟩ := metadataInput_eq_ok hrs' h'
  rw [hinput, List.append_cancel_left_eq] at hinput'
  exact repositories_inj hbind hbind' hinput'

end

/-! ## A repository that is published -/

def fedoraUrl : String := "https://d/f/repodata/repomd.xml"
def fedoraBundle : Sha256Digest :=
  ⟨"d1fe979e8f02a999aaa21cc442484500209ea17924bbdf96fe460bc494b14889",
    Core.isLowerDigest_ofList (by decide)⟩

theorem isLowerDigest_fedoraUrl :
    Core.isLowerDigest "81aced04e358eb3444b7729bbaa6af17a5f63b5426b161a4efbc3d5e421f31ed" = true :=
  Core.isLowerDigest_ofList (by decide)

/-- The crates on the texts of the repository. -/
def fedoraCrates : Crates where
  sha256 bytes :=
    if bytes = fedoraUrl.asBytes then
      ⟨"81aced04e358eb3444b7729bbaa6af17a5f63b5426b161a4efbc3d5e421f31ed", isLowerDigest_fedoraUrl⟩
    else if bytes.take 20 = "dnfast-key-bundle-v1".asBytes then fedoraBundle
    else ⟨"d42ae1242a5247f0bdb33bcb7053f757f65adf7d80b710e3672f1cc4d48e8dd4",
      Core.isLowerDigest_ofList (by decide)⟩
  base64Decode _ := some "key".asBytes
  urlParse url := some ⟨"https", some "d", "", none, none, none, url⟩

/-- A trust policy of one key. -/
def keyTrust (id : String) (h : id ≠ "") (bundle : Sha256Digest) (validAtUnix : UInt64) :
    Trust.RepoTrustPolicy :=
  ⟨id, bundle, ["AAAAAAAAAAAAAAAAAAAAAAAAAAAAAAAAAAAAAAAA"], .authorizedSubkeys, validAtUnix,
    h, by decide, by decide, by decide⟩

def fedoraRepository : PlanningRepository where
  id := "fedora"
  priority := 99
  cost := 1000
  generationSha256 := "d0df476353bf7bd128a22e414a59d0baebd1fb57d11d6a197ad839227e02dad0"
  origin := ⟨fedoraUrl, "81aced04e358eb3444b7729bbaa6af17a5f63b5426b161a4efbc3d5e421f31ed"⟩
  repomd := ⟨"d0df476353bf7bd128a22e414a59d0baebd1fb57d11d6a197ad839227e02dad0", 6, ""⟩
  primary := ⟨"986a1b7135f4986150aa5fa0028feeaa66cdaf3ed6a00a355dd86e042f7fb494", 7, ""⟩
  filelists := ⟨"d34b6d53edfbb763dde137d3a4cb839f7699c59a730b4b3bd74f0dc7d6acf2cd", 9, ""⟩
  fileProvides := some ⟨"b0268fa71bc6e96caf5ad1007ca8719ad0c66b37fc692d7c2c364259d7c60b97", 8, ""⟩
  group := some ⟨"ad936fcbed631fa67e05c3ea03953905221c9d46af0616b70badf105a966fb11", 5, ""⟩
  modules := none
  updateinfo := none
  trust := keyTrust "fedora" Core.fedora_ne_empty fedoraBundle 1
  keys := [⟨"/etc/pki/rpm-gpg/f", "a2V5"⟩]
  repomdAuthentication := .transportOnly

/-- The repository with its primary metadata inline. -/
def inlineRepository : PlanningRepository :=
  { fedoraRepository with primary.base64 := "cHJpbWFyeQ==" }

theorem metadataInput_injective_fedora :
    ∃ input, metadataInput fedoraCrates 7 [fedoraRepository] = .ok input ∧
      [fedoraRepository].map (·.bound fedoraCrates) =
        [inlineRepository].map (·.bound fedoraCrates) := by
  have hsome : (metadataInput fedoraCrates 7 [fedoraRepository]).toOption.isSome = true := by
    decide +kernel
  have hsame : metadataInput fedoraCrates 7 [inlineRepository] =
      metadataInput fedoraCrates 7 [fedoraRepository] := by decide +kernel
  obtain ⟨input, hinput⟩ : ∃ input, metadataInput fedoraCrates 7 [fedoraRepository] = .ok input := by
    cases h : metadataInput fedoraCrates 7 [fedoraRepository] with
    | error e =>
      rw [h] at hsome
      cases hsome
    | ok input => exact ⟨input, rfl⟩
  refine ⟨input, hinput, ?_⟩
  refine metadataInput_injective ?_ ?_ hinput (hsame.trans hinput)
  · rw [List.forall_mem_singleton]
    decide +kernel
  · rw [List.forall_mem_singleton]
    decide +kernel

end Dnfast.Planning
