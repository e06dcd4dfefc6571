import Dnfast.Planning.LazyManifest
import Dnfast.Planning.Manifest
import Dnfast.Planning.StoreSpec

/-! # Sharded indexes

`dnfast-planning`, `file_provides.rs`. A retained manifest of schema 2, 3 or 4 divides its tables into
256 buckets, one for each first byte of a digest, and puts them one behind the other into shards. A
shard is a blob, which schema 4 may compress. A lookup reads the shard of its bucket, cuts the bucket
out and searches it.

The manifest is checked when it is read, the blob when it is decoded, and the cut is made in a third
place: that it lies inside the blob follows from the first two. The decoder of `zstd` is a parameter:
what reading at most so many bytes of its output gives. -/

namespace Dnfast.Planning.ShardIndex

open LazyIndex
open Except (Safe)

variable (crates : Crates) (lib : Library)
  (zstd : List UInt8 → Nat → Except PlanningError (List UInt8))
  (storage : String → UInt64 → Except PlanningError (List UInt8))

/-! ## Reading -/

def readableShardCount (schema : UInt32) : Run Nat :=
  if schema = 2 then .ok 16
  else if schema = 3 ∨ schema = indexSchemaVersion then .ok shardCount
  else fail "file-provides manifest schema is unsupported"

def validateReadableManifest (m : Manifest) (primarySha256 filelistsSha256 : String) : Run Unit := do
  let shards ← readableShardCount m.schemaVersion
  validateManifestLayout m.schemaVersion m primarySha256 filelistsSha256 shards

def decodeRaw (expected : Nat) (bytes : List UInt8) : Run (List UInt8) := do
  refuse (bytes.length ≠ expected) "file-provides raw shard size differs"
  return bytes

def decodeZstd (expected : Nat) (bytes : List UInt8) : Run (List UInt8) := do
  let limit ← checked (expected + 1) "file-provides shard size overflow"
  let decoded ← liftRun (zstd bytes limit)
  refuse (decoded.length ≠ expected) "file-provides decoded shard size differs"
  return decoded

/-- `decode_shard` of a shard of schema 4. -/
def decodeSized (shard : Shard) (bytes : List UInt8) : Run (List UInt8) := do
  let expected ← Except.okOr shard.uncompressedSize
    (.error (.input "file-provides compressed shard size is absent"))
  refuse (expected.toNat > maxShardBytes) "file-provides shard descriptor is invalid"
  match shard.compression with
  | none => decodeRaw expected.toNat bytes
  | some "zstd" => decodeZstd zstd expected.toNat bytes
  | some _ => fail "file-provides shard compression is unsupported"

def decodeShard (schema : UInt32) (shard : Shard) (bytes : List UInt8) : Run (List UInt8) :=
  if schema < indexSchemaVersion then .ok bytes else decodeSized zstd shard bytes

/-- `read_shard`, where `storage` is what `read_blob` gives for a digest and a size. -/
def readShard (m : Manifest) (shard : Shard) : Run (List UInt8) := do
  let bytes ← liftRun (PlanningBytes.decodeVerified lib (storage shard.sha256 shard.size)
    ⟨shard.sha256, shard.size, ""⟩)
  decodeShard zstd m.schemaVersion shard bytes

def bucketSlice (bytes : List UInt8) (bucket : Bucket) : Run (List UInt8) := do
  let stop ← checked (bucket.offset.toNat + bucket.size.toNat) "file-provides bucket range overflow"
  let result ← getRange bytes bucket.offset.toNat stop "file-provides bucket is outside its shard"
  refuse ((crates.sha256 result).asStr ≠ bucket.sha256) "file-provides bucket digest differs"
  return result

/-! ## The layout of a manifest -/

/-- The ranges follow each other without a gap from the first place to the last. -/
def Tiles : List Bucket → Nat → Nat → Prop
  | [], start, stop => start = stop
  | b :: buckets, start, stop => b.offset.toNat = start ∧ Tiles buckets (start + b.size.toNat) stop

/-- The buckets of a shard. -/
def bucketsOf (m : Manifest) (shardIndex : Nat) : List Bucket :=
  m.buckets.filter fun b => b.shard.toNat = shardIndex

section
variable {buckets : List Bucket} {b : Bucket} {start stop : Nat}

theorem Tiles.le (h : Tiles buckets start stop) : start ≤ stop := by
  induction buckets generalizing start with
  | nil => exact Nat.le_of_eq h
  | cons b buckets ih => exact (Nat.le_add_right _ _).trans (ih h.2)

theorem Tiles.range_le (h : Tiles buckets start stop) (hb : b ∈ buckets) :
    b.offset.toNat + b.size.toNat ≤ stop := by
  induction buckets generalizing start with
  | nil => cases hb
  | cons b' buckets ih =>
    rcases List.mem_cons.mp hb with rfl | hb
    · rw [h.1]
      exact h.2.le
    · exact ih h.2 hb

end

/-- The elements of one kind, where a list goes through the kinds in order and has equally many of
each. -/
theorem filter_eq_segment {α : Type} {key : α → Nat} {l : List α} {width i : Nat}
    (hkey : ∀ j (h : j < l.length), key l[j] = j / width) (hwidth : 0 < width) :
    l.filter (fun a => key a = i) = (l.drop (i * width)).take width := by
  have hsplit : l = l.take (i * width) ++ ((l.drop (i * width)).take width ++
      l.drop (i * width + width)) := by
    rw [← List.drop_drop, List.take_append_drop, List.take_append_drop]
  have hbefore : (l.take (i * width)).filter (fun a => key a = i) = [] := by
    rw [List.filter_eq_nil_iff]
    intro a ha
    obtain ⟨j, hj, rfl⟩ := List.mem_take_iff_getElem.mp ha
    have hlt : j / width < i := (Nat.div_lt_iff_lt_mul hwidth).mpr (by omega)
    rw [decide_eq_true_eq, hkey]
    omega
  have hafter : (l.drop (i * width + width)).filter (fun a => key a = i) = [] := by
    rw [List.filter_eq_nil_iff]
    intro a ha
    obtain ⟨j, hj, rfl⟩ := List.mem_drop_iff_getElem.mp ha
    have hlt : i + 1 ≤ (i * width + width + j) / width := by
      rw [Nat.le_div_iff_mul_le hwidth, Nat.succ_mul]
      omega
    rw [decide_eq_true_eq, hkey]
    omega
  have hwithin : ((l.drop (i * width)).take width).filter (fun a => key a = i) =
      (l.drop (i * width)).take width := by
    rw [List.filter_eq_self]
    intro a ha
    obtain ⟨j, hj, rfl⟩ := List.mem_take_iff_getElem.mp ha
    rw [decide_eq_true_eq, List.getElem_drop, hkey, Nat.mul_comm, Nat.mul_add_div hwidth,
      Nat.div_eq_of_lt (by omega), Nat.add_zero]
  conv_lhs => rw [hsplit]
  rw [List.filter_append, List.filter_append, hbefore, hafter, hwithin, List.nil_append,
    List.append_nil]

section
variable {schema : UInt32} {m : Manifest}

theorem element_eq_ok {α : Type} {l : List α} {i : Nat} {a : α} :
    element l i = .ok a ↔ l[i]? = some a := by
  unfold element
  split
  · next h => rw [h, Except.ok.injEq, Option.some.injEq]
  · next h => exact iff_of_false nofun (by rw [h]; exact nofun)

theorem checkBucket_eq_ok {shardIndex j : Nat} {s s' : LayoutScan}
    (h : checkBucket schema m shardIndex s j = .ok s') : ∃ b, m.buckets[j]? = some b ∧
      b.shard.toNat = shardIndex ∧ b.offset.toNat = s.offset ∧
      s'.offset = s.offset + b.size.toNat := by
  simp only [checkBucket, Except.bind_eq_ok, element_eq_ok, refuse, Except.refuseIf_eq_ok,
    checked_eq_ok, Except.pure_eq_ok, not_or, not_not] at h
  obtain ⟨b, hb, _, ⟨hshard, hoffset⟩, _, ⟨-, rfl⟩, _, -, rfl⟩ := h
  exact ⟨b, hb, hshard, hoffset, rfl⟩

/-- The loop over the buckets of a shard: they belong to the shard, and follow each other. -/
theorem foldlM_checkBucket {shardIndex base count : Nat} {s s' : LayoutScan}
    (h : (List.range' base count).foldlM (checkBucket schema m shardIndex) s = .ok s') :
    Tiles ((m.buckets.drop base).take count) s.offset s'.offset ∧
      ∀ j, base ≤ j → j < base + count → ∀ b, m.buckets[j]? = some b →
        b.shard.toNat = shardIndex := by
  induction count generalizing base s with
  | zero =>
    rw [List.range'_zero, List.foldlM_nil, Except.pure_eq_ok] at h
    subst h
    rw [List.take_zero]
    exact ⟨rfl, fun j hle hlt => absurd hlt (by omega)⟩
  | succ count ih =>
    rw [List.range'_succ, List.foldlM_cons, Except.bind_eq_ok] at h
    obtain ⟨s₁, hfirst, hrest⟩ := h
    obtain ⟨b, hb, hshard, hoffset, hnext⟩ := checkBucket_eq_ok hfirst
    obtain ⟨htiles, hall⟩ := ih hrest
    obtain ⟨hlt, rfl⟩ := List.getElem?_eq_some_iff.mp hb
    constructor
    · rw [List.drop_eq_getElem_cons hlt, List.take_succ_cons]
      exact ⟨hoffset, hnext ▸ htiles⟩
    · intro j hle hj b' hb'
      rcases Nat.eq_or_lt_of_le hle with rfl | hlt'
      · rw [hb, Option.some.injEq] at hb'
        exact hb' ▸ hshard
      · exact hall j hlt' (by omega) b' hb'

/-- The buckets at the places of a shard are its own and fill it. -/
def Laid (schema : UInt32) (m : Manifest) (width shardIndex : Nat) : Prop :=
  ∃ shard, m.shards[shardIndex]? = some shard ∧
    Tiles ((m.buckets.drop (shardIndex * width)).take width) 0 (shard.layoutSize schema) ∧
    ∀ j, shardIndex * width ≤ j → j < shardIndex * width + width →
      ∀ b, m.buckets[j]? = some b → b.shard.toNat = shardIndex

theorem checkShard_eq_ok {width counted counted' shardIndex : Nat}
    (h : checkShard schema m width counted shardIndex = .ok counted') :
    Laid schema m width shardIndex := by
  simp only [checkShard, ← List.range'_eq_map_range, Except.bind_eq_ok, element_eq_ok, refuse,
    Except.refuseIf_eq_ok, not_not] at h
  obtain ⟨s, hbuckets, shard, hshard, _, hsize, -⟩ := h
  obtain ⟨htiles, hall⟩ := foldlM_checkBucket hbuckets
  exact ⟨shard, hshard, hsize ▸ htiles, hall⟩

/-- What the checks of a manifest establish: a lookup finds its bucket and the shard of that, the
buckets of a shard fill it, and no shard is larger than the limit. -/
structure WellLaid (m : Manifest) : Prop where
  length : m.buckets.length = bucketCount
  shard : ∀ b ∈ m.buckets, b.shard.toNat < m.shards.length
  tiles : ∀ i (h : i < m.shards.length),
    Tiles (bucketsOf m i) 0 (m.shards[i].layoutSize m.schemaVersion)
  bounded : ∀ s ∈ m.shards, s.layoutSize m.schemaVersion ≤ maxShardBytes

theorem wellLaid_of_validateManifestLayout {primary filelists : String} {shards : Nat}
    (h : validateManifestLayout m.schemaVersion m primary filelists shards = .ok ()) :
    WellLaid m := by
  simp only [validateManifestLayout, Except.bind_eq_ok, refuse, Except.refuseIf_eq_ok] at h
  obtain ⟨_, hdivides, _, hvalid, counted, hloop, -⟩ := h
  simp only [not_or, not_not] at hdivides hvalid
  obtain ⟨-, -, -, hshards, hbuckets, -, hshard, hbucket⟩ := hvalid
  have hpositive : 0 < shards := Nat.pos_of_ne_zero hdivides.1
  have hproduct : shards * (bucketCount / shards) = bucketCount :=
    Nat.mul_div_cancel' (Nat.dvd_of_mod_eq_zero hdivides.2)
  have hwidth : 0 < bucketCount / shards := Nat.pos_of_ne_zero fun hzero => by
    rw [hzero, Nat.mul_zero] at hproduct
    exact absurd hproduct (by decide)
  generalize bucketCount / shards = width at *
  have hall : ∀ i < shards, Laid m.schemaVersion m width i := by
    refine Except.foldlM_range_invariant
      (P := fun n _ => ∀ i < n, Laid m.schemaVersion m width i) ?_ hloop nofun
    intro n _ _ hprevious _ hstep i hi
    rcases Nat.lt_succ_iff_lt_or_eq.mp hi with hlt | rfl
    · exact hprevious i hlt
    · exact checkShard_eq_ok hstep
  have hkey : ∀ j (h : j < m.buckets.length), m.buckets[j].shard.toNat = j / width := by
    intro j hj
    have hlt : j / width < shards := (Nat.div_lt_iff_lt_mul hwidth).mpr (by omega)
    obtain ⟨_, -, -, hown⟩ := hall (j / width) hlt
    have hmod := Nat.div_add_mod' j width
    have hrest := Nat.mod_lt j hwidth
    exact hown j (by omega) (by omega) _ (List.getElem?_eq_getElem hj)
  refine ⟨hbuckets, ?_, ?_, ?_⟩
  · intro b hb
    rw [hshards]
    exact Nat.not_le.mp fun hle => hbucket ⟨b, hb, Or.inl hle⟩
  · intro i hi
    obtain ⟨shard, hsome, htiles, -⟩ := hall i (hshards ▸ hi)
    rw [List.getElem?_eq_getElem hi, Option.some.injEq] at hsome
    rw [bucketsOf, filter_eq_segment hkey hwidth, hsome]
    exact htiles
  · intro s hs
    exact Nat.not_lt.mp fun hlt => hshard ⟨s, hs, Or.inr (Or.inl hlt)⟩

theorem wellLaid_of_validateReadableManifest {primary filelists : String}
    (h : validateReadableManifest m primary filelists = .ok ()) : WellLaid m := by
  rw [validateReadableManifest, Except.bind_eq_ok] at h
  obtain ⟨shards, -, h⟩ := h
  exact wellLaid_of_validateManifestLayout h

end

/-! ## Cutting a bucket out -/

/-- The part of a shard that is a bucket. -/
def range (bytes : List UInt8) (b : Bucket) : List UInt8 :=
  (bytes.drop b.offset.toNat).take b.size.toNat

/-- The cut lies inside the shard, and only its digest is left to decide. -/
def InRange (bytes : List UInt8) (b : Bucket) : Prop :=
  (range bytes b).length = b.size.toNat ∧
    bucketSlice crates bytes b =
      if (crates.sha256 (range bytes b)).asStr = b.sha256 then .ok (range bytes b)
      else fail "file-provides bucket digest differs"

section
variable {crates lib zstd storage} {m : Manifest} {shard : Shard} {stored decoded : List UInt8}

theorem inRange {bytes : List UInt8} {b : Bucket}
    (hle : b.offset.toNat + b.size.toNat ≤ bytes.length)
    (hbound : b.offset.toNat + b.size.toNat < 2 ^ 64) : InRange crates bytes b := by
  constructor
  · rw [range, List.length_take, List.length_drop]
    omega
  · have hrange : ∀ message, getRange bytes b.offset.toNat (b.offset.toNat + b.size.toNat) message =
        .ok (range bytes b) := fun message => getRange_eq_ok.mpr
      ⟨⟨Nat.le_add_right _ _, hle⟩, by rw [Nat.add_sub_cancel_left, range]⟩
    rw [bucketSlice, checked_eq_ok.mpr ⟨hbound, rfl⟩, Except.ok_bind, hrange, Except.ok_bind]
    split
    · next h =>
      rw [refuse_eq_ok (not_not.mpr h)]
      rfl
    · next h =>
      rw [refuse, Except.refuseIf, if_pos h]
      rfl

/-- A decoded shard has the size of the layout. Where there is no compression the size is that of the
blob, and the decoder does not look at it. -/
theorem length_decodeShard {schema : UInt32} (h : decodeShard zstd schema shard stored = .ok decoded)
    (hstored : schema < indexSchemaVersion → stored.length = shard.size.toNat) :
    decoded.length = shard.layoutSize schema := by
  unfold decodeShard at h
  rw [Shard.layoutSize]
  split at h
  · next hold =>
    rw [if_pos hold, ← Except.ok.inj h]
    exact hstored hold
  · next hnew =>
    rw [if_neg hnew]
    simp only [decodeSized, Except.bind_eq_ok, Except.okOr_eq_ok] at h
    obtain ⟨expected, hexpected, _, -, h⟩ := h
    rw [hexpected, Option.getD_some]
    split at h
    · simp only [decodeRaw, Except.bind_eq_ok, refuse, Except.refuseIf_eq_ok, not_not,
        Except.pure_eq_ok] at h
      obtain ⟨_, hlength, rfl⟩ := h
      exact hlength
    · simp only [decodeZstd, Except.bind_eq_ok, refuse, Except.refuseIf_eq_ok, not_not,
        Except.pure_eq_ok] at h
      obtain ⟨_, -, _, -, _, hlength, rfl⟩ := h
      exact hlength
    · cases h

theorem length_readShard (h : readShard lib zstd storage m shard = .ok decoded) :
    decoded.length = shard.layoutSize m.schemaVersion := by
  rw [readShard, Except.bind_eq_ok] at h
  obtain ⟨stored, hstored, hdecode⟩ := h
  rw [liftRun_eq_ok, PlanningBytes.decodeVerified, if_pos rfl] at hstored
  simp only [Except.bind_eq_ok, Except.refuseIf_eq_ok, not_not, Except.pure_eq_ok] at hstored
  obtain ⟨_, -, _, hdescribes, rfl⟩ := hstored
  exact length_decodeShard hdecode fun _ => hdescribes.1

theorem WellLaid.inRange (hm : WellLaid m) {b : Bucket} (hb : b ∈ m.buckets)
    (hshard : m.shards[b.shard.toNat]? = some shard)
    (hdecoded : decoded.length = shard.layoutSize m.schemaVersion) : InRange crates decoded b := by
  obtain ⟨hlt, rfl⟩ := List.getElem?_eq_some_iff.mp hshard
  have hmem : b ∈ bucketsOf m b.shard.toNat := List.mem_filter.mpr ⟨hb, decide_eq_true rfl⟩
  have hle := (hm.tiles _ hlt).range_le hmem
  have hmax := hm.bounded _ (List.getElem_mem hlt)
  rw [maxShardBytes] at hmax
  exact ShardIndex.inRange (hdecoded ▸ hle) (by omega)

end

end Dnfast.Planning.ShardIndex
