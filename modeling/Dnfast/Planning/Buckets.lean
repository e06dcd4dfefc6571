import Dnfast.Data.SortDedup
import Dnfast.Planning.Shards

/-! # Looking a digest up in a bucket

`dnfast-planning`, `file_provides.rs`. A bucket is a header and records of one size: a digest, whole
or in its first half, and an ordinal. The records ascend as wholes, so those of one digest stand
together, in the order of their ordinals. -/

namespace Dnfast.Planning.ShardIndex

open Core (isLowerDigest)
open LazyIndex
open Except (Safe)

def fullDigestSize : Nat := 32
def indexDigestSize : Nat := 16
def magic : List UInt8 := "DNFASTFP".asBytes

def digestSizeForSchema (schema : UInt32) : Run Nat :=
  if schema = 2 ∨ schema = 3 then .ok fullDigestSize
  else if schema = indexSchemaVersion then .ok indexDigestSize
  else fail "file-provides bucket schema is unsupported"

/-! ## Validation -/

def checkHeader (bytes : List UInt8) (schema : UInt32) (bucketIndex : Nat) : Run Unit := do
  let message := "file-provides bucket header is invalid"
  refuse (bytes.length < bucketHeaderSize) message
  let found ← bytes.slice 0 8
  refuse (found ≠ magic) message
  let version ← readBe 4 bytes 8 12
  refuse (version ≠ schema.toNat) message
  let index ← element bytes 12
  refuse (index.toNat ≠ bucketIndex) message
  let padding ← bytes.slice 13 16
  refuse (padding ≠ [0, 0, 0]) message

/-- A step of the loop over the records, with the record before. -/
def checkRecord (digestSize bucketIndex : Nat) (packageCount : UInt32)
    (previous : Option (List UInt8)) (record : List UInt8) : Run (Option (List UInt8)) := do
  let message := "file-provides bucket records are invalid"
  let first ← element record 0
  refuse (first.toNat ≠ bucketIndex) message
  let ordinal ← readBe 4 record digestSize (digestSize + 4)
  refuse (ordinal ≥ packageCount.toNat) message
  refuse (∃ p ∈ previous, p ≥ record) message
  return some record

def validateBucket (bytes : List UInt8) (schema : UInt32) (bucketIndex : Nat)
    (packageCount : UInt32) : Run Nat := do
  let digestSize ← digestSizeForSchema schema
  let recordSize := digestSize + 4
  checkHeader bytes schema bucketIndex
  let count ← readBe 8 bytes 16 24
  let size ← checked (count * recordSize) "file-provides bucket size overflow"
  let expected ← checked (size + bucketHeaderSize) "file-provides bucket size overflow"
  refuse (bytes.length ≠ expected) "file-provides bucket size differs from header"
  let records ← bytes.slice bucketHeaderSize bytes.length
  let _ ← (records.chunksExact recordSize).foldlM (checkRecord digestSize bucketIndex packageCount)
    none
  return count

/-! ## Lookup -/

section
variable (bytes : List UInt8) (digestSize : Nat) (target : List UInt8)

def digestAt (i : Nat) : Run (List UInt8) :=
  let offset := bucketHeaderSize + i * (digestSize + 4)
  bytes.slice offset (offset + digestSize)

/-- A step of the search for the first record of a digest. -/
def belowTarget (middle : Nat) : Run Bool := do
  let digest ← digestAt bytes digestSize middle
  let head ← target.slice 0 digestSize
  return digest < head

/-- A step of the loop over the records of a digest. -/
def readProvider (i : Nat) : Run (Option Nat) := do
  let offset := bucketHeaderSize + i * (digestSize + 4)
  let digest ← digestAt bytes digestSize i
  let head ← target.slice 0 digestSize
  if digest = head then
    return some (← readBe 4 bytes (offset + digestSize) (offset + (digestSize + 4)))
  else return none

end

def lookupBucket (bytes : List UInt8) (schema : UInt32) (bucketIndex : Nat) (packageCount : UInt32)
    (target : List UInt8) : Run (List Nat) := do
  let digestSize ← digestSizeForSchema schema
  let records ← validateBucket bytes schema bucketIndex packageCount
  let left ← lowerBound (belowTarget bytes digestSize target) records 0 records
  let providers ← scanWhile (readProvider bytes digestSize target) records left records
  return providers.sortDedup

/-- The end of `file_providers`, for a manifest with shards. -/
def providersOf (lib : Library) (zstd : List UInt8 → Nat → Except PlanningError (List UInt8))
    (storage : String → UInt64 → Except PlanningError (List UInt8)) (m : Manifest)
    (absolutePath : String) : Run (List Nat) := do
  let digest := digestBytes lib.crates absolutePath.asBytes
  let first ← element digest 0
  let bucket ← element m.buckets first.toNat
  let shard ← element m.shards bucket.shard.toNat
  let bytes ← readShard lib zstd storage m shard
  let bucketBytes ← bucketSlice lib.crates bytes bucket
  lookupBucket bucketBytes m.schemaVersion first.toNat m.packageCount digest

/-! ## What an accepted bucket holds -/

/-- The parts of a bucket behind the header. -/
def chunks (digestSize : Nat) (bytes : List UInt8) : List (List UInt8) :=
  (bytes.drop bucketHeaderSize).chunksExact (digestSize + 4)

/-- A record: a digest, or the first half of one, with the ordinal of a package. -/
def record (digestSize : Nat) (chunk : List UInt8) : List UInt8 × Nat :=
  (chunk.take digestSize, Nat.ofBeBytes (chunk.drop digestSize))

def records (digestSize : Nat) (bytes : List UInt8) : List (List UInt8 × Nat) :=
  (chunks digestSize bytes).map (record digestSize)

/-- The size is that of the records, which ascend and have ordinals of packages. -/
structure Accepted (digestSize : Nat) (packageCount : UInt32) (bytes : List UInt8) (count : Nat) :
    Prop where
  length : bytes.length = bucketHeaderSize + count * (digestSize + 4)
  ascending : (chunks digestSize bytes).Pairwise (· < ·)
  bounded : ∀ r ∈ records digestSize bytes, r.2 < packageCount.toNat

section
variable {digestSize count bucketIndex : Nat} {packageCount : UInt32} {schema : UInt32}
  {bytes target : List UInt8}

theorem length_of_mem_chunks {chunk : List UInt8} (h : chunk ∈ chunks digestSize bytes) :
    chunk.length = digestSize + 4 := List.length_of_mem_chunksExact h

theorem digestSize_of_digestSizeForSchema (h : digestSizeForSchema schema = .ok digestSize) :
    digestSize = 16 ∨ digestSize = 32 := by
  unfold digestSizeForSchema at h
  split at h
  · exact Or.inr (Except.ok.inj h).symm
  split at h
  · exact Or.inl (Except.ok.inj h).symm
  · cases h

theorem safe_digestSizeForSchema (schema : UInt32) : Safe (digestSizeForSchema schema) := by
  unfold digestSizeForSchema
  split
  · exact Except.safe_ok _
  split
  · exact Except.safe_ok _
  · exact Except.safe_error _

theorem readBe_ordinal {chunk : List UInt8} (hchunk : chunk.length = digestSize + 4) :
    readBe 4 chunk digestSize (digestSize + 4) = .ok (record digestSize chunk).2 := by
  rw [← hchunk]
  exact readBe_tail hchunk

theorem safe_element {α : Type} {l : List α} {i : Nat} (h : i < l.length) : Safe (element l i) := by
  rw [element_eq_ok.mpr (List.getElem?_eq_getElem h)]
  exact Except.safe_ok _

theorem checkRecord_eq_ok {previous previous' : Option (List UInt8)} {chunk : List UInt8}
    (hchunk : chunk.length = digestSize + 4)
    (h : checkRecord digestSize bucketIndex packageCount previous chunk = .ok previous') :
    (record digestSize chunk).2 < packageCount.toNat ∧ (∀ p ∈ previous, p < chunk) ∧
      previous' = some chunk := by
  simp only [checkRecord, readBe_ordinal hchunk, Except.bind_eq_ok, Except.ok_bind, refuse,
    Except.refuseIf_eq_ok, not_exists, not_and, ge_iff_le, not_le, Except.pure_eq_ok] at h
  obtain ⟨_, -, _, -, _, hlt, _, hprevious, rfl⟩ := h
  exact ⟨hlt, hprevious, rfl⟩

theorem safe_checkRecord {previous : Option (List UInt8)} {chunk : List UInt8}
    (hchunk : chunk.length = digestSize + 4) :
    Safe (checkRecord digestSize bucketIndex packageCount previous chunk) := by
  refine Safe.bind (safe_element (by omega)) fun _ _ => ?_
  refine Safe.bind (Except.safe_refuseIf _ _) fun _ _ => ?_
  rw [readBe_ordinal hchunk, Except.ok_bind]
  refine Safe.bind (Except.safe_refuseIf _ _) fun _ _ => ?_
  exact Safe.bind (Except.safe_refuseIf _ _) fun _ _ => Except.safe_ok _

/-- The loop over the records succeeds only when they ascend and have ordinals of packages. -/
theorem foldlM_checkRecord {cs : List (List UInt8)} (hcs : ∀ c ∈ cs, c.length = digestSize + 4)
    {previous previous' : Option (List UInt8)}
    (h : cs.foldlM (checkRecord digestSize bucketIndex packageCount) previous = .ok previous') :
    (previous.toList ++ cs).IsChain (· < ·) ∧
      ∀ c ∈ cs, (record digestSize c).2 < packageCount.toNat := by
  induction cs generalizing previous with
  | nil =>
    refine ⟨?_, nofun⟩
    cases previous <;> simp
  | cons c cs ih =>
    rw [List.forall_mem_cons] at hcs
    rw [List.foldlM_cons, Except.bind_eq_ok] at h
    obtain ⟨_, hfirst, hrest⟩ := h
    obtain ⟨hlt, hprevious, rfl⟩ := checkRecord_eq_ok hcs.1 hfirst
    obtain ⟨hchain, hall⟩ := ih hcs.2 hrest
    rw [isChain_toList_append_cons, List.forall_mem_cons]
    exact ⟨⟨hprevious, hchain⟩, hlt, hall⟩

theorem accepted_of_validateBucket (hschema : digestSizeForSchema schema = .ok digestSize)
    (h : validateBucket bytes schema bucketIndex packageCount = .ok count) :
    Accepted digestSize packageCount bytes count := by
  simp only [validateBucket, hschema, Except.ok_bind] at h
  rw [Except.check_bind_eq_ok] at h
  simp only [Except.bind_eq_ok, checked_eq_ok, refuse, Except.refuseIf_eq_ok, not_not,
    Except.pure_eq_ok] at h
  obtain ⟨-, count, -, _, ⟨-, rfl⟩, _, ⟨-, rfl⟩, _, hlength, all, hall, previous, hloop, rfl⟩ := h
  have hle : bucketHeaderSize ≤ bytes.length := by omega
  rw [List.slice_eq_ok hle (Nat.le_refl _), Except.ok.injEq,
    List.take_of_length_le (by rw [List.length_drop])] at hall
  subst hall
  have hsize : ∀ c ∈ chunks digestSize bytes, c.length = digestSize + 4 := fun _ => length_of_mem_chunks
  obtain ⟨hchain, hbounded⟩ := foldlM_checkRecord hsize hloop
  refine ⟨by omega, List.isChain_iff_pairwise.mp hchain, ?_⟩
  intro r hr
  obtain ⟨c, hc, rfl⟩ := List.mem_map.mp hr
  exact hbounded c hc

theorem safe_checked (n : Nat) (message : String) : Safe (checked n message) := by
  unfold checked
  split
  · exact Except.safe_ok _
  · exact Except.safe_error _

theorem safe_checkHeader (bytes : List UInt8) (schema : UInt32) (bucketIndex : Nat) :
    Safe (checkHeader bytes schema bucketIndex) := by
  refine Safe.bind (Except.safe_refuseIf _ _) fun _ hlength => ?_
  have hle : 24 ≤ bytes.length := Nat.not_lt.mp (Except.refuseIf_eq_ok.mp hlength)
  refine Safe.bind (Except.safe_slice (by omega) (by omega)) fun _ _ => ?_
  refine Safe.bind (Except.safe_refuseIf _ _) fun _ _ => ?_
  refine Safe.bind (safe_readBe (by omega) (by omega) (by omega)) fun _ _ => ?_
  refine Safe.bind (Except.safe_refuseIf _ _) fun _ _ => ?_
  refine Safe.bind (safe_element (by omega)) fun _ _ => ?_
  refine Safe.bind (Except.safe_refuseIf _ _) fun _ _ => ?_
  refine Safe.bind (Except.safe_slice (by omega) (by omega)) fun _ _ => ?_
  exact Except.safe_refuseIf _ _

/-- Validation reads inside the bucket, whatever the bytes are. -/
theorem safe_validateBucket (bytes : List UInt8) (schema : UInt32) (bucketIndex : Nat)
    (packageCount : UInt32) : Safe (validateBucket bytes schema bucketIndex packageCount) := by
  refine Safe.bind (safe_digestSizeForSchema schema) fun digestSize _ => ?_
  refine Safe.bind (safe_checkHeader bytes schema bucketIndex) fun _ hheader => ?_
  have hle : 24 ≤ bytes.length := by
    rw [checkHeader, Except.check_bind_eq_ok, refuse, Except.refuseIf_eq_ok] at hheader
    exact Nat.not_lt.mp hheader.1
  refine Safe.bind (safe_readBe (by omega) (by omega) (by omega)) fun _ _ => ?_
  refine Safe.bind (safe_checked _ _) fun _ _ => ?_
  refine Safe.bind (safe_checked _ _) fun _ _ => ?_
  refine Safe.bind (Except.safe_refuseIf _ _) fun _ _ => ?_
  refine Safe.bind (Except.safe_slice hle (Nat.le_refl _)) fun _ _ => ?_
  refine Safe.bind (Except.safe_foldlM ?_ _) fun _ _ => Except.safe_ok _
  exact fun _ _ hc => safe_checkRecord (List.length_of_mem_chunksExact hc)

end

/-! ## What a lookup finds -/

section
variable {digestSize count bucketIndex i : Nat} {packageCount : UInt32} {schema : UInt32}
  {bytes target : List UInt8}

theorem Accepted.length_chunks (h : Accepted digestSize packageCount bytes count) :
    (chunks digestSize bytes).length = count := by
  rw [chunks, List.length_chunksExact, List.length_drop, h.length, Nat.add_sub_cancel_left]
  exact Nat.mul_div_cancel _ (Nat.succ_pos _)

theorem Accepted.drop_chunk (h : Accepted digestSize packageCount bytes count)
    (hi : i < (chunks digestSize bytes).length) :
    bucketHeaderSize + i * (digestSize + 4) + (digestSize + 4) ≤ bytes.length ∧
      (chunks digestSize bytes)[i] =
        (bytes.drop (bucketHeaderSize + i * (digestSize + 4))).take (digestSize + 4) := by
  constructor
  · have hle : (i + 1) * (digestSize + 4) ≤ count * (digestSize + 4) :=
      Nat.mul_le_mul_right _ (h.length_chunks ▸ hi)
    rw [h.length, Nat.add_assoc, ← Nat.succ_mul]
    exact Nat.add_le_add_left hle _
  · simp only [chunks, List.getElem_chunksExact, List.drop_drop]

theorem digestAt_eq (h : Accepted digestSize packageCount bytes count)
    (hi : i < (chunks digestSize bytes).length) :
    digestAt bytes digestSize i = .ok (record digestSize (chunks digestSize bytes)[i]).1 := by
  obtain ⟨hle, hchunk⟩ := h.drop_chunk hi
  rw [digestAt, List.slice_eq_ok (by omega) (by omega), Nat.add_sub_cancel_left, hchunk, record,
    List.take_take, Nat.min_eq_left (by omega)]

theorem belowTarget_eq (h : Accepted digestSize packageCount bytes count)
    (htarget : digestSize ≤ target.length) (hi : i < (chunks digestSize bytes).length) :
    belowTarget bytes digestSize target i =
      .ok (decide ((record digestSize (chunks digestSize bytes)[i]).1 < target.take digestSize)) := by
  rw [belowTarget, digestAt_eq h hi, Except.ok_bind, slice_zero htarget]
  rfl

theorem readProvider_eq (h : Accepted digestSize packageCount bytes count)
    (htarget : digestSize ≤ target.length) (hi : i < (chunks digestSize bytes).length) :
    readProvider bytes digestSize target i =
      .ok (if decide ((record digestSize (chunks digestSize bytes)[i]).1 = target.take digestSize)
        then some (record digestSize (chunks digestSize bytes)[i]).2 else none) := by
  obtain ⟨hle, hchunk⟩ := h.drop_chunk hi
  have hordinal : readBe 4 bytes (bucketHeaderSize + i * (digestSize + 4) + digestSize)
      (bucketHeaderSize + i * (digestSize + 4) + (digestSize + 4)) =
      .ok (record digestSize (chunks digestSize bytes)[i]).2 := by
    have hwidth : bucketHeaderSize + i * (digestSize + 4) + (digestSize + 4) -
        (bucketHeaderSize + i * (digestSize + 4) + digestSize) = 4 := by omega
    rw [readBe, List.slice_eq_ok (by omega) hle, Except.ok_bind, List.fixed_eq_ok
      (by rw [List.length_drop_take (by omega) hle, hwidth]), Except.ok_bind, hwidth, hchunk, record,
      List.drop_take, List.drop_drop, Nat.add_sub_cancel_left]
    rfl
  rw [readProvider]
  simp only [digestAt_eq h hi, Except.ok_bind, slice_zero htarget, hordinal, decide_eq_true_eq]
  split_ifs <;> rfl

/-- The search and the loop behind it find the ordinals of all records of the digest. -/
theorem lowerBound_scanWhile_records (h : Accepted digestSize packageCount bytes count)
    (htarget : digestSize ≤ target.length) :
    (do
      let left ← lowerBound (belowTarget bytes digestSize target) count 0 count
      scanWhile (readProvider bytes digestSize target) count left count) =
      .ok (((chunks digestSize bytes).filter fun c =>
        (record digestSize c).1 = target.take digestSize).map fun c => (record digestSize c).2) := by
  have hsorted : (chunks digestSize bytes).Pairwise fun c d =>
      (record digestSize c).1 ≤ (record digestSize d).1 := by
    refine h.ascending.imp_of_mem ?_
    intro c d hc hd hlt
    have hc' := length_of_mem_chunks hc
    have hd' := length_of_mem_chunks hd
    rcases (List.lt_iff_take_drop (n := digestSize) (by omega) (by omega)).mp hlt with hless | heq
    · exact hless.le
    · exact heq.1.le
  rw [← h.length_chunks]
  refine lowerBound_scanWhile_spec
    (p := fun c => decide ((record digestSize c).1 < target.take digestSize))
    (fun i hi => belowTarget_eq h htarget hi) (fun i hi => readProvider_eq h htarget hi) ?_ ?_ ?_
  · refine hsorted.imp ?_
    simp only [decide_eq_true_eq]
    exact fun hle hlt => lt_of_le_of_lt hle hlt
  · refine hsorted.imp ?_
    simp only [decide_eq_true_eq, decide_eq_false_iff_not, not_lt]
    exact fun hle hnot heq => le_antisymm (heq ▸ hle) hnot
  · intro c _ heq
    simp only [decide_eq_true_eq, decide_eq_false_iff_not, not_lt] at heq ⊢
    exact heq.ge

/-- A lookup in an accepted bucket ends with the ordinals of the records of the digest, in order and
each once. -/
theorem lookupBucket_eq (hschema : digestSizeForSchema schema = .ok digestSize)
    (h : validateBucket bytes schema bucketIndex packageCount = .ok count)
    (htarget : digestSize ≤ target.length) :
    lookupBucket bytes schema bucketIndex packageCount target =
      .ok ((((records digestSize bytes).filter fun r => r.1 = target.take digestSize).map
        Prod.snd).sortDedup) := by
  have hfound := lowerBound_scanWhile_records (accepted_of_validateBucket hschema h) htarget
  simp only [lookupBucket, hschema, h, Except.ok_bind]
  rw [← bind_assoc, hfound, Except.ok_bind, records, List.filter_map, List.map_map]
  rfl

/-- The ordinals a lookup ends with. -/
def Lists (digestSize : Nat) (packageCount : UInt32) (bytes target : List UInt8)
    (ordinals : List Nat) : Prop :=
  ordinals.Pairwise (· < ·) ∧ (∀ o ∈ ordinals, o < packageCount.toNat) ∧
    ∀ o, o ∈ ordinals ↔ (target.take digestSize, o) ∈ records digestSize bytes

theorem lists_lookupBucket (hschema : digestSizeForSchema schema = .ok digestSize)
    (h : validateBucket bytes schema bucketIndex packageCount = .ok count) :
    Lists digestSize packageCount bytes target
      (((records digestSize bytes).filter fun r => r.1 = target.take digestSize).map
        Prod.snd).sortDedup := by
  have hmem : ∀ o, o ∈ (((records digestSize bytes).filter fun r =>
      r.1 = target.take digestSize).map Prod.snd).sortDedup ↔
      (target.take digestSize, o) ∈ records digestSize bytes := by
    intro o
    rw [List.mem_sortDedup, List.mem_map]
    constructor
    · rintro ⟨⟨_, _⟩, hr, rfl⟩
      obtain ⟨hr, heq⟩ := List.mem_filter.mp hr
      exact of_decide_eq_true heq ▸ hr
    · intro hr
      exact ⟨_, List.mem_filter.mpr ⟨hr, decide_eq_true rfl⟩, rfl⟩
  refine ⟨List.pairwise_sortDedup _, ?_, hmem⟩
  intro o ho
  exact (accepted_of_validateBucket hschema h).bounded _ ((hmem o).mp ho)

theorem exists_digestSize (h : validateBucket bytes schema bucketIndex packageCount = .ok count) :
    ∃ digestSize, digestSizeForSchema schema = .ok digestSize := by
  rw [validateBucket, Except.bind_eq_ok] at h
  exact h.imp fun _ => And.left

theorem digestSize_le (hschema : digestSizeForSchema schema = .ok digestSize)
    (htarget : target.length = fullDigestSize) : digestSize ≤ target.length := by
  rw [htarget, fullDigestSize]
  rcases digestSize_of_digestSizeForSchema hschema with rfl | rfl <;> decide

/-- A lookup reads inside the bucket and inside the digest. -/
theorem safe_lookupBucket (htarget : target.length = fullDigestSize) :
    Safe (lookupBucket bytes schema bucketIndex packageCount target) := by
  cases hcount : validateBucket bytes schema bucketIndex packageCount with
  | error e =>
    refine Safe.bind (safe_digestSizeForSchema schema) fun _ _ => ?_
    refine Safe.bind (safe_validateBucket _ _ _ _) fun _ hok => ?_
    rw [hcount] at hok
    cases hok
  | ok count =>
    obtain ⟨digestSize, hschema⟩ := exists_digestSize hcount
    rw [lookupBucket_eq hschema hcount (digestSize_le hschema htarget)]
    exact Except.safe_ok _

end

/-! ## Both checks together -/

section
variable (crates : Crates) (lib : Library)
  (zstd : List UInt8 → Nat → Except PlanningError (List UInt8))
  (storage : String → UInt64 → Except PlanningError (List UInt8)) {m : Manifest}

theorem safe_liftRun {α : Type} (x : Except PlanningError α) : Safe (liftRun x) := by
  cases x with
  | error e => exact Except.safe_error e
  | ok a => exact Except.safe_ok a

theorem safe_decodeShard (schema : UInt32) (shard : Shard) (bytes : List UInt8) :
    Safe (decodeShard zstd schema shard bytes) := by
  unfold decodeShard
  split
  · exact Except.safe_ok _
  refine Safe.bind ?_ fun _ _ => Safe.bind (Except.safe_refuseIf _ _) fun _ _ => ?_
  · cases shard.uncompressedSize with
    | none => exact Except.safe_error _
    | some expected => exact Except.safe_ok _
  split
  · exact Safe.bind (Except.safe_refuseIf _ _) fun _ _ => Except.safe_ok _
  · refine Safe.bind (safe_checked _ _) fun _ _ => ?_
    refine Safe.bind (safe_liftRun _) fun _ _ => ?_
    exact Safe.bind (Except.safe_refuseIf _ _) fun _ _ => Except.safe_ok _
  · exact Except.safe_error _

/-- The end of `file_providers` never leaves a list, whatever the blob is. -/
theorem safe_providersOf (hm : WellLaid m) (absolutePath : String) :
    Safe (providersOf lib zstd storage m absolutePath) := by
  have hdigest := length_digestBytes lib.crates absolutePath.asBytes
  refine Safe.bind (safe_element (by omega)) fun first _ => ?_
  have hfirst : first.toNat < m.buckets.length := by
    rw [hm.length]
    exact first.toNat_lt
  refine Safe.bind (safe_element hfirst) fun bucket hbucket => ?_
  have hmem := List.mem_of_getElem? (element_eq_ok.mp hbucket)
  refine Safe.bind (safe_element (hm.shard bucket hmem)) fun shard hshard => ?_
  refine Safe.bind ?_ fun decoded hread => ?_
  · exact Safe.bind (safe_liftRun _) fun _ _ => safe_decodeShard _ _ _ _
  refine Safe.bind ?_ fun bucketBytes _ => safe_lookupBucket hdigest
  rw [(hm.inRange hmem (element_eq_ok.mp hshard) (length_readShard hread)).2]
  split
  · exact Except.safe_ok _
  · exact Except.safe_error _

/-- The buckets of a manifest that is accepted fill its shards, so that every bucket lies inside its
shard when the shard is read, and the records of an accepted bucket are found. -/
theorem lookup_spec {primary filelists : String}
    (h : validateReadableManifest m primary filelists = .ok ()) :
    (∀ i (hi : i < m.shards.length),
      Tiles (bucketsOf m i) 0 (m.shards[i].layoutSize m.schemaVersion)) ∧
    (∀ b ∈ m.buckets, ∃ shard, m.shards[b.shard.toNat]? = some shard ∧
      (∀ stored decoded, (m.schemaVersion < indexSchemaVersion → stored.length = shard.size.toNat) →
        decodeShard zstd m.schemaVersion shard stored = .ok decoded →
        decoded.length = shard.layoutSize m.schemaVersion ∧ InRange crates decoded b) ∧
      ∀ decoded, readShard lib zstd storage m shard = .ok decoded →
        decoded.length = shard.layoutSize m.schemaVersion ∧ InRange crates decoded b) ∧
    ∀ bytes schema bucketIndex packageCount count,
      validateBucket bytes schema bucketIndex packageCount = .ok count →
      ∀ target : List UInt8, target.length = fullDigestSize → ∃ digestSize ordinals,
        digestSizeForSchema schema = .ok digestSize ∧
        lookupBucket bytes schema bucketIndex packageCount target = .ok ordinals ∧
        Lists digestSize packageCount bytes target ordinals := by
  have hm := wellLaid_of_validateReadableManifest h
  refine ⟨hm.tiles, ?_, ?_⟩
  · intro b hb
    have hshard := List.getElem?_eq_getElem (hm.shard b hb)
    refine ⟨_, hshard, ?_, ?_⟩
    · intro stored decoded hstored hdecode
      have hlength := length_decodeShard hdecode hstored
      exact ⟨hlength, hm.inRange hb hshard hlength⟩
    · intro decoded hread
      have hlength := length_readShard hread
      exact ⟨hlength, hm.inRange hb hshard hlength⟩
  · intro bytes schema bucketIndex packageCount count hcount target htarget
    obtain ⟨digestSize, hschema⟩ := exists_digestSize hcount
    exact ⟨digestSize, _, hschema,
      lookupBucket_eq hschema hcount (digestSize_le hschema htarget), lists_lookupBucket hschema hcount⟩

end

/-! ## A manifest without records -/

def sampleShard : Shard := ⟨fedoraBundle.asStr, 384, none, none⟩

def sampleBucket (i : Nat) : Bucket :=
  ⟨UInt8.ofNat (i / 16), UInt64.ofNat (i % 16 * 24), fedoraBundle.asStr, 24⟩

/-- 256 empty buckets in 16 shards. -/
def sampleManifest : Manifest where
  schemaVersion := 2
  primarySha256 := "p"
  filelistsSha256 := "f"
  packageCount := 2
  recordCount := 0
  shards := List.replicate 16 sampleShard
  buckets := (List.range 256).map sampleBucket

/-- A bucket with two records of one digest. -/
def sampleRecords : List UInt8 :=
  magic ++ [0, 0, 0, 2, 7, 0, 0, 0, 0, 0, 0, 0, 0, 0, 0, 2] ++
    (7 :: List.replicate 31 0) ++ [0, 0, 0, 0] ++ (7 :: List.replicate 31 0) ++ [0, 0, 0, 1]

theorem not_invalid_sampleShard : ¬ sampleShard.invalid 2 16 := by
  have hdigest : isLowerDigest fedoraBundle.asStr = true := fedoraBundle.canonical
  simp [Shard.invalid, Shard.layoutSize, sampleShard, hdigest, bucketHeaderSize, maxShardBytes,
    indexSchemaVersion]

theorem not_invalid_sampleBucket {i : Nat} (hi : i < 256) : ¬ (sampleBucket i).invalid 2 16 := by
  have hdigest : isLowerDigest fedoraBundle.asStr = true := fedoraBundle.canonical
  have hshard : i / 16 % 256 < 16 := by omega
  simp [Bucket.invalid, sampleBucket, hdigest, bucketHeaderSize, hshard]

theorem foldlM_sampleManifest :
    (List.range 16).foldlM (checkShard 2 sampleManifest 16) 0 = .ok 0 := by
  rw [← Except.toOption_eq_some]
  decide +kernel

theorem validate_sampleManifest : validateReadableManifest sampleManifest "p" "f" = .ok () := by
  have hcount : readableShardCount sampleManifest.schemaVersion = .ok 16 := rfl
  have hlength : sampleManifest.buckets.length = bucketCount := by
    rw [sampleManifest, List.length_map, List.length_range, bucketCount]
  have hshards : ¬ ∃ s ∈ sampleManifest.shards,
      s.invalid sampleManifest.schemaVersion (bucketCount / 16) := by
    rintro ⟨s, hs, hinvalid⟩
    rw [List.eq_of_mem_replicate hs] at hinvalid
    exact not_invalid_sampleShard hinvalid
  have hbuckets : ¬ ∃ b ∈ sampleManifest.buckets,
      b.invalid sampleManifest.schemaVersion 16 := by
    rintro ⟨b, hb, hinvalid⟩
    obtain ⟨i, hi, rfl⟩ := List.mem_map.mp hb
    exact not_invalid_sampleBucket (List.mem_range.mp hi) hinvalid
  have hloop : (List.range 16).foldlM
      (checkShard sampleManifest.schemaVersion sampleManifest (bucketCount / 16)) 0 = .ok 0 :=
    foldlM_sampleManifest
  rw [validateReadableManifest, hcount, Except.ok_bind, validateManifestLayout]
  simp only [hloop, Except.ok_bind]
  rw [refuse_eq_ok (by decide), Except.ok_bind, refuse_eq_ok, Except.ok_bind,
    refuse_eq_ok (by decide)]
  simp only [not_or, not_not, hlength, hshards, hbuckets, not_false_eq_true, and_true, true_and]
  exact ⟨rfl, rfl, rfl, by decide⟩

theorem validate_sampleRecords : validateBucket sampleRecords 2 7 2 = .ok 2 := by
  rw [← Except.toOption_eq_some]
  decide +kernel

/-- The crates and parsers, where only digests are computed. -/
def sampleLibrary : Library where
  crates := fedoraCrates
  indexJson := ⟨fun _ => .error "", fun _ => .error "", fun _ => [], fun _ => .error "", fun _ => []⟩
  toVec _ := []
  fromSlice _ := .error ""
  RawModule := Unit
  parseModules _ _ := .ok []
  validateState _ _ _ := .ok ()

theorem lookup_spec_sample :
    Tiles (bucketsOf sampleManifest 3) 0 384 ∧
    InRange fedoraCrates (List.replicate 384 0) (sampleBucket 5) ∧
    ∃ digestSize ordinals, digestSizeForSchema 2 = .ok digestSize ∧
      lookupBucket sampleRecords 2 7 2 (7 :: List.replicate 31 0) = .ok ordinals ∧
      Lists digestSize 2 sampleRecords (7 :: List.replicate 31 0) ordinals := by
  obtain ⟨htiles, hrange, hlookup⟩ := lookup_spec fedoraCrates sampleLibrary
    (fun _ _ => .ok []) (fun _ _ => .error (osError .noent)) validate_sampleManifest
  have hbucket : sampleBucket 5 ∈ sampleManifest.buckets :=
    List.mem_map_of_mem (List.mem_range.mpr (by decide))
  obtain ⟨shard, hshard, hstored, -⟩ := hrange (sampleBucket 5) hbucket
  obtain rfl : shard = sampleShard := (Option.some.inj hshard).symm
  refine ⟨htiles 3 (by decide), ?_, hlookup _ _ _ _ _ validate_sampleRecords _ rfl⟩
  exact (hstored (List.replicate 384 0) _ (fun _ => by rw [List.length_replicate]; rfl) rfl).2

/-- A blob that is too short is only noticed before it is decoded. -/
theorem short_shard_outside :
    validateReadableManifest sampleManifest "p" "f" = .ok () ∧
    sampleBucket 5 ∈ sampleManifest.buckets ∧
    sampleManifest.shards[(sampleBucket 5).shard.toNat]? = some sampleShard ∧
    decodeShard (fun _ _ => .ok []) sampleManifest.schemaVersion sampleShard [] = .ok [] ∧
    bucketSlice fedoraCrates [] (sampleBucket 5) = fail "file-provides bucket is outside its shard" :=
  ⟨validate_sampleManifest, List.mem_map_of_mem (List.mem_range.mpr (by decide)), rfl, rfl, rfl⟩

end Dnfast.Planning.ShardIndex
