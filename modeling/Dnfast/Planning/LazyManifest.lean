import Dnfast.Planning.Digest
import Dnfast.Planning.LazyIndex

/-! # What an accepted index says

`validateLazyBinaryManifest` accepts an index when its tables are sorted and its ordinals are those of
the packages, each once. On such an index both searches find exactly what the tables hold, and no
slice of validation or lookup leaves its range. What `build` puts together is accepted, and its tables
are the ones it was built from. -/

namespace Dnfast.Planning.LazyIndex

open Core (isLowerDigest)
open Except (Safe)

theorem refuse_eq_ok {c : Prop} [Decidable c] {message : String} (h : ¬ c) :
    refuse c message = .ok () := Except.refuseIf_eq_ok.mpr h

/-! ## Digests -/

theorem length_hexDecode (cs : List Char) : (hexDecode cs).length = cs.length / 2 := by
  induction cs using hexDecode.induct with
  | case1 high low rest ih =>
    rw [hexDecode, List.length_cons, ih]
    simp only [List.length_cons]
    omega
  | case2 cs h =>
    rw [hexDecode]
    · match cs, h with
      | [], _ => simp
      | [_], _ => simp
      | a :: b :: rest, h => exact absurd rfl (h a b rest)
    · exact h

theorem hexValue_lt {c : Char} (h : c ∈ Core.lowerHexDigits) : hexValue c < 16 := by
  have hall : ∀ c ∈ Core.lowerHexDigits, hexValue c < 16 :=
    List.all_iff_forall_prop.mp (by decide)
  exact hall c h

theorem hexValue_inj {c d : Char} (hc : c ∈ Core.lowerHexDigits) (hd : d ∈ Core.lowerHexDigits)
    (h : hexValue c = hexValue d) : c = d := by
  have hall : Core.lowerHexDigits.all fun c => Core.lowerHexDigits.all fun d =>
      hexValue c = hexValue d → c = d := by decide
  simp only [List.all_eq_true, decide_eq_true_eq] at hall
  exact hall c hc d hd h

theorem hexDecode_inj {cs ds : List Char} (hcs : ∀ c ∈ cs, c ∈ Core.lowerHexDigits)
    (hds : ∀ d ∈ ds, d ∈ Core.lowerHexDigits) (hlength : cs.length = ds.length)
    (heven : cs.length % 2 = 0) (h : hexDecode cs = hexDecode ds) : cs = ds := by
  induction cs using hexDecode.induct generalizing ds with
  | case1 high low rest ih =>
    match ds, hlength with
    | high' :: low' :: rest', hlength =>
      simp only [List.mem_cons, forall_eq_or_imp] at hcs hds
      rw [hexDecode, hexDecode, List.cons.injEq] at h
      have h₁ := hexValue_lt hcs.1
      have h₂ := hexValue_lt hcs.2.1
      have h₃ := hexValue_lt hds.1
      have h₄ := hexValue_lt hds.2.1
      have hbyte := congrArg UInt8.toNat h.1
      rw [UInt8.toNat_ofNat', UInt8.toNat_ofNat'] at hbyte
      rw [hexValue_inj hcs.1 hds.1 (by omega), hexValue_inj hcs.2.1 hds.2.1 (by omega)]
      simp only [List.length_cons] at hlength heven
      rw [ih hcs.2.2 hds.2.2 (by omega) (by omega) h.2]
  | case2 cs hcases =>
    match cs, ds, hlength with
    | [], [], _ => rfl
    | [c], [d], _ => cases heven
    | a :: b :: rest, _, _ => exact absurd rfl (hcases a b rest)

theorem decodeSha256_eq_ok {value : String} {bytes : List UInt8} :
    decodeSha256 value = .ok bytes ↔ isLowerDigest value = true ∧ bytes = hexDecode value.toList := by
  unfold decodeSha256
  split
  · next h => exact ⟨fun hb => ⟨h, (Except.ok.inj hb).symm⟩, fun hb => congrArg _ hb.2.symm⟩
  · next h => exact iff_of_false nofun fun hb => h hb.1

theorem safe_decodeSha256 (value : String) : Safe (decodeSha256 value) := by
  unfold decodeSha256
  split
  · exact Except.safe_ok _
  · exact Except.safe_error _

/-! ## Tables -/

/-- An entry of the first table: a checksum with the ordinal of its package. -/
def packageRecord (entry : List UInt8) : List UInt8 × Nat :=
  (entry.take 32, Nat.ofBeBytes (entry.drop 32))

/-- An entry of the second table: the prefix of a digest with the ordinal of a package. -/
def fileRecord (entry : List UInt8) : List UInt8 × Nat :=
  (entry.take 16, Nat.ofBeBytes (entry.drop 16))

def LazyBinaryManifest.packages (m : LazyBinaryManifest) : List (List UInt8 × Nat) :=
  (m.packageEntries.chunksExact lazyBinaryEntrySize).map packageRecord

def LazyBinaryManifest.files (m : LazyBinaryManifest) : List (List UInt8 × Nat) :=
  (m.primaryFileEntries.chunksExact primaryFileEntrySize).map fileRecord

theorem slice_zero {n : Nat} {entry : List UInt8} (h : n ≤ entry.length) :
    (entry.slice 0 n : Run _) = .ok (entry.take n) := by
  rw [List.slice_eq_ok (Nat.zero_le n) h, List.drop_zero, Nat.sub_zero]

theorem readBe_tail {n : Nat} {entry : List UInt8} (h : entry.length = n + 4) :
    readBe 4 entry n entry.length = .ok (Nat.ofBeBytes (entry.drop n)) := by
  have hlength : (entry.drop n).length = 4 := by rw [List.length_drop, h, Nat.add_sub_cancel_left]
  rw [readBe, List.slice_eq_ok (by omega) le_rfl, Except.ok_bind, h, Nat.add_sub_cancel_left,
    List.take_of_length_le hlength.le, List.fixed_eq_ok hlength]
  rfl

theorem checkPackageEntry_eq {s : PackageScan} {entry : List UInt8} (h : entry.length = 36) :
    checkPackageEntry s entry = do
      refuse (∃ previous ∈ s.previous, previous ≥ (packageRecord entry).1)
        "lazy file-provides checksums are not strictly sorted"
      match s.seen[(packageRecord entry).2]? with
      | none => fail "lazy file-provides ordinal is out of range"
      | some true => fail "lazy file-provides ordinal is duplicate"
      | some false => return ⟨some (packageRecord entry).1, s.seen.set (packageRecord entry).2 true⟩ := by
  rw [checkPackageEntry, slice_zero (by omega), Except.ok_bind, readBe_tail (n := 32) (by omega)]
  rfl

theorem checkPackageEntry_eq_ok {s s' : PackageScan} {entry : List UInt8} (h : entry.length = 36) :
    checkPackageEntry s entry = .ok s' ↔ (∀ previous ∈ s.previous, previous < (packageRecord entry).1)
      ∧ s.seen[(packageRecord entry).2]? = some false ∧
      s' = ⟨some (packageRecord entry).1, s.seen.set (packageRecord entry).2 true⟩ := by
  rw [checkPackageEntry_eq h, Except.check_bind_eq_ok, refuse, Except.refuseIf_eq_ok]
  simp only [not_exists, not_and, ge_iff_le, not_le]
  refine and_congr_right fun _ => ?_
  split
  · next hseen => simp [fail, hseen]
  · next hseen => simp [fail, hseen]
  · next hseen => rw [Except.pure_eq_ok, eq_comm, and_iff_right hseen]

theorem safe_checkPackageEntry {s : PackageScan} {entry : List UInt8} (h : entry.length = 36) :
    Safe (checkPackageEntry s entry) := by
  rw [checkPackageEntry_eq h]
  refine Safe.bind (Except.safe_refuseIf _ _) fun _ _ => ?_
  split
  · exact Except.safe_error _
  · exact Except.safe_error _
  · exact Except.safe_ok _

theorem isChain_toList_append_cons {α : Type} {R : α → α → Prop} {o : Option α} {a : α}
    {l : List α} : (o.toList ++ a :: l).IsChain R ↔ (∀ p ∈ o, R p a) ∧ (a :: l).IsChain R := by
  cases o with
  | none => simp
  | some p => simp [List.isChain_cons_cons]

/-- The loop over the packages succeeds when the checksums ascend and the ordinals are new. -/
theorem foldlM_checkPackageEntry {cs : List (List UInt8)} (hcs : ∀ c ∈ cs, c.length = 36)
    {s : PackageScan} : (∃ s', cs.foldlM checkPackageEntry s = .ok s') ↔
      (s.previous.toList ++ cs.map fun c => (packageRecord c).1).IsChain (· < ·) ∧
      (cs.map fun c => (packageRecord c).2).Nodup ∧
      ∀ c ∈ cs, s.seen[(packageRecord c).2]? = some false := by
  induction cs generalizing s with
  | nil =>
    refine iff_of_true ⟨s, rfl⟩ ⟨?_, List.nodup_nil, nofun⟩
    cases s.previous <;> simp
  | cons c cs ih =>
    rw [List.forall_mem_cons] at hcs
    have hset (hc : s.seen[(packageRecord c).2]? = some false) (o : Nat) :
        (s.seen.set (packageRecord c).2 true)[o]? = some false ↔
          o ≠ (packageRecord c).2 ∧ s.seen[o]? = some false := by
      rw [List.getElem?_set]
      split
      · next h =>
        subst h
        split <;> simp
      · next h => exact ⟨fun ho => ⟨fun heq => h heq.symm, ho⟩, And.right⟩
    simp only [List.foldlM_cons, Except.bind_eq_ok, checkPackageEntry_eq_ok hcs.1]
    constructor
    · rintro ⟨s', _, ⟨hprevious, hseen, rfl⟩, hrest⟩
      obtain ⟨hchain, hnodup, hnew⟩ := (ih hcs.2).mp ⟨s', hrest⟩
      refine ⟨isChain_toList_append_cons.mpr ⟨hprevious, hchain⟩, ?_, ?_⟩
      · rw [List.map_cons, List.nodup_cons, List.mem_map]
        refine ⟨?_, hnodup⟩
        rintro ⟨d, hd, heq⟩
        exact ((hset hseen _).mp (hnew d hd)).1 heq
      · rw [List.forall_mem_cons]
        exact ⟨hseen, fun d hd => ((hset hseen _).mp (hnew d hd)).2⟩
    · rintro ⟨hchain, hnodup, hnew⟩
      rw [List.map_cons, isChain_toList_append_cons] at hchain
      rw [List.map_cons, List.nodup_cons, List.mem_map] at hnodup
      rw [List.forall_mem_cons] at hnew
      obtain ⟨s', hrest⟩ := (ih (s := ⟨some (packageRecord c).1,
        s.seen.set (packageRecord c).2 true⟩) hcs.2).mpr ⟨hchain.2, hnodup.2, fun d hd =>
          (hset hnew.1 _).mpr ⟨fun heq => hnodup.1 ⟨d, hd, heq⟩, hnew.2 d hd⟩⟩
      exact ⟨s', _, ⟨hchain.1, hnew.1, rfl⟩, hrest⟩

theorem checkPrimaryFileEntry_eq {count : Nat} {previous : Option (List UInt8)}
    {entry : List UInt8} (h : entry.length = 20) :
    checkPrimaryFileEntry count previous entry = do
      refuse ((fileRecord entry).2 ≥ count ∨ ∃ p ∈ previous, p ≥ entry)
        "primary file index records are invalid"
      return some entry := by
  rw [checkPrimaryFileEntry, readBe_tail (n := 16) (by omega)]
  rfl

theorem checkPrimaryFileEntry_eq_ok {count : Nat} {previous previous' : Option (List UInt8)}
    {entry : List UInt8} (h : entry.length = 20) :
    checkPrimaryFileEntry count previous entry = .ok previous' ↔
      (fileRecord entry).2 < count ∧ (∀ p ∈ previous, p < entry) ∧ previous' = some entry := by
  rw [checkPrimaryFileEntry_eq h, Except.check_bind_eq_ok, refuse, Except.refuseIf_eq_ok]
  simp only [not_or, not_exists, not_and, ge_iff_le, not_le, Except.pure_eq_ok,
    eq_comm (a := some entry), and_assoc]

theorem safe_checkPrimaryFileEntry {count : Nat} {previous : Option (List UInt8)}
    {entry : List UInt8} (h : entry.length = 20) :
    Safe (checkPrimaryFileEntry count previous entry) := by
  rw [checkPrimaryFileEntry_eq h]
  exact Safe.bind (Except.safe_refuseIf _ _) fun _ _ => Except.safe_ok _

theorem foldlM_checkPrimaryFileEntry {count : Nat} {cs : List (List UInt8)}
    (hcs : ∀ c ∈ cs, c.length = 20) {previous : Option (List UInt8)} :
    (∃ previous', cs.foldlM (checkPrimaryFileEntry count) previous = .ok previous') ↔
      (previous.toList ++ cs).IsChain (· < ·) ∧ ∀ c ∈ cs, (fileRecord c).2 < count := by
  induction cs generalizing previous with
  | nil =>
    refine iff_of_true ⟨previous, rfl⟩ ⟨?_, nofun⟩
    cases previous <;> simp
  | cons c cs ih =>
    rw [List.forall_mem_cons] at hcs
    simp only [List.foldlM_cons, Except.bind_eq_ok, checkPrimaryFileEntry_eq_ok hcs.1,
      List.forall_mem_cons, isChain_toList_append_cons]
    constructor
    · rintro ⟨previous', _, ⟨hlt, hprevious, rfl⟩, hrest⟩
      obtain ⟨hchain, hall⟩ := (ih hcs.2).mp ⟨previous', hrest⟩
      exact ⟨⟨hprevious, hchain⟩, hlt, hall⟩
    · rintro ⟨⟨hprevious, hchain⟩, hlt, hall⟩
      obtain ⟨previous', hrest⟩ := (@ih hcs.2 (some c)).mpr ⟨hchain, hall⟩
      exact ⟨previous', _, ⟨hlt, hprevious, rfl⟩, hrest⟩

/-! ## Accepted indices -/

/-- The two loops of validation. -/
def checkTables (m : LazyBinaryManifest) : Run LazyBinaryManifest := do
  let _ ← (m.packageEntries.chunksExact lazyBinaryEntrySize).foldlM checkPackageEntry
    ⟨none, List.replicate m.packageCount false⟩
  let _ ← (m.primaryFileEntries.chunksExact primaryFileEntrySize).foldlM
    (checkPrimaryFileEntry m.packageCount) none
  return m

/-- The tables are sorted and complete. -/
structure WellFormed (m : LazyBinaryManifest) : Prop where
  nonempty : 0 < m.packageCount
  length : m.packageEntries.length = m.packageCount * 36
  checksums : (m.packages.map Prod.fst).Pairwise (· < ·)
  ordinals : (m.packages.map Prod.snd).Perm (List.range m.packageCount)
  entries : (m.primaryFileEntries.chunksExact primaryFileEntrySize).Pairwise (· < ·)
  bounded : ∀ f ∈ m.files, f.2 < m.packageCount

theorem length_of_mem_chunks {n : Nat} {bytes c : List UInt8} (h : c ∈ bytes.chunksExact n) :
    c.length = n := List.length_of_mem_chunksExact h

theorem length_packages {m : LazyBinaryManifest}
    (hlength : m.packageEntries.length = m.packageCount * 36) :
    m.packages.length = m.packageCount := by
  rw [LazyBinaryManifest.packages, List.length_map, List.length_chunksExact, hlength]
  exact Nat.mul_div_cancel _ (by decide)

/-- Ordinals below the count, one for each package and none twice, are all ordinals. -/
theorem ordinals_perm {l : List Nat} {n : Nat} (hlength : l.length = n) :
    l.Perm (List.range n) ↔ l.Nodup ∧ ∀ o ∈ l, o < n := by
  constructor
  · intro h
    exact ⟨h.nodup_iff.mpr List.nodup_range, fun o ho => List.mem_range.mp (h.mem_iff.mp ho)⟩
  · rintro ⟨hnodup, hlt⟩
    have hsub : l.Subperm (List.range n) :=
      hnodup.subperm fun o ho => List.mem_range.mpr (hlt o ho)
    exact hsub.perm_of_length_le (by rw [List.length_range, hlength])

theorem checkTables_eq_ok {m m' : LazyBinaryManifest} (hpositive : 0 < m.packageCount)
    (hlength : m.packageEntries.length = m.packageCount * 36) :
    checkTables m = .ok m' ↔ WellFormed m ∧ m' = m := by
  have hpackages := @foldlM_checkPackageEntry (m.packageEntries.chunksExact lazyBinaryEntrySize)
    (fun c hc => length_of_mem_chunks hc) ⟨none, List.replicate m.packageCount false⟩
  have hfiles := @foldlM_checkPrimaryFileEntry m.packageCount
    (m.primaryFileEntries.chunksExact primaryFileEntrySize) (fun c hc => length_of_mem_chunks hc)
    none
  have hseen : ∀ o : Nat, (List.replicate m.packageCount false)[o]? = some false ↔
      o < m.packageCount := by
    intro o
    rw [List.getElem?_replicate]
    split
    · next h => simp [h]
    · next h => simp [h]
  simp only [hseen, Option.toList_none, List.nil_append, List.isChain_iff_pairwise] at hpackages hfiles
  have hwf : WellFormed m ↔
      (∃ s, (m.packageEntries.chunksExact lazyBinaryEntrySize).foldlM checkPackageEntry
        ⟨none, List.replicate m.packageCount false⟩ = .ok s) ∧
      ∃ s, (m.primaryFileEntries.chunksExact primaryFileEntrySize).foldlM
        (checkPrimaryFileEntry m.packageCount) none = .ok s := by
    rw [hpackages, hfiles]
    have hperm := ordinals_perm (l := m.packages.map Prod.snd) (n := m.packageCount)
      (by rw [List.length_map, length_packages hlength])
    simp only [LazyBinaryManifest.packages, List.map_map, List.forall_mem_map,
      Function.comp_apply] at hperm
    constructor
    · intro h
      have hordinals := h.ordinals
      have hchecksums := h.checksums
      have hbounded := h.bounded
      simp only [LazyBinaryManifest.packages, LazyBinaryManifest.files, List.map_map,
        List.forall_mem_map, Function.comp_def] at hordinals hchecksums hbounded
      have := hperm.mp hordinals
      exact ⟨⟨hchecksums, this.1, this.2⟩, h.entries, hbounded⟩
    · rintro ⟨⟨hchecksums, hnodup, hlt⟩, hentries, hbounded⟩
      refine ⟨hpositive, hlength, ?_, ?_, hentries, ?_⟩
      · rw [LazyBinaryManifest.packages, List.map_map]
        exact hchecksums
      · rw [LazyBinaryManifest.packages, List.map_map]
        exact hperm.mpr ⟨hnodup, hlt⟩
      · simpa only [LazyBinaryManifest.files, List.forall_mem_map] using hbounded
  rw [hwf, checkTables]
  simp only [Except.bind_eq_ok, Except.pure_eq_ok]
  constructor
  · rintro ⟨s, hs, s', hs', rfl⟩
    exact ⟨⟨⟨s, hs⟩, s', hs'⟩, rfl⟩
  · rintro ⟨⟨⟨s, hs⟩, s', hs'⟩, rfl⟩
    exact ⟨s, hs, s', hs', rfl⟩

theorem safe_checkTables (m : LazyBinaryManifest) : Safe (checkTables m) := by
  refine Safe.bind (Except.safe_foldlM ?_ _) fun _ _ => ?_
  · exact fun s c hc => safe_checkPackageEntry (length_of_mem_chunks hc)
  refine Safe.bind (Except.safe_foldlM ?_ _) fun _ _ => Except.safe_ok _
  exact fun s c hc => safe_checkPrimaryFileEntry (length_of_mem_chunks hc)

theorem length_lazyMagic {bytes magic : List UInt8} {hasPrimaryFiles : Bool}
    (h : lazyMagic bytes = .ok (magic, hasPrimaryFiles)) : magic.length = 18 := by
  have h₃ : lazyBinaryV3Magic.length = 18 := by decide
  have h₂ : lazyBinaryV2Magic.length = 18 := by decide
  unfold lazyMagic at h
  split at h
  · cases h
    exact h₃
  split at h
  · cases h
    exact h₂
  · cases h

theorem getRange_eq_ok {bytes x : List UInt8} {start stop : Nat} {message : String} :
    getRange bytes start stop message = .ok x ↔
      (start ≤ stop ∧ stop ≤ bytes.length) ∧ x = (bytes.drop start).take (stop - start) := by
  unfold getRange
  split
  · next h => exact ⟨fun hx => ⟨h, (Except.ok.inj hx).symm⟩, fun hx => congrArg _ hx.2.symm⟩
  · next h => exact iff_of_false nofun fun hx => h hx.1

theorem checked_eq_ok {n x : Nat} {message : String} :
    checked n message = .ok x ↔ n < 2 ^ 64 ∧ x = n := by
  unfold checked
  split
  · next h => exact ⟨fun hx => ⟨h, (Except.ok.inj hx).symm⟩, fun hx => congrArg _ hx.2.symm⟩
  · next h => exact iff_of_false nofun fun hx => h hx.1

theorem safe_readBe {width start stop : Nat} {bytes : List UInt8} (hle : start ≤ stop)
    (hstop : stop ≤ bytes.length) (hwidth : stop - start = width) :
    Safe (readBe width bytes start stop) := by
  rw [readBe, List.slice_eq_ok hle hstop, Except.ok_bind,
    List.fixed_eq_ok (by rw [List.length_drop_take hle hstop, hwidth])]
  exact Except.safe_ok _

/-- Validation keeps every slice in its range. -/
theorem safe_validateLazyBinaryManifest (bytes : List UInt8) (primary filelists : String) :
    Safe (validateLazyBinaryManifest bytes primary filelists) := by
  have hchecked (n : Nat) (message : String) : Safe (checked n message) := by
    unfold checked
    split
    · exact Except.safe_ok _
    · exact Except.safe_error _
  have hrange (start stop : Nat) (message : String) : Safe (getRange bytes start stop message) := by
    unfold getRange
    split
    · exact Except.safe_ok _
    · exact Except.safe_error _
  have hmagic : Safe (lazyMagic bytes) := by
    unfold lazyMagic
    split
    · exact Except.safe_ok _
    split
    · exact Except.safe_ok _
    · exact Except.safe_error _
  refine Safe.bind hmagic fun (magic, hasPrimaryFiles) hm => ?_
  have hlength := length_lazyMagic hm
  refine Safe.bind (hrange _ _ _) fun header hheader => ?_
  have hsize : header.length = headerSize magic hasPrimaryFiles := by
    obtain ⟨⟨hle, hstop⟩, rfl⟩ := getRange_eq_ok.mp hheader
    rw [List.length_drop_take hle hstop, Nat.sub_zero]
  have hshort : 86 ≤ header.length := by
    rw [hsize, headerSize]
    omega
  have hlong : hasPrimaryFiles = true → header.length = 94 := by
    rintro rfl
    rw [hsize, headerSize, hlength]
    rfl
  refine Safe.bind (Except.safe_slice (by omega) (by omega)) fun _ _ => ?_
  refine Safe.bind (safe_decodeSha256 _) fun _ _ => ?_
  refine Safe.bind (Except.safe_refuseIf _ _) fun _ _ => ?_
  refine Safe.bind (Except.safe_slice (by omega) (by omega)) fun _ _ => ?_
  refine Safe.bind (safe_decodeSha256 _) fun _ _ => ?_
  refine Safe.bind (Except.safe_refuseIf _ _) fun _ _ => ?_
  refine Safe.bind (safe_readBe (by omega) (by omega) (by omega)) fun count _ => ?_
  refine Safe.bind (hchecked _ _) fun _ _ => ?_
  refine Safe.bind (hchecked _ _) fun packageEnd _ => ?_
  refine Safe.bind (hrange _ _ _) fun packageEntries hentries => ?_
  have hend := (getRange_eq_ok.mp hentries).1.2
  refine Safe.bind ?_ fun _ _ => ?_
  · unfold readPrimaryFileCount
    split
    · next h =>
      have := hlong h
      exact safe_readBe (by omega) (by omega) (by omega)
    · exact Except.safe_ok _
  refine Safe.bind (hchecked _ _) fun _ _ => ?_
  refine Safe.bind (hchecked _ _) fun _ _ => ?_
  refine Safe.bind (Except.safe_refuseIf _ _) fun _ _ => ?_
  refine Safe.bind (Except.safe_slice hend le_rfl) fun primaryFileEntries _ => ?_
  exact safe_checkTables ⟨count, packageEntries, primaryFileEntries⟩

/-- What validation reads before the tables are gone through. -/
theorem validate_eq_ok {bytes : List UInt8} {primary filelists : String} {m : LazyBinaryManifest}
    (h : validateLazyBinaryManifest bytes primary filelists = .ok m) :
    WellFormed m ∧ bytes.length < 2 ^ 64 ∧ ∃ magic hasPrimaryFiles header,
      lazyMagic bytes = .ok (magic, hasPrimaryFiles) ∧
      getRange bytes 0 (headerSize magic hasPrimaryFiles) "lazy file-provides header is truncated" =
        .ok header ∧
      readBe 4 header (magic.length + 64) (magic.length + 64 + 4) = .ok m.packageCount := by
  rw [validateLazyBinaryManifest, Except.bind_eq_ok] at h
  obtain ⟨⟨magic, hasPrimaryFiles⟩, hmagic, h⟩ := h
  simp only [Except.bind_eq_ok, checked_eq_ok, refuse, Except.refuseIf_eq_ok] at h
  obtain ⟨header, hheader, _, -, _, -, _, -, _, -, _, -, _, -, count, hcount, _, ⟨-, rfl⟩, _,
    ⟨-, rfl⟩, packageEntries, hpackages, _, -, _, ⟨-, rfl⟩, _, ⟨hexpected, rfl⟩, _, hsize,
    primaryFileEntries, -, h⟩ := h
  obtain ⟨hrange, hentries⟩ := getRange_eq_ok.mp hpackages
  have hlength : packageEntries.length = count * 36 := by
    rw [hentries, List.length_drop_take hrange.1 hrange.2, Nat.add_sub_cancel_left]
    rfl
  have htables : checkTables ⟨count, packageEntries, primaryFileEntries⟩ = .ok m := by
    simp only [checkTables, Except.bind_eq_ok]
    exact h
  rw [not_or, not_not] at hsize
  have hpositive : 0 < count := Nat.pos_of_ne_zero hsize.1
  obtain ⟨hwf, rfl⟩ := (checkTables_eq_ok hpositive hlength).mp htables
  exact ⟨hwf, hsize.2 ▸ hexpected, magic, hasPrimaryFiles, header, hmagic, hheader, hcount⟩

/-! ## Looking up -/

variable {crates : Crates} {m : LazyBinaryManifest}

theorem getElem_packages {i : Nat} (h : i < m.packages.length) :
    m.packages[i] = packageRecord ((m.packageEntries.drop (i * 36)).take 36) := by
  simp only [LazyBinaryManifest.packages, List.getElem_map, List.getElem_chunksExact]
  rfl

theorem getElem_files {i : Nat} (h : i < m.files.length) :
    m.files[i] = fileRecord ((m.primaryFileEntries.drop (i * 20)).take 20) := by
  simp only [LazyBinaryManifest.files, List.getElem_map, List.getElem_chunksExact]
  rfl

theorem probeChecksum_eq (hlength : m.packageEntries.length = m.packageCount * 36)
    {checksum : List UInt8} {i : Nat} (h : i < m.packages.length) :
    probeChecksum m checksum i = .ok (if m.packages[i].1 < checksum then .less
      else if checksum < m.packages[i].1 then .greater else .found m.packages[i].2) := by
  have hi : i < m.packageEntries.length / 36 := by
    rw [length_packages hlength] at h
    rwa [hlength, Nat.mul_div_cancel _ (by decide)]
  have hentry := List.getElem_chunksExact (l := m.packageEntries) (n := 36) (i := i)
    (by rwa [List.length_chunksExact])
  have hmem : (m.packageEntries.drop (i * 36)).take 36 ∈ m.packageEntries.chunksExact 36 :=
    hentry ▸ List.getElem_mem _
  have hsize := length_of_mem_chunks hmem
  rw [probeChecksum, lazyBinaryEntrySize, List.slice_chunk hi, Except.ok_bind,
    slice_zero (by omega), Except.ok_bind, readBe_tail (n := 32) (by omega), getElem_packages h]
  rw [packageRecord]
  split_ifs <;> rfl

/-- The search for a checksum ends with what the table has for it. -/
theorem lazyBinaryOrdinal_spec (hm : WellFormed m) (packageId : String) :
    Safe (lazyBinaryOrdinal m packageId) ∧ ∀ n, lazyBinaryOrdinal m packageId = .ok n ↔
      ∃ checksum, decodeSha256 packageId = .ok checksum ∧ (checksum, n) ∈ m.packages := by
  have hcount := length_packages hm.length
  have hsearch (checksum : List UInt8) : ∃ r,
      searchExact (probeChecksum m checksum) m.packageCount 0 m.packageCount = .ok r ∧
        ∀ n, r = some n ↔ (checksum, n) ∈ m.packages := by
    refine searchExact_spec (List.pairwise_map.mp hm.checksums) ?_ (Nat.sub_le _ _) hcount.ge ?_
    · intro i h
      rw [probeChecksum_eq hm.length h]
      split_ifs <;> rfl
    · exact ⟨fun i _ hlow => absurd hlow (Nat.not_lt_zero i), fun i h hle => absurd h (by omega)⟩
  constructor
  · refine Safe.bind (safe_decodeSha256 packageId) fun checksum _ => ?_
    obtain ⟨r, hr, -⟩ := hsearch checksum
    rw [hr, Except.ok_bind]
    cases r with
    | none => exact Except.safe_error _
    | some n => exact Except.safe_ok n
  · intro n
    rw [lazyBinaryOrdinal, Except.bind_eq_ok]
    refine exists_congr fun checksum => and_congr_right fun _ => ?_
    obtain ⟨r, hr, hiff⟩ := hsearch checksum
    rw [hr, Except.ok_bind, ← hiff]
    cases r with
    | none => exact iff_of_false nofun nofun
    | some n' => rw [Except.pure_eq_ok, Option.some.injEq]

/-! ## Paths -/

theorem length_digestBytes (crates : Crates) (bytes : List UInt8) :
    (digestBytes crates bytes).length = 32 := by
  have h := (crates.sha256 bytes).canonical
  simp only [isLowerDigest, Bool.and_eq_true, beq_iff_eq] at h
  rw [digestBytes, length_hexDecode, h.1]

/-- The part of the digest of a path that the index keeps. -/
def pathPrefix (crates : Crates) (path : String) : List UInt8 :=
  (digestBytes crates path.asBytes).take 16

theorem primaryFileAt_eq {i : Nat} (h : i < m.files.length) :
    primaryFileAt m i = .ok ((m.primaryFileEntries.drop (i * 20)).take 20) ∧
      ((m.primaryFileEntries.drop (i * 20)).take 20).length = 20 := by
  have hi : i < m.primaryFileEntries.length / 20 := by
    rwa [LazyBinaryManifest.files, List.length_map, List.length_chunksExact] at h
  have hentry := List.getElem_chunksExact (l := m.primaryFileEntries) (n := 20) (i := i)
    (by rwa [List.length_chunksExact])
  have hmem : (m.primaryFileEntries.drop (i * 20)).take 20 ∈ m.primaryFileEntries.chunksExact 20 :=
    hentry ▸ List.getElem_mem _
  exact ⟨List.slice_chunk hi, length_of_mem_chunks hmem⟩

theorem belowTarget_eq {target : List UInt8} {i : Nat} (h : i < m.files.length) :
    belowTarget m target i = .ok (decide (m.files[i].1 < target)) := by
  obtain ⟨hentry, hlength⟩ := primaryFileAt_eq h
  rw [belowTarget, hentry, Except.ok_bind, slice_zero (by omega), getElem_files h]
  rfl

theorem readProvider_eq {target : List UInt8} {i : Nat} (h : i < m.files.length) :
    readProvider m target i =
      .ok (if decide (m.files[i].1 = target) then some m.files[i].2 else none) := by
  obtain ⟨hentry, hlength⟩ := primaryFileAt_eq h
  rw [readProvider, hentry, Except.ok_bind, slice_zero (by omega), Except.ok_bind,
    readBe_tail (n := 16) (by omega), getElem_files h]
  rw [fileRecord]
  simp only [decide_eq_true_eq]
  split_ifs <;> rfl

/-- The second table ascends by prefix, and by ordinal where prefixes are the same. -/
theorem pairwise_files (hm : WellFormed m) :
    m.files.Pairwise fun f g => f.1 < g.1 ∨ f.1 = g.1 ∧ f.2 < g.2 := by
  rw [LazyBinaryManifest.files, List.pairwise_map]
  refine hm.entries.imp_of_mem ?_
  intro c d hc hd hlt
  have hc' : c.length = 20 := length_of_mem_chunks hc
  have hd' : d.length = 20 := length_of_mem_chunks hd
  rcases (List.lt_iff_take_drop (n := 16) (by omega) (by omega)).mp hlt with h | ⟨heq, h⟩
  · exact Or.inl h
  · refine Or.inr ⟨heq, (Nat.ofBeBytes_lt_iff ?_).mpr h⟩
    rw [List.length_drop, List.length_drop, hc', hd']

/-- The search for a path ends with the ordinals of all its entries, in order. -/
theorem lazyBinaryPrimaryProviders_spec (hm : WellFormed m) (path : String) :
    lazyBinaryPrimaryProviders crates m path =
        .ok ((m.files.filter (·.1 = pathPrefix crates path)).map Prod.snd) ∧
      ((m.files.filter (·.1 = pathPrefix crates path)).map Prod.snd).Pairwise (· < ·) := by
  have hcount : m.primaryFileEntries.length / primaryFileEntrySize = m.files.length := by
    rw [LazyBinaryManifest.files, List.length_map, List.length_chunksExact]
  have hsorted := pairwise_files hm
  constructor
  · rw [lazyBinaryPrimaryProviders]
    simp only [slice_zero (show 16 ≤ (digestBytes crates path.asBytes).length by
      rw [length_digestBytes]; decide), Except.ok_bind, hcount]
    refine lowerBound_scanWhile_spec (p := fun f => decide (f.1 < pathPrefix crates path))
      (fun i h => belowTarget_eq h) (fun i h => readProvider_eq h) ?_ ?_ ?_
    · refine hsorted.imp ?_
      simp only [decide_eq_true_eq]
      rintro f g (hlt | ⟨heq, -⟩) hg
      · exact hlt.trans hg
      · exact heq ▸ hg
    · refine hsorted.imp ?_
      simp only [decide_eq_true_eq, decide_eq_false_iff_not, not_lt]
      rintro f g (hlt | ⟨heq, -⟩) hf hg
      · exact absurd (hg ▸ hlt) (not_lt.mpr hf)
      · exact heq.trans hg
    · intro f _ hf
      simp only [decide_eq_true_eq, decide_eq_false_iff_not, not_lt] at hf ⊢
      exact hf.ge
  · rw [List.pairwise_map]
    refine (hsorted.sublist List.filter_sublist).imp_of_mem ?_
    intro f g hf hg hfg
    have hsame : f.1 = g.1 := by
      have hf' := of_decide_eq_true (List.mem_filter.mp hf).2
      have hg' := of_decide_eq_true (List.mem_filter.mp hg).2
      exact hf'.trans hg'.symm
    rcases hfg with hlt | ⟨-, hlt⟩
    · exact absurd hlt (hsame ▸ lt_irrefl _)
    · exact hlt

/-! ## What is built -/

def layoutHeader (k : Option Nat) (primary filelists : List UInt8) (packageCount : Nat) :
    List UInt8 :=
  (if k.isSome then lazyBinaryV3Magic else lazyBinaryV2Magic) ++ primary ++ filelists ++
    packageCount.beBytes 4 ++ k.elim [] (·.beBytes 8)

/-- An index with the given tables; `k` is the size of the second one. -/
def layout (k : Option Nat) (primary filelists : List UInt8) (m : LazyBinaryManifest) : List UInt8 :=
  layoutHeader k primary filelists m.packageCount ++ m.packageEntries ++ m.primaryFileEntries

section
variable {k : Option Nat} {p f : List UInt8} {primary filelists : String}

theorem lazyMagic_layout : lazyMagic (layout k p f m) =
    .ok (if k.isSome then lazyBinaryV3Magic else lazyBinaryV2Magic, k.isSome) := by
  have hne : ∀ l, ¬ lazyBinaryV3Magic <+: lazyBinaryV2Magic ++ l := by
    intro l h
    have hdiffer : lazyBinaryV3Magic ≠ lazyBinaryV2Magic := by decide
    have hsame : lazyBinaryV3Magic.length = lazyBinaryV2Magic.length := by decide
    rw [List.prefix_iff_eq_take, hsame, List.take_left] at h
    exact hdiffer h
  unfold lazyMagic layout layoutHeader
  simp only [List.append_assoc]
  cases k with
  | none =>
    rw [if_neg (by simpa using hne _), if_pos (by simp)]
    rfl
  | some k =>
    rw [if_pos (by simp)]
    rfl

theorem length_magic (has : Bool) :
    (if has = true then lazyBinaryV3Magic else lazyBinaryV2Magic).length = 18 := by
  cases has <;> decide

theorem length_layoutHeader (hp : p.length = 32) (hf : f.length = 32) (n : Nat) :
    (layoutHeader k p f n).length =
      headerSize (if k.isSome then lazyBinaryV3Magic else lazyBinaryV2Magic) k.isSome := by
  simp only [layoutHeader, headerSize, List.length_append, length_magic, hp, hf, Nat.length_beBytes]
  cases k with
  | none => rfl
  | some k => simp

theorem getRange_layout (hp : p.length = 32) (hf : f.length = 32) {message : String} :
    getRange (layout k p f m) 0
        (headerSize (if k.isSome then lazyBinaryV3Magic else lazyBinaryV2Magic) k.isSome) message =
      .ok (layoutHeader k p f m.packageCount) := by
  rw [getRange_eq_ok, ← length_layoutHeader hp hf m.packageCount, layout, List.append_assoc]
  refine ⟨⟨Nat.zero_le _, by rw [List.length_append]; omega⟩, ?_⟩
  rw [List.drop_zero, Nat.sub_zero, List.take_left]

theorem readBe_count (hp : p.length = 32) (hf : f.length = 32) {n : Nat} (hn : n < 2 ^ 32) :
    readBe 4 (layoutHeader k p f n) (18 + 64) (18 + 64 + 4) = .ok n := by
  have hslice : ((layoutHeader k p f n).slice (18 + 64) (18 + 64 + 4) : Run _) =
      .ok (n.beBytes 4) := by
    rw [layoutHeader]
    apply List.slice_append
    · simp only [List.length_append, length_magic, hp, hf]
    · simp only [List.length_append, length_magic, hp, hf, Nat.length_beBytes]
  rw [readBe, hslice, Except.ok_bind, List.fixed_eq_ok (Nat.length_beBytes n 4), Except.ok_bind,
    Nat.ofBeBytes_beBytes, Nat.mod_eq_of_lt (show n < 256 ^ 4 from hn)]
  rfl

theorem readPrimaryFileCount_layout (hp : p.length = 32) (hf : f.length = 32) {n : Nat}
    (hk : k.getD 0 < 2 ^ 64) :
    readPrimaryFileCount k.isSome (layoutHeader k p f n) (18 + 64 + 4) = .ok (k.getD 0) := by
  cases k with
  | none => rfl
  | some k =>
    have hslice : ((layoutHeader (some k) p f n).slice (18 + 64 + 4) (18 + 64 + 4 + 8) : Run _) =
        .ok (k.beBytes 8) := by
      rw [layoutHeader, ← List.append_nil (Option.elim _ _ _), ← List.append_assoc]
      apply List.slice_append
      · simp only [List.length_append, length_magic, hp, hf, Nat.length_beBytes]
      · simp only [List.length_append, length_magic, hp, hf, Nat.length_beBytes, Option.elim]
    rw [readPrimaryFileCount, Option.isSome_some, if_pos rfl, readBe, hslice, Except.ok_bind,
      List.fixed_eq_ok (Nat.length_beBytes k 8), Except.ok_bind, Nat.ofBeBytes_beBytes,
      Nat.mod_eq_of_lt (show k < 256 ^ 8 from hk)]
    rfl

theorem validate_layout (hp : decodeSha256 primary = .ok p) (hf : decodeSha256 filelists = .ok f)
    (hp' : p.length = 32) (hf' : f.length = 32) (hpositive : 0 < m.packageCount)
    (hcount : m.packageCount < 2 ^ 32) (hpackages : m.packageEntries.length = m.packageCount * 36)
    (hfiles : m.primaryFileEntries.length = k.getD 0 * 20)
    (hlength : (layout k p f m).length < 2 ^ 64) :
    validateLazyBinaryManifest (layout k p f m) primary filelists = checkTables m := by
  have htotal : (layout k p f m).length = (layoutHeader k p f m.packageCount).length +
      m.packageCount * 36 + k.getD 0 * 20 := by
    rw [layout, List.length_append, List.length_append, hpackages, hfiles]
  have hsize := length_layoutHeader (k := k) hp' hf' m.packageCount
  have hprimary : ((layoutHeader k p f m.packageCount).slice 18 (18 + 32) : Run _) = .ok p := by
    rw [layoutHeader, List.append_assoc, List.append_assoc]
    apply List.slice_append
    · rw [length_magic]
    · rw [length_magic, hp']
  have hfilelists : ((layoutHeader k p f m.packageCount).slice (18 + 32) (18 + 64) : Run _) =
      .ok f := by
    rw [layoutHeader, List.append_assoc]
    apply List.slice_append
    · rw [List.length_append, length_magic, hp']
    · rw [List.length_append, length_magic, hp', hf']
  have hentries : getRange (layout k p f m)
      (headerSize (if k.isSome then lazyBinaryV3Magic else lazyBinaryV2Magic) k.isSome)
      (headerSize (if k.isSome then lazyBinaryV3Magic else lazyBinaryV2Magic) k.isSome +
        m.packageCount * lazyBinaryEntrySize) "lazy file-provides package entries are truncated" =
      .ok m.packageEntries := by
    rw [getRange_eq_ok, ← hsize, Nat.add_sub_cancel_left, layout, List.append_assoc, List.drop_left,
      lazyBinaryEntrySize, ← hpackages, List.take_left]
    refine ⟨⟨Nat.le_add_right _ _, ?_⟩, rfl⟩
    simp only [List.length_append]
    omega
  have hrest : ((layout k p f m).slice
      (headerSize (if k.isSome then lazyBinaryV3Magic else lazyBinaryV2Magic) k.isSome +
        m.packageCount * lazyBinaryEntrySize) (layout k p f m).length : Run _) =
      .ok m.primaryFileEntries := by
    rw [← hsize, lazyBinaryEntrySize, ← hpackages, ← List.length_append]
    conv_lhs => rw [layout, ← List.append_nil (_ ++ m.primaryFileEntries)]
    apply List.slice_append
    · rfl
    · simp [Nat.add_assoc]
  have hchecked {n : Nat} {message : String} (h : n < 2 ^ 64) : checked n message = .ok n := if_pos h
  rw [validateLazyBinaryManifest, lazyMagic_layout, Except.ok_bind]
  simp only [length_magic, getRange_layout hp' hf', Except.ok_bind, hprimary, hp, hfilelists, hf,
    readBe_count hp' hf' hcount, refuse_eq_ok (not_not.mpr rfl)]
  rw [hchecked (by rw [lazyBinaryEntrySize]; omega), Except.ok_bind,
    hchecked (by rw [lazyBinaryEntrySize, ← hsize]; omega), Except.ok_bind, hentries,
    Except.ok_bind, readPrimaryFileCount_layout hp' hf' (by omega), Except.ok_bind,
    hchecked (by rw [primaryFileEntrySize]; omega), Except.ok_bind,
    hchecked (by rw [lazyBinaryEntrySize, primaryFileEntrySize, ← hsize, ← htotal]; exact hlength),
    Except.ok_bind, refuse_eq_ok, Except.ok_bind, hrest, Except.ok_bind]
  · rfl
  · rw [not_or, not_not, htotal, hsize, lazyBinaryEntrySize, primaryFileEntrySize]
    exact ⟨hpositive.ne', rfl⟩

end

/-! ## The tables of a source -/

/-- Checksums with the ordinals of their packages, as primary lists them. -/
def IndexSource.association (g : IndexSource) : List (List UInt8 × Nat) :=
  g.identities.zipIdx.map fun p => (hexDecode p.1.checksum.toList, p.2)

/-- The records of the projection of primary. -/
def IndexSource.records (g : IndexSource) : List (List UInt8) :=
  g.primaryFiles.elim [] (·.chunksExact cachePrimaryFileEntrySize)

/-- A record without the second half of its digest. -/
def truncateRecord (record : List UInt8) : List UInt8 := record.take 16 ++ record.drop 32

/-- The tables that `build` puts together. -/
def IndexSource.tables (g : IndexSource) : LazyBinaryManifest where
  packageCount := g.identities.length
  packageEntries := (g.association.insertionSort (·.1 ≤ ·.1)).flatMap fun e => e.1 ++ e.2.beBytes 4
  primaryFileEntries := g.records.flatMap truncateRecord

/-- Distinct records of the projection have distinct truncated digests. -/
def Uncollided (records : List (List UInt8)) : Prop :=
  records.IsChain fun c d => c.take 16 = d.take 16 → c.take 32 = d.take 32

instance (records : List (List UInt8)) : Decidable (Uncollided records) := by
  unfold Uncollided
  infer_instance

theorem addPrimaryFile_eq_ok {s s' : FileScan} {record : List UInt8} (h : record.length = 36) :
    addPrimaryFile s record = .ok s' ↔
      (∀ previous ∈ s.previous, previous.take 16 = record.take 16 → previous = record.take 32) ∧
        s' = ⟨some (record.take 32), s.bytes ++ truncateRecord record⟩ := by
  have hdigest : (record.take 32).length = 32 := by
    rw [List.length_take]
    omega
  have htail : (record.slice 32 record.length : Run _) = .ok (record.drop 32) := by
    rw [List.slice_eq_ok (by omega) le_rfl, List.take_of_length_le (by rw [List.length_drop])]
  rw [addPrimaryFile, slice_zero (by omega), Except.ok_bind, slice_zero (by omega), Except.ok_bind,
    List.take_take, htail, Except.check_bind_eq_ok, refuse, Except.refuseIf_eq_ok, Except.ok_bind,
    Except.pure_eq_ok, truncateRecord, List.append_assoc, eq_comm (b := s')]
  refine and_congr ?_ Iff.rfl
  cases s.previous with
  | none => simp
  | some previous => simp

theorem foldlM_addPrimaryFile {cs : List (List UInt8)} (hcs : ∀ c ∈ cs, c.length = 36)
    {s s' : FileScan} : cs.foldlM addPrimaryFile s = .ok s' →
      s'.bytes = s.bytes ++ cs.flatMap truncateRecord := by
  induction cs generalizing s with
  | nil =>
    intro h
    cases h
    simp
  | cons c cs ih =>
    rw [List.forall_mem_cons] at hcs
    rw [List.foldlM_cons, Except.bind_eq_ok]
    rintro ⟨s₁, hfirst, hrest⟩
    obtain ⟨-, rfl⟩ := (addPrimaryFile_eq_ok hcs.1).mp hfirst
    rw [ih hcs.2 hrest, List.flatMap_cons, List.append_assoc]

theorem exists_foldlM_addPrimaryFile {cs : List (List UInt8)} (hcs : ∀ c ∈ cs, c.length = 36)
    {s : FileScan} (hprevious : ∀ previous ∈ s.previous, ∀ c ∈ cs.head?,
      previous.take 16 = c.take 16 → previous = c.take 32) (h : Uncollided cs) :
    ∃ s', cs.foldlM addPrimaryFile s = .ok s' := by
  induction cs generalizing s with
  | nil => exact ⟨s, rfl⟩
  | cons c cs ih =>
    rw [List.forall_mem_cons] at hcs
    obtain ⟨s', hs'⟩ := ih (s := ⟨some (c.take 32), s.bytes ++ truncateRecord c⟩) hcs.2
      (by
        intro previous hp d hd heq
        cases hp
        cases cs with
        | nil => cases hd
        | cons e cs =>
          cases hd
          rw [List.take_take] at heq
          exact (List.isChain_cons_cons.mp h).1 heq)
      h.tail
    refine ⟨s', ?_⟩
    rw [List.foldlM_cons, (addPrimaryFile_eq_ok hcs.1).mpr
      ⟨fun previous hp => hprevious previous hp c rfl, rfl⟩, Except.ok_bind, hs']

theorem primaryFileBytes_eq_ok {g : IndexSource} {files : List UInt8}
    (h : primaryFileBytes g.primaryFiles = .ok files) : files = g.records.flatMap truncateRecord := by
  rw [IndexSource.records]
  cases hfiles : g.primaryFiles with
  | none =>
    rw [hfiles] at h
    cases h
    rfl
  | some bytes =>
    rw [hfiles, primaryFileBytes, Except.check_bind_eq_ok, Except.bind_eq_ok] at h
    obtain ⟨-, s, hs, h⟩ := h
    rw [Except.pure_eq_ok] at h
    rw [← h, foldlM_addPrimaryFile (fun c hc => length_of_mem_chunks hc) hs]
    rfl

theorem packageEntry_eq_ok {q : PrimaryPackageIdentity × Nat} {e : List UInt8 × Nat} :
    packageEntry q = .ok e ↔ isLowerDigest q.1.checksum = true ∧ q.2 < 2 ^ 32 ∧
      e = (hexDecode q.1.checksum.toList, q.2) := by
  have hordinal {o : Nat} : toU32 q.2 = .ok o ↔ q.2 < 2 ^ 32 ∧ o = q.2 := by
    unfold toU32
    split
    · next h => exact ⟨fun ho => ⟨h, (Except.ok.inj ho).symm⟩, fun ho => congrArg _ ho.2.symm⟩
    · next h => exact iff_of_false nofun fun ho => h ho.1
  simp only [packageEntry, Except.bind_eq_ok, decodeSha256_eq_ok, hordinal, Except.pure_eq_ok]
  constructor
  · rintro ⟨_, ⟨hdigest, rfl⟩, _, ⟨hlt, rfl⟩, rfl⟩
    exact ⟨hdigest, hlt, rfl⟩
  · rintro ⟨hdigest, hlt, rfl⟩
    exact ⟨_, ⟨hdigest, rfl⟩, _, ⟨hlt, rfl⟩, rfl⟩

theorem assemble_eq_ok {g : IndexSource} {bytes : List UInt8} (h : assemble g = .ok bytes) :
    g.identities.length < 2 ^ 32 ∧ (∀ i ∈ g.identities, isLowerDigest i.checksum = true) ∧
      ∃ p f, decodeSha256 g.primarySha256 = .ok p ∧ decodeSha256 g.filelistsSha256 = .ok f ∧
        bytes = layout (g.primaryFiles.map (·.length / 36)) p f g.tables := by
  simp only [assemble, Except.bind_eq_ok, Except.pure_eq_ok] at h
  obtain ⟨count, hcount, entries, hentries, _, -, p, hp, f, hf, files, hfiles, rfl⟩ := h
  obtain ⟨hlt, rfl⟩ : g.identities.length < 2 ^ 32 ∧ count = g.identities.length := by
    unfold toU32 at hcount
    split at hcount
    · next hlt => exact ⟨hlt, (Except.ok.inj hcount).symm⟩
    · cases hcount
  obtain rfl : entries = g.association :=
    Except.mapM_eq_map hentries fun q _ e he => (packageEntry_eq_ok.mp he).2.2
  refine ⟨hlt, ?_, p, f, hp, hf, ?_⟩
  · intro i hi
    obtain ⟨j, hj, rfl⟩ := List.getElem_of_mem hi
    have hmem : (g.identities[j], j) ∈ g.identities.zipIdx := by
      rw [List.mem_zipIdx_iff_getElem?, List.getElem?_eq_getElem hj]
    obtain ⟨e, -, he⟩ := (Except.mapM_eq_ok.mp hentries).exists_right hmem
    exact (packageEntry_eq_ok.mp he).1
  · rw [primaryFileBytes_eq_ok hfiles, layout, layoutHeader]
    cases g.primaryFiles with
    | none => rfl
    | some files => rfl

section
variable {g : IndexSource}

theorem length_hexDecode_of_isLowerDigest {value : String} (h : isLowerDigest value = true) :
    (hexDecode value.toList).length = 32 := by
  simp only [isLowerDigest, Bool.and_eq_true, beq_iff_eq] at h
  rw [length_hexDecode, h.1]

theorem length_of_decodeSha256 {value : String} {bytes : List UInt8}
    (h : decodeSha256 value = .ok bytes) : bytes.length = 32 := by
  obtain ⟨hdigest, rfl⟩ := decodeSha256_eq_ok.mp h
  exact length_hexDecode_of_isLowerDigest hdigest

/-- The entries of the association fit their fields. -/
theorem fits_of_mem_association (hlt : g.identities.length < 2 ^ 32)
    (hdigest : ∀ i ∈ g.identities, isLowerDigest i.checksum = true) {e : List UInt8 × Nat}
    (he : e ∈ g.association) : e.1.length = 32 ∧ e.2 < 2 ^ 32 := by
  obtain ⟨⟨i, o⟩, hmem, rfl⟩ := List.mem_map.mp he
  rw [List.mem_zipIdx_iff_getElem?] at hmem
  obtain ⟨ho, -⟩ := List.getElem?_eq_some_iff.mp hmem
  exact ⟨length_hexDecode_of_isLowerDigest (hdigest i (List.mem_of_getElem? hmem)),
    Nat.lt_trans ho hlt⟩

theorem length_records {c : List UInt8} (h : c ∈ g.records) : c.length = 36 := by
  rw [IndexSource.records] at h
  cases hfiles : g.primaryFiles with
  | none =>
    rw [hfiles] at h
    cases h
  | some bytes =>
    rw [hfiles] at h
    exact length_of_mem_chunks h

theorem length_truncateRecord {c : List UInt8} (h : c.length = 36) :
    (truncateRecord c).length = 20 := by
  rw [truncateRecord, List.length_append, List.length_take, List.length_drop]
  omega

theorem fileRecord_truncateRecord {c : List UInt8} (h : c.length = 36) :
    fileRecord (truncateRecord c) = (c.take 16, Nat.ofBeBytes (c.drop 32)) := by
  have htake : (c.take 16).length = 16 := by
    rw [List.length_take]
    omega
  rw [fileRecord, truncateRecord, List.take_left' htake, List.drop_left' htake]

theorem length_of_mem_map_truncateRecord :
    ∀ c ∈ g.records.map truncateRecord, c.length = 20 := by
  rw [List.forall_mem_map]
  exact fun c hc => length_truncateRecord (length_records hc)

theorem tables_files :
    g.tables.files = g.records.map fun c => (c.take 16, Nat.ofBeBytes (c.drop 32)) := by
  have hentries : g.tables.primaryFileEntries = (g.records.map truncateRecord).flatten := rfl
  rw [LazyBinaryManifest.files, hentries, primaryFileEntrySize,
    List.chunksExact_flatten (by decide) length_of_mem_map_truncateRecord, List.map_map]
  exact List.map_congr_left fun c hc => fileRecord_truncateRecord (length_records hc)

theorem length_tables_primaryFileEntries :
    g.tables.primaryFileEntries.length = (g.primaryFiles.map (·.length / 36)).getD 0 * 20 := by
  have hentries : g.tables.primaryFileEntries = (g.records.map truncateRecord).flatten := rfl
  rw [hentries, List.length_flatten_of_length_eq length_of_mem_map_truncateRecord, List.length_map,
    IndexSource.records]
  cases g.primaryFiles with
  | none => rfl
  | some bytes =>
    rw [Option.elim, List.length_chunksExact]
    rfl

theorem packageRecord_append {e : List UInt8 × Nat} (h : e.1.length = 32) (hlt : e.2 < 2 ^ 32) :
    packageRecord (e.1 ++ e.2.beBytes 4) = e := by
  rw [packageRecord, List.take_left' h, List.drop_left' h, Nat.ofBeBytes_beBytes,
    Nat.mod_eq_of_lt (show e.2 < 256 ^ 4 from hlt)]

theorem tables_packages (hlt : g.identities.length < 2 ^ 32)
    (hdigest : ∀ i ∈ g.identities, isLowerDigest i.checksum = true) :
    g.tables.packages = g.association.insertionSort (·.1 ≤ ·.1) ∧
      g.tables.packageEntries.length = g.tables.packageCount * 36 := by
  have hfits : ∀ e ∈ g.association.insertionSort (·.1 ≤ ·.1), e.1.length = 32 ∧ e.2 < 2 ^ 32 :=
    fun e he => fits_of_mem_association hlt hdigest ((List.perm_insertionSort _ _).mem_iff.mp he)
  have hpieces : ∀ c ∈ (g.association.insertionSort (·.1 ≤ ·.1)).map
      (fun e => e.1 ++ e.2.beBytes 4), c.length = 36 := by
    rw [List.forall_mem_map]
    intro e he
    rw [List.length_append, (hfits e he).1, Nat.length_beBytes]
  have hentries : g.tables.packageEntries = ((g.association.insertionSort (·.1 ≤ ·.1)).map
      fun e => e.1 ++ e.2.beBytes 4).flatten := rfl
  constructor
  · rw [LazyBinaryManifest.packages, hentries, lazyBinaryEntrySize,
      List.chunksExact_flatten (by decide) hpieces, List.map_map]
    conv_rhs => rw [← List.map_id (g.association.insertionSort (·.1 ≤ ·.1))]
    exact List.map_congr_left fun e he => packageRecord_append (hfits e he).1 (hfits e he).2
  · rw [hentries, List.length_flatten_of_length_eq hpieces, List.length_map,
      List.length_insertionSort, IndexSource.association, List.length_map, List.length_zipIdx]
    rfl

/-- What is built is accepted with the tables it was built from. -/
theorem build_eq_ok {bytes : List UInt8} {d : PlanningBytes} (h : build crates g = .ok (bytes, d)) :
    validateLazyBinaryManifest bytes g.primarySha256 g.filelistsSha256 = .ok g.tables ∧
      g.tables.packages.Perm g.association := by
  simp only [build, Except.bind_eq_ok, Except.pure_eq_ok, Prod.mk.injEq] at h
  obtain ⟨_, hassemble, m, hvalid, rfl, -⟩ := h
  obtain ⟨hlt, hdigest, p, f, hp, hf, rfl⟩ := assemble_eq_ok hassemble
  obtain ⟨hpackages, hentries⟩ := tables_packages hlt hdigest
  obtain ⟨hwf, hlength, magic, has, header, hmagic, hheader, hcount⟩ := validate_eq_ok hvalid
  have hp' := length_of_decodeSha256 hp
  have hf' := length_of_decodeSha256 hf
  -- the count that was read is the count that was written
  rw [lazyMagic_layout] at hmagic
  obtain ⟨rfl, rfl⟩ := Prod.mk.injEq .. ▸ Except.ok.inj hmagic
  rw [getRange_layout hp' hf'] at hheader
  cases hheader
  rw [length_magic, readBe_count hp' hf' (show g.tables.packageCount < 2 ^ 32 from hlt)] at hcount
  have hpositive : 0 < g.tables.packageCount := by
    rw [Except.ok.inj hcount]
    exact hwf.nonempty
  rw [validate_layout hp hf hp' hf' hpositive hlt hentries length_tables_primaryFileEntries hlength]
    at hvalid ⊢
  obtain ⟨-, rfl⟩ := (checkTables_eq_ok hpositive hentries).mp hvalid
  refine ⟨hvalid, ?_⟩
  rw [hpackages]
  exact List.perm_insertionSort _ _

/-- A source that an index can be built from: packages with distinct checksums, and a sorted
projection of primary that names packages only and keeps its digests apart when they are truncated. -/
structure Buildable (g : IndexSource) : Prop where
  nonempty : g.identities ≠ []
  count : g.identities.length < 2 ^ 32
  digests : ∀ i ∈ g.identities, isLowerDigest i.checksum = true
  distinct : (g.identities.map (·.checksum)).Nodup
  primary : isLowerDigest g.primarySha256 = true
  filelists : isLowerDigest g.filelistsSha256 = true
  whole : ∀ files ∈ g.primaryFiles, files.length % 36 = 0
  sorted : g.records.Pairwise (· < ·)
  bounded : ∀ c ∈ g.records, Nat.ofBeBytes (c.drop 32) < g.identities.length
  uncollided : ∀ c ∈ g.records, ∀ d ∈ g.records, c.take 16 = d.take 16 → c.take 32 = d.take 32
  size : 94 + g.identities.length * 36 + g.records.length * 20 < 2 ^ 64

theorem pairwise_association (hg : Buildable g) :
    g.association.Pairwise fun e e' => e.1 ≠ e'.1 := by
  rw [IndexSource.association, List.pairwise_map]
  have hdistinct : g.identities.zipIdx.Pairwise fun q q' => q.1.checksum ≠ q'.1.checksum := by
    have h := hg.distinct
    rw [← List.zipIdx_map_fst 0 g.identities, List.map_map, List.Nodup, List.pairwise_map] at h
    exact h
  refine hdistinct.imp_of_mem ?_
  intro q q' hq hq' hne heq
  apply hne
  have hdigits {i : PrimaryPackageIdentity × Nat} (hi : i ∈ g.identities.zipIdx) :
      i.1.checksum.toList.length = 64 ∧ ∀ c ∈ i.1.checksum.toList, c ∈ Core.lowerHexDigits := by
    have h := hg.digests i.1 (List.fst_mem_of_mem_zipIdx hi)
    simpa [isLowerDigest] using h
  have h := hdigits hq
  have h' := hdigits hq'
  exact String.toList_inj.mp (hexDecode_inj h.2 h'.2 (h.1.trans h'.1.symm) (by rw [h.1]) heq)

theorem association_ordinals : g.association.map Prod.snd = List.range g.identities.length := by
  rw [IndexSource.association, List.map_map]
  exact List.zipIdx_map_snd 0 g.identities ▸ List.range_eq_range' ▸ rfl

theorem truncateRecord_lt {c d : List UInt8} (hc : c.length = 36) (hd : d.length = 36)
    (hcollide : c.take 16 = d.take 16 → c.take 32 = d.take 32) (h : c < d) :
    truncateRecord c < truncateRecord d := by
  have htake {e : List UInt8} (he : e.length = 36) : (e.take 16).length = 16 := by
    rw [List.length_take]
    omega
  rw [List.lt_iff_take_drop (n := 16) (by rw [length_truncateRecord hc]; decide)
    (by rw [length_truncateRecord hd]; decide)]
  simp only [truncateRecord, List.take_left' (htake hc), List.take_left' (htake hd),
    List.drop_left' (htake hc), List.drop_left' (htake hd)]
  by_cases heq : c.take 16 = d.take 16
  · refine Or.inr ⟨heq, ?_⟩
    rcases (List.lt_iff_take_drop (n := 32) (by omega) (by omega)).mp h with hlt | ⟨-, hlt⟩
    · exact absurd (hcollide heq ▸ hlt) (lt_irrefl _)
    · exact hlt
  · rcases (List.lt_iff_take_drop (n := 16) (by omega) (by omega)).mp h with hlt | ⟨h', -⟩
    · exact Or.inl hlt
    · exact absurd h' heq

instance total_checksum : Std.Total fun a b : List UInt8 × Nat => a.1 ≤ b.1 :=
  ⟨fun a b => le_total a.1 b.1⟩

instance isTrans_checksum : IsTrans (List UInt8 × Nat) fun a b => a.1 ≤ b.1 :=
  ⟨fun _ _ _ => le_trans⟩

theorem wellFormed_tables (hg : Buildable g) : WellFormed g.tables := by
  obtain ⟨hpackages, hlength⟩ := tables_packages hg.count hg.digests
  have hperm := List.perm_insertionSort (·.1 ≤ ·.1 : List UInt8 × Nat → _ → Prop) g.association
  refine ⟨List.length_pos_of_ne_nil hg.nonempty, hlength, ?_, ?_, ?_, ?_⟩
  · rw [hpackages, List.pairwise_map]
    have hle := List.pairwise_insertionSort (fun a b : List UInt8 × Nat => a.1 ≤ b.1) g.association
    have hne := (hperm.pairwise_iff fun h => h.symm).mpr (pairwise_association hg)
    exact (hle.and hne).imp fun h => lt_of_le_of_ne h.1 h.2
  · rw [hpackages]
    refine (hperm.map Prod.snd).trans ?_
    rw [association_ordinals]
    rfl
  · have hentries : g.tables.primaryFileEntries = (g.records.map truncateRecord).flatten := rfl
    rw [hentries, primaryFileEntrySize,
      List.chunksExact_flatten (by decide) length_of_mem_map_truncateRecord, List.pairwise_map]
    refine hg.sorted.imp_of_mem ?_
    intro c d hc hd hlt
    exact truncateRecord_lt (length_records hc) (length_records hd) (hg.uncollided c hc d hd) hlt
  · rw [tables_files, List.forall_mem_map]
    exact hg.bounded

theorem exists_primaryFileBytes (hg : Buildable g) :
    primaryFileBytes g.primaryFiles = .ok (g.records.flatMap truncateRecord) := by
  cases hfiles : g.primaryFiles with
  | none =>
    rw [IndexSource.records, hfiles]
    rfl
  | some files =>
    have hrecords : g.records = files.chunksExact cachePrimaryFileEntrySize := by
      rw [IndexSource.records, hfiles]
      rfl
    have huncollided : Uncollided g.records := by
      apply List.Pairwise.isChain
      refine hg.sorted.imp_of_mem ?_
      exact fun hc hd _ => hg.uncollided _ hc _ hd
    obtain ⟨s, hs⟩ := exists_foldlM_addPrimaryFile (s := ⟨none, []⟩)
      (fun c hc => length_records hc) nofun huncollided
    have hwhole : files.length % cachePrimaryFileEntrySize = 0 := hg.whole files hfiles
    have hbytes := foldlM_addPrimaryFile (fun c hc => length_records hc) hs
    rw [primaryFileBytes, refuse_eq_ok (not_not.mpr hwhole), Except.ok_bind, ← hrecords, hs,
      Except.ok_bind, hbytes]
    rfl

theorem exists_assemble (hg : Buildable g) : ∃ bytes, assemble g = .ok bytes := by
  have hentries : g.identities.zipIdx.mapM packageEntry = .ok g.association := by
    obtain ⟨entries, hentries⟩ := Except.exists_mapM_eq_ok (f := packageEntry)
      (l := g.identities.zipIdx) fun q hq => ⟨_, packageEntry_eq_ok.mpr
        ⟨hg.digests q.1 (List.fst_mem_of_mem_zipIdx hq),
          Nat.lt_trans (List.snd_lt_of_mem_zipIdx hq) (by simpa using hg.count), rfl⟩⟩
    have hvalue : entries = g.association :=
      Except.mapM_eq_map hentries fun q _ e he => (packageEntry_eq_ok.mp he).2.2
    rw [hentries, hvalue]
  have hchain : (g.association.insertionSort (·.1 ≤ ·.1)).IsChain (·.1 ≠ ·.1) := by
    apply List.Pairwise.isChain
    rw [← (tables_packages hg.count hg.digests).1]
    exact (List.pairwise_map.mp (wellFormed_tables hg).checksums).imp fun h => h.ne
  rw [assemble, toU32, if_pos hg.count, Except.ok_bind, hentries, Except.ok_bind]
  simp only []
  rw [refuse_eq_ok (not_not.mpr hchain), Except.ok_bind,
    decodeSha256_eq_ok.mpr ⟨hg.primary, rfl⟩, Except.ok_bind,
    decodeSha256_eq_ok.mpr ⟨hg.filelists, rfl⟩, Except.ok_bind, exists_primaryFileBytes hg]
  exact ⟨_, rfl⟩

/-- An index can be built from every such source. -/
theorem exists_build (hg : Buildable g) : ∃ r, build crates g = .ok r := by
  obtain ⟨bytes, hbytes⟩ := exists_assemble hg
  obtain ⟨-, -, p, f, hp, hf, rfl⟩ := assemble_eq_ok hbytes
  have hwf := wellFormed_tables hg
  have hlength : (layout (g.primaryFiles.map (·.length / 36)) p f g.tables).length < 2 ^ 64 := by
    have hheader : (layoutHeader (g.primaryFiles.map (·.length / 36)) p f
        g.tables.packageCount).length ≤ 94 := by
      rw [length_layoutHeader (length_of_decodeSha256 hp) (length_of_decodeSha256 hf), headerSize,
        length_magic]
      split <;> decide
    have hrecords : g.records.length = (g.primaryFiles.map (·.length / 36)).getD 0 := by
      rw [IndexSource.records]
      cases g.primaryFiles with
      | none => rfl
      | some files => exact List.length_chunksExact _ files
    have hcount : g.tables.packageCount = g.identities.length := rfl
    have hsize := hg.size
    rw [layout, List.length_append, List.length_append, hwf.length,
      length_tables_primaryFileEntries, ← hrecords, hcount]
    rw [hcount] at hheader
    omega
  have hvalid := validate_layout hp hf (length_of_decodeSha256 hp) (length_of_decodeSha256 hf)
    hwf.nonempty hg.count hwf.length length_tables_primaryFileEntries hlength
  have htables := (checkTables_eq_ok hwf.nonempty hwf.length).mpr ⟨hwf, rfl⟩
  rw [build, hbytes, Except.ok_bind, hvalid, htables, Except.ok_bind]
  exact ⟨_, rfl⟩

end

/-! ## One package -/

/-- The index of one package without files. -/
def singleIndex (package primary filelists : String) : List UInt8 :=
  lazyBinaryV3Magic ++ hexDecode primary.toList ++ hexDecode filelists.toList ++ [0, 0, 0, 1] ++
    [0, 0, 0, 0, 0, 0, 0, 0] ++ hexDecode package.toList ++ [0, 0, 0, 0]

section
variable {i : PrimaryPackageIdentity} {primary filelists : String}

theorem length_singleIndex (hi : isLowerDigest i.checksum = true) (hp : isLowerDigest primary = true)
    (hf : isLowerDigest filelists = true) : (singleIndex i.checksum primary filelists).length = 130 := by
  have hmagic : lazyBinaryV3Magic.length = 18 := by decide
  simp only [singleIndex, List.length_append, List.length_cons, List.length_nil, hmagic,
    length_hexDecode_of_isLowerDigest hi, length_hexDecode_of_isLowerDigest hp,
    length_hexDecode_of_isLowerDigest hf]

theorem lazyBinaryV3Magic_prefix_singleIndex (package : String) :
    lazyBinaryV3Magic <+: singleIndex package primary filelists := by
  simp only [singleIndex, List.append_assoc, List.prefix_append]

theorem buildable_single (hi : isLowerDigest i.checksum = true) (hp : isLowerDigest primary = true)
    (hf : isLowerDigest filelists = true) : Buildable ⟨[i], primary, filelists, some []⟩ where
  nonempty := List.cons_ne_nil _ _
  count := Nat.one_lt_two_pow (by decide)
  digests := List.forall_mem_singleton.mpr hi
  distinct := List.nodup_singleton _
  primary := hp
  filelists := hf
  whole := by
    rintro _ ⟨⟩
    rfl
  sorted := .nil
  bounded := nofun
  uncollided := nofun
  size := by
    change 94 + 1 * 36 + 0 * 20 < 2 ^ 64
    decide

theorem assemble_single (hi : isLowerDigest i.checksum = true) (hp : isLowerDigest primary = true)
    (hf : isLowerDigest filelists = true) : assemble ⟨[i], primary, filelists, some []⟩ =
      .ok (singleIndex i.checksum primary filelists) := by
  obtain ⟨bytes, hbytes⟩ := exists_assemble (buildable_single hi hp hf)
  obtain ⟨-, -, p, f, hp', hf', rfl⟩ := assemble_eq_ok hbytes
  obtain ⟨-, rfl⟩ := decodeSha256_eq_ok.mp hp'
  obtain ⟨-, rfl⟩ := decodeSha256_eq_ok.mp hf'
  have hentries : (IndexSource.mk [i] primary filelists (some [])).tables.packageEntries =
      hexDecode i.checksum.toList ++ [0, 0, 0, 0] := by
    have hzero : (0 : Nat).beBytes 4 = [0, 0, 0, 0] := by decide
    simp [IndexSource.tables, IndexSource.association, hzero]
  have hfiles : (IndexSource.mk [i] primary filelists (some [])).tables.primaryFileEntries = [] := rfl
  have hcount : (IndexSource.mk [i] primary filelists (some [])).tables.packageCount.beBytes 4 =
      [0, 0, 0, 1] := by
    change (1 : Nat).beBytes 4 = _
    decide
  have hnone : (0 : Nat).beBytes 8 = [0, 0, 0, 0, 0, 0, 0, 0] := by decide
  rw [hbytes]
  simp only [layout, layoutHeader, singleIndex, List.append_assoc, hentries, hfiles, hcount,
    List.append_nil, Option.map_some, Option.isSome_some, if_true, Option.elim_some, List.length_nil,
    Nat.zero_div, hnone]

theorem build_single (crates : Crates) (hi : isLowerDigest i.checksum = true)
    (hp : isLowerDigest primary = true) (hf : isLowerDigest filelists = true) :
    build crates ⟨[i], primary, filelists, some []⟩ = .ok (singleIndex i.checksum primary filelists,
      ⟨(crates.sha256 (singleIndex i.checksum primary filelists)).asStr, 130, ""⟩) := by
  obtain ⟨r, hr⟩ : ∃ r, build crates ⟨[i], primary, filelists, some []⟩ = .ok r :=
    exists_build (buildable_single hi hp hf)
  have hbuild := hr
  rw [build, assemble_single hi hp hf, Except.ok_bind] at hr
  obtain ⟨m, -, hm⟩ := Except.bind_eq_ok.mp hr
  rw [hbuild, ← hm, length_singleIndex hi hp hf]
  rfl

/-- The index is valid for the metadata that it was built from. -/
theorem validates_single (crates : Crates) (hi : isLowerDigest i.checksum = true)
    (hp : isLowerDigest primary = true) (hf : isLowerDigest filelists = true) :
    ∃ m, validateLazyBinaryManifest (singleIndex i.checksum primary filelists) primary filelists =
      .ok m := by
  have h := build_single crates hi hp hf
  rw [build, assemble_single hi hp hf, Except.ok_bind] at h
  obtain ⟨m, hm, -⟩ := Except.bind_eq_ok.mp h
  exact ⟨m, hm⟩

end

/-- Validation never leaves a slice. An accepted index is a bijection of checksums and ordinals that
both searches read faithfully, and an index that `build` emits is accepted and holds the association
it was built from. -/
theorem lazy_binary_manifest_faithful (crates : Crates) :
    (∀ bytes primary filelists,
      Safe (validateLazyBinaryManifest bytes primary filelists) ∧
      ∀ m, validateLazyBinaryManifest bytes primary filelists = .ok m →
        m.packages.length = m.packageCount ∧ (m.packages.map Prod.fst).Nodup ∧
        (m.packages.map Prod.snd).Perm (List.range m.packageCount) ∧
        (∀ packageId, Safe (lazyBinaryOrdinal m packageId) ∧
          ∀ n, lazyBinaryOrdinal m packageId = .ok n ↔
            ∃ checksum, decodeSha256 packageId = .ok checksum ∧ (checksum, n) ∈ m.packages) ∧
        ∀ path, ∃ ordinals, lazyBinaryPrimaryProviders crates m path = .ok ordinals ∧
          ordinals.Pairwise (· < ·) ∧ ∀ n, n ∈ ordinals ↔ (pathPrefix crates path, n) ∈ m.files) ∧
    ∀ g, (∀ bytes d, build crates g = .ok (bytes, d) → ∃ m,
        validateLazyBinaryManifest bytes g.primarySha256 g.filelistsSha256 = .ok m ∧
        m.packages.Perm g.association ∧
        m.files = g.records.map fun c => (c.take 16, Nat.ofBeBytes (c.drop 32))) ∧
      (Buildable g → ∃ bytes d, build crates g = .ok (bytes, d)) := by
  refine ⟨fun bytes primary filelists => ⟨safe_validateLazyBinaryManifest _ _ _, ?_⟩, fun g => ⟨?_, ?_⟩⟩
  · intro m hm
    obtain ⟨hwf, -⟩ := validate_eq_ok hm
    refine ⟨length_packages hwf.length, hwf.checksums.imp ne_of_lt, hwf.ordinals,
      lazyBinaryOrdinal_spec hwf, ?_⟩
    intro path
    obtain ⟨hproviders, hsorted⟩ := @lazyBinaryPrimaryProviders_spec crates m hwf path
    refine ⟨_, hproviders, hsorted, fun n => ?_⟩
    simp [List.mem_map, List.mem_filter]
  · intro bytes d hbuild
    obtain ⟨hvalid, hperm⟩ := build_eq_ok hbuild
    exact ⟨g.tables, hvalid, hperm, tables_files⟩
  · intro hg
    obtain ⟨⟨bytes, d⟩, hbuild⟩ := @exists_build crates g hg
    exact ⟨bytes, d, hbuild⟩

/-- Two packages whose checksums are not in the order of primary, with one file of the first. -/
def twoPackages : IndexSource where
  identities := [
    ⟨"bbbbbbbbbbbbbbbbbbbbbbbbbbbbbbbbbbbbbbbbbbbbbbbbbbbbbbbbbbbbbbbb", "b", "x86_64", "0", "1", "1"⟩,
    ⟨"aaaaaaaaaaaaaaaaaaaaaaaaaaaaaaaaaaaaaaaaaaaaaaaaaaaaaaaaaaaaaaaa", "a", "x86_64", "0", "1", "1"⟩]
  primarySha256 := "1111111111111111111111111111111111111111111111111111111111111111"
  filelistsSha256 := "2222222222222222222222222222222222222222222222222222222222222222"
  primaryFiles := some (List.replicate 32 7 ++ (0).beBytes 4)

theorem buildable_twoPackages : Buildable twoPackages := by
  constructor
  all_goals decide +kernel

theorem lazy_binary_manifest_faithful_twoPackages :
    ∃ bytes d m, build fedoraCrates twoPackages = .ok (bytes, d) ∧
      validateLazyBinaryManifest bytes twoPackages.primarySha256 twoPackages.filelistsSha256 =
        .ok m ∧
      lazyBinaryOrdinal m "aaaaaaaaaaaaaaaaaaaaaaaaaaaaaaaaaaaaaaaaaaaaaaaaaaaaaaaaaaaaaaaa" =
        .ok 1 := by
  obtain ⟨hread, hbuild⟩ := lazy_binary_manifest_faithful fedoraCrates
  obtain ⟨hemitted, hexists⟩ := hbuild twoPackages
  obtain ⟨bytes, d, h⟩ := hexists buildable_twoPackages
  obtain ⟨m, hm, hperm, -⟩ := hemitted bytes d h
  obtain ⟨-, -, -, hordinal, -⟩ := (hread _ _ _).2 m hm
  refine ⟨bytes, d, m, h, hm, ?_⟩
  rw [(hordinal _).2]
  refine ⟨_, decodeSha256_eq_ok.mpr ⟨by decide +kernel, rfl⟩, ?_⟩
  rw [hperm.mem_iff]
  decide +kernel

end Dnfast.Planning.LazyIndex
