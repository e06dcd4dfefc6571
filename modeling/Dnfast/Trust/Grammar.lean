import Dnfast.Trust.Keyring

/-! # The grammar of signature packets

Packets of OpenPGP with a definite length, in the old and in the new format, the subpackets of a
signature, and the bodies of version 4 signatures, said by how they are put together (`IsPacket`,
`IsSubpacket`, `Splits`). The readers of `native/src/keyring_identity.c` accept exactly these:
`packetSpan_iff` and `subpacketSpan_iff` for one packet, `claimedIssuer_iff` for a signature that
claims its issuer. -/

namespace Dnfast.Trust

/-! ## Lengths -/

/-- The forms of a length: one byte below 192, two bytes of which the first is below the limit, and
255 with four bytes. -/
inductive IsLength (limit : UInt8) : List UInt8 → Nat → Prop where
  | one {b : UInt8} (hb : b < 192) : IsLength limit [b] b.toNat
  | two {b c : UInt8} (hb : 192 ≤ b) (hlimit : b < limit) :
      IsLength limit [b, c] ((b.toNat - 192) * 256 + c.toNat + 192)
  | five {bytes : List UInt8} (hbytes : bytes.length = 4) :
      IsLength limit (255 :: bytes) (beNat bytes)

/-- The forms in the old format, by the two last bits of the first byte. -/
inductive IsOldLength : Nat → List UInt8 → Nat → Prop where
  | one {b : UInt8} : IsOldLength 0 [b] b.toNat
  | two {bytes : List UInt8} (hbytes : bytes.length = 2) : IsOldLength 1 bytes (beNat bytes)
  | four {bytes : List UInt8} (hbytes : bytes.length = 4) : IsOldLength 2 bytes (beNat bytes)

/-- How a length is read. -/
def readLength (limit : UInt8) : List UInt8 → Option (Nat × Nat)
  | [] => none
  | a :: rest =>
    if a < 192 then some (1, a.toNat)
    else if a < limit ∧ 1 ≤ rest.length then
      some (2, (a.toNat - 192) * 256 + beNat (rest.take 1) + 192)
    else if a = 255 ∧ 4 ≤ rest.length then some (5, be32 rest)
    else none

theorem beNat_singleton (b : UInt8) : beNat [b] = b.toNat := Nat.zero_add _

section
variable {limit : UInt8} {data : List UInt8} {header size : Nat}

theorem readLength_iff (hlimit : limit ≤ 255) : readLength limit data = some (header, size) ↔
    ∃ len rest, data = len ++ rest ∧ IsLength limit len size ∧ header = len.length := by
  constructor
  · intro h
    match data with
    | a :: rest =>
      rw [readLength] at h
      split at h
      · next ha =>
        cases h
        exact ⟨[a], rest, rfl, .one ha, rfl⟩
      split at h
      · next ha htwo =>
        match rest with
        | c :: rest =>
          rw [List.take_succ_cons, List.take_zero, beNat_singleton] at h
          cases h
          exact ⟨[a, c], rest, rfl, .two (UInt8.not_lt.mp ha) htwo.1, rfl⟩
      split at h
      · next hfive =>
        cases h
        obtain ⟨rfl, hlength⟩ := hfive
        have htake : (rest.take 4).length = 4 := by rw [List.length_take, Nat.min_eq_left hlength]
        refine ⟨255 :: rest.take 4, rest.drop 4, ?_, .five htake, by simp [htake]⟩
        rw [List.cons_append, List.take_append_drop]
      · cases h
  · rintro ⟨len, rest, rfl, hlen, rfl⟩
    cases hlen with
    | one hb => exact if_pos hb
    | two hb hlt =>
      rw [List.cons_append, readLength, if_neg (UInt8.not_lt.mpr hb),
        if_pos ⟨hlt, by simp⟩, List.cons_append, List.take_succ_cons, List.take_zero,
        beNat_singleton]
      rfl
    | five hbytes =>
      have hfront : (_ ++ rest).take 4 = _ := List.take_left' hbytes
      rw [List.cons_append, readLength, if_neg (by decide), if_neg, if_pos, be32, hfront,
        List.length_cons, hbytes]
      · exact ⟨rfl, by rw [List.length_append]; omega⟩
      · exact fun h => UInt8.not_lt.mpr hlimit h.1

theorem newSizes_eq (a : UInt8) :
    newSizes (a :: data) = (readLength 224 data).map fun p => (p.1 + 1, p.2) := by
  cases data with
  | nil => rfl
  | cons b rest =>
    rw [newSizes, readLength]
    split_ifs <;> rfl

theorem newSizes_iff (a : UInt8) : newSizes (a :: data) = some (header, size) ↔
    ∃ len rest, data = len ++ rest ∧ IsLength 224 len size ∧ header = len.length + 1 := by
  rw [newSizes_eq, Option.map_eq_some_iff]
  constructor
  · rintro ⟨⟨k, n⟩, hread, heq⟩
    cases heq
    obtain ⟨len, rest, hdata, hlen, rfl⟩ := (readLength_iff (by decide)).mp hread
    exact ⟨len, rest, hdata, hlen, rfl⟩
  · rintro ⟨len, rest, hdata, hlen, rfl⟩
    exact ⟨_, (readLength_iff (by decide)).mpr ⟨len, rest, hdata, hlen, rfl⟩, rfl⟩

end

/-! ## Packets -/

/-- The header of a packet with the tag and so many bytes in its body. The two highest bits of the
first byte tell the formats apart. -/
inductive IsHeader (tag size : Nat) : List UInt8 → Prop where
  | new {first : UInt8} {len : List UInt8} (htag : tag < 64) (hfirst : first.toNat = 192 + tag)
      (hlen : IsLength 224 len size) : IsHeader tag size (first :: len)
  | old {first : UInt8} {kind : Nat} {len : List UInt8} (htag : tag < 16)
      (hfirst : first.toNat = 128 + 4 * tag + kind) (hlen : IsOldLength kind len size) :
      IsHeader tag size (first :: len)

/-- One packet and nothing else. -/
def IsPacket (tag : Nat) (body packet : List UInt8) : Prop :=
  ∃ head, IsHeader tag body.length head ∧ packet = head ++ body

/-- What the masks of the source keep of a byte. -/
theorem masks (a : UInt8) : (a &&& 0x80 = 0 ↔ a.toNat < 128) ∧ (a &&& 0x40 = 0 ↔ a.toNat % 128 < 64) ∧
    (a &&& 0x3f).toNat = a.toNat % 64 ∧ (a >>> 2 &&& 15).toNat = a.toNat / 4 % 16 ∧
    ∀ kind : Fin 4, a &&& 3 = UInt8.ofNat kind ↔ a.toNat % 4 = kind := by
  have hall : ∀ n < 256, (UInt8.ofNat n &&& 0x80 = 0 ↔ n < 128) ∧
      (UInt8.ofNat n &&& 0x40 = 0 ↔ n % 128 < 64) ∧ (UInt8.ofNat n &&& 0x3f).toNat = n % 64 ∧
      (UInt8.ofNat n >>> 2 &&& 15).toNat = n / 4 % 16 ∧
      ∀ kind : Fin 4, UInt8.ofNat n &&& 3 = UInt8.ofNat kind ↔ n % 4 = kind := by decide +kernel
  have h := hall a.toNat a.toNat_lt
  rwa [UInt8.ofNat_toNat] at h

section
variable {data : List UInt8} {header size tag : Nat}

theorem IsOldLength.kind_lt {kind : Nat} {len : List UInt8} (h : IsOldLength kind len size) :
    kind < 3 := by
  cases h <;> decide

theorem oldSizes_iff {a : UInt8} (hdata : data ≠ []) :
    oldSizes (a :: data) = some (header, size) ↔ ∃ len rest, data = len ++ rest ∧
      IsOldLength (a.toNat % 4) len size ∧ header = len.length + 1 := by
  obtain ⟨-, -, -, -, hkind⟩ := masks a
  have h₀ : a &&& 3 = 0 ↔ a.toNat % 4 = 0 := hkind 0
  have h₁ : a &&& 3 = 1 ↔ a.toNat % 4 = 1 := hkind 1
  have h₂ : a &&& 3 = 2 ↔ a.toNat % 4 = 2 := hkind 2
  rw [oldSizes]
  constructor
  · intro h
    split at h
    · next ha =>
      match data with
      | b :: rest =>
        rw [List.take_succ_cons, List.take_zero, beNat_singleton] at h
        cases h
        rw [h₀.mp ha]
        exact ⟨[b], rest, rfl, .one, rfl⟩
    split at h
    · next ha =>
      have htake : (data.take 2).length = 2 := by rw [List.length_take, Nat.min_eq_left ha.2]
      cases h
      rw [h₁.mp ha.1]
      exact ⟨data.take 2, data.drop 2, (List.take_append_drop 2 data).symm, .two htake, by rw [htake]⟩
    split at h
    · next ha =>
      have htake : (data.take 4).length = 4 := by rw [List.length_take, Nat.min_eq_left ha.2]
      cases h
      rw [h₂.mp ha.1]
      exact ⟨data.take 4, data.drop 4, (List.take_append_drop 4 data).symm, .four htake, by rw [htake]⟩
    · cases h
  · rintro ⟨len, rest, rfl, hlen, rfl⟩
    generalize hk : a.toNat % 4 = kind at hlen
    rw [hk] at h₀ h₁ h₂
    cases hlen with
    | one =>
      rw [if_pos (h₀.mpr rfl), List.cons_append, List.take_succ_cons, List.nil_append, List.take_zero,
        beNat_singleton]
      rfl
    | two hbytes =>
      rw [if_neg (fun h => absurd (h₀.mp h) (by decide)), if_pos ⟨h₁.mpr rfl, by simp [hbytes]⟩,
        List.take_left' hbytes, hbytes]
    | four hbytes =>
      rw [if_neg (fun h => absurd (h₀.mp h) (by decide)),
        if_neg (fun h => absurd (h₁.mp h.1) (by decide)), if_pos ⟨h₂.mpr rfl, by simp [hbytes]⟩,
        be32, List.take_left' hbytes, hbytes]

/-- The sizes that are read of a packet. -/
def sizes (a : UInt8) (data : List UInt8) : Option (Nat × Nat) :=
  if a &&& 0x40 ≠ 0 then newSizes (a :: data) else oldSizes (a :: data)

def tagOf (a : UInt8) : Nat := if a &&& 0x40 ≠ 0 then (a &&& 0x3f).toNat else (a >>> 2 &&& 15).toNat

theorem sizes_iff {a : UInt8} (hdata : data ≠ []) (ha : a &&& 0x80 ≠ 0) :
    sizes a data = some (header, size) ∧ tag = tagOf a ↔ ∃ len rest, data = len ++ rest ∧
      IsHeader tag size (a :: len) ∧ header = len.length + 1 := by
  obtain ⟨hhigh, hnew, hnewTag, holdTag, -⟩ := masks a
  have hlt := a.toNat_lt
  rw [Ne, hhigh] at ha
  unfold sizes tagOf
  split
  · next h =>
    rw [Ne, hnew] at h
    rw [newSizes_iff, hnewTag]
    constructor
    · rintro ⟨⟨len, rest, hsplit, hlen, hheader⟩, rfl⟩
      exact ⟨len, rest, hsplit, .new (by omega) (by omega) hlen, hheader⟩
    · rintro ⟨len, rest, hsplit, hhead, hheader⟩
      cases hhead with
      | new htag hfirst hlen => exact ⟨⟨len, rest, hsplit, hlen, hheader⟩, by omega⟩
      | old htag hfirst hlen =>
        have := hlen.kind_lt
        omega
  · next h =>
    rw [Ne, hnew, not_not] at h
    rw [oldSizes_iff hdata, holdTag]
    constructor
    · rintro ⟨⟨len, rest, hsplit, hlen, hheader⟩, rfl⟩
      exact ⟨len, rest, hsplit, .old (by omega) (by omega) hlen, hheader⟩
    · rintro ⟨len, rest, hsplit, hhead, hheader⟩
      cases hhead with
      | new htag hfirst hlen => omega
      | @old _ kind _ htag hfirst hlen =>
        have hkind := hlen.kind_lt
        obtain rfl : kind = a.toNat % 4 := by omega
        exact ⟨⟨len, rest, hsplit, hlen, hheader⟩, by omega⟩

theorem packetSpan_cons (a b : UInt8) : packetSpan (a :: b :: data) =
    if a &&& 0x80 = 0 then none
    else (sizes a (b :: data)).bind fun p =>
      if p.2 > (a :: b :: data).length - p.1 then none else some ⟨tagOf a, p.1, p.2⟩ := by
  rw [packetSpan]
  by_cases ha : a &&& 0x80 = 0
  · rw [if_pos ha, if_pos ha]
  rw [if_neg ha, if_neg ha]
  unfold sizes tagOf
  by_cases hnew : a &&& 0x40 ≠ 0
  · simp only [if_pos hnew]
    cases newSizes (a :: b :: data) <;> rfl
  · simp only [if_neg hnew]
    cases oldSizes (a :: b :: data) <;> rfl

theorem IsHeader.first {head : List UInt8} (h : IsHeader tag size head) :
    ∃ a len, head = a :: len ∧ a &&& 0x80 ≠ 0 ∧ len ≠ [] := by
  have hlength {limit : UInt8} {len : List UInt8} (hlen : IsLength limit len size) : len ≠ [] := by
    cases hlen <;> exact List.cons_ne_nil _ _
  have hold {kind : Nat} {len : List UInt8} (hlen : IsOldLength kind len size) : len ≠ [] := by
    cases hlen with
    | one => exact List.cons_ne_nil _ _
    | two hbytes => exact List.ne_nil_of_length_eq_add_one hbytes
    | four hbytes => exact List.ne_nil_of_length_eq_add_one hbytes
  cases h with
  | @new a len _ hfirst hlen =>
    refine ⟨a, len, rfl, ?_, hlength hlen⟩
    rw [Ne, (masks a).1]
    omega
  | @old a _ len _ hfirst hlen =>
    refine ⟨a, len, rfl, ?_, hold hlen⟩
    rw [Ne, (masks a).1]
    omega

/-- A packet is read at the front exactly when one stands there. -/
theorem packetSpan_iff : packetSpan data = some ⟨tag, header, size⟩ ↔ ∃ head body rest,
    data = head ++ body ++ rest ∧ IsHeader tag size head ∧ header = head.length ∧
      size = body.length := by
  constructor
  · intro h
    match data with
    | a :: b :: data =>
      rw [packetSpan_cons] at h
      split at h
      · cases h
      · next ha =>
        obtain ⟨⟨header', size'⟩, hsizes, h⟩ := Option.bind_eq_some_iff.mp h
        split at h
        · cases h
        · next hsize =>
          cases h
          obtain ⟨len, rest, hdata, hhead, hheader⟩ :=
            (sizes_iff (List.cons_ne_nil b data) ha).mp ⟨hsizes, rfl⟩
          have hle : size' ≤ rest.length := by
            rw [hdata, hheader, List.length_cons, List.length_append] at hsize
            omega
          refine ⟨a :: len, rest.take size', rest.drop size', ?_, hhead, hheader, ?_⟩
          · rw [List.append_assoc, List.take_append_drop, hdata, List.cons_append]
          · rw [List.length_take, Nat.min_eq_left hle]
  · rintro ⟨head, body, rest, rfl, hhead, rfl, rfl⟩
    obtain ⟨a, len, rfl, ha, hlen⟩ := hhead.first
    obtain ⟨b, len, rfl⟩ := List.exists_cons_of_ne_nil hlen
    obtain ⟨hsizes, htag⟩ := (sizes_iff
      (List.cons_ne_nil b (len ++ (body ++ rest))) ha).mpr ⟨b :: len, body ++ rest, rfl, hhead, rfl⟩
    simp only [List.cons_append, List.append_assoc]
    rw [packetSpan_cons, if_neg ha, hsizes, Option.bind_some, if_neg, ← htag]
    · rfl
    · simp only [List.length_cons, List.length_append]
      omega

/-! ## Subpackets -/

/-- A subpacket: its type, with the bit that says whether it is critical, and its contents. -/
structure Subpacket where
  type : UInt8
  contents : List UInt8
  deriving DecidableEq

def IsSubpacket (s : Subpacket) (part : List UInt8) : Prop :=
  ∃ len, IsLength 255 len (s.contents.length + 1) ∧ part = len ++ s.type :: s.contents

/-- The bytes are the subpackets, one behind the other. -/
inductive Splits : List Subpacket → List UInt8 → Prop where
  | nil : Splits [] []
  | cons {s : Subpacket} {subpackets : List Subpacket} {part rest : List UInt8}
      (hpart : IsSubpacket s part) (hrest : Splits subpackets rest) :
      Splits (s :: subpackets) (part ++ rest)

theorem subpacketSpan_eq : subpacketSpan data = (readLength 255 data).bind fun p =>
    if p.2 ≤ data.length - p.1 ∧ 0 < p.2 then some p else none := by
  cases data with
  | nil => rfl
  | cons a rest =>
    rw [subpacketSpan, readLength, List.length_cons]
    split
    · rfl
    split
    · rfl
    split <;> rfl

theorem subpacketSpan_iff : subpacketSpan data = some (header, size) ↔ ∃ len s rest,
    data = len ++ Subpacket.type s :: Subpacket.contents s ++ rest ∧
      IsLength 255 len (s.contents.length + 1) ∧ header = len.length ∧
      size = s.contents.length + 1 := by
  rw [subpacketSpan_eq, Option.bind_eq_some_iff]
  constructor
  · rintro ⟨⟨header', size'⟩, hread, h⟩
    split at h
    · next hsize =>
      cases h
      obtain ⟨len, tail, rfl, hlen, rfl⟩ := (readLength_iff (Nat.le_refl _)).mp hread
      obtain ⟨hle, hpositive⟩ := hsize
      rw [List.length_append, Nat.add_sub_cancel_left] at hle
      match tail with
      | type :: tail =>
        rw [List.length_cons] at hle
        have hcontents : (tail.take (size - 1)).length + 1 = size := by
          rw [List.length_take]
          omega
        refine ⟨len, ⟨type, tail.take (size - 1)⟩, tail.drop (size - 1), ?_, ?_, rfl, hcontents.symm⟩
        · rw [List.append_assoc, List.cons_append, List.take_append_drop]
        · rw [hcontents]
          exact hlen
      | [] => exact absurd hle (by rw [List.length_nil]; omega)
    · cases h
  · rintro ⟨len, s, rest, rfl, hlen, rfl, rfl⟩
    refine ⟨(len.length, s.contents.length + 1), (readLength_iff (Nat.le_refl _)).mpr
      ⟨len, s.type :: s.contents ++ rest, by rw [List.append_assoc], hlen, rfl⟩, if_pos ⟨?_, by simp⟩⟩
    simp only [List.length_append, List.length_cons]
    omega

end

/-! ## Signatures -/

/-- The subpacket is an issuer fingerprint. -/
def Subpacket.isIssuer (s : Subpacket) : Bool := s.type &&& 0x7f = 33

/-- The body of a version 4 signature: after the version, the kind of signature, the algorithms and
the size of the hashed part comes the hashed part, and then what is not hashed. -/
def IsSignatureBody (body hashed : List UInt8) : Prop :=
  ∃ kind key hash high low rest, body = 4 :: kind :: key :: hash :: high :: low :: (hashed ++ rest) ∧
    beNat [high, low] = hashed.length

/-- The packet is one version 4 signature. Its hashed part has one issuer fingerprint, which is of
version 4 and has these 20 bytes. -/
def Claims (packet fingerprint : List UInt8) : Prop :=
  ∃ body hashed subpackets, IsPacket 2 body packet ∧ IsSignatureBody body hashed ∧
    Splits subpackets hashed ∧ fingerprint.length = 20 ∧
    ∃ type, subpackets.filter Subpacket.isIssuer = [⟨type, 4 :: fingerprint⟩]

section
variable {fingerprint data rest : List UInt8} {found : Option (List UInt8)} {rounds : Nat}
  {s : Subpacket} {subpackets : List Subpacket}

theorem IsSubpacket.span {part : List UInt8} (h : IsSubpacket s part) (rest : List UInt8) :
    ∃ len, part = len ++ s.type :: s.contents ∧
      subpacketSpan (part ++ rest) = some (len.length, s.contents.length + 1) := by
  obtain ⟨len, hlen, rfl⟩ := h
  exact ⟨len, rfl, subpacketSpan_iff.mpr ⟨len, s, rest, rfl, hlen, rfl, rfl⟩⟩

/-- The first subpacket of some bytes is determined by them. -/
theorem IsSubpacket.unique {s' : Subpacket} {part part' rest' : List UInt8} (h : IsSubpacket s part)
    (h' : IsSubpacket s' part') (heq : part ++ rest = part' ++ rest') : s = s' ∧ rest = rest' := by
  obtain ⟨len, rfl, hspan⟩ := h.span rest
  obtain ⟨len', rfl, hspan'⟩ := h'.span rest'
  rw [heq, hspan', Option.some.injEq, Prod.mk.injEq] at hspan
  obtain ⟨hlength, hsize⟩ := hspan
  have hpart : (len ++ s.type :: s.contents).length = (len' ++ s'.type :: s'.contents).length := by
    simp only [List.length_append, List.length_cons]
    omega
  obtain ⟨hparts, hrest⟩ := List.append_inj heq hpart
  obtain ⟨-, hcons⟩ := List.append_inj hparts hlength.symm
  rw [List.cons.injEq] at hcons
  obtain ⟨type, contents⟩ := s
  obtain ⟨type', contents'⟩ := s'
  obtain ⟨rfl, rfl⟩ := hcons
  exact ⟨rfl, hrest⟩

theorem splits_cons {part : List UInt8} (h : IsSubpacket s part) :
    Splits subpackets (part ++ rest) ↔ ∃ others, subpackets = s :: others ∧ Splits others rest := by
  constructor
  · intro hsplits
    generalize hdata : part ++ rest = data at hsplits
    cases hsplits with
    | nil =>
      obtain ⟨len, hlen, rfl⟩ := h
      simp at hdata
    | cons hpart hrest =>
      obtain ⟨rfl, rfl⟩ := h.unique hpart hdata
      exact ⟨_, rfl, hrest⟩
  · rintro ⟨others, rfl, hrest⟩
    exact .cons h hrest

theorem splits_nil : Splits subpackets [] ↔ subpackets = [] := by
  constructor
  · intro hsplits
    generalize hdata : ([] : List UInt8) = data at hsplits
    cases hsplits with
    | nil => rfl
    | cons hpart hrest =>
      obtain ⟨len, -, rfl⟩ := hpart
      simp at hdata
  · rintro rfl
    exact .nil

/-- A round of the loop over the subpackets. -/
theorem issuerFrom_succ {part : List UInt8} (h : IsSubpacket s part) :
    issuerFrom (rounds + 1) found (part ++ rest) =
      if s.isIssuer then
        if found.isSome ∨ s.contents.length + 1 ≠ 22 ∨ s.contents.head? ≠ some 4 then none
        else issuerFrom rounds (some ((s.contents.drop 1).take 20)) rest
      else issuerFrom rounds found rest := by
  obtain ⟨len, rfl, hspan⟩ := h.span rest
  have hne : len ++ s.type :: s.contents ++ rest ≠ [] := by simp
  have hdrop : (len ++ s.type :: s.contents ++ rest).drop len.length =
      s.type :: (s.contents ++ rest) := by
    rw [List.append_assoc, List.drop_left, List.cons_append]
  have hrest : (s.contents ++ rest).drop s.contents.length = rest := List.drop_left
  rw [issuerFrom.eq_3 _ _ _ hne, hspan]
  simp only [Option.bind_eq_bind, Option.bind_some, hdrop, List.head?_cons, Option.map_some,
    Option.some.injEq, List.drop_succ_cons, List.drop_zero, hrest, Subpacket.isIssuer,
    decide_eq_true_eq]
  split
  · by_cases hsize : s.contents.length + 1 = 22
    · obtain ⟨version, fingerprint, hcontents⟩ :=
        List.exists_cons_of_length_eq_add_one (Nat.succ.inj hsize)
      have hlength : fingerprint.length = 20 := by
        rw [hcontents, List.length_cons] at hsize
        omega
      simp only [hcontents, List.cons_append, List.head?_cons, List.drop_succ_cons, List.drop_zero,
        List.take_left' hlength, List.take_of_length_le (Nat.le_of_eq hlength)]
    · rw [if_pos (Or.inr (Or.inl hsize)), if_pos (Or.inr (Or.inl hsize))]
  · rfl

/-- What a subpacket that is an issuer fingerprint adds to those behind it. -/
theorem filter_isIssuer_cons (h : s.isIssuer = true) {others : List Subpacket} :
    (∃ type, (s :: others).filter Subpacket.isIssuer = [⟨type, 4 :: fingerprint⟩]) ↔
      s.contents = 4 :: fingerprint ∧ others.filter Subpacket.isIssuer = [] := by
  rw [List.filter_cons_of_pos h]
  constructor
  · rintro ⟨type, heq⟩
    obtain ⟨rfl, hothers⟩ := List.cons.inj heq
    exact ⟨rfl, hothers⟩
  · rintro ⟨hcontents, hothers⟩
    exact ⟨s.type, by rw [hothers, ← hcontents]⟩

/-- The loop over the subpackets ends with a fingerprint when it is the only one, found before or in
a subpacket that is still to come. -/
theorem issuerFrom_iff (hrounds : data.length ≤ rounds) :
    issuerFrom rounds found data = some fingerprint ↔ ∃ subpackets, Splits subpackets data ∧
      (found = some fingerprint ∧ subpackets.filter Subpacket.isIssuer = [] ∨
        found = none ∧ fingerprint.length = 20 ∧
          ∃ type, subpackets.filter Subpacket.isIssuer = [⟨type, 4 :: fingerprint⟩]) := by
  induction rounds generalizing data found with
  | zero =>
    obtain rfl : data = [] := List.eq_nil_of_length_eq_zero (Nat.le_zero.mp hrounds)
    simp [issuerFrom, splits_nil]
  | succ rounds ih =>
    by_cases hne : data = []
    · subst hne
      simp [issuerFrom, splits_nil]
    cases hspan : subpacketSpan data with
    | none =>
      rw [issuerFrom.eq_3 _ _ _ hne, hspan]
      refine iff_of_false nofun ?_
      rintro ⟨subpackets, hsplits, -⟩
      cases hsplits with
      | nil => exact hne rfl
      | cons hpart hrest =>
        obtain ⟨len, -, hsome⟩ := hpart.span _
        rw [hspan] at hsome
        cases hsome
    | some span =>
      obtain ⟨len, s, rest, rfl, hlen, -, -⟩ := subpacketSpan_iff.mp hspan
      have hpart : IsSubpacket s (len ++ s.type :: s.contents) := ⟨len, hlen, rfl⟩
      have hle : rest.length ≤ rounds := by
        simp only [List.length_append, List.length_cons] at hrounds
        omega
      rw [issuerFrom_succ hpart]
      constructor
      · intro h
        split at h
        · next hissuer =>
          split at h
          · cases h
          next hgood =>
          simp only [not_or, not_not, Bool.not_eq_true, Option.isSome_eq_false_iff,
            Option.isNone_iff_eq_none] at hgood
          obtain ⟨rfl, hsize, hversion⟩ := hgood
          obtain ⟨others, hothers, ⟨heq, hnone⟩ | ⟨hcontra, -⟩⟩ := (ih hle).mp h
          · obtain ⟨tail, htail⟩ := List.head?_eq_some_iff.mp hversion
            have hlength : tail.length = 20 := by
              rw [htail, List.length_cons] at hsize
              omega
            rw [htail, List.drop_succ_cons, List.drop_zero,
              List.take_of_length_le (Nat.le_of_eq hlength), Option.some.injEq] at heq
            subst heq
            exact ⟨s :: others, .cons hpart hothers, Or.inr ⟨rfl, hlength,
              (filter_isIssuer_cons hissuer).mpr ⟨htail, hnone⟩⟩⟩
          · cases hcontra
        · next hissuer =>
          obtain ⟨others, hothers, hfound⟩ := (ih hle).mp h
          refine ⟨s :: others, .cons hpart hothers, ?_⟩
          rwa [List.filter_cons_of_neg hissuer]
      · rintro ⟨subpackets, hsplits, hfound⟩
        obtain ⟨others, rfl, hothers⟩ := (splits_cons hpart).mp hsplits
        split
        · next hissuer =>
          rcases hfound with ⟨-, hnone⟩ | ⟨rfl, hlength, hone⟩
          · rw [List.filter_cons_of_pos hissuer] at hnone
            cases hnone
          · obtain ⟨hcontents, hnone⟩ := (filter_isIssuer_cons hissuer).mp hone
            rw [if_neg (by simp [hcontents, hlength]), ih hle]
            refine ⟨others, hothers, Or.inl ⟨?_, hnone⟩⟩
            rw [hcontents, List.drop_succ_cons, List.drop_zero,
              List.take_of_length_le (Nat.le_of_eq hlength)]
        · next hissuer =>
          rw [List.filter_cons_of_neg hissuer] at hfound
          exact (ih hle).mpr ⟨others, hothers, hfound⟩

theorem packetSpan_exact {tag : Nat} {packet : List UInt8} {span : Span} :
    (packetSpan packet = some span ∧ span.header + span.body = packet.length ∧ span.tag = tag) ↔
      ∃ body, IsPacket tag body packet ∧ span = ⟨tag, packet.length - body.length, body.length⟩ := by
  constructor
  · rintro ⟨hspan, hexact, rfl⟩
    obtain ⟨tag, header, size⟩ := span
    obtain ⟨head, body, rest, rfl, hhead, rfl, rfl⟩ := packetSpan_iff.mp hspan
    simp only [List.length_append] at hexact
    obtain rfl : rest = [] := List.eq_nil_of_length_eq_zero (by omega)
    refine ⟨body, ⟨head, hhead, List.append_nil _⟩, ?_⟩
    simp only [List.append_nil, List.length_append, Nat.add_sub_cancel_right]
  · rintro ⟨body, ⟨head, hhead, rfl⟩, rfl⟩
    refine ⟨packetSpan_iff.mpr ⟨head, body, [], (List.append_nil _).symm, hhead, ?_, rfl⟩, ?_, rfl⟩
    · rw [List.length_append, Nat.add_sub_cancel_right]
    · simp only [List.length_append]
      omega

theorem isSignatureBody_iff {body hashed : List UInt8} : IsSignatureBody body hashed ↔
    6 ≤ body.length ∧ body.head? = some 4 ∧
      beNat ((body.drop 4).take 2) ≤ body.length - 6 ∧
      hashed = (body.drop 6).take (beNat ((body.drop 4).take 2)) := by
  constructor
  · rintro ⟨kind, key, hash, high, low, rest, rfl, hlength⟩
    refine ⟨by simp, rfl, ?_, ?_⟩
    · simp only [List.drop_succ_cons, List.drop_zero, List.take_succ_cons, List.take_zero, hlength,
        List.length_cons, List.length_append]
      omega
    · simp only [List.drop_succ_cons, List.drop_zero, List.take_succ_cons, List.take_zero, hlength,
        List.take_left]
  · rintro ⟨hsize, hversion, hle, rfl⟩
    match body with
    | version :: kind :: key :: hash :: high :: low :: rest =>
      rw [List.head?_cons, Option.some.injEq] at hversion
      subst hversion
      simp only [List.drop_succ_cons, List.drop_zero, List.take_succ_cons, List.take_zero,
        List.length_cons] at hle ⊢
      refine ⟨kind, key, hash, high, low, rest.drop (beNat [high, low]), ?_, ?_⟩
      · rw [List.take_append_drop]
      · rw [List.length_take, Nat.min_eq_left (by omega)]

/-- A signature claims an issuer exactly when the grammar says so. -/
theorem claimedIssuer_iff {packet : List UInt8} :
    claimedIssuer packet = some fingerprint ↔ Claims packet fingerprint := by
  have hdrop {body : List UInt8} (h : IsPacket 2 body packet) :
      packet.drop (packet.length - body.length) = body := by
    obtain ⟨head, -, rfl⟩ := h
    rw [List.length_append, Nat.add_sub_cancel_right, List.drop_left]
  rw [claimedIssuer, Option.bind_eq_bind, Option.bind_eq_some_iff]
  constructor
  · rintro ⟨span, hspan, h⟩
    simp only [] at h
    split at h
    · cases h
    next hvalid =>
    simp only [not_or, not_not, Nat.not_lt] at hvalid
    obtain ⟨hexact, htag, hsize, hversion⟩ := hvalid
    obtain ⟨body, hpacket, rfl⟩ := packetSpan_exact.mp ⟨hspan, hexact, htag⟩
    simp only [hdrop hpacket] at h hversion hsize
    split at h
    · cases h
    next hle =>
    obtain ⟨subpackets, hsplits, ⟨hfound, -⟩ | ⟨-, hlength, hone⟩⟩ :=
      (issuerFrom_iff (List.length_take_le _ _)).mp h
    · cases hfound
    · exact ⟨body, _, subpackets, hpacket,
        isSignatureBody_iff.mpr ⟨hsize, hversion, Nat.not_lt.mp hle, rfl⟩, hsplits, hlength, hone⟩
  · rintro ⟨body, hashed, subpackets, hpacket, hbody, hsplits, hlength, hone⟩
    obtain ⟨hsize, hversion, hle, rfl⟩ := isSignatureBody_iff.mp hbody
    obtain ⟨hspan, hexact, htag⟩ := packetSpan_exact.mpr ⟨body, hpacket, rfl⟩
    refine ⟨_, hspan, ?_⟩
    simp only [hdrop hpacket]
    have hvalid : ¬ (packet.length - body.length + body.length ≠ packet.length ∨ 2 ≠ 2 ∨
        body.length < 6 ∨ body.head? ≠ some 4) := by
      simp only [not_or, not_not, Nat.not_lt]
      exact ⟨hexact, trivial, hsize, hversion⟩
    rw [if_neg hvalid, if_neg (Nat.not_lt.mpr hle), issuerFrom_iff (List.length_take_le _ _)]
    exact ⟨subpackets, hsplits, Or.inr ⟨rfl, hlength, hone⟩⟩

end

end Dnfast.Trust
