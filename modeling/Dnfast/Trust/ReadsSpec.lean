import Dnfast.Trust.Reads
import Dnfast.Trust.Signer

/-! # The signature readers keep to their bytes

Each reader of `Reads` gives what the reader over lists gives, and so it never faults: its reads lie
inside the bytes, and its loop ends. With the grammar, a packet is attributed exactly when it claims an
issuer that one identity has (`findPacketSigner_eq_ok`). -/

namespace Dnfast.Trust.Reads

open Except (Safe okOr)

section
variable {α β : Type} {data : List UInt8}

/-- What a reader over lists gives, as a computation of the binding. -/
def lift (o : Option α) : Reading α := okOr o (.error ())

@[simp] theorem lift_some (a : α) : lift (some a) = .ok a := rfl

@[simp] theorem lift_none : lift (none : Option α) = fail := rfl

@[simp] theorem fail_bind (f : α → Reading β) : fail >>= f = fail := rfl

theorem lift_eq_ok {o : Option α} {a : α} : lift o = .ok a ↔ o = some a := Except.okOr_eq_ok

theorem safe_lift (o : Option α) : Safe (lift o) := by
  cases o with
  | none => exact Except.safe_error ()
  | some a => exact Except.safe_ok a

@[simp] theorem orNull_lift (o : Option α) : orNull (lift o) = .ok o := by
  cases o <;> rfl

theorem lift_bind (o : Option α) (f : α → Option β) :
    (lift o >>= fun a => lift (f a)) = lift (o.bind f) := by
  cases o <;> rfl

@[simp] theorem refuse_of_not {c : Prop} [Decidable c] (h : ¬ c) : refuse c = .ok () := if_neg h

@[simp] theorem refuse_of {c : Prop} [Decidable c] (h : c) : refuse c = fail := if_pos h

theorem refuse_bind (c : Prop) [Decidable c] (x : Reading α) :
    (refuse c >>= fun _ => x) = if c then fail else x := by
  unfold refuse Except.refuseIf
  split <;> rfl

theorem byte_eq {i : Nat} {b : UInt8} (h : data[i]? = some b) : byte data i = .ok b := by
  rw [byte, h]

theorem minus_eq {a b : Nat} (h : b ≤ a) : minus a b = .ok (a - b) := if_pos h

theorem be_eq {width start : Nat} (h : start + width ≤ data.length) :
    be width data start = .ok (beNat ((data.drop start).take width)) := by
  rw [be, List.slice_eq_ok (Nat.le_add_right _ _) h, Nat.add_sub_cancel_left]
  rfl

theorem tail_eq {start : Nat} (h : start ≤ data.length) : tail data start = .ok (data.drop start) := by
  rw [tail, minus_eq h, Except.ok_bind, List.slice_eq_ok (Nat.le_add_right _ _) (by omega),
    Nat.add_sub_cancel_left, List.take_of_length_le (Nat.le_of_eq List.length_drop)]

end

/-! ## Packets -/

section
variable {data : List UInt8} {limit : UInt8} {i : Nat}

theorem lengthAt_eq (h : i < data.length) : lengthAt limit data i =
    lift ((readLength limit (data.drop i)).map fun p => (i + p.1, p.2)) := by
  obtain ⟨b, rest, hdata⟩ : ∃ b rest, data.drop i = b :: rest :=
    List.exists_cons_of_ne_nil (by simpa using h)
  have hlength : rest.length + 1 = data.length - i := by
    rw [← List.length_drop, hdata, List.length_cons]
  have hget (j : Nat) : data[i + j]? = (b :: rest)[j]? := by rw [← hdata, List.getElem?_drop]
  have hdrop : data.drop (i + 1) = rest := by rw [← List.drop_drop, hdata]; rfl
  rw [lengthAt, byte_eq (show data[i]? = some b from hget 0), Except.ok_bind, hdata, readLength]
  split
  · rfl
  next hb =>
  have hhigh : minus b.toNat 192 = .ok (b.toNat - 192) := minus_eq (UInt8.not_lt.mp hb)
  by_cases htwo : b < limit ∧ 1 ≤ rest.length
  · obtain ⟨c, rest, rfl⟩ := List.exists_cons_of_length_pos htwo.2
    rw [if_pos ⟨htwo.1, by omega⟩, if_pos htwo, hhigh, Except.ok_bind, byte_eq (hget 1),
      Except.ok_bind, List.take_succ_cons, List.take_zero, beNat_singleton]
    rfl
  rw [if_neg (fun h => htwo ⟨h.1, by omega⟩), if_neg htwo]
  by_cases hfive : b = 255 ∧ 4 ≤ rest.length
  · rw [if_pos ⟨hfive.1, by omega⟩, if_pos hfive, be_eq (by omega), hdrop]
    rfl
  · rw [if_neg (fun h => hfive ⟨h.1, by omega⟩), if_neg hfive]
    rfl

theorem oldSizes_eq {a : UInt8} (h : data ≠ []) :
    oldSizes a (a :: data) = lift (Trust.oldSizes (a :: data)) := by
  have hpositive := List.length_pos_iff.mpr h
  rw [oldSizes, Trust.oldSizes, List.length_cons]
  split
  · rw [be_eq (by rw [List.length_cons]; omega)]
    rfl
  by_cases htwo : a &&& 3 = 1 ∧ 2 ≤ data.length
  · rw [if_pos ⟨htwo.1, by omega⟩, if_pos htwo, be_eq (by rw [List.length_cons]; omega)]
    rfl
  rw [if_neg (fun h => htwo ⟨h.1, by omega⟩), if_neg htwo]
  by_cases hfour : a &&& 3 = 2 ∧ 4 ≤ data.length
  · rw [if_pos ⟨hfour.1, by omega⟩, if_pos hfour, be_eq (by rw [List.length_cons]; omega)]
    rfl
  · rw [if_neg (fun h => hfour ⟨h.1, by omega⟩), if_neg hfour]
    rfl

/-- The size of the header lies inside the bytes. -/
theorem header_le {a : UInt8} {header size : Nat} (hdata : data ≠ []) (ha : a &&& 0x80 ≠ 0)
    (h : Trust.sizes a data = some (header, size)) : header ≤ data.length + 1 := by
  obtain ⟨len, rest, rfl, -, rfl⟩ := (sizes_iff hdata ha).mp ⟨h, rfl⟩
  rw [List.length_append]
  omega

theorem packetSpan_eq (data : List UInt8) : packetSpan data = lift (Trust.packetSpan data) := by
  match data with
  | [] => rfl
  | [a] => rfl
  | a :: b :: data =>
    rw [packetSpan, refuse_bind, if_neg (by simp), packetSpan_cons]
    have hfirst : byte (a :: b :: data) 0 = .ok a := rfl
    rw [hfirst, Except.ok_bind, refuse_bind]
    split
    · rfl
    next ha =>
    have hsizes : sizes a (a :: b :: data) = lift (Trust.sizes a (b :: data)) := by
      unfold sizes Trust.sizes
      split
      · rw [lengthAt_eq (by simp), newSizes_eq, List.drop_succ_cons, List.drop_zero]
        simp only [Nat.add_comm]
      · exact oldSizes_eq (List.cons_ne_nil b data)
    rw [hsizes]
    cases hs : Trust.sizes a (b :: data) with
    | none => rfl
    | some p =>
      have hle := header_le (List.cons_ne_nil b data) ha hs
      rw [lift_some, Except.ok_bind, Option.bind_some]
      simp only [minus_eq (a := (a :: b :: data).length) hle, Except.ok_bind, refuse_bind]
      split <;> rfl

theorem subpacketSpan_eq (data : List UInt8) :
    subpacketSpan data = lift (Trust.subpacketSpan data) := by
  rw [subpacketSpan, refuse_bind, Trust.subpacketSpan_eq]
  split
  · next h =>
    obtain rfl := List.eq_nil_of_length_eq_zero h
    rfl
  next h =>
  rw [lengthAt_eq (Nat.pos_of_ne_zero h), List.drop_zero]
  simp only [Nat.zero_add]
  cases hread : readLength 255 data with
  | none => rfl
  | some p =>
    obtain ⟨len, rest, rfl, -, hheader⟩ := (readLength_iff (Nat.le_refl _)).mp hread
    have hle : p.1 ≤ (len ++ rest).length := by
      rw [hheader, List.length_append]
      omega
    simp only [Option.map_some, lift_some, Except.ok_bind, minus_eq hle, refuse_bind,
      Option.bind_some]
    by_cases hsize : p.2 ≤ (len ++ rest).length - p.1 ∧ 0 < p.2
    · rw [if_neg (not_not.mpr hsize), if_pos hsize]
      rfl
    · rw [if_pos hsize, if_neg hsize]
      rfl

end

/-! ## The issuer -/

section
variable {found : Option (List UInt8)} {s : Subpacket} {hashed rest : List UInt8}
  {rounds cursor : Nat}

/-- What is found after a subpacket, over lists. -/
def nextFound (found : Option (List UInt8)) (s : Subpacket) : Option (Option (List UInt8)) :=
  if s.isIssuer then
    if found.isSome ∨ s.contents.length + 1 ≠ 22 ∨ s.contents.head? ≠ some 4 then none
    else some (some ((s.contents.drop 1).take 20))
  else some found

theorem issuerFrom_eq_bind {part : List UInt8} (h : IsSubpacket s part) :
    issuerFrom (rounds + 1) found (part ++ rest) =
      (nextFound found s).bind fun found => issuerFrom rounds found rest := by
  rw [issuerFrom_succ h, nextFound]
  split
  · split <;> rfl
  · rfl

theorem issuerNext_eq : issuerNext found s.type (s.type :: s.contents) = lift (nextFound found s) := by
  unfold issuerNext nextFound Subpacket.isIssuer
  simp only [decide_eq_true_eq]
  split
  · rw [issuerOf, refuse_bind, List.length_cons]
    split
    · next hbad => rw [if_pos (by tauto)]; rfl
    next hgood =>
    rw [not_or, not_not] at hgood
    obtain ⟨version, fingerprint, hcontents⟩ :=
      List.exists_cons_of_length_eq_add_one (Nat.succ.inj hgood.2)
    have hlength : fingerprint.length = 20 := by
      rw [hcontents, List.length_cons] at hgood
      omega
    have hversion : byte (s.type :: s.contents) 1 = .ok version := byte_eq (by rw [hcontents]; rfl)
    rw [hversion, Except.ok_bind, refuse_bind, hcontents]
    by_cases hfour : version = 4
    · rw [if_neg (not_not.mpr hfour), if_neg (by simp [hgood.1, hlength, hfour]),
        List.slice_eq_ok (by decide) (by simp [hlength])]
      rfl
    · rw [if_pos hfour, if_pos (by simp [hfour])]
      rfl
  · rfl

/-- A round of the loop that finds a subpacket. -/
theorem issuerStep_eq {part : List UInt8} (h : IsSubpacket s part)
    (hdata : hashed.drop cursor = part ++ rest) (hcursor : cursor ≤ hashed.length) :
    issuerStep hashed cursor found = (do
      let found ← lift (nextFound found s)
      return (cursor + part.length, found)) := by
  obtain ⟨len, rfl, hspan⟩ := h.span rest
  have hsplit : hashed = hashed.take cursor ++ len ++ (s.type :: s.contents) ++ rest := by
    conv_lhs => rw [← List.take_append_drop cursor hashed, hdata]
    simp only [List.append_assoc]
  have htake : (hashed.take cursor).length = cursor := List.length_take_of_le hcursor
  have hslice : (hashed.slice (cursor + len.length) (cursor + len.length + (s.contents.length + 1)) :
      Reading _) = .ok (s.type :: s.contents) := by
    rw [hsplit]
    apply List.slice_append
    · rw [List.length_append, htake]
    · rw [List.length_append, htake, List.length_cons]
  rw [issuerStep, tail_eq hcursor, Except.ok_bind, subpacketSpan_eq, hdata, hspan, lift_some,
    Except.ok_bind]
  simp only [hslice, Except.ok_bind]
  have hfirst : byte (s.type :: s.contents) 0 = .ok s.type := rfl
  rw [hfirst, Except.ok_bind, issuerNext_eq, List.length_append, List.length_cons, Nat.add_assoc]

/-- The loop over the subpackets is the one over lists. -/
theorem issuerLoop_eq (hcursor : cursor ≤ hashed.length) (hrounds : hashed.length - cursor ≤ rounds) :
    (issuerLoop hashed rounds cursor found >>= lift) =
      lift (issuerFrom rounds found (hashed.drop cursor)) := by
  induction rounds generalizing cursor found with
  | zero =>
    have hend : hashed.drop cursor = [] := List.drop_eq_nil_of_le (by omega)
    rw [issuerLoop, if_neg (by omega), hend, issuerFrom]
    rfl
  | succ rounds ih =>
    rw [issuerLoop]
    split
    · next hlt =>
      have hne : hashed.drop cursor ≠ [] := by simpa using hlt
      cases hspan : Trust.subpacketSpan (hashed.drop cursor) with
      | none =>
        rw [issuerStep, tail_eq hcursor, Except.ok_bind, subpacketSpan_eq, hspan,
          issuerFrom.eq_3 _ _ _ hne, hspan]
        rfl
      | some span =>
        obtain ⟨len, s, rest, hdata, hlen, -, -⟩ := subpacketSpan_iff.mp hspan
        have hpart : IsSubpacket s (len ++ s.type :: s.contents) := ⟨len, hlen, rfl⟩
        rw [issuerStep_eq hpart hdata hcursor, hdata, issuerFrom_eq_bind hpart]
        cases hnext : nextFound found s with
        | none => rfl
        | some found =>
          have hdrop : hashed.drop (cursor + (len ++ s.type :: s.contents).length) = rest := by
            rw [← List.drop_drop, hdata, List.drop_left]
          have hlength := congrArg List.length hdata
          simp only [List.length_drop, List.length_append, List.length_cons] at hlength
          rw [← hdrop]
          exact ih (by simp only [List.length_append, List.length_cons]; omega)
            (by simp only [List.length_append, List.length_cons]; omega)
    · next hle =>
      have hend : hashed.drop cursor = [] := List.drop_eq_nil_of_le (by omega)
      rw [hend]
      cases found <;> rfl

/-- The part of some bytes that a size within them cuts off. -/
theorem slice_eq_take_drop {data : List UInt8} {start size : Nat} (h : start + size ≤ data.length) :
    (data.slice start (start + size) : Reading _) = .ok ((data.drop start).take size) := by
  rw [List.slice_eq_ok (Nat.le_add_right _ _) h, Nat.add_sub_cancel_left]

theorem byte_eq_head? {data : List UInt8} {start : Nat} (h : start < data.length) :
    ∃ b, byte data start = .ok b ∧ (data.drop start).head? = some b := by
  refine ⟨data[start], byte_eq (List.getElem?_eq_getElem h), ?_⟩
  rw [List.head?_drop, List.getElem?_eq_getElem h]

theorem claimedIssuer_eq (packet : List UInt8) :
    claimedIssuer packet = lift (Trust.claimedIssuer packet) := by
  rw [claimedIssuer, packetSpan_eq, Trust.claimedIssuer]
  cases Trust.packetSpan packet with
  | none => rfl
  | some span =>
    simp only [lift_some, Except.ok_bind, Option.bind_eq_bind, Option.bind_some, refuse_bind]
    by_cases hshape : span.header + span.body ≠ packet.length ∨ span.tag ≠ 2 ∨ span.body < 6
    · rw [if_pos hshape, if_pos (by tauto)]
      rfl
    rw [if_neg hshape]
    simp only [not_or, not_not, Nat.not_lt] at hshape
    obtain ⟨hexact, htag, hsize⟩ := hshape
    obtain ⟨version, hbyte, hhead⟩ := @byte_eq_head? packet span.header (by omega)
    have hbody : (packet.drop span.header).length = span.body := by
      rw [List.length_drop]
      omega
    rw [hbyte, Except.ok_bind, hhead]
    by_cases hversion : version = 4
    · rw [if_neg (not_not.mpr hversion), if_neg (by simp [hexact, htag, hsize, hversion]),
        slice_eq_take_drop (Nat.le_of_eq hexact), Except.ok_bind,
        List.take_of_length_le (Nat.le_of_eq hbody), be_eq (by omega), Except.ok_bind,
        minus_eq hsize, Except.ok_bind]
      split
      · rfl
      next hle =>
      rw [slice_eq_take_drop (by omega), Except.ok_bind]
      have hlength := List.length_take_le (beNat (((packet.drop span.header).drop 4).take 2))
        ((packet.drop span.header).drop 6)
      exact issuerLoop_eq (Nat.zero_le _) hlength
    · rw [if_pos hversion, if_pos (by simp [hversion])]
      rfl

end

/-! ## The identity -/

section
variable {identities : List SignerIdentity} {fingerprint : String}

/-- The loop over the identities ends with the one that has the fingerprint. -/
theorem foldlM_selectStep (found : Option SignerIdentity) :
    identities.foldlM (selectStep fingerprint) found =
      match identities.filter (·.signing = fingerprint) with
      | [] => .ok found
      | [item] => if found.isSome then fail else .ok (some item)
      | _ => fail := by
  induction identities generalizing found with
  | nil => rfl
  | cons item identities ih =>
    rw [List.foldlM_cons, selectStep]
    by_cases heq : fingerprint = item.signing
    · rw [if_pos heq, List.filter_cons_of_pos (by simp [heq])]
      cases found with
      | some other =>
        rw [Option.isSome_some, if_pos rfl, fail_bind]
        cases identities.filter (·.signing = fingerprint) <;> rfl
      | none =>
        rw [Option.isSome_none, if_neg Bool.false_ne_true, Except.ok_bind, ih]
        cases identities.filter (·.signing = fingerprint) with
        | nil => rfl
        | cons second others => cases others <;> rfl
    · rw [if_neg heq, List.filter_cons_of_neg (by simpa using Ne.symm heq), Except.ok_bind, ih]

theorem findPacketSigner_eq (ring : Keyring) (packet : List UInt8) :
    findPacketSigner ring.identities packet = lift (Trust.findPacketSigner ring packet) := by
  rw [findPacketSigner, claimedIssuer_eq, Trust.findPacketSigner]
  cases Trust.claimedIssuer packet with
  | none => rfl
  | some fingerprint =>
    rw [lift_some, Except.ok_bind, foldlM_selectStep, Option.bind_eq_bind, Option.bind_some,
      Keyring.only]
    cases ring.identities.filter (·.signing = hexUpper fingerprint) with
    | nil => rfl
    | cons item others => cases others <;> rfl

/-- A packet is attributed to an identity exactly when it is one version 4 signature that claims the
identity's key, and no other identity has that key. -/
theorem findPacketSigner_eq_ok {packet : List UInt8} {identity : SignerIdentity} :
    findPacketSigner identities packet = .ok identity ↔ ∃ fingerprint, Claims packet fingerprint ∧
      identities.filter (·.signing = hexUpper fingerprint) = [identity] := by
  rw [findPacketSigner_eq ⟨[], identities⟩, lift_eq_ok, Trust.findPacketSigner, Option.bind_eq_bind,
    Option.bind_eq_some_iff]
  simp only [claimedIssuer_iff, Keyring.only_eq_some]

end

/-! ## Subkeys -/

section
variable (lib : Librpm)

theorem v4Fingerprint_eq (body : List UInt8) :
    v4Fingerprint lib body = .ok (Trust.v4Fingerprint lib body) := by
  unfold v4Fingerprint Trust.v4Fingerprint
  cases body with
  | nil => rfl
  | cons version rest =>
    have hfirst : byte (version :: rest) 0 = .ok version := rfl
    by_cases hsize : (version :: rest).length > 65535
    · rw [if_pos (Or.inl hsize), if_pos (Or.inl hsize)]
    · rw [if_neg (by simpa using hsize), hfirst, Except.ok_bind, List.head?_cons]
      by_cases hversion : version = 4
      · rw [if_neg (not_not.mpr hversion), if_neg (by simpa [hversion] using hsize)]
        rfl
      · rw [if_pos hversion, if_pos (by simp [hversion])]
        rfl

theorem matchKeyId_eq (keyId : String) (fingerprint : Option (List UInt8)) :
    matchKeyId keyId fingerprint = .ok (fingerprint.bind fun f =>
      if f.length = 20 ∧ hexUpper ((f.drop 12).take 8) = toUpper keyId then some (hexUpper f)
      else none) := by
  cases fingerprint with
  | none => rfl
  | some f =>
    rw [matchKeyId, Option.bind_some]
    by_cases hlength : f.length = 20
    · rw [if_pos hlength, List.slice_eq_ok (by decide) (by omega), Except.ok_bind]
      simp only [hlength, true_and]
      rfl
    · rw [if_neg hlength, if_neg (fun h => hlength h.1)]

/-- What a packet of a certificate gives, over lists. -/
def subkeyMatch (keyId : String) (span : Span) (rest : List UInt8) : Option String :=
  (if span.tag = 14 then Trust.v4Fingerprint lib ((rest.drop span.header).take span.body)
    else none).bind fun f =>
      if f.length = 20 ∧ hexUpper ((f.drop 12).take 8) = toUpper keyId then some (hexUpper f) else none

theorem subkeyAt_eq {keyId : String} {certificate : List UInt8} {offset : Nat} {span : Span}
    (h : offset + span.header + span.body ≤ certificate.length) :
    subkeyAt lib keyId certificate offset span =
      .ok (subkeyMatch lib keyId span (certificate.drop offset)) := by
  unfold subkeyAt subkeyMatch
  split
  · rw [slice_eq_take_drop h, Except.ok_bind, v4Fingerprint_eq, Except.ok_bind, matchKeyId_eq,
      List.drop_drop]
  · rfl

theorem subkeyFingerprint_succ {keyId : String} {certificate : List UInt8} {rounds : Nat}
    (hne : certificate ≠ []) : Trust.subkeyFingerprint lib keyId (rounds + 1) certificate =
      (Trust.packetSpan certificate).bind fun span => (subkeyMatch lib keyId span certificate).or
        (Trust.subkeyFingerprint lib keyId rounds (certificate.drop (span.header + span.body))) := by
  rw [Trust.subkeyFingerprint.eq_3 _ _ _ _ hne, Option.bind_eq_bind]
  congr 1
  funext span
  unfold subkeyMatch
  cases (if span.tag = 14 then Trust.v4Fingerprint lib ((certificate.drop span.header).take span.body)
    else none) with
  | none => rfl
  | some f =>
    simp only [Option.bind_some]
    split <;> rfl

theorem span_le {data : List UInt8} {span : Span} (h : Trust.packetSpan data = some span) :
    0 < span.header ∧ span.header + span.body ≤ data.length := by
  obtain ⟨tag, header, size⟩ := span
  obtain ⟨head, body, rest, rfl, hhead, rfl, rfl⟩ := packetSpan_iff.mp h
  obtain ⟨a, len, rfl, -, -⟩ := hhead.first
  simp only [List.length_append, List.length_cons]
  omega

theorem subkeyLoop_eq {keyId : String} {certificate : List UInt8} {rounds offset : Nat}
    (hoffset : offset ≤ certificate.length) (hrounds : certificate.length - offset ≤ rounds) :
    subkeyLoop lib keyId certificate rounds offset =
      lift (Trust.subkeyFingerprint lib keyId rounds (certificate.drop offset)) := by
  induction rounds generalizing offset with
  | zero =>
    have hend : certificate.drop offset = [] := List.drop_eq_nil_of_le (by omega)
    rw [subkeyLoop, if_neg (by omega), hend, Trust.subkeyFingerprint]
    rfl
  | succ rounds ih =>
    rw [subkeyLoop]
    split
    · next hlt =>
      rw [subkeyFingerprint_succ lib (by simpa using hlt), tail_eq hoffset, Except.ok_bind,
        packetSpan_eq]
      cases hspan : Trust.packetSpan (certificate.drop offset) with
      | none => rfl
      | some span =>
        obtain ⟨hpositive, hle⟩ := span_le hspan
        rw [List.length_drop] at hle
        rw [lift_some, Except.ok_bind, subkeyAt_eq lib (by omega), Except.ok_bind, Option.bind_some]
        cases subkeyMatch lib keyId span (certificate.drop offset) with
        | some fingerprint => rfl
        | none =>
          rw [Option.none_or, List.drop_drop, ← Nat.add_assoc]
          exact ih (by omega) (by omega)
    · next hle =>
      rw [List.drop_eq_nil_of_le (Nat.not_lt.mp hle), Trust.subkeyFingerprint]
      rfl

theorem subkeyFingerprint_eq (keyId : String) (certificate : List UInt8) :
    subkeyFingerprint lib keyId certificate =
      lift (Trust.subkeyFingerprint lib keyId certificate.length certificate) :=
  subkeyLoop_eq lib (Nat.zero_le _) (Nat.sub_le _ _)

/-! ## The signature header of a file -/

/-- The index and the data in one piece. -/
def contentsOf (area : SignatureArea) : Contents :=
  ⟨area.indexCount, area.data.length, area.index ++ area.data⟩

theorem headerIntro_eq (file : List UInt8) (start : Nat) : headerIntro file start =
    if ((file.drop start).take headerSize).length = headerSize ∧
      ((file.drop start).take headerSize).take 4 = [0x8e, 0xad, 0xe8, 1]
    then some ((file.drop start).take headerSize) else none := rfl

theorem readContents_eq (file : List UInt8) :
    readContents file = lift ((signatureArea file).map contentsOf) := by
  rw [readContents, signatureArea, headerIntro_eq]
  simp only []
  generalize (file.drop leadSize).take headerSize = intro
  rw [refuse_bind]
  by_cases hlength : intro.length = headerSize
  · have hsixteen : intro.length = 16 := hlength
    rw [if_neg (not_not.mpr hlength), List.slice_eq_ok (by decide) (by omega), Except.ok_bind,
      List.drop_zero, refuse_bind]
    by_cases hmagic : intro.take 4 = [0x8e, 0xad, 0xe8, 1]
    · rw [if_neg (not_not.mpr hmagic), if_pos ⟨hlength, hmagic⟩, be_eq (by omega), Except.ok_bind,
        be_eq (by omega), Except.ok_bind, refuse_bind]
      simp only [Option.bind_eq_bind, Option.bind_some, ← be32.eq_1]
      split
      · rfl
      rw [refuse_bind]
      generalize htotal : be32 (intro.drop 8) * 16 + be32 (intro.drop 12) = total
      by_cases hcontents : ((file.drop (leadSize + headerSize)).take total).length = total
      · rw [if_neg (not_not.mpr hcontents), if_neg (not_not.mpr hcontents), Option.map_some,
          lift_some, contentsOf, List.take_append_drop, List.length_drop, hcontents]
        have hdata : total - be32 (intro.drop 8) * 16 = be32 (intro.drop 12) := by omega
        rw [hdata]
        rfl
      · rw [if_pos hcontents, if_pos hcontents]
        rfl
    · rw [if_pos hmagic, if_neg (fun h => hmagic h.2)]
      rfl
  · rw [if_pos hlength, if_neg (fun h => hlength h.1)]
    rfl

theorem length_index {file : List UInt8} {area : SignatureArea} (h : signatureArea file = some area) :
    area.index.length = area.indexCount * 16 := by
  simp only [signatureArea, Option.bind_eq_bind, Option.bind_eq_some_iff] at h
  obtain ⟨intro, -, h⟩ := h
  split at h
  · cases h
  split at h
  · cases h
  next hlength =>
  rw [not_not] at hlength
  cases h
  rw [List.length_take, hlength]
  exact Nat.min_eq_left (Nat.le_add_right _ _)

theorem be_entry {area : SignatureArea} {i k : Nat} (hindex : area.index.length = area.indexCount * 16)
    (hi : i < area.indexCount) (hk : k + 4 ≤ 16) :
    be 4 (((contentsOf area).bytes.drop (i * 16)).take 16) k =
      .ok (be32 ((area.index.drop (i * 16)).drop k)) := by
  have hle : i * 16 + 16 ≤ area.index.length := by omega
  have hfront : ((contentsOf area).bytes.drop (i * 16)).take 16 = (area.index.drop (i * 16)).take 16 := by
    rw [contentsOf, List.drop_append_of_le_length (by omega), List.take_append_of_le_length
      (by rw [List.length_drop]; omega)]
  have hlength : ((area.index.drop (i * 16)).take 16).length = 16 := by
    rw [List.length_take, List.length_drop]
    omega
  rw [hfront, be_eq (by omega), be32, List.drop_take, List.take_take, Nat.min_eq_left (by omega)]

theorem findEncodedSigner_eq (ring : Keyring) (encoded : List UInt8) :
    findEncodedSigner lib ring.identities encoded = lift (Trust.findEncodedSigner lib ring encoded) := by
  rw [findEncodedSigner, Trust.findEncodedSigner]
  cases lib.base64Decode encoded with
  | none => rfl
  | some packet => exact findPacketSigner_eq ring packet

theorem drop_contents {area : SignatureArea} (hindex : area.index.length = area.indexCount * 16)
    (offset : Nat) :
    (contentsOf area).bytes.drop ((contentsOf area).indexBytes + offset) = area.data.drop offset := by
  rw [contentsOf, Contents.indexBytes, ← hindex, List.drop_length_add_append]

theorem entrySigner_eq (ring : Keyring) {area : SignatureArea} {i : Nat}
    (hindex : area.index.length = area.indexCount * 16) (hi : i < area.indexCount) :
    entrySigner lib ring.identities (contentsOf area) i =
      .ok ((entryPacket lib.base64Decode area i).bind (Trust.findPacketSigner ring)) := by
  have hbytes : (contentsOf area).bytes.length = area.indexCount * 16 + area.data.length := by
    rw [contentsOf, List.length_append, hindex]
  have hstart : (contentsOf area).indexBytes = area.indexCount * 16 := rfl
  rw [entrySigner, slice_eq_take_drop (by omega), Except.ok_bind, be_entry hindex hi (by decide),
    Except.ok_bind, be_entry hindex hi (by decide), Except.ok_bind, be_entry hindex hi (by decide),
    Except.ok_bind, be_entry hindex hi (by decide), Except.ok_bind, entryPacket]
  simp only [List.drop_zero]
  have hsize : (contentsOf area).dataSize = area.data.length := rfl
  rw [hsize]
  generalize be32 ((area.index.drop (i * 16)).drop 8) = offset
  generalize be32 ((area.index.drop (i * 16)).drop 12) = count
  split
  · next hpacket =>
    rw [slice_eq_take_drop (by omega), Except.ok_bind, drop_contents hindex, findPacketSigner_eq,
      orNull_lift]
    rfl
  split
  · rfl
  next htext =>
  rw [not_or, not_not, Nat.not_le] at htext
  have hlast : (contentsOf area).indexBytes + area.data.length =
      (contentsOf area).indexBytes + offset + (area.data.length - offset) := by omega
  rw [hlast, slice_eq_take_drop (by omega), Except.ok_bind, drop_contents hindex,
    List.take_of_length_le (Nat.le_of_eq List.length_drop)]
  split
  · rw [findEncodedSigner_eq, orNull_lift]
    rfl
  · rfl

theorem entryLoop_eq (ring : Keyring) {area : SignatureArea}
    (hindex : area.index.length = area.indexCount * 16) {indices : List Nat}
    (hindices : ∀ i ∈ indices, i < area.indexCount) :
    entryLoop lib ring.identities (contentsOf area) indices = .ok (indices.findSome? fun i =>
      (entryPacket lib.base64Decode area i).bind (Trust.findPacketSigner ring)) := by
  induction indices with
  | nil => rfl
  | cons i indices ih =>
    rw [List.forall_mem_cons] at hindices
    rw [entryLoop, entrySigner_eq lib ring hindex hindices.1, Except.ok_bind, List.findSome?_cons]
    cases (entryPacket lib.base64Decode area i).bind (Trust.findPacketSigner ring) with
    | some signer => rfl
    | none => exact ih hindices.2

theorem findFdSigner_eq (ring : Keyring) (file : List UInt8) :
    findFdSigner lib ring.identities file = lift (Trust.findFdSigner lib ring file) := by
  rw [findFdSigner, readContents_eq, Trust.findFdSigner]
  cases harea : signatureArea file with
  | none => rfl
  | some area =>
    have hcount : (contentsOf area).indexCount = area.indexCount := rfl
    rw [Option.map_some, lift_some, Except.ok_bind, hcount,
      entryLoop_eq lib ring (length_index harea) fun i hi => List.mem_range.mp hi]
    rfl

end

/-- **Whom a packet is attributed to.** A packet is attributed to an identity exactly when it is one
version 4 signature packet of a definite length, whose hashed part splits into subpackets of which
exactly one is an issuer fingerprint, of version 4 and 20 bytes, and the identity is the only one with
that signing fingerprint. Whatever the bytes are, the readers of packets, subpackets, certificates and
signature headers read inside them and end. -/
theorem find_packet_signer_spec (lib : Librpm) :
    (∀ (identities : List SignerIdentity) (packet : List UInt8) (identity : SignerIdentity),
      findPacketSigner identities packet = .ok identity ↔ ∃ fingerprint, Claims packet fingerprint ∧
        identities.filter (·.signing = hexUpper fingerprint) = [identity]) ∧
    (∀ data, Safe (packetSpan data) ∧ Safe (subpacketSpan data)) ∧
    (∀ identities packet, Safe (findPacketSigner identities packet)) ∧
    (∀ keyId certificate, Safe (subkeyFingerprint lib keyId certificate)) ∧
    ∀ identities file, Safe (findFdSigner lib identities file) := by
  refine ⟨fun _ _ _ => findPacketSigner_eq_ok, ?_, ?_, ?_, ?_⟩
  · intro data
    rw [packetSpan_eq, subpacketSpan_eq]
    exact ⟨safe_lift _, safe_lift _⟩
  · intro identities packet
    rw [findPacketSigner_eq ⟨[], identities⟩]
    exact safe_lift _
  · intro keyId certificate
    rw [subkeyFingerprint_eq]
    exact safe_lift _
  · intro identities file
    rw [findFdSigner_eq lib ⟨[], identities⟩]
    exact safe_lift _

/-! A signature with a second issuer fingerprint, of version 5. -/

def issuer (k : UInt8) : Subpacket := ⟨33, 4 :: List.replicate 20 k⟩

def otherIssuer : Subpacket := ⟨33, [5]⟩

def twoIssuers (k : UInt8) : List UInt8 := (22 :: 33 :: 4 :: List.replicate 20 k) ++ [2, 33, 5]

def twoIssuersBody (k : UInt8) : List UInt8 :=
  [4, 0, 1, 8, 0, 26] ++ twoIssuers k ++ [0, 0, 0xab, 0xcd, 0, 1, 1]

def twoIssuersPacket (k : UInt8) : List UInt8 := [0xc2, 39] ++ twoIssuersBody k

/-- One subpacket is an issuer fingerprint of version 4 and 20 bytes, and one identity has it, but the
packet is not attributed. -/
theorem second_issuer_refused :
    IsPacket 2 (twoIssuersBody 0xaa) (twoIssuersPacket 0xaa) ∧
    IsSignatureBody (twoIssuersBody 0xaa) (twoIssuers 0xaa) ∧
    Splits [issuer 0xaa, otherIssuer] (twoIssuers 0xaa) ∧
    [issuer 0xaa, otherIssuer].filter (fun s => s.isIssuer && s.contents.length == 21 &&
      s.contents.head? == some 4) = [⟨33, 4 :: List.replicate 20 0xaa⟩] ∧
    [identityNamed 0xaa].filter (·.signing = hexUpper (List.replicate 20 0xaa)) =
      [identityNamed 0xaa] ∧
    findPacketSigner [identityNamed 0xaa] (twoIssuersPacket 0xaa) = fail := by
  refine ⟨?_, ?_, ?_, by decide +kernel, by decide +kernel, ?_⟩
  · exact ⟨[0xc2, 39], .new (by decide) rfl (.one (by decide)), rfl⟩
  · exact ⟨0, 1, 8, 0, 26, [0, 0, 0xab, 0xcd, 0, 1, 1], rfl, rfl⟩
  · have hfirst : IsSubpacket (issuer 0xaa) (22 :: 33 :: 4 :: List.replicate 20 0xaa) :=
      ⟨[22], .one (by decide), rfl⟩
    have hsecond : IsSubpacket otherIssuer [2, 33, 5] := ⟨[2], .one (by decide), rfl⟩
    exact .cons hfirst (.cons hsecond .nil)
  · rw [findPacketSigner_eq ⟨[], [identityNamed 0xaa]⟩]
    have hnone : Trust.claimedIssuer (twoIssuersPacket 0xaa) = none := by decide +kernel
    rw [Trust.findPacketSigner, hnone]
    rfl

end Dnfast.Trust.Reads
