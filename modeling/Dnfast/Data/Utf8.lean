import Dnfast.Data.Bytes
import Dnfast.Data.Slice

/-! # Slices of texts

A range of bytes of a text is a text of its own when both of its ends lie between two characters. -/

namespace String

/-- The byte does not continue a character. -/
def startsChar (b : UInt8) : Bool := b.toNat < 128 || 192 ≤ b.toNat

/-- `is_char_boundary`. -/
def isCharBoundary (s : String) (i : Nat) : Bool :=
  i = 0 || i = s.utf8ByteSize || s.asBytes[i]?.any startsChar

/-- `&s[start..stop]`. -/
def byteSlice {ε : Type} (s : String) (start stop : Nat) : Except (Fault ε) String := do
  let bytes ← s.asBytes.slice start stop
  if s.isCharBoundary start && s.isCharBoundary stop then
    match ofBytes? bytes with
    | some text => .ok text
    | none => .error .panic
  else .error .panic

/-- The bytes before a character. -/
def bytesOf (cs : List Char) : Nat := (cs.map Char.utf8Size).sum

@[simp] theorem bytesOf_nil : bytesOf [] = 0 := rfl

@[simp] theorem bytesOf_cons (c : Char) (cs : List Char) :
    bytesOf (c :: cs) = c.utf8Size + bytesOf cs := List.sum_cons

@[simp] theorem bytesOf_append (cs ds : List Char) :
    bytesOf (cs ++ ds) = bytesOf cs + bytesOf ds := by
  rw [bytesOf, List.map_append, List.sum_append]
  rfl

theorem asBytes_ofList (cs : List Char) : (ofList cs).asBytes = cs.flatMap utf8EncodeChar := by
  rw [asBytes_eq_flatMap, toList_ofList]

@[simp] theorem length_flatMap_utf8EncodeChar (cs : List Char) :
    (cs.flatMap utf8EncodeChar).length = bytesOf cs := by
  induction cs with
  | nil => rfl
  | cons c cs ih => rw [List.flatMap_cons, List.length_append, length_utf8EncodeChar, ih, bytesOf_cons]

theorem utf8ByteSize_ofChars (cs : List Char) : (ofList cs).utf8ByteSize = bytesOf cs := by
  rw [← length_asBytes, asBytes_ofList, length_flatMap_utf8EncodeChar]

theorem bytesOf_toList (s : String) : bytesOf s.toList = s.utf8ByteSize := by
  rw [← utf8ByteSize_ofChars, ofList_toList]

/-- A character of ASCII is one byte. -/
theorem utf8EncodeChar_of_lt {c : Char} (h : c.toNat < 128) :
    utf8EncodeChar c = [UInt8.ofNat c.toNat] := by
  have hc : c.val.toNat ≤ 127 := Nat.lt_succ_iff.mp h
  rw [utf8EncodeChar, if_pos hc]
  rfl

/-- The first byte of a character outside of ASCII, and those that continue it. -/
theorem utf8EncodeChar_of_le {c : Char} (h : 128 ≤ c.toNat) : ∃ b bs,
    utf8EncodeChar c = b :: bs ∧ 192 ≤ b.toNat ∧ ∀ d ∈ bs, 128 ≤ d.toNat := by
  have hc : ¬ c.val.toNat ≤ 127 := Nat.not_le.mpr h
  rw [utf8EncodeChar, if_neg hc]
  split
  · refine ⟨_, _, rfl, ?_, ?_⟩
    · rw [UInt8.toNat_ofNat']
      omega
    · intro d hd
      rw [List.mem_singleton.mp hd, UInt8.toNat_ofNat']
      omega
  split
  · refine ⟨_, _, rfl, ?_, ?_⟩
    · rw [UInt8.toNat_ofNat']
      omega
    · intro d hd
      simp only [List.mem_cons, List.not_mem_nil, or_false] at hd
      rcases hd with rfl | rfl
      all_goals
        rw [UInt8.toNat_ofNat']
        omega
  · refine ⟨_, _, rfl, ?_, ?_⟩
    · rw [UInt8.toNat_ofNat']
      omega
    · intro d hd
      simp only [List.mem_cons, List.not_mem_nil, or_false] at hd
      rcases hd with rfl | rfl | rfl
      all_goals
        rw [UInt8.toNat_ofNat']
        omega

theorem exists_utf8EncodeChar (c : Char) :
    ∃ b bs, utf8EncodeChar c = b :: bs ∧ startsChar b = true := by
  rcases Nat.lt_or_ge c.toNat 128 with hlt | hge
  · refine ⟨_, _, utf8EncodeChar_of_lt hlt, ?_⟩
    rw [startsChar, UInt8.toNat_ofNat', Nat.mod_eq_of_lt (by omega)]
    simp [hlt]
  · obtain ⟨b, bs, hc, hb, -⟩ := utf8EncodeChar_of_le hge
    exact ⟨b, bs, hc, by simp [startsChar, hb]⟩

theorem isCharBoundary_ofList (before after : List Char) :
    (ofList (before ++ after)).isCharBoundary (bytesOf before) = true := by
  rw [isCharBoundary]
  cases after with
  | nil =>
    rw [List.append_nil, utf8ByteSize_ofChars]
    simp
  | cons c after =>
    obtain ⟨b, bs, hc, hb⟩ := exists_utf8EncodeChar c
    have hget : (ofList (before ++ c :: after)).asBytes[bytesOf before]? = some b := by
      rw [asBytes_ofList, List.flatMap_append, List.flatMap_cons, hc,
        List.getElem?_append_right (length_flatMap_utf8EncodeChar before).le,
        length_flatMap_utf8EncodeChar, Nat.sub_self]
      rfl
    rw [hget, Option.any_some, hb, Bool.or_true]

/-- The slice between two characters. -/
theorem byteSlice_ofList {ε : Type} (before middle after : List Char) :
    ((ofList (before ++ middle ++ after)).byteSlice (bytesOf before) (bytesOf before + bytesOf middle) :
      Except (Fault ε) String) = .ok (ofList middle) := by
  have hstop := isCharBoundary_ofList (before ++ middle) after
  have hstart := isCharBoundary_ofList before (middle ++ after)
  rw [bytesOf_append] at hstop
  rw [← List.append_assoc] at hstart
  have hbytes : (ofList (before ++ middle ++ after)).asBytes =
      before.flatMap utf8EncodeChar ++ (middle.flatMap utf8EncodeChar ++ after.flatMap utf8EncodeChar) := by
    rw [asBytes_ofList, List.flatMap_append, List.flatMap_append, List.append_assoc]
  have hcut : ((ofList (before ++ middle ++ after)).asBytes.drop (bytesOf before)).take (bytesOf middle) =
      (ofList middle).asBytes := by
    rw [hbytes, List.drop_left' (length_flatMap_utf8EncodeChar before),
      List.take_left' (length_flatMap_utf8EncodeChar middle), asBytes_ofList]
  have hle : bytesOf before + bytesOf middle ≤ (ofList (before ++ middle ++ after)).asBytes.length := by
    rw [length_asBytes, utf8ByteSize_ofChars, bytesOf_append, bytesOf_append]
    exact Nat.le_add_right _ _
  rw [byteSlice, List.slice_eq_ok (Nat.le_add_right _ _) hle, Nat.add_sub_cancel_left, hcut]
  simp only [bind, Except.bind, hstart, hstop, Bool.and_self, if_true, ofBytes?_asBytes]

end String
