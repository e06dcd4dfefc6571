import Dnfast.Data.Bytes
import Dnfast.Json.Value

/-! # A bound on the size of a document

`Json.Value.weight` bounds the size of a rendering from the sizes of the strings in it, without
rendering them. -/

namespace Json

theorem length_escapeChar_le_six_mul (c : Char) :
    (escapeChar c).length ≤ 6 * (String.utf8EncodeChar c).length := by
  have hpos : 1 ≤ (String.utf8EncodeChar c).length := by
    rw [String.length_utf8EncodeChar]
    exact c.utf8Size_pos
  unfold escapeChar
  split
  · simp only [List.length_cons, List.length_nil]
    omega
  · split
    · simp only [List.length_cons, List.length_nil]
      omega
    · omega

theorem length_renderString_le_utf8ByteSize (s : String) :
    (renderString s).length ≤ 6 * s.utf8ByteSize + 2 := by
  have h : ∀ cs : List Char, (cs.flatMap escapeChar).length ≤
      6 * (cs.flatMap String.utf8EncodeChar).length := by
    intro cs
    induction cs with
    | nil => simp
    | cons c cs ih =>
      have := length_escapeChar_le_six_mul c
      simp only [List.flatMap_cons, List.length_append]
      omega
  have hs := h s.toList
  rw [← String.asBytes_eq_flatMap, String.length_asBytes] at hs
  simp only [renderString, List.length_cons, List.length_append, List.length_nil]
  omega

namespace Value

mutual

def weight : Value → Nat
  | .null => 4
  | .bool _ => 5
  | .num n => (renderInt n).length
  | .str s => 6 * s.utf8ByteSize + 2
  | .arr vs => weightElems vs + 2
  | .obj ms => weightMembers ms + 2

def weightElems : List Value → Nat
  | [] => 0
  | v :: vs => v.weight + 1 + weightElems vs

def weightMembers : List (String × Value) → Nat
  | [] => 0
  | (k, v) :: ms => 6 * k.utf8ByteSize + 4 + v.weight + weightMembers ms

end

mutual

theorem size_le_weight (v : Value) : v.size ≤ v.weight := by
  cases v with
  | null => decide
  | bool b => exact size_bool_le b
  | num n => rw [size_num, weight]
  | str s =>
    rw [size_str, weight]
    exact length_renderString_le_utf8ByteSize s
  | arr vs =>
    have := sizeElems_le_weightElems vs
    rw [size_arr, weight]
    split <;> omega
  | obj ms =>
    have := sizeMembers_le_weightMembers ms
    rw [size_obj, weight]
    split <;> omega

theorem sizeElems_le_weightElems (vs : List Value) : sizeElems vs ≤ weightElems vs := by
  cases vs with
  | nil => exact Nat.le_refl 0
  | cons v vs =>
    have hv := size_le_weight v
    have hvs := sizeElems_le_weightElems vs
    rw [sizeElems_cons, weightElems]
    omega

theorem sizeMembers_le_weightMembers (ms : List (String × Value)) :
    sizeMembers ms ≤ weightMembers ms := by
  match ms with
  | [] => exact Nat.le_refl 0
  | (k, v) :: ms =>
    have hk := length_renderString_le_utf8ByteSize k
    have hv := size_le_weight v
    have hms := sizeMembers_le_weightMembers ms
    rw [sizeMembers_cons, weightMembers]
    omega

end

end Value

end Json
