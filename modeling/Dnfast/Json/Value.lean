import Mathlib.Algebra.GroupWithZero.Nat
import Mathlib.Data.List.Basic

/-! # JSON values and their compact rendering

`Json.Value.render` is the compact rendering of a JSON value as bytes: no white space, object
members in the order given, strings escaped with the short escapes where there is one and
`\u00XX` for the other control characters. The order of the members is the caller's: a document
whose members are sorted by key is rendered in canonical order.

`Json.Value.depth` is the number of brackets open at the deepest point of the rendering, and the
`length_render` lemmas give its size member by member. -/

namespace Json

/-- The bytes of an ASCII text. -/
def ascii (s : String) : List UInt8 := s.toList.map fun c => UInt8.ofNat c.toNat

/-- A lowercase hexadecimal digit. -/
def hexDigit (n : Nat) : UInt8 := UInt8.ofNat (if n < 10 then 48 + n else 87 + n)

/-- The letter after the backslash in the short escape of a character that has one. -/
def shortEscape (c : Char) : Option UInt8 :=
  match c.toNat with
  | 0x22 => some 0x22
  | 0x5c => some 0x5c
  | 0x08 => some 0x62
  | 0x09 => some 0x74
  | 0x0a => some 0x6e
  | 0x0c => some 0x66
  | 0x0d => some 0x72
  | _ => none

/-- A character inside a string literal. -/
def escapeChar (c : Char) : List UInt8 :=
  match shortEscape c with
  | some letter => [0x5c, letter]
  | none =>
    if c.toNat < 0x20 then
      [0x5c, 0x75, 0x30, 0x30, hexDigit (c.toNat / 16), hexDigit (c.toNat % 16)]
    else String.utf8EncodeChar c

/-- A string literal with its quotes. -/
def renderString (s : String) : List UInt8 := 0x22 :: (s.toList.flatMap escapeChar ++ [0x22])

/-- A decimal numeral. -/
def renderNat (n : Nat) : List UInt8 := (Nat.toDigits 10 n).map fun c => UInt8.ofNat c.toNat

def renderInt : Int → List UInt8
  | .ofNat n => renderNat n
  | .negSucc n => 0x2d :: renderNat (n + 1)

/-! ## Plain bytes -/

/-- A byte that is neither a quote nor a backslash. -/
def Plain (b : UInt8) : Prop := b ≠ 0x22 ∧ b ≠ 0x5c

theorem plain_of_le {b : UInt8} (h : 128 ≤ b.toNat) : Plain b := by
  constructor <;> rintro rfl <;> revert h <;> decide

theorem plain_hexDigit : ∀ n < 16, Plain (hexDigit n) := by
  unfold Plain
  decide

/-- A character outside ASCII is encoded in bytes from 128 on. -/
theorem le_of_mem_utf8EncodeChar {c : Char} (h : 127 < c.toNat) {b : UInt8}
    (hb : b ∈ String.utf8EncodeChar c) : 128 ≤ b.toNat := by
  have hc : ¬ c.val.toNat ≤ 127 := by
    change ¬ c.toNat ≤ 127
    omega
  simp only [String.utf8EncodeChar, if_neg hc] at hb
  split at hb
  · simp only [List.mem_cons, List.not_mem_nil, or_false] at hb
    rcases hb with rfl | rfl
    all_goals
      rw [UInt8.toNat_ofNat']
      omega
  split at hb
  · simp only [List.mem_cons, List.not_mem_nil, or_false] at hb
    rcases hb with rfl | rfl | rfl
    all_goals
      rw [UInt8.toNat_ofNat']
      omega
  · simp only [List.mem_cons, List.not_mem_nil, or_false] at hb
    rcases hb with rfl | rfl | rfl | rfl
    all_goals
      rw [UInt8.toNat_ofNat']
      omega

/-- The UTF-8 bytes of a character with no short escape are plain. -/
theorem plain_utf8EncodeChar {c : Char} (h : shortEscape c = none) :
    ∀ b ∈ String.utf8EncodeChar c, Plain b := by
  intro b hb
  by_cases hc : c.toNat ≤ 127
  · have hb' : b = UInt8.ofNat c.toNat := by
      simpa [String.utf8EncodeChar, hc] using hb
    have hne : ∀ n, shortEscape (Char.ofNat n) ≠ none → c.toNat ≠ n := by
      rintro n hn rfl
      simp [Char.ofNat_toNat, h] at hn
    have h1 := hne 0x22 (by decide)
    have h2 := hne 0x5c (by decide)
    constructor
    all_goals
      intro hbe
      have := congrArg UInt8.toNat (hb'.symm.trans hbe)
      rw [UInt8.toNat_ofNat'] at this
      simp at this
      omega
  · exact plain_of_le (le_of_mem_utf8EncodeChar (by omega) hb)

inductive Value where
  | null
  | bool (b : Bool)
  | num (n : Int)
  | str (s : String)
  | arr (elems : List Value)
  | obj (members : List (String × Value))

namespace Value

mutual

def render : Value → List UInt8
  | .null => ascii "null"
  | .bool true => ascii "true"
  | .bool false => ascii "false"
  | .num n => renderInt n
  | .str s => renderString s
  | .arr [] => [0x5b, 0x5d]
  | .arr (v :: vs) => 0x5b :: (v.render ++ renderElems vs ++ [0x5d])
  | .obj [] => [0x7b, 0x7d]
  | .obj ((k, v) :: ms) =>
    0x7b :: (renderString k ++ 0x3a :: v.render ++ renderMembers ms ++ [0x7d])

/-- The elements after the first, each behind its comma. -/
def renderElems : List Value → List UInt8
  | [] => []
  | v :: vs => 0x2c :: (v.render ++ renderElems vs)

/-- The members after the first, each behind its comma. -/
def renderMembers : List (String × Value) → List UInt8
  | [] => []
  | (k, v) :: ms => 0x2c :: (renderString k ++ 0x3a :: v.render ++ renderMembers ms)

end

mutual

/-- The number of brackets open at the deepest point. -/
def depth : Value → Nat
  | .arr vs => depthElems vs + 1
  | .obj ms => depthMembers ms + 1
  | _ => 0

def depthElems : List Value → Nat
  | [] => 0
  | v :: vs => max v.depth (depthElems vs)

def depthMembers : List (String × Value) → Nat
  | [] => 0
  | (_, v) :: ms => max v.depth (depthMembers ms)

end

mutual

/-- Every string of the value, object keys included, satisfies `p`. -/
def allStrings (p : String → Bool) : Value → Bool
  | .str s => p s
  | .arr vs => allStringsElems p vs
  | .obj ms => allStringsMembers p ms
  | _ => true

def allStringsElems (p : String → Bool) : List Value → Bool
  | [] => true
  | v :: vs => v.allStrings p && allStringsElems p vs

def allStringsMembers (p : String → Bool) : List (String × Value) → Bool
  | [] => true
  | (k, v) :: ms => p k && v.allStrings p && allStringsMembers p ms

end

@[simp] theorem depthElems_map_str (l : List String) : depthElems (l.map str) = 0 := by
  induction l with
  | nil => rfl
  | cons s l ih => simp [depthElems, depth, ih]

@[simp] theorem allStringsElems_map_str (p : String → Bool) (l : List String) :
    allStringsElems p (l.map str) = l.all p := by
  induction l with
  | nil => rfl
  | cons s l ih => simp [allStringsElems, allStrings, ih]

theorem depthElems_le {vs : List Value} {n : Nat} (h : ∀ v ∈ vs, v.depth ≤ n) :
    depthElems vs ≤ n := by
  induction vs with
  | nil => exact Nat.zero_le n
  | cons v vs ih =>
    obtain ⟨hv, hvs⟩ := List.forall_mem_cons.mp h
    exact Nat.max_le.mpr ⟨hv, ih hvs⟩

theorem depthMembers_le {ms : List (String × Value)} {n : Nat} (h : ∀ m ∈ ms, m.2.depth ≤ n) :
    depthMembers ms ≤ n := by
  induction ms with
  | nil => exact Nat.zero_le n
  | cons m ms ih =>
    obtain ⟨hm, hms⟩ := List.forall_mem_cons.mp h
    exact Nat.max_le.mpr ⟨hm, ih hms⟩

theorem allStringsElems_eq_true {p : String → Bool} {vs : List Value} :
    allStringsElems p vs = true ↔ ∀ v ∈ vs, v.allStrings p = true := by
  induction vs with
  | nil => simp [allStringsElems]
  | cons v vs ih => simp [allStringsElems, ih]

theorem allStringsMembers_eq_true {p : String → Bool} {ms : List (String × Value)} :
    allStringsMembers p ms = true ↔ ∀ m ∈ ms, p m.1 = true ∧ m.2.allStrings p = true := by
  induction ms with
  | nil => simp [allStringsMembers]
  | cons m ms ih => simp [allStringsMembers, ih, and_assoc]

/-! ## Sizes -/

/-- The bytes of a rendering. -/
def size (v : Value) : Nat := v.render.length

/-- The bytes that the elements of an array take, each with its comma or closing bracket. -/
def sizeElems (vs : List Value) : Nat := (vs.map fun v => v.size + 1).sum

/-- The bytes that the members of an object take, each with its colon and its comma or closing
bracket. -/
def sizeMembers (ms : List (String × Value)) : Nat :=
  (ms.map fun m => (renderString m.1).length + m.2.size + 2).sum

@[simp] theorem sizeElems_nil : sizeElems [] = 0 := rfl

@[simp] theorem sizeElems_cons (v : Value) (vs : List Value) :
    sizeElems (v :: vs) = v.size + 1 + sizeElems vs := by
  simp [sizeElems]

@[simp] theorem sizeMembers_nil : sizeMembers [] = 0 := rfl

@[simp] theorem sizeMembers_cons (k : String) (v : Value) (ms : List (String × Value)) :
    sizeMembers ((k, v) :: ms) = (renderString k).length + v.size + 2 + sizeMembers ms := by
  simp [sizeMembers]

theorem length_renderElems (vs : List Value) : (renderElems vs).length = sizeElems vs := by
  induction vs with
  | nil => rfl
  | cons v vs ih => simp [renderElems, size, ih]; omega

theorem length_renderMembers (ms : List (String × Value)) :
    (renderMembers ms).length = sizeMembers ms := by
  induction ms with
  | nil => rfl
  | cons m ms ih =>
    obtain ⟨k, v⟩ := m
    simp [renderMembers, size, ih]; omega

@[simp] theorem size_str (s : String) : (str s).size = (renderString s).length := by
  simp [size, render]

@[simp] theorem size_num (n : Int) : (num n).size = (renderInt n).length := by
  simp [size, render]

@[simp] theorem size_bool_le (b : Bool) : (bool b).size ≤ 5 := by
  cases b <;> decide

/-- An array takes one byte for its opening bracket, one more when it is empty. -/
theorem size_arr (vs : List Value) :
    (arr vs).size = 1 + sizeElems vs + if vs = [] then 1 else 0 := by
  cases vs with
  | nil => rfl
  | cons v vs => simp [size, render, length_renderElems]; omega

theorem size_obj (ms : List (String × Value)) :
    (obj ms).size = 1 + sizeMembers ms + if ms = [] then 1 else 0 := by
  cases ms with
  | nil => rfl
  | cons m ms =>
    obtain ⟨k, v⟩ := m
    simp [size, render, length_renderMembers]; omega

/-! ## Equality -/

mutual

def same : Value → Value → Bool
  | .null, .null => true
  | .bool a, .bool b => a == b
  | .num a, .num b => a == b
  | .str a, .str b => a == b
  | .arr vs, .arr ws => sameElems vs ws
  | .obj ms, .obj ns => sameMembers ms ns
  | _, _ => false

def sameElems : List Value → List Value → Bool
  | [], [] => true
  | v :: vs, w :: ws => same v w && sameElems vs ws
  | _, _ => false

def sameMembers : List (String × Value) → List (String × Value) → Bool
  | [], [] => true
  | (k, v) :: ms, (l, w) :: ns => k == l && same v w && sameMembers ms ns
  | _, _ => false

end

mutual

theorem same_iff (v w : Value) : same v w = true ↔ v = w := by
  match v, w with
  | .arr vs, .arr ws => rw [same, sameElems_iff, arr.injEq]
  | .obj ms, .obj ns => rw [same, sameMembers_iff, obj.injEq]
  | .null, w | .bool _, w | .num _, w | .str _, w => cases w <;> simp [same]
  | .arr vs, .null | .arr vs, .bool _ | .arr vs, .num _ | .arr vs, .str _ | .arr vs, .obj _ =>
    simp [same]
  | .obj vs, .null | .obj vs, .bool _ | .obj vs, .num _ | .obj vs, .str _ | .obj vs, .arr _ =>
    simp [same]

theorem sameElems_iff (vs ws : List Value) : sameElems vs ws = true ↔ vs = ws := by
  match vs, ws with
  | [], [] => simp [sameElems]
  | [], _ :: _ | _ :: _, [] => simp [sameElems]
  | v :: vs, w :: ws =>
    rw [sameElems, Bool.and_eq_true, same_iff v w, sameElems_iff vs ws, List.cons.injEq]

theorem sameMembers_iff (ms ns : List (String × Value)) : sameMembers ms ns = true ↔ ms = ns := by
  match ms, ns with
  | [], [] => simp [sameMembers]
  | [], _ :: _ | _ :: _, [] => simp [sameMembers]
  | (k, v) :: ms, (l, w) :: ns =>
    rw [sameMembers, Bool.and_eq_true, Bool.and_eq_true, beq_iff_eq, same_iff v w,
      sameMembers_iff ms ns, List.cons.injEq, Prod.mk.injEq]

end

instance : DecidableEq Value := fun v w => decidable_of_iff _ (same_iff v w)

end Value

end Json
