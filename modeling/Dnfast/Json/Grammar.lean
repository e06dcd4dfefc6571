import Mathlib.Data.Bool.AllAny
import Dnfast.Json.Value

/-! # The grammar of JSON documents

What a well-formed document is, as text: `Part` derives the bytes of a value, of the elements of
an array and of the members of an object, white space included, with the number of brackets open
at the deepest point and the string literals in the order in which they stand. Member names are
string literals like any other.

A string literal is a list of `StringItem`s: a character of the text, an escape of two characters,
or a `\u` escape with its four digits. -/

namespace Json

/-- White space between the tokens. -/
def IsSpace (bytes : List UInt8) : Prop := ∀ b ∈ bytes, b ∈ [0x20, 0x09, 0x0a, 0x0d]

def IsDigit (b : UInt8) : Prop := 0x30 ≤ b ∧ b ≤ 0x39

def IsHex (b : UInt8) : Prop :=
  IsDigit b ∨ (0x41 ≤ b ∧ b ≤ 0x46) ∨ (0x61 ≤ b ∧ b ≤ 0x66)

/-- A nonempty run of digits. -/
def IsDigits (bytes : List UInt8) : Prop := bytes ≠ [] ∧ ∀ b ∈ bytes, IsDigit b

/-- The integer part of a number: no leading zero. -/
def IsInteger (bytes : List UInt8) : Prop :=
  bytes = [0x30] ∨ IsDigits bytes ∧ bytes.head? ≠ some 0x30

def IsFraction (bytes : List UInt8) : Prop :=
  bytes = [] ∨ ∃ digits, IsDigits digits ∧ bytes = 0x2e :: digits

def IsExponent (bytes : List UInt8) : Prop :=
  bytes = [] ∨ ∃ e sign digits, e ∈ [0x45, 0x65] ∧ sign ∈ [[], [0x2b], [0x2d]] ∧
    IsDigits digits ∧ bytes = e :: (sign ++ digits)

def IsNumber (bytes : List UInt8) : Prop :=
  ∃ sign whole fraction exponent, sign ∈ [[], [0x2d]] ∧ IsInteger whole ∧ IsFraction fraction ∧
    IsExponent exponent ∧ bytes = sign ++ whole ++ fraction ++ exponent

/-- One item of a string literal. -/
inductive StringItem where
  | char (c : Char)
  | escape (letter : UInt8)
  | unicode (a b c d : UInt8)

namespace StringItem

def WellFormed : StringItem → Prop
  | char c => 0x20 ≤ c.toNat ∧ c.toNat ≠ 0x22 ∧ c.toNat ≠ 0x5c
  | escape letter => letter ∈ [0x22, 0x5c, 0x2f, 0x62, 0x66, 0x6e, 0x72, 0x74]
  | unicode a b c d => IsHex a ∧ IsHex b ∧ IsHex c ∧ IsHex d

def bytes : StringItem → List UInt8
  | char c => String.utf8EncodeChar c
  | escape letter => [0x5c, letter]
  | unicode a b c d => [0x5c, 0x75, a, b, c, d]

/-- The bytes of the item, the two characters of an escape pair counted as one. -/
def size : StringItem → Nat
  | char c => c.utf8Size
  | escape _ => 1
  | unicode .. => 5

end StringItem

/-- The literal with the given items. -/
def literal (items : List StringItem) : List UInt8 :=
  0x22 :: (items.flatMap StringItem.bytes ++ [0x22])

/-- The bytes of a string literal, the two characters of each escape pair counted as one. -/
def literalSize (items : List StringItem) : Nat := (items.map StringItem.size).sum

/-- What a part of a document is. An `element` is a value with the white space around it. -/
inductive Kind where
  | value
  | element
  | elements
  | member
  | members

/-- `Part kind bytes depth strings`: the bytes are such a part, its arrays and objects nest
`depth` deep, and `strings` are its string literals. -/
inductive Part : Kind → List UInt8 → Nat → List (List StringItem) → Prop where
  | name {bytes} (h : bytes ∈ [ascii "null", ascii "true", ascii "false"]) :
      Part .value bytes 0 []
  | number {bytes} (h : IsNumber bytes) : Part .value bytes 0 []
  | string {items} (h : ∀ item ∈ items, item.WellFormed) : Part .value (literal items) 0 [items]
  | emptyArray {space} (h : IsSpace space) : Part .value (0x5b :: (space ++ [0x5d])) 1 []
  | array {bytes depth strings} (h : Part .elements bytes depth strings) :
      Part .value (0x5b :: (bytes ++ [0x5d])) (depth + 1) strings
  | emptyObject {space} (h : IsSpace space) : Part .value (0x7b :: (space ++ [0x7d])) 1 []
  | object {bytes depth strings} (h : Part .members bytes depth strings) :
      Part .value (0x7b :: (bytes ++ [0x7d])) (depth + 1) strings
  | element {before bytes after depth strings} (hb : IsSpace before)
      (h : Part .value bytes depth strings) (ha : IsSpace after) :
      Part .element (before ++ (bytes ++ after)) depth strings
  | lastElement {bytes depth strings} (h : Part .element bytes depth strings) :
      Part .elements bytes depth strings
  | moreElements {bytes depth strings rest depth' strings'}
      (h : Part .element bytes depth strings) (hr : Part .elements rest depth' strings') :
      Part .elements (bytes ++ 0x2c :: rest) (max depth depth') (strings ++ strings')
  | member {before items after bytes depth strings} (hb : IsSpace before)
      (hn : ∀ item ∈ items, item.WellFormed) (ha : IsSpace after)
      (h : Part .element bytes depth strings) :
      Part .member (before ++ (literal items ++ (after ++ 0x3a :: bytes))) depth (items :: strings)
  | lastMember {bytes depth strings} (h : Part .member bytes depth strings) :
      Part .members bytes depth strings
  | moreMembers {bytes depth strings rest depth' strings'}
      (h : Part .member bytes depth strings) (hr : Part .members rest depth' strings') :
      Part .members (bytes ++ 0x2c :: rest) (max depth depth') (strings ++ strings')

/-- A well-formed document: one value with white space around it. -/
def Document (bytes : List UInt8) (depth : Nat) (strings : List (List StringItem)) : Prop :=
  Part .element bytes depth strings

/-! ## The bytes outside of the string literals -/

/-- A byte with no quote and no bracket in it. -/
def Bare (b : UInt8) : Prop := b ∉ [0x22, 0x5b, 0x5d, 0x7b, 0x7d]

instance (b : UInt8) : Decidable (Bare b) := inferInstanceAs (Decidable (b ∉ _))

theorem IsSpace.bare {bytes : List UInt8} (h : IsSpace bytes) : ∀ b ∈ bytes, Bare b := by
  intro b hb
  have hall : ∀ b ∈ ([0x20, 0x09, 0x0a, 0x0d] : List UInt8), Bare b :=
    List.all_iff_forall_prop.mp (by decide)
  exact hall b (h b hb)

theorem IsDigit.bare {b : UInt8} (h : IsDigit b) : Bare b := by
  intro hb
  simp only [List.mem_cons, List.not_mem_nil, or_false] at hb
  obtain ⟨h1, h2⟩ := h
  rcases hb with rfl | rfl | rfl | rfl | rfl <;> revert h1 h2 <;> decide

theorem IsDigits.bare {bytes : List UInt8} (h : IsDigits bytes) : ∀ b ∈ bytes, Bare b :=
  fun b hb => (h.2 b hb).bare

theorem IsNumber.bare {bytes : List UInt8} (h : IsNumber bytes) : ∀ b ∈ bytes, Bare b := by
  obtain ⟨sign, whole, fraction, exponent, hs, hw, hf, he, rfl⟩ := h
  have hsign : ∀ b ∈ sign, Bare b := by
    have hall : ([[], [0x2d]] : List (List UInt8)).all (·.all fun b => Bare b) := by decide
    simpa using List.all_eq_true.mp hall sign hs
  have hwhole : ∀ b ∈ whole, Bare b := by
    rcases hw with rfl | ⟨hd, -⟩
    · exact List.all_iff_forall_prop.mp (by decide)
    · exact hd.bare
  have hfraction : ∀ b ∈ fraction, Bare b := by
    rcases hf with rfl | ⟨digits, hd, rfl⟩
    · exact fun b hb => absurd hb List.not_mem_nil
    · intro b hb
      rcases List.mem_cons.mp hb with rfl | hb
      · decide
      · exact hd.bare b hb
  have hexponent : ∀ b ∈ exponent, Bare b := by
    rcases he with rfl | ⟨e, s, digits, he, hsn, hd, rfl⟩
    · exact fun b hb => absurd hb List.not_mem_nil
    · intro b hb
      have hletters : ∀ e ∈ ([0x45, 0x65] : List UInt8), Bare e :=
        List.all_iff_forall_prop.mp (by decide)
      have hsigns : ([[], [0x2b], [0x2d]] : List (List UInt8)).all (·.all fun b => Bare b) := by
        decide
      rcases List.mem_cons.mp hb with rfl | hb
      · exact hletters _ he
      · rcases List.mem_append.mp hb with hb | hb
        · simpa using List.all_eq_true.mp (List.all_eq_true.mp hsigns s hsn) b hb
        · exact hd.bare b hb
  intro b hb
  simp only [List.mem_append] at hb
  rcases hb with ((hb | hb) | hb) | hb
  · exact hsign b hb
  · exact hwhole b hb
  · exact hfraction b hb
  · exact hexponent b hb

end Json
