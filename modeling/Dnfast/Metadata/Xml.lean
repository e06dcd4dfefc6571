import Mathlib.Data.List.Basic
import Mathlib.Data.List.Infix
import Dnfast.Data.Bytes
import Dnfast.Data.Check

/-! # Documents and their events

`dnfast-metadata`, `xml.rs`, and what is used of `quick-xml`. A document is the list of events that the
reader delivers for it, each with the bytes it stands for, so that one value has both the events for
the parser and the bytes for the scanner. What a reference such as `&amp;` resolves to is a parameter. -/

namespace Dnfast.Metadata

/-- `quickXml` is `Xml` with a text that comes from the crate. -/
inductive MetadataError
  | xml (message : String)
  | quickXml
  | limitExceeded (kind : String) (maximum actual : Nat)
  | unsafeLocation (value : String)
  | invalidNumber (value : String)
  deriving DecidableEq, Repr

namespace Byte

abbrev lt : UInt8 := 60
abbrev gt : UInt8 := 62
abbrev amp : UInt8 := 38
abbrev semicolon : UInt8 := 59
abbrev slash : UInt8 := 47
abbrev equals : UInt8 := 61
abbrev quot : UInt8 := 34
abbrev apos : UInt8 := 39
abbrev bang : UInt8 := 33
abbrev question : UInt8 := 63
abbrev space : UInt8 := 32

/-- `u8::is_ascii_whitespace`. -/
def isWhitespace (b : UInt8) : Bool := b == 9 || b == 10 || b == 12 || b == 13 || b == 32

/-- A byte of a name. Names of XML have fewer characters. -/
def isName (b : UInt8) : Bool :=
  !isWhitespace b && b != lt && b != gt && b != slash && b != equals && b != quot && b != apos &&
    b != bang && b != question

def isQuote (b : UInt8) : Bool := b == quot || b == apos

end Byte

/-! ## Events -/

structure Attribute where
  leading : List UInt8
  key : List UInt8
  beforeEquals : List UInt8
  afterEquals : List UInt8
  quote : UInt8
  raw : List UInt8
  deriving DecidableEq, Repr

def Attribute.render (a : Attribute) : List UInt8 :=
  a.leading ++ a.key ++ a.beforeEquals ++ Byte.equals :: a.afterEquals ++
    a.quote :: a.raw ++ [a.quote]

structure Attribute.WellFormed (a : Attribute) : Prop where
  leading_ne : a.leading ≠ []
  leading : ∀ b ∈ a.leading, Byte.isWhitespace b
  key_ne : a.key ≠ []
  key : ∀ b ∈ a.key, Byte.isName b
  beforeEquals : ∀ b ∈ a.beforeEquals, Byte.isWhitespace b
  afterEquals : ∀ b ∈ a.afterEquals, Byte.isWhitespace b
  quote : Byte.isQuote a.quote
  raw : a.quote ∉ a.raw

theorem Attribute.wellFormed_iff (a : Attribute) : a.WellFormed ↔
    a.leading ≠ [] ∧ a.leading.all Byte.isWhitespace ∧ a.key ≠ [] ∧ a.key.all Byte.isName ∧
      a.beforeEquals.all Byte.isWhitespace ∧ a.afterEquals.all Byte.isWhitespace ∧
      Byte.isQuote a.quote ∧ a.quote ∉ a.raw := by
  simp only [List.all_eq_true]
  exact ⟨fun ⟨h₁, h₂, h₃, h₄, h₅, h₆, h₇, h₈⟩ => ⟨h₁, h₂, h₃, h₄, h₅, h₆, h₇, h₈⟩,
    fun ⟨h₁, h₂, h₃, h₄, h₅, h₆, h₇, h₈⟩ => ⟨h₁, h₂, h₃, h₄, h₅, h₆, h₇, h₈⟩⟩

instance (a : Attribute) : Decidable a.WellFormed := decidable_of_iff' _ a.wellFormed_iff

/-- A start tag or an empty-element tag. -/
structure Tag where
  name : List UInt8
  attributes : List Attribute
  trailing : List UInt8
  deriving DecidableEq, Repr

def Tag.render (t : Tag) : List UInt8 := t.name ++ t.attributes.flatMap (·.render) ++ t.trailing

structure Tag.WellFormed (t : Tag) : Prop where
  name_ne : t.name ≠ []
  name : ∀ b ∈ t.name, Byte.isName b
  attributes : ∀ a ∈ t.attributes, a.WellFormed
  trailing : ∀ b ∈ t.trailing, Byte.isWhitespace b

theorem Tag.wellFormed_iff (t : Tag) : t.WellFormed ↔
    t.name ≠ [] ∧ t.name.all Byte.isName ∧ (∀ a ∈ t.attributes, a.WellFormed) ∧
      t.trailing.all Byte.isWhitespace := by
  simp only [List.all_eq_true]
  exact ⟨fun ⟨h₁, h₂, h₃, h₄⟩ => ⟨h₁, h₂, h₃, h₄⟩, fun ⟨h₁, h₂, h₃, h₄⟩ => ⟨h₁, h₂, h₃, h₄⟩⟩

instance (t : Tag) : Decidable t.WellFormed := decidable_of_iff' _ t.wellFormed_iff

inductive Event
  | start (tag : Tag)
  | empty (tag : Tag)
  | close (name trailing : List UInt8)
  | text (raw : List UInt8)
  | generalRef (name : List UInt8)
  | comment (body : List UInt8)
  | cData (body : List UInt8)
  | pi (body : List UInt8)
  | decl (body : List UInt8)
  | docType (body : List UInt8)
  deriving DecidableEq, Repr

def Event.render : Event → List UInt8
  | .start tag => Byte.lt :: tag.render ++ [Byte.gt]
  | .empty tag => Byte.lt :: tag.render ++ [Byte.slash, Byte.gt]
  | .close name trailing => Byte.lt :: Byte.slash :: name ++ trailing ++ [Byte.gt]
  | .text raw => raw
  | .generalRef name => Byte.amp :: name ++ [Byte.semicolon]
  | .comment body => "<!--".asBytes ++ body ++ "-->".asBytes
  | .cData body => "<![CDATA[".asBytes ++ body ++ "]]>".asBytes
  | .pi body => "<?".asBytes ++ body ++ "?>".asBytes
  | .decl body => "<?xml".asBytes ++ body ++ "?>".asBytes
  | .docType body => "<!DOCTYPE".asBytes ++ body ++ ">".asBytes

/-- The bytes of an event are read as that event: what ends it does not come up before. -/
def Event.WellFormed : Event → Prop
  | .start tag | .empty tag => tag.WellFormed
  | .close name trailing =>
    name ≠ [] ∧ (∀ b ∈ name, Byte.isName b) ∧ ∀ b ∈ trailing, Byte.isWhitespace b
  | .text raw => Byte.lt ∉ raw ∧ Byte.amp ∉ raw
  | .generalRef name => Byte.lt ∉ name ∧ Byte.amp ∉ name ∧ Byte.semicolon ∉ name
  | .comment body => ¬ "-->".asBytes <:+: body ++ "--".asBytes
  | .cData body => ¬ "]]>".asBytes <:+: body ++ "]]".asBytes
  | .pi body => body.head? ≠ some Byte.gt ∧ ¬ "?>".asBytes <:+: body ++ "?".asBytes
  | .decl body => ¬ "?>".asBytes <:+: body ++ "?".asBytes
  | .docType _ => True

theorem Event.wellFormed_close (name trailing : List UInt8) :
    (Event.close name trailing).WellFormed ↔
      name ≠ [] ∧ name.all Byte.isName ∧ trailing.all Byte.isWhitespace := by
  simp only [List.all_eq_true]
  rfl

instance : (e : Event) → Decidable e.WellFormed
  | .start tag | .empty tag => inferInstanceAs (Decidable tag.WellFormed)
  | .close name trailing => decidable_of_iff' _ (Event.wellFormed_close name trailing)
  | .text raw => inferInstanceAs (Decidable (Byte.lt ∉ raw ∧ Byte.amp ∉ raw))
  | .generalRef name =>
    inferInstanceAs (Decidable (Byte.lt ∉ name ∧ Byte.amp ∉ name ∧ Byte.semicolon ∉ name))
  | .comment body => inferInstanceAs (Decidable (¬ "-->".asBytes <:+: body ++ "--".asBytes))
  | .cData body => inferInstanceAs (Decidable (¬ "]]>".asBytes <:+: body ++ "]]".asBytes))
  | .pi body =>
    inferInstanceAs (Decidable (body.head? ≠ some Byte.gt ∧ ¬ "?>".asBytes <:+: body ++ "?".asBytes))
  | .decl body => inferInstanceAs (Decidable (¬ "?>".asBytes <:+: body ++ "?".asBytes))
  | .docType _ => inferInstanceAs (Decidable True)

/-- The elements that are open after an event. -/
def Event.opened (opened : List (List UInt8)) : Event → List (List UInt8)
  | .start tag => tag.name :: opened
  | .close _ _ => opened.tail
  | _ => opened

/-- A document, as the list of its events. Every element is closed in it. -/
structure Document where
  events : List Event
  wellFormed : ∀ e ∈ events, e.WellFormed
  closed : events.foldl Event.opened [] = []

def Document.bytes (d : Document) : List UInt8 := d.events.flatMap (·.render)

/-! ## References -/

/-- What `quick-xml` resolves a predefined entity or a character reference to. -/
structure QuickXml where
  resolve : List UInt8 → Option String

/-- The text written so far, and the reference that has begun. -/
structure Unescaped where
  out : List UInt8
  pending : Option (List UInt8)
  deriving DecidableEq

section
variable (q : QuickXml)

def unescapeByte (s : Unescaped) (b : UInt8) : Option Unescaped :=
  match s.pending with
  | none => if b = Byte.amp then some ⟨s.out, some []⟩ else some ⟨s.out ++ [b], none⟩
  | some name =>
    if b = Byte.semicolon then (q.resolve name).map fun text => ⟨s.out ++ text.asBytes, none⟩
    else if b = Byte.amp then none
    else some ⟨s.out, some (name ++ [b])⟩

def unescapeBytes (raw : List UInt8) : Option (List UInt8) := do
  let s ← raw.foldlM (unescapeByte q) ⟨[], none⟩
  if s.pending = none then some s.out else none

/-- `quick_xml::escape::unescape`. -/
def unescape (raw : String) : Option String := (unescapeBytes q raw.asBytes).bind String.ofBytes?

/-- `str::from_utf8` and `unescape`. -/
def decodeRaw (raw : List UInt8) : Option String := (String.ofBytes? raw).bind (unescape q)

def decodeText (raw : List UInt8) : Except MetadataError String :=
  Except.okOr (decodeRaw q raw) .quickXml

def decodeReference (name : List UInt8) : Except MetadataError String :=
  Except.okOr ((String.ofBytes? name).bind fun reference => unescape q ("&" ++ reference ++ ";"))
    .quickXml

/-- White space in the value of an attribute is read as a space. -/
def normalizeWhitespace : List UInt8 → List UInt8
  | 13 :: 10 :: rest => Byte.space :: normalizeWhitespace rest
  | b :: rest => (if b = 9 ∨ b = 10 ∨ b = 13 then Byte.space else b) :: normalizeWhitespace rest
  | [] => []

/-- `decoded_and_normalized_value`. -/
def Attribute.normalizedValue (a : Attribute) : Except MetadataError String :=
  Except.okOr (decodeRaw q (normalizeWhitespace a.raw)) .quickXml

/-- The loop over the attributes, which fails at one that has come up before. -/
def attributeStreaming (key : List UInt8) :
    List Attribute → List (List UInt8) → Except MetadataError (Option String)
  | [], _ => .ok none
  | a :: rest, seen =>
    if a.key ∈ seen then .error .quickXml
    else if a.key = key then (a.normalizedValue q).map some
    else attributeStreaming key rest (a.key :: seen)

def required (tag : Tag) (key : String) : Except MetadataError String := do
  match ← attributeStreaming q key.asBytes tag.attributes [] with
  | some value => return value
  | none => .error (.xml "missing required attribute")

end

variable {q : QuickXml} {raw raw' out out' : List UInt8} {s t : String}

/-- What was written before only stands in front. -/
theorem foldlM_unescapeByte (u : Unescaped) :
    raw.foldlM (unescapeByte q) u =
      (raw.foldlM (unescapeByte q) ⟨[], u.pending⟩).map fun u' => ⟨u.out ++ u'.out, u'.pending⟩ := by
  induction raw generalizing u with
  | nil => simp
  | cons b raw ih =>
    have hbyte : unescapeByte q u b =
        (unescapeByte q ⟨[], u.pending⟩ b).map fun u' => ⟨u.out ++ u'.out, u'.pending⟩ := by
      unfold unescapeByte
      cases u.pending with
      | none =>
        simp only
        split <;> simp
      | some name =>
        simp only
        split
        · cases q.resolve name <;> simp
        · split <;> simp
    rw [List.foldlM_cons, List.foldlM_cons, hbyte]
    cases unescapeByte q ⟨[], u.pending⟩ b with
    | none => rfl
    | some u' =>
      simp only [Option.map_some, Option.bind_eq_bind, Option.bind_some]
      rw [ih, ih u']
      simp only [Option.map_map, Function.comp_def, List.append_assoc]

theorem unescapeBytes_eq_some :
    unescapeBytes q raw = some out ↔ raw.foldlM (unescapeByte q) ⟨[], none⟩ = some ⟨out, none⟩ := by
  rw [unescapeBytes]
  cases h : raw.foldlM (unescapeByte q) ⟨[], none⟩ with
  | none => simp
  | some u =>
    simp only [Option.bind_eq_bind, Option.bind_some, Option.some.injEq]
    constructor
    · intro h
      split at h
      · next hpending =>
        cases h
        rw [← hpending]
      · cases h
    · rintro rfl
      rfl

theorem unescapeBytes_append (h : unescapeBytes q raw = some out)
    (h' : unescapeBytes q raw' = some out') : unescapeBytes q (raw ++ raw') = some (out ++ out') := by
  rw [unescapeBytes_eq_some] at h h' ⊢
  rw [List.foldlM_append, h, Option.bind_eq_bind, Option.bind_some, foldlM_unescapeByte, h']
  rfl

theorem unescapeBytes_of_not_mem (h : Byte.amp ∉ raw) : unescapeBytes q raw = some raw := by
  induction raw with
  | nil => rfl
  | cons b raw ih =>
    rw [List.mem_cons, not_or] at h
    have hbyte : unescapeBytes q [b] = some [b] := by
      simp [unescapeBytes, unescapeByte, Ne.symm h.1]
    exact unescapeBytes_append hbyte (ih h.2)

/-- The text up to the first reference is kept. -/
theorem takeWhile_prefix_unescapeBytes (h : unescapeBytes q raw = some out) :
    raw.takeWhile (· != Byte.amp) <+: out := by
  have hhead : unescapeBytes q (raw.takeWhile (· != Byte.amp)) =
      some (raw.takeWhile (· != Byte.amp)) := by
    apply unescapeBytes_of_not_mem
    intro hmem
    have hall := List.all_takeWhile (p := (· != Byte.amp)) (l := raw)
    simpa using List.all_eq_true.mp hall _ hmem
  rw [unescapeBytes_eq_some] at h hhead
  rw [← List.takeWhile_append_dropWhile (p := (· != Byte.amp)) (l := raw), List.foldlM_append, hhead,
    Option.bind_eq_bind, Option.bind_some, foldlM_unescapeByte, Option.map_eq_some_iff] at h
  obtain ⟨u, -, hu⟩ := h
  rw [← (Unescaped.mk.inj hu).1]
  exact List.prefix_append _ _

theorem unescapeBytes_of_decodeRaw (h : decodeRaw q raw = some s) :
    unescapeBytes q raw = some s.asBytes := by
  rw [decodeRaw, Option.bind_eq_some_iff] at h
  obtain ⟨r, hr, h⟩ := h
  rw [unescape, Option.bind_eq_some_iff, String.asBytes_of_ofBytes?_eq_some hr] at h
  obtain ⟨out, hout, hs⟩ := h
  rw [hout, String.asBytes_of_ofBytes?_eq_some hs]

@[simp] theorem decodeRaw_nil : decodeRaw q [] = some "" := by
  have hnil : String.ofBytes? [] = some "" := String.ofBytes?_asBytes ""
  rw [decodeRaw, hnil, Option.bind_some, unescape, show "".asBytes = [] from rfl,
    unescapeBytes_of_not_mem List.not_mem_nil, Option.bind_some, hnil]

theorem decodeRaw_append (h : decodeRaw q raw = some s) (h' : decodeRaw q raw' = some t) :
    decodeRaw q (raw ++ raw') = some (s ++ t) := by
  have hbytes := unescapeBytes_append (unescapeBytes_of_decodeRaw h) (unescapeBytes_of_decodeRaw h')
  rw [decodeRaw, Option.bind_eq_some_iff] at h h'
  obtain ⟨r, hr, -⟩ := h
  obtain ⟨r', hr', -⟩ := h'
  rw [decodeRaw, String.ofBytes?_append hr hr', Option.bind_some, unescape, String.asBytes_append,
    String.asBytes_of_ofBytes?_eq_some hr, String.asBytes_of_ofBytes?_eq_some hr', hbytes,
    Option.bind_some, ← String.asBytes_append, String.ofBytes?_asBytes]

theorem decodeRaw_of_decodeReference {name : List UInt8} (h : decodeReference q name = .ok s) :
    decodeRaw q (Byte.amp :: name ++ [Byte.semicolon]) = some s := by
  rw [decodeReference, Except.okOr_eq_ok, Option.bind_eq_some_iff] at h
  obtain ⟨reference, hreference, h⟩ := h
  have hand : String.ofBytes? [Byte.amp] = some "&" := by decide +kernel
  have hsemicolon : String.ofBytes? [Byte.semicolon] = some ";" := by decide +kernel
  have hbytes := String.ofBytes?_append (String.ofBytes?_append hand hreference) hsemicolon
  rw [decodeRaw, show Byte.amp :: name ++ [Byte.semicolon] =
    [Byte.amp] ++ name ++ [Byte.semicolon] from rfl, hbytes, Option.bind_some, h]

/-- `checked_limit`. -/
def checkedLimit (actual maximum : Nat) (kind : String) : Except MetadataError Unit :=
  Except.refuseIf (actual > maximum) (.limitExceeded kind maximum actual)

/-- `checked_increment`; the counters stay far below the range of `u64`. -/
def checkedIncrement (current maximum : Nat) (kind : String) : Except MetadataError Nat := do
  checkedLimit (current + 1) maximum kind
  return current + 1

/-- `parse::<u64>`. -/
def parseNumber (value : String) : Except MetadataError Nat :=
  let digits := if value.startsWith "+" then value.toList.tail else value.toList
  let n := digits.foldl (fun n c => 10 * n + (c.toNat - 48)) 0
  if digits ≠ [] ∧ digits.all Char.isDigit ∧ n < 2 ^ 64 then .ok n else .error (.invalidNumber value)

end Dnfast.Metadata
