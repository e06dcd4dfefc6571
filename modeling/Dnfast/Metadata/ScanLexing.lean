import Mathlib.Data.Bool.AllAny
import Dnfast.Metadata.ScanMachine

/-! # The events of a document in the scanner

What the machine of the scanner does over the bytes of one event. A tag is read up to its end when its
quotes are closed there and none of its bytes ends it before; a comment and a processing instruction
are skipped. -/

namespace Dnfast.Metadata

section
variable {α : Type} {p : α → Bool} {l r : List α}

/-- A run that the next element does not belong to. -/
theorem takeWhile_append_of_head (hl : ∀ a ∈ l, p a) (hr : ∀ a ∈ r.head?, p a = false) :
    (l ++ r).takeWhile p = l := by
  rw [List.takeWhile_append_of_pos hl]
  cases r with
  | nil => simp
  | cons a r => simp [hr a rfl]

theorem dropWhile_append_of_head (hl : ∀ a ∈ l, p a) (hr : ∀ a ∈ r.head?, p a = false) :
    (l ++ r).dropWhile p = r := by
  rw [List.dropWhile_append_of_pos hl]
  cases r with
  | nil => rfl
  | cons a r => simp [hr a rfl]

end

variable {q : QuickXml} {target : String} {a a' : Scan}

/-! ## Tags -/

/-- The bytes of a tag, while they do not end it. -/
theorem foldlM_byte_inTag {tag content : List UInt8} {quote quote' : Option UInt8}
    (hcomment : ¬ "!--".asBytes <+: tag ++ content) (hpi : ¬ "?".asBytes <+: tag ++ content)
    (hquote : content.foldlM quoteByte quote = some quote') :
    content.foldlM (Scan.byte q target) { a with mode := .tag tag quote } =
      some { a with mode := .tag (tag ++ content) quote' } := by
  induction content generalizing tag quote with
  | nil =>
    cases hquote
    rw [List.append_nil]
    rfl
  | cons b content ih =>
    rw [List.foldlM_cons, Option.bind_eq_bind, Option.bind_eq_some_iff] at hquote
    obtain ⟨quote₁, hbyte, hquote⟩ := hquote
    rw [← List.singleton_append, ← List.append_assoc] at hcomment hpi
    have hne : tag ++ [b] ≠ "!--".asBytes := fun heq => hcomment (heq ▸ List.prefix_append _ _)
    have hne' : tag ++ [b] ≠ "?".asBytes := fun heq => hpi (heq ▸ List.prefix_append _ _)
    have hstep : Scan.byte q target { a with mode := .tag tag quote } b =
        some { a with mode := .tag (tag ++ [b]) quote₁ } := by
      change Scan.tagByte q target _ tag quote b = _
      rw [Scan.tagByte, if_neg hne, if_neg hne', hbyte]
    rw [List.foldlM_cons, hstep, Option.bind_eq_bind, Option.bind_some, ih hcomment hpi hquote,
      List.append_assoc, List.singleton_append]

/-- A tag whose quotes are closed. -/
theorem foldlM_byte_tag {content : List UInt8} (hmode : a.mode = .text)
    (hcomment : ¬ "!--".asBytes <+: content) (hpi : ¬ "?".asBytes <+: content)
    (hquote : content.foldlM quoteByte none = some none) :
    (Byte.lt :: content ++ [Byte.gt]).foldlM (Scan.byte q target) a =
      (Scan.finishTag q target { a with mode := .tag content none } content).map Scan.toText := by
  have hbegin : a.byte q target Byte.lt = some { a with mode := .tag [] none } := by
    rw [Scan.byte, hmode]
    exact if_pos rfl
  have hinside := @foldlM_byte_inTag q target a [] content none none hcomment hpi hquote
  have hne : content ++ [Byte.gt] ≠ "!--".asBytes := by
    intro heq
    have := congrArg List.getLast? heq
    rw [List.getLast?_concat] at this
    exact absurd this (by decide)
  have hne' : content ++ [Byte.gt] ≠ "?".asBytes := by
    intro heq
    have := congrArg List.getLast? heq
    rw [List.getLast?_concat] at this
    exact absurd this (by decide)
  rw [List.cons_append, List.foldlM_cons, hbegin, Option.bind_eq_bind, Option.bind_some,
    List.foldlM_append, hinside, Option.bind_eq_bind, Option.bind_some]
  simp only [List.foldlM_cons, List.foldlM_nil, bind_pure, List.nil_append]
  change Scan.tagByte q target _ content none Byte.gt = _
  rw [Scan.tagByte, if_neg hne, if_neg hne']
  rfl

/-- Bytes that neither open a quote nor end a tag. -/
theorem foldlM_quoteByte_plain {bytes : List UInt8}
    (h : ∀ b ∈ bytes, Byte.isQuote b = false ∧ b ≠ Byte.gt) :
    bytes.foldlM quoteByte none = some none := by
  induction bytes with
  | nil => rfl
  | cons b bytes ih =>
    rw [List.forall_mem_cons] at h
    have hbyte : quoteByte none b = some none := by
      simp [quoteByte, h.1]
    rw [List.foldlM_cons, hbyte, Option.bind_eq_bind, Option.bind_some, ih h.2]

theorem foldlM_quoteByte_quoted {quote : UInt8} {bytes : List UInt8} (h : quote ∉ bytes) :
    bytes.foldlM quoteByte (some quote) = some (some quote) := by
  induction bytes with
  | nil => rfl
  | cons b bytes ih =>
    rw [List.mem_cons, not_or] at h
    have hbyte : quoteByte (some quote) b = some (some quote) := by
      simp [quoteByte, Ne.symm h.1]
    rw [List.foldlM_cons, hbyte, Option.bind_eq_bind, Option.bind_some, ih h.2]

theorem Byte.isName_spec {b : UInt8} (h : Byte.isName b = true) :
    Byte.isWhitespace b = false ∧ b ≠ Byte.gt ∧ b ≠ Byte.slash ∧ b ≠ Byte.equals ∧
      b ≠ Byte.bang ∧ b ≠ Byte.question ∧ Byte.isQuote b = false := by
  simp only [Byte.isName, Bool.and_eq_true, Bool.not_eq_true', bne_iff_ne] at h
  obtain ⟨⟨⟨⟨⟨⟨⟨⟨hws, -⟩, hgt⟩, hslash⟩, hequals⟩, hquot⟩, hapos⟩, hbang⟩, hquestion⟩ := h
  exact ⟨hws, hgt, hslash, hequals, hbang, hquestion, by simp [Byte.isQuote, hquot, hapos]⟩

theorem Byte.isWhitespace_spec {b : UInt8} (h : Byte.isWhitespace b = true) :
    b ≠ Byte.gt ∧ b ≠ Byte.equals ∧ Byte.isQuote b = false ∧ Byte.isName b = false := by
  simp only [Byte.isWhitespace, Bool.or_eq_true, beq_iff_eq] at h
  rcases h with (((rfl | rfl) | rfl) | rfl) | rfl <;> decide

theorem plain_of_isName {bytes : List UInt8} (h : ∀ b ∈ bytes, Byte.isName b) :
    ∀ b ∈ bytes, Byte.isQuote b = false ∧ b ≠ Byte.gt := fun b hb =>
  ⟨(Byte.isName_spec (h b hb)).2.2.2.2.2.2, (Byte.isName_spec (h b hb)).2.1⟩

theorem plain_of_isWhitespace {bytes : List UInt8} (h : ∀ b ∈ bytes, Byte.isWhitespace b) :
    ∀ b ∈ bytes, Byte.isQuote b = false ∧ b ≠ Byte.gt := fun b hb =>
  ⟨(Byte.isWhitespace_spec (h b hb)).2.2.1, (Byte.isWhitespace_spec (h b hb)).1⟩

theorem foldlM_quoteByte_append {bytes bytes' : List UInt8} {quote quote' quote'' : Option UInt8}
    (h : bytes.foldlM quoteByte quote = some quote')
    (h' : bytes'.foldlM quoteByte quote' = some quote'') :
    (bytes ++ bytes').foldlM quoteByte quote = some quote'' := by
  rw [List.foldlM_append, h, Option.bind_eq_bind, Option.bind_some, h']

theorem foldlM_quoteByte_attribute {x : Attribute} (h : x.WellFormed) :
    x.render.foldlM quoteByte none = some none := by
  have hopen : [x.quote].foldlM quoteByte none = some (some x.quote) := by
    simp [quoteByte, h.quote]
  have hclose : [x.quote].foldlM quoteByte (some x.quote) = some none := by
    simp [quoteByte]
  have hequals : [Byte.equals].foldlM quoteByte none = some none := rfl
  have hbefore := foldlM_quoteByte_append (foldlM_quoteByte_append
    (foldlM_quoteByte_plain (plain_of_isWhitespace h.leading))
    (foldlM_quoteByte_plain (plain_of_isName h.key)))
    (foldlM_quoteByte_plain (plain_of_isWhitespace h.beforeEquals))
  have hvalue := foldlM_quoteByte_append (foldlM_quoteByte_append hopen
    (foldlM_quoteByte_quoted h.raw)) hclose
  have hafter := foldlM_quoteByte_append hequals
    (foldlM_quoteByte_plain (plain_of_isWhitespace h.afterEquals))
  have hall := foldlM_quoteByte_append (foldlM_quoteByte_append hbefore hafter) hvalue
  simpa only [Attribute.render, List.append_assoc, List.cons_append, List.nil_append] using hall

theorem foldlM_quoteByte_attributes {xs : List Attribute} (h : ∀ x ∈ xs, x.WellFormed) :
    (xs.flatMap (·.render)).foldlM quoteByte none = some none := by
  induction xs with
  | nil => rfl
  | cons x xs ih =>
    rw [List.forall_mem_cons] at h
    exact foldlM_quoteByte_append (foldlM_quoteByte_attribute h.1) (ih h.2)

theorem foldlM_quoteByte_tag {t : Tag} (h : t.WellFormed) :
    t.render.foldlM quoteByte none = some none :=
  foldlM_quoteByte_append (foldlM_quoteByte_append
    (foldlM_quoteByte_plain (plain_of_isName h.name)) (foldlM_quoteByte_attributes h.attributes))
    (foldlM_quoteByte_plain (plain_of_isWhitespace h.trailing))

/-! ## Names of tags -/

/-- A name is followed by white space or by a slash, if by anything. -/
def Ends (rest : List UInt8) : Prop := ∀ b ∈ rest.head?, Byte.isWhitespace b = true ∨ b = Byte.slash

theorem tagName_append {name expected rest : List UInt8} (hname : ∀ b ∈ name, Byte.isName b)
    (hexpected : ∀ b ∈ expected, Byte.isName b) (hrest : Ends rest) :
    tagName (name ++ rest) expected = decide (name = expected) := by
  have hnot {b : UInt8} (hb : Byte.isName b = true) :
      (Byte.isWhitespace b || b == Byte.slash || b == Byte.gt) = false := by
    obtain ⟨hws, hgt, hslash, -⟩ := Byte.isName_spec hb
    simp [hws, hgt, hslash]
  rw [Bool.eq_iff_iff, decide_eq_true_iff, tagName, Bool.and_eq_true, List.isPrefixOf_iff_prefix]
  constructor
  · rintro ⟨hstarts, hnext⟩
    rcases List.prefix_or_prefix_of_prefix hstarts (List.prefix_append name rest) with
      ⟨more, rfl⟩ | ⟨more, rfl⟩
    · -- a longer name has a byte of a name after the expected one
      cases more with
      | nil => exact List.append_nil expected
      | cons b more =>
        rw [List.append_assoc, List.getElem?_append_right le_rfl, Nat.sub_self] at hnext
        have hb := hname b (by simp)
        simp only [List.cons_append, List.getElem?_cons_zero, hnot hb] at hnext
        cases hnext
    · cases more with
      | nil => exact (List.append_nil name).symm
      | cons b more =>
        rw [List.prefix_append_right_inj] at hstarts
        obtain ⟨tail, rfl⟩ := hstarts
        have hb := hexpected b (by simp)
        obtain ⟨hws, -, hslash, -⟩ := Byte.isName_spec hb
        rcases hrest b rfl with h | h
        · rw [hws] at h
          cases h
        · exact absurd h hslash
  · rintro rfl
    refine ⟨List.prefix_append _ _, ?_⟩
    rw [List.getElem?_append_right le_rfl, Nat.sub_self]
    cases rest with
    | nil => rfl
    | cons b rest =>
      rcases hrest b rfl with h | h
      · simp [h]
      · simp [h]

theorem isName_package : ∀ b ∈ "package".asBytes, Byte.isName b :=
  List.all_iff_forall_prop.mp (by decide)

theorem isName_file : ∀ b ∈ "file".asBytes, Byte.isName b :=
  List.all_iff_forall_prop.mp (by decide)

theorem ends_of_isWhitespace {rest : List UInt8} (h : ∀ b ∈ rest, Byte.isWhitespace b) :
    Ends rest := fun b hb => Or.inl (h b (List.mem_of_mem_head? hb))

/-- Attributes begin with white space. -/
theorem head_attributes {P : UInt8 → Prop} {xs : List Attribute} {rest : List UInt8}
    (h : ∀ x ∈ xs, x.WellFormed) (hP : ∀ b, Byte.isWhitespace b = true → P b)
    (hrest : ∀ b ∈ rest.head?, P b) : ∀ b ∈ (xs.flatMap (·.render) ++ rest).head?, P b := by
  cases xs with
  | nil => exact hrest
  | cons x xs =>
    rw [List.forall_mem_cons] at h
    intro b hb
    have hleading := h.1.leading
    rw [List.flatMap_cons, Attribute.render] at hb
    cases hcase : x.leading with
    | nil => exact absurd hcase h.1.leading_ne
    | cons first leading =>
      rw [hcase] at hb hleading
      cases hb
      exact hP _ (hleading _ List.mem_cons_self)

/-- What the end of a tag does, when the tag is not one that closes an element. -/
theorem finishTag_append {name rest : List UInt8} (hne : name ≠ []) (hname : ∀ b ∈ name, Byte.isName b)
    (hrest : Ends rest) : a.finishTag q target (name ++ rest) =
      if name = "package".asBytes then
        (requiredRawAttribute q (name ++ rest) "pkgid".asBytes).toOption.map fun packageId =>
          { a with packageId := some packageId }
      else if name = "file".asBytes then some { a with raw := some [] }
      else some a := by
  have hclosing (expected : List UInt8) : closingTagName (name ++ rest) expected = false := by
    cases name with
    | nil => exact absurd rfl hne
    | cons b name =>
      have hb := (Byte.isName_spec (hname b List.mem_cons_self)).2.2.1
      simp [closingTagName, hb]
  rw [Scan.finishTag, tagName_append hname isName_package hrest,
    tagName_append hname isName_file hrest, hclosing, hclosing]
  simp only [decide_eq_true_eq, Bool.false_eq_true, if_false]

/-- What the end of a tag does, when the tag closes an element. -/
theorem finishTag_close {name trailing : List UInt8} (hname : ∀ b ∈ name, Byte.isName b)
    (htrailing : ∀ b ∈ trailing, Byte.isWhitespace b) :
    a.finishTag q target (Byte.slash :: name ++ trailing) =
      if name = "package".asBytes then some { a with packageId := none }
      else if name = "file".asBytes then a.endFile q target
      else some a := by
  have hends := ends_of_isWhitespace htrailing
  have hpackage : tagName (Byte.slash :: name ++ trailing) "package".asBytes = false := rfl
  have hfile : tagName (Byte.slash :: name ++ trailing) "file".asBytes = false := rfl
  have hclosing {expected : List UInt8} (h : ∀ b ∈ expected, Byte.isName b) :
      closingTagName (Byte.slash :: name ++ trailing) expected = decide (name = expected) := by
    rw [← tagName_append hname h hends]
    rfl
  rw [Scan.finishTag, hpackage, hfile, hclosing isName_package, hclosing isName_file]
  simp only [decide_eq_true_eq, Bool.false_eq_true, if_false]

theorem Scan.toText_mode (hmode : a.mode = .text) (m : Mode) :
    { a with mode := m }.toText = a := by
  rw [toText, ← hmode]

theorem not_prefix_of_isName {name rest : List UInt8} {b : UInt8} {l : List UInt8} (hne : name ≠ [])
    (hname : ∀ b ∈ name, Byte.isName b) (hb : Byte.isName b = false) : ¬ b :: l <+: name ++ rest := by
  intro h
  cases name with
  | nil => exact hne rfl
  | cons b' name =>
    rw [List.cons_append, List.cons_prefix_cons] at h
    rw [h.1, hname b' List.mem_cons_self] at hb
    cases hb

/-- A start tag or an empty-element tag. -/
theorem foldlM_byte_element {name rest : List UInt8} (hmode : a.mode = .text) (hne : name ≠ [])
    (hname : ∀ b ∈ name, Byte.isName b) (hrest : Ends rest)
    (hquote : (name ++ rest).foldlM quoteByte none = some none) :
    (Byte.lt :: (name ++ rest) ++ [Byte.gt]).foldlM (Scan.byte q target) a =
      if name = "package".asBytes then
        (requiredRawAttribute q (name ++ rest) "pkgid".asBytes).toOption.map fun packageId =>
          { a with packageId := some packageId }
      else if name = "file".asBytes then some { a with raw := some [] }
      else some a := by
  rw [foldlM_byte_tag hmode (not_prefix_of_isName hne hname rfl)
    (not_prefix_of_isName hne hname rfl) hquote, finishTag_append hne hname hrest]
  split
  · rw [Option.map_map]
    congr 1
    funext packageId
    rw [Function.comp_apply, Scan.toText, ← hmode]
  · split
    · rw [Option.map_some, Scan.toText, ← hmode]
    · rw [Option.map_some, Scan.toText_mode hmode]

theorem Scan.endFile_toText (hmode : a.mode = .text) (m : Mode) :
    (Scan.endFile q target { a with mode := m }).map Scan.toText = a.endFile q target := by
  unfold endFile
  cases hraw : a.raw with
  | none =>
    simp only [Option.map_some]
    rw [← hraw, toText_mode hmode]
  | some raw =>
    simp only [Option.bind_eq_bind]
    cases decodeRaw q raw with
    | none => rfl
    | some value =>
      simp only [Option.bind_some]
      split
      · cases a.packageId with
        | none => rfl
        | some packageId =>
          simp only [Option.bind_some, Option.pure_def, Option.map_some, toText, ← hmode]
      · simp only [Option.pure_def, Option.map_some, toText, ← hmode]

/-- An end tag. -/
theorem foldlM_byte_closing {name trailing : List UInt8} (hmode : a.mode = .text)
    (hname : ∀ b ∈ name, Byte.isName b) (htrailing : ∀ b ∈ trailing, Byte.isWhitespace b) :
    (Byte.lt :: Byte.slash :: name ++ trailing ++ [Byte.gt]).foldlM (Scan.byte q target) a =
      if name = "package".asBytes then some { a with packageId := none }
      else if name = "file".asBytes then a.endFile q target
      else some a := by
  have hquote : (Byte.slash :: name ++ trailing).foldlM quoteByte none = some none :=
    foldlM_quoteByte_append (foldlM_quoteByte_append (show [Byte.slash].foldlM quoteByte none = _ from rfl)
      (foldlM_quoteByte_plain (plain_of_isName hname)))
      (foldlM_quoteByte_plain (plain_of_isWhitespace htrailing))
  have hslash {b : UInt8} {l : List UInt8} (hb : b ≠ Byte.slash) :
      ¬ b :: l <+: Byte.slash :: name ++ trailing := by
    intro h
    rw [List.cons_append, List.cons_prefix_cons] at h
    exact hb h.1
  rw [List.cons_append, foldlM_byte_tag hmode (hslash (by decide)) (hslash (by decide)) hquote,
    finishTag_close hname htrailing]
  split
  · rw [Option.map_some, Scan.toText, ← hmode]
  · split
    · exact Scan.endFile_toText hmode _
    · rw [Option.map_some, Scan.toText_mode hmode]

/-! ## The attribute of a package -/

theorem rawAttributeFrom_append {expected rest : List UInt8} {fuel : Nat} {x : Attribute}
    (h : x.WellFormed) :
    rawAttributeFrom q expected (fuel + 1) (x.render ++ rest) =
      if x.key = expected then Except.okOr (decodeRaw q x.raw) .quickXml
      else rawAttributeFrom q expected fuel rest := by
  have hquote := h.quote
  have hnotWhitespace : Byte.isWhitespace x.quote = false := by
    cases hws : Byte.isWhitespace x.quote with
    | false => rfl
    | true =>
      rw [(Byte.isWhitespace_spec hws).2.2.1] at hquote
      cases hquote
  -- the text that is left after each part of the attribute
  let afterQuote := x.raw ++ x.quote :: rest
  let afterEquals := x.afterEquals ++ x.quote :: afterQuote
  let afterKey := x.beforeEquals ++ Byte.equals :: afterEquals
  have hrender : x.render ++ rest = x.leading ++ (x.key ++ afterKey) := by
    simp [Attribute.render, afterKey, afterEquals, afterQuote]
  have hleading : (x.render ++ rest).dropWhile Byte.isWhitespace = x.key ++ afterKey := by
    rw [hrender]
    refine dropWhile_append_of_head h.leading ?_
    intro b hb
    have hmem : b ∈ x.key := by
      cases hkey : x.key with
      | nil => exact absurd hkey h.key_ne
      | cons first key =>
        rw [hkey] at hb
        cases hb
        exact List.mem_cons_self
    exact (Byte.isName_spec (h.key b hmem)).1
  have hkey : ∀ b ∈ x.key, (!Byte.isWhitespace b && b != Byte.equals) = true := by
    intro b hb
    obtain ⟨hws, -, -, hequals, -⟩ := Byte.isName_spec (h.key b hb)
    simp [hws, hequals]
  have hafterKey : ∀ b ∈ afterKey.head?, (!Byte.isWhitespace b && b != Byte.equals) = false := by
    intro b hb
    cases hbefore : x.beforeEquals with
    | nil =>
      simp only [afterKey, hbefore, List.nil_append, List.head?_cons, Option.mem_some_iff] at hb
      simp [← hb]
    | cons first before =>
      simp only [afterKey, hbefore, List.cons_append, List.head?_cons, Option.mem_some_iff] at hb
      have := h.beforeEquals first (hbefore ▸ List.mem_cons_self)
      simp [← hb, this]
  have hname := takeWhile_append_of_head hkey hafterKey
  have hdrop := dropWhile_append_of_head hkey hafterKey
  have hequals : afterKey.dropWhile Byte.isWhitespace = Byte.equals :: afterEquals :=
    dropWhile_append_of_head h.beforeEquals fun b hb => by
      cases hb
      rfl
  have hvalue : afterEquals.dropWhile Byte.isWhitespace = x.quote :: afterQuote :=
    dropWhile_append_of_head h.afterEquals (by simp [hnotWhitespace])
  have hinside : ∀ b ∈ x.raw, (b != x.quote) = true := by
    intro b hb
    simpa using fun heq : b = x.quote => h.raw (heq ▸ hb)
  have hraw : afterQuote.takeWhile (· != x.quote) = x.raw :=
    takeWhile_append_of_head hinside (by simp)
  have hrest : afterQuote.dropWhile (· != x.quote) = x.quote :: rest :=
    dropWhile_append_of_head hinside (by simp)
  obtain ⟨b, l, hl⟩ : ∃ b l, x.render ++ rest = b :: l := by
    rw [hrender]
    cases hleads : x.leading with
    | nil => exact absurd hleads h.leading_ne
    | cons b leading => exact ⟨b, _, List.cons_append⟩
  have hrefuse : refuse ((Byte.equals :: afterEquals).head? ≠ some Byte.equals)
      "invalid package attribute" = .ok () := Except.refuseIf_eq_ok.mpr (by simp)
  rw [hl, rawAttributeFrom, ← hl]
  simp only [hleading, hname, hdrop, hequals]
  rw [hrefuse, Except.ok_bind]
  simp only [List.tail_cons, hvalue, List.head?_cons, Option.filter_some, hquote, if_true,
    Except.okOr, Option.elim, Except.ok_bind, hraw, hrest]

/-- The scanner finds the attribute that the parser finds. -/
theorem rawAttributeFrom_of_attributeStreaming {key : List UInt8} {xs : List Attribute}
    {seen : List (List UInt8)} {value : String} {r : List UInt8} {n : Nat}
    (hxs : ∀ x ∈ xs, x.WellFormed) (hn : xs.length ≤ n)
    (hplain : ∀ x ∈ xs, x.key = key → normalizeWhitespace x.raw = x.raw)
    (h : attributeStreaming q key xs seen = .ok (some value)) :
    rawAttributeFrom q key n (xs.flatMap (·.render) ++ r) = .ok value := by
  induction xs generalizing seen n with
  | nil => cases h
  | cons x xs ih =>
    rw [List.forall_mem_cons] at hxs hplain
    obtain ⟨n, rfl⟩ : ∃ k, n = k + 1 := Nat.exists_eq_add_of_le' (Nat.le_of_add_left_le hn)
    rw [List.flatMap_cons, List.append_assoc, rawAttributeFrom_append hxs.1]
    rw [attributeStreaming] at h
    split at h
    · cases h
    · split at h
      · next hkey =>
        rw [if_pos hkey]
        rw [Except.map_eq_ok] at h
        obtain ⟨value', hvalue, heq⟩ := h
        cases heq
        rw [Attribute.normalizedValue, hplain.1 hkey] at hvalue
        exact hvalue
      · next hkey =>
        rw [if_neg hkey]
        exact ih hxs.2 (Nat.le_of_succ_le_succ hn) hplain.2 h

theorem length_le_flatMap_render (xs : List Attribute) :
    xs.length ≤ (xs.flatMap (·.render)).length := by
  induction xs with
  | nil => exact Nat.le_refl 0
  | cons x xs ih =>
    have hx : 0 < x.render.length := by
      simp only [Attribute.render, List.length_append, List.length_cons]
      omega
    rw [List.flatMap_cons, List.length_append, List.length_cons]
    omega

theorem requiredRawAttribute_of_required {t : Tag} {key value : String} (ht : t.WellFormed)
    (hplain : ∀ x ∈ t.attributes, x.key = key.asBytes → normalizeWhitespace x.raw = x.raw)
    (h : required q t key = .ok value) :
    requiredRawAttribute q t.render key.asBytes = .ok value := by
  rw [required, Except.bind_eq_ok] at h
  obtain ⟨found, hfound, h⟩ := h
  cases found with
  | none => cases h
  | some found =>
    cases h
    have hname : ∀ b ∈ t.name, (!Byte.isWhitespace b) = true := fun b hb => by
      simp [(Byte.isName_spec (ht.name b hb)).1]
    have hdrop : t.render.dropWhile (fun b => !Byte.isWhitespace b) =
        t.attributes.flatMap (·.render) ++ t.trailing := by
      rw [Tag.render, List.append_assoc]
      refine dropWhile_append_of_head hname ?_
      refine head_attributes ht.attributes (fun b hb => by simp [hb]) fun b hb => ?_
      simp [ht.trailing b (List.mem_of_mem_head? hb)]
    rw [requiredRawAttribute, hdrop]
    have hfuel := length_le_flatMap_render t.attributes
    cases hrest : t.attributes.flatMap (·.render) ++ t.trailing with
    | nil =>
      have hnil : t.attributes = [] := by
        rw [(List.append_eq_nil_iff.mp hrest).1] at hfuel
        exact List.eq_nil_of_length_eq_zero (Nat.le_zero.mp hfuel)
      rw [hnil] at hfound
      cases hfound
    | cons b rest =>
      have hvalue := rawAttributeFrom_of_attributeStreaming (r := t.trailing)
        (n := (b :: rest).length) ht.attributes
        (by rw [← hrest, List.length_append]; omega) hplain hfound
      rwa [hrest] at hvalue

/-! ## Comments and processing instructions -/

theorem foldlM_byte_inSkip {terminator tag body : List UInt8}
    (h : ∀ w, w ≠ [] → w <+: body → ¬ terminator <:+ tag ++ w) :
    body.foldlM (Scan.byte q target) { a with mode := .skip terminator tag } =
      some { a with mode := .skip terminator (tag ++ body) } := by
  induction body generalizing tag with
  | nil =>
    rw [List.append_nil]
    rfl
  | cons b body ih =>
    have hb : ¬ terminator <:+ tag ++ [b] := h [b] (by simp) ⟨body, rfl⟩
    have hstep : Scan.byte q target { a with mode := .skip terminator tag } b =
        some { a with mode := .skip terminator (tag ++ [b]) } := if_neg hb
    rw [List.foldlM_cons, hstep, Option.bind_eq_bind, Option.bind_some, ih, List.append_assoc,
      List.singleton_append]
    intro w hw hstarts
    rw [List.append_assoc, List.singleton_append]
    exact h (b :: w) (by simp) ((List.prefix_cons_inj b).mpr hstarts)

theorem foldlM_byte_skip {tag body before : List UInt8} {last : UInt8}
    (h : ∀ w, w ≠ [] → w <+: body ++ before → ¬ before ++ [last] <:+ tag ++ w) :
    (body ++ (before ++ [last])).foldlM (Scan.byte q target)
        { a with mode := .skip (before ++ [last]) tag } = some { a with mode := .text } := by
  rw [← List.append_assoc, List.foldlM_append, foldlM_byte_inSkip h, Option.bind_eq_bind,
    Option.bind_some]
  have hend : before ++ [last] <:+ tag ++ (body ++ before) ++ [last] := by
    refine ⟨tag ++ body, ?_⟩
    simp only [List.append_assoc]
  simp only [List.foldlM_cons, List.foldlM_nil, bind_pure]
  exact if_pos hend

/-- A comment that its first bytes do not end. -/
theorem foldlM_byte_comment {body : List UInt8} (hmode : a.mode = .text)
    (h : ¬ "-->".asBytes <:+: "--".asBytes ++ (body ++ "--".asBytes)) :
    (Event.comment body).render.foldlM (Scan.byte q target) a = some a := by
  have hopen : "<!--".asBytes.foldlM (Scan.byte q target) a =
      some { a with mode := .skip "-->".asBytes "!--".asBytes } := by
    rw [show a = { a with mode := .text } by rw [← hmode]]
    rfl
  have hinside : ∀ w, w ≠ [] → w <+: body ++ "--".asBytes →
      ¬ "--".asBytes ++ [Byte.gt] <:+ "!--".asBytes ++ w := by
    intro w hw hstarts hsuffix
    apply h
    rw [show "!--".asBytes ++ w = Byte.bang :: ("--".asBytes ++ w) from rfl,
      List.suffix_cons_iff] at hsuffix
    rcases hsuffix with heq | hsuffix
    · exact absurd (List.cons.inj heq).1 (by decide)
    · exact hsuffix.isInfix.trans ((List.prefix_append_right_inj _).mpr hstarts).isInfix
  rw [Event.render, List.append_assoc, List.foldlM_append, hopen, Option.bind_eq_bind,
    Option.bind_some, show "-->".asBytes = "--".asBytes ++ [Byte.gt] from rfl,
    foldlM_byte_skip hinside, ← hmode]

/-- A processing instruction that its first bytes do not end. -/
theorem foldlM_byte_pi {body : List UInt8} (hmode : a.mode = .text)
    (h : ¬ "?>".asBytes <:+: "?".asBytes ++ (body ++ "?".asBytes)) :
    (Event.pi body).render.foldlM (Scan.byte q target) a = some a := by
  have hopen : "<?".asBytes.foldlM (Scan.byte q target) a =
      some { a with mode := .skip "?>".asBytes "?".asBytes } := by
    rw [show a = { a with mode := .text } by rw [← hmode]]
    rfl
  have hinside : ∀ w, w ≠ [] → w <+: body ++ "?".asBytes →
      ¬ "?".asBytes ++ [Byte.gt] <:+ "?".asBytes ++ w := by
    intro w hw hstarts hsuffix
    exact h (hsuffix.isInfix.trans ((List.prefix_append_right_inj _).mpr hstarts).isInfix)
  rw [Event.render, List.append_assoc, List.foldlM_append, hopen, Option.bind_eq_bind,
    Option.bind_some, show "?>".asBytes = "?".asBytes ++ [Byte.gt] from rfl,
    foldlM_byte_skip hinside, ← hmode]

/-- A CDATA section is read as a tag, and left alone when it ends where a tag would. -/
theorem foldlM_byte_cData {body : List UInt8} (hmode : a.mode = .text)
    (h : body.foldlM quoteByte none = some none) :
    (Event.cData body).render.foldlM (Scan.byte q target) a = some a := by
  have hquote : ("![CDATA[".asBytes ++ body ++ "]]".asBytes).foldlM quoteByte none = some none :=
    foldlM_quoteByte_append (foldlM_quoteByte_append rfl h) rfl
  have hrender : (Event.cData body).render =
      Byte.lt :: ("![CDATA[".asBytes ++ body ++ "]]".asBytes) ++ [Byte.gt] := by
    rw [Event.render, show "<![CDATA[".asBytes = Byte.lt :: "![CDATA[".asBytes from rfl,
      show "]]>".asBytes = "]]".asBytes ++ [Byte.gt] from rfl]
    simp only [List.cons_append, List.append_assoc]
  have hcomment : ¬ "!--".asBytes <+: "![CDATA[".asBytes ++ body ++ "]]".asBytes := by
    intro hstarts
    have htail := (List.cons_prefix_cons.mp hstarts).2
    exact absurd (List.cons_prefix_cons.mp htail).1 (by decide)
  have hpi : ¬ "?".asBytes <+: "![CDATA[".asBytes ++ body ++ "]]".asBytes := by
    intro hstarts
    exact absurd (List.cons_prefix_cons.mp hstarts).1 (by decide)
  rw [hrender, foldlM_byte_tag hmode hcomment hpi hquote]
  exact congrArg some (Scan.toText_mode hmode _)

end Dnfast.Metadata
