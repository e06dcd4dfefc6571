import Dnfast.Metadata.ScanMachine

/-! # The pieces of the document

Whatever the bytes are, the pieces in which the reader returns them make no difference to the
scanner, with one exception: a path over the limit is reported with the length it has at the end of
the text that was taken at once, so `actual` of that error depends on the pieces.

`Scan.feed` is the machine over single bytes, errors included. It keeps the raw text of the open file
and decides at its end what the scanner has decided on the way. -/

namespace Dnfast.Metadata

/-- The refusal of a path over the limit, with the length that is reported. -/
def overLimit (actual : Nat) : MetadataError := .limitExceeded "XML text" maxXmlTextBytes actual

/-! ## The machine -/

section
variable (q : QuickXml) (target : String)

/-- Whether the raw text is the path. Its references are only decoded when what stands before the
first of them begins the path. -/
def rawMatched (raw : List UInt8) : Except MetadataError Bool :=
  if Byte.amp ∈ raw ∧ raw.takeWhile (· != Byte.amp) <+: target.asBytes then do
    let text ← Except.okOr (String.ofBytes? raw) .quickXml
    let value ← Except.okOr (unescape q text) .quickXml
    return value == target
  else .ok (raw == target.asBytes)

namespace Scan

def feedText (a : Scan) (bytes : List UInt8) : Except MetadataError Scan :=
  match a.raw with
  | none => .ok a
  | some raw =>
    if raw.length + bytes.length ≤ maxXmlTextBytes then .ok { a with raw := some (raw ++ bytes) }
    else .error (overLimit (maxXmlTextBytes + 1))

def feedEndFile (a : Scan) : Except MetadataError Scan :=
  match a.raw with
  | none => .ok a
  | some raw => do
    let matched ← rawMatched q target raw
    if matched then
      let packageId ← Except.okOr a.packageId (.xml "file outside filelists package")
      return { a with raw := none, providers := a.providers ++ [packageId] }
    else return { a with raw := none }

def feedFinishTag (a : Scan) (tag : List UInt8) : Except MetadataError Scan :=
  if tagName tag "package".asBytes then do
    let packageId ← requiredRawAttribute q tag "pkgid".asBytes
    return { a with packageId := some packageId }
  else if closingTagName tag "package".asBytes then .ok { a with packageId := none }
  else if tagName tag "file".asBytes then .ok { a with raw := some [] }
  else if closingTagName tag "file".asBytes then a.feedEndFile q target
  else .ok a

def feedTag (a : Scan) (tag : List UInt8) (quote : Option UInt8) (b : UInt8) :
    Except MetadataError Scan :=
  if tag ++ [b] = "!--".asBytes then .ok { a with mode := .skip "-->".asBytes (tag ++ [b]) }
  else if tag ++ [b] = "?".asBytes then .ok { a with mode := .skip "?>".asBytes (tag ++ [b]) }
  else match quoteByte quote b with
    | some quote => .ok { a with mode := .tag (tag ++ [b]) quote }
    | none => (a.feedFinishTag q target tag).map toText

def feed (a : Scan) (b : UInt8) : Except MetadataError Scan :=
  match a.mode with
  | .text => if b = Byte.lt then .ok { a with mode := .tag [] none } else a.feedText [b]
  | .tag tag quote => a.feedTag q target tag quote b
  | .skip terminator tag =>
    if terminator <:+ tag ++ [b] then .ok { a with mode := .text }
    else .ok { a with mode := .skip terminator (tag ++ [b]) }

end Scan

end

variable {q : QuickXml} {target : String} {s : ValidatedPathScanner} {a : Scan}

/-! ## What is known of the open file -/

/-- A file with references was found to begin like the path up to the first one. -/
def Complex (s : ValidatedPathScanner) (raw : List UInt8) : Prop :=
  s.fileComplex = true → Byte.amp ∈ raw ∧ raw.takeWhile (· != Byte.amp) <+: s.target.asBytes

/-- The scanner and the machine are at the same place, within the limit. -/
structure Matches (target : String) (s : ValidatedPathScanner) (a : Scan) : Prop
    extends Carries target s a where
  limit : ∀ raw ∈ a.raw, raw.length ≤ maxXmlTextBytes
  complex : ∀ raw ∈ a.raw, Complex s raw

theorem Matches.lexical (h : Matches target s a) (tag : List UInt8) (state : LexicalState)
    (quote : Option UInt8) (mode : Mode) :
    Matches target { s with tag, state, quote } { a with mode } :=
  ⟨h.toCarries.lexical tag state quote mode, h.limit, h.complex⟩

theorem Matches.package (h : Matches target s a) (packageId : Option String) :
    Matches target { s with packageId } { a with packageId } :=
  ⟨h.toCarries.package packageId, h.limit, h.complex⟩

theorem matches_beginFile (h : Matches target s a) :
    Matches target s.beginFile { a with raw := some [] } := by
  refine ⟨carries_beginFile h.toCarries, ?_, ?_⟩
  · rintro raw ⟨⟩
    exact Nat.zero_le _
  · rintro raw ⟨⟩
    exact nofun

/-- At the end of a file the scanner decides what its raw text says. -/
theorem fileMatched_eq_rawMatched {raw : List UInt8} (h : Tracks s raw) (hc : Complex s raw) :
    s.fileMatched q = rawMatched q s.target raw := by
  unfold ValidatedPathScanner.fileMatched rawMatched
  cases hcomplex : s.fileComplex with
  | true => rw [if_pos rfl, if_pos (hc hcomplex), h.complex hcomplex]
  | false =>
    rw [if_neg Bool.false_ne_true]
    have hsimple := (h.simple hcomplex).2
    cases hmatches : s.fileMatches with
    | false =>
      rw [hmatches, if_neg Bool.false_ne_true] at hsimple
      rw [if_neg fun hr => hsimple hr.2, Bool.false_and]
      congr 1
      symm
      rw [beq_eq_false_iff_ne]
      rintro rfl
      exact hsimple (List.takeWhile_prefix _)
    | true =>
      rw [hmatches, if_pos rfl] at hsimple
      rw [if_neg fun hr => hsimple.1 hr.1]
      congr 1
      rw [Bool.true_and, Bool.eq_iff_iff, beq_iff_eq, beq_iff_eq, h.length, ← String.length_asBytes]
      exact ⟨fun hlength => hsimple.2.eq_of_length hlength, fun heq => by rw [heq]⟩

/-- Text within the limit keeps what is known of its references. -/
theorem complex_pushFileBytes {raw bytes : List UInt8} {s' : ValidatedPathScanner}
    (h : Tracks s raw) (hc : Complex s raw) (hpush : s.pushFileBytes bytes = .ok s') :
    Complex s' (raw ++ bytes) := by
  intro hcomplex'
  unfold ValidatedPathScanner.pushFileBytes at hpush
  simp only [Except.check_bind_eq_ok] at hpush
  obtain ⟨-, -, hpush⟩ := hpush
  split at hpush
  · next hcomplex =>
    cases hpush
    obtain ⟨hamp, hprefix⟩ := hc hcomplex
    refine ⟨List.mem_append_left _ hamp, ?_⟩
    rw [List.takeWhile_append, if_neg]
    · exact hprefix
    · intro hlen
      have hall := List.all_takeWhile (p := (· != Byte.amp)) (l := raw)
      rw [(List.takeWhile_prefix (· != Byte.amp)).eq_of_length hlen] at hall
      simpa using List.all_eq_true.mp hall _ hamp
  · next hcomplex =>
    rw [Bool.not_eq_true] at hcomplex
    obtain ⟨hfile, hsimple⟩ := h.simple hcomplex
    split at hpush
    · cases hpush
      rw [hcomplex] at hcomplex'
      cases hcomplex'
    · next hmatches =>
      rw [Bool.not_eq_true', Bool.not_eq_false] at hmatches
      rw [hmatches, if_pos rfl] at hsimple
      split at hpush
      · next hamp =>
        cases hpush
        unfold ValidatedPathScanner.pushReference at hcomplex' ⊢
        simp only at hcomplex' ⊢
        split at hcomplex'
        · rw [hcomplex] at hcomplex'
          cases hcomplex'
        · next href =>
          simp only [Bool.or_eq_true, Bool.not_eq_true', not_or, Bool.not_eq_false,
            decide_eq_true_eq, beq_iff_eq, h.length] at href
          refine ⟨List.mem_append_right _ hamp, ?_⟩
          rw [takeWhile_append_of_not_mem hsimple.1]
          simp only [Bool.or_eq_true, Bool.not_eq_true', decide_eq_true_eq, h.length, href.1,
            beq_self_eq_true, Bool.true_eq_false, false_or, href.2, if_false]
          exact (get_eq_some_iff hsimple.2 _).mp href.1
      · cases hpush
        rw [hcomplex] at hcomplex'
        cases hcomplex'

/-! ## Outcomes -/

/-- The scanner and the machine are at the same place in the document. -/
structure Meets (target : String) (s : ValidatedPathScanner) (a : Scan) : Prop
    extends Matches target s a where
  mode : InMode s a.mode

/-- Both succeed at places that are related, are refused alike, or are over the limit. -/
inductive Alike {α β : Type} (R : α → β → Prop) :
    Except MetadataError α → Except MetadataError β → Prop where
  | ok {x y} (h : R x y) : Alike R (.ok x) (.ok y)
  | error (e) : Alike R (.error e) (.error e)
  | tooLong {n m} (hn : maxXmlTextBytes < n) (hm : maxXmlTextBytes < m) :
    Alike R (.error (overLimit n)) (.error (overLimit m))

theorem Alike.bind {α α' β β' : Type} {R : α → β → Prop} {R' : α' → β' → Prop}
    {x : Except MetadataError α} {y : Except MetadataError β} {f : α → Except MetadataError α'}
    {g : β → Except MetadataError β'} (h : Alike R x y)
    (hfg : ∀ a b, R a b → Alike R' (f a) (g b)) : Alike R' (x >>= f) (y >>= g) := by
  cases h with
  | ok h => exact hfg _ _ h
  | error e => exact .error e
  | tooLong hn hm => exact .tooLong hn hm

/-- A computation that both make. -/
theorem Alike.refl {α : Type} (x : Except MetadataError α) : Alike (· = ·) x x := by
  cases x with
  | ok a => exact .ok rfl
  | error e => exact .error e

/-! ## One step -/

theorem pushFileBytes_tooLong {bytes : List UInt8}
    (hlong : maxXmlTextBytes < s.fileLength + bytes.length)
    (hlen : s.fileLength + bytes.length < 2 ^ 64) :
    s.pushFileBytes bytes = .error (overLimit (s.fileLength + bytes.length)) := by
  unfold ValidatedPathScanner.pushFileBytes
  simp only []
  rw [Except.refuseIf, if_neg (by omega), Except.ok_bind, checkedLimit, Except.refuseIf,
    if_pos hlong]
  rfl

theorem alike_pushText {text : List UInt8} (hlen : text.length < 2 ^ 63) (h : Meets target s a)
    (hmode : a.mode = .text) :
    Alike (fun s a => Meets target s a ∧ a.mode = .text) (s.pushText text) (a.feedText text) := by
  unfold ValidatedPathScanner.pushText Scan.feedText
  have hstate := h.mode
  rw [hmode] at hstate
  cases hraw : a.raw with
  | none =>
    have hactive : s.fileActive = false := by rw [h.fileActive, hraw]; rfl
    rw [hactive]
    exact .ok ⟨h, hmode⟩
  | some raw =>
    have hactive : s.fileActive = true := by rw [h.fileActive, hraw]; rfl
    have hlimit := h.limit raw hraw
    have htracks := h.tracks raw hraw
    by_cases htext : text = []
    · rw [if_neg fun hc => hc.2 htext, htext]
      simp only [List.length_nil, Nat.add_zero, hlimit, if_true, List.append_nil]
      rw [← hraw]
      exact .ok ⟨h, hmode⟩
    · rw [if_pos ⟨hactive, htext⟩]
      by_cases hfits : raw.length + text.length ≤ maxXmlTextBytes
      · simp only [if_pos hfits]
        obtain ⟨file, fileLength, fileMatches, fileComplex, hpush, htracks'⟩ :=
          exists_pushFileBytes htracks hfits
        have hcomplex' := complex_pushFileBytes htracks (h.complex raw hraw) hpush
        rw [hpush]
        refine .ok ⟨⟨⟨⟨h.target, h.packageId, h.providers, hactive, ?_⟩, ?_, ?_⟩, ?_⟩, hmode⟩
        · rintro _ ⟨⟩
          exact htracks'
        · rintro _ ⟨⟩
          rwa [List.length_append]
        · rintro _ ⟨⟩
          exact hcomplex'
        · change InMode _ a.mode
          rw [hmode]
          exact hstate
      · simp only [if_neg hfits]
        have hsmall : maxXmlTextBytes < 2 ^ 63 := by decide
        have hlength := htracks.length
        rw [pushFileBytes_tooLong (by omega) (by omega)]
        exact .tooLong (by omega) (Nat.lt_succ_self _)

theorem alike_endFile (h : Matches target s a) :
    Alike (Matches target) (s.endFile q) (a.feedEndFile q target) := by
  unfold ValidatedPathScanner.endFile Scan.feedEndFile
  cases hraw : a.raw with
  | none =>
    have hactive : s.fileActive = false := by rw [h.fileActive, hraw]; rfl
    rw [hactive]
    exact .ok h
  | some raw =>
    have hactive : s.fileActive = true := by rw [h.fileActive, hraw]; rfl
    rw [if_pos hactive, fileMatched_eq_rawMatched (h.tracks raw hraw) (h.complex raw hraw), h.target]
    refine (Alike.refl (rawMatched q target raw)).bind ?_
    rintro matched _ rfl
    cases matched with
    | false => exact .ok ⟨⟨h.target, h.packageId, h.providers, rfl, nofun⟩, nofun, nofun⟩
    | true =>
      simp only [if_true]
      unfold ValidatedPathScanner.addProvider
      rw [h.packageId]
      cases hpackage : a.packageId with
      | none => exact .error _
      | some packageId =>
        refine .ok ⟨⟨h.target, rfl, ?_, rfl, nofun⟩, nofun, nofun⟩
        exact congrArg (· ++ [packageId]) h.providers

theorem alike_finishTag {tag : List UInt8} (h : Matches target s a)
    (htag : s.tag = tag ++ [Byte.gt]) :
    Alike (Matches target) (s.finishTag q) (a.feedFinishTag q target tag) := by
  have hstrip : stripGt s.tag = tag := by
    rw [stripGt, htag, List.getLast?_concat, if_pos rfl, List.dropLast_concat]
  unfold ValidatedPathScanner.finishTag Scan.feedFinishTag
  rw [hstrip]
  simp only []
  split
  · refine (Alike.refl (requiredRawAttribute q tag "pkgid".asBytes)).bind ?_
    rintro packageId _ rfl
    exact .ok (h.package _)
  split
  · exact .ok (h.package _)
  split
  · exact .ok (matches_beginFile h)
  split
  · exact alike_endFile h
  · exact .ok h

theorem alike_tagByte {tag : List UInt8} {quote : Option UInt8} {b : UInt8}
    (h : Matches target s a) (hstate : s.state = .tag) (htag : s.tag = tag ++ [b])
    (hquote : s.quote = quote) :
    Alike (Meets target) (s.tagByte q b) (a.feedTag q target tag quote b) := by
  unfold ValidatedPathScanner.tagByte Scan.feedTag
  rw [← htag]
  split
  · exact .ok ⟨h.lexical s.tag .comment s.quote _, rfl, Or.inl ⟨rfl, rfl⟩⟩
  split
  · exact .ok ⟨h.lexical s.tag .processingInstruction s.quote _, rfl, Or.inr ⟨rfl, rfl⟩⟩
  rw [hquote]
  cases quote with
  | some quote' =>
    simp only [quoteByte]
    split
    · exact .ok ⟨h.lexical s.tag s.state none _, hstate, rfl, rfl⟩
    · exact .ok ⟨h.lexical s.tag s.state s.quote _, hstate, rfl, hquote⟩
  | none =>
    simp only [quoteByte]
    by_cases hb : Byte.isQuote b
    · simp only [if_pos hb]
      exact .ok ⟨h.lexical s.tag s.state (some b) _, hstate, rfl, rfl⟩
    · simp only [if_neg hb]
      by_cases hgt : b = Byte.gt
      · simp only [if_pos hgt]
        have hfinish := alike_finishTag (q := q) h (hgt ▸ htag)
        rw [show (a.feedFinishTag q target tag).map Scan.toText =
          (a.feedFinishTag q target tag >>= fun a => .ok a.toText) from by
            cases a.feedFinishTag q target tag <;> rfl]
        refine hfinish.bind fun s' a' h' => ?_
        exact .ok ⟨h'.lexical s'.tag .text s'.quote .text, rfl⟩
      · simp only [if_neg hgt]
        exact .ok ⟨h.lexical s.tag s.state s.quote _, hstate, rfl, hquote⟩

theorem alike_pushByte (b : UInt8) (h : Meets target s a) (hmode : a.mode ≠ .text) :
    Alike (Meets target) (s.pushByte q b) (a.feed q target b) := by
  have hmatches := h.toMatches.lexical (s.tag ++ [b]) s.state s.quote a.mode
  have hin := h.mode
  unfold ValidatedPathScanner.pushByte Scan.feed
  cases hcase : a.mode with
  | text => exact absurd hcase hmode
  | tag tag quote =>
    rw [hcase] at hin
    obtain ⟨hstate, htag, hquote⟩ := hin
    simp only [hstate]
    simp only [hstate] at hmatches
    exact alike_tagByte hmatches rfl (congrArg (· ++ [b]) htag) hquote
  | skip terminator tag =>
    rw [hcase] at hin
    obtain ⟨htag, hin⟩ := hin
    simp only []
    rw [← htag]
    rcases hin with ⟨hstate, rfl⟩ | ⟨hstate, rfl⟩
    · simp only [hstate]
      split
      · exact .ok ⟨hmatches.lexical (s.tag ++ [b]) .text s.quote _, rfl⟩
      · exact .ok ⟨hmatches.lexical (s.tag ++ [b]) .comment s.quote _, rfl, Or.inl ⟨rfl, rfl⟩⟩
    · simp only [hstate]
      split
      · exact .ok ⟨hmatches.lexical (s.tag ++ [b]) .text s.quote _, rfl⟩
      · exact .ok ⟨hmatches.lexical (s.tag ++ [b]) .processingInstruction s.quote _, rfl,
          Or.inr ⟨rfl, rfl⟩⟩

/-! ## The loop -/

theorem Scan.feedText_cons (a : Scan) (b : UInt8) (bytes : List UInt8) :
    a.feedText (b :: bytes) = (a.feedText [b]) >>= (·.feedText bytes) := by
  unfold feedText
  cases hraw : a.raw with
  | none => simp [hraw]
  | some raw =>
    simp only [List.length_cons, List.length_nil]
    by_cases hfirst : raw.length + (0 + 1) ≤ maxXmlTextBytes
    · simp only [if_pos hfirst, Except.ok_bind, List.length_append, List.length_cons,
        List.length_nil, List.append_assoc, List.singleton_append]
      simp only [Nat.add_assoc, Nat.zero_add, Nat.add_comm 1 bytes.length]
    · simp only [if_neg hfirst]
      rw [if_neg (by omega)]
      rfl

theorem Scan.feedText_eq_ok {a a' : Scan} {bytes : List UInt8} (h : a.feedText bytes = .ok a')
    (hlimit : ∀ raw ∈ a.raw, raw.length ≤ maxXmlTextBytes) :
    a'.mode = a.mode ∧ ∀ raw ∈ a'.raw, raw.length ≤ maxXmlTextBytes := by
  unfold feedText at h
  split at h
  · cases h
    exact ⟨rfl, hlimit⟩
  · split at h
    · next hfits =>
      cases h
      refine ⟨rfl, ?_⟩
      rintro _ ⟨⟩
      rwa [List.length_append]
    · exact nomatch h

/-- Text is taken in bulk. -/
theorem foldlM_feed_text {text : List UInt8} (hmode : a.mode = .text) (htext : Byte.lt ∉ text)
    (hlimit : ∀ raw ∈ a.raw, raw.length ≤ maxXmlTextBytes) :
    text.foldlM (Scan.feed q target) a = a.feedText text := by
  induction text generalizing a with
  | nil =>
    unfold Scan.feedText
    cases hraw : a.raw with
    | none => rfl
    | some raw =>
      simp only [List.length_nil, Nat.add_zero, hlimit raw hraw, if_true, List.append_nil]
      rw [← hraw]
      rfl
  | cons b text ih =>
    rw [List.mem_cons, not_or] at htext
    have hbyte : a.feed q target b = a.feedText [b] := by
      rw [Scan.feed, hmode]
      exact if_neg (Ne.symm htext.1)
    rw [List.foldlM_cons, hbyte, Scan.feedText_cons a b text]
    cases hfeed : a.feedText [b] with
    | error e => rfl
    | ok a₁ =>
      obtain ⟨hkept, hlimit₁⟩ := Scan.feedText_eq_ok hfeed hlimit
      exact ih (hkept.trans hmode) htext.2 hlimit₁

/-- The short cut for `<file>`. -/
theorem foldlM_feed_file (tag : List UInt8) :
    ("file>".asBytes ++ tag).foldlM (Scan.feed q target) { a with mode := .tag [] none } =
      tag.foldlM (Scan.feed q target) { a with raw := some [], mode := .text } := by
  rw [List.foldlM_append]
  rfl

/-- The short cut for `</file>`. -/
theorem foldlM_feed_closeFile (tag : List UInt8) :
    ("/file>".asBytes ++ tag).foldlM (Scan.feed q target) { a with mode := .tag [] none } =
      (Scan.feedEndFile q target { a with mode := .tag "/file".asBytes none }) >>= fun a =>
        tag.foldlM (Scan.feed q target) a.toText := by
  have hname : "/file".asBytes.foldlM (Scan.feed q target) { a with mode := .tag [] none } =
      .ok { a with mode := .tag "/file".asBytes none } := rfl
  rw [List.foldlM_append, show "/file>".asBytes = "/file".asBytes ++ [Byte.gt] from rfl,
    List.foldlM_append, hname, Except.ok_bind]
  simp only [List.foldlM_cons, List.foldlM_nil, bind_pure]
  rw [show Scan.feed q target { a with mode := .tag "/file".asBytes none } Byte.gt =
    (Scan.feedEndFile q target { a with mode := .tag "/file".asBytes none }).map Scan.toText
      from rfl]
  cases Scan.feedEndFile q target { a with mode := .tag "/file".asBytes none } <;> rfl

theorem Meets.mode_eq_text (h : Meets target s a) (hstate : s.state = .text) : a.mode = .text :=
  Follows.mode_eq_text ⟨h.toCarries, h.mode⟩ hstate

/-- **One piece.** The loop of `push` does what the machine does over the bytes. -/
theorem alike_pushFrom {fuel : Nat} {bytes : List UInt8} (hfuel : bytes.length ≤ fuel)
    (hlen : bytes.length < 2 ^ 63) (h : Meets target s a) :
    Alike (Meets target) (s.pushFrom q fuel bytes) (bytes.foldlM (Scan.feed q target) a) := by
  induction fuel generalizing s a bytes with
  | zero =>
    obtain rfl := List.eq_nil_of_length_eq_zero (Nat.le_zero.mp hfuel)
    exact .ok h
  | succ fuel ih =>
    cases bytes with
    | nil => exact .ok h
    | cons b rest =>
      rw [ValidatedPathScanner.pushFrom]
      by_cases hmode : a.mode = .text
      · have hstate : s.state = .text := by
          have := h.mode
          rwa [hmode] at this
        rw [if_pos hstate]
        -- the text up to the next tag
        have hsplit := List.takeWhile_append_dropWhile (p := (· != Byte.lt)) (l := b :: rest)
        have htext : Byte.lt ∉ (b :: rest).takeWhile (· != Byte.lt) := by
          intro hmem
          have hall := List.all_takeWhile (p := (· != Byte.lt)) (l := b :: rest)
          simpa using List.all_eq_true.mp hall _ hmem
        have htextlen := (List.takeWhile_prefix (l := b :: rest) (· != Byte.lt)).length_le
        conv =>
          arg 3
          rw [← hsplit, List.foldlM_append, foldlM_feed_text hmode htext h.limit]
        refine (alike_pushText (by omega) h hmode).bind fun s₁ a₁ hboth => ?_
        obtain ⟨h₁, hmode₁⟩ := hboth
        cases hrest : (b :: rest).dropWhile (· != Byte.lt) with
        | nil => exact .ok h₁
        | cons first tag =>
          have hfirst : first = Byte.lt := by
            have := List.head?_dropWhile_not (· != Byte.lt) (b :: rest)
            rw [hrest] at this
            simpa using this
          have hshort : tag.length ≤ fuel ∧ tag.length < 2 ^ 63 := by
            have := congrArg List.length hsplit
            rw [hrest, List.length_append, List.length_cons] at this
            rw [List.length_cons] at hfuel this hlen
            omega
          have hbegin : a₁.feed q target first = .ok { a₁ with mode := .tag [] none } := by
            rw [Scan.feed, hmode₁]
            exact if_pos hfirst
          have hmatches := h₁.toMatches.lexical [] .tag none (.tag [] none)
          rw [List.foldlM_cons, hbegin, Except.ok_bind]
          simp only []
          split
          · next hfile =>
            obtain ⟨tag, rfl⟩ := List.isPrefixOf_iff_prefix.mp hfile
            rw [List.length_append] at hshort
            rw [foldlM_feed_file]
            exact ih (Nat.le_of_add_left_le hshort.1) (Nat.lt_of_le_of_lt (Nat.le_add_left _ _)
              hshort.2) ⟨(matches_beginFile hmatches).lexical _ .text _ .text, rfl⟩
          · split
            · next hclose =>
              obtain ⟨tag, rfl⟩ := List.isPrefixOf_iff_prefix.mp hclose
              rw [List.length_append] at hshort
              rw [foldlM_feed_closeFile, ValidatedPathScanner.beginTag]
              have hfile := h₁.toMatches.lexical [] .tag none (.tag "/file".asBytes none)
              refine (alike_endFile hfile).bind fun s₂ a₂ h₂ => ?_
              exact ih (Nat.le_of_add_left_le hshort.1) (Nat.lt_of_le_of_lt (Nat.le_add_left _ _)
                hshort.2) ⟨h₂.lexical _ .text _ .text, rfl⟩
            · exact ih hshort.1 hshort.2 ⟨hmatches, rfl, rfl, rfl⟩
      · have hstate : s.state ≠ .text := fun hstate => hmode (h.mode_eq_text hstate)
        rw [if_neg hstate, List.foldlM_cons]
        refine (alike_pushByte b h hmode).bind fun s₁ a₁ h₁ => ?_
        rw [List.length_cons] at hfuel hlen
        exact ih (by omega) (by omega) h₁

/-- The pieces one after the other. -/
theorem alike_foldlM_push {chunks : List (List UInt8)} (hlen : ∀ c ∈ chunks, c.length < 2 ^ 63)
    (h : Meets target s a) :
    Alike (Meets target) (chunks.foldlM (ValidatedPathScanner.push q) s)
      (chunks.flatten.foldlM (Scan.feed q target) a) := by
  induction chunks generalizing s a with
  | nil => exact .ok h
  | cons chunk chunks ih =>
    rw [List.flatten_cons, List.foldlM_append, List.foldlM_cons]
    refine (alike_pushFrom le_rfl (hlen chunk List.mem_cons_self) h).bind fun s₁ a₁ h₁ => ?_
    exact ih (fun c hc => hlen c (List.mem_cons_of_mem _ hc)) h₁

/-! ## The end of the document -/

/-- What the machine has found at the end. -/
def Scan.finish (a : Scan) : Except MetadataError (List String) :=
  match a.mode, a.raw, a.packageId with
  | .text, none, none => .ok a.providers.sortDedup
  | _, _, _ => .error (.xml "validated filelists scan ended inside an element")

theorem Meets.finish_eq (h : Meets target s a) : s.finish = a.finish := by
  have hmode := h.mode
  unfold ValidatedPathScanner.finish Scan.finish
  rw [h.fileActive, h.packageId, h.providers]
  cases hm : a.mode with
  | text =>
    rw [hm] at hmode
    rw [show s.state = .text from hmode]
    cases a.raw <;> cases a.packageId <;> rfl
  | tag tag quote =>
    rw [hm] at hmode
    rw [hmode.1]
    rfl
  | skip terminator tag =>
    rw [hm] at hmode
    rcases hmode.2 with ⟨hstate, -⟩ | ⟨hstate, -⟩
    · rw [hstate]
      rfl
    · rw [hstate]
      rfl

/-- The whole scan of the pieces does what the machine does over the bytes. -/
theorem alike_scan (q : QuickXml) (target : String) {chunks : List (List UInt8)}
    (hlen : ∀ c ∈ chunks, c.length < 2 ^ 63) :
    Alike (· = ·) (scanValidatedFilelistsXmlPath q chunks target)
      (chunks.flatten.foldlM (Scan.feed q target) ⟨.text, none, none, []⟩ >>= Scan.finish) := by
  have hstart : Meets target { target } ⟨.text, none, none, []⟩ :=
    ⟨⟨⟨rfl, rfl, rfl, rfl, nofun⟩, nofun, nofun⟩, rfl⟩
  refine (alike_foldlM_push hlen hstart).bind fun s a h => ?_
  rw [h.finish_eq]
  exact .refl _

/-- Two outcomes that are alike a third one are alike. -/
theorem Alike.of_common {α : Type} {x y z : Except MetadataError α} (hx : Alike (· = ·) x z)
    (hy : Alike (· = ·) y z) : Alike (· = ·) x y := by
  cases hx with
  | ok h =>
    subst h
    cases hy with
    | ok h =>
      subst h
      exact .ok rfl
  | error e =>
    cases hy with
    | error => exact .error e
    | tooLong hn hm => exact .tooLong hm hn
  | tooLong hn hm =>
    cases hy with
    | error => exact .tooLong hn hm
    | tooLong hn' _ => exact .tooLong hn hn'

theorem scan_alike_whole (q : QuickXml) (target : String) {chunks : List (List UInt8)}
    (hlen : chunks.flatten.length < 2 ^ 63) :
    Alike (· = ·) (scanValidatedFilelistsXmlPath q chunks target)
      (scanValidatedFilelistsXmlPath q [chunks.flatten] target) := by
  have hpieces : ∀ c ∈ chunks, c.length < 2 ^ 63 := fun c hc =>
    Nat.lt_of_le_of_lt (List.sublist_flatten_of_mem hc).length_le hlen
  have hwhole : ∀ c ∈ [chunks.flatten], c.length < 2 ^ 63 := fun c hc => by
    rwa [List.mem_singleton.mp hc]
  have hone := alike_scan q target hwhole
  rw [List.flatten_singleton] at hone
  exact (alike_scan q target hpieces).of_common hone

/-- A reader that knows one reference. -/
def ampXml : QuickXml := ⟨fun name => if name = "amp".asBytes then some "&" else none⟩

/-- `<package pkgid="p"><file>/a&amp;b</file></package>`, cut inside a tag, inside the reference and
inside the closing tag. -/
def cutDocument : List (List UInt8) :=
  ["<package pkgid=\"p\"><fi".asBytes, "le>/a&am".asBytes, "p;b</fil".asBytes,
    "e></package>".asBytes]

/-- A path over the limit is refused with the length that it has in the piece. -/
theorem push_openFile (q : QuickXml) (target : String) {text : List UInt8} (htext : Byte.lt ∉ text)
    (hlong : maxXmlTextBytes < text.length) (hlen : text.length < 2 ^ 63) :
    ValidatedPathScanner.push q { target } (Byte.lt :: ("file>".asBytes ++ text)) =
      .error (overLimit text.length) := by
  obtain ⟨b, bytes, rfl⟩ : ∃ b bytes, text = b :: bytes :=
    List.exists_cons_of_length_pos (by omega)
  have htake : (b :: bytes).takeWhile (· != Byte.lt) = b :: bytes := by
    have h : (b :: bytes ++ []).takeWhile (· != Byte.lt) = _ :=
      List.takeWhile_append_of_pos fun x hx => by simpa using ne_of_mem_of_not_mem hx htext
    rwa [List.append_nil, List.takeWhile_nil, List.append_nil] at h
  let opened : ValidatedPathScanner :=
    { ({ target } : ValidatedPathScanner).beginTag.beginFile with state := .text }
  have hpush : opened.pushFileBytes (b :: bytes) = .error (overLimit (b :: bytes).length) := by
    have h := @pushFileBytes_tooLong opened (b :: bytes)
    rw [show opened.fileLength = 0 from rfl, Nat.zero_add] at h
    exact h hlong (by omega)
  have htextual (fuel : Nat) : opened.pushFrom q (fuel + 1) (b :: bytes) =
      .error (overLimit (b :: bytes).length) := by
    rw [ValidatedPathScanner.pushFrom, if_pos rfl, htake, ValidatedPathScanner.pushText,
      if_pos ⟨rfl, List.cons_ne_nil _ _⟩, hpush]
    rfl
  have hopen (fuel : Nat) : ValidatedPathScanner.pushFrom q (fuel + 1) { target }
      (Byte.lt :: ("file>".asBytes ++ b :: bytes)) = opened.pushFrom q fuel (b :: bytes) := rfl
  rw [ValidatedPathScanner.push, List.length_cons, hopen, List.length_append, List.length_cons,
    ← Nat.add_assoc, htextual]
  rfl

theorem scan_openFile (q : QuickXml) (target : String) {text : List UInt8}
    (htext : Byte.lt ∉ text) (hlong : maxXmlTextBytes < text.length) (hlen : text.length < 2 ^ 63)
    (rest : List (List UInt8)) :
    scanValidatedFilelistsXmlPath q ((Byte.lt :: ("file>".asBytes ++ text)) :: rest) target =
      .error (overLimit text.length) := by
  rw [scanValidatedFilelistsXmlPath, List.foldlM_cons, push_openFile q target htext hlong hlen]
  rfl

/-- `<file>` and `n` letters. -/
def openFile (n : Nat) : List UInt8 := Byte.lt :: ("file>".asBytes ++ List.replicate n 0x61)

theorem scan_openFile_replicate {n : Nat} (hlong : maxXmlTextBytes < n) (hlen : n < 2 ^ 63)
    (rest : List (List UInt8)) :
    scanValidatedFilelistsXmlPath ampXml (openFile n :: rest) "/a" =
      .error (.limitExceeded "XML text" maxXmlTextBytes n) := by
  have hlength : (List.replicate n (0x61 : UInt8)).length = n := List.length_replicate
  have htext : Byte.lt ∉ List.replicate n (0x61 : UInt8) := fun h =>
    absurd (List.eq_of_mem_replicate h) (by decide)
  have h := scan_openFile ampXml "/a" htext (hlength.symm ▸ hlong) (hlength.symm ▸ hlen) rest
  rwa [hlength] at h

end Dnfast.Metadata
