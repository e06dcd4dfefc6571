import Dnfast.Metadata.Scanner

/-! # The scanner, byte by byte

The scanner takes text in bulk, keeps only what it needs of a path and has a short cut for two tags.
`Scan` is what it computes: a machine that takes one byte after the other and keeps the raw text of the
file that is open. Where this machine succeeds the scanner follows it, in whatever pieces the bytes
come (`exists_foldlM_push`). -/

namespace Dnfast.Metadata

/-- `skip` is a comment or a processing instruction, which its terminator ends. -/
inductive Mode
  | text
  | tag (tag : List UInt8) (quote : Option UInt8)
  | skip (terminator tag : List UInt8)

structure Scan where
  mode : Mode
  packageId : Option String
  raw : Option (List UInt8)
  providers : List String

def Scan.toText (a : Scan) : Scan := { a with mode := .text }

section
variable (q : QuickXml) (target : String)

def Scan.addText (a : Scan) (bytes : List UInt8) : Option Scan :=
  match a.raw with
  | none => some a
  | some raw =>
    if raw.length + bytes.length ≤ maxXmlTextBytes then some { a with raw := some (raw ++ bytes) }
    else none

def Scan.endFile (a : Scan) : Option Scan :=
  match a.raw with
  | none => some a
  | some raw => do
    let value ← decodeRaw q raw
    if value = target then do
      let packageId ← a.packageId
      return { a with raw := none, providers := a.providers ++ [packageId] }
    else return { a with raw := none }

/-- The end of a tag, without the byte that ended it. -/
def Scan.finishTag (a : Scan) (tag : List UInt8) : Option Scan :=
  if tagName tag "package".asBytes then
    (requiredRawAttribute q tag "pkgid".asBytes).toOption.map fun packageId =>
      { a with packageId := some packageId }
  else if closingTagName tag "package".asBytes then some { a with packageId := none }
  else if tagName tag "file".asBytes then some { a with raw := some [] }
  else if closingTagName tag "file".asBytes then a.endFile q target
  else some a

/-- The quote that is open after a byte of a tag, if the byte does not end the tag. -/
def quoteByte (quote : Option UInt8) (b : UInt8) : Option (Option UInt8) :=
  match quote with
  | some open' => some (if b = open' then none else some open')
  | none => if Byte.isQuote b then some (some b) else if b = Byte.gt then none else some none

def Scan.tagByte (a : Scan) (tag : List UInt8) (quote : Option UInt8) (b : UInt8) : Option Scan :=
  if tag ++ [b] = "!--".asBytes then some { a with mode := .skip "-->".asBytes (tag ++ [b]) }
  else if tag ++ [b] = "?".asBytes then some { a with mode := .skip "?>".asBytes (tag ++ [b]) }
  else match quoteByte quote b with
    | some quote => some { a with mode := .tag (tag ++ [b]) quote }
    | none => (a.finishTag q target tag).map Scan.toText

def Scan.byte (a : Scan) (b : UInt8) : Option Scan :=
  match a.mode with
  | .text => if b = Byte.lt then some { a with mode := .tag [] none } else a.addText [b]
  | .tag tag quote => a.tagByte q target tag quote b
  | .skip terminator tag =>
    if terminator <:+ tag ++ [b] then some { a with mode := .text }
    else some { a with mode := .skip terminator (tag ++ [b]) }

end

variable {q : QuickXml} {target : String}

@[simp] theorem Scan.addText_nil (a : Scan) (hraw : ∀ raw ∈ a.raw, raw.length ≤ maxXmlTextBytes) :
    a.addText [] = some a := by
  unfold addText
  split
  · rfl
  · next raw h =>
    rw [if_pos (by simpa using hraw raw h), List.append_nil, ← h]

theorem Scan.addText_cons (a : Scan) (b : UInt8) (bytes : List UInt8) :
    a.addText (b :: bytes) = (a.addText [b]).bind (·.addText bytes) := by
  unfold addText
  cases h : a.raw with
  | none => simp [h]
  | some raw =>
    simp only [List.length_cons, List.length_nil]
    by_cases hfirst : raw.length + (0 + 1) ≤ maxXmlTextBytes
    · rw [if_pos hfirst, Option.bind_some]
      simp only [List.length_append, List.length_cons, List.length_nil, List.append_assoc,
        List.singleton_append]
      congr 1
      rw [Nat.add_assoc, Nat.add_comm bytes.length, Nat.zero_add]
    · rw [if_neg hfirst, if_neg (by omega)]
      rfl

theorem Scan.addText_mode {a a' : Scan} {bytes : List UInt8} (h : a.addText bytes = some a') :
    a'.mode = a.mode ∧ ((∀ raw ∈ a.raw, raw.length ≤ maxXmlTextBytes) →
      ∀ raw ∈ a'.raw, raw.length ≤ maxXmlTextBytes) := by
  unfold addText at h
  split at h
  · cases h
    exact ⟨rfl, id⟩
  · simp only [Option.ite_none_right_eq_some, Option.some.injEq] at h
    obtain ⟨hle, rfl⟩ := h
    refine ⟨rfl, fun _ raw hraw => ?_⟩
    cases hraw
    rwa [List.length_append]

theorem Scan.endFile_limit {a a' : Scan} (h : a.endFile q target = some a')
    (hraw : ∀ raw ∈ a.raw, raw.length ≤ maxXmlTextBytes) :
    ∀ raw ∈ a'.raw, raw.length ≤ maxXmlTextBytes := by
  unfold endFile at h
  split at h
  · cases h
    exact hraw
  · simp only [Option.bind_eq_bind, Option.bind_eq_some_iff] at h
    obtain ⟨value, -, h⟩ := h
    split at h
    · rw [Option.bind_eq_some_iff] at h
      obtain ⟨packageId, -, h⟩ := h
      cases h
      exact nofun
    · cases h
      exact nofun

theorem Scan.finishTag_limit {a a' : Scan} {tag : List UInt8} (h : a.finishTag q target tag = some a')
    (hraw : ∀ raw ∈ a.raw, raw.length ≤ maxXmlTextBytes) :
    ∀ raw ∈ a'.raw, raw.length ≤ maxXmlTextBytes := by
  unfold finishTag at h
  split at h
  · rw [Option.map_eq_some_iff] at h
    obtain ⟨packageId, -, rfl⟩ := h
    exact hraw
  split at h
  · cases h
    exact hraw
  split at h
  · cases h
    intro raw hnil
    cases hnil
    exact Nat.zero_le _
  split at h
  · exact endFile_limit h hraw
  · cases h
    exact hraw

theorem Scan.byte_limit {a a' : Scan} {b : UInt8} (h : a.byte q target b = some a')
    (hraw : ∀ raw ∈ a.raw, raw.length ≤ maxXmlTextBytes) :
    ∀ raw ∈ a'.raw, raw.length ≤ maxXmlTextBytes := by
  unfold byte at h
  split at h
  · split at h
    · cases h
      exact hraw
    · exact (addText_mode h).2 hraw
  · unfold tagByte at h
    split at h
    · cases h
      exact hraw
    split at h
    · cases h
      exact hraw
    split at h
    · cases h
      exact hraw
    · rw [Option.map_eq_some_iff] at h
      obtain ⟨a₁, ha₁, rfl⟩ := h
      have hfinished := finishTag_limit ha₁ hraw
      exact hfinished
  · split at h
    · cases h
      exact hraw
    · cases h
      exact hraw

/-! ## What the scanner keeps of a file -/

/-- The scanner has seen the raw text `raw` of the file that is open. -/
structure Tracks (s : ValidatedPathScanner) (raw : List UInt8) : Prop where
  length : s.fileLength = raw.length
  complex : s.fileComplex = true → s.file = raw
  simple : s.fileComplex = false → s.file = [] ∧
    if s.fileMatches then Byte.amp ∉ raw ∧ raw <+: s.target.asBytes
    else ¬ raw.takeWhile (· != Byte.amp) <+: s.target.asBytes

theorem tracks_beginFile (s : ValidatedPathScanner) : Tracks s.beginFile [] := by
  refine ⟨rfl, nofun, fun _ => ⟨rfl, ?_⟩⟩
  rw [if_pos (show s.beginFile.fileMatches = true from rfl)]
  exact ⟨List.not_mem_nil, List.nil_prefix⟩

/-- The next bytes of the target, where it is long enough. -/
theorem get_eq_some_iff {bytes raw : List UInt8} (h : raw <+: bytes) (next : List UInt8) :
    get bytes raw.length (raw.length + next.length) = some next ↔ raw ++ next <+: bytes := by
  obtain ⟨rest, rfl⟩ := h
  rw [List.prefix_append_right_inj, get, List.drop_left, Nat.add_sub_cancel_left, List.length_append,
    List.prefix_iff_eq_take]
  constructor
  · intro h
    split at h
    · exact (Option.some.inj h).symm
    · cases h
  · intro h
    have hle : next.length ≤ rest.length := by
      rw [h, List.length_take]
      exact Nat.min_le_right _ _
    rw [if_pos ⟨Nat.le_add_right _ _, Nat.add_le_add_left hle _⟩, ← h]

theorem takeWhile_append_of_not_mem {raw bytes : List UInt8} (h : Byte.amp ∉ raw) :
    (raw ++ bytes).takeWhile (· != Byte.amp) = raw ++ bytes.takeWhile (· != Byte.amp) := by
  rw [List.takeWhile_append_of_pos]
  intro b hb
  simpa using fun heq : b = Byte.amp => h (heq ▸ hb)

/-- A prefix that differs from the target keeps doing so. -/
theorem not_prefix_append {raw bytes target : List UInt8}
    (h : ¬ raw.takeWhile (· != Byte.amp) <+: target) :
    ¬ (raw ++ bytes).takeWhile (· != Byte.amp) <+: target := by
  intro hwhole
  apply h
  refine List.IsPrefix.trans ?_ hwhole
  rw [List.takeWhile_append]
  split
  · exact (List.takeWhile_prefix _).trans (List.prefix_append _ _)
  · exact List.prefix_rfl

/-- The first reference of a path. -/
theorem tracks_pushReference {s : ValidatedPathScanner} {raw bytes : List UInt8}
    (hraw : raw <+: s.target.asBytes) (hamp : Byte.amp ∉ raw) (hfile : s.file = [])
    (hlength : s.fileLength = (raw ++ bytes).length) (hcomplex : s.fileComplex = false) :
    ∃ file fileMatches fileComplex,
      s.pushReference raw.length (bytes.takeWhile (· != Byte.amp))
        (bytes.dropWhile (· != Byte.amp)) = { s with file, fileMatches, fileComplex } ∧
      Tracks { s with file, fileMatches, fileComplex } (raw ++ bytes) := by
  have hnext := get_eq_some_iff hraw (bytes.takeWhile (· != Byte.amp))
  unfold ValidatedPathScanner.pushReference
  cases hmatches : get s.target.asBytes raw.length
      (raw.length + (bytes.takeWhile (· != Byte.amp)).length) ==
        some (bytes.takeWhile (· != Byte.amp)) with
  | false =>
    refine ⟨s.file, false, s.fileComplex, by simp [hmatches], hlength, fun hc => ?_,
      fun _ => ⟨hfile, ?_⟩⟩
    · rw [hcomplex] at hc
      cases hc
    · rw [if_neg Bool.false_ne_true, takeWhile_append_of_not_mem hamp, ← hnext]
      simpa using hmatches
  | true =>
    have hbegin := hnext.mp (by simpa using hmatches)
    have hle := hbegin.length_le
    rw [List.length_append] at hle
    have hshort : ¬ raw.length + (bytes.takeWhile (· != Byte.amp)).length >
        s.target.utf8ByteSize := by
      rw [← String.length_asBytes]
      omega
    refine ⟨s.file ++ s.target.asBytes.take (raw.length + (bytes.takeWhile (· != Byte.amp)).length) ++
      bytes.dropWhile (· != Byte.amp), true, true, by simp [hmatches, hshort], hlength, fun _ => ?_,
      nofun⟩
    have htake := (List.prefix_iff_eq_take.mp hbegin).symm
    rw [List.length_append] at htake
    rw [hfile, htake, List.nil_append, List.append_assoc, List.takeWhile_append_dropWhile]

/-- Text of a file, taken in bulk. -/
theorem exists_pushFileBytes {s : ValidatedPathScanner} {raw bytes : List UInt8} (h : Tracks s raw)
    (hlimit : raw.length + bytes.length ≤ maxXmlTextBytes) :
    ∃ file fileLength fileMatches fileComplex,
      s.pushFileBytes bytes = .ok { s with file, fileLength, fileMatches, fileComplex } ∧
      Tracks { s with file, fileLength, fileMatches, fileComplex } (raw ++ bytes) := by
  have hlength : s.fileLength + bytes.length = (raw ++ bytes).length := by
    rw [h.length, List.length_append]
  have hchecks : ∀ {β : Type} (f : Unit → Except MetadataError β),
      (do
        Except.refuseIf (s.fileLength + bytes.length ≥ 2 ^ 64) (.xml "file path length overflow")
        checkedLimit (s.fileLength + bytes.length) maxXmlTextBytes "XML text"
        f ()) = f () := by
    intro β f
    have hsmall : maxXmlTextBytes < 2 ^ 64 := by decide
    rw [h.length]
    rw [Except.refuseIf, if_neg (by omega), Except.ok_bind, checkedLimit, Except.refuseIf,
      if_neg (by omega), Except.ok_bind]
  rw [ValidatedPathScanner.pushFileBytes]
  simp only []
  rw [hchecks fun _ => _]
  cases hcomplex : s.fileComplex with
  | true =>
    refine ⟨s.file ++ bytes, _, s.fileMatches, s.fileComplex, by rw [if_pos rfl, hcomplex]; rfl, hlength,
      fun _ => ?_, fun hsimple => ?_⟩
    · rw [h.complex hcomplex]
    · rw [hcomplex] at hsimple
      cases hsimple
  | false =>
    obtain ⟨hfile, hsimple⟩ := h.simple hcomplex
    rw [if_neg Bool.false_ne_true]
    cases hmatches : s.fileMatches with
    | false =>
      rw [hmatches, if_neg Bool.false_ne_true] at hsimple
      refine ⟨s.file, _, s.fileMatches, s.fileComplex, by rw [hmatches, hcomplex]; rfl, hlength,
        fun hc => ?_, fun _ => ⟨hfile, ?_⟩⟩
      · rw [hcomplex] at hc
        cases hc
      · rw [hmatches, if_neg Bool.false_ne_true]
        exact not_prefix_append hsimple
    | true =>
      rw [hmatches, if_pos rfl] at hsimple
      rw [if_neg (by decide)]
      split
      · obtain ⟨file, fileMatches, fileComplex, hpush, htracks⟩ :=
          tracks_pushReference (s := { s with
            fileLength := s.fileLength + bytes.length, fileMatches := true, fileComplex := false })
            hsimple.2 hsimple.1 hfile hlength rfl
        rw [← h.length] at hpush
        exact ⟨file, _, fileMatches, fileComplex, congrArg Except.ok hpush, htracks⟩
      · next hmem =>
        refine ⟨s.file, _, _, s.fileComplex, by rw [hcomplex]; rfl, hlength, fun hc => ?_,
          fun _ => ⟨hfile, ?_⟩⟩
        · rw [hcomplex] at hc
          cases hc
        · have hamp : Byte.amp ∉ raw ++ bytes := by
            rw [List.mem_append, not_or]
            exact ⟨hsimple.1, hmem⟩
          have hnext := get_eq_some_iff hsimple.2 bytes
          simp only [h.length]
          split
          · next heq => exact ⟨hamp, hnext.mp (by simpa using heq)⟩
          · next hne =>
            rw [← List.append_nil (raw ++ bytes), takeWhile_append_of_not_mem hamp,
              List.takeWhile_nil, List.append_nil, ← hnext]
            simpa using hne

/-- At the end of a file the scanner knows whether its path is the target. -/
theorem fileMatched_eq {s : ValidatedPathScanner} {raw : List UInt8} {value : String}
    (h : Tracks s raw) (hvalue : decodeRaw q raw = some value) :
    s.fileMatched q = .ok (value == s.target) := by
  have hbytes := unescapeBytes_of_decodeRaw hvalue
  unfold ValidatedPathScanner.fileMatched
  cases hcomplex : s.fileComplex with
  | true =>
    rw [decodeRaw, Option.bind_eq_some_iff] at hvalue
    obtain ⟨r, hr, hvalue⟩ := hvalue
    rw [if_pos rfl, h.complex hcomplex, hr, Except.okOr, Option.elim, Except.ok_bind, hvalue]
    rfl
  | false =>
    rw [if_neg Bool.false_ne_true]
    congr 1
    have hsimple := (h.simple hcomplex).2
    rw [Bool.eq_iff_iff, beq_iff_eq, ← String.asBytes_injective.eq_iff]
    cases hmatches : s.fileMatches with
    | false =>
      rw [hmatches, if_neg Bool.false_ne_true] at hsimple
      refine iff_of_false (by simp) fun heq => hsimple ?_
      rw [← heq]
      exact takeWhile_prefix_unescapeBytes hbytes
    | true =>
      rw [hmatches, if_pos rfl] at hsimple
      rw [unescapeBytes_of_not_mem hsimple.1, Option.some.injEq] at hbytes
      rw [← hbytes, h.length, ← String.length_asBytes, Bool.true_and, beq_iff_eq]
      exact ⟨fun hlength => hsimple.2.eq_of_length hlength, fun heq => by rw [heq]⟩

/-! ## The scanner follows the machine -/

/-- The lexical state that a mode stands for. -/
def InMode (s : ValidatedPathScanner) : Mode → Prop
  | .text => s.state = .text
  | .tag tag quote => s.state = .tag ∧ s.tag = tag ∧ s.quote = quote
  | .skip terminator tag => s.tag = tag ∧
    (s.state = .comment ∧ terminator = "-->".asBytes ∨
      s.state = .processingInstruction ∧ terminator = "?>".asBytes)

/-- The scanner has what the machine has, whatever part of the document it is in. -/
structure Carries (target : String) (s : ValidatedPathScanner) (a : Scan) : Prop where
  target : s.target = target
  packageId : s.packageId = a.packageId
  providers : s.providers = a.providers
  fileActive : s.fileActive = a.raw.isSome
  tracks : ∀ raw ∈ a.raw, Tracks s raw

structure Follows (target : String) (s : ValidatedPathScanner) (a : Scan) : Prop
    extends Carries target s a where
  mode : InMode s a.mode

variable {s : ValidatedPathScanner} {a a' : Scan}

theorem Tracks.lexical {raw : List UInt8} (h : Tracks s raw) (tag : List UInt8)
    (state : LexicalState) (quote : Option UInt8) : Tracks { s with tag, state, quote } raw :=
  ⟨h.length, h.complex, h.simple⟩

theorem Carries.lexical (h : Carries target s a) (tag : List UInt8) (state : LexicalState)
    (quote : Option UInt8) (mode : Mode) :
    Carries target { s with tag, state, quote } { a with mode } :=
  ⟨h.target, h.packageId, h.providers, h.fileActive, fun raw hraw =>
    (h.tracks raw hraw).lexical tag state quote⟩

theorem Carries.package (h : Carries target s a) (packageId : Option String) :
    Carries target { s with packageId } { a with packageId } :=
  ⟨h.target, rfl, h.providers, h.fileActive, fun raw hraw =>
    ⟨(h.tracks raw hraw).length, (h.tracks raw hraw).complex, (h.tracks raw hraw).simple⟩⟩

theorem exists_pushText {text : List UInt8} (h : Follows target s a) (hmode : a.mode = .text)
    (ha : a.addText text = some a') : ∃ s', s.pushText text = .ok s' ∧ Follows target s' a' := by
  unfold ValidatedPathScanner.pushText
  cases hraw : a.raw with
  | none =>
    rw [Scan.addText, hraw] at ha
    cases ha
    have hactive : s.fileActive = false := by rw [h.fileActive, hraw]; rfl
    exact ⟨s, by rw [hactive]; rfl, h⟩
  | some raw =>
    rw [Scan.addText, hraw] at ha
    simp only [Option.ite_none_right_eq_some, Option.some.injEq] at ha
    obtain ⟨hlimit, rfl⟩ := ha
    have hactive : s.fileActive = true := by rw [h.fileActive, hraw]; rfl
    have hstate := h.mode
    rw [hmode] at hstate
    by_cases htext : text = []
    · subst htext
      refine ⟨s, by simp, ⟨h.target, h.packageId, h.providers, hactive, ?_⟩, h.mode⟩
      intro raw' hraw'
      cases hraw'
      rw [List.append_nil]
      exact h.tracks raw hraw
    · obtain ⟨file, fileLength, fileMatches, fileComplex, hpush, htracks⟩ :=
        exists_pushFileBytes (h.tracks raw hraw) hlimit
      refine ⟨{ s with file, fileLength, fileMatches, fileComplex },
        by rw [if_pos ⟨hactive, htext⟩, hpush],
        ⟨h.target, h.packageId, h.providers, hactive, ?_⟩, ?_⟩
      · intro raw' hraw'
        cases hraw'
        exact htracks
      · rw [hmode]
        exact hstate

theorem carries_beginFile (h : Carries target s a) :
    Carries target s.beginFile { a with raw := some [] } := by
  refine ⟨h.target, h.packageId, h.providers, rfl, ?_⟩
  intro raw hraw
  cases hraw
  exact tracks_beginFile s

theorem exists_endFile (h : Carries target s a) (ha : a.endFile q target = some a') :
    ∃ s', s.endFile q = .ok s' ∧ Carries target s' a' := by
  unfold ValidatedPathScanner.endFile
  unfold Scan.endFile at ha
  cases hraw : a.raw with
  | none =>
    rw [hraw] at ha
    cases ha
    have hactive : s.fileActive = false := by rw [h.fileActive, hraw]; rfl
    exact ⟨s, by rw [hactive]; rfl, h⟩
  | some raw =>
    rw [hraw] at ha
    simp only [Option.bind_eq_bind, Option.bind_eq_some_iff] at ha
    obtain ⟨value, hvalue, ha⟩ := ha
    have hactive : s.fileActive = true := by rw [h.fileActive, hraw]; rfl
    rw [if_pos hactive, fileMatched_eq (h.tracks raw hraw) hvalue, Except.ok_bind, h.target]
    split at ha
    · next heq =>
      rw [Option.bind_eq_some_iff] at ha
      obtain ⟨packageId, hpackage, ha⟩ := ha
      cases ha
      rw [if_pos (by simpa using heq), ValidatedPathScanner.addProvider, h.packageId, hpackage]
      refine ⟨_, rfl, h.target, rfl, ?_, rfl, nofun⟩
      exact congrArg (· ++ [packageId]) h.providers
    · next hne =>
      cases ha
      rw [if_neg (by simpa using hne)]
      exact ⟨_, rfl, h.target, h.packageId, h.providers, rfl, nofun⟩

theorem exists_finishTag {tag : List UInt8} (h : Carries target s a) (htag : s.tag = tag ++ [Byte.gt])
    (ha : a.finishTag q target tag = some a') :
    ∃ s', s.finishTag q = .ok s' ∧ Carries target s' a' := by
  have hstrip : stripGt s.tag = tag := by
    rw [stripGt, htag, List.getLast?_concat, if_pos rfl, List.dropLast_concat]
  unfold ValidatedPathScanner.finishTag
  unfold Scan.finishTag at ha
  rw [hstrip]
  split at ha
  · next hname =>
    rw [Option.map_eq_some_iff] at ha
    obtain ⟨packageId, hpackage, rfl⟩ := ha
    simp only [if_pos hname]
    cases hattribute : requiredRawAttribute q tag "pkgid".asBytes with
    | error e =>
      rw [hattribute] at hpackage
      cases hpackage
    | ok packageId' =>
      rw [hattribute] at hpackage
      cases hpackage
      exact ⟨_, rfl, h.package _⟩
  · next hname =>
    simp only [if_neg hname]
    split at ha
    · next hclosing =>
      cases ha
      rw [if_pos hclosing]
      exact ⟨_, rfl, h.package _⟩
    · next hclosing =>
      rw [if_neg hclosing]
      split at ha
      · next hfile =>
        cases ha
        rw [if_pos hfile]
        exact ⟨_, rfl, carries_beginFile h⟩
      · next hfile =>
        rw [if_neg hfile]
        split at ha
        · next hend =>
          rw [if_pos hend]
          exact exists_endFile h ha
        · next hend =>
          cases ha
          rw [if_neg hend]
          exact ⟨_, rfl, h⟩

theorem exists_tagByte {tag : List UInt8} {quote : Option UInt8} {b : UInt8}
    (h : Carries target s a) (hstate : s.state = .tag) (htag : s.tag = tag ++ [b])
    (hquote : s.quote = quote) (ha : a.tagByte q target tag quote b = some a') :
    ∃ s', s.tagByte q b = .ok s' ∧ Follows target s' a' := by
  unfold ValidatedPathScanner.tagByte
  unfold Scan.tagByte at ha
  rw [← htag] at ha
  split at ha
  · next hcomment =>
    cases ha
    rw [if_pos hcomment]
    exact ⟨_, rfl, h.lexical s.tag .comment s.quote _, rfl, Or.inl ⟨rfl, rfl⟩⟩
  · next hcomment =>
    rw [if_neg hcomment]
    split at ha
    · next hpi =>
      cases ha
      rw [if_pos hpi]
      exact ⟨_, rfl, h.lexical s.tag .processingInstruction s.quote _, rfl, Or.inr ⟨rfl, rfl⟩⟩
    · next hpi =>
      rw [if_neg hpi, hquote]
      cases quote with
      | some quote' =>
        simp only [quoteByte, Option.some.injEq] at ha
        subst ha
        refine ⟨_, rfl, ?_⟩
        split
        · exact ⟨h.lexical s.tag s.state none _, hstate, rfl, rfl⟩
        · exact ⟨h.lexical s.tag s.state s.quote _, hstate, rfl, hquote⟩
      | none =>
        simp only [quoteByte] at ha
        by_cases hb : Byte.isQuote b
        · rw [if_pos hb] at ha
          cases ha
          simp only [if_pos hb]
          exact ⟨_, rfl, h.lexical s.tag s.state (some b) _, hstate, rfl, rfl⟩
        · rw [if_neg hb] at ha
          simp only [if_neg hb]
          by_cases hgt : b = Byte.gt
          · rw [if_pos hgt, Option.map_eq_some_iff] at ha
            obtain ⟨a₁, ha₁, rfl⟩ := ha
            obtain ⟨s', hs', hcarries⟩ := exists_finishTag h (hgt ▸ htag) ha₁
            rw [if_pos hgt, hs']
            exact ⟨_, rfl, hcarries.lexical s'.tag .text s'.quote .text, rfl⟩
          · rw [if_neg hgt] at ha
            cases ha
            rw [if_neg hgt]
            exact ⟨_, rfl, h.lexical s.tag s.state s.quote _, hstate, rfl, hquote⟩

theorem exists_pushByte {b : UInt8} (h : Follows target s a) (hmode : a.mode ≠ .text)
    (ha : a.byte q target b = some a') :
    ∃ s', s.pushByte q b = .ok s' ∧ Follows target s' a' := by
  have hcarries := h.toCarries.lexical (s.tag ++ [b]) s.state s.quote a.mode
  have hin := h.mode
  unfold ValidatedPathScanner.pushByte
  unfold Scan.byte at ha
  cases hcase : a.mode with
  | text => exact absurd hcase hmode
  | tag tag quote =>
    rw [hcase] at ha hin
    obtain ⟨hstate, htag, hquote⟩ := hin
    simp only [hstate]
    simp only [hstate] at hcarries
    exact exists_tagByte hcarries rfl (congrArg (· ++ [b]) htag) hquote ha
  | skip terminator tag =>
    rw [hcase] at ha hin
    obtain ⟨htag, hin⟩ := hin
    simp only at ha
    rw [← htag] at ha
    rcases hin with ⟨hstate, rfl⟩ | ⟨hstate, rfl⟩
    · simp only [hstate]
      split at ha
      · next hend =>
        cases ha
        rw [if_pos hend]
        exact ⟨_, rfl, hcarries.lexical (s.tag ++ [b]) .text s.quote _, rfl⟩
      · next hend =>
        cases ha
        rw [if_neg hend]
        exact ⟨_, rfl, hcarries.lexical (s.tag ++ [b]) .comment s.quote _, rfl, Or.inl ⟨rfl, rfl⟩⟩
    · simp only [hstate]
      split at ha
      · next hend =>
        cases ha
        rw [if_pos hend]
        exact ⟨_, rfl, hcarries.lexical (s.tag ++ [b]) .text s.quote _, rfl⟩
      · next hend =>
        cases ha
        rw [if_neg hend]
        exact ⟨_, rfl, hcarries.lexical (s.tag ++ [b]) .processingInstruction s.quote _, rfl,
          Or.inr ⟨rfl, rfl⟩⟩

/-- Text is taken in bulk. -/
theorem foldlM_byte_text {text : List UInt8} (hmode : a.mode = .text) (htext : Byte.lt ∉ text)
    (hraw : ∀ raw ∈ a.raw, raw.length ≤ maxXmlTextBytes) :
    text.foldlM (Scan.byte q target) a = a.addText text := by
  induction text generalizing a with
  | nil => exact (a.addText_nil hraw).symm
  | cons b text ih =>
    rw [List.mem_cons, not_or] at htext
    have hbyte : a.byte q target b = a.addText [b] := by
      rw [Scan.byte, hmode]
      exact if_neg (Ne.symm htext.1)
    rw [List.foldlM_cons, hbyte, Scan.addText_cons a b text]
    cases hadd : a.addText [b] with
    | none => rfl
    | some a₁ =>
      have hkept := Scan.addText_mode hadd
      exact ih (hkept.1.trans hmode) htext.2 (hkept.2 hraw)

/-- The short cut for `<file>`. -/
theorem foldlM_byte_file (tag : List UInt8) :
    ("file>".asBytes ++ tag).foldlM (Scan.byte q target) { a with mode := .tag [] none } =
      tag.foldlM (Scan.byte q target) { a with raw := some [], mode := .text } := by
  rw [List.foldlM_append]
  rfl

/-- The short cut for `</file>`. -/
theorem foldlM_byte_closeFile (tag : List UInt8) :
    ("/file>".asBytes ++ tag).foldlM (Scan.byte q target) { a with mode := .tag [] none } =
      ((Scan.endFile q target { a with mode := .tag "/file".asBytes none }).map Scan.toText).bind
        (tag.foldlM (Scan.byte q target)) := by
  have hname : "/file".asBytes.foldlM (Scan.byte q target) { a with mode := .tag [] none } =
      some { a with mode := .tag "/file".asBytes none } := rfl
  rw [List.foldlM_append, show "/file>".asBytes = "/file".asBytes ++ [Byte.gt] from rfl,
    List.foldlM_append, hname, Option.bind_eq_bind, Option.bind_some]
  simp only [List.foldlM_cons, List.foldlM_nil, bind_pure]
  rfl

theorem Follows.mode_eq_text (h : Follows target s a) (hstate : s.state = .text) : a.mode = .text := by
  have hmode := h.mode
  cases hcase : a.mode with
  | text => rfl
  | tag tag quote =>
    rw [hcase, InMode, hstate] at hmode
    cases hmode.1
  | skip terminator tag =>
    rw [hcase, InMode, hstate] at hmode
    rcases hmode.2 with ⟨h, -⟩ | ⟨h, -⟩ <;> cases h

/-- The loop of `push` follows the machine over the bytes. -/
theorem exists_pushFrom {fuel : Nat} {bytes : List UInt8} (hfuel : bytes.length ≤ fuel)
    (h : Follows target s a) (hlimit : ∀ raw ∈ a.raw, raw.length ≤ maxXmlTextBytes)
    (ha : bytes.foldlM (Scan.byte q target) a = some a') :
    ∃ s', s.pushFrom q fuel bytes = .ok s' ∧ Follows target s' a' ∧
      ∀ raw ∈ a'.raw, raw.length ≤ maxXmlTextBytes := by
  induction fuel generalizing s a bytes with
  | zero =>
    obtain rfl := List.eq_nil_of_length_eq_zero (Nat.le_zero.mp hfuel)
    cases ha
    exact ⟨s, rfl, h, hlimit⟩
  | succ fuel ih =>
    cases bytes with
    | nil =>
      cases ha
      exact ⟨s, rfl, h, hlimit⟩
    | cons b rest =>
      rw [ValidatedPathScanner.pushFrom]
      by_cases hmode : a.mode = .text
      · have hstate : s.state = .text := by
          have := h.mode
          rwa [hmode] at this
        rw [if_pos hstate]
        -- the text up to the next tag
        have hsplit := List.takeWhile_append_dropWhile (p := (· != Byte.lt)) (l := b :: rest)
        have htext : Byte.lt ∉ (b :: rest).takeWhile (· != Byte.lt) := by
          intro hmem
          have hall := List.all_takeWhile (p := (· != Byte.lt)) (l := b :: rest)
          simpa using List.all_eq_true.mp hall _ hmem
        rw [← hsplit, List.foldlM_append, foldlM_byte_text hmode htext hlimit, Option.bind_eq_bind,
          Option.bind_eq_some_iff] at ha
        obtain ⟨a₁, ha₁, ha⟩ := ha
        obtain ⟨s₁, hs₁, h₁⟩ := exists_pushText h hmode ha₁
        have hkept := Scan.addText_mode ha₁
        rw [hs₁, Except.ok_bind]
        cases hrest : (b :: rest).dropWhile (· != Byte.lt) with
        | nil =>
          rw [hrest] at ha
          cases ha
          exact ⟨s₁, rfl, h₁, hkept.2 hlimit⟩
        | cons first tag =>
          have hfirst : first = Byte.lt := by
            have := List.head?_dropWhile_not (· != Byte.lt) (b :: rest)
            rw [hrest] at this
            simpa using this
          have hshort : tag.length ≤ fuel := by
            have := congrArg List.length hsplit
            rw [hrest, List.length_append, List.length_cons] at this
            rw [List.length_cons] at hfuel this
            omega
          have hbegin : a₁.byte q target first = some { a₁ with mode := .tag [] none } := by
            rw [Scan.byte, hkept.1, hmode]
            exact if_pos hfirst
          rw [hrest, List.foldlM_cons, hbegin, Option.bind_eq_bind, Option.bind_some] at ha
          have hcarries := h₁.toCarries.lexical [] .tag none (.tag [] none)
          simp only []
          split
          · next hfile =>
            obtain ⟨tag, rfl⟩ := List.isPrefixOf_iff_prefix.mp hfile
            rw [foldlM_byte_file] at ha
            refine ih ?_ ⟨(carries_beginFile hcarries).lexical _ .text _ .text, rfl⟩ ?_ ha
            · rw [List.length_append] at hshort
              exact Nat.le_of_add_left_le hshort
            · intro raw hraw
              cases hraw
              exact Nat.zero_le _
          · next hfile =>
            split
            · next hclose =>
              obtain ⟨tag, rfl⟩ := List.isPrefixOf_iff_prefix.mp hclose
              rw [foldlM_byte_closeFile, Option.bind_eq_some_iff] at ha
              obtain ⟨a₂, ha₂, ha⟩ := ha
              rw [Option.map_eq_some_iff] at ha₂
              obtain ⟨a₂, ha₂, rfl⟩ := ha₂
              obtain ⟨s₂, hs₂, h₂⟩ := exists_endFile
                (h₁.toCarries.lexical [] .tag none (.tag "/file".asBytes none)) ha₂
              rw [ValidatedPathScanner.beginTag, hs₂, Except.ok_bind]
              refine ih ?_ ⟨h₂.lexical _ .text _ .text, rfl⟩ ?_ ha
              · rw [List.length_append] at hshort
                exact Nat.le_of_add_left_le hshort
              · have hended := Scan.endFile_limit ha₂ (hkept.2 hlimit)
                exact hended
            · next hclose => exact ih hshort ⟨hcarries, rfl, rfl, rfl⟩ (hkept.2 hlimit) ha
      · rw [List.foldlM_cons, Option.bind_eq_bind, Option.bind_eq_some_iff] at ha
        obtain ⟨a₁, ha₁, ha⟩ := ha
        obtain ⟨s₁, hs₁, h₁⟩ := exists_pushByte h hmode ha₁
        have hstate : s.state ≠ .text := fun hstate => hmode (h.mode_eq_text hstate)
        rw [if_neg hstate, hs₁, Except.ok_bind]
        exact ih (Nat.le_of_succ_le_succ hfuel) h₁ (Scan.byte_limit ha₁ hlimit) ha

/-- The pieces in which the bytes come make no difference. -/
theorem exists_foldlM_push {chunks : List (List UInt8)} (h : Follows target s a)
    (hlimit : ∀ raw ∈ a.raw, raw.length ≤ maxXmlTextBytes)
    (ha : chunks.flatten.foldlM (Scan.byte q target) a = some a') :
    ∃ s', chunks.foldlM (ValidatedPathScanner.push q) s = .ok s' ∧ Follows target s' a' := by
  induction chunks generalizing s a with
  | nil =>
    cases ha
    exact ⟨s, rfl, h⟩
  | cons chunk chunks ih =>
    rw [List.flatten_cons, List.foldlM_append, Option.bind_eq_bind, Option.bind_eq_some_iff] at ha
    obtain ⟨a₁, ha₁, ha⟩ := ha
    obtain ⟨s₁, hs₁, h₁, hlimit₁⟩ := exists_pushFrom le_rfl h hlimit ha₁
    obtain ⟨s', hs', h'⟩ := ih h₁ hlimit₁ ha
    refine ⟨s', ?_, h'⟩
    rw [List.foldlM_cons, ValidatedPathScanner.push, hs₁, Except.ok_bind, hs']

end Dnfast.Metadata
