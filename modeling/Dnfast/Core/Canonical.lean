import Dnfast.Json.Value

/-! # Canonical documents

The canonical JSON boundary of `dnfast-core`: `inspect` bounds a document's bytes, nesting and
strings before it is parsed, and `canonicalDecode` accepts a document only when the parsed value
renders back to the same bytes.

The parser itself is `serde_json::from_slice` and stays a parameter (`fromSlice`); rendering is
`Json.Value.render` of the value that the type's `Serialize` instance builds, with members in the
order of their keys.

The bound on strings is the subtle one. `inspect` counts the bytes of a string as they stand in
the document, escapes included, except that the byte after a backslash is counted without being
compared with the bound. `fitsFrom` is the same count taken on the characters of the string, and
`scan_render` says that a rendered value of bounded depth passes the scan exactly when all of its
strings fit. -/

namespace Dnfast.Core

open Json (Plain plain_hexDigit plain_utf8EncodeChar)

def maxDocumentBytes : Nat := 16 * 1024 * 1024
def maxStringBytes : Nat := 1024 * 1024
def maxDepth : Nat := 32

/-- The refusals of the domain model; the first five are those of the canonical boundary. -/
inductive DomainError where
  | documentTooLarge
  | depthExceeded
  | stringTooLarge
  | json (message : String)
  | nonCanonical
  | empty (field : String)
  | invalidDigest (field : String)
  | schemaVersion (expected actual : UInt32)
  | architecture
  | unsafeAction (what : String)
  | duplicate (identity : String)
  | invalidPlan (what : String)
  deriving DecidableEq, Repr

def DomainError.toString : DomainError → String
  | .documentTooLarge => "document exceeds 16 MiB"
  | .depthExceeded => "JSON nesting exceeds depth 32"
  | .stringTooLarge => "JSON string exceeds 1 MiB"
  | .json message => "JSON boundary rejected input: " ++ message
  | .nonCanonical => "JSON is not canonical JCS form"
  | .empty field => field ++ " cannot be empty"
  | .invalidDigest field => field ++ " is not a 64-character hexadecimal SHA-256 digest"
  | .schemaVersion expected actual =>
    "unsupported schema version " ++ actual.toNat.repr ++ "; expected " ++ expected.toNat.repr
  | .architecture => "unsupported architecture"
  | .unsafeAction what => "unsafe solver action: " ++ what
  | .duplicate identity => "duplicate canonical identity: " ++ identity
  | .invalidPlan what => "invalid plan: " ++ what

/-- A type with a JSON form. -/
class Serialize (α : Type) where
  toValue : α → Json.Value

/-- `canonical_encode`. -/
def canonicalEncode {α : Type} [Serialize α] (value : α) : List UInt8 :=
  (Serialize.toValue value).render

/-! ## The bounded scan -/

/-- The loop state of `inspect`. -/
structure Scan where
  depth : Nat := 0
  stringBytes : Nat := 0
  inString : Bool := false
  escaped : Bool := false
  deriving DecidableEq, Repr

def scanByte (s : Scan) (byte : UInt8) : Except DomainError Scan :=
  if s.inString then
    if s.escaped then
      -- the byte after a backslash is counted but not compared with the bound
      .ok { s with escaped := false, stringBytes := s.stringBytes + 1 }
    else if byte = 0x5c then .ok { s with escaped := true }
    else if byte = 0x22 then .ok { s with inString := false, stringBytes := 0 }
    else if s.stringBytes + 1 > maxStringBytes then .error .stringTooLarge
    else .ok { s with stringBytes := s.stringBytes + 1 }
  else if byte = 0x22 then .ok { s with inString := true }
  else if byte = 0x7b ∨ byte = 0x5b then
    if s.depth + 1 > maxDepth then .error .depthExceeded
    else .ok { s with depth := s.depth + 1 }
  else if byte = 0x7d ∨ byte = 0x5d then .ok { s with depth := s.depth - 1 }
  else .ok s

def scan (s : Scan) (bytes : List UInt8) : Except DomainError Scan := bytes.foldlM scanByte s

def inspect (bytes : List UInt8) : Except DomainError Unit :=
  if bytes.length > maxDocumentBytes then .error .documentTooLarge
  else (scan {} bytes).map fun _ => ()

/-- `canonical_decode` over the parser `fromSlice`. -/
def canonicalDecode {α : Type} [Serialize α] (fromSlice : List UInt8 → Except String α)
    (bytes : List UInt8) : Except DomainError α := do
  inspect bytes
  match fromSlice bytes with
  | .error message => .error (.json message)
  | .ok value => if canonicalEncode value = bytes then .ok value else .error .nonCanonical

/-- The string passes the scan when `n` of its bytes have been counted before. A short escape
counts one byte and is never refused; any other control character counts five, the last four of
which are compared with the bound. -/
def fitsFrom (n : Nat) : List Char → Bool
  | [] => true
  | c :: cs =>
    if (Json.shortEscape c).isSome then fitsFrom (n + 1) cs
    else
      let n' := n + if c.toNat < 0x20 then 5 else c.utf8Size
      decide (n' ≤ maxStringBytes) && fitsFrom n' cs

/-- The bytes that `inspect` counts for the string stay within `maxStringBytes` at every byte it
compares. -/
def fitsString (s : String) : Bool := fitsFrom 0 s.toList

/-! ## The scan of a rendering -/

@[simp] theorem scan_nil (s : Scan) : scan s [] = .ok s := rfl

theorem scan_cons (s : Scan) (b : UInt8) (bs : List UInt8) :
    scan s (b :: bs) = (scanByte s b).bind fun s' => scan s' bs := rfl

theorem scan_append (s : Scan) (as bs : List UInt8) :
    scan s (as ++ bs) = (scan s as).bind fun s' => scan s' bs := by
  simp only [scan, List.foldlM_append]
  rfl

theorem scan_cons_of_ok {s s' : Scan} {b : UInt8} (h : scanByte s b = .ok s') (bs : List UInt8) :
    scan s (b :: bs) = scan s' bs := by
  rw [scan_cons, h]; rfl

theorem scan_append_of_ok {s s' : Scan} {as : List UInt8} (h : scan s as = .ok s')
    (bs : List UInt8) : scan s (as ++ bs) = scan s' bs := by
  rw [scan_append, h]; rfl

theorem scan_append_of_error {s : Scan} {as : List UInt8} {e : DomainError}
    (h : scan s as = .error e) (bs : List UInt8) : scan s (as ++ bs) = .error e := by
  rw [scan_append, h]; rfl

/-- Plain bytes in a string are counted one by one; the last of them decides. -/
theorem scan_plain {d n : Nat} {bs : List UInt8} (h : ∀ b ∈ bs, Plain b) (hne : bs ≠ []) :
    scan ⟨d, n, true, false⟩ bs =
      if n + bs.length ≤ maxStringBytes then .ok ⟨d, n + bs.length, true, false⟩
      else .error .stringTooLarge := by
  induction bs generalizing n with
  | nil => exact absurd rfl hne
  | cons b bs ih =>
    obtain ⟨h1, h2⟩ := h b List.mem_cons_self
    have hb : scanByte ⟨d, n, true, false⟩ b =
        if n + 1 > maxStringBytes then .error .stringTooLarge
        else .ok ⟨d, n + 1, true, false⟩ := by
      simp [scanByte, h1, h2]
    rw [scan_cons, hb]
    by_cases hn : n + 1 > maxStringBytes
    · rw [if_pos hn, if_neg (by simp only [List.length_cons]; omega)]
      rfl
    · rw [if_neg hn]
      change scan ⟨d, n + 1, true, false⟩ bs = _
      cases bs with
      | nil => rw [if_pos (by simp; omega)]; simp
      | cons b' bs' =>
        rw [ih (fun x hx => h x (List.mem_cons_of_mem _ hx)) (by simp)]
        simp only [List.length_cons]
        by_cases hlen : n + (bs'.length + 1 + 1) ≤ maxStringBytes
        · rw [if_pos hlen, if_pos (by omega)]
          congr 2
          omega
        · rw [if_neg hlen, if_neg (by omega)]

/-- The scan of one character of a string literal: a short escape is never refused. -/
theorem scan_escapeChar (d n : Nat) (c : Char) :
    scan ⟨d, n, true, false⟩ (Json.escapeChar c) =
      if (Json.shortEscape c).isSome then .ok ⟨d, n + 1, true, false⟩
      else
        if n + (if c.toNat < 0x20 then 5 else c.utf8Size) ≤ maxStringBytes then
          .ok ⟨d, n + (if c.toNat < 0x20 then 5 else c.utf8Size), true, false⟩
        else .error .stringTooLarge := by
  unfold Json.escapeChar
  cases hs : Json.shortEscape c with
  | some letter => simp [scan_cons, scanByte, Except.bind]
  | none =>
    simp only [Option.isSome_none, Bool.false_eq_true, if_false]
    by_cases hc : c.toNat < 0x20
    · simp only [if_pos hc]
      have h1 : scanByte ⟨d, n, true, false⟩ 0x5c = .ok ⟨d, n, true, true⟩ := by
        simp [scanByte]
      have h2 : scanByte ⟨d, n, true, true⟩ 0x75 = .ok ⟨d, n + 1, true, false⟩ := by
        simp [scanByte]
      rw [scan_cons_of_ok h1, scan_cons_of_ok h2, scan_plain]
      · simp [Nat.add_assoc]
      · intro b hb
        simp only [List.mem_cons, List.not_mem_nil, or_false] at hb
        rcases hb with rfl | rfl | rfl | rfl
        · exact ⟨by decide, by decide⟩
        · exact ⟨by decide, by decide⟩
        · exact plain_hexDigit _ (by omega)
        · exact plain_hexDigit _ (by omega)
      · simp
    · simp only [if_neg hc]
      rw [scan_plain (plain_utf8EncodeChar hs), String.length_utf8EncodeChar]
      exact String.utf8EncodeChar_ne_nil

theorem scan_flatMap_escapeChar (d n : Nat) (cs : List Char) :
    ∃ n', scan ⟨d, n, true, false⟩ (cs.flatMap Json.escapeChar) =
      if fitsFrom n cs then .ok ⟨d, n', true, false⟩ else .error .stringTooLarge := by
  induction cs generalizing n with
  | nil => exact ⟨n, by simp [fitsFrom]⟩
  | cons c cs ih =>
    have hc := scan_escapeChar d n c
    rw [List.flatMap_cons]
    unfold fitsFrom
    by_cases hs : (Json.shortEscape c).isSome
    · rw [if_pos hs] at hc
      obtain ⟨n', h⟩ := ih (n + 1)
      exact ⟨n', by rw [scan_append_of_ok hc, h, if_pos hs]⟩
    · rw [if_neg hs] at hc
      obtain ⟨n', h⟩ := ih (n + if c.toNat < 0x20 then 5 else c.utf8Size)
      refine ⟨n', ?_⟩
      by_cases hn : n + (if c.toNat < 0x20 then 5 else c.utf8Size) ≤ maxStringBytes
      · rw [if_pos hn] at hc
        simp only [scan_append_of_ok hc, h, if_neg hs, hn, decide_true, Bool.true_and]
      · rw [if_neg hn] at hc
        simp only [scan_append_of_error hc, if_neg hs, hn, decide_false, Bool.false_and]
        rfl

/-- A string literal passes the scan exactly when the string fits. -/
theorem scan_renderString (d : Nat) (s : String) :
    scan ⟨d, 0, false, false⟩ (Json.renderString s) =
      if fitsString s then .ok ⟨d, 0, false, false⟩ else .error .stringTooLarge := by
  have hopen : scanByte ⟨d, 0, false, false⟩ 0x22 = .ok ⟨d, 0, true, false⟩ := by simp [scanByte]
  obtain ⟨n', h⟩ := scan_flatMap_escapeChar d 0 s.toList
  unfold Json.renderString
  rw [scan_cons_of_ok hopen]
  by_cases hf : fitsString s
  · rw [if_pos hf]
    rw [show fitsFrom 0 s.toList = true from hf, if_pos rfl] at h
    rw [scan_append_of_ok h]
    simp [scan_cons, scanByte, Except.bind]
  · rw [if_neg hf]
    rw [if_neg (show ¬ fitsFrom 0 s.toList = true from hf)] at h
    exact scan_append_of_error h _

/-- A byte that means nothing to the scan outside of strings. -/
def Inert (b : UInt8) : Prop :=
  b ≠ 0x22 ∧ b ≠ 0x7b ∧ b ≠ 0x5b ∧ b ≠ 0x7d ∧ b ≠ 0x5d

instance (b : UInt8) : Decidable (Inert b) := by unfold Inert; infer_instance

theorem scan_inert {d n : Nat} {bs : List UInt8} (h : ∀ b ∈ bs, Inert b) :
    scan ⟨d, n, false, false⟩ bs = .ok ⟨d, n, false, false⟩ := by
  induction bs with
  | nil => rfl
  | cons b bs ih =>
    obtain ⟨h1, h2, h3, h4, h5⟩ := h b List.mem_cons_self
    have hb : scanByte ⟨d, n, false, false⟩ b = .ok ⟨d, n, false, false⟩ := by
      simp [scanByte, h1, h2, h3, h4, h5]
    rw [scan_cons_of_ok hb]
    exact ih fun x hx => h x (List.mem_cons_of_mem _ hx)

theorem inert_renderNat (n : Nat) : ∀ b ∈ Json.renderNat n, Inert b := by
  intro b hb
  obtain ⟨c, hc, rfl⟩ := List.mem_map.mp hb
  have hd := Nat.isDigit_of_mem_toDigits (by decide) (by decide) hc
  have h48 : 48 ≤ c.toNat ∧ c.toNat ≤ 57 := by
    simpa [Char.isDigit, UInt32.le_iff_toNat_le] using hd
  have hall : ∀ k ≤ 57, 48 ≤ k → Inert (UInt8.ofNat k) := by decide
  exact hall _ h48.2 h48.1

theorem inert_renderInt (n : Int) : ∀ b ∈ Json.renderInt n, Inert b := by
  intro b hb
  cases n with
  | ofNat n => exact inert_renderNat n b hb
  | negSucc n =>
    rcases List.mem_cons.mp hb with rfl | hb
    · decide
    · exact inert_renderNat _ b hb

theorem scanByte_open {d : Nat} {b : UInt8} (hb : b = 0x7b ∨ b = 0x5b) (hd : d + 1 ≤ maxDepth) :
    scanByte ⟨d, 0, false, false⟩ b = .ok ⟨d + 1, 0, false, false⟩ := by
  rcases hb with rfl | rfl <;> simp [scanByte, Nat.not_lt.mpr hd]

theorem scanByte_close {d : Nat} {b : UInt8} (hb : b = 0x7d ∨ b = 0x5d) :
    scanByte ⟨d + 1, 0, false, false⟩ b = .ok ⟨d, 0, false, false⟩ := by
  rcases hb with rfl | rfl <;> simp [scanByte]

theorem scanByte_inert {d : Nat} {b : UInt8} (hb : Inert b) :
    scanByte ⟨d, 0, false, false⟩ b = .ok ⟨d, 0, false, false⟩ := by
  obtain ⟨h1, h2, h3, h4, h5⟩ := hb
  simp [scanByte, h1, h2, h3, h4, h5]

/-- Scanning `as` and then `bs` when each passes exactly under its own condition. -/
theorem scan_append_if {s t u : Scan} {as bs : List UInt8} {p q : Bool}
    (has : scan s as = if p then .ok t else .error .stringTooLarge)
    (hbs : scan t bs = if q then .ok u else .error .stringTooLarge) :
    scan s (as ++ bs) = if p && q then .ok u else .error .stringTooLarge := by
  cases p with
  | true =>
    rw [if_pos rfl] at has
    simpa [scan_append_of_ok has] using hbs
  | false =>
    rw [if_neg (by simp)] at has
    rw [scan_append_of_error has]
    simp

section
open Json Json.Value

/-- A member `key:value` when its value passes exactly under `p`. -/
theorem scan_member {d : Nat} {k : String} {v : Value} {p : Bool}
    (hv : scan ⟨d, 0, false, false⟩ v.render =
      if p then .ok ⟨d, 0, false, false⟩ else .error .stringTooLarge) :
    scan ⟨d, 0, false, false⟩ (renderString k ++ 0x3a :: v.render) =
      if fitsString k && p then .ok ⟨d, 0, false, false⟩ else .error .stringTooLarge := by
  refine scan_append_if (scan_renderString d k) ?_
  rw [scan_cons_of_ok (scanByte_inert (by decide))]
  exact hv

mutual

/-- **The scan of a rendering.** A value that does not nest too deep passes exactly when all of
its strings fit, and the scan is then back where it started. -/
theorem scan_render (v : Value) (d : Nat) (hd : d + v.depth ≤ maxDepth) :
    scan ⟨d, 0, false, false⟩ v.render =
      if v.allStrings fitsString then .ok ⟨d, 0, false, false⟩ else .error .stringTooLarge := by
  match v with
  | .null => exact scan_inert (by decide +kernel)
  | .bool true => exact scan_inert (by decide +kernel)
  | .bool false => exact scan_inert (by decide +kernel)
  | .num n => simpa [render, allStrings] using scan_inert (inert_renderInt n)
  | .str s =>
    simp only [render, allStrings]
    exact scan_renderString d s
  | .arr [] =>
    have hd' : d + 1 ≤ maxDepth := by simp only [depth, depthElems] at hd; omega
    simp only [render, allStrings, allStringsElems, if_true]
    rw [scan_cons_of_ok (scanByte_open (.inr rfl) hd'),
      scan_cons_of_ok (scanByte_close (.inr rfl)), scan_nil]
  | .arr (v :: vs) =>
    simp only [depth, depthElems] at hd
    have hv := scan_render v (d + 1) (by omega)
    have hvs := scan_renderElems vs (d + 1) (by omega)
    simp only [render, allStrings, allStringsElems]
    rw [scan_cons_of_ok (scanByte_open (.inr rfl) (by omega))]
    have := scan_append_if (scan_append_if hv hvs)
      (show scan ⟨d + 1, 0, false, false⟩ [0x5d] = if true then .ok ⟨d, 0, false, false⟩
        else .error .stringTooLarge by
        rw [scan_cons_of_ok (scanByte_close (.inr rfl))]; rfl)
    simpa using this
  | .obj [] =>
    have hd' : d + 1 ≤ maxDepth := by simp only [depth, depthMembers] at hd; omega
    simp only [render, allStrings, allStringsMembers, if_true]
    rw [scan_cons_of_ok (scanByte_open (.inl rfl) hd'),
      scan_cons_of_ok (scanByte_close (.inl rfl)), scan_nil]
  | .obj ((k, v) :: ms) =>
    simp only [depth, depthMembers] at hd
    have hv := scan_member (k := k) (scan_render v (d + 1) (by omega))
    have hms := scan_renderMembers ms (d + 1) (by omega)
    simp only [render, allStrings, allStringsMembers]
    rw [scan_cons_of_ok (scanByte_open (.inl rfl) (by omega))]
    have := scan_append_if (scan_append_if hv hms)
      (show scan ⟨d + 1, 0, false, false⟩ [0x7d] = if true then .ok ⟨d, 0, false, false⟩
        else .error .stringTooLarge by
        rw [scan_cons_of_ok (scanByte_close (.inl rfl))]; rfl)
    simpa using this

theorem scan_renderElems (vs : List Value) (d : Nat) (hd : d + depthElems vs ≤ maxDepth) :
    scan ⟨d, 0, false, false⟩ (renderElems vs) =
      if allStringsElems fitsString vs then .ok ⟨d, 0, false, false⟩
      else .error .stringTooLarge := by
  match vs with
  | [] => rfl
  | v :: vs =>
    simp only [depthElems] at hd
    simp only [renderElems, allStringsElems]
    rw [scan_cons_of_ok (scanByte_inert (by decide))]
    exact scan_append_if (scan_render v d (by omega)) (scan_renderElems vs d (by omega))

theorem scan_renderMembers (ms : List (String × Value)) (d : Nat)
    (hd : d + depthMembers ms ≤ maxDepth) :
    scan ⟨d, 0, false, false⟩ (renderMembers ms) =
      if allStringsMembers fitsString ms then .ok ⟨d, 0, false, false⟩
      else .error .stringTooLarge := by
  match ms with
  | [] => rfl
  | (k, v) :: ms =>
    simp only [depthMembers] at hd
    simp only [renderMembers, allStringsMembers]
    rw [scan_cons_of_ok (scanByte_inert (by decide))]
    exact scan_append_if (scan_member (scan_render v d (by omega)))
      (scan_renderMembers ms d (by omega))

end

end

/-- `inspect` on a rendered document within the bounds on size and depth. -/
theorem inspect_render (v : Json.Value) (hsize : v.size ≤ maxDocumentBytes)
    (hdepth : v.depth ≤ maxDepth) :
    inspect v.render = if v.allStrings fitsString then .ok () else .error .stringTooLarge := by
  have hscan := scan_render v 0 (by omega)
  have hlen : ¬ v.render.length > maxDocumentBytes := by
    simp only [Json.Value.size] at hsize
    omega
  simp only [inspect, if_neg hlen]
  change (scan ⟨0, 0, false, false⟩ v.render).map _ = _
  rw [hscan]
  split <;> rfl

/-- **The canonical round trip.** A document whose encoding is within the bounds, and which the
parser reads back from it, decodes exactly when all of its strings fit. -/
theorem canonicalDecode_canonicalEncode {α : Type} [Serialize α]
    {fromSlice : List UInt8 → Except String α} {a : α}
    (hserde : fromSlice (canonicalEncode a) = .ok a)
    (hsize : (canonicalEncode a).length ≤ maxDocumentBytes)
    (hdepth : (Serialize.toValue a).depth ≤ maxDepth) :
    canonicalDecode fromSlice (canonicalEncode a) =
      if (Serialize.toValue a).allStrings fitsString then .ok a else .error .stringTooLarge := by
  have h := inspect_render (Serialize.toValue a) hsize hdepth
  rw [show (Serialize.toValue a).render = canonicalEncode a from rfl] at h
  unfold canonicalDecode
  rw [h]
  split
  · simp only [hserde, if_true]
    rfl
  · rfl

/-- A document comes back exactly when it and its strings are within the bounds and the parser
returns its value. -/
theorem canonicalDecode_canonicalEncode_iff {α : Type} [Serialize α]
    {fromSlice : List UInt8 → Except String α} {a : α}
    (hdepth : (Serialize.toValue a).depth ≤ maxDepth) :
    canonicalDecode fromSlice (canonicalEncode a) = .ok a ↔
      (canonicalEncode a).length ≤ maxDocumentBytes ∧
        (Serialize.toValue a).allStrings fitsString = true ∧
        fromSlice (canonicalEncode a) = .ok a := by
  by_cases hsize : (canonicalEncode a).length ≤ maxDocumentBytes
  · have hinspect := inspect_render (Serialize.toValue a) hsize hdepth
    rw [canonicalDecode, canonicalEncode, hinspect]
    by_cases hstrings : (Serialize.toValue a).allStrings fitsString = true
    · rw [if_pos hstrings]
      cases hslice : fromSlice (Serialize.toValue a).render with
      | error message => simp [bind, Except.bind, hslice]
      | ok value =>
        simp only [bind, Except.bind, hslice, hstrings]
        split
        · next hsame => simp_all [canonicalEncode]
        · next hsame =>
          simp only [reduceCtorEq, Except.ok.injEq, true_and, false_iff, not_and]
          rintro - rfl
          exact hsame rfl
    · rw [if_neg hstrings]
      simp [bind, Except.bind, hstrings]
  · have hinspect : inspect (canonicalEncode a) = .error .documentTooLarge := by
      rw [inspect, if_pos (by omega)]
    simp [canonicalDecode, hinspect, bind, Except.bind, hsize]

end Dnfast.Core
