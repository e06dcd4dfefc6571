import Dnfast.Core.Canonical
import Dnfast.Json.Grammar

/-! # What `inspect` accepts

The scan against the grammar of documents. `Passes s t bytes p` says that the scan takes `bytes`
from the state `s` to `t` exactly when `p` holds and is refused otherwise; every part of a document
passes, from a depth back to the same depth, under a condition on its nesting and its strings.

The scan counts a string as `literalSize` does, but it does not compare every byte it counts:
`compared` lists the counted bytes of an item with whether the bound is looked at there. A string
is let through when no compared byte comes after the first `maxStringBytes`. -/

namespace Dnfast.Core

open Json (StringItem Kind Part Document literal literalSize IsSpace Plain plain_utf8EncodeChar)

/-- The counted bytes of an item, `true` where the count is compared with the bound. The byte
after a backslash is not. -/
def compared : StringItem → List Bool
  | .char c => List.replicate c.utf8Size true
  | .escape _ => [false]
  | .unicode .. => [false, true, true, true, true]

/-- No compared byte is past the bound when `n` bytes have been counted before. -/
def within (n : Nat) : List Bool → Prop
  | [] => True
  | c :: cs => (c = true → n + 1 ≤ maxStringBytes) ∧ within (n + 1) cs

/-- A string that the scan lets through: after its first `maxStringBytes` counted bytes there is
no compared one. -/
def LetThrough (items : List StringItem) : Prop :=
  true ∉ (items.flatMap compared).drop maxStringBytes

theorem length_compared (item : StringItem) : (compared item).length = item.size := by
  cases item with
  | char c => exact List.length_replicate
  | escape letter => rfl
  | unicode a b c d => rfl

theorem length_flatMap_compared (items : List StringItem) :
    (items.flatMap compared).length = literalSize items := by
  rw [List.length_flatMap, literalSize]
  congr 2
  exact funext length_compared

/-- A string within the bound is let through. -/
theorem letThrough_of_size {items : List StringItem} (h : literalSize items ≤ maxStringBytes) :
    LetThrough items := by
  unfold LetThrough
  rw [List.drop_eq_nil_of_le (by rwa [length_flatMap_compared])]
  exact List.not_mem_nil

theorem within_append (n : Nat) (as bs : List Bool) :
    within n (as ++ bs) ↔ within n as ∧ within (n + as.length) bs := by
  induction as generalizing n with
  | nil => simp [within]
  | cons a as ih =>
    simp only [List.cons_append, within, ih (n + 1), List.length_cons, and_assoc]
    rw [Nat.add_right_comm n 1 as.length, Nat.add_assoc n as.length 1]

theorem within_iff (n : Nat) (cs : List Bool) :
    within n cs ↔ true ∉ cs.drop (maxStringBytes - n) := by
  induction cs generalizing n with
  | nil => simp [within]
  | cons c cs ih =>
    by_cases hn : n + 1 ≤ maxStringBytes
    · have hdrop : maxStringBytes - n = maxStringBytes - (n + 1) + 1 := by omega
      simp only [within, ih (n + 1), hdrop, List.drop_succ_cons]
      exact and_iff_right fun _ => hn
    · have hz : maxStringBytes - n = 0 := by omega
      have hz' : maxStringBytes - (n + 1) = 0 := by omega
      simp only [within, ih (n + 1), hz, hz', List.drop_zero, List.mem_cons, not_or]
      refine and_congr_left fun _ => ?_
      cases c with
      | true => simp [hn]
      | false => simp

/-! ## Passing the scan -/

/-- The scan of the bytes from `s` ends in `t` when `p` holds, and is refused when it does not. -/
def Passes (s t : Scan) (bytes : List UInt8) (p : Prop) : Prop :=
  (p ∧ scan s bytes = .ok t) ∨ (¬ p ∧ ∃ e, scan s bytes = .error e)

namespace Passes

variable {s t u : Scan} {as bs : List UInt8} {p q : Prop}

theorem of_ok (h : scan s as = .ok t) : Passes s t as True := .inl ⟨trivial, h⟩

theorem append (ha : Passes s t as p) (hb : Passes t u bs q) : Passes s u (as ++ bs) (p ∧ q) := by
  rcases ha with ⟨hp, ha⟩ | ⟨hp, e, ha⟩
  · rcases hb with ⟨hq, hb⟩ | ⟨hq, e, hb⟩
    · refine .inl ⟨⟨hp, hq⟩, ?_⟩
      rw [scan_append_of_ok ha, hb]
    · refine .inr ⟨fun h => hq h.2, e, ?_⟩
      rw [scan_append_of_ok ha, hb]
  · exact .inr ⟨fun h => hp h.1, e, scan_append_of_error ha bs⟩

theorem congr (h : Passes s t as p) (hpq : p ↔ q) : Passes s t as q := by
  unfold Passes at *
  rwa [← hpq]

/-- Bytes that leave the state alone in front. -/
theorem ok_append (ha : scan s as = .ok t) (hb : Passes t u bs q) : Passes s u (as ++ bs) q :=
  ((of_ok ha).append hb).congr (iff_of_eq (true_and q))

theorem append_ok (ha : Passes s t as p) (hb : scan t bs = .ok u) : Passes s u (as ++ bs) p :=
  (ha.append (of_ok hb)).congr (iff_of_eq (and_true p))

theorem cons_ok {b : UInt8} (h : scanByte s b = .ok t) (hb : Passes t u bs q) :
    Passes s u (b :: bs) q := by
  have hbyte : scan s [b] = .ok t := scan_cons_of_ok h []
  exact ok_append hbyte hb

theorem isOk_iff (h : Passes s t as p) : (∃ t', scan s as = .ok t') ↔ p := by
  rcases h with ⟨hp, h⟩ | ⟨hp, e, h⟩
  · exact iff_of_true ⟨t, h⟩ hp
  · refine iff_of_false ?_ hp
    rintro ⟨t', ht⟩
    rw [h] at ht
    exact nomatch ht

end Passes

/-! ## String literals -/

theorem passes_plain {d n : Nat} {bs : List UInt8} (h : ∀ b ∈ bs, Plain b) (hne : bs ≠ []) :
    Passes ⟨d, n, true, false⟩ ⟨d, n + bs.length, true, false⟩ bs
      (n + bs.length ≤ maxStringBytes) := by
  have hs := scan_plain (d := d) (n := n) h hne
  by_cases hn : n + bs.length ≤ maxStringBytes
  · rw [if_pos hn] at hs
    exact .inl ⟨hn, hs⟩
  · rw [if_neg hn] at hs
    exact .inr ⟨hn, _, hs⟩

/-- Bytes that are all compared: the last of them decides. -/
theorem within_replicate (n : Nat) {k : Nat} (hk : k ≠ 0) :
    within n (List.replicate k true) ↔ n + k ≤ maxStringBytes := by
  induction k generalizing n with
  | zero => exact absurd rfl hk
  | succ k ih =>
    rw [List.replicate_succ, within]
    cases k with
    | zero => simp [within]
    | succ k =>
      rw [ih (n + 1) (Nat.succ_ne_zero k)]
      omega

theorem scan_backslash (d n : Nat) (letter : UInt8) :
    scan ⟨d, n, true, false⟩ [0x5c, letter] = .ok ⟨d, n + 1, true, false⟩ := by
  have h1 : scanByte ⟨d, n, true, false⟩ 0x5c = .ok ⟨d, n, true, true⟩ := by simp [scanByte]
  have h2 : scanByte ⟨d, n, true, true⟩ letter = .ok ⟨d, n + 1, true, false⟩ := by simp [scanByte]
  rw [scan_cons_of_ok h1, scan_cons_of_ok h2, scan_nil]

theorem plain_of_isHex {b : UInt8} (h : Json.IsHex b) : Plain b := by
  have hb : (0x30 ≤ b ∧ b ≤ 0x39) ∨ (0x41 ≤ b ∧ b ≤ 0x46) ∨ (0x61 ≤ b ∧ b ≤ 0x66) := h
  constructor
  all_goals
    rintro rfl
    revert hb
    decide

theorem passes_item (d n : Nat) {item : StringItem} (h : item.WellFormed) :
    Passes ⟨d, n, true, false⟩ ⟨d, n + item.size, true, false⟩ item.bytes
      (within n (compared item)) := by
  cases item with
  | char c =>
    obtain ⟨h1, h2, h3⟩ := h
    have hs : Json.shortEscape c = none := by
      unfold Json.shortEscape
      split <;> first | rfl | omega
    have hp := passes_plain (d := d) (n := n) (plain_utf8EncodeChar hs)
      String.utf8EncodeChar_ne_nil
    rw [String.length_utf8EncodeChar] at hp
    exact hp.congr (within_replicate n (Nat.pos_iff_ne_zero.mp c.utf8Size_pos)).symm
  | escape letter =>
    exact (Passes.of_ok (scan_backslash d n letter)).congr (by simp [compared, within])
  | unicode a b c e =>
    obtain ⟨ha, hb, hc, he⟩ := h
    have hplain : ∀ x ∈ [a, b, c, e], Plain x := by
      intro x hx
      simp only [List.mem_cons, List.not_mem_nil, or_false] at hx
      rcases hx with rfl | rfl | rfl | rfl
      · exact plain_of_isHex ha
      · exact plain_of_isHex hb
      · exact plain_of_isHex hc
      · exact plain_of_isHex he
    have hp := passes_plain (d := d) (n := n + 1) hplain (List.cons_ne_nil _ _)
    have h5 := hp.congr (within_replicate (n + 1) (k := 4) (by decide)).symm
    exact (Passes.ok_append (scan_backslash d n 0x75) h5).congr (by simp [compared, within])

theorem passes_items (d : Nat) {items : List StringItem} (h : ∀ item ∈ items, item.WellFormed)
    (n : Nat) :
    Passes ⟨d, n, true, false⟩ ⟨d, n + literalSize items, true, false⟩
      (items.flatMap StringItem.bytes) (within n (items.flatMap compared)) := by
  induction items generalizing n with
  | nil => exact .inl ⟨trivial, rfl⟩
  | cons item items ih =>
    have hi := passes_item d n (h item List.mem_cons_self)
    have hr := ih (fun i hi => h i (List.mem_cons_of_mem _ hi)) (n + item.size)
    have hsize : n + literalSize (item :: items) = n + item.size + literalSize items := by
      simp [literalSize, Nat.add_assoc]
    rw [hsize, List.flatMap_cons, List.flatMap_cons]
    refine (hi.append hr).congr ?_
    rw [within_append, length_compared]

/-- A string literal passes exactly when it is let through. -/
theorem passes_literal (d : Nat) {items : List StringItem} (h : ∀ item ∈ items, item.WellFormed) :
    Passes ⟨d, 0, false, false⟩ ⟨d, 0, false, false⟩ (literal items) (LetThrough items) := by
  have hopen : scanByte ⟨d, 0, false, false⟩ 0x22 = .ok ⟨d, 0, true, false⟩ := by simp [scanByte]
  have hclose (n : Nat) : scan ⟨d, n, true, false⟩ [0x22] = .ok ⟨d, 0, false, false⟩ := by
    simp [scan_cons, scanByte, Except.bind]
  have hitems := (passes_items d h 0).append_ok (hclose _)
  exact (Passes.cons_ok hopen hitems).congr (within_iff 0 _)

/-! ## The parts of a document -/

theorem inert_of_bare {b : UInt8} (h : Json.Bare b) : Inert b := by
  have hb : b ∉ [0x22, 0x5b, 0x5d, 0x7b, 0x7d] := h
  simp only [List.mem_cons, List.not_mem_nil, or_false, not_or] at hb
  obtain ⟨h1, h2, h3, h4, h5⟩ := hb
  exact ⟨h1, h4, h2, h5, h3⟩

theorem scan_bare (d : Nat) {bs : List UInt8} (h : ∀ b ∈ bs, Json.Bare b) :
    scan ⟨d, 0, false, false⟩ bs = .ok ⟨d, 0, false, false⟩ :=
  scan_inert fun b hb => inert_of_bare (h b hb)

/-- What stands between two brackets: the scan refuses the opening one at the greatest depth. -/
theorem passes_brackets {d : Nat} {left right : UInt8} {bs : List UInt8} {p : Prop}
    (hl : left = 0x7b ∨ left = 0x5b) (hr : right = 0x7d ∨ right = 0x5d)
    (h : d + 1 ≤ maxDepth → Passes ⟨d + 1, 0, false, false⟩ ⟨d + 1, 0, false, false⟩ bs p) :
    Passes ⟨d, 0, false, false⟩ ⟨d, 0, false, false⟩ (left :: (bs ++ [right]))
      (d + 1 ≤ maxDepth ∧ p) := by
  by_cases hd : d + 1 ≤ maxDepth
  · have hclose : scan ⟨d + 1, 0, false, false⟩ [right] = .ok ⟨d, 0, false, false⟩ :=
      scan_cons_of_ok (scanByte_close hr) []
    have hp := Passes.cons_ok (scanByte_open hl hd) ((h hd).append_ok hclose)
    exact hp.congr (by simp [hd])
  · refine .inr ⟨fun hc => hd hc.1, .depthExceeded, ?_⟩
    have hopen : scanByte ⟨d, 0, false, false⟩ left = .error .depthExceeded := by
      rcases hl with rfl | rfl <;> simp [scanByte, Nat.not_le.mp hd]
    rw [scan_cons, hopen]
    rfl

/-- One part and a separator before another. -/
theorem passes_separated {d : Nat} {b : UInt8} (hb : Json.Bare b) {as bs : List UInt8} {p q : Prop}
    (ha : Passes ⟨d, 0, false, false⟩ ⟨d, 0, false, false⟩ as p)
    (h : Passes ⟨d, 0, false, false⟩ ⟨d, 0, false, false⟩ bs q) :
    Passes ⟨d, 0, false, false⟩ ⟨d, 0, false, false⟩ (as ++ b :: bs) (p ∧ q) :=
  ha.append (.cons_ok (scanByte_inert (inert_of_bare hb)) h)

/-- **The scan of a part of a document.** From a depth that is within the bound it passes exactly
when its brackets stay within the bound and all of its strings are let through. -/
theorem passes_part {kind : Kind} {bytes : List UInt8} {depth : Nat}
    {strings : List (List StringItem)} (h : Part kind bytes depth strings) (d : Nat)
    (hd : d ≤ maxDepth) :
    Passes ⟨d, 0, false, false⟩ ⟨d, 0, false, false⟩ bytes
      (d + depth ≤ maxDepth ∧ ∀ items ∈ strings, LetThrough items) := by
  induction h generalizing d with
  | name h =>
    have hall : [Json.ascii "null", Json.ascii "true", Json.ascii "false"].all
        (·.all fun b => Json.Bare b) := by decide +kernel
    simp only [List.all_eq_true, decide_eq_true_eq] at hall
    exact (Passes.of_ok (scan_bare d (hall _ h))).congr (by simp [hd])
  | number h => exact (Passes.of_ok (scan_bare d h.bare)).congr (by simp [hd])
  | string h => exact (passes_literal d h).congr (by simp [hd])
  | emptyArray h =>
    refine (passes_brackets (.inr rfl) (.inr rfl) fun _ => .of_ok (scan_bare _ h.bare)).congr ?_
    simp
  | array h ih =>
    refine (passes_brackets (.inr rfl) (.inr rfl) fun hd' => ih (d + 1) hd').congr ?_
    rw [Nat.add_right_comm, ← and_assoc]
    exact and_congr_left fun _ => ⟨fun h => h.2, fun h => ⟨by omega, h⟩⟩
  | emptyObject h =>
    refine (passes_brackets (.inl rfl) (.inl rfl) fun _ => .of_ok (scan_bare _ h.bare)).congr ?_
    simp
  | object h ih =>
    refine (passes_brackets (.inl rfl) (.inl rfl) fun hd' => ih (d + 1) hd').congr ?_
    rw [Nat.add_right_comm, ← and_assoc]
    exact and_congr_left fun _ => ⟨fun h => h.2, fun h => ⟨by omega, h⟩⟩
  | element hb h ha ih =>
    exact .ok_append (scan_bare d hb.bare) ((ih d hd).append_ok (scan_bare d ha.bare))
  | lastElement h ih => exact ih d hd
  | moreElements h hr ih ihr =>
    refine (passes_separated (by decide) (ih d hd) (ihr d hd)).congr ?_
    rw [and_and_and_comm]
    refine and_congr (by omega) ?_
    simp only [List.mem_append, or_imp, forall_and]
  | member hb hn ha h ih =>
    refine (Passes.ok_append (scan_bare d hb.bare) ((passes_literal d hn).append
      (.ok_append (scan_bare d ha.bare)
        (.cons_ok (scanByte_inert (by decide)) (ih d hd))))).congr ?_
    rw [List.forall_mem_cons, and_left_comm]
  | lastMember h ih => exact ih d hd
  | moreMembers h hr ih ihr =>
    refine (passes_separated (by decide) (ih d hd) (ihr d hd)).congr ?_
    rw [and_and_and_comm]
    refine and_congr (by omega) ?_
    simp only [List.mem_append, or_imp, forall_and]

/-- `inspect` on a well-formed document. -/
theorem inspect_document {bytes : List UInt8} {depth : Nat} {strings : List (List StringItem)}
    (h : Document bytes depth strings) :
    inspect bytes = .ok () ↔ bytes.length ≤ maxDocumentBytes ∧ depth ≤ maxDepth ∧
      ∀ items ∈ strings, LetThrough items := by
  have hp := (passes_part h 0 (Nat.zero_le _)).isOk_iff
  rw [Nat.zero_add] at hp
  rw [← hp]
  unfold inspect
  by_cases hlen : bytes.length > maxDocumentBytes
  · rw [if_pos hlen]
    simp [Nat.not_le.mpr hlen]
  · rw [if_neg hlen]
    change (scan ⟨0, 0, false, false⟩ bytes).map _ = _ ↔ _
    cases hs : scan ⟨0, 0, false, false⟩ bytes with
    | error e => simp [Except.map]
    | ok t => simp [Except.map, Nat.not_lt.mp hlen]

/-- The bounds that the constants state: on the document, on its nesting, and on the bytes of each
string with an escape pair counted as one. -/
def Bounded (bytes : List UInt8) (depth : Nat) (strings : List (List StringItem)) : Prop :=
  bytes.length ≤ maxDocumentBytes ∧ depth ≤ maxDepth ∧
    ∀ items ∈ strings, literalSize items ≤ maxStringBytes

/-- **When the scan keeps the bounds.** A document that is too long or too deep is refused, and so
is one with a string that has a compared byte past the bound. What is left agrees with the bounds
exactly when no string is over it: a string that is over the bound only by the second bytes of
escape pairs is accepted. -/
theorem inspect_iff_bounded_iff {bytes : List UInt8} {depth : Nat}
    {strings : List (List StringItem)} (h : Document bytes depth strings) :
    (inspect bytes = .ok () ↔ Bounded bytes depth strings) ↔
      (maxDocumentBytes < bytes.length ∨ maxDepth < depth ∨
        (∃ items ∈ strings, true ∈ (items.flatMap compared).drop maxStringBytes) ∨
        ∀ items ∈ strings, literalSize items ≤ maxStringBytes) := by
  rw [inspect_document h]
  unfold Bounded
  by_cases hlen : bytes.length ≤ maxDocumentBytes
  · by_cases hdepth : depth ≤ maxDepth
    · simp only [hlen, hdepth, true_and, Nat.not_lt.mpr hlen, Nat.not_lt.mpr hdepth, false_or]
      have hlet : (∀ items ∈ strings, LetThrough items) ↔
          ¬ ∃ items ∈ strings, true ∈ (items.flatMap compared).drop maxStringBytes := by
        simp only [LetThrough, not_exists, not_and]
      have hsub : (∀ items ∈ strings, literalSize items ≤ maxStringBytes) →
          ∀ items ∈ strings, LetThrough items :=
        fun hs items hi => letThrough_of_size (hs items hi)
      rw [hlet] at hsub ⊢
      constructor
      · intro hiff
        by_cases hs : ∃ items ∈ strings, true ∈ (items.flatMap compared).drop maxStringBytes
        · exact .inl hs
        · exact .inr (hiff.mp hs)
      · rintro (hs | hs)
        · exact iff_of_false (fun hn => hn hs) fun hb => hsub hb hs
        · exact iff_of_true (hsub hs) hs
    · simp [hdepth, Nat.not_le.mp hdepth]
  · simp [hlen, Nat.not_le.mp hlen]

/-- A string of `n` letters and a line feed. -/
def letters (n : Nat) : List StringItem := List.replicate n (.char 'a') ++ [.escape 0x6e]

theorem wellFormed_letters (n : Nat) : ∀ item ∈ letters n, item.WellFormed := by
  intro item hi
  rcases List.mem_append.mp hi with hi | hi
  · rw [List.eq_of_mem_replicate hi]
    unfold StringItem.WellFormed
    decide
  · rw [List.mem_singleton.mp hi]
    unfold StringItem.WellFormed
    decide

theorem literalSize_letters (n : Nat) : literalSize (letters n) = n + 1 := by
  have ha : 'a'.utf8Size = 1 := by decide
  simp [literalSize, letters, StringItem.size, ha]

theorem length_literal_letters (n : Nat) : (literal (letters n)).length = n + 4 := by
  have ha : 'a'.utf8Size = 1 := by decide
  simp [literal, letters, StringItem.bytes, List.flatMap_append, List.length_flatMap, ha]

theorem document_letters (n : Nat) : Document (literal (letters n)) 0 [letters n] := by
  have hnone : IsSpace [] := fun b hb => absurd hb List.not_mem_nil
  have h := Part.element hnone (.string (wellFormed_letters n)) hnone
  rwa [List.append_nil] at h

theorem letThrough_letters : LetThrough (letters maxStringBytes) := by
  have hflat (n : Nat) : (letters n).flatMap compared = List.replicate n true ++ [false] := by
    induction n with
    | zero => rfl
    | succ n ih => exact congrArg (true :: ·) ih
  have hlen : (List.replicate maxStringBytes true).length = maxStringBytes :=
    List.length_replicate
  unfold LetThrough
  rw [hflat, List.drop_append_of_le_length (Nat.le_of_eq hlen.symm),
    List.drop_eq_nil_of_le (Nat.le_of_eq hlen), List.nil_append, List.mem_singleton]
  exact Bool.noConfusion

/-- A string of one byte more than the bound, the last one an escape, is accepted. -/
theorem string_past_the_bound :
    Document (literal (letters maxStringBytes)) 0 [letters maxStringBytes] ∧
      inspect (literal (letters maxStringBytes)) = .ok () ∧
      ¬ Bounded (literal (letters maxStringBytes)) 0 [letters maxStringBytes] := by
  have hdoc := document_letters maxStringBytes
  refine ⟨hdoc, (inspect_document hdoc).mpr ⟨?_, Nat.zero_le _, ?_⟩, ?_⟩
  · rw [length_literal_letters]
    decide
  · intro items hi
    rw [List.mem_singleton.mp hi]
    exact letThrough_letters
  · rintro ⟨-, -, hstrings⟩
    have := hstrings _ List.mem_cons_self
    rw [literalSize_letters] at this
    omega

/-- `{"a": ["\n"]}` is within the bounds, and the scan says so. -/
theorem inspect_iff_bounded_small :
    (inspect (Json.ascii "\x7b\"a\": [\"\\n\"]\x7d") = .ok () ↔
      Bounded (Json.ascii "\x7b\"a\": [\"\\n\"]\x7d") 2 [[.char 'a'], [.escape 0x6e]]) := by
  have hspace : IsSpace [] := fun b hb => absurd hb List.not_mem_nil
  have hone : IsSpace [0x20] := fun b hb => by
    rw [List.mem_singleton.mp hb]
    decide
  have hname : ∀ item ∈ [StringItem.char 'a'], item.WellFormed := by
    intro item hi
    rw [List.mem_singleton.mp hi]
    unfold StringItem.WellFormed
    decide
  have hvalue : ∀ item ∈ [StringItem.escape 0x6e], item.WellFormed := by
    intro item hi
    rw [List.mem_singleton.mp hi]
    unfold StringItem.WellFormed
    decide
  have hdoc : Document (Json.ascii "\x7b\"a\": [\"\\n\"]\x7d") 2 [[.char 'a'], [.escape 0x6e]] :=
    .element hspace (.object (.lastMember (.member hspace hname hspace (.element hone
      (.array (.lastElement (.element hspace (.string hvalue) hspace))) hspace)))) hspace
  refine (inspect_iff_bounded_iff hdoc).mpr (.inr (.inr (.inr ?_)))
  intro items hi
  simp only [List.mem_cons, List.not_mem_nil, or_false] at hi
  rcases hi with rfl | rfl <;> decide

end Dnfast.Core
