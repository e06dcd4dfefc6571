import Mathlib.Data.List.TakeWhile
import Mathlib.Tactic.Ring
import Dnfast.Core.VersionOrder

/-! # The RPM order on tokens

The rule of `rpm_part_cmp` in its own terms: a part of a version is a list of tokens that ends with the
end of the part, digits are a number of any length, and the parts are compared token by token. -/

namespace Dnfast.Core

/-! ## Tokens -/

inductive VersionToken where
  | tilde
  | finish
  | caret
  | letters (text : List Char)
  | digits (value : Nat)
  deriving DecidableEq, Repr

namespace VersionToken

/-- `~`, the end, `^`, letters, digits: the order of the kinds. -/
def rank : VersionToken → Nat
  | tilde => 0
  | finish => 1
  | caret => 2
  | letters _ => 3
  | digits _ => 4

def cmp : VersionToken → VersionToken → Ordering
  | letters left, letters right => compare left right
  | digits left, digits right => compare left right
  | left, right => compare left.rank right.rank

theorem cmp_of_rank_lt {a b : VersionToken} (h : a.rank < b.rank) : cmp a b = .lt := by
  have hrank := Nat.compare_eq_lt.mpr h
  cases a <;> cases b <;> first | exact hrank | exact absurd h (Nat.lt_irrefl _)

theorem cmp_of_rank_gt {a b : VersionToken} (h : b.rank < a.rank) : cmp a b = .gt := by
  have hrank := Nat.compare_eq_gt.mpr h
  cases a <;> cases b <;> first | exact hrank | exact absurd h (Nat.lt_irrefl _)

end VersionToken

/-- The number that the digits stand for. -/
def digitsValue (text : List Char) : Nat := text.foldl (fun n c => 10 * n + (c.toNat - 48)) 0

/-- The tokens of a part: what separates them is dropped, and a run of digits or of letters is as long
as it can be. -/
def versionTokens (part : List Char) : List VersionToken :=
  match _h : part.dropWhile isSeparator with
  | [] => [.finish]
  | '~' :: l => .tilde :: versionTokens l
  | '^' :: l => .caret :: versionTokens l
  | a :: l =>
    if a.isDigit then
      .digits (digitsValue (a :: l.takeWhile Char.isDigit)) :: versionTokens (l.dropWhile Char.isDigit)
    else .letters (a :: l.takeWhile Char.isAlpha) :: versionTokens (l.dropWhile Char.isAlpha)
termination_by part.length
decreasing_by
  · exact length_lt_of_dropWhile_eq_cons _h
  · exact length_lt_of_dropWhile_eq_cons _h
  · have hlt := length_lt_of_dropWhile_eq_cons _h
    have hle := (List.dropWhile_sublist Char.isDigit (l := l)).length_le
    omega
  · have hlt := length_lt_of_dropWhile_eq_cons _h
    have hle := (List.dropWhile_sublist Char.isAlpha (l := l)).length_le
    omega

/-! ## Numbers -/

def digitValue (c : Char) : Nat := c.toNat - 48

theorem foldl_digits (text : List Char) (n : Nat) :
    text.foldl (fun n c => 10 * n + (c.toNat - 48)) n = n * 10 ^ text.length + digitsValue text := by
  induction text generalizing n with
  | nil => simp [digitsValue]
  | cons c rest ih =>
    have hvalue : digitsValue (c :: rest) = (c.toNat - 48) * 10 ^ rest.length + digitsValue rest := by
      rw [digitsValue, List.foldl_cons, ih, Nat.mul_zero, Nat.zero_add]
    rw [List.foldl_cons, ih, hvalue, List.length_cons, Nat.pow_succ]
    ring

theorem digitsValue_cons (c : Char) (rest : List Char) :
    digitsValue (c :: rest) = digitValue c * 10 ^ rest.length + digitsValue rest := by
  rw [digitsValue, List.foldl_cons, foldl_digits]
  simp [digitValue]

theorem isDigit_iff_toNat {c : Char} : c.isDigit = true ↔ 48 ≤ c.toNat ∧ c.toNat ≤ 57 := by
  simp [Char.isDigit, UInt32.le_iff_toNat_le]

theorem digitValue_lt {c : Char} (h : c.isDigit = true) : digitValue c < 10 := by
  have hc := isDigit_iff_toNat.mp h
  rw [digitValue]
  omega

theorem digitValue_pos {c : Char} (h : c.isDigit = true) (hzero : c ≠ '0') : 1 ≤ digitValue c := by
  have hc := isDigit_iff_toNat.mp h
  have hne : c.toNat ≠ 48 := fun heq => hzero (Char.toNat_inj.mp heq)
  rw [digitValue]
  omega

theorem digitsValue_lt {text : List Char} (h : ∀ c ∈ text, c.isDigit = true) :
    digitsValue text < 10 ^ text.length := by
  induction text with
  | nil => simp [digitsValue]
  | cons c rest ih =>
    rw [List.forall_mem_cons] at h
    have hc := digitValue_lt h.1
    have hrest := ih h.2
    rw [digitsValue_cons, List.length_cons, Nat.pow_succ]
    calc digitValue c * 10 ^ rest.length + digitsValue rest
        < digitValue c * 10 ^ rest.length + 10 ^ rest.length := by omega
      _ = (digitValue c + 1) * 10 ^ rest.length := by ring
      _ ≤ 10 * 10 ^ rest.length := Nat.mul_le_mul_right _ hc
      _ = 10 ^ rest.length * 10 := Nat.mul_comm ..

theorem digitsValue_dropWhile (text : List Char) :
    digitsValue (text.dropWhile (· == '0')) = digitsValue text := by
  induction text with
  | nil => rfl
  | cons c rest ih =>
    rw [List.dropWhile_cons]
    split
    · next h =>
      rw [beq_iff_eq] at h
      rw [ih, digitsValue_cons, h]
      simp [digitValue]
    · rfl

/-- Without a leading zero the number has as many digits as it needs. -/
theorem pow_le_digitsValue {c : Char} {rest : List Char} (hc : c.isDigit = true) (hzero : c ≠ '0') :
    10 ^ rest.length ≤ digitsValue (c :: rest) := by
  have hpos := digitValue_pos hc hzero
  rw [digitsValue_cons]
  calc 10 ^ rest.length ≤ digitValue c * 10 ^ rest.length := Nat.le_mul_of_pos_left _ hpos
    _ ≤ _ := Nat.le_add_right _ _

theorem digitValue_lt_of_lt {c d : Char} (hc : c.isDigit = true) (h : c < d) :
    digitValue c < digitValue d := by
  have hle := isDigit_iff_toNat.mp hc
  have hlt : c.toNat < d.toNat := h
  rw [digitValue, digitValue]
  omega

/-- The first digit decides. -/
theorem lt_of_digit_lt {c d m m' n : Nat} (h : c < d) (hm : m < 10 ^ n) :
    c * 10 ^ n + m < d * 10 ^ n + m' :=
  calc c * 10 ^ n + m < c * 10 ^ n + 10 ^ n := Nat.add_lt_add_left hm _
    _ = (c + 1) * 10 ^ n := by ring
    _ ≤ d * 10 ^ n := Nat.mul_le_mul_right _ h
    _ ≤ d * 10 ^ n + m' := Nat.le_add_right _ _

/-- Numbers of the same length are compared digit by digit. -/
theorem compare_of_length_eq {left right : List Char} (hleft : ∀ c ∈ left, c.isDigit = true)
    (hright : ∀ c ∈ right, c.isDigit = true) (hlength : left.length = right.length) :
    compare left right = compare (digitsValue left) (digitsValue right) := by
  induction left generalizing right with
  | nil =>
    rw [List.eq_nil_of_length_eq_zero hlength.symm]
    rfl
  | cons c left ih =>
    cases right with
    | nil => cases hlength
    | cons d right =>
      rw [List.forall_mem_cons] at hleft hright
      have hsame : left.length = right.length := Nat.succ.inj hlength
      have hl := digitsValue_lt hleft.2
      have hr := digitsValue_lt hright.2
      rw [List.compare_cons_cons, ih hleft.2 hright.2 hsame, digitsValue_cons, digitsValue_cons, hsame]
      rw [hsame] at hl
      cases hcmp : compare c d with
      | eq =>
        rw [Std.LawfulEqCmp.eq_of_compare hcmp, Ordering.eq_then, Nat.compare_eq_ite_lt,
          Nat.compare_eq_ite_lt]
        simp only [Nat.add_lt_add_iff_left]
      | lt =>
        have hdigit := digitValue_lt_of_lt hleft.1 (compareOfLessAndEq_eq_lt.mp hcmp)
        rw [Ordering.lt_then, eq_comm, Nat.compare_eq_lt]
        exact lt_of_digit_lt hdigit hl
      | gt =>
        have hlt := Std.OrientedCmp.gt_iff_lt.mp hcmp
        have hdigit := digitValue_lt_of_lt hright.1 (compareOfLessAndEq_eq_lt.mp hlt)
        rw [Ordering.gt_then, eq_comm, Nat.compare_eq_gt]
        exact lt_of_digit_lt hdigit hr

theorem digits_dropWhile {text : List Char} (h : ∀ c ∈ text, c.isDigit = true) :
    ∀ c ∈ text.dropWhile (· == '0'), c.isDigit = true :=
  fun c hc => h c ((List.dropWhile_sublist _).subset hc)

/-- A longer number without leading zeros is the larger one. -/
theorem digitsValue_lt_of_length_lt {left right : List Char} (hleft : ∀ c ∈ left, c.isDigit = true)
    (hright : ∀ c ∈ right, c.isDigit = true)
    (hlength : (left.dropWhile (· == '0')).length < (right.dropWhile (· == '0')).length) :
    digitsValue left < digitsValue right := by
  rw [← digitsValue_dropWhile left, ← digitsValue_dropWhile right]
  have hl := digitsValue_lt (digits_dropWhile hleft)
  have hr := digits_dropWhile hright
  cases hstripped : right.dropWhile (· == '0') with
  | nil => rw [hstripped] at hlength; exact absurd hlength (Nat.not_lt_zero _)
  | cons c rest =>
    rw [hstripped] at hlength hr
    have hzero : c ≠ '0' := by
      have hhead := List.head?_dropWhile_not (· == '0') right
      rw [hstripped] at hhead
      simpa using hhead
    calc digitsValue (left.dropWhile (· == '0'))
        < 10 ^ (left.dropWhile (· == '0')).length := hl
      _ ≤ 10 ^ rest.length := Nat.pow_le_pow_right (by omega) (Nat.le_of_lt_succ hlength)
      _ ≤ digitsValue (c :: rest) := pow_le_digitsValue (hr c List.mem_cons_self) hzero

/-- Digits are compared by their value. -/
theorem segmentCmp_digits {left right : List Char} (hleft : ∀ c ∈ left, c.isDigit = true)
    (hright : ∀ c ∈ right, c.isDigit = true) :
    segmentCmp true left right = compare (digitsValue left) (digitsValue right) := by
  simp only [segmentCmp, if_true]
  cases hcmp : compare (left.dropWhile (· == '0')).length (right.dropWhile (· == '0')).length with
  | eq =>
    rw [Ordering.eq_then, compare_of_length_eq (digits_dropWhile hleft) (digits_dropWhile hright)
      (Nat.compare_eq_eq.mp hcmp), digitsValue_dropWhile, digitsValue_dropWhile]
  | lt =>
    rw [Ordering.lt_then, eq_comm, Nat.compare_eq_lt]
    exact digitsValue_lt_of_length_lt hleft hright (Nat.compare_eq_lt.mp hcmp)
  | gt =>
    rw [Ordering.gt_then, eq_comm, Nat.compare_eq_gt]
    exact digitsValue_lt_of_length_lt hright hleft (Nat.compare_eq_gt.mp hcmp)

/-! ## The order of the tokens -/

/-- The token stands for the part. -/
inductive Stands : VersionToken → VersionPart → Prop where
  | tilde : Stands .tilde .tilde
  | finish : Stands .finish .finish
  | caret : Stands .caret .caret
  | letters (text : List Char) : Stands (.letters text) (.segment false text)
  | digits (text : List Char) (h : ∀ c ∈ text, c.isDigit = true) :
      Stands (.digits (digitsValue text)) (.segment true text)

theorem Stands.kind {token : VersionToken} {part : VersionPart} (h : Stands token part) :
    part.kind = token.rank := by
  cases h <;> rfl

theorem Stands.cmp {token token' : VersionToken} {part part' : VersionPart} (h : Stands token part)
    (h' : Stands token' part') : VersionPart.cmp part part' = token.cmp token' := by
  rcases Nat.lt_trichotomy token.rank token'.rank with hlt | heq | hgt
  · rw [VersionToken.cmp_of_rank_lt hlt, VersionPart.cmp_of_kind_lt (by rwa [h.kind, h'.kind])]
  · cases h <;> cases h'
    case letters.letters => rw [VersionPart.cmp_segment]; rfl
    case digits.digits left hleft right hright =>
      rw [VersionPart.cmp_segment, segmentCmp_digits hleft hright]
      rfl
    all_goals first | exact VersionPart.cmp_self _ | exact absurd heq (by simp [VersionToken.rank])
  · rw [VersionToken.cmp_of_rank_gt hgt, VersionPart.cmp_of_kind_gt (by rwa [h.kind, h'.kind])]

theorem compareLex_eq {tokens tokens' : List VersionToken} {parts parts' : List VersionPart}
    (h : List.Forall₂ Stands tokens parts) (h' : List.Forall₂ Stands tokens' parts') :
    List.compareLex VersionPart.cmp parts parts' = List.compareLex VersionToken.cmp tokens tokens' := by
  induction h generalizing tokens' parts' with
  | nil => cases h' <;> rfl
  | cons hhead _ ih =>
    cases h' with
    | nil => rfl
    | cons hhead' htail' =>
      rw [List.compareLex_cons_cons, List.compareLex_cons_cons, hhead.cmp hhead', ih htail']

theorem inSegment_true : inSegment true = Char.isDigit := by
  funext c
  cases h : c.isDigit <;> simp [inSegment, Char.isAlphanum, h]

theorem inSegment_false : inSegment false = Char.isAlpha := by
  funext c
  have hletter : c.isDigit = true → c.isAlpha = false := by
    intro h
    have hc := isDigit_iff_toNat.mp h
    have halpha : c.isAlpha = (decide (65 ≤ c.val ∧ c.val ≤ 90) ||
        decide (97 ≤ c.val) && decide (c.val ≤ 122)) := rfl
    simp [halpha, UInt32.le_iff_toNat_le]
    omega
  cases h : c.isDigit
  · simp [inSegment, Char.isAlphanum, h]
  · simp [inSegment, h, hletter h]

/-- The tokens of a part and what `rpm_part_cmp` compares. -/
theorem stands_versionTokens (part : List Char) :
    List.Forall₂ Stands (versionTokens part) (versionParts part) := by
  fun_induction versionTokens part with
  | case1 part h =>
    rw [versionParts_nil h]
    exact .cons .finish .nil
  | case2 part l h ih =>
    rw [versionParts_tilde h]
    exact .cons .tilde ih
  | case3 part l h ih =>
    rw [versionParts_caret h]
    exact .cons .caret ih
  | case4 part a l htilde hcaret h hdigit ih =>
    rw [versionParts_segment h htilde hcaret, hdigit, inSegment_true]
    refine .cons (.digits _ fun c hc => ?_) ih
    rcases List.mem_cons.mp hc with rfl | hc
    · exact hdigit
    · exact List.mem_takeWhile_imp hc
  | case5 part a l htilde hcaret h hdigit ih =>
    rw [Bool.not_eq_true] at hdigit
    rw [versionParts_segment h htilde hcaret, hdigit, inSegment_false]
    exact .cons (.letters _) ih

/-! ## The comparison -/

/-- `rpm_part_cmp` is the comparison of the tokens, and being strictly newer is a strict weak order. -/
theorem rpm_order_of_tokens :
    (∀ left right : String, rpmPartCmp left.toList right.toList =
      List.compareLex VersionToken.cmp (versionTokens left.toList) (versionTokens right.toList)) ∧
    (∀ a : Evra, a.isStrictlyNewerThan a = false) ∧
    (∀ a b c : Evra, a.isStrictlyNewerThan b = true → b.isStrictlyNewerThan c = true →
      a.isStrictlyNewerThan c = true) ∧
    ∀ a b c : Evra, a.isStrictlyNewerThan b = false → b.isStrictlyNewerThan a = false →
      b.isStrictlyNewerThan c = false → c.isStrictlyNewerThan b = false →
      a.isStrictlyNewerThan c = false ∧ c.isStrictlyNewerThan a = false := by
  have hequal : ∀ a b : Evra, Evra.cmp a b = .eq ↔
      a.isStrictlyNewerThan b = false ∧ b.isStrictlyNewerThan a = false := by
    intro a b
    rw [← Bool.not_eq_true, ← Bool.not_eq_true, ← Evra.cmp_eq_gt, ← Evra.cmp_eq_lt]
    cases Evra.cmp a b <;> simp
  refine ⟨fun left right => ?_, fun a => ?_, fun a b c hab hbc => ?_, fun a b c hab hba hbc hcb => ?_⟩
  · rw [rpmPartCmp_eq]
    exact compareLex_eq (stands_versionTokens _) (stands_versionTokens _)
  · exact ((hequal a a).mp Std.ReflCmp.compare_self).1
  · rw [← Evra.cmp_eq_gt] at hab hbc ⊢
    exact Std.TransCmp.gt_trans hab hbc
  · rw [← hequal]
    exact Std.TransCmp.eq_trans ((hequal a b).mpr ⟨hab, hba⟩) ((hequal b c).mpr ⟨hbc, hcb⟩)

end Dnfast.Core
