import Dnfast.Core.Value

/-! # The RPM order is a total preorder

`rpm_part_cmp` walks over two parts at once. What it compares at each place depends on one part alone:
`versionParts` lists it, and the comparison is the lexicographic one of the two lists. -/

namespace Dnfast.Core

/-- What stands at one place of a version: a `~`, the end, a `^`, letters or digits, in this order, and
for a segment what decides among its kind. -/
structure VersionPart where
  kind : Nat
  length : Nat
  text : List Char

namespace VersionPart

def cmp : VersionPart → VersionPart → Ordering :=
  compareLex (compareOn (·.kind)) (compareLex (compareOn (·.length)) (compareOn (·.text)))

def tilde : VersionPart := ⟨0, 0, []⟩
def finish : VersionPart := ⟨1, 0, []⟩
def caret : VersionPart := ⟨2, 0, []⟩

def segment (numeric : Bool) (text : List Char) : VersionPart :=
  if numeric then ⟨4, (text.dropWhile (· == '0')).length, text.dropWhile (· == '0')⟩ else ⟨3, 0, text⟩

instance : Std.TransCmp cmp := inferInstanceAs (Std.TransCmp (compareLex _ _))

theorem cmp_self (part : VersionPart) : cmp part part = .eq := Std.ReflCmp.compare_self

theorem cmp_segment (numeric : Bool) (left right : List Char) :
    cmp (segment numeric left) (segment numeric right) = segmentCmp numeric left right := by
  cases numeric <;> simp [cmp, segment, segmentCmp, compareLex, compareOn]

theorem cmp_of_kind_lt {a b : VersionPart} (h : a.kind < b.kind) : cmp a b = .lt := by
  simp [cmp, compareLex, compareOn, Nat.compare_eq_lt.mpr h]

theorem cmp_of_kind_gt {a b : VersionPart} (h : b.kind < a.kind) : cmp a b = .gt := by
  simp [cmp, compareLex, compareOn, Nat.compare_eq_gt.mpr h]

theorem kind_segment (numeric : Bool) (text : List Char) :
    (segment numeric text).kind = if numeric then 4 else 3 := by
  cases numeric <;> rfl

end VersionPart

theorem compareLex_of_kind_lt {a b : VersionPart} {l m : List VersionPart} (h : a.kind < b.kind) :
    List.compareLex VersionPart.cmp (a :: l) (b :: m) = .lt := by
  rw [List.compareLex_cons_cons, VersionPart.cmp_of_kind_lt h, Ordering.lt_then]

theorem compareLex_of_kind_gt {a b : VersionPart} {l m : List VersionPart} (h : b.kind < a.kind) :
    List.compareLex VersionPart.cmp (a :: l) (b :: m) = .gt := by
  rw [List.compareLex_cons_cons, VersionPart.cmp_of_kind_gt h, Ordering.gt_then]

def versionParts (part : List Char) : List VersionPart :=
  match _h : part.dropWhile isSeparator with
  | [] => [.finish]
  | '~' :: l => .tilde :: versionParts l
  | '^' :: l => .caret :: versionParts l
  | a :: l =>
    let p := inSegment a.isDigit
    .segment a.isDigit (a :: l.takeWhile p) :: versionParts (l.dropWhile p)
termination_by part.length
decreasing_by
  · exact length_lt_of_dropWhile_eq_cons _h
  · exact length_lt_of_dropWhile_eq_cons _h
  · have hlt := length_lt_of_dropWhile_eq_cons _h
    have hle := (List.dropWhile_sublist (inSegment a.isDigit) (l := l)).length_le
    omega

section
variable {part l : List Char} {a : Char}

theorem versionParts_nil (h : part.dropWhile isSeparator = []) : versionParts part = [.finish] := by
  rw [versionParts.eq_def]
  split <;> simp_all

theorem versionParts_tilde (h : part.dropWhile isSeparator = '~' :: l) :
    versionParts part = .tilde :: versionParts l := by
  rw [versionParts.eq_def]
  split <;> simp_all

theorem versionParts_caret (h : part.dropWhile isSeparator = '^' :: l) :
    versionParts part = .caret :: versionParts l := by
  rw [versionParts.eq_def]
  split <;> simp_all

theorem versionParts_segment (h : part.dropWhile isSeparator = a :: l) (htilde : a ≠ '~')
    (hcaret : a ≠ '^') : versionParts part =
      .segment a.isDigit (a :: l.takeWhile (inSegment a.isDigit)) ::
        versionParts (l.dropWhile (inSegment a.isDigit)) := by
  rw [versionParts.eq_def]
  split
  next h' => cases h.symm.trans h'
  next h' =>
    cases h.symm.trans h'
    exact absurd rfl htilde
  next h' =>
    cases h.symm.trans h'
    exact absurd rfl hcaret
  next h' =>
    cases h.symm.trans h'
    rfl

/-- The first of the parts, by the first character that counts. -/
theorem versionParts_cases (part : List Char) :
    (part.dropWhile isSeparator = [] ∧ versionParts part = [.finish]) ∨
    (∃ l, part.dropWhile isSeparator = '~' :: l ∧ versionParts part = .tilde :: versionParts l) ∨
    (∃ l, part.dropWhile isSeparator = '^' :: l ∧ versionParts part = .caret :: versionParts l) ∨
    ∃ a l rest text, part.dropWhile isSeparator = a :: l ∧
      versionParts part = .segment a.isDigit text :: rest := by
  cases h : part.dropWhile isSeparator with
  | nil => exact .inl ⟨rfl, versionParts_nil h⟩
  | cons a l =>
    by_cases htilde : a = '~'
    · subst htilde
      exact .inr (.inl ⟨l, rfl, versionParts_tilde h⟩)
    · by_cases hcaret : a = '^'
      · subst hcaret
        exact .inr (.inr (.inl ⟨l, rfl, versionParts_caret h⟩))
      · exact .inr (.inr (.inr ⟨a, l, _, _, rfl, versionParts_segment h htilde hcaret⟩))

end

/-- `rpm_part_cmp` compares the two lists. -/
theorem rpmPartCmp_eq (left right : List Char) :
    rpmPartCmp left right = List.compareLex VersionPart.cmp (versionParts left) (versionParts right) := by
  fun_induction rpmPartCmp left right with
  | case1 left right l r hl hr ih =>
    rw [versionParts_tilde hl, versionParts_tilde hr, List.compareLex_cons_cons, ← ih,
      VersionPart.cmp_self, Ordering.eq_then]
  | case2 left right l hl hno =>
    rw [versionParts_tilde hl]
    rcases versionParts_cases right with ⟨-, h⟩ | ⟨r, hr, -⟩ | ⟨r, -, h⟩ | ⟨b, r, _, _, -, h⟩
    · rw [h, compareLex_of_kind_lt (by decide)]
    · exact (hno r hr).elim
    · rw [h, compareLex_of_kind_lt (by decide)]
    · rw [h, compareLex_of_kind_lt]
      rw [VersionPart.kind_segment, VersionPart.tilde]
      split <;> decide
  | case3 left right r hr hno =>
    rw [versionParts_tilde hr]
    rcases versionParts_cases left with ⟨-, h⟩ | ⟨l, hl, -⟩ | ⟨l, -, h⟩ | ⟨a, l, _, _, -, h⟩
    · rw [h, compareLex_of_kind_gt (by decide)]
    · exact (hno l hl).elim
    · rw [h, compareLex_of_kind_gt (by decide)]
    · rw [h, compareLex_of_kind_gt]
      rw [VersionPart.kind_segment, VersionPart.tilde]
      split <;> decide
  | case4 left right l r hl hr ih =>
    rw [versionParts_caret hl, versionParts_caret hr, List.compareLex_cons_cons, ← ih,
      VersionPart.cmp_self, Ordering.eq_then]
  | case5 left right l hl hr =>
    rw [versionParts_caret hl, versionParts_nil hr, compareLex_of_kind_gt (by decide)]
  | case6 left right r hl hr =>
    rw [versionParts_nil hl, versionParts_caret hr, compareLex_of_kind_lt (by decide)]
  | case7 left right l b r htilde hcaret hl hr =>
    rw [versionParts_caret hl, versionParts_segment hr htilde hcaret, compareLex_of_kind_lt]
    rw [VersionPart.kind_segment, VersionPart.caret]
    split <;> decide
  | case8 left right a l r htilde hcaret hl hr =>
    rw [versionParts_caret hr, versionParts_segment hl htilde hcaret, compareLex_of_kind_gt]
    rw [VersionPart.kind_segment, VersionPart.caret]
    split <;> decide
  | case9 left right hl htilde hcaret =>
    rw [versionParts_nil hl]
    rcases versionParts_cases right with ⟨hr, h⟩ | ⟨r, hr, -⟩ | ⟨r, hr, -⟩ | ⟨b, r, _, _, hr, h⟩
    · rw [h, hr]
      rfl
    · exact (htilde r hr).elim
    · exact (hcaret r hr).elim
    · rw [h, hr, compareLex_of_kind_lt, List.length_cons]
      · exact Nat.compare_eq_lt.mpr (Nat.succ_pos _)
      · rw [VersionPart.kind_segment, VersionPart.finish]
        split <;> decide
  | case10 left right hr htilde hcaret hnil =>
    rw [versionParts_nil hr]
    rcases versionParts_cases left with ⟨hl, -⟩ | ⟨l, hl, -⟩ | ⟨l, hl, -⟩ | ⟨a, l, _, _, hl, h⟩
    · exact (hnil hl).elim
    · exact (htilde l hl).elim
    · exact (hcaret l hl).elim
    · rw [h, hl, compareLex_of_kind_gt, List.length_cons]
      · exact Nat.compare_eq_gt.mpr (Nat.succ_pos _)
      · rw [VersionPart.kind_segment, VersionPart.finish]
        split <;> decide
  | case11 left right a l b r _ ha hb _ ha' hb' hl hr hdiffer hdigit =>
    rw [versionParts_segment hl ha ha', versionParts_segment hr hb hb', compareLex_of_kind_gt]
    simp_all [VersionPart.kind_segment]
  | case12 left right a l b r _ ha hb _ ha' hb' hl hr hdiffer hdigit =>
    rw [versionParts_segment hl ha ha', versionParts_segment hr hb hb', compareLex_of_kind_lt]
    simp_all [VersionPart.kind_segment]
  | case13 left right a l b r _ ha hb _ ha' hb' hl hr hsame p ih =>
    have hdigit : a.isDigit = b.isDigit := by simpa using hsame
    rw [versionParts_segment hl ha ha', versionParts_segment hr hb hb', ← hdigit, List.compareLex_cons_cons,
      VersionPart.cmp_segment, ← ih]

/-! ## EVRAs -/

namespace Evra

/-- The order of epoch, version and release. -/
def cmp : Evra → Evra → Ordering :=
  compareLex (compareOn (·.epoch)) <|
    compareLex (fun a b => List.compareLex VersionPart.cmp (versionParts a.version.toList)
      (versionParts b.version.toList))
    (fun a b => List.compareLex VersionPart.cmp (versionParts a.release.toList)
      (versionParts b.release.toList))

instance {α β : Type} (f : α → β) (cmp : β → β → Ordering) [Std.TransCmp cmp] :
    Std.TransCmp fun a b => cmp (f a) (f b) where
  eq_swap := Std.OrientedCmp.eq_swap
  isLE_trans h h' := Std.TransCmp.isLE_trans h h'

instance : Std.TransCmp cmp := inferInstanceAs (Std.TransCmp (compareLex _ _))

theorem isStrictlyNewerThan_eq (a b : Evra) : a.isStrictlyNewerThan b = (cmp a b).isGT := by
  unfold isStrictlyNewerThan
  simp only [rpmPartCmp_eq, cmp, compareLex, compareOn]
  by_cases hepoch : a.epoch = b.epoch
  · have hself : compare b.epoch b.epoch = .eq := Std.ReflCmp.compare_self
    rw [if_neg (not_not.mpr hepoch), hepoch, hself, Ordering.eq_then]
    cases List.compareLex VersionPart.cmp (versionParts a.version.toList)
      (versionParts b.version.toList) <;> rfl
  · rw [if_pos hepoch]
    cases hcmp : compare a.epoch b.epoch with
    | eq => exact absurd (Std.LawfulEqCmp.eq_of_compare hcmp) hepoch
    | lt =>
      have hlt : a.epoch < b.epoch := Std.compare_eq_lt.mp hcmp
      simpa using UInt32.not_lt.mpr (UInt32.le_of_lt hlt)
    | gt => simpa using Std.compare_eq_gt.mp hcmp

theorem cmp_eq_gt {a b : Evra} : cmp a b = .gt ↔ a.isStrictlyNewerThan b = true := by
  rw [isStrictlyNewerThan_eq, Ordering.isGT_iff_eq_gt]

theorem cmp_eq_lt {a b : Evra} : cmp a b = .lt ↔ b.isStrictlyNewerThan a = true := by
  rw [← cmp_eq_gt]
  exact Std.OrientedCmp.gt_iff_lt.symm

end Evra

end Dnfast.Core
