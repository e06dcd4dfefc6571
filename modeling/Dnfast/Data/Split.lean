import Mathlib.Data.List.Infix

/-! # Splitting text

`str::split_once` and `str::rsplit_once` on the characters of a text: at the first occurrence of a
separator, and at the last occurrence of a character. Both lose nothing but the separator, and both
are found again behind (in front of) any text that does not interfere. -/

namespace List

variable {α : Type} [DecidableEq α]

/-- The parts before and after the first occurrence of the separator. -/
def splitOnce (sep : List α) : List α → Option (List α × List α)
  | [] => if sep = [] then some ([], []) else none
  | x :: xs =>
    if sep <+: x :: xs then some ([], (x :: xs).drop sep.length)
    else (splitOnce sep xs).map fun (left, right) => (x :: left, right)

/-- The parts before and after the last occurrence of the element. -/
def rsplitOnce (sep : α) : List α → Option (List α × List α)
  | [] => none
  | x :: xs =>
    match rsplitOnce sep xs with
    | some (left, right) => some (x :: left, right)
    | none => if x = sep then some ([], xs) else none

theorem eq_of_splitOnce {sep l left right : List α} (h : splitOnce sep l = some (left, right)) :
    l = left ++ sep ++ right := by
  induction l generalizing left with
  | nil =>
    rw [splitOnce] at h
    split at h
    · next hsep =>
      cases h
      simp [hsep]
    · cases h
  | cons x xs ih =>
    rw [splitOnce] at h
    split at h
    · next hprefix =>
      cases h
      simpa using (prefix_iff_eq_append.mp hprefix).symm
    · obtain ⟨⟨l₁, l₂⟩, hl, heq⟩ := Option.map_eq_some_iff.mp h
      cases heq
      rw [ih hl]
      simp

/-- A single element: there is no text to split at when it does not occur. -/
theorem splitOnce_singleton_eq_none {x : α} {l : List α} : splitOnce [x] l = none ↔ x ∉ l := by
  induction l with
  | nil => simp [splitOnce]
  | cons y l ih =>
    rw [splitOnce, mem_cons, not_or]
    split
    next h =>
      refine iff_of_false nofun fun hne => hne.1 ?_
      simpa [cons_prefix_cons] using h
    next h =>
      have hne : x ≠ y := by simpa [cons_prefix_cons] using h
      rw [Option.map_eq_none_iff, ih]
      exact (and_iff_right hne).symm

theorem splitOnce_singleton_of_notMem {x : α} {left right : List α} (h : x ∉ left) :
    splitOnce [x] (left ++ x :: right) = some (left, right) := by
  induction left with
  | nil => simp [splitOnce]
  | cons y left ih =>
    obtain ⟨hne, hrest⟩ := not_or.mp (mt mem_cons.mpr h)
    have hno : ¬ [x] <+: y :: (left ++ x :: right) := by simpa [cons_prefix_cons] using hne
    rw [cons_append, splitOnce, if_neg hno, ih hrest]
    rfl

theorem eq_of_rsplitOnce {sep : α} {l left right : List α}
    (h : rsplitOnce sep l = some (left, right)) : l = left ++ sep :: right := by
  induction l generalizing left with
  | nil => cases h
  | cons x xs ih =>
    rw [rsplitOnce] at h
    split at h
    · next l₁ l₂ hl =>
      cases h
      rw [ih hl]
      rfl
    · split at h
      · next hx =>
        cases h
        rw [hx]
        rfl
      · cases h

/-- What stands in front of the text goes to the left part. -/
theorem rsplitOnce_append {sep : α} {l left right : List α} (front : List α)
    (h : rsplitOnce sep l = some (left, right)) :
    rsplitOnce sep (front ++ l) = some (front ++ left, right) := by
  induction front with
  | nil => exact h
  | cons x front ih => rw [cons_append, rsplitOnce, ih]; rfl

theorem rsplitOnce_eq_none {sep : α} {l : List α} : rsplitOnce sep l = none ↔ sep ∉ l := by
  induction l with
  | nil => simp [rsplitOnce]
  | cons x xs ih =>
    rw [rsplitOnce]
    split
    · next hsome =>
      rw [eq_of_rsplitOnce hsome]
      simp
    · next hnone =>
      rw [mem_cons, not_or, ← ih, hnone]
      split <;> simp_all [eq_comm]

/-- The last occurrence is the one behind which there is none. -/
theorem rsplitOnce_of_notMem {sep : α} {left right : List α} (h : sep ∉ right) :
    rsplitOnce sep (left ++ sep :: right) = some (left, right) := by
  have hlast : rsplitOnce sep (sep :: right) = some ([], right) := by
    rw [rsplitOnce, rsplitOnce_eq_none.mpr h]
    simp
  simpa using rsplitOnce_append left hlast

/-- The pieces between the separators have none. -/
theorem notMem_of_mem_splitOn {x : α} {l s : List α} (h : s ∈ l.splitOn x) : x ∉ s := by
  induction l generalizing s with
  | nil =>
    rw [splitOn_nil, mem_singleton] at h
    rw [h]
    exact not_mem_nil
  | cons y l ih =>
    rw [splitOn_cons_eq_if_modifyHead] at h
    split at h
    · rcases mem_cons.mp h with rfl | h
      · exact not_mem_nil
      · exact ih h
    next hy =>
      obtain ⟨t, ts, hsplit⟩ := exists_cons_of_ne_nil (splitOn_ne_nil x l)
      rw [hsplit, modifyHead_cons, mem_cons] at h
      rcases h with rfl | h
      · rw [mem_cons, not_or]
        refine ⟨fun heq => hy (by simp [heq]), ih ?_⟩
        rw [hsplit]
        exact mem_cons_self
      · apply ih
        rw [hsplit]
        exact mem_cons_of_mem _ h

end List
