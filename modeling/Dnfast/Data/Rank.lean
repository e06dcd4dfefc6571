import Mathlib.Data.List.Basic

/-! # Places in a list

The place of an element among those of a list that have a property is the number of such elements in
front of it (`rank`); `zipIdx_find?_eq_some` is about the first place with a property. -/

namespace List

variable {α : Type} {p : α → Bool} {l : List α} {i j k : Nat} {a : α}

/-- The number of elements with the property in front of a place. -/
def rank (p : α → Bool) (l : List α) (i : Nat) : Nat := ((l.take i).filter p).length

@[simp] theorem rank_zero : l.rank p 0 = 0 := rfl

theorem rank_cons_succ : (a :: l).rank p (i + 1) = l.rank p i + if p a then 1 else 0 := by
  unfold rank
  rw [take_succ_cons, filter_cons]
  split <;> simp

theorem getElem?_filter_rank (h : l[i]? = some a) (ha : p a = true) :
    (l.filter p)[l.rank p i]? = some a := by
  induction l generalizing i with
  | nil => cases h
  | cons b l ih =>
    cases i with
    | zero =>
      cases h
      rw [filter_cons_of_pos ha, rank_zero]
      rfl
    | succ i =>
      have hrest := ih h
      rw [rank_cons_succ, filter_cons]
      split
      · exact hrest
      · exact hrest

theorem exists_getElem?_of_filter (h : (l.filter p)[k]? = some a) :
    ∃ i, l[i]? = some a ∧ p a = true ∧ l.rank p i = k := by
  induction l generalizing k with
  | nil => cases h
  | cons b l ih =>
    by_cases hb : p b = true
    · rw [filter_cons_of_pos hb] at h
      cases k with
      | zero =>
        cases h
        exact ⟨0, rfl, hb, rfl⟩
      | succ k =>
        obtain ⟨i, hi, ha, hrank⟩ := ih h
        refine ⟨i + 1, hi, ha, ?_⟩
        rw [rank_cons_succ, hrank, if_pos hb]
    · rw [filter_cons_of_neg hb] at h
      obtain ⟨i, hi, ha, hrank⟩ := ih h
      refine ⟨i + 1, hi, ha, ?_⟩
      rw [rank_cons_succ, hrank, if_neg hb, Nat.add_zero]

theorem rank_lt_rank (h : l[i]? = some a) (ha : p a = true) (hij : i < j) :
    l.rank p i < l.rank p j := by
  induction l generalizing i j with
  | nil => cases h
  | cons b l ih =>
    obtain ⟨j, rfl⟩ := Nat.exists_eq_add_of_lt (Nat.zero_lt_of_lt hij)
    rw [Nat.zero_add, rank_cons_succ]
    cases i with
    | zero =>
      cases h
      rw [rank_zero, if_pos ha]
      omega
    | succ i =>
      rw [rank_cons_succ]
      have hlt := ih h (by omega : i < j)
      omega

theorem rank_mono (h : i ≤ j) : l.rank p i ≤ l.rank p j :=
  ((take_prefix_take_left h).filter p).length_le

theorem zipIdx_find?_eq_some {n : Nat} (h : (l.zipIdx n).find? (fun x => p x.1) = some (a, k)) :
    n ≤ k ∧ l[k - n]? = some a ∧ p a = true ∧ ∀ j < k - n, ∀ b, l[j]? = some b → p b = false := by
  induction l generalizing n with
  | nil => cases h
  | cons b l ih =>
    rw [zipIdx_cons, find?_cons] at h
    cases hb : p b with
    | true =>
      simp only [hb, Option.some.injEq, Prod.mk.injEq] at h
      obtain ⟨rfl, rfl⟩ := h
      simp [hb]
    | false =>
      simp only [hb] at h
      obtain ⟨hle, hget, ha, hbefore⟩ := ih h
      have hsub : k - n = k - (n + 1) + 1 := by omega
      refine ⟨by omega, by rwa [hsub, getElem?_cons_succ], ha, fun j hj c hc => ?_⟩
      cases j with
      | zero =>
        cases hc
        exact hb
      | succ j => exact hbefore j (by omega) c hc

end List
