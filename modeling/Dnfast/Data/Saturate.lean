import Mathlib.Data.Finset.Card

/-! # Saturation of a set in place

A loop that passes over a list again and again and adds the name of an element to a set as soon as
the element fires on the set reached so far, until a pass adds nothing. What it computes is the least
set that contains the first one and is closed under firing: `saturate_induction` is the induction
over the additions, `mem_saturate_of_fires` the closure. -/

namespace Saturate

variable {α κ : Type} [DecidableEq κ] (fires : Finset κ → α → Bool) (name : α → κ)

/-- The body of the loop over the list. -/
def visit (s : Finset κ) (a : α) : Finset κ := if fires s a then insert (name a) s else s

def pass (items : List α) (s : Finset κ) : Finset κ := items.foldl (visit fires name) s

variable {fires name} {items : List α} {s : Finset κ}

theorem subset_visit (s : Finset κ) (a : α) : s ⊆ visit fires name s a := by
  unfold visit
  split
  · exact Finset.subset_insert _ _
  · exact subset_rfl

theorem subset_pass (items : List α) (s : Finset κ) : s ⊆ pass fires name items s := by
  induction items generalizing s with
  | nil => exact subset_rfl
  | cons a items ih => exact (subset_visit s a).trans (ih _)

/-- What holds of the set and of every name that is added holds after a pass. -/
theorem pass_induction {P : κ → Prop} (hs : ∀ k ∈ s, P k)
    (hstep : ∀ t, ∀ a ∈ items, (∀ k ∈ t, P k) → fires t a = true → P (name a)) :
    ∀ k ∈ pass fires name items s, P k := by
  induction items generalizing s with
  | nil => exact hs
  | cons a items ih =>
    refine ih (s := visit fires name s a) ?_ fun t b hb => hstep t b (List.mem_cons_of_mem a hb)
    intro k hk
    unfold visit at hk
    split at hk
    · next hfires =>
      rcases Finset.mem_insert.mp hk with rfl | hk
      · exact hstep s a List.mem_cons_self hs hfires
      · exact hs k hk
    · exact hs k hk

/-- A pass that changes nothing met no element that fires and whose name is missing. -/
theorem mem_of_pass_eq (h : pass fires name items s = s) {a : α} (ha : a ∈ items)
    (hfires : fires s a = true) : name a ∈ s := by
  induction items with
  | nil => cases ha
  | cons b items ih =>
    -- the set is back where it started, so it did not change on the way
    have hvisit : visit fires name s b = s :=
      (subset_visit s b).antisymm' ((subset_pass items _).trans_eq h)
    rcases List.mem_cons.mp ha with rfl | ha
    · rw [visit, if_pos hfires] at hvisit
      exact Finset.insert_eq_self.mp hvisit
    · refine ih ?_ ha
      rw [pass, List.foldl_cons, hvisit] at h
      exact h

theorem pass_subset (items : List α) (s : Finset κ) :
    pass fires name items s ⊆ s ∪ (items.map name).toFinset := by
  refine pass_induction (fun k hk => Finset.mem_union_left _ hk) fun t a ha _ _ => ?_
  exact Finset.mem_union_right _ (List.mem_toFinset.mpr (List.mem_map_of_mem ha))

/-- A pass that grows the set leaves fewer names to add. -/
theorem card_sdiff_pass_lt (h : (pass fires name items s).card ≠ s.card) :
    ((items.map name).toFinset \ pass fires name items s).card <
      ((items.map name).toFinset \ s).card := by
  have hne : s ≠ pass fires name items s := fun heq => h (congrArg Finset.card heq.symm)
  obtain ⟨k, hk, hnew⟩ := Finset.exists_of_ssubset ((subset_pass items s).ssubset_of_ne hne)
  refine Finset.card_lt_card ⟨Finset.sdiff_subset_sdiff subset_rfl (subset_pass items s), ?_⟩
  intro hsub
  have hname : k ∈ (items.map name).toFinset :=
    (Finset.mem_union.mp (pass_subset items s hk)).resolve_left hnew
  exact (Finset.mem_sdiff.mp (hsub (Finset.mem_sdiff.mpr ⟨hname, hnew⟩))).2 hk

variable (fires name) in
/-- The loop over the passes. -/
def saturate (items : List α) (s : Finset κ) : Finset κ :=
  let next := pass fires name items s
  if _h : next.card = s.card then next else saturate items next
termination_by ((items.map name).toFinset \ s).card
decreasing_by exact card_sdiff_pass_lt ‹_›

/-- The induction over the additions. -/
theorem saturate_induction {P : κ → Prop} (hs : ∀ k ∈ s, P k)
    (hstep : ∀ t, ∀ a ∈ items, (∀ k ∈ t, P k) → fires t a = true → P (name a)) :
    ∀ k ∈ saturate fires name items s, P k := by
  induction s using saturate.induct fires name items with
  | case1 s next hcard =>
    rw [saturate, dif_pos hcard]
    exact pass_induction hs hstep
  | case2 s next hcard ih =>
    rw [saturate, dif_neg hcard]
    exact ih (pass_induction hs hstep)

theorem subset_saturate : s ⊆ saturate fires name items s := by
  fun_induction saturate fires name items s with
  | case1 s => exact subset_pass items s
  | case2 s =>
    rename_i ih
    exact (subset_pass items s).trans ih

/-- The result is closed: the name of an element that fires on it is in it. -/
theorem mem_saturate_of_fires {a : α} (ha : a ∈ items)
    (hfires : fires (saturate fires name items s) a = true) :
    name a ∈ saturate fires name items s := by
  induction s using saturate.induct fires name items with
  | case1 s next hcard =>
    have hsame : pass fires name items s = s :=
      (Finset.eq_of_subset_of_card_le (subset_pass items s) hcard.le).symm
    rw [saturate, dif_pos hcard, hsame] at hfires ⊢
    exact mem_of_pass_eq hsame ha hfires
  | case2 s next hcard ih =>
    rw [saturate, dif_neg hcard] at hfires ⊢
    exact ih hfires

end Saturate
