import Mathlib.Algebra.BigOperators.Group.Finset.Basic
import Mathlib.Algebra.GroupWithZero.Nat
import Mathlib.Algebra.Order.BigOperators.Group.Finset
import Mathlib.Data.Finset.Card
import Mathlib.Order.Bounds.Defs
import Std.Data.ExtTreeMap

/-! # Closing sets by rounds

A map has a set for each of its keys. A rule adds a name to the set of its key when its condition is
available, in a set of the map or in a base set. A round computes what is available, once, and applies
all rules; the loop ends with the round that leaves the total size as it is. What it computes is the
least assignment above the first one that is closed under the rules: `isLeast_close`. -/

namespace Rounds

open Std (ExtTreeMap)

variable {κ α : Type} [Ord κ] [Std.TransOrd κ] [Std.LawfulEqOrd κ] [DecidableEq α]

/-- A set for each key. -/
abbrev Sets (κ α : Type) [Ord κ] := ExtTreeMap κ (Finset α)

structure Rule (κ α : Type) where
  target : κ
  condition : Option α
  name : α

/-- What is in the sets. -/
def values (m : Sets κ α) : Finset α := m.toList.foldl (fun s e => s ∪ e.2) ∅

/-- The sum of the sizes. -/
def size (m : Sets κ α) : Nat := (m.toList.map fun e => e.2.card).sum

def apply (available : Finset α) (m : Sets κ α) (r : Rule κ α) : Sets κ α :=
  if r.condition.any (· ∈ available) then m.modify r.target (insert r.name) else m

def round (rules : List (Rule κ α)) (base : Finset α) (m : Sets κ α) : Sets κ α :=
  rules.foldl (apply (values m ∪ base)) m

variable {m : Sets κ α} {rules : List (Rule κ α)} {r : Rule κ α} {base available : Finset α} {k : κ}
  {a : α}

theorem mem_values : a ∈ values m ↔ ∃ k ∈ m, a ∈ m.getD k ∅ := by
  have hfold : ∀ (l : List (κ × Finset α)) (s : Finset α),
      a ∈ l.foldl (fun s e => s ∪ e.2) s ↔ a ∈ s ∨ ∃ e ∈ l, a ∈ e.2 := by
    intro l
    induction l with
    | nil => simp
    | cons e l ih =>
      intro s
      rw [List.foldl_cons, ih, Finset.mem_union, List.exists_mem_cons_iff, or_assoc]
  rw [values, hfold]
  constructor
  · rintro (h | ⟨⟨k, s⟩, he, ha⟩)
    · cases Finset.notMem_empty a h
    · have hk := ExtTreeMap.mem_toList_iff_getElem?_eq_some.mp he
      refine ⟨k, ExtTreeMap.mem_iff_isSome_getElem?.mpr (by rw [hk]; rfl), ?_⟩
      rwa [ExtTreeMap.getD_eq_getD_getElem?, hk]
  · rintro ⟨k, hk, ha⟩
    obtain ⟨s, hs⟩ := Option.isSome_iff_exists.mp (ExtTreeMap.mem_iff_isSome_getElem?.mp hk)
    rw [ExtTreeMap.getD_eq_getD_getElem?, hs] at ha
    exact .inr ⟨(k, s), ExtTreeMap.mem_toList_iff_getElem?_eq_some.mpr hs, ha⟩

/-! ## One round -/

omit [Std.LawfulEqOrd κ] in
theorem mem_apply : k ∈ apply available m r ↔ k ∈ m := by
  unfold apply
  split
  · exact ExtTreeMap.mem_modify
  · rfl

omit [Std.LawfulEqOrd κ] in
theorem mem_round : k ∈ round rules base m ↔ k ∈ m := by
  have hfold : ∀ (rules : List (Rule κ α)) (available : Finset α) (m : Sets κ α),
      k ∈ rules.foldl (apply available) m ↔ k ∈ m := by
    intro rules available
    induction rules with
    | nil => exact fun m => Iff.rfl
    | cons r rules ih => exact fun m => (ih _).trans mem_apply
  exact hfold rules _ m

/-- The rule adds to its key. -/
def Fires (available : Finset α) (m : Sets κ α) (r : Rule κ α) (k : κ) (a : α) : Prop :=
  r.target = k ∧ r.name = a ∧ k ∈ m ∧ ∃ c, r.condition = some c ∧ c ∈ available

/-- A name is added to the set of a key that is there. -/
theorem mem_getD_modify {k' : κ} {b : α} : a ∈ (m.modify k' (insert b)).getD k ∅ ↔
    a ∈ m.getD k ∅ ∨ (k' = k ∧ b = a ∧ k ∈ m) := by
  rw [ExtTreeMap.getD_eq_getD_getElem?, ExtTreeMap.getD_eq_getD_getElem?, ExtTreeMap.getElem?_modify,
    ExtTreeMap.mem_iff_isSome_getElem?]
  by_cases hk : k' = k
  · rw [if_pos (Std.compare_eq_iff_eq.mpr hk), hk]
    cases hs : m[k]? with
    | none => simp
    | some s =>
      simp only [Option.map_some, Option.getD_some, Finset.mem_insert, Option.isSome_some, true_and,
        and_true]
      rw [or_comm, eq_comm]
  · rw [if_neg (mt Std.compare_eq_iff_eq.mp hk)]
    simp [hk]

theorem mem_getD_apply :
    a ∈ (apply available m r).getD k ∅ ↔ a ∈ m.getD k ∅ ∨ Fires available m r k a := by
  unfold apply Fires
  split
  next h =>
    have hfires : ∃ c, r.condition = some c ∧ c ∈ available := by
      obtain ⟨c, hc, hmem⟩ := (Option.any_eq_true _ _).mp h
      exact ⟨c, hc, of_decide_eq_true hmem⟩
    rw [mem_getD_modify]
    simp only [hfires, and_true]
  next h =>
    refine (or_iff_left ?_).symm
    rintro ⟨-, -, -, c, hc, hmem⟩
    rw [hc] at h
    exact h (decide_eq_true hmem)

theorem mem_getD_round : a ∈ (round rules base m).getD k ∅ ↔
    a ∈ m.getD k ∅ ∨ ∃ r ∈ rules, Fires (values m ∪ base) m r k a := by
  have hfold : ∀ (rules : List (Rule κ α)) (available : Finset α) (m : Sets κ α),
      a ∈ (rules.foldl (apply available) m).getD k ∅ ↔
        a ∈ m.getD k ∅ ∨ ∃ r ∈ rules, Fires available m r k a := by
    intro rules available
    induction rules with
    | nil => simp
    | cons r rules ih =>
      intro m
      have hsame : ∀ r', Fires available (apply available m r) r' k a ↔ Fires available m r' k a := by
        intro r'
        rw [Fires, Fires, mem_apply]
      rw [List.foldl_cons, ih, mem_getD_apply, List.exists_mem_cons_iff, or_assoc]
      simp only [hsame]
  exact hfold rules _ m

theorem subset_round : m.getD k ∅ ⊆ (round rules base m).getD k ∅ := fun _ h => mem_getD_round.mpr (.inl h)

/-! ## The size -/

omit [DecidableEq α] in
theorem size_eq_sum [DecidableEq κ] (m : Sets κ α) : size m = ∑ k ∈ m.keys.toFinset, (m.getD k ∅).card := by
  have hsum := List.sum_toFinset (fun k => (m.getD k ∅).card) m.nodup_keys
  rw [hsum, size, ← ExtTreeMap.map_fst_toList_eq_keys, List.map_map]
  refine congrArg List.sum (List.map_congr_left ?_)
  rintro ⟨k, s⟩ he
  rw [Function.comp_apply, ExtTreeMap.getD_eq_getD_getElem?,
    ExtTreeMap.mem_toList_iff_getElem?_eq_some.mp he]
  rfl

theorem keys_round [DecidableEq κ] : (round rules base m).keys.toFinset = m.keys.toFinset := by
  ext k
  rw [List.mem_toFinset, List.mem_toFinset, ExtTreeMap.mem_keys, ExtTreeMap.mem_keys, mem_round]

omit [Std.LawfulEqOrd κ] [DecidableEq α] in
theorem getD_of_notMem (h : k ∉ m) : m.getD k ∅ = ∅ := ExtTreeMap.getD_eq_fallback h

/-- A round that keeps the total size keeps every set. -/
theorem getD_round_of_size (h : size (round rules base m) = size m) (k : κ) :
    (round rules base m).getD k ∅ = m.getD k ∅ := by
  classical
  by_cases hk : k ∈ m
  · rw [size_eq_sum, size_eq_sum, keys_round] at h
    have hcard := (Finset.sum_eq_sum_iff_of_le
      (fun _ _ => Finset.card_le_card subset_round)).mp h.symm k
      (List.mem_toFinset.mpr (ExtTreeMap.mem_keys.mpr hk))
    exact (Finset.eq_of_subset_of_card_le subset_round hcard.ge).symm
  · rw [getD_of_notMem hk, getD_of_notMem (mt mem_round.mp hk)]

open Classical in
/-- What the rules can still add. -/
noncomputable def missing (rules : List (Rule κ α)) (m : Sets κ α) : Finset (κ × α) :=
  (rules.map fun r => (r.target, r.name)).toFinset.filter fun e => e.2 ∉ m.getD e.1 ∅

theorem missing_round_lt (h : size (round rules base m) ≠ size m) :
    (missing rules (round rules base m)).card < (missing rules m).card := by
  classical
  obtain ⟨k, a, hnew, hold⟩ : ∃ k a, a ∈ (round rules base m).getD k ∅ ∧ a ∉ m.getD k ∅ := by
    by_contra hnone
    push Not at hnone
    refine h ?_
    rw [size_eq_sum, size_eq_sum, keys_round]
    exact Finset.sum_congr rfl fun k _ =>
      congrArg Finset.card (Finset.Subset.antisymm (hnone k) subset_round)
  refine Finset.card_lt_card (Finset.ssubset_iff_subset_ne.mpr ⟨?_, fun heq => ?_⟩)
  · exact Finset.monotone_filter_right _ fun e _ he hmem => he (subset_round hmem)
  · obtain ⟨r, hr, rfl, rfl, -⟩ := (mem_getD_round.mp hnew).resolve_left hold
    have hmem : (r.target, r.name) ∈ missing rules m :=
      Finset.mem_filter.mpr ⟨List.mem_toFinset.mpr (List.mem_map_of_mem hr), hold⟩
    rw [← heq] at hmem
    exact (Finset.mem_filter.mp hmem).2 hnew

/-! ## The loop -/

def close {κ α : Type} [Ord κ] [Std.TransOrd κ] [Std.LawfulEqOrd κ] [DecidableEq α]
    (rules : List (Rule κ α)) (base : Finset α) (m : Sets κ α) : Sets κ α :=
  let next := round rules base m
  if _h : size next = size m then next else close rules base next
termination_by (missing rules m).card
decreasing_by exact missing_round_lt ‹_›

/-- The assignment is closed under the rules of the keys. -/
def Closed (rules : List (Rule κ α)) (base : Finset α) (keys : κ → Prop) (T : κ → Set α) : Prop :=
  ∀ r ∈ rules, keys r.target → ∀ c, r.condition = some c → (c ∈ base ∨ ∃ k, keys k ∧ c ∈ T k) →
    r.name ∈ T r.target

theorem mem_close : k ∈ close rules base m ↔ k ∈ m := by
  induction m using close.induct rules base with
  | case1 m next h =>
    rw [close, dif_pos h]
    exact mem_round
  | case2 m next h ih =>
    rw [close, dif_neg h]
    exact ih.trans mem_round

theorem subset_close : m.getD k ∅ ⊆ (close rules base m).getD k ∅ := by
  induction m using close.induct rules base with
  | case1 m next =>
    rename_i h
    rw [close, dif_pos h]
    exact subset_round
  | case2 m next h =>
    rename_i ih
    rw [close, dif_neg h]
    exact subset_round.trans ih

/-- Whatever is closed and above the first assignment is above the result. -/
theorem close_subset {T : κ → Set α} (hm : ∀ k, ↑(m.getD k ∅) ⊆ T k)
    (hT : Closed rules base (· ∈ m) T) : ↑((close rules base m).getD k ∅) ⊆ T k := by
  have hround : ∀ {m}, (∀ k, ↑(m.getD k ∅) ⊆ T k) → Closed rules base (· ∈ m) T →
      ∀ k, ↑((round rules base m).getD k ∅) ⊆ T k := by
    intro m hm hT k a ha
    obtain ha | ⟨r, hr, rfl, rfl, hk, c, hc, hmem⟩ := mem_getD_round.mp ha
    · exact hm k ha
    · refine hT r hr hk c hc ?_
      rcases Finset.mem_union.mp hmem with hmem | hmem
      · obtain ⟨k, hk, hmem⟩ := mem_values.mp hmem
        exact .inr ⟨k, hk, hm k hmem⟩
      · exact .inl hmem
  induction m using close.induct rules base with
  | case1 m next h =>
    rw [close, dif_pos h]
    exact hround hm hT k
  | case2 m next h ih =>
    rw [close, dif_neg h]
    refine ih (hround hm hT) ?_
    simpa only [next, Closed, mem_round] using hT

theorem closed_close : Closed rules base (· ∈ m) fun k => ↑((close rules base m).getD k ∅) := by
  induction m using close.induct rules base with
  | case1 m next h =>
    intro r hr hk c hc havailable
    have hsame := getD_round_of_size h
    rw [close, dif_pos h] at havailable ⊢
    simp only [hsame] at havailable
    rw [Finset.mem_coe]
    refine mem_getD_round.mpr (.inr ⟨r, hr, rfl, rfl, hk, c, hc, Finset.mem_union.mpr ?_⟩)
    obtain hbase | ⟨k, hk, hmem⟩ := havailable
    · exact .inr hbase
    · exact .inl (mem_values.mpr ⟨k, hk, hmem⟩)
  | case2 m next h ih =>
    rw [close, dif_neg h]
    simpa only [next, Closed, mem_round] using ih

theorem isLeast_close (rules : List (Rule κ α)) (base : Finset α) (m : Sets κ α) :
    IsLeast {T : κ → Set α | (∀ k, ↑(m.getD k ∅) ⊆ T k) ∧ Closed rules base (· ∈ m) T}
      fun k => ↑((close rules base m).getD k ∅) :=
  ⟨⟨fun _ => Finset.coe_subset.mpr subset_close, closed_close⟩,
    fun _ hT _ => close_subset hT.1 hT.2⟩

end Rounds
