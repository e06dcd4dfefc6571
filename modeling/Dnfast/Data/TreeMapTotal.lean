import Mathlib.Algebra.GroupWithZero.Nat
import Mathlib.Algebra.Order.BigOperators.Group.List
import Mathlib.Algebra.Order.Group.Nat
import Mathlib.Data.List.Nodup
import Std.Data.ExtTreeMap

/-! # Totals over a finite map

`total w m` adds `w k v` over the entries of the map `m`. Inserting and erasing an entry change it by
that entry's weight only. With `w = 1` it is the size of the map. -/

namespace Std.ExtTreeMap

variable {α β : Type} {cmp : α → α → Ordering} [TransCmp cmp] [LawfulEqCmp cmp]
  {m : ExtTreeMap α β cmp} {k : α} {v : β}

/-- The sum of the weights of the entries. -/
def total (w : α → β → ℕ) (m : ExtTreeMap α β cmp) : ℕ :=
  (m.toList.map fun x => w x.1 x.2).sum

omit [LawfulEqCmp cmp] in
theorem nodup_toList (m : ExtTreeMap α β cmp) : m.toList.Nodup := by
  have h : (m.toList.map Prod.fst).Nodup := by
    rw [map_fst_toList_eq_keys]
    exact nodup_keys
  exact h.of_map

theorem toList_perm_of_getElem? (h : m[k]? = some v) :
    m.toList.Perm ((k, v) :: (m.erase k).toList) := by
  rw [List.perm_ext_iff_of_nodup m.nodup_toList]
  · rintro ⟨k', v'⟩
    simp only [List.mem_cons, mem_toList_iff_getElem?_eq_some, getElem?_erase, Prod.mk.injEq]
    by_cases hk : cmp k k' = .eq
    · obtain rfl := LawfulEqCmp.eq_of_compare hk
      simp [h, eq_comm]
    · have hne : k' ≠ k := by
        rintro rfl
        exact hk ReflCmp.compare_self
      simp [hk, hne]
  · refine List.nodup_cons.mpr ⟨?_, (m.erase k).nodup_toList⟩
    simp [mem_toList_iff_getElem?_eq_some]

theorem toList_perm_insert (m : ExtTreeMap α β cmp) (k : α) (v : β) :
    (m.insert k v).toList.Perm ((k, v) :: (m.erase k).toList) := by
  have h := toList_perm_of_getElem? (m := m.insert k v) (k := k) (v := v) (by simp)
  have herase : (m.insert k v).erase k = m.erase k := by
    refine ext_getElem? fun k' => ?_
    simp only [getElem?_erase, getElem?_insert]
    split <;> rfl
  rwa [herase] at h

/-- What an entry weighs, if it is there. -/
def weightAt (w : α → β → ℕ) (m : ExtTreeMap α β cmp) (k : α) : ℕ :=
  match m[k]? with
  | none => 0
  | some v => w k v

theorem total_eq_erase_add (w : α → β → ℕ) (m : ExtTreeMap α β cmp) (k : α) :
    m.total w = (m.erase k).total w + m.weightAt w k := by
  unfold weightAt
  cases h : m[k]? with
  | none =>
    have herase : m.erase k = m := by
      refine ext_getElem? fun k' => ?_
      rw [getElem?_erase]
      split
      · rename_i hk
        rw [← LawfulEqCmp.eq_of_compare hk, h]
      · rfl
    rw [herase, Nat.add_zero]
  | some v =>
    rw [total, ((toList_perm_of_getElem? h).map _).sum_eq, List.map_cons, List.sum_cons,
      Nat.add_comm]
    rfl

theorem total_insert (w : α → β → ℕ) (m : ExtTreeMap α β cmp) (k : α) (v : β) :
    (m.insert k v).total w = (m.erase k).total w + w k v := by
  rw [total, ((toList_perm_insert m k v).map _).sum_eq, List.map_cons, List.sum_cons, Nat.add_comm]
  rfl

theorem total_erase_le (w : α → β → ℕ) (m : ExtTreeMap α β cmp) (k : α) :
    (m.erase k).total w ≤ m.total w := by
  rw [total_eq_erase_add w m k]
  exact Nat.le_add_right _ _

theorem total_le {w : α → β → ℕ} {c : ℕ} (h : ∀ k v, m[k]? = some v → w k v ≤ c) :
    m.total w ≤ m.size * c := by
  have hsum : (m.toList.map fun x => w x.1 x.2).sum ≤ m.toList.length * c := by
    have := List.sum_le_card_nsmul (m.toList.map fun x => w x.1 x.2) c (by
      simp only [List.mem_map]
      rintro _ ⟨⟨k, v⟩, hmem, rfl⟩
      exact h k v (mem_toList_iff_getElem?_eq_some.mp hmem))
    simpa using this
  rwa [length_toList] at hsum

end Std.ExtTreeMap
