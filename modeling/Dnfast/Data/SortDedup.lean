import Mathlib.Algebra.Order.BigOperators.Group.List
import Mathlib.Algebra.Order.Ring.Nat
import Mathlib.Data.List.Destutter
import Mathlib.Data.List.Sort
import Mathlib.Order.Defs.LinearOrder

/-! # Sorting and removing repetitions

`sortDedup` sorts a list and drops the repetitions, which stand next to each other then. The result
is strictly ascending and has the same elements, so it is also what collecting the list into an
ordered set and listing the set gives. -/

namespace List

variable {α : Type*} [LinearOrder α]

/-- A sorted list is strictly ascending when no element comes twice. -/
theorem isChain_lt_insertionSort_iff {l : List α} :
    (l.insertionSort (· ≤ ·)).IsChain (· < ·) ↔ l.Nodup := by
  have hperm := perm_insertionSort (· ≤ ·) l
  have hsorted := pairwise_insertionSort (· ≤ ·) l
  rw [isChain_iff_pairwise, ← hperm.nodup_iff]
  constructor
  · exact fun h => h.imp ne_of_lt
  · exact fun h => (hsorted.and h).imp fun hlt => lt_of_le_of_ne hlt.1 hlt.2

/-- Neighbours in a sorted list differ when no element comes twice. -/
theorem isChain_ne_insertionSort_iff {l : List α} :
    (l.insertionSort (· ≤ ·)).IsChain (· ≠ ·) ↔ l.Nodup := by
  rw [← isChain_lt_insertionSort_iff]
  have hle : (l.insertionSort (· ≤ ·)).IsChain (· ≤ ·) :=
    (pairwise_insertionSort (· ≤ ·) l).isChain
  constructor
  · intro hne
    rw [isChain_iff_getElem] at hle hne ⊢
    exact fun i hi => lt_of_le_of_ne (hle i hi) (hne i hi)
  · exact fun h => h.imp fun _ _ => ne_of_lt

theorem insertionSort_eq_of_perm {l l' : List α} (h : l.Perm l') :
    l.insertionSort (· ≤ ·) = l'.insertionSort (· ≤ ·) := by
  have hperm := (perm_insertionSort (· ≤ ·) l).trans (h.trans (perm_insertionSort (· ≤ ·) l').symm)
  exact hperm.eq_of_pairwise' (pairwise_insertionSort (· ≤ ·) l) (pairwise_insertionSort (· ≤ ·) l')

/-- The elements of the list in ascending order, each once. -/
def sortDedup (l : List α) : List α := (l.insertionSort (· ≤ ·)).destutter (· ≠ ·)

theorem mem_destutter'_ne (a b : α) (l : List α) :
    b ∈ l.destutter' (· ≠ ·) a ↔ b = a ∨ b ∈ l := by
  induction l generalizing a with
  | nil => simp
  | cons c l ih =>
    by_cases h : a ≠ c
    · rw [destutter'_cons_pos l h, mem_cons, ih, mem_cons]
    · rw [destutter'_cons_neg l h, ih, mem_cons, not_not.mp h]
      tauto

@[simp] theorem mem_sortDedup {l : List α} {b : α} : b ∈ l.sortDedup ↔ b ∈ l := by
  rw [← (perm_insertionSort (· ≤ ·) l).mem_iff (a := b), sortDedup]
  cases l.insertionSort (· ≤ ·) with
  | nil => simp
  | cons a l => rw [destutter_cons', mem_destutter'_ne, mem_cons]

theorem pairwise_sortDedup (l : List α) : l.sortDedup.Pairwise (· < ·) := by
  have hle : l.sortDedup.Pairwise (· ≤ ·) :=
    (pairwise_insertionSort (· ≤ ·) l).sublist (destutter_sublist ..)
  have hne : l.sortDedup.IsChain (· ≠ ·) := isChain_destutter ..
  rw [← isChain_iff_pairwise] at hle ⊢
  rw [isChain_iff_getElem] at hle hne ⊢
  exact fun i hi => lt_of_le_of_ne (hle i hi) (hne i hi)

/-- A total over the list without repetitions is no larger. -/
theorem sum_map_sortDedup_le (w : α → ℕ) (l : List α) :
    (l.sortDedup.map w).sum ≤ (l.map w).sum := by
  rw [← ((perm_insertionSort (· ≤ ·) l).map w).sum_eq]
  exact ((destutter_sublist (· ≠ ·) _).map w).sum_le_sum fun _ _ => Nat.zero_le _

theorem length_sortDedup_le (l : List α) : l.sortDedup.length ≤ l.length := by
  simpa using sum_map_sortDedup_le (fun _ => 1) l

end List
