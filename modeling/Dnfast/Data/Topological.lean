import Mathlib.Data.Finset.Max
import Mathlib.Data.List.Nodup
import Mathlib.Logic.Relation

/-! # Listing a graph with its sources first

`Topological.sort` lists a finite set of nodes by taking, turn after turn, the least node that no
node left has an edge to. When every node left has one, `cut` chooses the node that is taken
instead. `Cuts` says that `cut` always finds one; the list then has every node once.

`keeps_iff` says when the list respects the edges that are on no cycle: exactly when each node that
is cut out reaches the nodes left that have an edge to it. `sort_eq_iff` compares the lists of two
graphs turn by turn. -/

namespace Topological

open Relation (ReflTransGen)

/-- In a list without repetitions only one of two elements comes first. -/
theorem not_sublist_of_nodup {α : Type*} {l : List α} {u v : α} (hl : l.Nodup)
    (huv : [u, v].Sublist l) : ¬ [v, u].Sublist l := by
  intro hvu
  have hne : u ≠ v := by
    rintro rfl
    exact absurd (hl.sublist huv) (by simp)
  induction l with
  | nil => exact nomatch huv
  | cons a l ih =>
    obtain ⟨ha, hnd⟩ := List.nodup_cons.mp hl
    rcases huv with _ | huv | huv
    · rcases hvu with _ | hvu | hvu
      · exact ih hnd ‹_› ‹_›
      · exact ha (List.mem_of_cons_sublist (List.sublist_of_cons_sublist ‹_›))
    · rcases hvu with _ | hvu | hvu
      · exact ha (List.mem_of_cons_sublist (List.sublist_of_cons_sublist ‹_›))
      · exact hne rfl

variable {α : Type*} [LinearOrder α]

section
variable (edge : α → α → Prop) [DecidableRel edge] (cut : Finset α → Option α)

/-- The nodes of the set that none of its nodes has an edge to. -/
def free (s : Finset α) : Finset α := s.filter fun n => ∀ m ∈ s, ¬ edge m n

/-- The node that is taken when the nodes of the set are left. -/
def next (s : Finset α) : Option α :=
  if h : (free edge s).Nonempty then some ((free edge s).min' h) else cut s

def sort (s : Finset α) : List α :=
  match next edge cut s with
  | none => []
  | some n => if _h : n ∈ s then n :: sort (s.erase n) else []
termination_by s.card
decreasing_by exact Finset.card_erase_lt_of_mem _h

/-- When no node is free, one of those left is cut out. -/
def Cuts : Prop := ∀ s : Finset α, s.Nonempty → free edge s = ∅ → ∃ n ∈ s, cut s = some n

/-- The sets that are left at the turns from `s` on. -/
inductive Left (s : Finset α) : Finset α → Prop where
  | all : Left s s
  | take {t : Finset α} {n : α} (h : Left s t) (hn : next edge cut t = some n) :
      Left s (t.erase n)

/-- An edge between nodes of the set that is on no cycle leads forward in the list. -/
def Keeps (s : Finset α) : Prop :=
  ∀ u ∈ s, ∀ v ∈ s, edge u v → ¬ ReflTransGen edge v u → [u, v].Sublist (sort edge cut s)

/-- A node that is cut out reaches the nodes left that have an edge to it. `sort_eq_iff` compares the lists of two
graphs turn by turn. -/
def CutsInside (s : Finset α) : Prop :=
  ∀ t, Left edge cut s t → free edge t = ∅ → ∀ n, cut t = some n →
    ∀ m ∈ t, edge m n → ReflTransGen edge n m

end

variable {edge : α → α → Prop} [DecidableRel edge] {cut : Finset α → Option α} {s t : Finset α}
  {n : α}

omit [LinearOrder α] in
theorem mem_free : n ∈ free edge s ↔ n ∈ s ∧ ∀ m ∈ s, ¬ edge m n := by
  rw [free, Finset.mem_filter]

omit [LinearOrder α] in
theorem free_subset : free edge s ⊆ s := Finset.filter_subset _ _

theorem next_of_free (h : (free edge s).Nonempty) :
    next edge cut s = some ((free edge s).min' h) := dif_pos h

theorem next_of_not_free (h : free edge s = ∅) : next edge cut s = cut s := by
  rw [next, dif_neg]
  rw [h]
  exact Finset.not_nonempty_empty

/-- The node taken is free, or none is and it is cut out. -/
theorem next_cases (h : next edge cut s = some n) :
    n ∈ free edge s ∨ free edge s = ∅ ∧ cut s = some n := by
  rcases Finset.eq_empty_or_nonempty (free edge s) with he | hne
  · rw [next_of_not_free he] at h
    exact .inr ⟨he, h⟩
  · rw [next_of_free hne, Option.some.injEq] at h
    rw [← h]
    exact .inl (Finset.min'_mem _ _)

section
variable (hcuts : Cuts edge cut)
include hcuts

theorem exists_next (hs : s.Nonempty) : ∃ n ∈ s, next edge cut s = some n := by
  rcases Finset.eq_empty_or_nonempty (free edge s) with he | hne
  · obtain ⟨n, hn, hcut⟩ := hcuts s hs he
    exact ⟨n, hn, (next_of_not_free he).trans hcut⟩
  · exact ⟨_, free_subset (Finset.min'_mem _ hne), next_of_free hne⟩

theorem mem_of_next (hs : s.Nonempty) (h : next edge cut s = some n) : n ∈ s := by
  obtain ⟨n', hmem, hn'⟩ := exists_next hcuts hs
  rw [h, Option.some.injEq] at hn'
  rwa [hn']

omit hcuts in
@[simp] theorem sort_empty : sort edge cut ∅ = [] := by
  rw [sort]
  split <;> simp

omit hcuts in
theorem sort_of_next (hn : n ∈ s) (h : next edge cut s = some n) :
    sort edge cut s = n :: sort edge cut (s.erase n) := by
  rw [sort, h]
  exact dif_pos hn

/-- The list of a set that is not empty starts with the node that is taken. -/
theorem exists_sort_eq (hs : s.Nonempty) : ∃ n ∈ s, next edge cut s = some n ∧
    sort edge cut s = n :: sort edge cut (s.erase n) := by
  obtain ⟨n, hn, hnext⟩ := exists_next hcuts hs
  exact ⟨n, hn, hnext, sort_of_next hn hnext⟩

/-- Every node of the set is listed. -/
@[simp] theorem mem_sort : n ∈ sort edge cut s ↔ n ∈ s := by
  induction s using Finset.strongInduction with
  | H s ih =>
    rcases Finset.eq_empty_or_nonempty s with rfl | hs
    · rw [sort_empty]
      simp
    · obtain ⟨m, hm, -, hsort⟩ := exists_sort_eq hcuts hs
      rw [hsort, List.mem_cons, ih _ (Finset.erase_ssubset hm), Finset.mem_erase]
      by_cases hnm : n = m
      · simp [hnm, hm]
      · simp [hnm]

/-- No node is listed twice. -/
theorem nodup_sort (s : Finset α) : (sort edge cut s).Nodup := by
  induction s using Finset.strongInduction with
  | H s ih =>
    rcases Finset.eq_empty_or_nonempty s with rfl | hs
    · rw [sort_empty]
      exact List.nodup_nil
    · obtain ⟨m, hm, -, hsort⟩ := exists_sort_eq hcuts hs
      rw [hsort, List.nodup_cons, mem_sort hcuts]
      exact ⟨Finset.notMem_erase m s, ih _ (Finset.erase_ssubset hm)⟩

/-- What is left is listed last. -/
theorem exists_sort_eq_append (hl : Left edge cut s t) :
    ∃ taken, sort edge cut s = taken ++ sort edge cut t := by
  induction hl with
  | all => exact ⟨[], rfl⟩
  | @take t n _ hn ih =>
    obtain ⟨taken, hsort⟩ := ih
    rcases Finset.eq_empty_or_nonempty t with rfl | ht
    · exact ⟨taken, hsort⟩
    · refine ⟨taken ++ [n], ?_⟩
      rw [hsort, sort_of_next (mem_of_next hcuts ht hn) hn, List.append_assoc]
      rfl

/-- A node that is cut out while another is left comes before it. -/
theorem sublist_of_next {m : α} (hl : Left edge cut s t) (hn : next edge cut t = some n)
    (hmem : n ∈ t) (hm : m ∈ t) (hne : m ≠ n) : [n, m].Sublist (sort edge cut s) := by
  obtain ⟨taken, hsort⟩ := exists_sort_eq_append hcuts hl
  rw [hsort, sort_of_next hmem hn]
  apply List.Sublist.trans _ (List.sublist_append_right taken _)
  apply List.Sublist.cons_cons
  rw [List.singleton_sublist, mem_sort hcuts]
  exact Finset.mem_erase.mpr ⟨hne, hm⟩

omit hcuts in
theorem Left.subset (hl : Left edge cut s t) : t ⊆ s := by
  induction hl with
  | all => exact subset_rfl
  | take _ _ ih => exact (Finset.erase_subset _ _).trans ih

omit hcuts in
theorem Left.of_take (hn : next edge cut s = some n) (hl : Left edge cut (s.erase n) t) :
    Left edge cut s t := by
  induction hl with
  | all => exact .take .all hn
  | take _ hn' ih => exact .take ih hn'

omit hcuts in
theorem CutsInside.erase (h : CutsInside edge cut s) (hn : next edge cut s = some n) :
    CutsInside edge cut (s.erase n) :=
  fun t hl => h t (hl.of_take hn)

omit hcuts in
/-- A node that is taken reaches the nodes left that have an edge to it. -/
theorem CutsInside.path (h : CutsInside edge cut s) (hn : next edge cut s = some n) {m : α}
    (hm : m ∈ s) (hedge : edge m n) : ReflTransGen edge n m := by
  rcases next_cases hn with hfree | ⟨hstuck, hcut⟩
  · exact absurd hedge ((mem_free.mp hfree).2 m hm)
  · exact h s .all hstuck n hcut m hm hedge

/-- **When the edges on no cycle are kept.** -/
theorem keeps_iff (s : Finset α) : Keeps edge cut s ↔ CutsInside edge cut s := by
  constructor
  · intro hk t hl hstuck n hcut m hm hedge
    have hn : next edge cut t = some n := (next_of_not_free hstuck).trans hcut
    have hmem : n ∈ t := mem_of_next hcuts ⟨m, hm⟩ hn
    by_contra hpath
    have hne : m ≠ n := by
      rintro rfl
      exact hpath .refl
    have hbefore := hk m (hl.subset hm) n (hl.subset hmem) hedge hpath
    exact not_sublist_of_nodup (nodup_sort hcuts s) hbefore
      (sublist_of_next hcuts hl hn hmem hm hne)
  · induction s using Finset.strongInduction with
    | H s ih =>
      intro hin u hu v hv hedge hpath
      obtain ⟨n, hmem, hn, hsort⟩ := exists_sort_eq hcuts ⟨u, hu⟩
      have huv : u ≠ v := by
        rintro rfl
        exact hpath .refl
      by_cases hvn : v = n
      · rw [hvn] at hedge hpath
        exact absurd (hin.path hn hu hedge) hpath
      · have hv' : v ∈ s.erase n := Finset.mem_erase.mpr ⟨hvn, hv⟩
        rw [hsort]
        by_cases hun : u = n
        · rw [hun]
          apply List.Sublist.cons_cons
          rwa [List.singleton_sublist, mem_sort hcuts]
        · apply List.Sublist.cons
          exact ih _ (Finset.erase_ssubset hmem) (hin.erase hn) u
            (Finset.mem_erase.mpr ⟨hun, hu⟩) v hv' hedge hpath

end

/-! ## Two graphs -/

/-- The loops over two graphs take the same node at every turn. -/
def SameTurns (edge : α → α → Prop) [DecidableRel edge] (cut : Finset α → Option α)
    (edge' : α → α → Prop) [DecidableRel edge'] (cut' : Finset α → Option α) (s : Finset α) : Prop :=
  ∀ t, Left edge cut s t → t.Nonempty → next edge cut t = next edge' cut' t

/-- The first turn, and those after it. -/
theorem Left.cases_head (h : Left edge cut s t) :
    t = s ∨ ∃ n, next edge cut s = some n ∧ Left edge cut (s.erase n) t := by
  induction h with
  | all => exact .inl rfl
  | take _ hn ih =>
    rcases ih with rfl | ⟨m, hm, hl⟩
    · exact .inr ⟨_, hn, .all⟩
    · exact .inr ⟨m, hm, .take hl hn⟩

/-- **When two graphs are listed alike.** -/
theorem sort_eq_iff {edge' : α → α → Prop} [DecidableRel edge'] {cut' : Finset α → Option α}
    (hcuts : Cuts edge cut) (hcuts' : Cuts edge' cut') (s : Finset α) :
    sort edge cut s = sort edge' cut' s ↔ SameTurns edge cut edge' cut' s := by
  induction s using Finset.strongInduction with
  | H s ih =>
    rcases Finset.eq_empty_or_nonempty s with rfl | hs
    · refine iff_of_true (by rw [sort_empty, sort_empty]) fun t hl ht => ?_
      exact absurd (Finset.subset_empty.mp hl.subset) ht.ne_empty
    · obtain ⟨n, hmem, hn, hsort⟩ := exists_sort_eq hcuts hs
      obtain ⟨n', -, hn', hsort'⟩ := exists_sort_eq hcuts' hs
      rw [hsort, hsort', List.cons.injEq]
      constructor
      · rintro ⟨rfl, hrest⟩ t hl ht
        rcases hl.cases_head with rfl | ⟨m, hm, hl⟩
        · rw [hn, hn']
        · obtain rfl := Option.some.inj (hn.symm.trans hm)
          exact (ih _ (Finset.erase_ssubset hmem)).mp hrest t hl ht
      · intro hsame
        have hfirst := hsame s .all hs
        rw [hn, hn', Option.some.injEq] at hfirst
        subst hfirst
        refine ⟨rfl, (ih _ (Finset.erase_ssubset hmem)).mpr fun t hl => ?_⟩
        exact hsame t (hl.of_take hn)

end Topological
