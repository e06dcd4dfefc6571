import Mathlib.Data.List.Basic

/-! # Maps collected from pairs

A map that is only collected from a list of pairs and asked for its values is the list itself,
asked from the end: a later pair replaces an earlier one. -/

variable {κ α β : Type} [DecidableEq κ]

/-- The value of `k` in the map collected from the pairs. -/
def collected (pairs : List (κ × β)) (k : κ) : Option β :=
  (pairs.reverse.find? fun x => x.1 = k).map Prod.snd

/-- The map without `k`. -/
def without (pairs : List (κ × β)) (k : κ) : List (κ × β) := pairs.filter fun x => x.1 ≠ k

/-- A value in the map comes from the last pair of its key. -/
theorem collected_eq_some {pairs : List (κ × β)} {k : κ} {v : β} :
    collected pairs k = some v ↔
      ∃ pre post, pairs = pre ++ (k, v) :: post ∧ ∀ x ∈ post, x.1 ≠ k := by
  rw [collected, Option.map_eq_some_iff]
  constructor
  · rintro ⟨⟨k', v'⟩, hfind, rfl⟩
    obtain ⟨hk, as, bs, hrev, has⟩ := List.find?_eq_some_iff_append.mp hfind
    obtain rfl : k' = k := by simpa using hk
    refine ⟨bs.reverse, as.reverse, ?_, fun x hx => by simpa using has x (List.mem_reverse.mp hx)⟩
    rw [← List.reverse_reverse pairs, hrev]
    simp
  · rintro ⟨pre, post, rfl, hpost⟩
    refine ⟨(k, v), List.find?_eq_some_iff_append.mpr ⟨by simp, post.reverse, pre.reverse,
      by simp, fun x hx => by simpa using hpost x (List.mem_reverse.mp hx)⟩, rfl⟩

theorem collected_eq_none {pairs : List (κ × β)} {k : κ} :
    collected pairs k = none ↔ ∀ x ∈ pairs, x.1 ≠ k := by
  simp [collected]

theorem mem_of_collected {pairs : List (κ × β)} {k : κ} {v : β} (h : collected pairs k = some v) :
    (k, v) ∈ pairs := by
  obtain ⟨pre, post, rfl, -⟩ := collected_eq_some.mp h
  simp

/-- Where the keys are distinct every pair is in the map. -/
theorem collected_of_mem {pairs : List (κ × β)} (hnodup : (pairs.map Prod.fst).Nodup) {k : κ}
    {v : β} (h : (k, v) ∈ pairs) : collected pairs k = some v := by
  obtain ⟨pre, post, rfl⟩ := List.append_of_mem h
  refine collected_eq_some.mpr ⟨pre, post, rfl, fun x hx heq => ?_⟩
  rw [List.map_append, List.map_cons, List.nodup_append] at hnodup
  exact (List.nodup_cons.mp hnodup.2.1).1 (List.mem_map.mpr ⟨x, hx, heq⟩)

/-- A value in a map collected from some elements of a list comes from the last element that gives
one. -/
theorem collected_filterMap {l : List α} {f : α → Option (κ × β)} {k : κ} {v : β} :
    collected (l.filterMap f) k = some v ↔
      ∃ pre a post, l = pre ++ a :: post ∧ f a = some (k, v) ∧ ∀ b ∈ post, ∀ w, f b ≠ some (k, w) := by
  rw [collected_eq_some]
  constructor
  · rintro ⟨pre, post, heq, hpost⟩
    obtain ⟨l₁, l₂, rfl, rfl, h₂⟩ := List.filterMap_eq_append_iff.mp heq
    obtain ⟨l₃, a, l₄, rfl, hnone, ha, rfl⟩ := List.filterMap_eq_cons_iff.mp h₂
    refine ⟨l₁ ++ l₃, a, l₄, by simp, ha, fun b hb w hw => ?_⟩
    exact hpost (k, w) (List.mem_filterMap.mpr ⟨b, hb, hw⟩) rfl
  · rintro ⟨pre, a, post, rfl, ha, hpost⟩
    refine ⟨pre.filterMap f, post.filterMap f, by simp [ha], fun x hx heq => ?_⟩
    obtain ⟨b, hb, hbx⟩ := List.mem_filterMap.mp hx
    exact hpost b hb x.2 (by rw [hbx, ← heq])

/-- The map over the values. -/
theorem collected_map {γ : Type} (pairs : List (κ × β)) (f : β → γ) (k : κ) :
    collected (pairs.map fun x => (x.1, f x.2)) k = (collected pairs k).map f := by
  rw [collected, ← List.map_reverse, List.find?_map, Option.map_map, collected, Option.map_map]
  rfl
