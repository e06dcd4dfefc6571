import Mathlib.Data.List.Basic
import Mathlib.Order.Lattice
import Dnfast.Data.Check

/-! # Searching sorted lists

Binary search for an element (`searchExact`) and for the end of an initial part (`lowerBound`), and
the scan of the elements from a place on (`scanWhile`). All three read elements through a computation
that may fail; on a list that is sorted, with reads that succeed inside it, they find what they look
for. The size of the interval bounds the number of steps. -/

/-- What a look at an element says about the place of the target. -/
inductive Probe (β : Type) where
  | less
  | greater
  | found (b : β)

section
variable {ε β : Type}

def searchExact (probe : Nat → Except ε (Probe β)) : Nat → Nat → Nat → Except ε (Option β)
  | 0, _, _ => .ok none
  | fuel + 1, low, high =>
    if low < high then do
      let middle := low + (high - low) / 2
      match ← probe middle with
      | .less => searchExact probe fuel (middle + 1) high
      | .greater => searchExact probe fuel low middle
      | .found b => return some b
    else .ok none

def lowerBound (below : Nat → Except ε Bool) : Nat → Nat → Nat → Except ε Nat
  | 0, low, _ => .ok low
  | fuel + 1, low, high =>
    if low < high then do
      let middle := low + (high - low) / 2
      if ← below middle then lowerBound below fuel (middle + 1) high
      else lowerBound below fuel low middle
    else .ok low

/-- The values from a place on, up to the first element that has none. -/
def scanWhile (read : Nat → Except ε (Option β)) : Nat → Nat → Nat → Except ε (List β)
  | 0, _, _ => .ok []
  | fuel + 1, low, count =>
    if low < count then do
      match ← read low with
      | some b => return b :: (← scanWhile read fuel (low + 1) count)
      | none => return []
    else .ok []

end

section
variable {ε β κ : Type} [LinearOrder κ] {l : List (κ × β)} {target : κ} {low high fuel : Nat}

/-- The entries before the interval are below the target, those after it above. -/
def Encloses (l : List (κ × β)) (target : κ) (low high : Nat) : Prop :=
  (∀ i (h : i < l.length), i < low → l[i].1 < target) ∧
    ∀ i (h : i < l.length), high ≤ i → target < l[i].1

theorem Encloses.not_mem (h : Encloses l target low high) (hle : high ≤ low) (b : β) :
    (target, b) ∉ l := by
  intro hmem
  obtain ⟨i, hi, heq⟩ := List.getElem_of_mem hmem
  have hkey : l[i].1 = target := by rw [heq]
  rcases Nat.lt_or_ge i low with hlow | hlow
  · exact absurd hkey (h.1 i hi hlow).ne
  · exact absurd hkey (h.2 i hi (Nat.le_trans hle hlow)).ne'

/-- A search that reads the entries of a list in the order of their keys ends, and it ends with the
value that the target has. -/
theorem searchExact_spec {probe : Nat → Except ε (Probe β)} (hsorted : l.Pairwise (·.1 < ·.1))
    (hprobe : ∀ i (h : i < l.length), probe i = .ok
      (if l[i].1 < target then .less else if target < l[i].1 then .greater else .found l[i].2))
    (hfuel : high - low ≤ fuel) (hhigh : high ≤ l.length) (hin : Encloses l target low high) :
    ∃ r, searchExact probe fuel low high = .ok r ∧ ∀ b, r = some b ↔ (target, b) ∈ l := by
  have hempty {low high : Nat} (hin : Encloses l target low high) (hle : high ≤ low) :
      ∀ b, (none : Option β) = some b ↔ (target, b) ∈ l :=
    fun b => iff_of_false nofun (hin.not_mem hle b)
  rw [List.pairwise_iff_getElem] at hsorted
  induction fuel generalizing low high with
  | zero => exact ⟨none, rfl, hempty hin (by omega)⟩
  | succ fuel ih =>
    rw [searchExact]
    split
    · next hlt =>
      have hmiddle : low + (high - low) / 2 < l.length := by omega
      simp only [hprobe _ hmiddle, Except.ok_bind]
      split_ifs with hless hgreater
      · refine ih (by omega) hhigh ⟨?_, hin.2⟩
        intro i hi hlow
        rcases Nat.lt_or_ge i (low + (high - low) / 2) with h | h
        · exact (hsorted i _ hi hmiddle h).trans hless
        · obtain rfl : i = low + (high - low) / 2 := by omega
          exact hless
      · refine ih (by omega) (Nat.le_of_lt hmiddle) ⟨hin.1, ?_⟩
        intro i hi hle
        rcases Nat.lt_or_ge (low + (high - low) / 2) i with h | h
        · exact hgreater.trans (hsorted _ i hmiddle hi h)
        · obtain rfl : i = low + (high - low) / 2 := by omega
          exact hgreater
      · have hkey : l[low + (high - low) / 2].1 = target :=
          le_antisymm (not_lt.mp hgreater) (not_lt.mp hless)
        refine ⟨some _, rfl, fun b => ?_⟩
        rw [Option.some.injEq]
        constructor
        · rintro rfl
          rw [← hkey]
          exact List.getElem_mem hmiddle
        · intro hmem
          obtain ⟨i, hi, heq⟩ := List.getElem_of_mem hmem
          rcases Nat.lt_trichotomy i (low + (high - low) / 2) with h | h | h
          · have := hsorted i _ hi hmiddle h
            rw [heq, hkey] at this
            exact absurd this (lt_irrefl _)
          · simp only [← h, heq]
          · have := hsorted _ i hmiddle hi h
            rw [heq, hkey] at this
            exact absurd this (lt_irrefl _)
    · next hle => exact ⟨none, rfl, hempty hin (by omega)⟩

end

section
variable {ε α β : Type} {l : List α} {p : α → Bool} {fuel low high : Nat}

/-- The search for the end of the initial part where the predicate holds. -/
theorem lowerBound_spec {below : Nat → Except ε Bool} {n : Nat}
    (hbelow : ∀ i (h : i < l.length), below i = .ok (p l[i]))
    (hpart : ∀ i (h : i < l.length), p l[i] = true ↔ i < n) (hfuel : high - low ≤ fuel)
    (hhigh : high ≤ l.length) (hlow : low ≤ n) (hn : n ≤ high) :
    lowerBound below fuel low high = .ok n := by
  induction fuel generalizing low high with
  | zero =>
    obtain rfl : low = n := by omega
    rfl
  | succ fuel ih =>
    rw [lowerBound]
    split
    · next hlt =>
      have hmiddle : low + (high - low) / 2 < l.length := by omega
      have hiff := hpart _ hmiddle
      simp only [hbelow _ hmiddle, Except.ok_bind]
      split
      · next hp => exact ih (by omega) hhigh (hiff.mp hp) hn
      · next hp => 
        exact ih (by omega) (Nat.le_of_lt hmiddle) hlow (Nat.not_lt.mp fun h => hp (hiff.mpr h))
    · next hle =>
      obtain rfl : low = n := by omega
      rfl

theorem scanWhile_spec {read : Nat → Except ε (Option β)} {f : α → β}
    (hread : ∀ i (h : i < l.length), read i = .ok (if p l[i] then some (f l[i]) else none))
    (hfuel : l.length - low ≤ fuel) :
    scanWhile read fuel low l.length = .ok (((l.drop low).takeWhile p).map f) := by
  induction fuel generalizing low with
  | zero =>
    rw [List.drop_eq_nil_of_le (by omega)]
    rfl
  | succ fuel ih =>
    rw [scanWhile]
    split
    · next hlt =>
      rw [List.drop_eq_getElem_cons hlt, List.takeWhile_cons, hread _ hlt, Except.ok_bind]
      split_ifs with hp
      · rw [ih (by omega)]
        rfl
      · rfl
    · next hle =>
      rw [List.drop_eq_nil_of_le (by omega)]
      rfl

/-- Where the predicate only holds in front, it holds up to the end of its run. -/
theorem getElem_iff_lt_length_takeWhile (h : l.Pairwise fun a b => p b = true → p a = true) (i : Nat)
    (hi : i < l.length) : p l[i] = true ↔ i < (l.takeWhile p).length := by
  induction l generalizing i with
  | nil => exact absurd hi (Nat.not_lt_zero i)
  | cons a l ih =>
    rw [List.pairwise_cons] at h
    rw [List.takeWhile_cons]
    split_ifs with ha
    · cases i with
      | zero => simp [ha]
      | succ i =>
        rw [List.getElem_cons_succ, ih h.2, List.length_cons, Nat.succ_lt_succ_iff]
    · refine iff_of_false ?_ (Nat.not_lt_zero i)
      cases i with
      | zero => exact ha
      | succ i => exact fun hp => ha (h.1 _ (List.getElem_mem _) hp)

theorem filter_eq_takeWhile (h : l.Pairwise fun a b => p b = true → p a = true) :
    l.filter p = l.takeWhile p := by
  induction l with
  | nil => rfl
  | cons a l ih =>
    rw [List.pairwise_cons] at h
    rw [List.filter_cons, List.takeWhile_cons, ih h.2]
    split_ifs with ha
    · rfl
    · rw [← ih h.2, List.filter_eq_nil_iff]
      exact fun b hb hp => ha (h.1 b hb hp)

theorem drop_length_takeWhile (h : l.Pairwise fun a b => p b = true → p a = true) :
    l.drop (l.takeWhile p).length = l.filter fun a => !p a := by
  induction l with
  | nil => rfl
  | cons a l ih =>
    rw [List.pairwise_cons] at h
    rw [List.takeWhile_cons]
    split_ifs with ha
    · rw [List.length_cons, List.drop_succ_cons, ih h.2, List.filter_cons_of_neg (by simp [ha])]
    · rw [List.length_nil, List.drop_zero, eq_comm, List.filter_eq_self]
      intro b hb
      rcases List.mem_cons.mp hb with rfl | hb
      · simpa using ha
      · simpa using fun hp => ha (h.1 b hb hp)

/-- The scan from the lower bound on finds all elements that are looked for, when they stand together
behind those that are below. -/
theorem lowerBound_scanWhile_spec {below : Nat → Except ε Bool} {read : Nat → Except ε (Option β)}
    {q : α → Bool} {f : α → β} (hbelow : ∀ i (h : i < l.length), below i = .ok (p l[i]))
    (hread : ∀ i (h : i < l.length), read i = .ok (if q l[i] then some (f l[i]) else none))
    (hfront : l.Pairwise fun a b => p b = true → p a = true)
    (hrun : l.Pairwise fun a b => p a = false → q b = true → q a = true)
    (hdisjoint : ∀ a ∈ l, q a = true → p a = false) :
    (do scanWhile read l.length (← lowerBound below l.length 0 l.length) l.length) =
      .ok ((l.filter q).map f) := by
  have hbound := lowerBound_spec hbelow (getElem_iff_lt_length_takeWhile hfront)
    (Nat.sub_le l.length 0) (Nat.le_refl _) (Nat.zero_le _) (List.takeWhile_sublist p).length_le
  have hbehind : (l.filter fun a => !p a).filter q = (l.filter fun a => !p a).takeWhile q := by
    apply filter_eq_takeWhile
    refine (hrun.sublist List.filter_sublist).imp_of_mem ?_
    intro a b ha _ himp
    exact himp (by simpa using List.of_mem_filter ha)
  have hall : (l.filter fun a => !p a).filter q = l.filter q := by
    rw [List.filter_filter]
    apply List.filter_congr
    intro a ha
    cases hq : q a with
    | false => rfl
    | true => rw [hdisjoint a ha hq]; rfl
  rw [hbound, Except.ok_bind, scanWhile_spec hread (Nat.sub_le _ _), drop_length_takeWhile hfront,
    ← hbehind, hall]

end
