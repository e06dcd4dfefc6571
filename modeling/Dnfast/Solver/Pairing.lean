import Dnfast.Data.Forall2
import Dnfast.Solver.Native

/-! # What the pairing of old and new actions does

`pairActions_eq_ok`: the rows keep what they are called by; a replacing row takes over the installed
package of its one old row, every other row keeps its own; and every replaced row is the old row of a
replacing one. The invariant of the two loops is `PairedUpTo`, which counts the rows that the first
loop has been through. -/

namespace Dnfast.Solver

open Except (refuseIf okOr)
open Dnfast.Core (InstalledInventory)

/-- The kinds of the new actions that replace one installed package. -/
def replacingKinds : List String := ["upgrade", "downgrade", "reinstall", "change"]

theorem oldKindOf_cases {kind oldKind : String} (h : oldKindOf kind = some oldKind) :
    (kind ∈ replacingKinds ∧ oldKind ∈ replacedKinds) ∨ (kind = "obsoletes" ∧ oldKind = "obsoleted") := by
  have hall : ∀ e ∈ [("upgrade", "upgraded"), ("downgrade", "downgraded"),
      ("reinstall", "reinstalled"), ("change", "changed"), ("obsoletes", "obsoleted")],
      (e.1 ∈ replacingKinds ∧ e.2 ∈ replacedKinds) ∨ (e.1 = "obsoletes" ∧ e.2 = "obsoleted") := by
    decide
  obtain ⟨pre, post, heq, -⟩ := List.lookup_eq_some_iff.mp h
  exact hall (kind, oldKind) (by rw [heq]; simp)

theorem replacing_not_replaced {kind : String} (h : kind ∈ replacingKinds) :
    kind ∉ replacedKinds ∧ kind ≠ "obsoleted" ∧ kind ≠ "erase" := by
  have hall : ∀ kind ∈ replacingKinds, kind ∉ replacedKinds ∧ kind ≠ "obsoleted" ∧ kind ≠ "erase" := by
    decide
  exact hall kind h

/-- What the loops leave of a row: they turn an obsoleted one into an erasure. -/
structure Marked (before after : NativeAction) : Prop where
  nevra : after.nevra = before.nevra
  repository : after.repository = before.repository
  counterpart : after.transactionCounterpartNevra = before.transactionCounterpartNevra
  spec : after.requestedSpec = before.requestedSpec
  kind : after.kind = before.kind ∨ (before.kind = "obsoleted" ∧ after.kind = "erase")

theorem Marked.refl (a : NativeAction) : Marked a a := ⟨rfl, rfl, rfl, rfl, .inl rfl⟩

/-- The row names the same installed package. -/
structure SameInstalled (before after : NativeAction) : Prop where
  oldNevra : after.oldNevra = before.oldNevra
  dbInstance : after.installedInstance = before.installedInstance
  header : after.installedHeaderSha256 = before.installedHeaderSha256

/-- The row `i` replaces, and the row `j` is its only old side. -/
structure Replaces (bound : List NativeAction) (i j : Nat) : Prop where
  found : ∃ new oldKind name, bound[i]? = some new ∧ oldKindOf new.kind = some oldKind ∧
    oldKind ∈ replacedKinds ∧ nevraName new.nevra = .ok name ∧
    matchesOf bound new oldKind name = [j]

/-- The state of the loops after the first `n` rows. -/
structure PairedUpTo (bound : List NativeAction) (n : Nat) (s : Pairing) : Prop where
  length : s.rows.length = bound.length
  marked : ∀ (i : Nat) before after, bound[i]? = some before → s.rows[i]? = some after → Marked before after
  own : ∀ (i : Nat) before after, bound[i]? = some before → s.rows[i]? = some after →
    (before.kind ∈ replacingKinds → n ≤ i) → SameInstalled before after
  taken : ∀ (i : Nat) before after, bound[i]? = some before → s.rows[i]? = some after →
    before.kind ∈ replacingKinds → i < n →
    ∃ j old, Replaces bound i j ∧ bound[j]? = some old ∧ after.oldNevra = some old.nevra ∧
      after.installedInstance = old.installedInstance ∧
      after.installedHeaderSha256 = old.installedHeaderSha256
  paired : ∀ j ∈ s.paired, ∀ old, bound[j]? = some old → old.kind ∈ replacedKinds →
    ∃ i < n, Replaces bound i j
  /-- A row is an erasure on account of another only where a package comes. -/
  provenance : ∀ (i : Nat) before after, bound[i]? = some before → s.rows[i]? = some after →
    after.provenance = before.provenance ∨ ∃ new ∈ bound, new.kind ∈ activeKinds

section
variable {bound : List NativeAction} {n : Nat} {s : Pairing}

theorem pairedUpTo_zero (bound : List NativeAction) : PairedUpTo bound 0 ⟨bound, []⟩ where
  length := rfl
  marked i before after hbefore hafter := by
    rw [hbefore, Option.some.injEq] at hafter
    exact hafter ▸ .refl before
  own i before after hbefore hafter _ := by
    rw [hbefore, Option.some.injEq] at hafter
    exact hafter ▸ ⟨rfl, rfl, rfl⟩
  taken _ _ _ _ _ _ h := absurd h (Nat.not_lt_zero _)
  paired _ h := absurd h List.not_mem_nil
  provenance i before after hbefore hafter := by
    rw [hbefore, Option.some.injEq] at hafter
    exact .inl (hafter ▸ rfl)

/-- A row that does not replace is passed over. -/
theorem PairedUpTo.pass (h : PairedUpTo bound n s)
    (hpass : ∀ before, bound[n]? = some before → before.kind ∉ replacingKinds) :
    PairedUpTo bound (n + 1) s where
  length := h.length
  marked := h.marked
  own i before after hbefore hafter hreplacing := by
    refine h.own i before after hbefore hafter fun hkind => ?_
    exact (Nat.lt_succ_self n).le.trans (hreplacing hkind)
  taken i before after hbefore hafter hkind hi := by
    have hne : i ≠ n := fun heq => hpass before (heq ▸ hbefore) hkind
    exact h.taken i before after hbefore hafter hkind (by omega)
  paired j hj old hold hkind := by
    obtain ⟨i, hi, hreplaces⟩ := h.paired j hj old hold hkind
    exact ⟨i, hi.trans (Nat.lt_succ_self n), hreplaces⟩
  provenance := h.provenance

/-- The row at a position where one row was modified. -/
theorem getElem?_modify_cases {rows : List NativeAction} {f : NativeAction → NativeAction}
    {i k : Nat} {after : NativeAction} (h : (rows.modify k f)[i]? = some after) :
    (i ≠ k ∧ rows[i]? = some after) ∨ (i = k ∧ ∃ row, rows[i]? = some row ∧ after = f row) := by
  rw [List.getElem?_modify, Option.map_eq_map, Option.map_eq_some_iff] at h
  obtain ⟨row, hrow, heq⟩ := h
  split at heq
  · next hik => exact .inr ⟨hik.symm, row, hrow, heq.symm⟩
  · next hik => exact .inl ⟨Ne.symm hik, heq ▸ hrow⟩

/-- An obsoleted row becomes an erasure. -/
theorem PairedUpTo.obsolete (h : PairedUpTo bound n s) {k : Nat} (parent : String)
    (hk : ∀ before, bound[k]? = some before → before.kind = "obsoleted")
    (hactive : ∃ new ∈ bound, new.kind ∈ activeKinds) :
    PairedUpTo bound n ⟨s.rows.modify k (NativeAction.obsoletedFor parent), k :: s.paired⟩ where
  length := (List.length_modify ..).trans h.length
  marked i before after hbefore hafter := by
    rcases getElem?_modify_cases hafter with ⟨-, hrow⟩ | ⟨rfl, row, hrow, rfl⟩
    · exact h.marked i before after hbefore hrow
    · have hmarked := h.marked i before row hbefore hrow
      exact ⟨hmarked.nevra, hmarked.repository, hmarked.counterpart, hmarked.spec,
        .inr ⟨hk before hbefore, rfl⟩⟩
  own i before after hbefore hafter hn := by
    rcases getElem?_modify_cases hafter with ⟨-, hrow⟩ | ⟨rfl, row, hrow, rfl⟩
    · exact h.own i before after hbefore hrow hn
    · have hown := h.own i before row hbefore hrow hn
      exact ⟨hown.oldNevra, hown.dbInstance, hown.header⟩
  taken i before after hbefore hafter hkind hi := by
    rcases getElem?_modify_cases hafter with ⟨-, hrow⟩ | ⟨rfl, row, hrow, rfl⟩
    · exact h.taken i before after hbefore hrow hkind hi
    · exact absurd (hk before hbefore) (replacing_not_replaced hkind).2.1
  paired j hj old hold hkind := by
    rcases List.mem_cons.mp hj with rfl | hj
    · rw [hk old hold] at hkind
      exact absurd hkind (by decide)
    · exact h.paired j hj old hold hkind
  provenance _ _ _ _ _ := .inr hactive

/-- The row `n` takes over the package of its old row. -/
theorem PairedUpTo.takeOver (h : PairedUpTo bound n s) {j : Nat} {row : NativeAction}
    (hreplaces : Replaces bound n j) (hrow : s.rows[j]? = some row)
    (hold : ∀ old, bound[j]? = some old → old.kind ∈ replacedKinds) :
    PairedUpTo bound (n + 1) ⟨s.rows.modify n (NativeAction.takeOver row), j :: s.paired⟩ := by
  obtain ⟨new, oldKind, name, hnew, hkindOf, hreplaced, -, -⟩ := hreplaces.found
  have hnewKind : new.kind ∈ replacingKinds := by
    rcases oldKindOf_cases hkindOf with ⟨hkind, -⟩ | ⟨-, rfl⟩
    · exact hkind
    · exact absurd hreplaced (by decide)
  have hj : j < bound.length := by
    rw [← h.length]
    exact (List.getElem?_eq_some_iff.mp hrow).1
  -- the old row is not itself a replacing one, so that it still has its own package
  have hbefore : bound[j]? = some bound[j] := List.getElem?_eq_getElem hj
  have hself : SameInstalled bound[j] row := by
    refine h.own j _ row hbefore hrow fun hkind => ?_
    exact absurd (hold _ hbefore) (replacing_not_replaced hkind).1
  constructor
  case length => exact (List.length_modify ..).trans h.length
  case marked =>
    intro i before after hi hafter
    rcases getElem?_modify_cases hafter with ⟨-, hrow⟩ | ⟨rfl, row', hrow', rfl⟩
    · exact h.marked i before after hi hrow
    · have hmarked := h.marked i before row' hi hrow'
      exact ⟨hmarked.nevra, hmarked.repository, hmarked.counterpart, hmarked.spec, hmarked.kind⟩
  case own =>
    intro i before after hi hafter hn
    rcases getElem?_modify_cases hafter with ⟨-, hrow⟩ | ⟨rfl, row', hrow', rfl⟩
    · exact h.own i before after hi hrow fun hkind => (Nat.lt_succ_self n).le.trans (hn hkind)
    · rw [hnew, Option.some.injEq] at hi
      exact absurd (hn (hi ▸ hnewKind)) (Nat.not_succ_le_self i)
  case taken =>
    intro i before after hi hafter hkind hlt
    rcases getElem?_modify_cases hafter with ⟨hne, hrow⟩ | ⟨rfl, row', hrow', rfl⟩
    · exact h.taken i before after hi hrow hkind (by omega)
    · exact ⟨j, bound[j], hreplaces, hbefore,
        congrArg some (h.marked j _ row hbefore hrow).nevra, hself.dbInstance, hself.header⟩
  case paired =>
    intro k hk old hkold hkind
    rcases List.mem_cons.mp hk with rfl | hk
    · exact ⟨n, Nat.lt_succ_self n, hreplaces⟩
    · obtain ⟨i, hi, hrep⟩ := h.paired k hk old hkold hkind
      exact ⟨i, hi.trans (Nat.lt_succ_self n), hrep⟩
  case provenance =>
    intro i before after hi hafter
    rcases getElem?_modify_cases hafter with ⟨-, hrow⟩ | ⟨rfl, row', hrow', rfl⟩
    · exact h.provenance i before after hi hrow
    · exact h.provenance i before row' hi hrow'

/-- The marks do not change which rows are old sides of a replacing row. -/
theorem PairedUpTo.matchesOf (h : PairedUpTo bound n s) {i : Nat} {before new : NativeAction}
    (hbefore : bound[i]? = some before) (hnew : s.rows[i]? = some new) {oldKind : String}
    (hkind : oldKind ∈ replacedKinds) (name : String) :
    matchesOf s.rows new oldKind name = matchesOf bound before oldKind name := by
  unfold Solver.matchesOf
  rw [h.length]
  refine List.filter_congr fun j hj => ?_
  have hj' : j < bound.length := List.mem_range.mp hj
  have hold : bound[j]? = some bound[j] := List.getElem?_eq_getElem hj'
  have hlt : j < s.rows.length := h.length ▸ hj'
  have hrow : s.rows[j]? = some s.rows[j] := List.getElem?_eq_getElem hlt
  have hmarked := h.marked j _ _ hold hrow
  have hside := h.marked i before new hbefore hnew
  rw [hold, hrow, Option.any_some, Option.any_some]
  unfold isOldSide
  rw [hmarked.nevra, hmarked.repository, hmarked.counterpart, hside.nevra, hside.counterpart]
  rcases hmarked.kind with hsame | ⟨hobsoleted, herase⟩
  · rw [hsame]
  · have hne : "erase" ≠ oldKind ∧ "obsoleted" ≠ oldKind := by
      have hall : ∀ oldKind ∈ replacedKinds, "erase" ≠ oldKind ∧ "obsoleted" ≠ oldKind := by decide
      exact hall oldKind hkind
    rw [hobsoleted, herase, decide_eq_false hne.1, decide_eq_false hne.2]

theorem mem_matchesOf {rows : List NativeAction} {new : NativeAction} {oldKind name : String}
    {j : Nat} : j ∈ matchesOf rows new oldKind name ↔
      ∃ old, rows[j]? = some old ∧ isOldSide new oldKind name old = true := by
  rw [Solver.matchesOf, List.mem_filter, List.mem_range, Option.any_eq_true]
  constructor
  · rintro ⟨-, h⟩
    exact h
  · rintro ⟨old, hold, h⟩
    exact ⟨(List.getElem?_eq_some_iff.mp hold).1, old, hold, h⟩

theorem kind_of_isOldSide {new old : NativeAction} {oldKind name : String}
    (h : isOldSide new oldKind name old = true) : old.kind = oldKind := by
  simp only [isOldSide, Bool.and_eq_true, decide_eq_true_eq] at h
  exact h.1.1.1

/-- The rows that an obsoleting one marks. -/
theorem PairedUpTo.obsoleteAll (h : PairedUpTo bound n s) {found : List Nat} {index : Nat}
    {parent : String} {s' : Pairing}
    (hfound : ∀ k ∈ found, ∀ before, bound[k]? = some before → before.kind = "obsoleted")
    (hactive : ∃ new ∈ bound, new.kind ∈ activeKinds)
    (hrun : found.foldlM (pairOld index "obsoleted" parent) s = .ok s') :
    PairedUpTo bound n s' := by
  refine Except.foldlM_invariant (fun s k hk h s₁ hstep => ?_) hrun h
  unfold pairOld at hstep
  split at hstep
  · cases hstep
    exact h
  · rw [Except.check_bind_eq_ok, Except.pure_eq_ok] at hstep
    rw [← hstep.2]
    exact h.obsolete parent (hfound k hk) hactive

/-- One turn of the first loop. -/
theorem PairedUpTo.pairIndex (h : PairedUpTo bound n s) {s' : Pairing}
    (hstep : pairIndex s n = .ok s') : PairedUpTo bound (n + 1) s' := by
  unfold Solver.pairIndex at hstep
  split at hstep
  · next hnone =>
    cases hstep
    refine h.pass fun before hbefore => ?_
    rw [List.getElem?_eq_none_iff, h.length, ← List.getElem?_eq_none_iff, hbefore] at hnone
    cases hnone
  · next new hnew =>
    have hlt : n < bound.length := by
      rw [← h.length]
      exact (List.getElem?_eq_some_iff.mp hnew).1
    have hbefore : bound[n]? = some bound[n] := List.getElem?_eq_getElem hlt
    have hmarked := h.marked n _ new hbefore hnew
    split at hstep
    · next hnone =>
      cases hstep
      refine h.pass fun before hbefore' hkind => ?_
      obtain rfl : bound[n] = before := Option.some_injective _ (hbefore.symm.trans hbefore')
      rcases hmarked.kind with hsame | ⟨hobsoleted, -⟩
      · rw [hsame] at hnone
        have hall : ∀ kind ∈ replacingKinds, oldKindOf kind ≠ none := by decide
        exact hall _ hkind hnone
      · exact (replacing_not_replaced hkind).2.1 hobsoleted
    · next oldKind hkindOf =>
      obtain ⟨name, hname, hstep⟩ := Except.bind_eq_ok.mp hstep
      simp only [Except.check_bind_eq_ok, Except.refuseIf_eq_ok, not_and, not_not] at hstep
      obtain ⟨-, hone, hrun⟩ := hstep
      have hkindBefore : oldKindOf bound[n].kind = some oldKind := by
        rcases hmarked.kind with hsame | ⟨-, herase⟩
        · rwa [hsame] at hkindOf
        · rw [herase] at hkindOf
          cases hkindOf
      rcases oldKindOf_cases hkindBefore with ⟨-, hreplaced⟩ | ⟨hobsoletes, rfl⟩
      · -- exactly one old row, whose package is taken over
        obtain ⟨j, hj⟩ := List.length_eq_one_iff.mp (hone hreplaced)
        have hfound := hj
        rw [h.matchesOf hbefore hnew hreplaced] at hfound
        have hreplaces : Replaces bound n j :=
          ⟨bound[n], oldKind, name, hbefore, hkindBefore, hreplaced, hmarked.nevra ▸ hname, hfound⟩
        rw [hj, List.foldlM_cons, Except.bind_eq_ok] at hrun
        obtain ⟨s₁, hpair, hrun⟩ := hrun
        rw [List.foldlM_nil, Except.pure_eq_ok] at hrun
        subst hrun
        obtain ⟨row, hrow, -⟩ := mem_matchesOf.mp (hj ▸ List.mem_singleton_self j)
        have hne : oldKind ≠ "obsoleted" := by
          rintro rfl
          exact absurd hreplaced (by decide)
        simp only [pairOld, hrow, if_neg hne, Except.check_bind_eq_ok, Except.pure_eq_ok] at hpair
        rw [← hpair.2]
        refine h.takeOver hreplaces hrow fun old hold => ?_
        obtain ⟨old', hold', hside⟩ := mem_matchesOf.mp (hfound ▸ List.mem_singleton_self j)
        rw [hold, Option.some.injEq] at hold'
        rw [hold', kind_of_isOldSide hside]
        exact hreplaced
      · have hactive : ∃ new ∈ bound, new.kind ∈ activeKinds :=
          ⟨bound[n], List.getElem_mem hlt, by rw [hobsoletes]; decide⟩
        have hall := h.obsoleteAll (fun k hk before hbefore => ?_) hactive hrun
        · refine hall.pass fun before hbefore' hkind => ?_
          obtain rfl : bound[n] = before := Option.some_injective _ (hbefore.symm.trans hbefore')
          rw [hobsoletes] at hkind
          exact absurd hkind (by decide)
        · obtain ⟨row, hrow, hside⟩ := mem_matchesOf.mp hk
          have hkindRow := kind_of_isOldSide hside
          rcases (h.marked k before row hbefore hrow).kind with hsame | ⟨hobsoleted, -⟩
          · rw [← hsame, hkindRow]
          · exact hobsoleted

/-- A row of a package that comes was one from the start. -/
theorem PairedUpTo.active_of_row (h : PairedUpTo bound n s) {row : NativeAction}
    (hrow : row ∈ s.rows) (hkind : row.kind ∈ activeKinds) :
    ∃ new ∈ bound, new.kind ∈ activeKinds := by
  obtain ⟨i, hi⟩ := List.mem_iff_getElem?.mp hrow
  have hlt : i < bound.length := by
    rw [← h.length]
    exact (List.getElem?_eq_some_iff.mp hi).1
  have hmarked := h.marked i bound[i] row (List.getElem?_eq_getElem hlt) hi
  refine ⟨bound[i], List.getElem_mem hlt, ?_⟩
  rcases hmarked.kind with hsame | ⟨-, herase⟩
  · rwa [← hsame]
  · rw [herase] at hkind
    exact absurd hkind (by decide)

/-- One turn of the second loop. -/
theorem PairedUpTo.pairObsoleted (h : PairedUpTo bound n s) {old : Nat} {s' : Pairing}
    (hstep : pairObsoleted s old = .ok s') : PairedUpTo bound n s' := by
  unfold Solver.pairObsoleted at hstep
  split at hstep
  · cases hstep
    exact h
  · next row hrow =>
    split at hstep
    · cases hstep
      exact h
    · next hcond =>
      obtain ⟨counterpart, -, hstep⟩ := Except.bind_eq_ok.mp hstep
      simp only at hstep
      split at hstep
      · next active hfound =>
        obtain rfl := Except.pure_eq_ok.mp hstep
        refine h.obsolete _ (fun before hbefore => ?_) ?_
        · rw [not_or, not_not] at hcond
          rcases (h.marked old before row hbefore hrow).kind with hsame | ⟨hobsoleted, -⟩
          · rw [← hsame, hcond.1]
          · exact hobsoleted
        · have hmem := List.mem_filter.mp (hfound ▸ List.mem_singleton_self active)
          simp only [Bool.and_eq_true, decide_eq_true_eq] at hmem
          exact h.active_of_row hmem.1 hmem.2.2
      · cases hstep

end

/-! ## The whole pairing -/

/-- What `pair_actions` makes of the rows. -/
structure Pairs (raw : List NativeAction) (inventory : InstalledInventory)
    (actions : List NativeAction) : Prop where
  run : ∃ bound s, List.Forall₂ (fun a b => bindInstalled inventory a = .ok b) raw bound ∧
    PairedUpTo bound bound.length s ∧
    (∀ j row, s.rows[j]? = some row → row.kind ∈ replacedKinds → j ∈ s.paired) ∧
    actions = s.rows.filter (·.kind ∉ replacedKinds)

theorem pairActions_eq_ok {raw actions : List NativeAction} {inventory : InstalledInventory}
    (h : pairActions raw inventory = .ok actions) : Pairs raw inventory actions := by
  unfold pairActions at h
  obtain ⟨bound, hbound, h⟩ := Except.bind_eq_ok.mp h
  obtain ⟨s₁, hfirst, h⟩ := Except.bind_eq_ok.mp h
  obtain ⟨s₂, hsecond, h⟩ := Except.bind_eq_ok.mp h
  rw [Except.check_bind_eq_ok, Except.forM_eq_ok, Except.pure_eq_ok] at h
  obtain ⟨hchecked, rfl⟩ := h
  have hup : PairedUpTo bound bound.length s₁ :=
    Except.foldlM_range_invariant (fun n _ s h s' hstep => h.pairIndex hstep) hfirst
      (pairedUpTo_zero bound)
  have hup₂ : PairedUpTo bound bound.length s₂ :=
    Except.foldlM_invariant (fun s _ _ h s' hstep => h.pairObsoleted hstep) hsecond hup
  refine ⟨bound, s₂, Except.mapM_eq_ok.mp hbound, hup₂, fun j row hrow hkind => ?_, rfl⟩
  have hj : j < bound.length := by
    rw [← hup₂.length]
    exact (List.getElem?_eq_some_iff.mp hrow).1
  have hcheck := hchecked j (List.mem_range.mpr hj)
  rw [checkPaired, hrow, Except.refuseIf_eq_ok] at hcheck
  by_contra hnot
  exact hcheck ⟨.inl hkind, hnot⟩

end Dnfast.Solver
