import Dnfast.Core.VersionOrder
import Dnfast.Solver.Plan

/-! # The preferred candidate

`dnfast-solver`, `plan.rs`: `candidate_cmp` orders the candidates of a name, and `validate_candidate`
asks that a requested one is the greatest of them. -/

namespace Dnfast.Solver

open Core (Evra InstalledPackage)

/-! ## The greatest of a list -/

section
variable {α : Type} {cmp : α → α → Ordering} {l : List α} {a m : α}

/-- The step of `maxBy`. -/
def later (cmp : α → α → Ordering) (a b : α) : α := if cmp a b = .gt then a else b

theorem maxBy_cons : maxBy cmp (a :: l) = some (l.foldl (later cmp) a) := rfl

theorem mem_foldl_later : l.foldl (later cmp) a ∈ a :: l := by
  induction l generalizing a with
  | nil => exact List.mem_singleton_self a
  | cons b l ih =>
    rw [List.foldl_cons]
    have hmem := @ih (later cmp a b)
    unfold later at hmem ⊢
    split at hmem
    · next hgt =>
      rw [if_pos hgt]
      rcases List.mem_cons.mp hmem with h | h
      · rw [h]
        exact List.mem_cons_self
      · exact List.mem_cons_of_mem _ (List.mem_cons_of_mem _ h)
    · next hgt =>
      rw [if_neg hgt]
      exact List.mem_cons_of_mem _ hmem

theorem mem_of_maxBy (h : maxBy cmp l = some m) : m ∈ l := by
  cases l with
  | nil => cases h
  | cons a l =>
    rw [maxBy_cons] at h
    cases h
    exact mem_foldl_later

theorem maxBy_eq_none : maxBy cmp l = none ↔ l = [] := by
  cases l with
  | nil => simp [maxBy]
  | cons a l => simp [maxBy]

variable [Std.TransCmp cmp]

theorem isLE_later_left : (cmp a (later cmp a m)).isLE := by
  unfold later
  split
  · exact Std.ReflCmp.isLE_rfl
  · next h => exact Ordering.isLE_iff_ne_gt.mpr h

theorem isLE_later_right : (cmp m (later cmp a m)).isLE := by
  unfold later
  split
  · next h =>
    refine Ordering.isLE_iff_ne_gt.mpr fun hgt => ?_
    rw [Std.OrientedCmp.lt_of_gt h] at hgt
    cases hgt
  · exact Std.ReflCmp.isLE_rfl

theorem isLE_foldl_later {x : α} (hx : x ∈ a :: l) : (cmp x (l.foldl (later cmp) a)).isLE := by
  induction l generalizing a x with
  | nil =>
    rw [List.mem_singleton.mp hx]
    exact Std.ReflCmp.isLE_rfl
  | cons b l ih =>
    rw [List.foldl_cons]
    have hfirst : (cmp (later cmp a b) (l.foldl (later cmp) (later cmp a b))).isLE :=
      ih List.mem_cons_self
    rcases List.mem_cons.mp hx with rfl | hx
    · exact Std.TransCmp.isLE_trans isLE_later_left hfirst
    · rcases List.mem_cons.mp hx with rfl | hx
      · exact Std.TransCmp.isLE_trans isLE_later_right hfirst
      · exact ih (List.mem_cons_of_mem _ hx)

/-- `max_by` returns one of the greatest. -/
theorem isLE_of_maxBy {x : α} (h : maxBy cmp l = some m) (hx : x ∈ l) : (cmp x m).isLE := by
  cases l with
  | nil => cases h
  | cons a l =>
    rw [maxBy_cons] at h
    cases h
    exact isLE_foldl_later hx

/-- The element is the last one that no other is greater than. -/
def LastGreatest (cmp : α → α → Ordering) (l : List α) (m : α) : Prop :=
  ∃ before after, l = before ++ m :: after ∧ (∀ x ∈ before, cmp x m ≠ .gt) ∧
    ∀ x ∈ after, cmp x m ≠ .gt ∧ cmp x m ≠ .eq

theorem foldl_later_of_lt (h : ∀ x ∈ l, cmp x m ≠ .gt ∧ cmp x m ≠ .eq) :
    l.foldl (later cmp) m = m := by
  induction l with
  | nil => rfl
  | cons x l ih =>
    obtain ⟨hgt, heq⟩ := h x List.mem_cons_self
    have hlt : cmp x m = .lt := by
      cases hcmp : cmp x m with
      | lt => rfl
      | eq => exact absurd hcmp heq
      | gt => exact absurd hcmp hgt
    rw [List.foldl_cons, later, if_pos (Std.OrientedCmp.gt_of_lt hlt)]
    exact ih fun y hy => h y (List.mem_cons_of_mem _ hy)

omit [Std.TransCmp cmp] in
theorem maxBy_append (before after : List α) (hbefore : ∀ x ∈ before, cmp x m ≠ .gt) :
    maxBy cmp (before ++ m :: after) = some (after.foldl (later cmp) m) := by
  cases before with
  | nil => rfl
  | cons a before =>
    have hmem : before.foldl (later cmp) a ∈ a :: before := mem_foldl_later
    rw [List.cons_append, maxBy_cons, List.foldl_append, List.foldl_cons, later,
      if_neg (hbefore _ hmem)]

theorem lastGreatest_foldl_later (a : α) (l : List α) :
    LastGreatest cmp (a :: l) (l.foldl (later cmp) a) := by
  induction l generalizing a with
  | nil => exact ⟨[], [], rfl, by simp, by simp⟩
  | cons b l ih =>
    have hle : ∀ x ∈ a :: b :: l, cmp x ((b :: l).foldl (later cmp) a) ≠ .gt := fun x hx =>
      Ordering.isLE_iff_ne_gt.mp (isLE_foldl_later hx)
    rw [List.foldl_cons] at hle ⊢
    have hlast := ih (later cmp a b)
    generalize hm : l.foldl (later cmp) (later cmp a b) = m at hle hlast ⊢
    obtain ⟨before, after, hsplit, hbefore, hafter⟩ := hlast
    cases before with
    | cons x before =>
      obtain ⟨-, rfl⟩ := List.cons.inj hsplit
      refine ⟨a :: b :: before, after, rfl, fun y hy => hle y ?_, hafter⟩
      exact List.mem_append_left (m :: after) hy
    | nil =>
      obtain ⟨rfl, rfl⟩ := List.cons.inj hsplit
      unfold later at hafter ⊢
      split
      · next hgt =>
        rw [if_pos hgt] at hafter
        have hlt := Std.OrientedCmp.lt_of_gt hgt
        refine ⟨[], b :: l, rfl, by simp, fun y hy => ?_⟩
        rcases List.mem_cons.mp hy with rfl | hy
        · rw [hlt]
          simp
        · exact hafter y hy
      · next hgt =>
        rw [if_neg hgt] at hafter
        exact ⟨[a], l, rfl, by simpa using hgt, hafter⟩

theorem maxBy_eq_some : maxBy cmp l = some m ↔ LastGreatest cmp l m := by
  constructor
  · intro h
    cases l with
    | nil => cases h
    | cons a l =>
      rw [maxBy_cons] at h
      cases h
      exact lastGreatest_foldl_later a l
  · rintro ⟨before, after, rfl, hbefore, hafter⟩
    rw [maxBy_append before after hbefore, foldl_later_of_lt hafter]

end

/-! ## The order of the candidates -/

/-- `candidate_cmp` compares versions first, then what the repositories and the locations are. -/
theorem candidateCmp_eq : candidateCmp = compareLex (fun a b => Evra.cmp a.evra b.evra)
    (compareLex (fun a b => compare b.priority a.priority) <|
      compareLex (fun a b => compare b.cost a.cost) <|
      compareLex (fun a b => compare b.repoId a.repoId) fun a b => compare b.location a.location) := by
  funext a b
  have hgt := @Evra.cmp_eq_gt a.evra b.evra
  have hlt := @Evra.cmp_eq_lt a.evra b.evra
  by_cases heq : a.evra = b.evra
  · have hself : Evra.cmp b.evra b.evra = .eq := Std.ReflCmp.compare_self
    simp only [candidateCmp, compareLex, heq, hself, Ordering.eq_then, ne_eq, not_true_eq_false,
      false_and, if_false]
  · simp only [candidateCmp, compareLex, ne_eq, heq, not_false_eq_true, true_and, ← hgt, ← hlt]
    cases Evra.cmp a.evra b.evra <;> rfl

instance : Std.TransCmp candidateCmp := by
  rw [candidateCmp_eq]
  infer_instance

/-- Neither version is newer. -/
def SameVersion (a b : Evra) : Prop := a.isStrictlyNewerThan b = false ∧ b.isStrictlyNewerThan a = false

/-- Among candidates of one version the first priority comes first, then the least cost, then the first
repository and the first location. -/
def PlacedBefore (o c : CandidatePackage) : Prop :=
  o.priority < c.priority ∨ o.priority = c.priority ∧ (o.cost < c.cost ∨ o.cost = c.cost ∧
    (o.repoId < c.repoId ∨ o.repoId = c.repoId ∧ o.location < c.location))

/-- The candidates are of one version, repository and location. -/
def Tied (o c : CandidatePackage) : Prop :=
  SameVersion o.evra c.evra ∧ o.priority = c.priority ∧ o.cost = c.cost ∧ o.repoId = c.repoId ∧
    o.location = c.location

section
variable {o c : CandidatePackage}

theorem sameVersion_iff {a b : Evra} : SameVersion a b ↔ Evra.cmp a b = .eq := by
  have hgt := @Evra.cmp_eq_gt a b
  have hlt := @Evra.cmp_eq_lt a b
  unfold SameVersion
  cases h : Evra.cmp a b <;> simp_all

theorem candidateCmp_eq_gt : candidateCmp o c = .gt ↔
    o.evra.isStrictlyNewerThan c.evra = true ∨ SameVersion o.evra c.evra ∧ PlacedBefore o c := by
  rw [candidateCmp_eq, sameVersion_iff, ← Evra.cmp_eq_gt]
  simp only [compareLex, Ordering.then_eq_gt, Std.compare_eq_gt, Std.compare_eq_eq_iff_eq,
    compare_gt_iff_gt, PlacedBefore, @eq_comm _ c.priority, @eq_comm _ c.cost, @eq_comm _ c.repoId]

theorem candidateCmp_eq_eq : candidateCmp o c = .eq ↔ Tied o c := by
  rw [candidateCmp_eq, Tied, sameVersion_iff]
  simp only [compareLex, Ordering.then_eq_eq, Std.compare_eq_eq_iff_eq, @eq_comm _ c.priority,
    @eq_comm _ c.cost, @eq_comm _ c.repoId, @eq_comm _ c.location]

end

/-! ## The verdict on a requested candidate -/

/-- The candidate comes last among the tied ones of the list. -/
def LastOfTied (l : List CandidatePackage) (c : CandidatePackage) : Prop :=
  ∃ before after, l = before ++ c :: after ∧ ∀ o ∈ after, ¬ Tied o c

theorem lastGreatest_iff {l : List CandidatePackage} {c : CandidatePackage} :
    LastGreatest candidateCmp l c ↔ (∀ o ∈ l, candidateCmp o c ≠ .gt) ∧ LastOfTied l c := by
  constructor
  · rintro ⟨before, after, rfl, hbefore, hafter⟩
    refine ⟨fun o ho => ?_, before, after, rfl, fun o ho => ?_⟩
    · rcases List.mem_append.mp ho with ho | ho
      · exact hbefore o ho
      · rcases List.mem_cons.mp ho with rfl | ho
        · have hself : candidateCmp o o = .eq := Std.ReflCmp.compare_self
          rw [hself]
          decide
        · exact (hafter o ho).1
    · rw [← candidateCmp_eq_eq]
      exact (hafter o ho).2
  · rintro ⟨hle, before, after, rfl, hafter⟩
    refine ⟨before, after, rfl, fun o ho => hle o (List.mem_append_left _ ho), fun o ho => ?_⟩
    rw [ne_eq (candidateCmp o c) .eq, candidateCmp_eq_eq]
    exact ⟨hle o (List.mem_append_right _ (List.mem_cons_of_mem _ ho)), hafter o ho⟩

section
variable {l l' : List CandidatePackage} {o c : CandidatePackage}

theorem lastOfTied_concat : LastOfTied (l ++ [c]) c := ⟨l, [], rfl, by simp⟩

theorem not_lastOfTied_concat (hne : o ≠ c) (htied : Tied o c) : ¬ LastOfTied (l ++ [o]) c := by
  rintro ⟨before, after, hsplit, hafter⟩
  have hlast : o ∈ (c :: after).getLast? := by
    have h := congrArg List.getLast? hsplit
    rw [List.getLast?_concat, List.getLast?_append_of_ne_nil _ (List.cons_ne_nil c after)] at h
    exact h.symm
  rcases List.mem_cons.mp (List.mem_of_mem_getLast? hlast) with h | h
  · exact hne h
  · exact hafter o h htied

theorem lastOfTied_of_forall (hmem : c ∈ l) (htied : ∀ o ∈ l, Tied o c → o = c) : LastOfTied l c := by
  induction l with
  | nil => cases hmem
  | cons a l ih =>
    have htail : ∀ o ∈ l, Tied o c → o = c := fun o ho => htied o (List.mem_cons_of_mem a ho)
    by_cases h : c ∈ l
    · obtain ⟨before, after, rfl, hafter⟩ := ih h htail
      exact ⟨a :: before, after, rfl, hafter⟩
    · obtain rfl := (List.mem_cons.mp hmem).resolve_right h
      refine ⟨[], l, rfl, fun o ho htie => h ?_⟩
      rwa [← htail o ho htie]

theorem LastOfTied.mem (h : LastOfTied l c) : c ∈ l := by
  obtain ⟨before, after, rfl, -⟩ := h
  exact List.mem_append_right _ List.mem_cons_self

/-- Without a tie the order of the list does not count. -/
theorem lastGreatest_of_perm (hperm : l.Perm l')
    (hsole : c ∈ l → (∀ o ∈ l, candidateCmp o c ≠ .gt) → ∀ o ∈ l, Tied o c → o = c)
    (h : LastGreatest candidateCmp l c) : LastGreatest candidateCmp l' c := by
  rw [lastGreatest_iff] at h ⊢
  obtain ⟨hle, hlast⟩ := h
  have htied := hsole hlast.mem hle
  refine ⟨fun o ho => hle o (hperm.mem_iff.mpr ho), ?_⟩
  exact lastOfTied_of_forall (hperm.mem_iff.mp hlast.mem) fun o ho => htied o (hperm.mem_iff.mpr ho)

end

namespace PlanBuilder

variable (b : PlanBuilder) (c : CandidatePackage) (installed : Option InstalledPackage)
  (vendor : Option String)

/-- A requested candidate of the name is compared with the item. -/
def contends (name : String) (item : CandidatePackage) : Bool :=
  item.name = name && !item.excluded && installed.all (fun p => item.evra.arch = p.evra.arch) &&
    vendor.all (item.vendor = ·)

def contenders (name : String) : List CandidatePackage :=
  b.candidates.filter (contends installed vendor name)

/-- The candidate is refused whatever the other candidates are. -/
def Barred : Prop :=
  c.excluded = true ∨ b.policy.isExcluded c.name = true ∨ unsafeLocation c.location = true

/-- The candidate of a request by a name is not the preferred one. -/
def Rejects : Prop :=
  b.validateCandidate c installed vendor true false = .error (.nonPreferred c.name)

theorem rejects_iff : b.Rejects c installed vendor ↔
    ¬ b.Barred c ∧ ¬ LastGreatest candidateCmp (b.contenders installed vendor c.name) c := by
  have hpreferred : b.preferred c.name installed vendor = some c ↔
      LastGreatest candidateCmp (b.contenders installed vendor c.name) c := maxBy_eq_some
  rw [← hpreferred]
  unfold Rejects Barred validateCandidate Except.refuseIf
  cases hexcluded : c.excluded with
  | true => simp [bind, Except.bind]
  | false =>
    cases hpolicy : b.policy.isExcluded c.name with
    | true => simp [bind, Except.bind]
    | false => cases hlocation : unsafeLocation c.location <;> simp [bind, Except.bind]

variable {b c installed vendor}

theorem perm_contenders {l : List CandidatePackage} {name : String} (h : l.Perm b.candidates) :
    (({ b with candidates := l } : PlanBuilder).contenders installed vendor name).Perm
      (b.contenders installed vendor name) := h.filter _

theorem contenders_concat {l : List CandidatePackage} {o : CandidatePackage} {name : String}
    (ho : o ∈ b.contenders installed vendor name) :
    ({ b with candidates := l ++ [o] } : PlanBuilder).contenders installed vendor name =
      ({ b with candidates := l } : PlanBuilder).contenders installed vendor name ++ [o] := by
  have hkept : contends installed vendor name o = true := (List.mem_filter.mp ho).2
  simp only [contenders, List.filter_append, List.filter_cons_of_pos hkept, List.filter_nil]

/-- The greatest contender is rejected in one order and taken in another one exactly when it is tied with
a different one. -/
theorem rejects_perm_iff :
    (∀ l, l.Perm b.candidates →
      (({ b with candidates := l } : PlanBuilder).Rejects c installed vendor ↔
        b.Rejects c installed vendor)) ↔
    b.Barred c ∨ ¬ (c ∈ b.contenders installed vendor c.name ∧
      (∀ o ∈ b.contenders installed vendor c.name, candidateCmp o c ≠ .gt) ∧
      ∃ o ∈ b.contenders installed vendor c.name, o ≠ c ∧ Tied o c) := by
  simp only [rejects_iff]
  constructor
  · intro h
    by_contra hno
    rw [not_or, not_not] at hno
    obtain ⟨hbarred, hmem, hle, o, ho, hne, htied⟩ := hno
    -- once with the candidate at the end, once with the other one there
    have hmoved : ∀ x ∈ b.contenders installed vendor c.name,
        (b.candidates.erase x ++ [x]).Perm b.candidates := fun x hx =>
      (List.perm_append_singleton x _).trans (List.perm_cons_erase (List.mem_filter.mp hx).1).symm
    have htaken := h _ (hmoved c hmem)
    have hrejected := h _ (hmoved o ho)
    refine (htaken.mpr (hrejected.mp ⟨hbarred, fun hgreatest => ?_⟩)).2 ?_
    · have hlast := (lastGreatest_iff.mp hgreatest).2
      rw [contenders_concat ho] at hlast
      exact not_lastOfTied_concat hne htied hlast
    · refine lastGreatest_iff.mpr ⟨fun x hx => hle x ((perm_contenders (hmoved c hmem)).mem_iff.mp hx),
        ?_⟩
      rw [contenders_concat hmem]
      exact lastOfTied_concat
  · rintro (hbarred | hno) l hperm
    · have hsame : ({ b with candidates := l } : PlanBuilder).Barred c := hbarred
      simp only [hbarred, hsame, not_true_eq_false, false_and]
    · have hcontenders := @perm_contenders b installed vendor l c.name hperm
      have hsole : c ∈ b.contenders installed vendor c.name →
          (∀ o ∈ b.contenders installed vendor c.name, candidateCmp o c ≠ .gt) →
          ∀ o ∈ b.contenders installed vendor c.name, Tied o c → o = c := by
        intro hmem hle o ho htied
        by_contra hne
        exact hno ⟨hmem, hle, o, ho, hne, htied⟩
      refine and_congr Iff.rfl (not_congr ⟨lastGreatest_of_perm hcontenders ?_,
        lastGreatest_of_perm hcontenders.symm hsole⟩)
      intro hmem hle o ho
      exact hsole (hcontenders.mem_iff.mp hmem) (fun x hx => hle x (hcontenders.mem_iff.mpr hx)) o
        (hcontenders.mem_iff.mp ho)

end PlanBuilder

end Dnfast.Solver
