import Dnfast.Group.Runs

/-! # Every pending mutation is settled at most once

`reconcile_locked` may run any number of times, over a journal that grows, and may fail or be cut
short each time. An `Account` says where the mutations of the first state have gone: some were
applied, some dropped, and the others are still pending, each of them in one of the three lists and
once. A mutation is applied only when the journal decided for it and dropped only when it decided
against it (`Decides`). -/

namespace Dnfast.Group

open Durable Durable.Exec
open Std (ExtTreeMap)
open Dnfast.State

/-! ## What the journal decides -/

/-- The records are those of a run of the plan that has ended with the record `last`. -/
structure Ended (planSha256 : String) (entries : List JournalEntry) (last : JournalEntry) :
    Prop where
  plan : ∃ first, entries.head? = some first ∧ first.planSha256 = planSha256
  reconciled : last.state = .reconciled
  getLast : entries.getLast? = some last

/-- The native transaction returned 0 and its outcome was found as planned. -/
structure Succeeded (entries : List JournalEntry) (last : JournalEntry) : Prop where
  native : ∃ entry ∈ entries, entry.state = .rpmResult ∧
    ∃ result, entry.nativeResult = some result ∧ result.returnCode = 0
  reconciliation : ∃ result, last.reconciliation = some result ∧ result.success = true

/-- A transaction that the mutation has seen or that has not ended a run of its plan. -/
def PassedOver (journal : JournalView) (m : PendingMutation) (id : TransactionId) : Prop :=
  id.asStr ∉ m.seenTransactionIds →
    ∃ entries, journal.load id = .ok entries ∧ ¬ ∃ last, Ended m.planSha256 entries last

/-- The first of the transactions `ids` that the mutation has not seen and that has ended a run of
its plan succeeded, or failed. -/
def FirstEnded (journal : JournalView) (m : PendingMutation) (ids : List TransactionId)
    (success : Bool) : Prop :=
  ∃ before id after entries last, ids = before ++ id :: after ∧
    id.asStr ∉ m.seenTransactionIds ∧ journal.load id = .ok entries ∧
    Ended m.planSha256 entries last ∧ (success = true ↔ Succeeded entries last) ∧
    ∀ other ∈ before, PassedOver journal m other

/-- The journal decides for the mutation, or against it. -/
def Decides (journal : JournalView) (m : PendingMutation) (success : Bool) : Prop :=
  ∃ ids, journal.ids = .ok ids ∧ FirstEnded journal m ids success

theorem succeeded_iff {entries : List JournalEntry} {last : JournalEntry} :
    succeeded entries last = true ↔ Succeeded entries last := by
  simp only [succeeded, Bool.and_eq_true, List.any_eq_true, decide_eq_true_eq, Option.any_eq_true]
  exact ⟨fun h => ⟨h.1, h.2⟩, fun h => ⟨h.native, h.reconciliation⟩⟩

theorem verdict_of_ended {planSha256 : String} {entries : List JournalEntry} {last : JournalEntry}
    (h : Ended planSha256 entries last) :
    verdict planSha256 entries = some (succeeded entries last) := by
  obtain ⟨first, hfirst, hplan⟩ := h.plan
  simp [verdict, hfirst, hplan, h.getLast, h.reconciled]

theorem ended_of_verdict {planSha256 : String} {entries : List JournalEntry} {success : Bool}
    (h : verdict planSha256 entries = some success) :
    ∃ last, Ended planSha256 entries last ∧ success = succeeded entries last := by
  unfold verdict at h
  split at h
  · cases h
  · rename_i hplan
    split at h
    · cases h
    · rename_i last hlast
      split at h
      · cases h
      · rename_i hstate
        cases h
        refine ⟨last, ⟨?_, Decidable.not_not.mp hstate, hlast⟩, rfl⟩
        simpa using hplan

theorem verdict_eq_none {planSha256 : String} {entries : List JournalEntry} :
    verdict planSha256 entries = none ↔ ¬ ∃ last, Ended planSha256 entries last := by
  constructor
  · rintro h ⟨last, hlast⟩
    rw [verdict_of_ended hlast] at h
    cases h
  · intro h
    cases hverdict : verdict planSha256 entries with
    | none => rfl
    | some success =>
      obtain ⟨last, hlast, -⟩ := ended_of_verdict hverdict
      exact absurd ⟨last, hlast⟩ h

section
variable {journal : JournalView} {m : PendingMutation} {id : TransactionId}
  {ids : List TransactionId} {success : Bool}

theorem firstEnded_cons_of_passedOver (h : PassedOver journal m id) :
    FirstEnded journal m (id :: ids) success ↔ FirstEnded journal m ids success := by
  constructor
  · rintro ⟨before, id', after, entries, last, heq, hunseen, hload, hended, hsuccess, hbefore⟩
    cases before with
    | nil =>
      cases heq
      obtain ⟨entries', hload', hnot⟩ := h hunseen
      rw [hload] at hload'
      cases hload'
      exact absurd ⟨last, hended⟩ hnot
    | cons _ before =>
      cases heq
      exact ⟨before, id', after, entries, last, rfl, hunseen, hload, hended, hsuccess,
        fun other hother => hbefore other (List.mem_cons_of_mem _ hother)⟩
  · rintro ⟨before, id', after, entries, last, rfl, hunseen, hload, hended, hsuccess, hbefore⟩
    exact ⟨id :: before, id', after, entries, last, rfl, hunseen, hload, hended, hsuccess,
      List.forall_mem_cons.mpr ⟨h, hbefore⟩⟩

theorem firstEnded_cons_of_ended {entries : List JournalEntry} {last : JournalEntry}
    (hunseen : id.asStr ∉ m.seenTransactionIds) (hload : journal.load id = .ok entries)
    (hended : Ended m.planSha256 entries last) :
    FirstEnded journal m (id :: ids) success ↔ (success = true ↔ Succeeded entries last) := by
  constructor
  · rintro ⟨before, id', after, entries', last', heq, -, hload', hended', hsuccess, hbefore⟩
    cases before with
    | nil =>
      cases heq
      rw [hload] at hload'
      cases hload'
      have hlast := hended.getLast
      rw [hended'.getLast] at hlast
      cases hlast
      exact hsuccess
    | cons _ before =>
      cases heq
      obtain ⟨entries'', hload'', hnot⟩ := hbefore id List.mem_cons_self hunseen
      rw [hload] at hload''
      cases hload''
      exact absurd ⟨last, hended⟩ hnot
  · intro hsuccess
    exact ⟨[], id, ids, entries, last, rfl, hunseen, hload, hended, hsuccess, by simp⟩

/-- The inner loop of `reconcile_locked` finds the first ended run of the plan. -/
theorem terminal_eq_some :
    terminal journal.load m ids = .ok (some success) ↔ FirstEnded journal m ids success := by
  induction ids with
  | nil =>
    constructor
    · intro h
      cases h
    · rintro ⟨before, id', after, _, _, heq, -⟩
      simp at heq
  | cons id ids ih =>
    unfold terminal
    split
    · rename_i hseen
      rw [ih, firstEnded_cons_of_passedOver]
      exact fun hunseen => absurd (List.contains_iff_mem.mp hseen) hunseen
    · rename_i hunseen
      rw [List.contains_iff_mem] at hunseen
      cases hload : journal.load id with
      | error e =>
        simp only [bind, Except.bind]
        constructor
        · intro h
          cases h
        · -- the first transaction can be read when it or a later one decides
          rintro ⟨before, id', after, entries, last, heq, -, hload', -, -, hbefore⟩
          cases before with
          | nil =>
            cases heq
            rw [hload] at hload'
            cases hload'
          | cons _ before =>
            cases heq
            obtain ⟨entries', hload', -⟩ := hbefore id List.mem_cons_self hunseen
            rw [hload] at hload'
            cases hload'
      | ok entries =>
        simp only [bind, Except.bind]
        cases hverdict : verdict m.planSha256 entries with
        | none =>
          simp only
          rw [ih, firstEnded_cons_of_passedOver]
          exact fun _ => ⟨entries, hload, verdict_eq_none.mp hverdict⟩
        | some result =>
          obtain ⟨last, hended, rfl⟩ := ended_of_verdict hverdict
          rw [firstEnded_cons_of_ended hunseen hload hended, ← succeeded_iff]
          simp only [Except.ok.injEq, Option.some.injEq]
          cases success <;> cases succeeded entries last <;> simp

theorem outcome_eq_some (hterminal : terminal journal.load m ids = .ok (outcome journal.load ids m)) :
    outcome journal.load ids m = some success ↔ FirstEnded journal m ids success := by
  rw [← terminal_eq_some, hterminal]
  simp

theorem decides_iff (hids : journal.ids = .ok ids) :
    Decides journal m success ↔ FirstEnded journal m ids success := by
  constructor
  · rintro ⟨ids', hids', h⟩
    rw [hids] at hids'
    cases hids'
    exact h
  · exact fun h => ⟨ids, hids, h⟩

end

/-! ## Accounts -/

/-- A pending mutation with its place in the list it was stored in. -/
abbrev Entry := PendingMutation × Nat

/-- Where the pending mutations of `s₀` have gone by the time the state is `s`, after
reconciliations against `journals`: `applied`, in this order, `dropped`, or still pending. -/
structure Account (s₀ : GroupState) (journals : List JournalView) (s : GroupState)
    (applied dropped retained : List Entry) : Prop where
  partition : (applied ++ dropped ++ retained).Perm s₀.pending.zipIdx
  state : s = { applied.foldl (fun s x => x.1.apply s) s₀ with pending := retained.map Prod.fst }
  justified : ∀ x ∈ applied, ∃ journal ∈ journals, Decides journal x.1 true
  refuted : ∀ x ∈ dropped, ∃ journal ∈ journals, Decides journal x.1 false

theorem apply_withPending (m : PendingMutation) (s : GroupState) (pending : List PendingMutation) :
    m.apply { s with pending := pending } = { m.apply s with pending := pending } := by
  unfold PendingMutation.apply
  split <;> rfl

theorem foldl_apply_withPending (ms : List Entry) (s : GroupState)
    (pending : List PendingMutation) :
    ms.foldl (fun s x => x.1.apply s) { s with pending := pending } =
      { ms.foldl (fun s x => x.1.apply s) s with pending := pending } := by
  induction ms generalizing s with
  | nil => rfl
  | cons m ms ih => rw [List.foldl_cons, List.foldl_cons, apply_withPending, ih]

theorem foldl_apply_map (ms : List Entry) (s : GroupState) :
    (ms.map Prod.fst).foldl (fun s m => m.apply s) s = ms.foldl (fun s x => x.1.apply s) s := by
  rw [List.foldl_map]

theorem filter_map_fst (p : PendingMutation → Bool) (ms : List Entry) :
    (ms.map Prod.fst).filter p = (ms.filter fun x => p x.1).map Prod.fst := by
  rw [List.filter_map]
  rfl

/-- Sorting a list by an optional verdict keeps its elements. -/
theorem perm_filter_outcome (f : Entry → Option Bool) (l : List Entry) :
    (l.filter (fun x => f x = some true) ++ l.filter (fun x => f x = some false) ++
      l.filter (fun x => f x = none)).Perm l := by
  induction l with
  | nil => exact .nil
  | cons x l ih =>
    match h : f x with
    | some true => simpa [h] using ih
    | some false =>
      simp only [List.filter_cons, h, reduceCtorEq, decide_false, decide_true, if_true,
        Option.some.injEq, Bool.false_eq_true, if_false, List.append_assoc]
      rw [List.append_assoc] at ih
      exact List.perm_middle.trans (.cons x ih)
    | none =>
      simp only [List.filter_cons, h, reduceCtorEq, decide_false, decide_true, if_true,
        Bool.false_eq_true, if_false]
      exact List.perm_middle.trans (.cons x ih)

section
variable {journal : JournalView} {journals : List JournalView} {s₀ s s' : GroupState}
  {appliedEntries dropped retained : List Entry}

theorem Account.refl (s₀ : GroupState) : Account s₀ [] s₀ [] [] s₀.pending.zipIdx where
  partition := by simp
  state := by simp
  justified := by simp
  refuted := by simp

/-- A journal that was not read changes nothing. -/
theorem Account.append (h : Account s₀ journals s appliedEntries dropped retained)
    (more : List JournalView) :
    Account s₀ (journals ++ more) s appliedEntries dropped retained where
  partition := h.partition
  state := h.state
  justified x hx := (h.justified x hx).imp fun _ hj => ⟨List.mem_append_left more hj.1, hj.2⟩
  refuted x hx := (h.refuted x hx).imp fun _ hj => ⟨List.mem_append_left more hj.1, hj.2⟩

/-- Reconciling with one more journal moves some entries from the pending ones to the others. -/
theorem Account.settled (h : Account s₀ journals s appliedEntries dropped retained)
    (hs' : Settled journal s s') :
    ∃ more less kept, Account s₀ (journals ++ [journal]) s' (appliedEntries ++ more)
      (dropped ++ less) kept ∧ (more ++ less ++ kept).Perm retained ∧ more.Sublist retained ∧
      ∀ x ∈ retained, (x ∈ more ↔ Decides journal x.1 true) ∧
        (x ∈ less ↔ Decides journal x.1 false) := by
  have hpending : s.pending = retained.map Prod.fst := by rw [h.state]
  unfold Settled at hs'
  split at hs'
  · rename_i hempty
    obtain rfl : retained = [] := by
      rw [hempty] at hpending
      exact List.map_eq_nil_iff.mp hpending.symm
    subst hs'
    refine ⟨[], [], [], ?_, .nil, .slnil, by simp⟩
    simp only [List.append_nil]
    exact h.append [journal]
  · obtain ⟨changed, hchanged⟩ := hs'
    obtain ⟨ids, hids, hterminal, hstate, -, -⟩ := reconcileState_spec hchanged
    have hdecides : ∀ x ∈ retained, ∀ success,
        outcome journal.load ids x.1 = some success ↔ Decides journal x.1 success := by
      intro x hx success
      rw [decides_iff hids, outcome_eq_some (hterminal x.1 (by
        rw [hpending]
        exact List.mem_map_of_mem hx))]
    have hperm := perm_filter_outcome (fun x => outcome journal.load ids x.1) retained
    refine ⟨_, _, _, ⟨?_, ?_, ?_, ?_⟩, hperm, List.filter_sublist, fun x hx => ?_⟩
    · -- the new entries come from the pending ones
      refine .trans ?_ h.partition
      refine .trans ?_ (hperm.append_left (appliedEntries ++ dropped))
      rw [List.perm_iff_count]
      intro x
      simp only [List.count_append]
      omega
    · rw [hstate, hpending, applied, undecided, filter_map_fst, filter_map_fst, foldl_apply_map,
        List.foldl_append]
      have hstart : ({ s with pending := [] } : GroupState) =
          { appliedEntries.foldl (fun s x => x.1.apply s) s₀ with pending := [] } := by
        rw [h.state]
      rw [hstart, foldl_apply_withPending]
    · intro x hx
      rcases List.mem_append.mp hx with hx | hx
      · exact (h.append [journal]).justified x hx
      · obtain ⟨hx, houtcome⟩ := List.mem_filter.mp hx
        exact ⟨journal, by simp, (hdecides x hx true).mp (of_decide_eq_true houtcome)⟩
    · intro x hx
      rcases List.mem_append.mp hx with hx | hx
      · exact (h.append [journal]).refuted x hx
      · obtain ⟨hx, houtcome⟩ := List.mem_filter.mp hx
        exact ⟨journal, by simp, (hdecides x hx false).mp (of_decide_eq_true houtcome)⟩
    · simp [List.mem_filter, hx, hdecides x hx]

end

/-! ## Reconciling again -/

section
variable {journal : JournalView} {s s' : GroupState}

theorem settle_of_undecided {load : TransactionId → Except StateError (List JournalEntry)}
    {ids : List TransactionId} {pending : List PendingMutation} (x : Settling)
    (h : ∀ m ∈ pending, terminal load m ids = .ok none) :
    settle load ids pending x = .ok { x with retained := x.retained ++ pending } := by
  induction pending generalizing x with
  | nil => simp [settle]
  | cons m rest ih =>
    obtain ⟨hm, hrest⟩ := List.forall_mem_cons.mp h
    simp [settle, hm, bind, Except.bind, ih _ hrest, Settling.step]

/-- A settled state is settled. -/
theorem Settled.again (h : Settled journal s s') : Settled journal s' s' := by
  by_cases hempty : s'.pending = []
  · exact settled_of_no_pending hempty
  · unfold Settled at h
    split at h
    · rename_i hs
      subst h
      exact absurd hs hempty
    · obtain ⟨changed, hchanged⟩ := h
      obtain ⟨ids, hids, hterminal, hstate, -, hvalid⟩ := reconcileState_spec hchanged
      have hnone : ∀ m ∈ s'.pending, terminal journal.load m ids = .ok none := by
        intro m hm
        rw [hstate] at hm
        obtain ⟨hm, houtcome⟩ := List.mem_filter.mp hm
        rw [hterminal m hm, of_decide_eq_true houtcome]
      rw [Settled, if_neg hempty]
      refine ⟨false, ?_⟩
      simp [reconcileState, hids, settle_of_undecided _ hnone, bind, Except.bind,
        validateState_eq_ok.mpr hvalid]

end

section
variable {fromSlice : List UInt8 → Except String GroupState} {p q : Process}
  {journal : JournalView} {s s' : GroupState} {d d' : Directory}

/-- A reconciliation without faults succeeds exactly when the stored state settles and, if that
changes it, can be written. -/
theorem reconcileLocked_eq_ok (hread : readState fromSlice p.euid d = .ok s) :
    ((reconcileLocked fromSlice p journal).clean d).1 = .ok s' ↔
      Settled journal s s' ∧ (s' = s ∨ Writable p s' d) := by
  have hend := (reconcileLocked_sat (A := fun _ => False) journal hread).clean
  constructor
  · intro hok
    rw [hok] at hend
    obtain ⟨hs', ⟨rfl, -⟩ | ⟨-, htemp, hwrote⟩⟩ := hend
    · exact ⟨hs', .inl rfl⟩
    · exact ⟨hs', .inr ⟨hwrote.valid, hwrote.size, htemp, replaceable_of_readState hread⟩⟩
  · rintro ⟨hs', hwritable⟩
    cases hout : ((reconcileLocked fromSlice p journal).clean d).1 with
    | ok s'' =>
      rw [hout] at hend
      rw [hs'.unique hend.1]
    | err e =>
      rw [hout] at hend
      obtain ⟨⟨_, hfail⟩ | hnot, -⟩ := hend
      · exact hfail.elim
      · obtain ⟨hne, hunwritable⟩ := hnot s' hs'
        exact absurd hwritable (by simp [hne, hunwritable])
    | crashed =>
      rw [hout] at hend
      exact hend.1.elim

/-- What a successful reconciliation leaves. -/
theorem readState_reconcileLocked (hserde : InvertsEncoding fromSlice)
    (hread : readState fromSlice p.euid d = .ok s)
    (hok : ((reconcileLocked fromSlice p journal).clean d).1 = .ok s') :
    readState fromSlice p.euid ((reconcileLocked fromSlice p journal).clean d).2 = .ok s' ∧
      (s' = s → ((reconcileLocked fromSlice p journal).clean d).2 = d) := by
  have hend := (reconcileLocked_sat (A := fun _ => False) journal hread).clean
  rw [hok] at hend
  obtain ⟨hs', ⟨rfl, hd⟩ | ⟨hne, -, hwrote⟩⟩ := hend
  · rw [hd]
    exact ⟨hread, fun _ => rfl⟩
  · have hseen := (hs'.shrinks (readState_storable hread)).2.seen
    exact ⟨hwrote.readState (hserde s') hseen, fun heq => absurd heq hne⟩

/-- Whatever happens to a reconciliation, it leaves the directory alone or as an attempt to write
the settled state leaves it. -/
theorem reconcileLocked_left (journal : JournalView)
    (hread : readState fromSlice p.euid d = .ok s) (fates : List (Fate StateError)) :
    (reconcileLocked fromSlice p journal fates d).2.1 = d ∨ ∃ s', Settled journal s s' ∧
      Left p s' d (reconcileLocked fromSlice p journal fates d).2.1 := by
  have hend := (reconcileLocked_sat (A := fun _ => True) journal hread).run fates
  cases hout : (reconcileLocked fromSlice p journal fates d).1 with
  | ok s' =>
    rw [hout] at hend
    obtain ⟨hs', ⟨-, hd⟩ | ⟨-, -, hwrote⟩⟩ := hend
    · exact .inl hd
    · exact .inr ⟨s', hs', .inr hwrote⟩
  | err e =>
    rw [hout] at hend
    exact hend.2
  | crashed =>
    rw [hout] at hend
    exact hend.2

/-- Whatever happens to a reconciliation, the stored state is the old one or the settled one. -/
theorem readState_reconcileLocked_any (hserde : InvertsEncoding fromSlice) (journal : JournalView)
    (hread : readState fromSlice p.euid d = .ok s) (fates : List (Fate StateError)) :
    readState fromSlice p.euid (reconcileLocked fromSlice p journal fates d).2.1 = .ok s ∨
      ∃ s', Settled journal s s' ∧
        readState fromSlice p.euid (reconcileLocked fromSlice p journal fates d).2.1 = .ok s' := by
  rcases reconcileLocked_left journal hread fates with hd | ⟨s', hs', h | h⟩
  · rw [hd]
    exact .inl hread
  · exact .inl ((readState_scratched h p.euid).trans hread)
  · have hseen := (hs'.shrinks (readState_storable hread)).2.seen
    exact .inr ⟨s', hs', h.readState (hserde s') hseen⟩

/-- **Crash and rerun.** When an uninterrupted reconciliation gives `s'`, one that runs after an
attempt that failed or died anywhere gives `s'` too. -/
theorem reconcileLocked_rerun (hserde : InvertsEncoding fromSlice) {euid pid : UInt32}
    (pid' : UInt32) (hread : readState fromSlice euid d = .ok s) (fates : List (Fate StateError))
    (hok : ((reconcileLocked fromSlice ⟨pid, euid⟩ journal).clean d).1 = .ok s') :
    ((reconcileLocked fromSlice ⟨pid, euid⟩ journal).clean
      (reconcileLocked fromSlice ⟨pid', euid⟩ journal fates d).2.1).1 = .ok s' := by
  obtain ⟨hs', hwritable⟩ := (reconcileLocked_eq_ok (p := ⟨pid, euid⟩) hread).mp hok
  rcases reconcileLocked_left (p := ⟨pid', euid⟩) journal hread fates with
    hd | ⟨s'', hs'', hleft⟩
  · rw [hd, hok]
  · obtain rfl := hs'.unique hs''
    rcases hleft with h | h
    · have hread' := (readState_scratched h euid).trans hread
      refine (reconcileLocked_eq_ok (p := ⟨pid, euid⟩) hread').mpr ⟨hs', hwritable.imp_right ?_⟩
      intro hw
      have hleft : Left ⟨pid', euid⟩ s' d _ := .inl h
      exact ⟨hw.valid, hw.size, hleft.replaceable hw.temporary, replaceable_of_readState hread'⟩
    · have hseen := (hs'.shrinks (readState_storable hread)).2.seen
      have hread' := h.readState (hserde s') hseen
      exact (reconcileLocked_eq_ok (p := ⟨pid, euid⟩) hread').mpr ⟨hs'.again, .inl rfl⟩

end

/-! ## Any number of reconciliations -/

/-- A reconciliation by one process, with the journal it reads and the faults it meets. -/
structure Attempt where
  pid : UInt32
  journal : JournalView
  fates : List (Fate StateError)

/-- The directory after the attempts, in their order. -/
def reconcileAll (fromSlice : List UInt8 → Except String GroupState) (euid : UInt32) :
    List Attempt → Directory → Directory
  | [], d => d
  | attempt :: attempts, d => reconcileAll fromSlice euid attempts
      (reconcileLocked fromSlice ⟨attempt.pid, euid⟩ attempt.journal attempt.fates d).2.1

section
variable {fromSlice : List UInt8 → Except String GroupState} {euid : UInt32} {s₀ s : GroupState}
  {d : Directory} {journals : List JournalView} {appliedEntries dropped retained : List Entry}

theorem Account.reconcileAll (hserde : InvertsEncoding fromSlice) (attempts : List Attempt)
    (hread : readState fromSlice euid d = .ok s)
    (h : Account s₀ journals s appliedEntries dropped retained) :
    ∃ s' appliedEntries' dropped' retained',
      readState fromSlice euid (Group.reconcileAll fromSlice euid attempts d) = .ok s' ∧
      Account s₀ (journals ++ attempts.map (·.journal)) s' appliedEntries' dropped' retained' := by
  induction attempts generalizing d s journals appliedEntries dropped retained with
  | nil =>
    simp only [List.map_nil, List.append_nil]
    exact ⟨s, _, _, _, hread, h⟩
  | cons attempt attempts ih =>
    have hsplit : journals ++ (attempt :: attempts).map (·.journal) =
        (journals ++ [attempt.journal]) ++ attempts.map (·.journal) := by
      simp
    rw [hsplit]
    have hany := readState_reconcileLocked_any (p := ⟨attempt.pid, euid⟩) hserde attempt.journal
      hread attempt.fates
    rcases hany with hread' | ⟨s', hs', hread'⟩
    · exact ih hread' (h.append [attempt.journal])
    · obtain ⟨_, _, _, h', -⟩ := h.settled hs'
      exact ih hread' h'

/-- **Every pending mutation is settled at most once.** After any number of reconciliations, with
any journals and any faults, the mutations of the first state are accounted for. One that succeeds
applies, in their order, exactly the mutations that the journal decides for, drops exactly those it
decides against, and leaves nothing to do for a second one with the same journal; an attempt that is
cut short before it does not change what it gives. -/
theorem reconcileLocked_settles_once (hserde : InvertsEncoding fromSlice)
    (hread : readState fromSlice euid d = .ok s₀) :
    (∀ attempts : List Attempt, ∃ s applied dropped retained,
      readState fromSlice euid (Group.reconcileAll fromSlice euid attempts d) = .ok s ∧
      Account s₀ (attempts.map (·.journal)) s applied dropped retained) ∧
    ∀ (pid : UInt32) (journal : JournalView) (s : GroupState),
      ((reconcileLocked fromSlice ⟨pid, euid⟩ journal).clean d).1 = .ok s →
      (∃ applied dropped retained, Account s₀ [journal] s applied dropped retained ∧
        applied.Sublist s₀.pending.zipIdx ∧
        ∀ x ∈ s₀.pending.zipIdx, (x ∈ applied ↔ Decides journal x.1 true) ∧
          (x ∈ dropped ↔ Decides journal x.1 false)) ∧
      (∀ pid' : UInt32,
        (reconcileLocked fromSlice ⟨pid', euid⟩ journal).clean
          ((reconcileLocked fromSlice ⟨pid, euid⟩ journal).clean d).2 =
        (.ok s, ((reconcileLocked fromSlice ⟨pid, euid⟩ journal).clean d).2)) ∧
      ∀ (pid' : UInt32) (fates : List (Fate StateError)),
        let d' := (reconcileLocked fromSlice ⟨pid', euid⟩ journal fates d).2.1
        ((reconcileLocked fromSlice ⟨pid, euid⟩ journal).clean d').1 = .ok s ∧
        readState fromSlice euid ((reconcileLocked fromSlice ⟨pid, euid⟩ journal).clean d').2 =
          .ok s := by
  refine ⟨fun attempts => ?_, fun pid journal s hok => ⟨?_, fun pid' => ?_, fun pid' fates => ?_⟩⟩
  · exact (Account.refl s₀).reconcileAll hserde attempts hread
  · have hs' := ((reconcileLocked_eq_ok (p := ⟨pid, euid⟩) hread).mp hok).1
    obtain ⟨more, less, kept, haccount, -, hsub, hdecides⟩ := (Account.refl s₀).settled hs'
    exact ⟨more, less, kept, haccount, hsub, hdecides⟩
  · have hs' := ((reconcileLocked_eq_ok (p := ⟨pid, euid⟩) hread).mp hok).1
    have hread' := (readState_reconcileLocked (p := ⟨pid, euid⟩) hserde hread hok).1
    have hok' := (reconcileLocked_eq_ok (p := ⟨pid', euid⟩) hread').mpr ⟨hs'.again, .inl rfl⟩
    have hsame := (readState_reconcileLocked (p := ⟨pid', euid⟩) hserde hread' hok').2 rfl
    exact Prod.ext hok' hsame
  · have hrerun := reconcileLocked_rerun hserde pid' hread fates hok
    rcases readState_reconcileLocked_any (p := ⟨pid', euid⟩) hserde journal hread fates with
      hread' | ⟨s', -, hread'⟩
    · exact ⟨hrerun, (readState_reconcileLocked (p := ⟨pid, euid⟩) hserde hread' hrerun).1⟩
    · exact ⟨hrerun, (readState_reconcileLocked (p := ⟨pid, euid⟩) hserde hread' hrerun).1⟩

end

/-! ### One mutation -/

/-- The state that `coreDirectory` holds. -/
def coreState : GroupState :=
  withPending .default exampleDigest .install (ExtTreeMap.insert ∅ "core" ["bash"]) ["bash"] []

/-- The state once the plan's transaction has succeeded. -/
def coreInstalled : GroupState := ⟨2, ExtTreeMap.insert ∅ "core" ["bash"], ["bash"], []⟩

theorem validState_coreState : ValidState coreState :=
  validateState_eq_ok.mp (by decide +kernel)

theorem stored_coreDirectory : Stored GroupState.fromSlice 0 coreDirectory coreState := by
  have hgroups : canonicalRecords [⟨"core", ["bash"]⟩] =
      .ok (ExtTreeMap.insert ∅ "core" ["bash"]) := by
    decide +kernel
  have hintroduced : validateSortedIds ["bash"] = .ok () := by decide +kernel
  have heq : recordPendingInstall GroupState.fromSlice ⟨1, 0⟩ .empty exampleDigest
      [⟨"core", ["bash"]⟩] ["bash"] = recordPending GroupState.fromSlice ⟨1, 0⟩ .empty exampleDigest
        .install (ExtTreeMap.insert ∅ "core" ["bash"]) ["bash"] := by
    unfold recordPendingInstall
    rw [hgroups, hintroduced]
    rfl
  have hsat := recordPending_clean (p := ⟨1, 0⟩) invertsEncoding_fromSlice
    (stored_freshDirectory 0) (settled_of_no_pending rfl)
    (show isDigest exampleDigest = true by decide) .install _ ["bash"]
    (show JournalView.empty.ids = .ok [] from rfl) (by decide) validState_coreState
    (by decide +kernel)
  rw [coreDirectory, heq]
  exact hsat.nil.2

theorem reconcileLocked_coreDirectory :
    ((reconcileLocked GroupState.fromSlice ⟨2, 0⟩
      (.single exampleId (succeededRecords exampleId exampleDigest))).clean coreDirectory).1 =
        .ok coreInstalled := by
  have hsettled : Settled (.single exampleId (succeededRecords exampleId exampleDigest)) coreState
      coreInstalled := by
    rw [Settled, if_neg (by decide)]
    exact ⟨true, by decide +kernel⟩
  have hvalid : ValidState coreInstalled := validateState_eq_ok.mp (by decide +kernel)
  refine (reconcileLocked_eq_ok (p := ⟨2, 0⟩) stored_coreDirectory.read).mpr
    ⟨hsettled, .inr ⟨hvalid, by decide +kernel, ?_, ?_⟩⟩
  · exact stored_coreDirectory.fresh.replaceable _
  · exact stored_coreDirectory.fresh.replaceable _

theorem reconcileLocked_settles_coreDirectory :
    readState GroupState.fromSlice 0 coreDirectory = .ok coreState ∧ coreState.pending.length = 1 ∧
    ∃ applied dropped retained, Account coreState
      [.single exampleId (succeededRecords exampleId exampleDigest)] coreInstalled
      applied dropped retained := by
  have hread := stored_coreDirectory.read
  have hall := (reconcileLocked_settles_once invertsEncoding_fromSlice hread).2
  obtain ⟨⟨applied, dropped, retained, haccount, -⟩, -⟩ :=
    hall 2 _ coreInstalled reconcileLocked_coreDirectory
  exact ⟨hread, rfl, applied, dropped, retained, haccount⟩

end Dnfast.Group
