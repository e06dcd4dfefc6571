import Dnfast.Group.Persist

/-! # The stored state under reconciliation

`write` replaces the state file or leaves it alone, whatever fails and wherever the process dies
(`writeState_sat`). `reconcile_locked` returns the stored state settled against the journal
(`Settled`), and what it leaves on disk is the state it found or that one (`reconcileLocked_sat`). -/

namespace Dnfast.Group

open Durable Durable.Exec
open Dnfast.State
open Dnfast.Core (canonicalEncode)
open Dnfast.State.Directory (freshStat Scratched Published Interrupted)

/-! ## Writing -/

/-- The name that the state is written under before it is published. -/
def stateTemporary (p : Process) : String := replacementTemporary stateFile p.pid

theorem stateTemporary_ne (p : Process) : stateTemporary p ≠ stateFile :=
  replacementTemporary_ne_self stateFile p.pid

/-- `d'` is `d` with the state `s` written. -/
structure Wrote (p : Process) (s : GroupState) (d d' : Directory) : Prop where
  valid : ValidState s
  size : (canonicalEncode s).length ≤ maxStateBytes
  published : Published (stateTemporary p) stateFile ⟨freshStat p.euid, canonicalEncode s⟩ d d'

/-- Nothing stands in the way of writing `s`. -/
structure Writable (p : Process) (s : GroupState) (d : Directory) : Prop where
  valid : ValidState s
  size : (canonicalEncode s).length ≤ maxStateBytes
  temporary : Replaceable d (stateTemporary p)
  file : Replaceable d stateFile

/-- `d'` is what an attempt to write `s` may leave of `d`. -/
def Left (p : Process) (s : GroupState) (d d' : Directory) : Prop :=
  Scratched p.euid (stateTemporary p) d d' ∨ Wrote p s d d'

theorem Left.refl (p : Process) (s : GroupState) (d : Directory) : Left p s d d :=
  .inl (Scratched.refl _ _ _)

def WriteEnd (A : Fate StateError → Prop) (p : Process) (s : GroupState) (d : Directory) :
    Outcome StateError Unit → Directory → Prop
  | .ok _, d' => Replaceable d (stateTemporary p) ∧ Wrote p s d d'
  | .err _, d' => ((∃ e, A (.fail e)) ∨ ¬ Writable p s d) ∧ Left p s d d'
  | .crashed, d' => A .die ∧ Left p s d d'

theorem writeState_sat {A : Fate StateError → Prop} (p : Process) (s : GroupState)
    (d : Directory) : Sat A (writeState p s) d (WriteEnd A p s d) := by
  refine sat_bind (sat_lift ?_ ?_)
  · intro _ hvalid
    have hv := validateState_eq_ok.mp hvalid
    simp only [Then]
    split
    · rename_i hlarge
      exact sat_throw ⟨.inr fun h => absurd h.size (Nat.not_le.mpr hlarge), .refl p s d⟩
    · rename_i hsize
      have hsize' := Nat.not_lt.mp hsize
      refine (writeAtomicReplacing_sat p stateFile (canonicalEncode s) d).mono ?_
      rintro (_ | e | _) d' h
      · exact ⟨h.1, hv, hsize', h.2⟩
      · refine ⟨h.1.imp_right ?_, h.2.imp_right fun hpub => ⟨hv, hsize', hpub⟩⟩
        rintro (hnot | hnot) hw
        · exact hnot hw.temporary
        · exact hnot hw.file
      · exact ⟨h.1, h.2.imp_right fun hpub => ⟨hv, hsize', hpub⟩⟩
  · intro e hinvalid
    refine ⟨.inr fun h => ?_, .refl p s d⟩
    rw [validateState_eq_ok.mpr h.valid] at hinvalid
    cases hinvalid

section
variable {fromSlice : List UInt8 → Except String GroupState} {p q : Process}
  {s s' : GroupState} {d d' : Directory}

theorem readState_scratched (h : Scratched p.euid (stateTemporary p) d d') (euid : UInt32) :
    readState fromSlice euid d' = readState fromSlice euid d :=
  readState_congr (h.others stateFile (stateTemporary_ne p).symm)

theorem Wrote.readState (hserde : fromSlice (canonicalEncode s) = .ok s) (h : Wrote p s d d')
    (hseen : SeenFit s) : readState fromSlice p.euid d' = .ok s :=
  readState_of_file hserde ⟨h.valid, hseen⟩ h.size h.published.file

/-- Nothing that an attempt leaves stands in the way of a later one. -/
theorem Left.replaceable (h : Left p s d d') (hd : Replaceable d (stateTemporary q)) :
    Replaceable d' (stateTemporary q) := by
  intro old hold
  rcases h with h | h
  · by_cases heq : stateTemporary q = stateTemporary p
    · rw [heq] at hold
      rcases h.scratch with hsame | hgone | ⟨bytes, hfresh⟩
      · exact hd old (by rw [heq, ← hsame, hold])
      · rw [hgone] at hold
        cases hold
      · rw [hfresh] at hold
        cases hold
        exact freshStat_isDirectory p.euid
    · exact hd old (by rw [← h.others _ heq, hold])
  · have hne := stateTemporary_ne q
    by_cases heq : stateTemporary q = stateTemporary p
    · rw [heq, h.published.temporary] at hold
      cases hold
    · exact hd old (by rw [← h.published.others _ hne heq, hold])

theorem Left.allFresh (h : Left p s d d') (hd : AllFresh p.euid d) : AllFresh p.euid d' := by
  intro name file hfile
  rcases h with h | h
  · by_cases hname : name = stateTemporary p
    · subst hname
      rcases h.scratch with hsame | hgone | ⟨bytes, hfresh⟩
      · exact hd _ file (hsame ▸ hfile)
      · rw [hgone] at hfile
        cases hfile
      · rw [hfresh] at hfile
        cases hfile
        rfl
    · exact hd name file (h.others name hname ▸ hfile)
  · exact hd.published h.published name file hfile

end

/-! ## Settling -/

/-- `s'` is the state `s` settled against the journal. Without pending mutations the journal is not
read. -/
def Settled (journal : JournalView) (s s' : GroupState) : Prop :=
  if s.pending = [] then s' = s else ∃ changed, reconcileState journal s = .ok (s', changed)

section
variable {journal : JournalView} {s s' : GroupState}

theorem settled_of_no_pending (h : s.pending = []) : Settled journal s s := by
  rw [Settled, if_pos h]

theorem Settled.unique {s'' : GroupState} (h : Settled journal s s') (h' : Settled journal s s'') :
    s' = s'' := by
  unfold Settled at h h'
  split at h
  · rename_i hempty
    rw [if_pos hempty] at h'
    rw [h, h']
  · rename_i hne
    rw [if_neg hne] at h'
    obtain ⟨c, hc⟩ := h
    obtain ⟨c', hc'⟩ := h'
    rw [hc] at hc'
    cases hc'
    rfl

theorem Settled.shrinks (h : Settled journal s s') (hs : Storable s) :
    Shrinks s s' ∧ Storable s' := by
  unfold Settled at h
  split at h
  · subst h
    exact ⟨.refl hs.toSound, hs⟩
  · obtain ⟨changed, hchanged⟩ := h
    obtain ⟨hshrinks, hvalid⟩ := reconcileState_shrinks hs.toSound hchanged
    exact ⟨hshrinks, hvalid, fun m hm => hs.seen m (hshrinks.pending.subset hm)⟩

/-- A storable state whose installed and pending groups are within the bound settles. -/
theorem exists_settled {ids : List TransactionId} (hjournal : journal.Readable ids)
    (hs : ValidState s) (hids : s.groupIds.card ≤ maxGroups) : ∃ s', Settled journal s s' := by
  unfold Settled
  split
  · exact ⟨s, rfl⟩
  · obtain ⟨s', changed, h⟩ := reconcileState_eq_ok hjournal hs hids
    exact ⟨s', changed, h⟩

/-- What the loop makes of a mutation. -/
def outcome (load : TransactionId → Except StateError (List JournalEntry))
    (ids : List TransactionId) (m : PendingMutation) : Option Bool :=
  match terminal load m ids with
  | .ok result => result
  | .error _ => none

/-- The mutations that are applied, in the order of the list. -/
def applied (load : TransactionId → Except StateError (List JournalEntry))
    (ids : List TransactionId) (pending : List PendingMutation) : List PendingMutation :=
  pending.filter fun m => outcome load ids m = some true

/-- The mutations that stay pending. -/
def undecided (load : TransactionId → Except StateError (List JournalEntry))
    (ids : List TransactionId) (pending : List PendingMutation) : List PendingMutation :=
  pending.filter fun m => outcome load ids m = none

theorem settle_spec {load : TransactionId → Except StateError (List JournalEntry)}
    {ids : List TransactionId} (pending : List PendingMutation) (x y : Settling)
    (h : settle load ids pending x = .ok y) :
    (∀ m ∈ pending, terminal load m ids = .ok (outcome load ids m)) ∧
    y.state = (applied load ids pending).foldl (fun s m => m.apply s) x.state ∧
    y.retained = x.retained ++ undecided load ids pending ∧
    y.changed = (x.changed || pending.any fun m => outcome load ids m ≠ none) := by
  induction pending generalizing x with
  | nil =>
    cases h
    simp [applied, undecided]
  | cons m rest ih =>
    unfold settle at h
    cases hresult : terminal load m ids with
    | error e => simp [hresult, bind, Except.bind] at h
    | ok result =>
      simp only [hresult, bind, Except.bind] at h
      obtain ⟨hrest, hstate, hretained, hchanged⟩ := ih (x.step m result) h
      have houtcome : outcome load ids m = result := by simp [outcome, hresult]
      refine ⟨List.forall_mem_cons.mpr ⟨by rw [hresult, houtcome], hrest⟩, ?_, ?_, ?_⟩
      · rw [hstate]
        cases result with
        | none => simp [applied, houtcome, Settling.step]
        | some success => cases success <;> simp [applied, houtcome, Settling.step]
      · rw [hretained]
        cases result with
        | none => simp [undecided, houtcome, Settling.step]
        | some success => cases success <;> simp [undecided, houtcome, Settling.step]
      · rw [hchanged]
        cases result with
        | none => simp [houtcome, Settling.step]
        | some success => cases success <;> simp [houtcome, Settling.step]

/-- Reconciliation applies what has succeeded, keeps what is undecided, and reports a change when a
mutation was decided. -/
theorem reconcileState_spec {changed : Bool} (h : reconcileState journal s = .ok (s', changed)) :
    ∃ ids, journal.ids = .ok ids ∧
      (∀ m ∈ s.pending, terminal journal.load m ids = .ok (outcome journal.load ids m)) ∧
      s' = { (applied journal.load ids s.pending).foldl (fun s m => m.apply s)
          { s with pending := [] } with pending := undecided journal.load ids s.pending } ∧
      changed = (s.pending.any fun m => outcome journal.load ids m ≠ none) ∧
      ValidState s' := by
  unfold reconcileState at h
  cases hids : journal.ids with
  | error e => simp [hids, bind, Except.bind] at h
  | ok ids =>
    simp only [hids, bind, Except.bind] at h
    cases hy : settle journal.load ids s.pending ⟨{ s with pending := [] }, [], false⟩ with
    | error e => simp [hy] at h
    | ok y =>
      simp only [hy] at h
      cases hvalid : validateState { y.state with pending := y.retained } with
      | error e => simp [hvalid] at h
      | ok u =>
        simp only [hvalid, Except.ok.injEq, Prod.mk.injEq] at h
        obtain ⟨rfl, rfl⟩ := h
        obtain ⟨hterminal, hstate, hretained, hchanged⟩ := settle_spec _ _ _ hy
        refine ⟨ids, rfl, hterminal, ?_, by simpa using hchanged, validateState_eq_ok.mp hvalid⟩
        rw [hstate, hretained, List.nil_append]

theorem reconcileState_unchanged (h : reconcileState journal s = .ok (s', false)) : s' = s := by
  obtain ⟨ids, -, -, rfl, hchanged, -⟩ := reconcileState_spec h
  have hnone : ∀ m ∈ s.pending, outcome journal.load ids m = none := by
    simpa using hchanged
  have happlied : applied journal.load ids s.pending = [] := by
    rw [applied, List.filter_eq_nil_iff]
    intro m hm
    simp [hnone m hm]
  have hundecided : undecided journal.load ids s.pending = s.pending := by
    rw [undecided, List.filter_eq_self]
    intro m hm
    simp [hnone m hm]
  rw [happlied, hundecided]
  rfl

theorem reconcileState_changed (h : reconcileState journal s = .ok (s', true)) : s' ≠ s := by
  obtain ⟨ids, -, -, hs', hchanged, -⟩ := reconcileState_spec h
  intro heq
  -- one mutation is no longer pending
  have hpending : undecided journal.load ids s.pending = s.pending := by
    rw [heq] at hs'
    exact (congrArg GroupState.pending hs').symm
  rw [undecided, List.filter_eq_self] at hpending
  obtain ⟨m, hm, hdecided⟩ := List.any_eq_true.mp hchanged.symm
  simp [hpending m hm] at hdecided

end

/-! ## Reconciliation -/

def ReconcileEnd (A : Fate StateError → Prop) (p : Process) (journal : JournalView)
    (s : GroupState) (d : Directory) : Outcome StateError GroupState → Directory → Prop
  | .ok s', d' => Settled journal s s' ∧
      ((s' = s ∧ d' = d) ∨ (s' ≠ s ∧ Replaceable d (stateTemporary p) ∧ Wrote p s' d d'))
  | .err _, d' =>
      ((∃ e, A (.fail e)) ∨ ∀ s', Settled journal s s' → s' ≠ s ∧ ¬ Writable p s' d) ∧
      (d' = d ∨ ∃ s', Settled journal s s' ∧ Left p s' d d')
  | .crashed, d' => A .die ∧ (d' = d ∨ ∃ s', Settled journal s s' ∧ Left p s' d d')

theorem reconcileLocked_sat {A : Fate StateError → Prop}
    {fromSlice : List UInt8 → Except String GroupState} {p : Process} (journal : JournalView)
    {s : GroupState} {d : Directory} (hread : readState fromSlice p.euid d = .ok s) :
    Sat A (reconcileLocked fromSlice p journal) d (ReconcileEnd A p journal s d) := by
  refine sat_bind (sat_observe (fun hA => ⟨hA, .inl rfl⟩) (fun e hA => ⟨.inl ⟨e, hA⟩, .inl rfl⟩)
    ?_ ?_)
  · intro s₀ hs₀
    rw [hread] at hs₀
    cases hs₀
    simp only [Then]
    split
    · rename_i hempty
      exact sat_pure ⟨settled_of_no_pending (List.isEmpty_iff.mp hempty), .inl ⟨rfl, rfl⟩⟩
    · rename_i hempty
      have hne : s.pending ≠ [] := fun h => hempty (List.isEmpty_iff.mpr h)
      have hsettled : ∀ s' changed, reconcileState journal s = .ok (s', changed) →
          Settled journal s s' := by
        intro s' changed h
        rw [Settled, if_neg hne]
        exact ⟨changed, h⟩
      refine sat_bind (sat_observe (fun hA => ⟨hA, .inl rfl⟩)
        (fun e hA => ⟨.inl ⟨e, hA⟩, .inl rfl⟩) ?_ ?_)
      · rintro ⟨s', changed⟩ hs'
        simp only [Then]
        split
        · rename_i hchanged
          subst hchanged
          refine sat_bind ((writeState_sat p s' d).mono ?_)
          rintro (_ | e | _) d' h
          · exact sat_pure ⟨hsettled s' true hs', .inr ⟨reconcileState_changed hs', h⟩⟩
          · refine ⟨h.1.imp_right fun hnot s'' h'' => ?_, .inr ⟨s', hsettled s' true hs', h.2⟩⟩
            rw [← (hsettled s' true hs').unique h'']
            exact ⟨reconcileState_changed hs', hnot⟩
          · exact ⟨h.1, .inr ⟨s', hsettled s' true hs', h.2⟩⟩
        · rename_i hchanged
          rw [Bool.not_eq_true] at hchanged
          subst hchanged
          exact sat_pure ⟨hsettled s' false hs', .inl ⟨reconcileState_unchanged hs', rfl⟩⟩
      · intro e he
        refine ⟨.inr fun s' hs' => ?_, .inl rfl⟩
        rw [Settled, if_neg hne] at hs'
        obtain ⟨changed, hs'⟩ := hs'
        rw [he] at hs'
        cases hs'
  · intro e he
    rw [hread] at he
    cases he

/-! ## Directories of the store -/

/-- The directory holds the state `s` in a form that can be read and replaced. -/
structure Stored (fromSlice : List UInt8 → Except String GroupState) (euid : UInt32)
    (d : Directory) (s : GroupState) : Prop where
  read : readState fromSlice euid d = .ok s
  fresh : AllFresh euid d
  size : (canonicalEncode s).length ≤ maxStateBytes

/-- The parser inverts the encoder on group states. -/
def InvertsEncoding (fromSlice : List UInt8 → Except String GroupState) : Prop :=
  ∀ s : GroupState, fromSlice (canonicalEncode s) = .ok s

section
variable {A : Fate StateError → Prop} {fromSlice : List UInt8 → Except String GroupState}
  {p : Process} {journal : JournalView} {s s' : GroupState} {d d' : Directory}

theorem Stored.storable (h : Stored fromSlice p.euid d s) : Storable s :=
  readState_storable h.read

theorem stored_freshDirectory (euid : UInt32) :
    Stored fromSlice euid (Root.freshDirectory euid) .default := by
  refine ⟨readState_of_absent (by simp [Root.freshDirectory]), ?_, by decide +kernel⟩
  intro name file hfile
  simp [Root.freshDirectory] at hfile

theorem Left.stored (hserde : InvertsEncoding fromSlice) (h : Left p s' d d')
    (hd : Stored fromSlice p.euid d s) (hseen : SeenFit s') :
    Stored fromSlice p.euid d' s ∨ (Writable p s' d ∧ Stored fromSlice p.euid d' s') := by
  have hfresh := h.allFresh hd.fresh
  rcases h with h | h
  · exact .inl ⟨(readState_scratched h p.euid).trans hd.read, hfresh, hd.size⟩
  · exact .inr ⟨⟨h.valid, h.size, hd.fresh.replaceable _, hd.fresh.replaceable _⟩,
      h.readState (hserde s') hseen, hfresh, h.size⟩

/-- `write` on a directory of the store. -/
def WriteStored (A : Fate StateError → Prop) (fromSlice : List UInt8 → Except String GroupState)
    (euid : UInt32) (s s' : GroupState) : Outcome StateError Unit → Directory → Prop
  | .ok _, d' => Stored fromSlice euid d' s'
  | .err _, d' => Stored fromSlice euid d' s ∨
      ((∃ e, A (.fail e)) ∧ Stored fromSlice euid d' s')
  | .crashed, d' => A .die ∧ (Stored fromSlice euid d' s ∨ Stored fromSlice euid d' s')

theorem writeState_stored (hserde : InvertsEncoding fromSlice)
    (hd : Stored fromSlice p.euid d s) (hseen : SeenFit s') :
    Sat A (writeState p s') d (WriteStored A fromSlice p.euid s s') := by
  refine (writeState_sat p s' d).mono ?_
  rintro (_ | e | _) d' h
  · have hleft : Left p s' d d' := .inr h.2
    exact ⟨h.2.readState (hserde s') hseen, hleft.allFresh hd.fresh, h.2.size⟩
  · rcases h.2.stored hserde hd hseen with h' | ⟨hw, h'⟩
    · exact .inl h'
    · exact .inr ⟨h.1.resolve_right fun hnot => hnot hw, h'⟩
  · exact ⟨h.1, (h.2.stored hserde hd hseen).imp_right fun h' => h'.2⟩

/-- The stored state is `s`, settled or not. -/
def Kept (fromSlice : List UInt8 → Except String GroupState) (euid : UInt32)
    (journal : JournalView) (s : GroupState) (d' : Directory) : Prop :=
  Stored fromSlice euid d' s ∨ ∃ s', Settled journal s s' ∧ Stored fromSlice euid d' s'

/-- `reconcile_locked` on a directory of the store. -/
def ReconcileStored (A : Fate StateError → Prop)
    (fromSlice : List UInt8 → Except String GroupState) (euid : UInt32) (journal : JournalView)
    (s : GroupState) : Outcome StateError GroupState → Directory → Prop
  | .ok s', d' => Settled journal s s' ∧ Stored fromSlice euid d' s'
  | .err _, d' => ((∃ e, A (.fail e)) ∨ ∀ s', ¬ Settled journal s s') ∧
      Kept fromSlice euid journal s d'
  | .crashed, d' => A .die ∧ Kept fromSlice euid journal s d'

theorem reconcileLocked_stored (hserde : InvertsEncoding fromSlice)
    (hd : Stored fromSlice p.euid d s) (journal : JournalView) :
    Sat A (reconcileLocked fromSlice p journal) d
      (ReconcileStored A fromSlice p.euid journal s) := by
  have hkept : ∀ d', (d' = d ∨ ∃ s', Settled journal s s' ∧ Left p s' d d') →
      Kept fromSlice p.euid journal s d' := by
    rintro d' (rfl | ⟨s', hs', hleft⟩)
    · exact .inl hd
    · refine (hleft.stored hserde hd (hs'.shrinks hd.storable).2.seen).imp_right ?_
      exact fun h => ⟨s', hs', h.2⟩
  refine (reconcileLocked_sat journal hd.read).mono ?_
  rintro (s' | e | _) d' h
  · obtain ⟨hs', ⟨rfl, rfl⟩ | ⟨-, -, hwrote⟩⟩ := h
    · exact ⟨hs', hd⟩
    · have hleft : Left p s' d d' := .inr hwrote
      exact ⟨hs', hwrote.readState (hserde s') (hs'.shrinks hd.storable).2.seen,
        hleft.allFresh hd.fresh, hwrote.size⟩
  · refine ⟨h.1.imp_right fun hnot s' hs' => (hnot s' hs').2 ?_, hkept d' h.2⟩
    -- settling makes the state no larger, so it can be written
    obtain ⟨hshrinks, hstorable⟩ := hs'.shrinks hd.storable
    exact ⟨hstorable.toValidState, hshrinks.bytes.trans hd.size, hd.fresh.replaceable _,
      hd.fresh.replaceable _⟩
  · exact ⟨h.1, hkept d' h.2⟩

end

end Dnfast.Group
