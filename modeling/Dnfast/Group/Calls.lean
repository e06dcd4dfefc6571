import Dnfast.Group.Reconcile

/-! # The operations of the group state store

Every operation settles the stored state and then acts on the settled one. `OperationEnd` says so
once for all of them: when the operation succeeds the directory holds the result of its effect on
the settled state, and when it fails or the process dies the directory holds the state it found,
settled or not, or (only after a fault) the result. -/

namespace Dnfast.Group

open Durable Durable.Exec
open Dnfast.State
open Dnfast.Core (fitsString)

/-- Where an operation may end. `effect s' a s''`: acting on the settled state `s'` it returns `a`
and writes `s''`. -/
def OperationEnd {α : Type} (A : Fate StateError → Prop)
    (fromSlice : List UInt8 → Except String GroupState) (euid : UInt32) (journal : JournalView)
    (s : GroupState) (effect : GroupState → α → GroupState → Prop) :
    Outcome StateError α → Directory → Prop
  | .ok a, d' => ∃ s' s'', Settled journal s s' ∧ effect s' a s'' ∧ Stored fromSlice euid d' s''
  | .err _, d' => Kept fromSlice euid journal s d' ∨ ((∃ e, A (.fail e)) ∧ ∃ s' a s'',
      Settled journal s s' ∧ effect s' a s'' ∧ Stored fromSlice euid d' s'')
  | .crashed, d' => A .die ∧ (Kept fromSlice euid journal s d' ∨ ∃ s' a s'',
      Settled journal s s' ∧ effect s' a s'' ∧ Stored fromSlice euid d' s'')

section
variable {A : Fate StateError → Prop} {fromSlice : List UInt8 → Except String GroupState}
  {p : Process} {journal : JournalView} {s : GroupState} {d : Directory} {α β : Type}
  {effect : GroupState → α → GroupState → Prop}

/-- A check of the arguments before the lock is taken. -/
theorem lift_operation {x : Except StateError β} {f : β → Exec Directory StateError α}
    (hd : Stored fromSlice p.euid d s)
    (hf : ∀ b, x = .ok b → Sat A (f b) d (OperationEnd A fromSlice p.euid journal s effect)) :
    Sat A (Exec.lift x >>= f) d (OperationEnd A fromSlice p.euid journal s effect) :=
  sat_bind (sat_lift hf fun _ _ => .inl (.inl hd))

/-- An operation that reads the settled state. -/
theorem reading_operation (hserde : InvertsEncoding fromSlice)
    (hd : Stored fromSlice p.euid d s) (value : GroupState → α) :
    Sat A (do
      acquire
      let state ← reconcileLocked fromSlice p journal
      pure (value state)) d
      (OperationEnd A fromSlice p.euid journal s fun s' a s'' => a = value s' ∧ s'' = s') := by
  refine sat_bind (sat_sync (fun hA => ⟨hA, .inl (.inl hd)⟩) (fun _ _ => .inl (.inl hd)) ?_)
  simp only [Then]
  refine sat_bind ((reconcileLocked_stored hserde hd journal).mono ?_)
  rintro (s' | e | _) d' h
  · exact sat_pure ⟨s', s', h.1, ⟨rfl, rfl⟩, h.2⟩
  · exact .inl h.2
  · exact ⟨h.1, .inl h.2⟩

/-- Where the part of an operation that acts on the settled state `s'` may end. `result s''`: the
state `s''` is the one that it writes. -/
def ActEnd (A : Fate StateError → Prop) (fromSlice : List UInt8 → Except String GroupState)
    (euid : UInt32) (s' : GroupState) (result : GroupState → Prop) :
    Outcome StateError Unit → Directory → Prop
  | .ok _, d' => ∃ s'', result s'' ∧ Stored fromSlice euid d' s''
  | .err _, d' => Stored fromSlice euid d' s' ∨
      ((∃ e, A (.fail e)) ∧ ∃ s'', result s'' ∧ Stored fromSlice euid d' s'')
  | .crashed, d' => A .die ∧ (Stored fromSlice euid d' s' ∨
      ∃ s'', result s'' ∧ Stored fromSlice euid d' s'')

/-- An operation that acts on the settled state. -/
theorem writing_operation (hserde : InvertsEncoding fromSlice)
    (hd : Stored fromSlice p.euid d s) {f : GroupState → Exec Directory StateError Unit}
    {result : GroupState → GroupState → Prop}
    (hf : ∀ s' d', Storable s' → Stored fromSlice p.euid d' s' →
      Sat A (f s') d' (ActEnd A fromSlice p.euid s' (result s'))) :
    Sat A (do
      acquire
      let state ← reconcileLocked fromSlice p journal
      f state) d
      (OperationEnd A fromSlice p.euid journal s fun s' _ s'' => result s' s'') := by
  refine sat_bind (sat_sync (fun hA => ⟨hA, .inl (.inl hd)⟩) (fun _ _ => .inl (.inl hd)) ?_)
  simp only [Then]
  refine sat_bind ((reconcileLocked_stored hserde hd journal).mono ?_)
  rintro (s' | e | _) d' h
  · refine (hf s' d' (h.1.shrinks hd.storable).2 h.2).mono ?_
    rintro (_ | e | _) d'' h''
    · obtain ⟨s'', hresult, hstored⟩ := h''
      exact ⟨s', s'', h.1, hresult, hstored⟩
    · refine h''.imp (fun hs' => .inr ⟨s', h.1, hs'⟩) ?_
      rintro ⟨hfail, s'', hresult, hstored⟩
      exact ⟨hfail, s', (), s'', h.1, hresult, hstored⟩
    · refine ⟨h''.1, h''.2.imp (fun hs' => .inr ⟨s', h.1, hs'⟩) ?_⟩
      rintro ⟨s'', hresult, hstored⟩
      exact ⟨s', (), s'', h.1, hresult, hstored⟩
  · exact .inl h.2
  · exact ⟨h.1, .inl h.2⟩

theorem writeState_act (hserde : InvertsEncoding fromSlice) {s' : GroupState}
    (hd : Stored fromSlice p.euid d s') (s'' : GroupState) (hseen : SeenFit s'')
    {result : GroupState → Prop} (hresult : result s'') :
    Sat A (writeState p s'') d (ActEnd A fromSlice p.euid s' result) := by
  refine (writeState_stored hserde hd hseen).mono ?_
  rintro (_ | e | _) d' h
  · exact ⟨s'', hresult, h⟩
  · exact h.imp_right fun h => ⟨h.1, s'', hresult, h.2⟩
  · exact ⟨h.1, h.2.imp_right fun h => ⟨s'', hresult, h⟩⟩

/-! ## The operations without faults -/

/-- The operation succeeds and stores `s'`. -/
def Stores {α : Type} (fromSlice : List UInt8 → Except String GroupState) (euid : UInt32)
    (s' : GroupState) (o : Outcome StateError α) (d' : Directory) : Prop :=
  (∃ a, o = .ok a) ∧ Stored fromSlice euid d' s'

theorem reconcileLocked_clean (hserde : InvertsEncoding fromSlice) {s' : GroupState}
    (hd : Stored fromSlice p.euid d s) (hs' : Settled journal s s')
    {f : GroupState → Exec Directory StateError α} {Q : Outcome StateError α → Directory → Prop}
    (hf : ∀ d', Stored fromSlice p.euid d' s' → Sat (fun _ => False) (f s') d' Q) :
    Sat (fun _ => False) (do
      acquire
      let state ← reconcileLocked fromSlice p journal
      f state) d Q := by
  refine bind_sync_clean (sat_bind ((reconcileLocked_stored hserde hd journal).mono ?_))
  rintro (s'' | e | _) d' h
  · obtain rfl := hs'.unique h.1
    exact hf d' h.2
  · obtain ⟨⟨_, hfail⟩ | hnone, -⟩ := h
    · exact hfail.elim
    · exact absurd hs' (hnone s')
  · exact h.1.elim

theorem writeState_clean (hserde : InvertsEncoding fromSlice) {s' : GroupState}
    (hd : Stored fromSlice p.euid d s) (hs' : Storable s')
    (hsize : (Core.canonicalEncode s').length ≤ maxStateBytes) :
    Sat (fun _ => False) (writeState p s') d (Stores fromSlice p.euid s') := by
  refine ((writeState_sat p s' d).and (writeState_stored hserde hd hs'.seen)).mono ?_
  rintro (_ | e | _) d' ⟨h, hstored⟩
  · exact ⟨⟨(), rfl⟩, hstored⟩
  · obtain ⟨⟨_, hfail⟩ | hnot, -⟩ := h
    · exact hfail.elim
    · exact absurd ⟨hs'.toValidState, hsize, hd.fresh.replaceable _, hd.fresh.replaceable _⟩ hnot
  · exact h.1.elim

/-- The pending mutation that `record_pending` appends. -/
def withPending (s : GroupState) (planSha256 : String) (kind : MutationKind) (groups : GroupMap)
    (introduced : List String) (ids : List TransactionId) : GroupState :=
  { s with pending := s.pending ++ [⟨planSha256, kind, groups, introduced, ids.map (·.asStr)⟩] }

theorem seenFit_withPending {s' : GroupState} (hs' : SeenFit s') (planSha256 : String)
    (kind : MutationKind) (groups : GroupMap) (introduced : List String)
    (ids : List TransactionId) :
    SeenFit (withPending s' planSha256 kind groups introduced ids) := by
  -- the ids of transactions are short
  intro m hm id hid
  rcases List.mem_append.mp hm with hm | hm
  · exact hs' m hm id hid
  · obtain rfl := List.mem_singleton.mp hm
    obtain ⟨transaction, -, rfl⟩ := List.mem_map.mp hid
    exact fitsString_of_isUuidV7 transaction.canonical

theorem recordPending_clean (hserde : InvertsEncoding fromSlice) {s' : GroupState}
    (hd : Stored fromSlice p.euid d s) (hs' : Settled journal s s') {planSha256 : String}
    (hdigest : isDigest planSha256 = true) (kind : MutationKind) (groups : GroupMap)
    (introduced : List String) {ids : List TransactionId} (hids : journal.ids = .ok ids)
    (hpending : s'.pending.length < maxPending)
    (hvalid : ValidState (withPending s' planSha256 kind groups introduced ids))
    (hsize : (Core.canonicalEncode
      (withPending s' planSha256 kind groups introduced ids)).length ≤ maxStateBytes) :
    Sat (fun _ => False) (recordPending fromSlice p journal planSha256 kind groups introduced) d
      (Stores fromSlice p.euid (withPending s' planSha256 kind groups introduced ids)) := by
  unfold recordPending
  rw [validateDigest_eq_ok.mpr hdigest]
  refine reconcileLocked_clean hserde hd hs' fun d' hd' => ?_
  rw [if_neg (Nat.not_le.mpr hpending)]
  refine bind_observe_clean hids ?_
  have hwrite := writeState_clean hserde hd' ⟨hvalid, seenFit_withPending hd'.storable.seen
    planSha256 kind groups introduced ids⟩ hsize
  change Sat _ (Exec.lift (validateState (withPending s' planSha256 kind groups introduced ids)) >>=
    fun _ => writeState p (withPending s' planSha256 kind groups introduced ids)) d' _
  rw [validateState_eq_ok.mpr hvalid]
  exact hwrite

/-! ## The operations under faults -/

theorem installedGroupIds_sat (hserde : InvertsEncoding fromSlice)
    (hd : Stored fromSlice p.euid d s) :
    Sat A (installedGroupIds fromSlice p journal) d
      (OperationEnd A fromSlice p.euid journal s fun s' ids s'' =>
        ids = s'.groups.keys ∧ s'' = s') :=
  reading_operation hserde hd fun state => state.groups.keys

theorem packagesToRemove_sat (hserde : InvertsEncoding fromSlice)
    (hd : Stored fromSlice p.euid d s) (ids : List String) :
    Sat A (packagesToRemove fromSlice p journal ids) d
      (OperationEnd A fromSlice p.euid journal s fun s' packages s'' =>
        packages = removablePackages s' ids ∧ s'' = s') :=
  lift_operation hd fun _ _ => reading_operation hserde hd fun state => removablePackages state ids

/-- `apply_install_now` adds the groups of the records. -/
def Installs (records : List GroupRecord) (introduced : List String) (s' s'' : GroupState) :
    Prop :=
  ∃ groups, canonicalRecords records = .ok groups ∧ s'' = applyInstall s' groups introduced

theorem applyInstallNow_sat (hserde : InvertsEncoding fromSlice)
    (hd : Stored fromSlice p.euid d s) (records : List GroupRecord) (introduced : List String) :
    Sat A (applyInstallNow fromSlice p journal records introduced) d
      (OperationEnd A fromSlice p.euid journal s fun s' _ s'' =>
        Installs records introduced s' s'') := by
  refine lift_operation hd fun _ _ => writing_operation hserde hd fun s' d' hs' hd' => ?_
  refine sat_bind (sat_lift (fun groups hgroups => ?_) fun _ _ => .inl hd')
  exact writeState_act hserde hd' (applyInstall s' groups introduced) hs'.seen
    ⟨groups, hgroups, rfl⟩

theorem applyRemoveNow_sat (hserde : InvertsEncoding fromSlice)
    (hd : Stored fromSlice p.euid d s) (ids : List String) :
    Sat A (applyRemoveNow fromSlice p journal ids) d
      (OperationEnd A fromSlice p.euid journal s fun s' _ s'' => s'' = applyRemove s' ids) :=
  lift_operation hd fun _ _ => writing_operation hserde hd fun s' _ hs' hd' =>
    writeState_act hserde hd' (applyRemove s' ids) hs'.seen rfl

/-- `record_pending` appends the mutation, with the transactions of the moment as seen. -/
def Records (journal : JournalView) (planSha256 : String) (kind : MutationKind)
    (groups : GroupMap) (introduced : List String) (s' s'' : GroupState) : Prop :=
  ∃ ids, journal.ids = .ok ids ∧ s'' = withPending s' planSha256 kind groups introduced ids

theorem recordPending_sat (hserde : InvertsEncoding fromSlice)
    (hd : Stored fromSlice p.euid d s) (planSha256 : String) (kind : MutationKind)
    (groups : GroupMap) (introduced : List String) :
    Sat A (recordPending fromSlice p journal planSha256 kind groups introduced) d
      (OperationEnd A fromSlice p.euid journal s fun s' _ s'' =>
        Records journal planSha256 kind groups introduced s' s'') := by
  refine lift_operation hd fun _ _ => writing_operation hserde hd fun s' d' hs' hd' => ?_
  split
  · exact sat_throw (.inl hd')
  · refine sat_bind (sat_observe (fun hA => ⟨hA, .inl hd'⟩) (fun _ _ => .inl hd')
      (fun ids hids => ?_) fun _ _ => .inl hd')
    refine sat_bind (sat_lift (fun _ _ => ?_) fun _ _ => .inl hd')
    exact writeState_act hserde hd' (withPending s' planSha256 kind groups introduced ids)
      (seenFit_withPending hs'.seen planSha256 kind groups introduced ids) ⟨ids, hids, rfl⟩

theorem recordPendingInstall_sat (hserde : InvertsEncoding fromSlice)
    (hd : Stored fromSlice p.euid d s) (planSha256 : String) (records : List GroupRecord)
    (introduced : List String) :
    Sat A (recordPendingInstall fromSlice p journal planSha256 records introduced) d
      (OperationEnd A fromSlice p.euid journal s fun s' _ s'' => ∃ groups,
        canonicalRecords records = .ok groups ∧
        Records journal planSha256 .install groups introduced s' s'') := by
  refine lift_operation hd fun _ _ => lift_operation hd fun groups hgroups => ?_
  refine (recordPending_sat hserde hd planSha256 .install groups introduced).mono ?_
  rintro (_ | e | _) d' h
  · obtain ⟨s', s'', hs', hrecords, hstored⟩ := h
    exact ⟨s', s'', hs', ⟨groups, hgroups, hrecords⟩, hstored⟩
  · refine h.imp_right ?_
    rintro ⟨hfail, s', a, s'', hs', hrecords, hstored⟩
    exact ⟨hfail, s', a, s'', hs', ⟨groups, hgroups, hrecords⟩, hstored⟩
  · refine ⟨h.1, h.2.imp_right ?_⟩
    rintro ⟨s', a, s'', hs', hrecords, hstored⟩
    exact ⟨s', a, s'', hs', ⟨groups, hgroups, hrecords⟩, hstored⟩

theorem recordPendingRemove_sat (hserde : InvertsEncoding fromSlice)
    (hd : Stored fromSlice p.euid d s) (planSha256 : String) (ids : List String) :
    Sat A (recordPendingRemove fromSlice p journal planSha256 ids) d
      (OperationEnd A fromSlice p.euid journal s fun s' _ s'' =>
        Records journal planSha256 .remove (idsOnly ids) [] s' s'') :=
  lift_operation hd fun _ _ => recordPending_sat hserde hd planSha256 .remove (idsOnly ids) []

end

end Dnfast.Group
