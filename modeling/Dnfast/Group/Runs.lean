import Mathlib.Logic.Relation
import Dnfast.Group.Calls
import Dnfast.Group.Codec

/-! # Runs of the group state store

A run is a sequence of successful calls of the store's methods, each against the journal of its
moment. The stored state is valid after each of them, and every read of it succeeds, as long as the
groups that are installed and those that pending mutations would install stay within the bound on
groups together. `record_pending` counts the installed ones only: a pending mutation that it accepts
can make every later call fail. -/

namespace Dnfast.Group

open Durable Durable.Exec
open Std (ExtTreeMap)
open Dnfast.State
open Dnfast.Core (canonicalEncode)

/-- The methods of the store, with their arguments. -/
inductive Call where
  | installedGroupIds
  | packagesToRemove (ids : List String)
  | applyInstallNow (records : List GroupRecord) (introduced : List String)
  | applyRemoveNow (ids : List String)
  | recordPendingInstall (planSha256 : String) (records : List GroupRecord)
      (introduced : List String)
  | recordPendingRemove (planSha256 : String) (ids : List String)

/-- The method's program, without the value that it returns. -/
def Call.program (fromSlice : List UInt8 → Except String GroupState) (p : Process)
    (journal : JournalView) : Call → Exec Directory StateError Unit
  | .installedGroupIds => do
    let _ ← Group.installedGroupIds fromSlice p journal
  | .packagesToRemove ids => do
    let _ ← Group.packagesToRemove fromSlice p journal ids
  | .applyInstallNow records introduced =>
    Group.applyInstallNow fromSlice p journal records introduced
  | .applyRemoveNow ids => Group.applyRemoveNow fromSlice p journal ids
  | .recordPendingInstall planSha256 records introduced =>
    Group.recordPendingInstall fromSlice p journal planSha256 records introduced
  | .recordPendingRemove planSha256 ids =>
    Group.recordPendingRemove fromSlice p journal planSha256 ids

/-- A call by one process, with the journal it reads and the faults it meets. -/
structure Turn where
  pid : UInt32
  journal : JournalView
  call : Call
  fates : List (Fate StateError)

/-- A successful call, made in a stored state and with a turn that satisfy `P`. -/
def Step (fromSlice : List UInt8 → Except String GroupState) (euid : UInt32)
    (P : Turn → GroupState → Prop) (d d' : Directory) : Prop :=
  ∃ (t : Turn) (s : GroupState), readState fromSlice euid d = .ok s ∧ P t s ∧
    (t.call.program fromSlice ⟨t.pid, euid⟩ t.journal t.fates d).1 = .ok () ∧
    (t.call.program fromSlice ⟨t.pid, euid⟩ t.journal t.fates d).2.1 = d'

theorem step_recordPendingInstall {fromSlice : List UInt8 → Except String GroupState}
    {euid : UInt32} {P : Turn → GroupState → Prop} {d d' : Directory} {s : GroupState}
    {pid : UInt32} {journal : JournalView} {planSha256 : String} {records : List GroupRecord}
    {introduced : List String} {fates : List (Fate StateError)}
    (hread : readState fromSlice euid d = .ok s)
    (hP : P ⟨pid, journal, .recordPendingInstall planSha256 records introduced, fates⟩ s)
    (hok : (recordPendingInstall fromSlice ⟨pid, euid⟩ journal planSha256 records introduced
      fates d).1 = .ok ())
    (hd' : (recordPendingInstall fromSlice ⟨pid, euid⟩ journal planSha256 records introduced
      fates d).2.1 = d') : Step fromSlice euid P d d' :=
  ⟨_, s, hread, hP, hok, hd'⟩

/-- The states that successful calls reach from an empty store. -/
def Reachable (fromSlice : List UInt8 → Except String GroupState) (euid : UInt32)
    (P : Turn → GroupState → Prop) (d : Directory) : Prop :=
  Relation.ReflTransGen (Step fromSlice euid P) (Root.freshDirectory euid) d

/-- The ids of the records. -/
def recordIds (records : List GroupRecord) : Finset String := (records.map (·.id)).toFinset

/-- The groups of an installation, those installed and those pending in the state `s'` that it
starts from are within the bound together. Other calls always fit. -/
def Call.Fits (s' : GroupState) : Call → Prop
  | .applyInstallNow records _ => (s'.groupIds ∪ recordIds records).card ≤ maxGroups
  | .recordPendingInstall _ records _ => (s'.groupIds ∪ recordIds records).card ≤ maxGroups
  | _ => True

/-- The call fits the stored state once that is settled against the journal. -/
def Turn.Fits (t : Turn) (s : GroupState) : Prop := ∀ s', Settled t.journal s s' → t.call.Fits s'

/-! ## One call -/

theorem mem_collectRecords {records : List GroupRecord} {result groups : GroupMap} {id : String}
    (h : collectRecords records result = .ok groups) (hid : id ∈ groups) :
    id ∈ result ∨ id ∈ recordIds records := by
  induction records generalizing result with
  | nil =>
    cases h
    exact .inl hid
  | cons record records ih =>
    unfold collectRecords at h
    cases hvalid : validateId record.id with
    | error e => simp [hvalid, bind, Except.bind] at h
    | ok u =>
      simp only [hvalid, bind, Except.bind] at h
      split at h
      · cases h
      · rcases ih h with hin | hin
        · rw [ExtTreeMap.mem_insert] at hin
          rcases hin with heq | hin
          · exact .inr (by simp [recordIds, Std.LawfulEqOrd.eq_of_compare heq])
          · exact .inl hin
        · exact .inr (by simp_all [recordIds])

theorem mem_canonicalRecords {records : List GroupRecord} {groups : GroupMap} {id : String}
    (h : canonicalRecords records = .ok groups) (hid : id ∈ groups) : id ∈ recordIds records := by
  refine (mem_collectRecords h hid).resolve_left ?_
  simp

theorem groupIds_installs {records : List GroupRecord} {introduced : List String}
    {s' s'' : GroupState} (h : Installs records introduced s' s'') :
    s''.groupIds ⊆ s'.groupIds ∪ recordIds records := by
  obtain ⟨groups, hgroups, rfl⟩ := h
  intro id hid
  rw [mem_groupIds, mem_applyInstall] at hid
  rw [Finset.mem_union, mem_groupIds]
  rcases hid with (hid | hid) | hid
  · exact .inl (.inl hid)
  · exact .inr (mem_canonicalRecords hgroups hid)
  · exact .inl (.inr hid)

theorem groupIds_applyRemove (s' : GroupState) (ids : List String) :
    (applyRemove s' ids).groupIds ⊆ s'.groupIds := by
  intro id hid
  rw [mem_groupIds] at hid ⊢
  exact hid.imp_left mem_of_mem_applyRemove

theorem groupIds_records {journal : JournalView} {planSha256 : String} {kind : MutationKind}
    {groups : GroupMap} {introduced : List String} {s' s'' : GroupState} {id : String}
    (h : Records journal planSha256 kind groups introduced s' s'') (hid : id ∈ s''.groupIds) :
    id ∈ s'.groupIds ∨ (kind = .install ∧ id ∈ groups) := by
  obtain ⟨ids, -, rfl⟩ := h
  rw [mem_groupIds] at hid ⊢
  rcases hid with hid | ⟨m, hm, hkind, hid⟩
  · exact .inl (.inl hid)
  · rcases List.mem_append.mp hm with hm | hm
    · exact .inl (.inr ⟨m, hm, hkind, hid⟩)
    · obtain rfl := List.mem_singleton.mp hm
      exact .inr ⟨hkind, hid⟩

/-- What the call makes of the settled state. -/
def Call.effect (journal : JournalView) : Call → GroupState → GroupState → Prop
  | .installedGroupIds, s', s'' => s'' = s'
  | .packagesToRemove _, s', s'' => s'' = s'
  | .applyInstallNow records introduced, s', s'' => Installs records introduced s' s''
  | .applyRemoveNow ids, s', s'' => s'' = applyRemove s' ids
  | .recordPendingInstall planSha256 records introduced, s', s'' => ∃ groups,
      canonicalRecords records = .ok groups ∧
      Records journal planSha256 .install groups introduced s' s''
  | .recordPendingRemove planSha256 ids, s', s'' =>
      Records journal planSha256 .remove (idsOnly ids) [] s' s''

theorem Call.effect_bound {journal : JournalView} {call : Call} {s' s'' : GroupState}
    (h : call.effect journal s' s'') (hfits : call.Fits s')
    (hbound : s'.groupIds.card ≤ maxGroups) : s''.groupIds.card ≤ maxGroups := by
  cases call with
  | installedGroupIds =>
    obtain rfl := h
    exact hbound
  | packagesToRemove ids =>
    obtain rfl := h
    exact hbound
  | applyInstallNow records introduced =>
    exact (Finset.card_le_card (groupIds_installs h)).trans hfits
  | applyRemoveNow ids =>
    obtain rfl := h
    exact (Finset.card_le_card (groupIds_applyRemove s' ids)).trans hbound
  | recordPendingInstall planSha256 records introduced =>
    obtain ⟨groups, hgroups, hrecords⟩ := h
    refine (Finset.card_le_card fun id hid => ?_).trans hfits
    rw [Finset.mem_union]
    exact (groupIds_records hrecords hid).imp_right fun h => mem_canonicalRecords hgroups h.2
  | recordPendingRemove planSha256 ids =>
    refine (Finset.card_le_card fun id hid => ?_).trans hbound
    exact (groupIds_records h hid).resolve_right nofun

section
variable {A : Fate StateError → Prop} {fromSlice : List UInt8 → Except String GroupState}
  {euid : UInt32} {p : Process} {journal : JournalView} {d d' : Directory} {s : GroupState}

theorem discard_operation {α : Type} {m : Exec Directory StateError α}
    {effect : GroupState → α → GroupState → Prop} {effect' : GroupState → GroupState → Prop}
    (hm : Sat A m d (OperationEnd A fromSlice euid journal s effect))
    (h : ∀ s' a s'', effect s' a s'' → effect' s' s'') :
    Sat A (m >>= fun _ => pure ()) d
      (OperationEnd A fromSlice euid journal s fun s' (_ : Unit) s'' => effect' s' s'') := by
  refine sat_bind (hm.mono ?_)
  rintro (a | e | _) d' hend
  · obtain ⟨s', s'', hs', heffect, hstored⟩ := hend
    exact sat_pure ⟨s', s'', hs', h _ _ _ heffect, hstored⟩
  · refine hend.imp_right ?_
    rintro ⟨hfail, s', a, s'', hs', heffect, hstored⟩
    exact ⟨hfail, s', (), s'', hs', h _ _ _ heffect, hstored⟩
  · refine ⟨hend.1, hend.2.imp_right ?_⟩
    rintro ⟨s', a, s'', hs', heffect, hstored⟩
    exact ⟨s', (), s'', hs', h _ _ _ heffect, hstored⟩

theorem Call.program_sat (hserde : InvertsEncoding fromSlice) (hd : Stored fromSlice p.euid d s)
    (journal : JournalView) (call : Call) :
    Sat A (call.program fromSlice p journal) d
      (OperationEnd A fromSlice p.euid journal s fun s' _ s'' => call.effect journal s' s'') := by
  cases call with
  | installedGroupIds =>
    exact discard_operation (installedGroupIds_sat hserde hd) fun _ _ _ h => h.2
  | packagesToRemove ids =>
    exact discard_operation (packagesToRemove_sat hserde hd ids) fun _ _ _ h => h.2
  | applyInstallNow records introduced => exact applyInstallNow_sat hserde hd records introduced
  | applyRemoveNow ids => exact applyRemoveNow_sat hserde hd ids
  | recordPendingInstall planSha256 records introduced =>
    exact recordPendingInstall_sat hserde hd planSha256 records introduced
  | recordPendingRemove planSha256 ids => exact recordPendingRemove_sat hserde hd planSha256 ids

/-! ## Runs -/

/-- A successful call keeps the directory one of the store. -/
theorem Stored.step {P : Turn → GroupState → Prop} (hserde : InvertsEncoding fromSlice)
    (hd : Stored fromSlice euid d s) (hstep : Step fromSlice euid P d d') :
    ∃ (t : Turn) (s' s'' : GroupState), P t s ∧ Settled t.journal s s' ∧
      t.call.effect t.journal s' s'' ∧ Stored fromSlice euid d' s'' := by
  obtain ⟨t, s₀, hread, hP, hok, rfl⟩ := hstep
  obtain rfl : s₀ = s := by
    have := hd.read
    rw [hread] at this
    exact Except.ok.inj this
  have hstored : Stored fromSlice (⟨t.pid, euid⟩ : Process).euid d s₀ := hd
  have hend := (Call.program_sat hserde hstored t.journal t.call).run t.fates
  rw [hok] at hend
  obtain ⟨s', s'', hs', heffect, hstored'⟩ := hend
  exact ⟨t, s', s'', hP, hs', heffect, hstored'⟩

theorem Reachable.stored {P : Turn → GroupState → Prop} (hserde : InvertsEncoding fromSlice)
    (h : Reachable fromSlice euid P d) : ∃ s, Stored fromSlice euid d s := by
  induction h with
  | refl => exact ⟨.default, stored_freshDirectory euid⟩
  | tail _ hstep ih =>
    obtain ⟨s, hs⟩ := ih
    obtain ⟨_, _, s'', -, -, -, hs''⟩ := hs.step hserde hstep
    exact ⟨s'', hs''⟩

/-- Calls that fit keep all groups of the stored state within the bound. -/
theorem Reachable.bound (hserde : InvertsEncoding fromSlice)
    (h : Reachable fromSlice euid Turn.Fits d) :
    ∃ s, Stored fromSlice euid d s ∧ s.groupIds.card ≤ maxGroups := by
  induction h with
  | refl => exact ⟨.default, stored_freshDirectory euid, by decide⟩
  | tail _ hstep ih =>
    obtain ⟨s, hs, hbound⟩ := ih
    obtain ⟨t, s', s'', hfits, hs', heffect, hs''⟩ := hs.step hserde hstep
    have hsettled := Finset.card_le_card (hs'.shrinks (readState_storable hs.read)).1.ids
    exact ⟨s'', hs'', Call.effect_bound heffect (hfits s' hs') (hsettled.trans hbound)⟩

/-- A read succeeds when the stored state can be settled. -/
theorem Stored.reads {α : Type} (hserde : InvertsEncoding fromSlice)
    (hd : Stored fromSlice p.euid d s) (hsettled : ∃ s', Settled journal s s')
    (value : GroupState → α) :
    ∃ a, ((do
      acquire
      let state ← reconcileLocked fromSlice p journal
      pure (value state) : Exec Directory StateError α).clean d).1 = .ok a := by
  obtain ⟨s', hs'⟩ := hsettled
  have hsat := reconcileLocked_clean (f := fun state => pure (value state))
    (Q := fun o _ => ∃ a, o = .ok a) hserde hd hs' fun d' _ => sat_pure ⟨value s', rfl⟩
  exact hsat.clean

/-- **The store stays usable.** After every run of successful calls the stored state is valid. When
each installation of the run fits the groups installed and pending at its moment, every later read
succeeds, whatever has become of the pending transactions. -/
theorem calls_succeed_of_fits (hserde : InvertsEncoding fromSlice) :
    (∀ d, Reachable fromSlice euid (fun _ _ => True) d →
      ∃ s, readState fromSlice euid d = .ok s ∧ validateState s = .ok ()) ∧
    ∀ d, Reachable fromSlice euid Turn.Fits d →
      ∀ (pid : UInt32) (journal : JournalView) (transactions : List TransactionId),
        journal.Readable transactions →
        (∃ groups, ((installedGroupIds fromSlice ⟨pid, euid⟩ journal).clean d).1 = .ok groups) ∧
        ∀ ids, validateIds ids = .ok () → ∃ packages,
          ((packagesToRemove fromSlice ⟨pid, euid⟩ journal ids).clean d).1 = .ok packages := by
  constructor
  · intro d hd
    obtain ⟨s, hs⟩ := hd.stored hserde
    exact ⟨s, hs.read, validateState_eq_ok.mpr (readState_storable hs.read).toValidState⟩
  · intro d hd pid journal transactions hjournal
    obtain ⟨s, hs, hbound⟩ := hd.bound hserde
    have hstored : Stored fromSlice (⟨pid, euid⟩ : Process).euid d s := hs
    have hsettled := exists_settled hjournal hstored.storable.toValidState hbound
    refine ⟨hstored.reads hserde hsettled fun state => state.groups.keys, fun ids hids => ?_⟩
    rw [packagesToRemove, hids]
    exact hstored.reads hserde hsettled fun state => removablePackages state ids

end

/-! ### A run that fits -/

/-- The records of a transaction that ran the plan and succeeded. -/
def succeededRecords (id : TransactionId) (planSha256 : String) : List JournalEntry :=
  [preparedEntry id planSha256, recordOf id planSha256 .started none none,
    recordOf id planSha256 .rpmResult (some ⟨0, .zero, []⟩) none,
    recordOf id planSha256 .reconciled none (some ⟨exampleDigest, true, 1⟩)]

/-- A journal without transactions. -/
def JournalView.empty : JournalView := ⟨.ok [], fun _ => .error (errno .noent)⟩

/-- A journal whose only transaction has these records. -/
def JournalView.single (id : TransactionId) (records : List JournalEntry) : JournalView :=
  ⟨.ok [id], fun _ => .ok records⟩

theorem readable_single (id : TransactionId) (records : List JournalEntry) :
    (JournalView.single id records).Readable [id] :=
  ⟨rfl, fun _ _ => ⟨_, rfl⟩⟩

theorem verdict_succeededRecords (id : TransactionId) (planSha256 : String) :
    verdict planSha256 (succeededRecords id planSha256) = some true := by
  simp [verdict, succeededRecords, succeeded, recordOf, JournalEntry.next, preparedEntry]

/-- A store in which one group with one package was recorded. -/
def coreDirectory : Directory :=
  (recordPendingInstall GroupState.fromSlice ⟨1, 0⟩ .empty exampleDigest [⟨"core", ["bash"]⟩]
    ["bash"] [] (Root.freshDirectory 0)).2.1

theorem reachable_coreDirectory : Reachable GroupState.fromSlice 0 Turn.Fits coreDirectory := by
  have hok : (recordPendingInstall GroupState.fromSlice ⟨1, 0⟩ .empty exampleDigest
      [⟨"core", ["bash"]⟩] ["bash"] [] (Root.freshDirectory 0)).1 = .ok () := by
    decide +kernel
  refine .single (step_recordPendingInstall (stored_freshDirectory 0).read ?_ hok rfl)
  intro s' hs'
  obtain rfl := (settled_of_no_pending rfl).unique hs'
  exact show (GroupState.default.groupIds ∪ recordIds [⟨"core", ["bash"]⟩]).card ≤ maxGroups by
    decide

theorem calls_succeed_coreDirectory :
    (∃ groups, ((installedGroupIds GroupState.fromSlice ⟨2, 0⟩
      (.single exampleId (succeededRecords exampleId exampleDigest))).clean coreDirectory).1 =
        .ok groups) ∧
    ∃ packages, ((packagesToRemove GroupState.fromSlice ⟨2, 0⟩
      (.single exampleId (succeededRecords exampleId exampleDigest)) ["core"]).clean
        coreDirectory).1 = .ok packages := by
  have h := (@calls_succeed_of_fits GroupState.fromSlice 0 invertsEncoding_fromSlice).2 coreDirectory
    reachable_coreDirectory 2 _ [exampleId]
    (readable_single exampleId (succeededRecords exampleId exampleDigest))
  exact ⟨h.1, h.2 ["core"] (by decide)⟩

/-! ## One group too many -/

def groupName (i : Nat) : String := String.ofList ('g' :: decimal i)

/-- Records of the first `n` groups, none of which has packages. -/
def emptyGroups (n : Nat) : List GroupRecord := (List.range n).map fun i => ⟨groupName i, []⟩

/-- Distinct names of groups without packages make a map with an entry for each. -/
theorem collectRecords_empty {names : List String} (hnodup : names.Nodup)
    (hvalid : ∀ name ∈ names, validId name = true) {result : GroupMap}
    (hfree : ∀ name ∈ names, name ∉ result)
    (hempty : ∀ (id : String) packages, result[id]? = some packages →
      validId id = true ∧ packages = []) :
    ∃ groups, collectRecords (names.map fun name => ⟨name, []⟩) result = .ok groups ∧
      groups.size = result.size + names.length ∧
      ∀ (id : String) packages, groups[id]? = some packages → validId id = true ∧ packages = [] := by
  induction names generalizing result with
  | nil => exact ⟨result, rfl, rfl, hempty⟩
  | cons name names ih =>
    obtain ⟨hnot, hnodup'⟩ := List.nodup_cons.mp hnodup
    obtain ⟨hname, hnames⟩ := List.forall_mem_cons.mp hvalid
    obtain ⟨hfreename, hfreenames⟩ := List.forall_mem_cons.mp hfree
    have hfree' : ∀ other ∈ names, other ∉ result.insert name [] := by
      intro other hother hmem
      rw [ExtTreeMap.mem_insert] at hmem
      rcases hmem with heq | hmem
      · exact hnot (Std.LawfulEqOrd.eq_of_compare heq ▸ hother)
      · exact hfreenames other hother hmem
    have hempty' : ∀ (id : String) packages, (result.insert name [])[id]? = some packages →
        validId id = true ∧ packages = [] := by
      intro id packages hid
      rw [ExtTreeMap.getElem?_insert] at hid
      split at hid
      · rename_i heq
        cases hid
        exact ⟨Std.LawfulEqOrd.eq_of_compare heq ▸ hname, rfl⟩
      · exact hempty id packages hid
    obtain ⟨groups, hgroups, hsize, hentries⟩ := ih hnodup' hnames hfree' hempty'
    refine ⟨groups, ?_, ?_, hentries⟩
    · have hsort : ([] : List String).sortDedup = [] := rfl
      simp [collectRecords, validateId_eq_ok.mpr hname, bind, Except.bind, hsort, hfreename,
        hgroups]
    · rw [ExtTreeMap.mem_iff_contains] at hfreename
      rw [hsize, ExtTreeMap.size_insert, if_neg hfreename, List.length_cons]
      omega

theorem groupName_injective {i j : Nat} (h : groupName i = groupName j) : i = j := by
  have h' := String.ofList_inj.mp h
  simp only [List.cons.injEq, true_and] at h'
  exact decimal_injective h'

theorem length_decimal_le {i : Nat} (h : i < 10000) : (decimal i).length ≤ 4 :=
  (Nat.length_toDigits_le_iff (by decide) (by decide)).mpr h

theorem isDigit_decimal {i : Nat} {c : Char} (h : c ∈ decimal i) : c.isDigit = true :=
  Nat.isDigit_of_mem_toDigits (by decide) (by decide) h

theorem validId_groupName {i : Nat} (h : i < 10000) : validId (groupName i) = true := by
  have hlist : (groupName i).toList = 'g' :: decimal i := by simp [groupName]
  have hascii : ∀ c ∈ (groupName i).toList, c.isAlphanum = true := by
    intro c hc
    rw [hlist, List.mem_cons] at hc
    rcases hc with rfl | hc
    · decide
    · simp [Char.isAlphanum, isDigit_decimal hc]
  have hsize : (groupName i).utf8ByteSize ≤ 4096 := by
    have hbytes := utf8ByteSize_le (groupName i)
    have hdigits := length_decimal_le h
    rw [hlist, List.length_cons] at hbytes
    omega
  have hne : (groupName i).isEmpty = false := by
    rw [Bool.eq_false_iff, Ne, String.isEmpty_iff, ← String.toList_inj, hlist]
    simp
  simp only [validId, hne, hsize, Bool.not_false, Bool.true_and, decide_true, List.all_eq_true]
  exact fun c hc => by simp [hascii c hc]

/-- 4097 groups. -/
def tooManyRecords : List GroupRecord := emptyGroups 4097

theorem mem_recordIds_tooMany {id : String} (h : id ∈ recordIds tooManyRecords) :
    ∃ i < 4097, groupName i = id := by
  simpa [recordIds, tooManyRecords, emptyGroups] using h

theorem canonicalRecords_tooMany : ∃ groups, canonicalRecords tooManyRecords = .ok groups ∧
    groups.size = 4097 ∧ ∀ (id : String) packages, groups[id]? = some packages →
      validId id = true ∧ packages = [] := by
  have hnames : tooManyRecords =
      ((List.range 4097).map groupName).map fun name => ⟨name, []⟩ := by
    simp [tooManyRecords, emptyGroups, Function.comp_def]
  have hvalid : ∀ name ∈ (List.range 4097).map groupName, validId name = true := by
    simp only [List.mem_map, List.mem_range]
    rintro _ ⟨i, hi, rfl⟩
    exact validId_groupName (by omega)
  have hfree : ∀ name ∈ (List.range 4097).map groupName, name ∉ (∅ : GroupMap) := by simp
  obtain ⟨groups, hgroups, hsize, hentries⟩ := collectRecords_empty
    (List.nodup_range.map fun _ _ => groupName_injective) hvalid hfree (by simp)
  refine ⟨groups, ?_, by simpa using hsize, hentries⟩
  rw [canonicalRecords, hnames, hgroups]

/-- The state after the 4097 groups were recorded. -/
def tooManyState (groups : GroupMap) : GroupState :=
  withPending .default exampleDigest .install groups [] []

section
variable {groups : GroupMap} (hgroups : canonicalRecords tooManyRecords = .ok groups)
  (hsize : groups.size = 4097)
  (hentries : ∀ (id : String) packages, groups[id]? = some packages →
    validId id = true ∧ packages = [])

include hentries in
theorem packageCount_tooMany : GroupMap.packageCount groups = 0 := by
  have htotal : groups.total (fun _ packages => packages.length) ≤ groups.size * 0 := by
    refine ExtTreeMap.total_le fun id packages hid => ?_
    rw [(hentries id packages hid).2]
    exact Nat.le_refl _
  rw [packageCount_eq_total]
  omega

include hsize hentries in
theorem validState_tooMany : ValidState (tooManyState groups) := by
  refine ⟨⟨rfl, validState_default.groups, sortedIds_nil, nofun, fun m hm => ?_⟩,
    validState_default.groupCount, show 1 ≤ maxPending by decide, ?_⟩
  · obtain rfl := List.mem_singleton.mp hm
    refine ⟨show isDigest exampleDigest = true by decide, ?_, fun id packages hid => ?_,
      sortedIds_nil, nofun, nofun, .nil⟩
    · rw [ExtTreeMap.isEmpty_eq_size_beq_zero, hsize]
      rfl
    · obtain ⟨hid', rfl⟩ := hentries id packages hid
      exact ⟨hid', sortedIds_nil⟩
  · have hdefault : GroupMap.packageCount (∅ : GroupMap) = 0 := by decide
    simp [GroupState.packageCount, tooManyState, withPending, packageCount_tooMany hentries,
      hdefault, GroupState.default]

include hgroups hsize hentries in
theorem size_tooMany : (canonicalEncode (tooManyState groups)).length ≤ maxStateBytes := by
  have htotal : groups.total entryBytes ≤ groups.size * 36 := by
    refine ExtTreeMap.total_le fun id packages hid => ?_
    obtain ⟨i, hi, rfl⟩ := mem_recordIds_tooMany (mem_canonicalRecords hgroups (by
      rw [ExtTreeMap.mem_iff_isSome_getElem?, hid]
      rfl))
    have hname := length_renderString_le (groupName i)
    have hdigits := length_decimal_le (i := i) (by omega)
    have hlist : (groupName i).toList.length = (decimal i).length + 1 := by simp [groupName]
    rw [(hentries _ _ hid).2]
    simp only [entryBytes, show (strings []).size = 2 from rfl]
    omega
  have hmutation := size_mutation ⟨exampleDigest, .install, groups, [], []⟩
  rw [size_groupsValue] at hmutation
  have hflag := flag_le (groups.isEmpty = true)
  have hfixed : (groupsValue GroupState.default.groups).size = 2 ∧
      (Json.renderInt (2 : Int)).length = 1 ∧ introducedBytes [] = 0 ∧
      MutationKind.install.toValue.size = 9 ∧ (Json.renderString exampleDigest).length = 66 ∧
      (strings []).size = 2 := by
    decide
  obtain ⟨h1, h2, h3, h4, h5, h6⟩ := hfixed
  have hstate : (canonicalEncode (tooManyState groups)).length =
      41 + 2 + 0 + (PendingMutation.toValue ⟨exampleDigest, .install, groups, [], []⟩).size + 1 +
        0 + 1 := by
    change (tooManyState groups).toValue.size = _
    rw [size_toValue]
    change 41 + (groupsValue GroupState.default.groups).size + introducedBytes [] +
      pendingBytes [⟨exampleDigest, .install, groups, [], []⟩] + 0 +
      (Json.renderInt (2 : Int)).length = _
    rw [h1, h2, h3, pendingBytes_cons, show pendingBytes [] = 0 from rfl]
    omega
  have hmax : maxStateBytes = 8388608 := rfl
  simp only [h3, h4, h5, h6] at hmutation
  omega

/-- A journal in which the transaction of the recorded plan succeeded. -/
def tooManyJournal : JournalView :=
  .single exampleId (succeededRecords exampleId exampleDigest)

include hgroups in
theorem recordPendingInstall_tooMany (p : Process) :
    recordPendingInstall GroupState.fromSlice p .empty exampleDigest tooManyRecords [] =
      recordPending GroupState.fromSlice p .empty exampleDigest .install groups [] := by
  unfold recordPendingInstall
  rw [hgroups, validateSortedIds_eq_ok.mpr sortedIds_nil]
  rfl

include hgroups hsize hentries in
theorem stored_tooMany : ∃ d,
    (recordPendingInstall GroupState.fromSlice ⟨1, 0⟩ .empty exampleDigest tooManyRecords [] []
      (Root.freshDirectory 0)).1 = .ok () ∧
    (recordPendingInstall GroupState.fromSlice ⟨1, 0⟩ .empty exampleDigest tooManyRecords [] []
      (Root.freshDirectory 0)).2.1 = d ∧
    Stored GroupState.fromSlice 0 d (tooManyState groups) := by
  have hdefault : Settled JournalView.empty .default .default := settled_of_no_pending rfl
  have hsat := recordPending_clean (p := ⟨1, 0⟩) invertsEncoding_fromSlice
    (stored_freshDirectory 0) hdefault (show isDigest exampleDigest = true by decide) .install
    groups [] (show JournalView.empty.ids = .ok [] from rfl) (by decide)
    (validState_tooMany hsize hentries) (size_tooMany hgroups hsize hentries)
  obtain ⟨⟨_, hok⟩, hstored⟩ := hsat.nil
  have heq := recordPendingInstall_tooMany hgroups ⟨1, 0⟩
  rw [heq]
  exact ⟨_, hok, rfl, hstored⟩

theorem terminal_tooMany (m : PendingMutation) (hdigest : m.planSha256 = exampleDigest)
    (hseen : m.seenTransactionIds = []) :
    terminal tooManyJournal.load m [exampleId] = .ok (some true) := by
  have hload : tooManyJournal.load exampleId = .ok (succeededRecords exampleId exampleDigest) := rfl
  simp [terminal, hseen, hload, hdigest, verdict_succeededRecords, bind, Except.bind]

include hsize in
/-- Applying the pending installation makes one group too many. -/
theorem reconcileState_tooMany : reconcileState tooManyJournal (tooManyState groups) =
    .error (.corrupt "invalid group state bounds") := by
  have hids : tooManyJournal.ids = .ok [exampleId] := rfl
  have hpending : (tooManyState groups).pending =
    [⟨exampleDigest, .install, groups, [], []⟩] := rfl
  have hmore : groups.size ≤
      (applyInstall { tooManyState groups with pending := [] } groups []).groups.size := by
    rw [← ExtTreeMap.length_keys, ← ExtTreeMap.length_keys]
    refine (List.subperm_of_subset ExtTreeMap.nodup_keys fun id hid => ?_).length_le
    rw [ExtTreeMap.mem_keys] at hid ⊢
    exact mem_applyInstall.mpr (.inr hid)
  have hlarge : (applyInstall { tooManyState groups with pending := [] } groups []).groups.size >
      maxGroups := by
    have : maxGroups = 4096 := rfl
    omega
  simp only [reconcileState, hids, hpending, bind, Except.bind, settle,
    terminal_tooMany ⟨exampleDigest, .install, groups, [], []⟩ rfl rfl, Settling.step,
    PendingMutation.apply, validateState]
  rw [if_pos (.inr (.inl hlarge))]

end

/-- **The store can become unusable.** One call on an empty store records a plan for 4097 groups,
and is accepted. Once the plan's transaction has succeeded, no read succeeds. -/
theorem installedGroupIds_refused_after_recordPendingInstall :
    ∃ d, Reachable GroupState.fromSlice 0 (fun _ _ => True) d ∧
      tooManyJournal.Readable [exampleId] ∧
      ((installedGroupIds GroupState.fromSlice ⟨1, 0⟩ tooManyJournal).clean d).1 =
        .err (.corrupt "invalid group state bounds") := by
  obtain ⟨groups, hgroups, hsize, hentries⟩ := canonicalRecords_tooMany
  obtain ⟨d, hok, hd, hstored⟩ := stored_tooMany hgroups hsize hentries
  refine ⟨d, ?_, readable_single _ _, ?_⟩
  · exact .single (step_recordPendingInstall (stored_freshDirectory 0).read trivial hok hd)
  · have hsat : Sat (fun _ => False)
        (installedGroupIds GroupState.fromSlice ⟨1, 0⟩ tooManyJournal) d
        fun o _ => o = .err (.corrupt "invalid group state bounds") := by
      refine bind_sync_clean (sat_bind (bind_observe_clean hstored.read ?_))
      exact bind_observe_refused (reconcileState_tooMany hsize) rfl
    exact hsat.clean

end Dnfast.Group
