import Mathlib.Data.Finset.Card
import Dnfast.Group.Valid

/-! # What settling a pending mutation can do

Settling takes a mutation out of the pending list and applies it or drops it. Whatever the journal
says, the state stays sound and gets no larger: not in packages, not in encoded bytes, and not in the
ids of groups that are installed or pending to be (`Shrinks`). The one bound that this does not cover
is the one on the number of installed groups, which pending groups do not count against. -/

namespace Dnfast.Group

open Std (ExtTreeMap)
open Dnfast.State (StateError TransactionId JournalEntry)
open Json (renderString)
open Json.Value (size_arr size_obj sizeElems sizeMembers)

/-! ## Totals over the map of groups -/

section
variable {w : String → List String → Nat}

/-- A weight of entries that does not grow when lists are merged. -/
structure Mergeable (w : String → List String → Nat) : Prop where
  dedup : ∀ id packages, w id packages.sortDedup ≤ w id packages
  merge : ∀ id old packages, w id (old ++ packages).sortDedup ≤ w id old + w id packages

theorem Mergeable.total_addGroup_le (h : Mergeable w) (groups : GroupMap) (id : String)
    (packages : List String) :
    (addGroup groups id packages).total w ≤ groups.total w + w id packages := by
  rw [addGroup, ExtTreeMap.total_insert, ExtTreeMap.total_eq_erase_add w groups id]
  unfold ExtTreeMap.weightAt
  cases groups[id]? with
  | none =>
    have := h.dedup id packages
    simp only [Option.getD_none, List.nil_append]
    omega
  | some old =>
    have := h.merge id old packages
    simp only [Option.getD_some]
    omega

theorem Mergeable.total_foldl_le (h : Mergeable w) (l : List (String × List String))
    (groups : GroupMap) :
    (l.foldl (fun owned (id, packages) => addGroup owned id packages) groups).total w ≤
      groups.total w + (l.map fun x => w x.1 x.2).sum := by
  induction l generalizing groups with
  | nil => simp
  | cons x l ih =>
    obtain ⟨id, packages⟩ := x
    have hstep := h.total_addGroup_le groups id packages
    rw [List.foldl_cons, List.map_cons, List.sum_cons]
    refine (ih (addGroup groups id packages)).trans ?_
    dsimp only
    omega

theorem Mergeable.total_applyInstall_le (h : Mergeable w) (s : GroupState) (groups : GroupMap)
    (introduced : List String) :
    (applyInstall s groups introduced).groups.total w ≤ s.groups.total w + groups.total w :=
  h.total_foldl_le groups.toList s.groups

theorem total_applyRemove_le (w : String → List String → Nat) (s : GroupState)
    (ids : List String) : (applyRemove s ids).groups.total w ≤ s.groups.total w := by
  have hfold : ∀ (ids : List String) (groups : GroupMap),
      (ids.foldl (fun groups id => groups.erase id) groups).total w ≤ groups.total w := by
    intro ids
    induction ids with
    | nil => simp
    | cons id ids ih =>
      intro groups
      exact (ih (groups.erase id)).trans (ExtTreeMap.total_erase_le w groups id)
  exact hfold ids s.groups

end

/-! ## Packages -/

theorem mergeable_length : Mergeable fun _ packages => packages.length where
  dedup _ packages := packages.length_sortDedup_le
  merge _ old packages := by
    have := (old ++ packages).length_sortDedup_le
    simpa using this

theorem packageCount_eq_total (groups : GroupMap) :
    GroupMap.packageCount groups = groups.total fun _ packages => packages.length := rfl

/-! ## Bytes -/

theorem sizeElems_map_str (l : List String) :
    sizeElems (l.map Json.Value.str) = (l.map fun s => (renderString s).length + 1).sum := by
  simp [sizeElems, Function.comp_def]

theorem size_strings (l : List String) :
    (strings l).size = 1 + (l.map fun s => (renderString s).length + 1).sum +
      if l = [] then 1 else 0 := by
  rw [strings, size_arr, sizeElems_map_str]
  simp

theorem sortDedup_eq_nil {l : List String} : l.sortDedup = [] ↔ l = [] := by
  simp only [List.eq_nil_iff_forall_not_mem, List.mem_sortDedup]

/-- The bytes of an entry of the map, with its colon and its comma or closing bracket. -/
def entryBytes (id : String) (packages : List String) : Nat :=
  (renderString id).length + (strings packages).size + 2

theorem mergeable_entryBytes : Mergeable entryBytes where
  dedup id packages := by
    have hsum := List.sum_map_sortDedup_le (fun s => (renderString s).length + 1) packages
    simp only [entryBytes, size_strings, sortDedup_eq_nil]
    omega
  merge id old packages := by
    have hsum := List.sum_map_sortDedup_le (fun s => (renderString s).length + 1) (old ++ packages)
    rw [List.map_append, List.sum_append] at hsum
    simp only [entryBytes, size_strings, sortDedup_eq_nil, List.append_eq_nil_iff]
    split <;> omega

theorem size_groupsValue (groups : GroupMap) :
    (groupsValue groups).size = 1 + groups.total entryBytes + if groups.isEmpty then 1 else 0 := by
  rw [groupsValue, size_obj]
  congr 1
  · congr 1
    simp [sizeMembers, ExtTreeMap.total, entryBytes, Function.comp_def]
  · simp [← ExtTreeMap.isEmpty_toList]

/-- The bytes of `introduced_packages`. -/
def introducedBytes (packages : List String) : Nat := sizeMembers (introducedMember packages)

theorem introducedBytes_eq (packages : List String) :
    introducedBytes packages = if packages = [] then 0
      else 24 + (packages.map fun s => (renderString s).length + 1).sum := by
  have hkey : (renderString "introduced_packages").length = 21 := by decide
  cases packages with
  | nil => rfl
  | cons p ps =>
    simp [introducedBytes, introducedMember, sizeMembers, size_strings, hkey]
    omega

theorem introducedBytes_merge (old added : List String) :
    introducedBytes (old ++ added).sortDedup ≤ introducedBytes old + introducedBytes added := by
  have hsum := List.sum_map_sortDedup_le (fun s => (renderString s).length + 1) (old ++ added)
  rw [List.map_append, List.sum_append] at hsum
  simp only [introducedBytes_eq, sortDedup_eq_nil, List.append_eq_nil_iff]
  rcases old.eq_nil_or_concat with rfl | ⟨_, _, rfl⟩ <;>
    rcases added.eq_nil_or_concat with rfl | ⟨_, _, rfl⟩ <;> simp at hsum ⊢ <;> omega

theorem introducedBytes_filter (packages : List String) (keep : String → Bool) :
    introducedBytes (packages.filter keep) ≤ introducedBytes packages := by
  have hsum : ((packages.filter keep).map fun s => (renderString s).length + 1).sum ≤
      (packages.map fun s => (renderString s).length + 1).sum :=
    (packages.filter_sublist.map _).sum_le_sum fun _ _ => Nat.zero_le _
  simp only [introducedBytes_eq]
  by_cases h : packages = []
  · simp [h]
  · simp only [h, if_false]
    split <;> omega

/-- The bytes of the pending list. -/
def pendingBytes (pending : List PendingMutation) : Nat :=
  (pending.map fun m => m.toValue.size + 1).sum

theorem size_toValue (s : GroupState) :
    s.toValue.size = 41 + (groupsValue s.groups).size + introducedBytes s.introducedPackages +
      pendingBytes s.pending + (if s.pending = [] then 1 else 0) +
      (Json.renderInt s.schemaVersion.toNat).length := by
  have hkeys : (renderString "groups").length = 8 ∧ (renderString "pending").length = 9 ∧
      (renderString "schema_version").length = 16 := by
    decide
  rw [GroupState.toValue, size_obj, if_neg (by simp)]
  simp only [sizeMembers, List.map_cons, List.map_append, List.sum_cons, List.sum_append,
    List.map_nil, List.sum_nil, size_arr, Json.Value.size_num, hkeys, pendingBytes, sizeElems,
    introducedBytes, List.map_map, Function.comp_def, List.map_eq_nil_iff]
  omega

theorem size_mutation (m : PendingMutation) :
    m.toValue.size = 58 + (groupsValue m.groups).size + introducedBytes m.introducedPackages +
      m.kind.toValue.size + (renderString m.planSha256).length +
      (strings m.seenTransactionIds).size := by
  have hkeys : (renderString "groups").length = 8 ∧ (renderString "kind").length = 6 ∧
      (renderString "plan_sha256").length = 13 ∧
      (renderString "seen_transaction_ids").length = 22 := by
    decide
  rw [PendingMutation.toValue, size_obj, if_neg (by simp)]
  simp only [sizeMembers, List.map_cons, List.map_append, List.sum_cons, List.sum_append,
    List.map_nil, List.sum_nil, Json.Value.size_str, hkeys, introducedBytes]
  omega

theorem le_size_mutation (m : PendingMutation) :
    (groupsValue m.groups).size + introducedBytes m.introducedPackages ≤ m.toValue.size := by
  rw [size_mutation]
  omega

/-! ## Group ids -/

/-- The ids of the groups that are installed or that a pending mutation would install. -/
def GroupState.groupIds (s : GroupState) : Finset String :=
  (s.groups.keys ++ (s.pending.filter (·.kind = .install)).flatMap fun m => m.groups.keys).toFinset

theorem mem_groupIds {s : GroupState} {id : String} :
    id ∈ s.groupIds ↔ id ∈ s.groups ∨ ∃ m ∈ s.pending, m.kind = .install ∧ id ∈ m.groups := by
  simp [GroupState.groupIds, ExtTreeMap.mem_keys, and_assoc]

theorem size_groups_le_card (s : GroupState) : s.groups.size ≤ s.groupIds.card := by
  have hkeys : s.groups.keys.toFinset.card = s.groups.size := by
    rw [List.toFinset_card_of_nodup ExtTreeMap.nodup_keys, ExtTreeMap.length_keys]
  rw [← hkeys]
  refine Finset.card_le_card fun id hid => ?_
  rw [mem_groupIds]
  exact .inl (ExtTreeMap.mem_keys.mp (List.mem_toFinset.mp hid))

theorem mem_applyInstall {s : GroupState} {groups : GroupMap} {introduced : List String}
    {id : String} :
    id ∈ (applyInstall s groups introduced).groups ↔ id ∈ s.groups ∨ id ∈ groups := by
  simp only [ExtTreeMap.mem_iff_isSome_getElem?]
  cases hg : groups[id]? with
  | none => simp [applyInstall_of_not_mem s hg]
  | some added => simp [applyInstall_of_mem s hg]

theorem mem_of_mem_applyRemove {s : GroupState} {ids : List String} {id : String}
    (h : id ∈ (applyRemove s ids).groups) : id ∈ s.groups := by
  rw [ExtTreeMap.mem_iff_isSome_getElem?, applyRemove_groups] at h
  rw [ExtTreeMap.mem_iff_isSome_getElem?]
  split at h
  · cases h
  · exact h

/-! ## One mutation -/

/-- `s'` is sound and no larger than `s`. -/
structure Shrinks (s s' : GroupState) : Prop where
  sound : Sound s'
  packages : s'.packageCount ≤ s.packageCount
  bytes : s'.toValue.size ≤ s.toValue.size
  ids : s'.groupIds ⊆ s.groupIds
  pending : s'.pending.Sublist s.pending

theorem Shrinks.refl {s : GroupState} (h : Sound s) : Shrinks s s :=
  ⟨h, Nat.le_refl _, Nat.le_refl _, Finset.Subset.refl _, List.Sublist.refl _⟩

theorem Shrinks.trans {s s' s'' : GroupState} (h : Shrinks s s') (h' : Shrinks s' s'') :
    Shrinks s s'' :=
  ⟨h'.sound, h'.packages.trans h.packages, h'.bytes.trans h.bytes, h'.ids.trans h.ids,
    h'.pending.trans h.pending⟩

section
variable {s : GroupState} {m : PendingMutation} {before rest : List PendingMutation}

theorem pendingBytes_append (before rest : List PendingMutation) :
    pendingBytes (before ++ rest) = pendingBytes before + pendingBytes rest := by
  simp [pendingBytes]

theorem pendingBytes_cons (m : PendingMutation) (rest : List PendingMutation) :
    pendingBytes (m :: rest) = m.toValue.size + 1 + pendingBytes rest := by
  simp [pendingBytes]

theorem packageCount_pending (s : GroupState) (pending : List PendingMutation) :
    ({ s with pending := pending } : GroupState).packageCount =
      GroupMap.packageCount s.groups + s.introducedPackages.length +
      (pending.map fun m => GroupMap.packageCount m.groups + m.introducedPackages.length).sum := by
  simp only [GroupState.packageCount, List.sum_map_add]
  omega

theorem flag_le (c : Prop) [Decidable c] : (if c then 1 else 0) ≤ 1 := by
  split <;> omega

theorem sublist_drop (m : PendingMutation) (before rest : List PendingMutation) :
    (before ++ rest).Sublist (before ++ m :: rest) :=
  (List.sublist_cons_self m rest).append_left before

theorem groupIds_drop (groups : GroupMap) (hgroups : ∀ id, id ∈ groups → id ∈ s.groups ∨
      (m.kind = .install ∧ id ∈ m.groups)) (introduced : List String) :
    ({ s with groups := groups, introducedPackages := introduced,
              pending := before ++ rest } : GroupState).groupIds ⊆
      ({ s with pending := before ++ m :: rest } : GroupState).groupIds := by
  intro id hid
  rw [mem_groupIds] at hid ⊢
  rcases hid with hid | ⟨m', hm', hkind, hid⟩
  · rcases hgroups id hid with hid | ⟨hkind, hid⟩
    · exact .inl hid
    · exact .inr ⟨m, by simp, hkind, hid⟩
  · exact .inr ⟨m', (sublist_drop m before rest).subset hm', hkind, hid⟩

theorem Sound.drop (h : Sound { s with pending := before ++ m :: rest }) :
    Sound { s with pending := before ++ rest } :=
  ⟨h.schema, h.groups, h.introduced, h.owned,
    fun m' hm' => h.pending m' ((sublist_drop m before rest).subset hm')⟩

/-- A mutation that failed is dropped. -/
theorem shrinks_drop (h : Sound { s with pending := before ++ m :: rest }) :
    Shrinks { s with pending := before ++ m :: rest } { s with pending := before ++ rest } := by
  refine ⟨h.drop, ?_, ?_, groupIds_drop s.groups (fun id hid => .inl hid) s.introducedPackages,
    sublist_drop m before rest⟩
  · simp only [packageCount_pending, List.map_append, List.map_cons, List.sum_append, List.sum_cons]
    omega
  · simp only [size_toValue, pendingBytes_append, pendingBytes_cons]
    split <;> split <;> omega

/-- A mutation that succeeded is applied. -/
theorem shrinks_apply (h : Sound { s with pending := before ++ m :: rest }) :
    Shrinks { s with pending := before ++ m :: rest }
      { m.apply s with pending := before ++ rest } := by
  have hm : ValidMutation m := h.pending m (by simp)
  have hsound : Sound { m.apply s with pending := before ++ rest } := by
    have := h.drop.apply hm
    unfold PendingMutation.apply at this ⊢
    cases hkind : m.kind <;> simp only [hkind] at this ⊢ <;> exact this
  have hmsize := le_size_mutation m
  refine ⟨hsound, ?_, ?_, ?_, sublist_drop m before rest⟩
  · simp only [packageCount_pending, List.map_append, List.map_cons, List.sum_append, List.sum_cons]
    cases hkind : m.kind with
    | install =>
      have hgroups := mergeable_length.total_applyInstall_le s m.groups m.introducedPackages
      have hintro := (s.introducedPackages ++ m.introducedPackages).length_sortDedup_le
      rw [List.length_append] at hintro
      simp only [PendingMutation.apply, hkind, packageCount_eq_total]
      simp only [applyInstall] at hgroups ⊢
      omega
    | remove =>
      have hgroups := total_applyRemove_le (fun _ packages => packages.length) s m.groups.keys
      have hintro : (applyRemove s m.groups.keys).introducedPackages.length ≤
          s.introducedPackages.length := List.length_filter_le ..
      simp only [PendingMutation.apply, hkind, packageCount_eq_total]
      omega
  · simp only [size_toValue, pendingBytes_append, pendingBytes_cons]
    rw [if_neg (show ¬ before ++ m :: rest = [] by simp)]
    cases hkind : m.kind with
    | install =>
      have hgroups := mergeable_entryBytes.total_applyInstall_le s m.groups m.introducedPackages
      have hintro := introducedBytes_merge s.introducedPackages m.introducedPackages
      have hschema : (applyInstall s m.groups m.introducedPackages).schemaVersion =
        s.schemaVersion := rfl
      have hintro' : (applyInstall s m.groups m.introducedPackages).introducedPackages =
        (s.introducedPackages ++ m.introducedPackages).sortDedup := rfl
      simp only [PendingMutation.apply, hkind, size_groupsValue, hschema, hintro'] at hmsize ⊢
      have := flag_le (before ++ rest = [])
      have := flag_le ((applyInstall s m.groups m.introducedPackages).groups.isEmpty = true)
      omega
    | remove =>
      have hgroups := total_applyRemove_le entryBytes s m.groups.keys
      have hintro : introducedBytes (applyRemove s m.groups.keys).introducedPackages ≤
          introducedBytes s.introducedPackages := introducedBytes_filter ..
      have hschema : (applyRemove s m.groups.keys).schemaVersion = s.schemaVersion := rfl
      simp only [PendingMutation.apply, hkind, size_groupsValue, hschema] at hmsize ⊢
      have := flag_le (before ++ rest = [])
      have := flag_le ((applyRemove s m.groups.keys).groups.isEmpty = true)
      omega
  · cases hkind : m.kind with
    | install =>
      simp only [PendingMutation.apply, hkind]
      exact groupIds_drop _ (fun id hid => (mem_applyInstall.mp hid).imp_right fun h => ⟨hkind, h⟩) _
    | remove =>
      simp only [PendingMutation.apply, hkind]
      exact groupIds_drop _ (fun id hid => .inl (mem_of_mem_applyRemove hid)) _

end

/-! ## All mutations -/

/-- The state with the mutations that the loop has kept and those it has not reached. -/
def Settling.full (x : Settling) (rest : List PendingMutation) : GroupState :=
  { x.state with pending := x.retained ++ rest }

theorem Settling.shrinks_step (x : Settling) {m : PendingMutation} {rest : List PendingMutation}
    (h : Sound (x.full (m :: rest))) (result : Option Bool) :
    Shrinks (x.full (m :: rest)) ((x.step m result).full rest) := by
  match result with
  | some true => exact shrinks_apply h
  | some false => exact shrinks_drop h
  | none =>
    have heq : (x.step m none).full rest = x.full (m :: rest) := by
      simp [Settling.full, Settling.step]
    rw [heq]
    exact .refl h

/-- The journal can be read. -/
structure JournalView.Readable (journal : JournalView) (ids : List TransactionId) : Prop where
  listed : journal.ids = .ok ids
  loads : ∀ id ∈ ids, ∃ entries, journal.load id = .ok entries

theorem terminal_eq_ok {load : TransactionId → Except StateError (List JournalEntry)}
    {m : PendingMutation} {ids : List TransactionId}
    (h : ∀ id ∈ ids, ∃ entries, load id = .ok entries) :
    ∃ result, terminal load m ids = .ok result := by
  induction ids with
  | nil => exact ⟨none, rfl⟩
  | cons id ids ih =>
    obtain ⟨result, hresult⟩ := ih fun i hi => h i (List.mem_cons_of_mem _ hi)
    obtain ⟨entries, hentries⟩ := h id List.mem_cons_self
    unfold terminal
    split
    · exact ⟨result, hresult⟩
    · simp only [hentries, bind, Except.bind]
      split
      · exact ⟨_, rfl⟩
      · exact ⟨result, hresult⟩

/-- The loop ends, and shrinks the state. -/
theorem settle_shrinks {load : TransactionId → Except StateError (List JournalEntry)}
    {ids : List TransactionId} (pending : List PendingMutation) (x : Settling)
    (h : Sound (x.full pending)) :
    ∀ y, settle load ids pending x = .ok y → Shrinks (x.full pending) (y.full []) := by
  induction pending generalizing x with
  | nil =>
    rintro y ⟨⟩
    exact .refl h
  | cons m rest ih =>
    intro y hy
    unfold settle at hy
    cases hresult : terminal load m ids with
    | error e => simp [hresult, bind, Except.bind] at hy
    | ok result =>
      simp only [hresult, bind, Except.bind] at hy
      have hstep := x.shrinks_step h result
      exact hstep.trans (ih _ hstep.sound y hy)

theorem settle_eq_ok {load : TransactionId → Except StateError (List JournalEntry)}
    {ids : List TransactionId} (h : ∀ id ∈ ids, ∃ entries, load id = .ok entries)
    (pending : List PendingMutation) (x : Settling) : ∃ y, settle load ids pending x = .ok y := by
  induction pending generalizing x with
  | nil => exact ⟨x, rfl⟩
  | cons m rest ih =>
    obtain ⟨result, hresult⟩ := terminal_eq_ok (m := m) h
    obtain ⟨y, hy⟩ := ih (x.step m result)
    exact ⟨y, by simp [settle, hresult, bind, Except.bind, hy]⟩

theorem reconcileState_shrinks {journal : JournalView} {s s' : GroupState} {changed : Bool}
    (h : Sound s) (heq : reconcileState journal s = .ok (s', changed)) :
    Shrinks s s' ∧ ValidState s' := by
  unfold reconcileState at heq
  cases hids : journal.ids with
  | error e => simp [hids, bind, Except.bind] at heq
  | ok ids =>
    simp only [hids, bind, Except.bind] at heq
    cases hy : settle journal.load ids s.pending ⟨{ s with pending := [] }, [], false⟩ with
    | error e => simp [hy] at heq
    | ok y =>
      simp only [hy] at heq
      cases hvalid : validateState { y.state with pending := y.retained } with
      | error e => simp [hvalid] at heq
      | ok u =>
        simp only [hvalid, Except.ok.injEq, Prod.mk.injEq] at heq
        obtain ⟨rfl, -⟩ := heq
        have hshrinks := settle_shrinks s.pending ⟨{ s with pending := [] }, [], false⟩ h y hy
        simp only [Settling.full, List.append_nil, List.nil_append] at hshrinks
        exact ⟨hshrinks, validateState_eq_ok.mp hvalid⟩

/-- A valid state whose installed and pending groups are within the bound reconciles with every
journal that can be read. -/
theorem reconcileState_eq_ok {journal : JournalView} {ids : List TransactionId} {s : GroupState}
    (hjournal : journal.Readable ids) (h : ValidState s) (hids : s.groupIds.card ≤ maxGroups) :
    ∃ s' changed, reconcileState journal s = .ok (s', changed) := by
  obtain ⟨y, hy⟩ := settle_eq_ok hjournal.loads s.pending ⟨{ s with pending := [] }, [], false⟩
  have hshrinks := settle_shrinks s.pending ⟨{ s with pending := [] }, [], false⟩ h.toSound y hy
  simp only [Settling.full, List.append_nil, List.nil_append] at hshrinks
  have hvalid : ValidState { y.state with pending := y.retained } := by
    refine ⟨hshrinks.sound, ?_, ?_, hshrinks.packages.trans h.packages⟩
    · exact (size_groups_le_card _).trans ((Finset.card_le_card hshrinks.ids).trans hids)
    · exact hshrinks.pending.length_le.trans h.pendingCount
  refine ⟨{ y.state with pending := y.retained }, y.changed, ?_⟩
  simp [reconcileState, hjournal.listed, hy, bind, Except.bind, validateState_eq_ok.mpr hvalid]

end Dnfast.Group
