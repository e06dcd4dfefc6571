import Dnfast.Group.Settle
import Dnfast.Group.Store
import Dnfast.State.Records

/-! # The group state on disk

What `read` accepts it can read again after it was written: a state that the store validates and
whose seen transaction ids fit the reader's bound (`Storable`) reads back from its canonical bytes.
Every state that `read` returns is of that kind. -/

namespace Dnfast.Group

open Durable Durable.Exec
open Std (ExtTreeMap)
open Dnfast.State
open Dnfast.Core (canonicalEncode canonicalDecode fitsString)
open Dnfast.State.Directory (freshStat Scratched Published Interrupted)
open Json (Value)
open Json.Value (depthElems_le depthMembers_le allStringsElems_eq_true allStringsMembers_eq_true)

/-! ## The document of a group state -/

theorem depth_strings (l : List String) : (strings l).depth = 1 := by
  simp [strings, Value.depth]

theorem depth_groupsValue_le (groups : GroupMap) : (groupsValue groups).depth ≤ 2 := by
  simp only [groupsValue, Value.depth]
  refine Nat.succ_le_succ (depthMembers_le ?_)
  simp only [List.mem_map]
  rintro _ ⟨x, -, rfl⟩
  exact (depth_strings x.2).le

theorem depth_introducedMember_le (packages : List String) :
    ∀ m ∈ introducedMember packages, m.2.depth ≤ 2 := by
  intro m hm
  unfold introducedMember at hm
  split at hm
  · cases hm
  · obtain rfl := List.mem_singleton.mp hm
    exact (depth_strings packages).le.trans (by decide)

theorem depth_mutation_le (m : PendingMutation) : m.toValue.depth ≤ 3 := by
  simp only [PendingMutation.toValue, Value.depth]
  refine Nat.succ_le_succ (depthMembers_le ?_)
  simp only [List.mem_cons, List.mem_append, List.not_mem_nil, or_false]
  rintro x (rfl | hx | rfl | rfl | rfl)
  · exact depth_groupsValue_le m.groups
  · exact depth_introducedMember_le m.introducedPackages x hx
  · cases m.kind <;> exact Nat.zero_le _
  · exact Nat.zero_le _
  · exact (depth_strings m.seenTransactionIds).le.trans (by decide)

theorem GroupState.depth_toValue_le (s : GroupState) : s.toValue.depth ≤ Core.maxDepth := by
  refine Nat.le_trans ?_ (show 5 ≤ Core.maxDepth by decide)
  simp only [GroupState.toValue, Value.depth]
  refine Nat.succ_le_succ (depthMembers_le ?_)
  simp only [List.mem_cons, List.mem_append, List.not_mem_nil, or_false]
  rintro x (rfl | hx | rfl | rfl)
  · exact (depth_groupsValue_le s.groups).trans (by decide)
  · exact (depth_introducedMember_le s.introducedPackages x hx).trans (by decide)
  · simp only [Value.depth]
    refine Nat.succ_le_succ (depthElems_le ?_)
    simp only [List.mem_map]
    rintro _ ⟨m, -, rfl⟩
    exact depth_mutation_le m
  · exact Nat.zero_le _

theorem allStrings_strings {p : String → Bool} {l : List String} :
    (strings l).allStrings p = true ↔ ∀ v ∈ l, p v = true := by
  simp [strings, Value.allStrings]

theorem fitsString_of_validId {value : String} (h : validId value = true) :
    fitsString value = true := by
  simp only [validId, Bool.and_eq_true, decide_eq_true_eq] at h
  refine fitsString_of_utf8ByteSize ?_
  have hmax : Core.maxStringBytes = 1048576 := rfl
  omega

theorem SortedIds.allStrings {l : List String} (h : SortedIds l) :
    (strings l).allStrings fitsString = true :=
  allStrings_strings.mpr fun v hv => fitsString_of_validId (h.valid v hv)

theorem ValidGroups.allStrings {groups : GroupMap} (h : ValidGroups groups) :
    (groupsValue groups).allStrings fitsString = true := by
  simp only [groupsValue, Value.allStrings, allStringsMembers_eq_true, List.mem_map]
  rintro _ ⟨⟨id, packages⟩, hmem, rfl⟩
  obtain ⟨hid, hpackages⟩ := h id packages (ExtTreeMap.mem_toList_iff_getElem?_eq_some.mp hmem)
  exact ⟨fitsString_of_validId hid, hpackages.allStrings⟩

theorem allStrings_introducedMember {packages : List String} (h : SortedIds packages) :
    ∀ m ∈ introducedMember packages, fitsString m.1 = true ∧ m.2.allStrings fitsString = true := by
  intro m hm
  unfold introducedMember at hm
  split at hm
  · cases hm
  · obtain rfl := List.mem_singleton.mp hm
    exact ⟨show fitsString "introduced_packages" = true by decide +kernel, h.allStrings⟩

theorem fitsString_keys : ∀ key ∈ ["groups", "kind", "plan_sha256", "seen_transaction_ids",
    "pending", "schema_version", "install", "remove"], fitsString key = true := by
  decide +kernel

/-- The seen transaction ids of all pending mutations fit. They are the only strings of a valid
state that may not. -/
def SeenFit (s : GroupState) : Prop :=
  ∀ m ∈ s.pending, ∀ id ∈ m.seenTransactionIds, fitsString id = true

theorem seenFit_of_allStrings {s : GroupState} (h : s.toValue.allStrings fitsString = true) :
    SeenFit s := by
  intro m hm
  simp only [GroupState.toValue, Value.allStrings, allStringsMembers_eq_true] at h
  have hpending := (h ("pending", .arr (s.pending.map PendingMutation.toValue)) (by simp)).2
  rw [Value.allStrings, allStringsElems_eq_true] at hpending
  have hmutation := hpending m.toValue (List.mem_map_of_mem hm)
  simp only [PendingMutation.toValue, Value.allStrings, allStringsMembers_eq_true] at hmutation
  exact allStrings_strings.mp
    (hmutation ("seen_transaction_ids", strings m.seenTransactionIds) (by simp)).2

theorem ValidMutation.allStrings {m : PendingMutation} (h : ValidMutation m)
    (hseen : ∀ id ∈ m.seenTransactionIds, fitsString id = true) :
    m.toValue.allStrings fitsString = true := by
  have hkeys := fitsString_keys
  simp only [List.forall_mem_cons] at hkeys
  have hkind : m.kind.toValue.allStrings fitsString = true := by
    cases m.kind <;> simp [MutationKind.toValue, Value.allStrings, hkeys]
  simp only [PendingMutation.toValue, Value.allStrings, allStringsMembers_eq_true, List.mem_cons,
    List.mem_append, List.not_mem_nil, or_false]
  rintro x (rfl | hx | rfl | rfl | rfl)
  · exact ⟨hkeys.1, h.groups.allStrings⟩
  · exact allStrings_introducedMember h.introduced x hx
  · exact ⟨hkeys.2.1, hkind⟩
  · exact ⟨hkeys.2.2.1, fitsString_of_isDigest h.digest⟩
  · exact ⟨hkeys.2.2.2.1, allStrings_strings.mpr hseen⟩

theorem Sound.allStrings {s : GroupState} (h : Sound s) (hseen : SeenFit s) :
    s.toValue.allStrings fitsString = true := by
  have hkeys := fitsString_keys
  simp only [List.forall_mem_cons] at hkeys
  simp only [GroupState.toValue, Value.allStrings, allStringsMembers_eq_true, List.mem_cons,
    List.mem_append, List.not_mem_nil, or_false]
  rintro x (rfl | hx | rfl | rfl)
  · exact ⟨hkeys.1, h.groups.allStrings⟩
  · exact allStrings_introducedMember h.introduced x hx
  · refine ⟨hkeys.2.2.2.2.1, ?_⟩
    simp only [Value.allStrings, allStringsElems_eq_true, List.mem_map]
    rintro _ ⟨m, hm, rfl⟩
    exact (h.pending m hm).allStrings (hseen m hm)
  · exact ⟨hkeys.2.2.2.2.2.1, rfl⟩

/-! ## Reading -/

/-- A state that the store writes and reads back. -/
structure Storable (s : GroupState) : Prop extends ValidState s where
  seen : SeenFit s

theorem storable_default : Storable .default :=
  ⟨validState_default, by simp [SeenFit, GroupState.default]⟩

section
variable {fromSlice : List UInt8 → Except String GroupState} {euid : UInt32} {d d' : Directory}
  {s : GroupState}

theorem canonicalDecode_allStrings {bytes : List UInt8}
    (h : canonicalDecode fromSlice bytes = .ok s) : s.toValue.allStrings fitsString = true := by
  unfold canonicalDecode at h
  cases hinspect : Core.inspect bytes with
  | error e => simp [hinspect, bind, Except.bind] at h
  | ok u =>
    simp only [hinspect, bind, Except.bind] at h
    split at h
    · cases h
    · split at h
      · rename_i value _ hcanonical
        cases h
        by_contra hstrings
        -- the bytes are the rendering, whose inspection decides about its strings
        have hsize : s.toValue.size ≤ Core.maxDocumentBytes := by
          change (canonicalEncode s).length ≤ _
          rw [hcanonical]
          by_contra hlarge
          simp [Core.inspect, Nat.not_le.mp hlarge] at hinspect
        have hrender := Core.inspect_render s.toValue hsize s.depth_toValue_le
        rw [if_neg hstrings, show s.toValue.render = bytes from hcanonical, hinspect] at hrender
        cases hrender
      · cases h

theorem seenFit_migrate {stored : GroupState} (h : SeenFit stored)
    (hmigrate : migrate stored = .ok s) : SeenFit s := by
  unfold migrate at hmigrate
  split at hmigrate
  · cases hmigrate
    intro m hm
    obtain ⟨m', hm', rfl⟩ := List.mem_map.mp hm
    have := h m' hm'
    split <;> exact this
  · split at hmigrate
    · cases hmigrate
      exact h
    · cases hmigrate

theorem decodeState_storable {bytes : List UInt8} (h : decodeState fromSlice bytes = .ok s) :
    Storable s := by
  unfold decodeState at h
  split at h
  · cases h
  · rename_i stored hdecode
    split at h
    · cases h
    · cases hmigrate : migrate stored with
      | error e => simp [hmigrate, bind, Except.bind] at h
      | ok state =>
        simp only [hmigrate, bind, Except.bind] at h
        cases hvalid : validateState state with
        | error e => simp [hvalid] at h
        | ok u =>
          simp only [hvalid, Except.ok.injEq] at h
          subst h
          exact ⟨validateState_eq_ok.mp hvalid,
            seenFit_migrate (seenFit_of_allStrings (canonicalDecode_allStrings hdecode)) hmigrate⟩

/-- Every state that is read can be written and read again. -/
theorem readState_storable (h : readState fromSlice euid d = .ok s) : Storable s := by
  unfold readState at h
  cases hread : d.readOptionalBounded euid stateFile maxStateBytes with
  | error e => simp [hread, bind, Except.bind] at h
  | ok bytes =>
    cases bytes with
    | none =>
      simp only [hread, bind, Except.bind, Except.ok.injEq] at h
      exact h ▸ storable_default
    | some bytes =>
      simp only [hread, bind, Except.bind] at h
      exact decodeState_storable h

theorem decodeState_canonicalEncode (hserde : fromSlice (canonicalEncode s) = .ok s)
    (h : Storable s) (hsize : (canonicalEncode s).length ≤ maxStateBytes) :
    decodeState fromSlice (canonicalEncode s) = .ok s := by
  have hbound : (canonicalEncode s).length ≤ Core.maxDocumentBytes := hsize.trans (by decide)
  have hdecode : canonicalDecode fromSlice (canonicalEncode s) = .ok s := by
    rw [Core.canonicalDecode_canonicalEncode hserde hbound s.depth_toValue_le, if_pos]
    exact h.toSound.allStrings h.seen
  have hmigrate : migrate s = .ok s := by
    simp [migrate, h.schema]
  simp [decodeState, hdecode, hmigrate, bind, Except.bind, validateState_eq_ok.mpr h.toValidState]

theorem readState_of_file (hserde : fromSlice (canonicalEncode s) = .ok s) (h : Storable s)
    (hsize : (canonicalEncode s).length ≤ maxStateBytes)
    (hfile : d.files[stateFile]? = some ⟨freshStat euid, canonicalEncode s⟩) :
    readState fromSlice euid d = .ok s := by
  have hread : d.readOptionalBounded euid stateFile maxStateBytes =
      .ok (some (canonicalEncode s)) := by
    simp [Directory.readOptionalBounded, Directory.openRead, hfile, bind, Except.bind,
      Nat.not_lt.mpr hsize]
  simp only [readState, hread, bind, Except.bind]
  exact decodeState_canonicalEncode hserde h hsize

theorem readState_of_absent (hfile : d.files[stateFile]? = none) :
    readState fromSlice euid d = .ok .default := by
  have hread : d.readOptionalBounded euid stateFile maxStateBytes = .ok none := by
    simp [Directory.readOptionalBounded, Directory.openRead, hfile]
  simp [readState, hread, bind, Except.bind]

/-- Reading depends on the state file only. -/
theorem readState_congr (h : d'.files[stateFile]? = d.files[stateFile]?) :
    readState fromSlice euid d' = readState fromSlice euid d := by
  simp only [readState, Directory.readOptionalBounded, Directory.openRead, h]

/-- What could be read is a regular file, which a rename can replace. -/
theorem replaceable_of_readState (h : readState fromSlice euid d = .ok s) :
    Replaceable d stateFile := by
  intro old hold
  cases hread : d.readOptionalBounded euid stateFile maxStateBytes with
  | error e => simp [readState, hread, bind, Except.bind] at h
  | ok bytes =>
    simp only [Directory.readOptionalBounded, Directory.openRead, hold] at hread
    split at hread
    · rename_i file hopen
      split at hopen
      · cases hopen
      · cases hopen
        cases hverify : verify euid old.stat false true with
        | error e => simp [hverify, bind, Except.bind] at hread
        | ok u =>
          by_contra hdir
          simp only [Stat.isDirectory, Bool.not_eq_false, beq_iff_eq] at hdir
          have hkind : (0o040000 : UInt32) ≠ 0o100000 := by decide
          simp [verify, hdir, hkind] at hverify
    · rename_i e hopen
      split at hopen
      · cases hopen
        have hloop : errno .loop ≠ errno .noent := by decide
        rw [if_neg hloop] at hread
        cases hread
      · cases hopen

end

end Dnfast.Group
