import Dnfast.Reason.Records
import Dnfast.State.Records

/-! # The reason state on disk

What a successful `record_success` leaves (`recordSuccess_ok`), and which stored states can be read
back: a valid state, when its document is within the reader's 16 MiB (`readState_of_file`). -/

namespace Dnfast.Reason

open Durable Durable.Exec
open Dnfast.Core (PackageReason InstalledInventory PlanEnvelope SolverPolicy canonicalEncode
  fitsString)
open Dnfast.State
open Dnfast.State.Directory (freshStat Published)
open Json (Value)

section
variable {fromSlice : List UInt8 → Except String ReasonState} {p : Process} {d d' : Directory}
  {s s' : ReasonState} {before after : InstalledInventory} {plan : PlanEnvelope}
  {policy : SolverPolicy}

theorem decodeState_eq_ok {bytes : List UInt8} (h : decodeState fromSlice bytes = .ok s) :
    ValidState s ∧ canonicalEncode s = bytes := by
  unfold decodeState at h
  split at h
  · cases h
  · simp only [Except.check_bind_eq_ok, Except.refuseIf_eq_ok, not_not, Except.ok.injEq] at h
    obtain ⟨hbytes, hvalid, rfl⟩ := h
    exact ⟨validateState_eq_ok.mp hvalid, hbytes⟩

/-- What is read is valid. -/
theorem readState_valid {euid : UInt32} (h : readState fromSlice euid d = .ok s) :
    ValidState s := by
  obtain ⟨bytes, -, h⟩ := Except.bind_eq_ok.mp h
  cases bytes with
  | none =>
    cases h
    exact validState_default
  | some bytes => exact (decodeState_eq_ok h).1

/-- `d'` is `d` with the state `s` written. -/
structure Wrote (p : Process) (s : ReasonState) (d d' : Directory) : Prop where
  valid : ValidState s
  size : (canonicalEncode s).length ≤ maxStateBytes
  published : Published (replacementTemporary stateFile p.pid) stateFile
    ⟨freshStat p.euid, canonicalEncode s⟩ d d'

/-- What is left of a successful write. A write that nothing disturbs succeeds when the state is
valid and small enough and only files are in the way. -/
def WriteEnd (A : Fate StateError → Prop) (p : Process) (s : ReasonState) (d : Directory) :
    Outcome StateError Unit → Directory → Prop
  | .ok _, d' => Wrote p s d d'
  | .err _, _ => (∃ e, A (.fail e)) ∨ ¬ (ValidState s ∧
      (canonicalEncode s).length ≤ maxStateBytes ∧
      Replaceable d (replacementTemporary stateFile p.pid) ∧ Replaceable d stateFile)
  | .crashed, _ => A .die

theorem writeState_sat {A : Fate StateError → Prop} (p : Process) (s : ReasonState)
    (d : Directory) : Sat A (writeState p s) d (WriteEnd A p s d) := by
  refine sat_bind (sat_lift ?_ ?_)
  · intro _ hvalid
    have hv := validateState_eq_ok.mp hvalid
    simp only [Then]
    split
    · next hlarge => exact sat_throw (.inr fun h => absurd h.2.1 (Nat.not_le.mpr hlarge))
    · next hsize =>
      refine (writeAtomicReplacing_sat p stateFile (canonicalEncode s) d).mono ?_
      rintro (_ | e | _) d' h
      · exact ⟨hv, Nat.not_lt.mp hsize, h.2⟩
      · refine h.1.imp_right ?_
        rintro (hnot | hnot) hw
        · exact hnot hw.2.2.1
        · exact hnot hw.2.2.2
      · exact h.1
  · intro e hinvalid
    refine .inr fun h => ?_
    rw [validateState_eq_ok.mpr h.1] at hinvalid
    cases hinvalid

/-- Where `record_success` may end on a directory. -/
def RecordEnd (fromSlice : List UInt8 → Except String ReasonState) (p : Process)
    (before after : InstalledInventory) (plan : PlanEnvelope) (policy : SolverPolicy)
    (d : Directory) : Outcome StateError Unit → Directory → Prop
  | .ok _, d' => ∃ s s', readState fromSlice p.euid d = .ok s ∧
      recordedState s before after plan policy = .ok s' ∧ Wrote p s' d d'
  | _, _ => True

theorem recordSuccess_sat {A : Fate StateError → Prop} :
    Sat A (recordSuccess fromSlice p before after plan policy) d
      (RecordEnd fromSlice p before after plan policy d) := by
  refine sat_bind (sat_sync (fun _ => trivial) (fun _ _ => trivial) ?_)
  simp only [Then]
  refine sat_bind (sat_observe (fun _ => trivial) (fun _ _ => trivial) ?_ fun _ _ => trivial)
  intro s hread
  simp only [Then]
  refine sat_bind (sat_lift ?_ fun _ _ => trivial)
  intro s' hrecorded
  simp only [Then]
  refine (writeState_sat p s' d).mono ?_
  rintro (_ | e | _) d' h
  · exact ⟨s, s', hread, hrecorded, h⟩
  · trivial
  · trivial

/-- A successful call has read a state and written what the transaction records over it. -/
theorem recordSuccess_ok {fates : List (Fate StateError)}
    (hread : readState fromSlice p.euid d = .ok s)
    (hrun : (recordSuccess fromSlice p before after plan policy fates d).1 = .ok ()) :
    ∃ s', recordedState s before after plan policy = .ok s' ∧
      Wrote p s' d (recordSuccess fromSlice p before after plan policy fates d).2.1 := by
  have hend : RecordEnd fromSlice p before after plan policy d _ _ := recordSuccess_sat.run fates
  rw [hrun] at hend
  obtain ⟨s₁, s', hread₁, hrecorded, hwrote⟩ := hend
  rw [hread] at hread₁
  cases hread₁
  exact ⟨s', hrecorded, hwrote⟩

end

/-! ## Reading back -/

theorem fitsString_keys : ∀ key ∈ ["records", "schema_version", "db_instance", "header_sha256",
    "package_name", "reason"], fitsString key = true := by
  decide +kernel

theorem fitsString_reason (reason : PackageReason) : fitsString reason.asStr = true := by
  cases reason <;> decide +kernel

theorem fitsString_header {value : String} (h : Core.isLowerDigest value = true) :
    fitsString value = true := by
  simp only [Core.isLowerDigest, Bool.and_eq_true, beq_iff_eq] at h
  have hsize := utf8ByteSize_le value
  rw [h.1] at hsize
  refine fitsString_of_utf8ByteSize (le_trans (Nat.mul_le_mul_left 5 hsize) ?_)
  decide

theorem ReasonRecord.allStrings {r : ReasonRecord} (h : r.wellFormed = true) :
    r.toValue.allStrings fitsString = true := by
  simp only [wellFormed, Bool.and_eq_true, decide_eq_true_eq] at h
  obtain ⟨⟨⟨⟨-, hheader⟩, -⟩, hsize⟩, -⟩ := h
  have hkeys := fitsString_keys
  simp only [List.forall_mem_cons] at hkeys
  have hname : fitsString r.packageName = true :=
    fitsString_of_utf8ByteSize (le_trans (Nat.mul_le_mul_left 5 hsize) (by decide))
  simp [toValue, Value.allStrings, Value.allStringsMembers, hkeys, fitsString_header hheader,
    hname, fitsString_reason]

theorem ValidState.allStrings {s : ReasonState} (h : ValidState s) :
    s.toValue.allStrings fitsString = true := by
  have hkeys := fitsString_keys
  simp only [List.forall_mem_cons] at hkeys
  have hrecords : Value.allStringsElems fitsString (s.records.map ReasonRecord.toValue) = true := by
    rw [Json.Value.allStringsElems_eq_true]
    intro v hv
    obtain ⟨r, hr, rfl⟩ := List.mem_map.mp hv
    exact r.allStrings (h.wellFormed r hr)
  simp [ReasonState.toValue, Value.allStrings, Value.allStringsMembers, hkeys, hrecords]

theorem ReasonState.depth_toValue_le (s : ReasonState) : s.toValue.depth ≤ Core.maxDepth := by
  have hrecords : Value.depthElems (s.records.map ReasonRecord.toValue) ≤ 1 := by
    refine Json.Value.depthElems_le fun v hv => ?_
    obtain ⟨r, -, rfl⟩ := List.mem_map.mp hv
    exact le_refl 1
  have hdepth : s.toValue.depth =
      Value.depthElems (s.records.map ReasonRecord.toValue) + 1 + 1 := rfl
  rw [hdepth]
  exact (Nat.add_le_add_right hrecords 2).trans (by decide)

/-- The parser inverts the encoder on reason states. -/
def InvertsEncoding (fromSlice : List UInt8 → Except String ReasonState) : Prop :=
  ∀ s : ReasonState, fromSlice (canonicalEncode s) = .ok s

section
variable {fromSlice : List UInt8 → Except String ReasonState} {p : Process} {d d' : Directory}
  {s s' : ReasonState} {euid : UInt32} {before after : InstalledInventory} {plan : PlanEnvelope}
  {policy : SolverPolicy}

theorem readState_of_file (hserde : InvertsEncoding fromSlice) (hs : ValidState s)
    (hsize : (canonicalEncode s).length ≤ Core.maxDocumentBytes)
    (hfile : d.files[stateFile]? = some ⟨freshStat euid, canonicalEncode s⟩) :
    readState fromSlice euid d = .ok s := by
  have hread : d.readOptionalBounded euid stateFile maxStateBytes =
      .ok (some (canonicalEncode s)) := by
    have hbound : (canonicalEncode s).length ≤ maxStateBytes := hsize.trans (by decide)
    simp [Directory.readOptionalBounded, Directory.openRead, hfile, bind, Except.bind,
      Nat.not_lt.mpr hbound]
  have hdecode := (Core.canonicalDecode_canonicalEncode_iff s.depth_toValue_le).mpr
    ⟨hsize, hs.allStrings, hserde s⟩
  rw [readState, hread]
  simp [bind, Except.bind, decodeState, hdecode, Except.refuseIf, validateState_eq_ok.mpr hs]

theorem readState_of_absent (hfile : d.files[stateFile]? = none) :
    readState fromSlice euid d = .ok .default := by
  have hread : d.readOptionalBounded euid stateFile maxStateBytes = .ok none := by
    simp [Directory.readOptionalBounded, Directory.openRead, hfile]
  rw [readState, hread]
  rfl

/-- The directory holds the state `s` and nothing but regular files of the user. -/
structure Stored (fromSlice : List UInt8 → Except String ReasonState) (euid : UInt32)
    (d : Directory) (s : ReasonState) : Prop where
  read : readState fromSlice euid d = .ok s
  fresh : AllFresh euid d

theorem stored_freshDirectory (euid : UInt32) :
    Stored fromSlice euid (Root.freshDirectory euid) .default := by
  refine ⟨readState_of_absent (by simp [Root.freshDirectory]), ?_⟩
  intro name file hfile
  simp [Root.freshDirectory] at hfile

theorem Wrote.stored (hserde : InvertsEncoding fromSlice) (hd : AllFresh p.euid d)
    (h : Wrote p s d d') (hsize : (canonicalEncode s).length ≤ Core.maxDocumentBytes) :
    Stored fromSlice p.euid d' s :=
  ⟨readState_of_file hserde h.valid hsize h.published.file, hd.published h.published⟩

/-- The call ended well and left the state `s`. -/
def RecordsState (fromSlice : List UInt8 → Except String ReasonState) (euid : UInt32)
    (s : ReasonState) (outcome : Outcome StateError Unit) (d : Directory) : Prop :=
  outcome = .ok () ∧ Stored fromSlice euid d s

/-- A call that nothing disturbs succeeds when the state it writes is valid and can be read. -/
theorem recordSuccess_clean (hserde : InvertsEncoding fromSlice)
    (hd : Stored fromSlice p.euid d s)
    (hrecorded : recordedState s before after plan policy = .ok s') (hs' : ValidState s')
    (hsize : (canonicalEncode s').length ≤ Core.maxDocumentBytes) :
    Sat (fun _ => False) (recordSuccess fromSlice p before after plan policy) d
      (RecordsState fromSlice p.euid s') := by
  refine bind_sync_clean (bind_observe_clean hd.read (sat_bind (sat_lift ?_ ?_)))
  · intro t ht
    rw [hrecorded] at ht
    cases ht
    simp only [Then]
    refine (writeState_sat p s' d).mono ?_
    rintro (_ | e | _) d' h
    · exact ⟨rfl, h.stored hserde hd.fresh hsize⟩
    · rcases h with ⟨_, hfail⟩ | hnot
      · exact hfail.elim
      · exact absurd ⟨hs', hsize.trans (by decide), hd.fresh.replaceable _,
          hd.fresh.replaceable _⟩ hnot
    · exact h.elim
  · intro e he
    rw [hrecorded] at he
    cases he

end

end Dnfast.Reason
