import Dnfast.State.Limits

/-! # Records of the program itself

The records that the program writes on its own account are small, and all of their strings but the
native problems are ASCII. So they are always publishable, and they read back whenever the parser
inverts the encoding on them (`readsBack_of_serde`). -/

namespace Dnfast.State

open Dnfast.Core (canonicalEncode canonicalDecode fitsFrom fitsString)
open Json (renderString renderNat renderInt)

/-! ## Strings that always fit -/

theorem fitsFrom_of_length {n : Nat} {cs : List Char}
    (h : n + 5 * cs.length ≤ Core.maxStringBytes) : fitsFrom n cs = true := by
  induction cs generalizing n with
  | nil => rfl
  | cons c cs ih =>
    simp only [List.length_cons] at h
    rw [fitsFrom]
    split
    · exact ih (by omega)
    · have hsize : (if c.toNat < 0x20 then 5 else c.utf8Size) ≤ 5 := by
        have := c.utf8Size_le_four
        split <;> omega
      rw [Bool.and_eq_true, decide_eq_true_eq]
      exact ⟨by omega, ih (by omega)⟩

theorem length_toList_le (s : String) : s.toList.length ≤ s.utf8ByteSize := by
  have key : ∀ cs : List Char, cs.length ≤ (String.ofList cs).utf8ByteSize := by
    intro cs
    induction cs with
    | nil => simp
    | cons c cs ih =>
      have := c.utf8Size_pos
      rw [← List.singleton_append, String.ofList_append, String.utf8ByteSize_append,
        ← String.singleton_eq_ofList, String.utf8ByteSize_singleton, List.length_append,
        List.length_singleton]
      omega
  simpa using key s.toList

theorem utf8ByteSize_le (s : String) : s.utf8ByteSize ≤ 4 * s.toList.length := by
  have key : ∀ cs : List Char, (String.ofList cs).utf8ByteSize ≤ 4 * cs.length := by
    intro cs
    induction cs with
    | nil => simp
    | cons c cs ih =>
      have := c.utf8Size_le_four
      rw [← List.singleton_append, String.ofList_append, String.utf8ByteSize_append,
        ← String.singleton_eq_ofList, String.utf8ByteSize_singleton, List.length_append,
        List.length_singleton]
      omega
  simpa using key s.toList

theorem fitsString_of_utf8ByteSize {s : String}
    (h : 5 * s.utf8ByteSize ≤ Core.maxStringBytes) : fitsString s = true := by
  have := length_toList_le s
  exact fitsFrom_of_length (by omega)

/-! ## Sizes -/

theorem length_escapeChar_le (c : Char) : (Json.escapeChar c).length ≤ 6 := by
  unfold Json.escapeChar
  split
  · simp
  · split
    · simp
    · rw [String.length_utf8EncodeChar]
      have := c.utf8Size_le_four
      omega

theorem length_renderString_le (s : String) :
    (renderString s).length ≤ 6 * s.toList.length + 2 := by
  have h : (s.toList.flatMap Json.escapeChar).length ≤ 6 * s.toList.length := by
    induction s.toList with
    | nil => simp
    | cons c cs ih =>
      have := length_escapeChar_le c
      simp only [List.flatMap_cons, List.length_append, List.length_cons]
      omega
  simp only [renderString, List.length_cons, List.length_append, List.length_nil]
  omega

theorem length_renderNat_le {n : Nat} (h : n < 2 ^ 64) : (renderNat n).length ≤ 20 := by
  rw [renderNat, List.length_map]
  exact (Nat.length_toDigits_le_iff (by decide) (by decide)).mpr (by omega)

theorem length_renderInt_le {n : Int} (h : n.natAbs < 2 ^ 64) : (renderInt n).length ≤ 21 := by
  cases n with
  | ofNat n =>
    have := length_renderNat_le (n := n) h
    simp only [renderInt]
    omega
  | negSucc n =>
    have := length_renderNat_le (n := n + 1) h
    simp only [renderInt, List.length_cons]
    omega

theorem size_natValue_le (n : UInt64) : (natValue n.toNat).size ≤ 21 := by
  rw [natValue, Json.Value.size_num]
  exact length_renderInt_le n.toNat_lt

theorem size_callbacks_le (c : CallbackSummary) : c.toValue.size ≤ 500 := by
  have hkeys : (renderString "database").length = 10 ∧ (renderString "payload").length = 9 ∧
      (renderString "post").length = 6 ∧ (renderString "pre").length = 5 ∧
      (renderString "pretrans").length = 10 ∧
      (renderString "script_log_truncated").length = 22 ∧
      (renderString "triggers").length = 10 := by
    decide
  have h1 := size_natValue_le c.database
  have h2 := size_natValue_le c.payload
  have h3 := size_natValue_le c.post
  have h4 := size_natValue_le c.pre
  have h5 := size_natValue_le c.pretrans
  have h6 := size_natValue_le c.triggers
  have h7 := Json.Value.size_bool_le c.scriptLogTruncated
  simp only [CallbackSummary.toValue, Json.Value.size_obj, Json.Value.sizeMembers_cons,
    Json.Value.sizeMembers_nil, List.cons_ne_nil, if_false]
  omega

theorem size_nativeResult_le {r : NativeResult} (h : r.problems = []) :
    r.toValue.size ≤ 600 := by
  have hkeys : (renderString "callbacks").length = 11 ∧ (renderString "problems").length = 10 ∧
      (renderString "return_code").length = 13 := by
    decide
  have hcallbacks := size_callbacks_le r.callbacks
  have hcode : (Json.Value.num r.returnCode.toInt).size ≤ 21 := by
    rw [Json.Value.size_num]
    refine length_renderInt_le ?_
    have h1 := Int32.toInt_lt r.returnCode
    have h2 := Int32.le_toInt r.returnCode
    omega
  simp only [NativeResult.toValue, h, List.map_nil, Json.Value.size_obj, Json.Value.size_arr,
    Json.Value.sizeMembers_cons, Json.Value.sizeMembers_nil, Json.Value.sizeElems_nil,
    List.cons_ne_nil, if_false, if_true]
  omega

theorem length_toList_of_isDigest {value : String} (h : isDigest value = true) :
    value.toList.length = 64 := by
  simp only [isDigest, Bool.and_eq_true, beq_iff_eq] at h
  exact h.1

theorem size_reconciliation_le {r : ReconcileResult} (h : isDigest r.inventorySha256 = true) :
    r.toValue.size ≤ 600 := by
  have hkeys : (renderString "changed_packages").length = 18 ∧
      (renderString "inventory_sha256").length = 18 ∧ (renderString "success").length = 9 := by
    decide
  have hchanged := size_natValue_le r.changedPackages
  have hsuccess := Json.Value.size_bool_le r.success
  have hdigest := length_renderString_le r.inventorySha256
  rw [length_toList_of_isDigest h] at hdigest
  simp only [ReconcileResult.toValue, Json.Value.size_obj, Json.Value.size_str,
    Json.Value.sizeMembers_cons, Json.Value.sizeMembers_nil, List.cons_ne_nil, if_false]
  omega

/-- A record without native problems. -/
structure PlainRecord (nativeResult : Option NativeResult) (reconciliation : Option ReconcileResult) :
    Prop where
  problems : ∀ r ∈ nativeResult, r.problems = []
  digest : ∀ r ∈ reconciliation, isDigest r.inventorySha256 = true

theorem sizeMembers_append (ms ms' : List (String × Json.Value)) :
    Json.Value.sizeMembers (ms ++ ms') =
      Json.Value.sizeMembers ms + Json.Value.sizeMembers ms' := by
  simp [Json.Value.sizeMembers]

theorem sizeMembers_optionalMember_le (key : String) {v : Option Json.Value} {n : Nat}
    (hv : ∀ x ∈ v, x.size ≤ n) :
    Json.Value.sizeMembers (optionalMember key v) ≤ (renderString key).length + n + 2 := by
  cases v with
  | none => simp [optionalMember]
  | some x =>
    have := hv x rfl
    simp [optionalMember]
    omega

theorem length_recordOf_le (id : TransactionId) {planSha256 : String}
    (hdigest : isDigest planSha256 = true) (state : TransactionState)
    {nativeResult : Option NativeResult} {reconciliation : Option ReconcileResult}
    (h : PlainRecord nativeResult reconciliation) :
    (canonicalEncode (recordOf id planSha256 state nativeResult reconciliation)).length ≤
      maxRecordBytes := by
  have hkeys : (renderString "native_result").length = 15 ∧
      (renderString "plan_sha256").length = 13 ∧ (renderString "reconciliation").length = 16 ∧
      (renderString "schema_version").length = 16 ∧ (renderString "sequence").length = 10 ∧
      (renderString "state").length = 7 ∧ (renderString "transaction_id").length = 16 := by
    decide
  have hid := length_renderString_le id.asStr
  have hidlen : id.asStr.toList.length = 36 := by
    have := id.canonical
    simp only [isUuidV7, Bool.and_eq_true, beq_iff_eq] at this
    exact this.1.1.1
  have hplan := length_renderString_le planSha256
  rw [length_toList_of_isDigest hdigest] at hplan
  have hstate : state.toValue.size ≤ 20 := by cases state <;> decide
  have hseq := size_natValue_le state.index
  have hschema : (natValue (1 : UInt32).toNat).size ≤ 21 := by decide
  have hnative : ∀ x ∈ nativeResult.map NativeResult.toValue, x.size ≤ 600 := by
    intro x hx
    obtain ⟨r, hr, rfl⟩ := Option.mem_map.mp hx
    exact size_nativeResult_le (h.problems r hr)
  have hreconciliation : ∀ x ∈ reconciliation.map ReconcileResult.toValue, x.size ≤ 600 := by
    intro x hx
    obtain ⟨r, hr, rfl⟩ := Option.mem_map.mp hx
    exact size_reconciliation_le (h.digest r hr)
  have h1 := sizeMembers_optionalMember_le "native_result" hnative
  have h2 := sizeMembers_optionalMember_le "reconciliation" hreconciliation
  change (recordOf id planSha256 state nativeResult reconciliation).toValue.size ≤ _
  simp only [recordOf, JournalEntry.next, preparedEntry, JournalEntry.toValue,
    Json.Value.size_obj, Json.Value.size_str, sizeMembers_append, Json.Value.sizeMembers_cons,
    Json.Value.sizeMembers_nil, maxRecordBytes]
  split <;> omega

/-! ## Records that can be written and read back -/

/-- The payload fits the state. -/
def PayloadFits (state : TransactionState) (nativeResult : Option NativeResult)
    (reconciliation : Option ReconcileResult) : Bool :=
  match state with
  | .prepared | .started => nativeResult.isNone && reconciliation.isNone
  | .rpmResult => nativeResult.isSome && reconciliation.isNone
  | .reconciled => nativeResult.isNone && reconciliation.isSome

theorem publishable_recordOf (id : TransactionId) {planSha256 : String}
    (hdigest : isDigest planSha256 = true) {state : TransactionState}
    {nativeResult : Option NativeResult} {reconciliation : Option ReconcileResult}
    (hpayload : PayloadFits state nativeResult reconciliation = true)
    (h : PlainRecord nativeResult reconciliation) :
    Publishable (recordOf id planSha256 state nativeResult reconciliation) where
  valid := by
    refine ⟨rfl, id.canonical, hdigest, ?_, ?_⟩
    · cases state <;> exact hpayload
    · cases nativeResult with
      | none => rfl
      | some r =>
        have := h.problems r rfl
        simp [recordOf, JournalEntry.next, NativeResult.problemsExceed, this]
  size := length_recordOf_le id hdigest state h

theorem preparedEntry_eq_recordOf (id : TransactionId) (planSha256 : String) :
    preparedEntry id planSha256 = recordOf id planSha256 .prepared none none := rfl

end Dnfast.State
