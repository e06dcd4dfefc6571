import Dnfast.State.Journal

/-! # The writer's limits and the reader's

`validate_entry` bounds the problems of a native result by their UTF-8 length, and `publish` bounds
the whole record. The reader bounds the text of each string as it stands in the document, where a
control character without a short escape takes six bytes and counts five. A record that the writer
published loads again exactly when its problems fit the reader's count. -/

namespace Dnfast.State

open Durable Durable.Exec
open Dnfast.Core (canonicalEncode canonicalDecode fitsFrom fitsString)

/-! ## Strings that always fit -/

theorem fitsFrom_of_printable {n : Nat} {cs : List Char}
    (h : ∀ c ∈ cs, 0x20 ≤ c.toNat ∧ c.toNat < 0x80)
    (hlen : n + cs.length ≤ Core.maxStringBytes) : fitsFrom n cs = true := by
  induction cs generalizing n with
  | nil => rfl
  | cons c cs ih =>
    obtain ⟨hlow, hhigh⟩ := h c List.mem_cons_self
    have hsize : c.utf8Size = 1 := Char.utf8Size_eq_one_iff.mpr (by
      rw [UInt32.le_iff_toNat_le]
      exact Nat.le_of_lt_succ hhigh)
    have hrest := ih (n := n + 1) (fun c' hc' => h c' (List.mem_cons_of_mem _ hc'))
      (by simp only [List.length_cons] at hlen; omega)
    have hbound : n + 1 ≤ Core.maxStringBytes := by
      simp only [List.length_cons] at hlen
      omega
    simp [fitsFrom, hsize, Nat.not_lt.mpr hlow, hrest, hbound]

theorem isLowerHex_printable {c : Char} (h : isLowerHex c = true) :
    0x20 ≤ c.toNat ∧ c.toNat < 0x80 := by
  simp only [isLowerHex, Bool.or_eq_true, Bool.and_eq_true, decide_eq_true_eq, Char.le_def,
    UInt32.le_iff_toNat_le] at h
  change (48 ≤ c.toNat ∧ c.toNat ≤ 57) ∨ (97 ≤ c.toNat ∧ c.toNat ≤ 102) at h
  omega

theorem fitsString_of_isDigest {value : String} (h : isDigest value = true) :
    fitsString value = true := by
  simp only [isDigest, Bool.and_eq_true, beq_iff_eq, List.all_eq_true] at h
  refine fitsFrom_of_printable (fun c hc => isLowerHex_printable (h.2 c hc)) ?_
  rw [h.1]
  decide

theorem fitsString_of_isUuidV7 {value : String} (h : isUuidV7 value = true) :
    fitsString value = true := by
  simp only [isUuidV7, Bool.and_eq_true, beq_iff_eq, List.all_eq_true] at h
  obtain ⟨⟨⟨hlen, hall⟩, -⟩, -⟩ := h
  refine fitsFrom_of_printable (fun c hc => ?_) (by rw [hlen]; decide)
  obtain ⟨i, hi⟩ := List.getElem?_of_mem hc
  have := hall (c, i) (List.mem_zipIdx_iff_getElem?.mpr hi)
  simp only at this
  split at this
  · rw [beq_iff_eq.mp this]
    decide
  · exact isLowerHex_printable this

/-! ## The documents of entries -/

theorem depth_toValue (e : JournalEntry) : e.toValue.depth ≤ Core.maxDepth := by
  have hstate : e.state.toValue.depth = 0 := by
    cases e.state <;> rfl
  cases hnative : e.nativeResult <;> cases hreconciliation : e.reconciliation <;>
    simp [JournalEntry.toValue, hnative, hreconciliation, optionalMember, NativeResult.toValue,
      ReconcileResult.toValue, CallbackSummary.toValue, natValue, Json.Value.depth,
      Json.Value.depthMembers, hstate, Core.maxDepth]

/-- Every string of a valid entry fits, but for the native problems and the inventory digest. -/
theorem allStrings_toValue {e : JournalEntry} (hvalid : ValidEntry e) :
    e.toValue.allStrings fitsString =
      (e.nativeResult.all (fun r => r.problems.all fitsString) &&
        e.reconciliation.all fun r => fitsString r.inventorySha256) := by
  have hstate : e.state.toValue.allStrings fitsString = true := by
    cases e.state <;> decide +kernel
  have hkeys : ∀ k ∈ ["native_result", "plan_sha256", "reconciliation", "schema_version",
      "sequence", "state", "transaction_id", "callbacks", "problems", "return_code", "database",
      "payload", "post", "pre", "pretrans", "script_log_truncated", "triggers",
      "changed_packages", "inventory_sha256", "success"], fitsString k = true := by
    decide +kernel
  simp only [List.forall_mem_cons] at hkeys
  cases hnative : e.nativeResult <;> cases hreconciliation : e.reconciliation <;>
    simp [JournalEntry.toValue, hnative, hreconciliation, optionalMember, NativeResult.toValue,
      ReconcileResult.toValue, CallbackSummary.toValue, natValue, Json.Value.allStrings,
      Json.Value.allStringsMembers, hstate, fitsString_of_isDigest hvalid.digest,
      fitsString_of_isUuidV7 hvalid.id, hkeys]

section
variable {fromSlice : List UInt8 → Except String JournalEntry} {e : JournalEntry}

/-- The reader's verdict on a record that the writer accepts. -/
theorem canonicalDecode_publishable (hserde : fromSlice (canonicalEncode e) = .ok e)
    (hpub : Publishable e) :
    canonicalDecode fromSlice (canonicalEncode e) =
      if e.nativeResult.all (fun r => r.problems.all fitsString) &&
          e.reconciliation.all fun r => fitsString r.inventorySha256
      then .ok e else .error .stringTooLarge := by
  have hsize : (canonicalEncode e).length ≤ Core.maxDocumentBytes := by
    have := hpub.size
    simp only [maxRecordBytes, Core.maxDocumentBytes] at this ⊢
    omega
  rw [Core.canonicalDecode_canonicalEncode hserde hsize (depth_toValue e)]
  rw [show (Core.Serialize.toValue e) = e.toValue from rfl, allStrings_toValue hpub.valid]

/-- An entry that the parser inverts, whose problems fit, reads back. -/
theorem readsBack_of_serde (hserde : fromSlice (canonicalEncode e) = .ok e)
    (hproblems : ∀ r ∈ e.nativeResult, ∀ problem ∈ r.problems, fitsString problem = true)
    (hdigest : ∀ r ∈ e.reconciliation, isDigest r.inventorySha256 = true) :
    ReadsBack fromSlice e := by
  intro hpub
  rw [canonicalDecode_publishable hserde hpub, if_pos]
  rw [Bool.and_eq_true, Option.all_eq_true, Option.all_eq_true]
  exact ⟨fun r hr => List.all_eq_true.mpr (hproblems r hr),
    fun r hr => fitsString_of_isDigest (hdigest r hr)⟩

end

/-! ## What the writer published -/

section
variable {fromSlice : List UInt8 → Except String JournalEntry} {d : Directory} {p : Process}
  {fates : List (Fate StateError)}

/-- A transition succeeds only on a journal that loads. -/
theorem exists_loaded_of_transition {next : TransactionState} {nativeResult : Option NativeResult}
    {reconciliation : Option ReconcileResult}
    (h : (transition fromSlice p next nativeResult reconciliation fates d).1 = .ok ()) :
    ∃ es, Loaded fromSlice p.euid d es := by
  have hsat : Sat (fun _ => True) (entries fromSlice p) d fun o _ =>
      ∀ es, o = .ok es → Loaded fromSlice p.euid d es := by
    refine sat_observe (by simp) (by simp) ?_ (by simp)
    intro es hes es' heq
    cases heq
    exact loadEntries_eq_ok.mp hes
  by_contra hnone
  have hbad : Sat (fun _ => True) (transition fromSlice p next nativeResult reconciliation) d
      fun o _ => o ≠ .ok () :=
    hsat.bind (fun es _ hes => absurd ⟨es, hes es rfl⟩ hnone) (by simp) (by simp)
  exact hbad.run fates h

theorem entries_clean (q : Process) :
    ((entries fromSlice q).clean d).1 = match loadEntries fromSlice q.euid d with
      | .ok es => .ok es
      | .error e => .err e := by
  simp only [entries, Exec.clean, Exec.observe, Exec.step, Except.map]
  cases loadEntries fromSlice q.euid d <;> rfl

theorem loaded_of_entries_clean {q : Process} {es : List JournalEntry}
    (h : ((entries fromSlice q).clean d).1 = .ok es) : Loaded fromSlice q.euid d es :=
  @loaded_of_entries fromSlice d es q [] h

/-- **Writer and reader.** When `record_rpm_result_with_problems` succeeds, a later `entries` by any
process of the same user returns the old records and the new one exactly when every problem fits the
reader's bound. -/
theorem recordRpmResult_readable_iff {returnCode : Int32} {callbacks : CallbackSummary}
    {problems : List String} {q : Process} (hq : q.euid = p.euid)
    (hok : (recordRpmResultWithProblems fromSlice p returnCode callbacks problems fates d).1 =
      .ok ()) :
    ∃ es previous, loadEntries fromSlice p.euid d = .ok es ∧ es.getLast? = some previous ∧
      let entry := previous.successor .rpmResult (some ⟨returnCode, callbacks, problems⟩) none
      let d' :=
        (recordRpmResultWithProblems fromSlice p returnCode callbacks problems fates d).2.1
      (fromSlice (canonicalEncode entry) = .ok entry →
        (((entries fromSlice q).clean d').1 = .ok (es ++ [entry]) ↔
          ∀ problem ∈ problems, fitsString problem = true)) := by
  obtain ⟨es, hloaded⟩ := exists_loaded_of_transition hok
  obtain ⟨previous, hlast, hlen⟩ := hloaded.exists_last
  refine ⟨es, previous, loadEntries_eq_ok.mpr hloaded, hlast, fun hserde => ?_⟩
  have hend := (transition_sat hloaded hlast .rpmResult (some ⟨returnCode, callbacks, problems⟩)
    none).run fates
  rw [show (transition fromSlice p .rpmResult (some ⟨returnCode, callbacks, problems⟩) none
    fates d).1 = .ok () from hok] at hend
  rcases hend with ⟨-, ⟨hcrash, -⟩ | ⟨err, herr, -⟩⟩ | ⟨hlegal, hpub, -, hp⟩
  · cases hcrash
  · cases herr
  have hdec : canonicalDecode fromSlice (canonicalEncode (previous.successor .rpmResult
      (some ⟨returnCode, callbacks, problems⟩) none)) =
      if problems.all fitsString then .ok (previous.successor .rpmResult
        (some ⟨returnCode, callbacks, problems⟩) none) else .error .stringTooLarge := by
    rw [canonicalDecode_publishable hserde hpub]
    simp [JournalEntry.successor, JournalEntry.next]
  rw [entries_clean, hq]
  constructor
  · intro hread
    cases hload : loadEntries fromSlice p.euid (recordRpmResultWithProblems fromSlice p returnCode
        callbacks problems fates d).2.1 with
    | error e => simp [hload] at hread
    | ok es' =>
      simp only [hload, Outcome.ok.injEq] at hread
      subst hread
      obtain ⟨file, hfile, hrec⟩ := (loadEntries_eq_ok.mp hload).stored _
        (List.mem_append_right _ List.mem_cons_self)
      have hdec' := hrec.decodes
      rw [hrec.bytes, hdec] at hdec'
      split at hdec'
      · rename_i hall
        exact List.all_eq_true.mp hall
      · cases hdec'
  · intro hfits
    rw [if_pos (List.all_eq_true.mpr hfits)] at hdec
    have hseq : (previous.successor .rpmResult (some ⟨returnCode, callbacks, problems⟩)
        none).sequence.toNat = es.length := hloaded.successor_sequence hlast _ _ _
    have hholds := hloaded.toHolds.published hp (endsWith_recordTemporary _ _) hseq
      (fun last hl => by
        rw [hlast] at hl
        cases hl
        exact ⟨rfl, rfl, hlegal⟩) hpub hdec
    have hload := loadEntries_eq_ok.mpr (⟨hholds, by simp⟩ : Loaded fromSlice p.euid _ (es ++ _))
    exact congrArg (fun x => match x with
      | Except.ok es => Outcome.ok es
      | Except.error e => Outcome.err e) hload

end

/-! ## Journals of a started transaction with one problem recorded -/

/-- An `RpmResult` record with one problem. -/
def problemEntry (problem : String) : JournalEntry :=
  recordOf exampleId exampleDigest .rpmResult (some ⟨0, .zero, [problem]⟩) none

def startedEntry : JournalEntry := recordOf exampleId exampleDigest .started none none

def startedRecords : List JournalEntry := [preparedEntry exampleId exampleDigest, startedEntry]

def problemParser (problem : String) : List UInt8 → Except String JournalEntry :=
  parserOf (startedRecords ++ [problemEntry problem])

theorem size_problemEntry (problem : String) :
    (canonicalEncode (problemEntry problem)).length + 2 =
      (canonicalEncode (problemEntry "")).length + (Json.renderString problem).length := by
  have hempty : (Json.renderString "").length = 2 := by decide
  have hsize : ∀ s, (canonicalEncode (problemEntry s)).length = (problemEntry s).toValue.size :=
    fun _ => rfl
  rw [hsize, hsize]
  simp only [problemEntry, recordOf, JournalEntry.next, JournalEntry.toValue, optionalMember,
    Option.map_some, Option.map_none, NativeResult.toValue, List.map_cons, List.map_nil,
    List.cons_append, List.nil_append, Json.Value.size_obj, Json.Value.size_arr,
    Json.Value.size_str, Json.Value.sizeMembers_cons, Json.Value.sizeMembers_nil,
    Json.Value.sizeElems_cons, Json.Value.sizeElems_nil, List.cons_ne_nil, if_false]
  omega

theorem length_startedRecords : (canonicalEncode (problemEntry "")).length ≤ 1000 ∧
    ∀ e ∈ startedRecords, (canonicalEncode e).length < (canonicalEncode (problemEntry "")).length := by
  decide +kernel

theorem publishable_problemEntry {problem : String}
    (hraw : problem.utf8ByteSize ≤ Core.maxStringBytes)
    (hrendered : (Json.renderString problem).length ≤ 6 * Core.maxStringBytes + 2) :
    Publishable (problemEntry problem) where
  valid := by
    refine ⟨rfl, exampleId.canonical, show isDigest exampleDigest = true by decide, rfl, ?_⟩
    simp [problemEntry, recordOf, JournalEntry.next, NativeResult.problemsExceed, hraw]
  size := by
    have hsize := size_problemEntry problem
    have hempty := length_startedRecords.1
    simp only [Core.maxStringBytes] at hrendered
    simp only [maxRecordBytes]
    omega

theorem parserOf_append {known more : List JournalEntry} {bytes : List UInt8} {e : JournalEntry}
    (h : parserOf known bytes = .ok e) : parserOf (known ++ more) bytes = .ok e := by
  unfold parserOf at h ⊢
  split at h
  · rename_i e' hfind
    rw [List.find?_append, hfind]
    exact h
  · cases h

theorem problemParser_problemEntry (problem : String) :
    problemParser problem (canonicalEncode (problemEntry problem)) =
      .ok (problemEntry problem) := by
  -- the other two records are shorter
  have hne : ∀ e ∈ startedRecords,
      ¬ (canonicalEncode e == canonicalEncode (problemEntry problem)) = true := by
    intro e he heq
    have hlen := congrArg List.length (beq_iff_eq.mp heq)
    have hlt := length_startedRecords.2 e he
    have hsize := size_problemEntry problem
    have hquotes : 2 ≤ (Json.renderString problem).length := by simp [Json.renderString]
    omega
  rw [problemParser, parserOf, List.find?_append, List.find?_eq_none.mpr hne]
  simp

theorem loaded_startedRecords (problem : String) :
    Loaded (problemParser problem) 0 (directoryOf 0 startedRecords) startedRecords := by
  have hload : loadEntries (parserOf startedRecords) 0 (directoryOf 0 startedRecords) =
      .ok startedRecords := by
    decide +kernel
  have hparse : ∀ e ∈ startedRecords, parserOf startedRecords (canonicalEncode e) = .ok e := by
    decide +kernel
  refine (loadEntries_eq_ok.mp hload).parser_congr fun e he => ?_
  rw [hparse e he, problemParser, parserOf_append (hparse e he)]

/-- Recording the problem without faults publishes the record. -/
theorem record_problem (problem : String) (hpub : Publishable (problemEntry problem)) :
    (recordRpmResultWithProblems (problemParser problem) ⟨1, 0⟩ 0 .zero [problem] []
        (directoryOf 0 startedRecords)).1 = .ok () ∧
      Directory.Published (recordTemporary 2 1) (recordName 2)
        ⟨Directory.freshStat 0, canonicalEncode (problemEntry problem)⟩
        (directoryOf 0 startedRecords)
        (recordRpmResultWithProblems (problemParser problem) ⟨1, 0⟩ 0 .zero [problem] []
          (directoryOf 0 startedRecords)).2.1 := by
  have hfree : recordTemporary 2 1 ∉ (directoryOf 0 startedRecords).files := by
    decide +kernel
  have hseq : startedEntry.sequence + 1 = 2 := rfl
  have hsucc : startedEntry.successor .rpmResult (some ⟨0, .zero, [problem]⟩) none =
      problemEntry problem := rfl
  have hlast : startedRecords.getLast? = some startedEntry := rfl
  have h := (transition_clean (p := ⟨1, 0⟩) .rpmResult (some ⟨0, .zero, [problem]⟩) none
    (loaded_startedRecords problem) hlast rfl (hsucc ▸ hpub) (hseq ▸ hfree)).nil
  rw [hsucc, hseq] at h
  simpa only [recordRpmResultWithProblems] using h

/-- A problem as the native layer reports it is recorded and read back. -/
theorem recordRpmResult_readable_diskspace :
    ((entries (problemParser "installing package needs 4MB on the / filesystem") ⟨2, 0⟩).clean
      (recordRpmResultWithProblems (problemParser "installing package needs 4MB on the / filesystem")
        ⟨1, 0⟩ 0 .zero ["installing package needs 4MB on the / filesystem"] []
        (directoryOf 0 startedRecords)).2.1).1 =
      .ok (startedRecords ++ [problemEntry "installing package needs 4MB on the / filesystem"]) := by
  have hok := (record_problem "installing package needs 4MB on the / filesystem"
    (publishable_problemEntry (by decide) (by decide))).1
  obtain ⟨es, previous, hload, hlast, hiff⟩ :=
    @recordRpmResult_readable_iff _ (directoryOf 0 startedRecords) ⟨1, 0⟩ [] _ _ _ ⟨2, 0⟩ rfl hok
  rw [loadEntries_eq_ok.mpr (loaded_startedRecords _)] at hload
  cases hload
  cases hlast
  exact (hiff (problemParser_problemEntry _)).mpr (by decide +kernel)

/-! ## A journal that its own writer makes unreadable -/

theorem fitsFrom_replicate_control {c : Char} (hs : Json.shortEscape c = none)
    (hc : c.toNat < 0x20) (n k : Nat) :
    fitsFrom n (List.replicate k c) = decide (k = 0 ∨ n + 5 * k ≤ Core.maxStringBytes) := by
  induction k generalizing n with
  | zero => simp [fitsFrom]
  | succ k ih =>
    rw [List.replicate_succ, fitsFrom]
    simp only [hs, Option.isSome_none, Bool.false_eq_true, if_false, hc, if_true, ih]
    rw [← Bool.decide_and, decide_eq_decide]
    omega

theorem length_renderString_replicate {c : Char} (hs : Json.shortEscape c = none)
    (hc : c.toNat < 0x20) (k : Nat) :
    (Json.renderString (String.ofList (List.replicate k c))).length = 6 * k + 2 := by
  simp [Json.renderString, List.length_flatMap, Json.escapeChar, hs, hc, Nat.mul_comm]

theorem utf8ByteSize_replicate {c : Char} (hc : c.utf8Size = 1) (k : Nat) :
    (String.ofList (List.replicate k c)).utf8ByteSize = k := by
  induction k with
  | zero => rfl
  | succ k ih =>
    rw [List.replicate_succ', String.ofList_append, String.utf8ByteSize_append, ih,
      ← String.singleton_eq_ofList, String.utf8ByteSize_singleton, hc]

/-- A problem of `k` control characters. -/
def controlProblem (k : Nat) : String := String.ofList (List.replicate k (Char.ofNat 1))

theorem fitsString_controlProblem {k : Nat} (hk : Core.maxStringBytes < 5 * k) :
    fitsString (controlProblem k) = false := by
  rw [fitsString, controlProblem, String.toList_ofList,
    fitsFrom_replicate_control rfl (by decide), decide_eq_false_iff_not]
  omega

theorem publishable_controlProblem {k : Nat} (hk : k ≤ Core.maxStringBytes) :
    Publishable (problemEntry (controlProblem k)) := by
  refine publishable_problemEntry ?_ ?_
  · rw [controlProblem, utf8ByteSize_replicate (by decide)]
    exact hk
  · rw [controlProblem, length_renderString_replicate rfl (by decide)]
    omega

/-- After the record of too many control characters no list of entries is returned any more. -/
theorem unreadable_of_not_fits {problem : String} (hpub : Publishable (problemEntry problem))
    (hfits : fitsString problem = false) {es : List JournalEntry} :
    ((entries (problemParser problem) ⟨2, 0⟩).clean
      (recordRpmResultWithProblems (problemParser problem) ⟨1, 0⟩ 0 .zero [problem] []
        (directoryOf 0 startedRecords)).2.1).1 ≠ .ok es := by
  intro hread
  have hloaded := loaded_of_entries_clean hread
  have hp := (record_problem _ hpub).2
  obtain ⟨e, he, hname⟩ := hloaded.complete (recordName 2) (by simp [hp.file])
    (endsWith_recordName 2)
  obtain ⟨file, hfile, hrec⟩ := hloaded.stored e he
  rw [← hname, hp.file] at hfile
  cases hfile
  have hdec := canonicalDecode_publishable (problemParser_problemEntry problem) hpub
  rw [hrec.decodes] at hdec
  simp [problemEntry, recordOf, JournalEntry.next, hfits] at hdec

/-- 209716 control characters pass the writer, and the journal cannot be read afterwards. -/
theorem record_controlProblem_unreadable :
    (recordRpmResultWithProblems (problemParser (controlProblem 209716)) ⟨1, 0⟩ 0 .zero
        [controlProblem 209716] [] (directoryOf 0 startedRecords)).1 = .ok () ∧
      ∀ es, ((entries (problemParser (controlProblem 209716)) ⟨2, 0⟩).clean
        (recordRpmResultWithProblems (problemParser (controlProblem 209716)) ⟨1, 0⟩ 0 .zero
          [controlProblem 209716] [] (directoryOf 0 startedRecords)).2.1).1 ≠ .ok es := by
  have hpub := publishable_controlProblem (k := 209716) (by simp [Core.maxStringBytes])
  exact ⟨(record_problem _ hpub).1, fun es =>
    unreadable_of_not_fits hpub (fitsString_controlProblem (by simp [Core.maxStringBytes]))⟩

end Dnfast.State
