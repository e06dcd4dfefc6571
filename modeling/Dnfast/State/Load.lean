import Dnfast.State.FsLemmas
import Dnfast.State.Store

/-! # What `load_entries` accepts

`loadEntries_eq_ok` says once which directories load and to which list (`Loaded`): the record files
are exactly those of the list, each decodes to its entry, sequences count from zero, and neighbours
are legal transitions of one transaction. Everything about loading is derived from it. -/

namespace Dnfast.State

open Dnfast.Core (canonicalEncode canonicalDecode)

/-! ## Validation of one entry and of neighbours -/

/-- The content of `validate_entry`. -/
structure ValidEntry (e : JournalEntry) : Prop where
  schema : e.schemaVersion = 1
  id : isUuidV7 e.transactionId = true
  digest : isDigest e.planSha256 = true
  payload : e.payloadMatches = true
  problems : e.nativeResult.any NativeResult.problemsExceed = false

theorem validateDigest_eq_ok {value : String} :
    validateDigest value = .ok () ↔ isDigest value = true := by
  unfold validateDigest
  split <;> simp_all

theorem validateEntry_eq_ok {e : JournalEntry} : validateEntry e = .ok () ↔ ValidEntry e := by
  constructor
  · intro h
    unfold validateEntry at h
    split at h
    · cases h
    · rename_i hschema
      unfold TransactionId.parse at h
      split at h
      · rename_i hid
        unfold validateDigest at h
        split at h
        · rename_i hdigest
          simp only [bind, Except.bind] at h
          split at h
          · cases h
          · rename_i hpayload
            split at h
            · cases h
            · rename_i hproblems
              exact ⟨not_not.mp hschema, hid, hdigest, by simpa using hpayload,
                by simpa using hproblems⟩
        · cases h
      · cases h
  · rintro ⟨hschema, hid, hdigest, hpayload, hproblems⟩
    simp [validateEntry, hschema, TransactionId.parse, hid, validateDigest, hdigest, hpayload,
      hproblems, bind, Except.bind]

theorem ValidEntry.reconciliation_of_reconciled {e : JournalEntry} (h : ValidEntry e)
    (hstate : e.state = .reconciled) : ∃ result, e.reconciliation = some result := by
  have hpayload := h.payload
  simp only [JournalEntry.payloadMatches, hstate, Bool.and_eq_true, Option.isSome_iff_exists]
    at hpayload
  exact hpayload.2

/-- The content of `validate_pair`. -/
structure Follows (previous next : JournalEntry) : Prop where
  id : previous.transactionId = next.transactionId
  digest : previous.planSha256 = next.planSha256
  legal : previous.state.legal next.state = true

theorem validatePair_eq_ok {previous next : JournalEntry} :
    validatePair previous next = .ok () ↔ Follows previous next := by
  unfold validatePair
  simp only [ite_eq_right_iff, reduceCtorEq, imp_false, not_or, not_not]
  exact ⟨fun h => ⟨h.1.1, h.1.2, h.2⟩, fun h => ⟨⟨h.id, h.digest⟩, h.legal⟩⟩

theorem validatePairs_eq_ok {es : List JournalEntry} :
    validatePairs es = .ok () ↔ es.IsChain Follows := by
  induction es with
  | nil => simp [validatePairs]
  | cons e es ih =>
    cases es with
    | nil => simp [validatePairs]
    | cons e' es =>
      rw [List.isChain_cons_cons, ← ih, ← validatePair_eq_ok, validatePairs]
      cases h : validatePair e e' <;> simp [bind, Except.bind]

/-! ## The loop -/

section
variable {fromSlice : List UInt8 → Except String JournalEntry} {euid : UInt32} {d d' : Directory}

/-- The file `name` of the directory is the record of `e`. -/
structure Record (fromSlice : List UInt8 → Except String JournalEntry) (euid : UInt32)
    (file : File) (e : JournalEntry) : Prop where
  link : file.stat.isSymlink = false
  stat : verify euid file.stat false true = .ok ()
  size : file.bytes.length ≤ maxRecordBytes
  decodes : canonicalDecode fromSlice file.bytes = .ok e
  bytes : file.bytes = canonicalEncode e
  valid : ValidEntry e

theorem canonicalEncode_of_decode {α : Type} [Core.Serialize α]
    {fromSlice : List UInt8 → Except String α} {bytes : List UInt8} {a : α}
    (h : canonicalDecode fromSlice bytes = .ok a) : canonicalEncode a = bytes := by
  unfold canonicalDecode at h
  cases hi : Core.inspect bytes with
  | error e => simp [hi, bind, Except.bind] at h
  | ok u =>
    simp only [hi, bind, Except.bind] at h
    split at h
    · cases h
    · split at h
      · rename_i heq
        cases h
        exact heq
      · cases h

theorem loadRecord_eq_ok {name : String} {e : JournalEntry} :
    loadRecord fromSlice euid d name = .ok e ↔
      ∃ file, d.files[name]? = some file ∧ Record fromSlice euid file e := by
  constructor
  · intro h
    unfold loadRecord Directory.readBounded Directory.openRead at h
    cases hfile : d.files[name]? with
    | none => simp [hfile, bind, Except.bind] at h
    | some file =>
      simp only [hfile, bind, Except.bind] at h
      cases hlink : file.stat.isSymlink with
      | true => simp [hlink] at h
      | false =>
        simp only [hlink, Bool.false_eq_true, if_false] at h
        cases hstat : verify euid file.stat false true with
        | error e => simp [hstat] at h
        | ok u =>
          simp only [hstat] at h
          by_cases hsize : file.bytes.length > maxRecordBytes
          · simp [hsize] at h
          · simp only [if_neg hsize] at h
            cases hdec : canonicalDecode fromSlice file.bytes with
            | error err => simp [hdec] at h
            | ok e' =>
              have hbytes := canonicalEncode_of_decode hdec
              simp only [hdec, hbytes, ne_eq, not_true_eq_false, if_false] at h
              cases hv : validateEntry e' with
              | error err => simp [hv, Except.map] at h
              | ok u =>
                simp only [hv, Except.map, Except.ok.injEq] at h
                subst h
                exact ⟨file, rfl, hlink, hstat, by omega, hdec, hbytes.symm,
                  validateEntry_eq_ok.mp hv⟩
  · rintro ⟨file, hfile, hrec⟩
    unfold loadRecord Directory.readBounded Directory.openRead
    have hv := validateEntry_eq_ok.mpr hrec.valid
    simp [hfile, hrec.link, hrec.stat, Nat.not_lt.mpr hrec.size, hrec.decodes, ← hrec.bytes, hv,
      bind, Except.bind, Except.map]

/-- The record file of `e` is in place. -/
def Stored (fromSlice : List UInt8 → Except String JournalEntry) (euid : UInt32) (d : Directory)
    (e : JournalEntry) : Prop :=
  ∃ file, d.files[recordName e.sequence]? = some file ∧ Record fromSlice euid file e

theorem loadRecords_eq_ok {names : List String} {before records : List JournalEntry} :
    loadRecords fromSlice euid d names before = .ok records ↔
      ∃ read, records = before ++ read ∧ names = read.map (fun e => recordName e.sequence) ∧
        (∀ e ∈ read, Stored fromSlice euid d e) ∧
        (∀ e ∈ read, e.sequence ∉ before.map (·.sequence)) ∧
        (read.map (·.sequence)).Nodup := by
  induction names generalizing before with
  | nil =>
    constructor
    · intro h
      simp only [loadRecords, Except.ok.injEq] at h
      exact ⟨[], by simp [h]⟩
    · rintro ⟨read, rfl, hnames, -⟩
      have hread : read = [] := by simpa using hnames
      simp [loadRecords, hread]
  | cons name names ih =>
    constructor
    · intro h
      unfold loadRecords at h
      cases hload : loadRecord fromSlice euid d name with
      | error err => simp [hload, bind, Except.bind] at h
      | ok e =>
        simp only [hload, bind, Except.bind] at h
        split at h
        · cases h
        · rename_i hcheck
          obtain ⟨hname, hfresh⟩ := not_or.mp hcheck
          obtain rfl := not_not.mp hname
          obtain ⟨read, rfl, rfl, hstored, hnew, hnodup⟩ := ih.mp h
          refine ⟨e :: read, by simp, rfl, ?_, ?_, ?_⟩
          · rintro e' (_ | ⟨_, he'⟩)
            · exact loadRecord_eq_ok.mp hload
            · exact hstored e' he'
          · rintro e' (_ | ⟨_, he'⟩)
            · exact hfresh
            · exact fun hmem => hnew e' he' (by simp [List.mem_map.mp hmem])
          · refine List.nodup_cons.mpr ⟨fun hmem => ?_, hnodup⟩
            obtain ⟨e', he', heq⟩ := List.mem_map.mp hmem
            exact hnew e' he' (by simp [heq])
    · rintro ⟨read, rfl, hnames, hstored, hnew, hnodup⟩
      cases read with
      | nil => simp at hnames
      | cons e read =>
        simp only [List.map_cons, List.cons.injEq] at hnames
        obtain ⟨rfl, rfl⟩ := hnames
        have hload := loadRecord_eq_ok.mpr (hstored e List.mem_cons_self)
        have hfresh := hnew e List.mem_cons_self
        obtain ⟨hhead, hnodup⟩ := List.nodup_cons.mp hnodup
        have hrest : loadRecords fromSlice euid d (read.map fun e => recordName e.sequence)
            (before ++ [e]) = .ok (before ++ e :: read) := by
          refine ih.mpr ⟨read, by simp, rfl, fun e' he' => hstored e' (List.mem_cons_of_mem _ he'),
            fun e' he' hmem => ?_, hnodup⟩
          rw [List.map_append, List.mem_append] at hmem
          rcases hmem with hmem | hmem
          · exact hnew e' (List.mem_cons_of_mem _ he') hmem
          · rw [List.map_singleton, List.mem_singleton] at hmem
            exact hhead (List.mem_map.mpr ⟨e', he', hmem⟩)
        simp [loadRecords, hload, hfresh, hrest, bind, Except.bind]

/-! ## The whole list -/

/-- The record files of the directory are those of the list `es`. -/
structure Holds (fromSlice : List UInt8 → Except String JournalEntry) (euid : UInt32)
    (d : Directory) (es : List JournalEntry) : Prop where
  sequences : es.map (fun e => e.sequence.toNat) = List.range es.length
  stored : ∀ e ∈ es, Stored fromSlice euid d e
  complete : ∀ name : String, d.files[name]? ≠ none → endsWith name ".json" = true →
    ∃ e ∈ es, name = recordName e.sequence
  chain : es.IsChain Follows

/-- The directory loads to the list `es`. -/
structure Loaded (fromSlice : List UInt8 → Except String JournalEntry) (euid : UInt32)
    (d : Directory) (es : List JournalEntry) : Prop extends Holds fromSlice euid d es where
  nonempty : es ≠ []

theorem Holds.sequence_at {es : List JournalEntry} (h : Holds fromSlice euid d es) {i : Nat}
    {e : JournalEntry} (he : es[i]? = some e) : e.sequence.toNat = i := by
  have hi := (List.getElem?_eq_some_iff.mp he).1
  have hat : (es.map fun e => e.sequence.toNat)[i]? = some i := by
    rw [h.sequences]
    exact List.getElem?_range hi
  rw [List.getElem?_map, he] at hat
  exact Option.some.inj hat

theorem sequence_nodup {es : List JournalEntry}
    (h : es.map (fun e => e.sequence.toNat) = List.range es.length) :
    (es.map (·.sequence)).Nodup := by
  refine List.Nodup.of_map UInt64.toNat ?_
  rw [List.map_map, show UInt64.toNat ∘ (fun e : JournalEntry => e.sequence) =
    fun e : JournalEntry => e.sequence.toNat from rfl, h]
  exact List.nodup_range

theorem Stored.unique {e e' : JournalEntry} (h : Stored fromSlice euid d e)
    (h' : Stored fromSlice euid d e') (hseq : e.sequence = e'.sequence) : e = e' := by
  obtain ⟨file, hfile, hrec⟩ := h
  obtain ⟨file', hfile', hrec'⟩ := h'
  rw [hseq, hfile'] at hfile
  cases hfile
  exact Except.ok.inj (hrec.decodes.symm.trans hrec'.decodes)

theorem mem_recordNames {name : String} :
    name ∈ recordNames d ↔ d.files[name]? ≠ none ∧ endsWith name ".json" = true := by
  rw [recordNames, List.mem_filter, Directory.mem_childNames]

theorem nodup_recordNames (d : Directory) : (recordNames d).Nodup :=
  Std.ExtTreeMap.nodup_keys.filter _

theorem zipIdx_any_eq_false {es : List JournalEntry} {n : Nat} :
    (es.zipIdx n).any (fun (entry, index) => entry.sequence.toNat != index) = false ↔
      es.map (fun e => e.sequence.toNat) = List.range' n es.length := by
  induction es generalizing n with
  | nil => simp
  | cons e es ih =>
    simp [List.zipIdx_cons, ih, List.range'_succ]

/-- Names that are all names of entries of `es` are the names of a list of entries of `es`. -/
theorem exists_map_recordName (es : List JournalEntry) (names : List String)
    (h : ∀ name ∈ names, ∃ e ∈ es, name = recordName e.sequence) :
    ∃ read : List JournalEntry, names = read.map (fun e => recordName e.sequence) ∧
      ∀ e ∈ read, e ∈ es := by
  induction names with
  | nil => exact ⟨[], by simp⟩
  | cons name names ih =>
    obtain ⟨e, he, rfl⟩ := h name List.mem_cons_self
    obtain ⟨read, hread, hmem⟩ := ih fun n hn => h n (List.mem_cons_of_mem _ hn)
    exact ⟨e :: read, by simp [hread], by simpa [he] using hmem⟩

/-- The records in the order of their names, sorted by sequence, are the list that is loaded. -/
theorem Loaded.exists_read {es : List JournalEntry} (h : Loaded fromSlice euid d es) :
    ∃ read : List JournalEntry, recordNames d = read.map (fun e => recordName e.sequence) ∧
      (∀ e ∈ read, Stored fromSlice euid d e) ∧ (read.map (·.sequence)).Nodup ∧
      read.insertionSort (fun a b => a.sequence ≤ b.sequence) = es := by
  obtain ⟨read, hnames, hsub⟩ := exists_map_recordName es (recordNames d)
    fun name hname => h.complete name (mem_recordNames.mp hname).1 (mem_recordNames.mp hname).2
  have hstored : ∀ e ∈ read, Stored fromSlice euid d e := fun e he => h.stored e (hsub e he)
  have hseqs : (read.map (·.sequence)).Nodup := by
    have hnodup := nodup_recordNames d
    rw [hnames, show (fun e : JournalEntry => recordName e.sequence) =
      recordName ∘ fun e : JournalEntry => e.sequence from rfl, ← List.map_map] at hnodup
    exact hnodup.of_map
  have hperm : read.Perm es := by
    refine (List.perm_ext_iff_of_nodup hseqs.of_map (sequence_nodup h.sequences).of_map).mpr
      fun e => ⟨hsub e, fun he => ?_⟩
    obtain ⟨file, hfile, hrec⟩ := h.stored e he
    have hmem : recordName e.sequence ∈ recordNames d :=
      mem_recordNames.mpr ⟨by simp [hfile], endsWith_recordName _⟩
    rw [hnames] at hmem
    obtain ⟨e', he', heq⟩ := List.mem_map.mp hmem
    rw [← (hstored e' he').unique ⟨file, hfile, hrec⟩ (recordName_injective heq)]
    exact he'
  refine ⟨read, hnames, hstored, hseqs, ?_⟩
  have htotal : Std.Total (fun a b : JournalEntry => a.sequence ≤ b.sequence) :=
    ⟨fun a b => UInt64.le_total _ _⟩
  have htrans : IsTrans JournalEntry fun a b => a.sequence ≤ b.sequence :=
    ⟨fun _ _ _ => UInt64.le_trans⟩
  refine List.Perm.eq_of_pairwise ?_ (List.pairwise_insertionSort _ read) ?_
    ((List.perm_insertionSort _ read).trans hperm)
  · intro a b ha hb hab hba
    have ha' := hstored a ((List.perm_insertionSort _ read).mem_iff.mp ha)
    exact ha'.unique (h.stored b hb) (UInt64.le_antisymm hab hba)
  · have hlt := List.pairwise_lt_range (n := es.length)
    rw [← h.sequences, List.pairwise_map] at hlt
    exact hlt.imp fun hab => UInt64.le_iff_toNat_le.mpr (Nat.le_of_lt hab)

/-- **Loading.** -/
theorem loadEntries_eq_ok {es : List JournalEntry} :
    loadEntries fromSlice euid d = .ok es ↔ Loaded fromSlice euid d es := by
  constructor
  · intro h
    unfold loadEntries at h
    cases hloop : loadRecords fromSlice euid d (recordNames d) [] with
    | error err => simp [hloop, bind, Except.bind] at h
    | ok records =>
      obtain ⟨read, hread, hnames, hstored, -, -⟩ := loadRecords_eq_ok.mp hloop
      rw [List.nil_append] at hread
      subst hread
      have hperm := List.perm_insertionSort (fun a b : JournalEntry => a.sequence ≤ b.sequence)
        records
      simp only [hloop, bind, Except.bind] at h
      split at h
      · cases h
      · rename_i hcheck
        obtain ⟨hne, hseq⟩ := not_or.mp hcheck
        cases hpairs : validatePairs (records.insertionSort fun a b => a.sequence ≤ b.sequence) with
        | error err => simp [hpairs] at h
        | ok u =>
          simp only [hpairs, Except.ok.injEq] at h
          subst h
          refine ⟨⟨?_, ?_, ?_, validatePairs_eq_ok.mp hpairs⟩, by simpa using hne⟩
          · rw [List.range_eq_range']
            exact zipIdx_any_eq_false.mp (by simpa using hseq)
          · exact fun e he => hstored e (hperm.mem_iff.mp he)
          · intro name hname hjson
            have hmem := mem_recordNames.mpr ⟨hname, hjson⟩
            rw [hnames] at hmem
            obtain ⟨e, he, rfl⟩ := List.mem_map.mp hmem
            exact ⟨e, hperm.mem_iff.mpr he, rfl⟩
  · intro h
    obtain ⟨read, hnames, hstored, hnodup, hsort⟩ := h.exists_read
    have hloop : loadRecords fromSlice euid d (recordNames d) [] = .ok read :=
      loadRecords_eq_ok.mpr ⟨read, rfl, hnames, hstored, by simp, hnodup⟩
    have hseq : es.zipIdx.any (fun (entry, index) => entry.sequence.toNat != index) = false :=
      zipIdx_any_eq_false.mpr (by rw [h.sequences, List.range_eq_range'])
    have hpairs := validatePairs_eq_ok.mpr h.chain
    simp only [loadEntries, hloop, bind, Except.bind, hsort]
    rw [if_neg (by simp [h.nonempty, hseq]), hpairs]

/-- A list loads under every parser that reads its entries alike. -/
theorem Loaded.parser_congr {es : List JournalEntry}
    {fromSlice' : List UInt8 → Except String JournalEntry} (h : Loaded fromSlice euid d es)
    (hparse : ∀ e ∈ es, fromSlice' (canonicalEncode e) = fromSlice (canonicalEncode e)) :
    Loaded fromSlice' euid d es := by
  refine ⟨⟨h.sequences, fun e he => ?_, h.complete, h.chain⟩, h.nonempty⟩
  obtain ⟨file, hfile, hrec⟩ := h.stored e he
  have hdec := hrec.decodes
  rw [hrec.bytes, canonicalDecode, ← hparse e he, ← canonicalDecode] at hdec
  exact ⟨file, hfile, hrec.link, hrec.stat, hrec.size, hrec.bytes ▸ hdec, hrec.bytes, hrec.valid⟩

end

end Dnfast.State
