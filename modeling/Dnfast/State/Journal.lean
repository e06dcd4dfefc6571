import Mathlib.Data.List.Chain
import Dnfast.State.Load

/-! # Journals as lists of records

A journal that loads is a chain of legal transitions (`Loaded.chain`), so its states are a stretch of
`TransactionState.lifecycle`. Which stretch is decided by the first record alone: `validate_pair`
says nothing about it, and a directory whose record 0 is not `Prepared` loads too.

The second half of the module says how a publication acts on the list that a directory loads to:
a temporary file is invisible, and a published record is appended. -/

namespace Dnfast.State

open Durable Durable.Exec
open Dnfast.Core (canonicalEncode canonicalDecode)

/-! ## The first record decides -/

/-- The states from a given one on. -/
def TransactionState.onward : TransactionState → List TransactionState
  | prepared => [prepared, started, rpmResult, reconciled]
  | started => [started, rpmResult, reconciled]
  | rpmResult => [rpmResult, reconciled]
  | reconciled => [reconciled]

theorem TransactionState.onward_of_legal {a b : TransactionState} (h : a.legal b = true) :
    a.onward = a :: b.onward := by
  cases a <;> cases b <;> simp_all [legal, onward]

theorem states_prefix_onward {e : JournalEntry} {es : List JournalEntry}
    (h : (e :: es).IsChain Follows) : (e :: es).map (·.state) <+: e.state.onward := by
  induction es generalizing e with
  | nil =>
    cases hs : e.state <;> simp [hs, TransactionState.onward]
  | cons e' es ih =>
    obtain ⟨hfollows, hrest⟩ := List.isChain_cons_cons.mp h
    rw [TransactionState.onward_of_legal hfollows.legal, List.map_cons, List.prefix_cons_inj]
    exact ih hrest

/-- The list starts with a `Prepared` record at sequence 0, and its states are a non-empty prefix of
the lifecycle. -/
structure LifecyclePrefix (es : List JournalEntry) : Prop where
  head : ∃ e rest, es = e :: rest ∧ e.state = .prepared ∧ e.sequence = 0
  states : es.map (·.state) <+: TransactionState.lifecycle

section
variable {fromSlice : List UInt8 → Except String JournalEntry} {euid : UInt32} {d d' : Directory}
  {es : List JournalEntry}

theorem Loaded.exists_cons (h : Loaded fromSlice euid d es) :
    ∃ e rest, es = e :: rest ∧ e.sequence = 0 := by
  cases es with
  | nil => exact absurd rfl h.nonempty
  | cons e rest =>
    refine ⟨e, rest, rfl, UInt64.toNat_inj.mp ?_⟩
    exact h.sequence_at (i := 0) rfl

theorem Loaded.lifecyclePrefix_iff (h : Loaded fromSlice euid d es) :
    LifecyclePrefix es ↔ ∃ e rest, es = e :: rest ∧ e.state = .prepared := by
  constructor
  · rintro ⟨⟨e, rest, rfl, hstate, -⟩, -⟩
    exact ⟨e, rest, rfl, hstate⟩
  · rintro ⟨e, rest, rfl, hstate⟩
    obtain ⟨_, _, heq, hseq⟩ := h.exists_cons
    cases heq
    refine ⟨⟨e, rest, rfl, hstate, hseq⟩, ?_⟩
    have := states_prefix_onward h.chain
    rwa [hstate] at this

/-- The record file of sequence 0 holds a `Prepared` record. -/
def PreparedFile (fromSlice : List UInt8 → Except String JournalEntry) (d : Directory) : Prop :=
  ∃ file e, d.files[recordName 0]? = some file ∧
    canonicalDecode fromSlice file.bytes = .ok e ∧ e.state = .prepared

theorem Loaded.preparedFile_iff (h : Loaded fromSlice euid d es) :
    PreparedFile fromSlice d ↔ ∃ e rest, es = e :: rest ∧ e.state = .prepared := by
  obtain ⟨e, rest, rfl, hseq⟩ := h.exists_cons
  obtain ⟨file, hfile, hrec⟩ := h.stored e List.mem_cons_self
  rw [hseq] at hfile
  constructor
  · rintro ⟨file', e', hfile', hdec, hstate⟩
    rw [hfile] at hfile'
    cases hfile'
    rw [hrec.decodes] at hdec
    cases hdec
    exact ⟨_, rest, rfl, hstate⟩
  · rintro ⟨e', rest', heq, hstate⟩
    cases heq
    exact ⟨file, e, hfile, hrec.decodes, hstate⟩

/-- What `entries` returns is what the directory loads to, whatever the environment does. -/
theorem loaded_of_entries {p : Process} {fates : List (Fate StateError)}
    (h : (entries fromSlice p fates d).1 = .ok es) : Loaded fromSlice p.euid d es := by
  have hsat : Sat (fun _ => True) (entries fromSlice p) d fun o _ =>
      ∀ es, o = .ok es → loadEntries fromSlice p.euid d = .ok es := by
    refine sat_observe (by simp) (by simp) ?_ (by simp)
    intro es hes es' heq
    cases heq
    exact hes
  exact loadEntries_eq_ok.mp (hsat.run fates es h)

/-- **The first record decides.** A list returned by `entries` starts with `Prepared` and is a
prefix of the lifecycle exactly when the file of record 0 holds a `Prepared` record. -/
theorem entries_lifecyclePrefix_iff {p : Process} {fates : List (Fate StateError)}
    (h : (entries fromSlice p fates d).1 = .ok es) :
    LifecyclePrefix es ↔ PreparedFile fromSlice d := by
  have hloaded := loaded_of_entries h
  rw [hloaded.lifecyclePrefix_iff, hloaded.preparedFile_iff]

/-- A parser that knows the given entries and refuses every other document. -/
def parserOf (known : List JournalEntry) (bytes : List UInt8) : Except String JournalEntry :=
  match known.find? fun e => canonicalEncode e == bytes with
  | some e => .ok e
  | none => .error "expected value at line 1 column 1"

def exampleId : TransactionId := ⟨"018f0000-0000-7000-8000-000000000001", by decide⟩

def exampleDigest : String := "aaaaaaaaaaaaaaaaaaaaaaaaaaaaaaaaaaaaaaaaaaaaaaaaaaaaaaaaaaaaaaaa"

/-- A directory of record files. -/
def directoryOf (euid : UInt32) (records : List JournalEntry) : Directory :=
  ⟨⟨euid, 0o040700, 2⟩, records.foldl (fun files e =>
    files.insert (recordName e.sequence) ⟨Directory.freshStat euid, canonicalEncode e⟩) ∅⟩

theorem entries_lifecyclePrefix_prepared :
    LifecyclePrefix [preparedEntry exampleId exampleDigest] :=
  (@entries_lifecyclePrefix_iff (parserOf [preparedEntry exampleId exampleDigest])
    (directoryOf 0 [preparedEntry exampleId exampleDigest]) _ ⟨1, 0⟩ [] (by decide +kernel)).mpr
    ⟨⟨Directory.freshStat 0, canonicalEncode (preparedEntry exampleId exampleDigest)⟩,
      preparedEntry exampleId exampleDigest, by decide +kernel, by decide +kernel, rfl⟩

/-- A terminal record in the place of the first one. -/
def forgedTerminal : JournalEntry :=
  { preparedEntry exampleId exampleDigest with
    state := .reconciled
    reconciliation := some ⟨exampleDigest, true, 1⟩ }

/-- A directory whose only record claims a terminal reconciliation loads. -/
theorem entries_forgedTerminal :
    (entries (parserOf [forgedTerminal]) ⟨1, 0⟩ [] (directoryOf 0 [forgedTerminal])).1 =
        .ok [forgedTerminal] ∧ ¬ LifecyclePrefix [forgedTerminal] := by
  refine ⟨by decide +kernel, fun h => ?_⟩
  obtain ⟨e, rest, heq, hstate, -⟩ := h.head
  cases heq
  cases hstate

/-! ## Publication and the list of records -/

/-- The checks that `publish` makes on an entry before it writes the record. -/
structure Publishable (e : JournalEntry) : Prop where
  valid : ValidEntry e
  size : (canonicalEncode e).length ≤ maxRecordBytes

/-- The entry reads back from its own encoding when it can be written at all. -/
def ReadsBack (fromSlice : List UInt8 → Except String JournalEntry) (e : JournalEntry) : Prop :=
  Publishable e → canonicalDecode fromSlice (canonicalEncode e) = .ok e

/-- A change to a file that is no record leaves the list as it is. -/
theorem Holds.scratched {name : String} (h : Holds fromSlice euid d es)
    (hs : Directory.Scratched euid name d d') (hname : endsWith name ".json" = false) :
    Holds fromSlice euid d' es := by
  have hkeep : ∀ n : String, endsWith n ".json" = true → d'.files[n]? = d.files[n]? := by
    rintro n hn
    refine hs.others n ?_
    rintro rfl
    simp [hn] at hname
  refine ⟨h.sequences, fun e he => ?_, fun n hn hjson => ?_, h.chain⟩
  · obtain ⟨file, hfile, hrec⟩ := h.stored e he
    exact ⟨file, by rw [hkeep _ (endsWith_recordName _), hfile], hrec⟩
  · exact h.complete n (by rwa [← hkeep n hjson]) hjson

/-- A published record is the next one of the list. -/
theorem Holds.published {temporary : String} {e : JournalEntry} (h : Holds fromSlice euid d es)
    (hp : Directory.Published temporary (recordName e.sequence)
      ⟨Directory.freshStat euid, canonicalEncode e⟩ d d')
    (htemp : endsWith temporary ".json" = false) (hseq : e.sequence.toNat = es.length)
    (hfollows : ∀ last ∈ es.getLast?, Follows last e) (he : Publishable e)
    (hdec : canonicalDecode fromSlice (canonicalEncode e) = .ok e) :
    Holds fromSlice euid d' (es ++ [e]) := by
  have hkeep : ∀ n : String, endsWith n ".json" = true → n ≠ recordName e.sequence →
      d'.files[n]? = d.files[n]? := by
    rintro n hn hne
    refine hp.others n hne ?_
    rintro rfl
    simp [hn] at htemp
  refine ⟨?_, ?_, ?_, ?_⟩
  · rw [List.map_append, h.sequences, List.map_singleton, hseq, List.length_append,
      List.length_singleton, List.range_succ]
  · intro e' he'
    rcases List.mem_append.mp he' with he' | he'
    · obtain ⟨file, hfile, hrec⟩ := h.stored e' he'
      refine ⟨file, ?_, hrec⟩
      rw [hkeep _ (endsWith_recordName _), hfile]
      -- the records before it have smaller sequences
      intro heq
      obtain ⟨i, hi⟩ := List.getElem?_of_mem he'
      have hi' := h.sequence_at hi
      have := (List.getElem?_eq_some_iff.mp hi).1
      rw [recordName_injective heq] at hi'
      omega
    · obtain rfl := List.mem_singleton.mp he'
      exact ⟨_, hp.file, freshStat_isSymlink _, verify_freshStat _ _, he.size, hdec, rfl, he.valid⟩
  · intro n hn hjson
    by_cases hname : n = recordName e.sequence
    · exact ⟨e, by simp, hname⟩
    · obtain ⟨e', he', heq⟩ := h.complete n (by rwa [← hkeep n hjson hname]) hjson
      exact ⟨e', List.mem_append_left _ he', heq⟩
  · exact List.isChain_append.mpr ⟨h.chain, by simp, by simpa using hfollows⟩

theorem publish_sat {A : Fate StateError → Prop} (p : Process) (e : JournalEntry) :
    Sat A (publish p e) d fun o d' =>
      (¬ Publishable e ∧ d' = d ∧ ∃ err, o = .err err) ∨
      (Publishable e ∧ WriteRecordEnd A p e.sequence (canonicalEncode e) d o d') := by
  refine sat_bind (sat_lift ?_ ?_)
  · intro u hv
    have hvalid := validateEntry_eq_ok.mp hv
    by_cases hsize : (canonicalEncode e).length > maxRecordBytes
    · simp only [Then, if_pos hsize]
      exact sat_throw (.inl ⟨fun hp => by have := hp.size; omega, rfl, _, rfl⟩)
    · simp only [Then, if_neg hsize]
      exact (writeRecord_sat p e.sequence (canonicalEncode e) d).mono fun o d' hend =>
        .inr ⟨⟨hvalid, by omega⟩, hend⟩
  · intro err hv
    refine .inl ⟨fun hp => ?_, rfl, err, rfl⟩
    rw [validateEntry_eq_ok.mpr hp.valid] at hv
    cases hv

/-- The list after a publication: unchanged, or longer by the record that was asked for. -/
theorem WriteRecordEnd.holds {A : Fate StateError → Prop} {p : Process} {e : JournalEntry}
    {o : Outcome StateError Unit}
    (hend : WriteRecordEnd A p e.sequence (canonicalEncode e) d o d')
    (h : Holds fromSlice p.euid d es) (hseq : e.sequence.toNat = es.length)
    (hfollows : ∀ last ∈ es.getLast?, Follows last e) (he : Publishable e)
    (hdec : canonicalDecode fromSlice (canonicalEncode e) = .ok e) :
    (o ≠ .ok () ∧ Holds fromSlice p.euid d' es) ∨ Holds fromSlice p.euid d' (es ++ [e]) := by
  have htemp := endsWith_recordTemporary e.sequence p.pid
  have hinterrupted : Directory.Interrupted p.euid (recordTemporary e.sequence p.pid)
      (recordName e.sequence) (canonicalEncode e) d d' →
      Holds fromSlice p.euid d' es ∨ Holds fromSlice p.euid d' (es ++ [e]) := by
    rintro (hs | hp)
    · exact .inl (h.scratched hs htemp)
    · exact .inr (h.published hp htemp hseq hfollows he hdec)
  match o, hend with
  | .ok _, hend => exact .inr (h.published hend.2 htemp hseq hfollows he hdec)
  | .err _, .inl ⟨heq, _⟩ => exact .inl ⟨by simp, heq ▸ h⟩
  | .err _, .inr ⟨_, hi⟩ => exact (hinterrupted hi).imp_left fun h => ⟨by simp, h⟩
  | .crashed, ⟨_, hi⟩ => exact (hinterrupted hi).imp_left fun h => ⟨by simp, h⟩

/-! ## One transition -/

theorem Loaded.length_le (h : Loaded fromSlice euid d es) : es.length ≤ 4 := by
  obtain ⟨e, rest, rfl, -⟩ := h.exists_cons
  have hlen := (states_prefix_onward h.chain).length_le
  rw [List.length_map] at hlen
  refine hlen.trans ?_
  cases e.state <;> decide

theorem Loaded.exists_last (h : Loaded fromSlice euid d es) :
    ∃ last, es.getLast? = some last ∧ last.sequence.toNat + 1 = es.length := by
  refine ⟨es.getLast h.nonempty, List.getLast?_eq_some_getLast h.nonempty, ?_⟩
  have hpos := List.length_pos_iff.mpr h.nonempty
  have hat : es[es.length - 1]? = some (es.getLast h.nonempty) := by
    rw [← List.getLast?_eq_getElem?, List.getLast?_eq_some_getLast h.nonempty]
  have := h.sequence_at hat
  omega

/-- The record that a transition from `previous` is asked to write. -/
def JournalEntry.successor (previous : JournalEntry) (state : TransactionState)
    (nativeResult : Option NativeResult) (reconciliation : Option ReconcileResult) :
    JournalEntry :=
  previous.next (previous.sequence + 1) state nativeResult reconciliation

theorem Loaded.successor_sequence {previous : JournalEntry} (h : Loaded fromSlice euid d es)
    (hlast : es.getLast? = some previous) (next : TransactionState)
    (nativeResult : Option NativeResult) (reconciliation : Option ReconcileResult) :
    (previous.successor next nativeResult reconciliation).sequence.toNat = es.length := by
  obtain ⟨last, hlast', hlen⟩ := h.exists_last
  rw [hlast] at hlast'
  cases hlast'
  have hle := h.length_le
  have hone : (1 : UInt64).toNat = 1 := rfl
  simp only [JournalEntry.successor, JournalEntry.next, UInt64.toNat_add]
  omega

/-- Where a transition from the last record `previous` may end: refused, with nothing changed, or in
the middle or at the end of the publication of the next record. -/
def TransitionEnd (A : Fate StateError → Prop) (p : Process) (d : Directory)
    (previous e : JournalEntry) (o : Outcome StateError Unit) (d' : Directory) : Prop :=
  (d' = d ∧ ((o = .crashed ∧ A .die) ∨ ∃ err, o = .err err ∧
    ((∃ err, A (.fail err)) ∨ ¬ previous.state.legal e.state ∨ ¬ Publishable e))) ∨
  (previous.state.legal e.state ∧ Publishable e ∧
    WriteRecordEnd A p e.sequence (canonicalEncode e) d o d')

theorem transition_sat {A : Fate StateError → Prop} {p : Process} {previous : JournalEntry}
    (h : Loaded fromSlice p.euid d es) (hlast : es.getLast? = some previous)
    (next : TransactionState) (nativeResult : Option NativeResult)
    (reconciliation : Option ReconcileResult) :
    Sat A (transition fromSlice p next nativeResult reconciliation) d
      (TransitionEnd A p d previous (previous.successor next nativeResult reconciliation)) := by
  refine sat_bind (sat_observe (fun hA => .inl ⟨rfl, .inl ⟨rfl, hA⟩⟩)
    (fun err hA => .inl ⟨rfl, .inr ⟨err, rfl, .inl ⟨err, hA⟩⟩⟩) ?_ ?_)
  · intro es' hes
    rw [loadEntries_eq_ok.mpr h] at hes
    cases hes
    simp only [Then, hlast]
    by_cases hlegal : previous.state.legal next = true
    · have hnext : checkedNext previous.sequence = some (previous.sequence + 1) := by
        obtain ⟨last, hlast', hseq⟩ := h.exists_last
        rw [hlast] at hlast'
        cases hlast'
        have := h.length_le
        exact if_pos (by omega)
      simp only [hlegal, not_true_eq_false, if_false, hnext]
      refine (publish_sat p _).mono fun o d' hend => ?_
      rcases hend with ⟨hnot, rfl, err, rfl⟩ | ⟨hpub, hend⟩
      · exact .inl ⟨rfl, .inr ⟨err, rfl, .inr (.inr hnot)⟩⟩
      · exact .inr ⟨hlegal, hpub, hend⟩
    · simp only [hlegal]
      exact sat_throw (.inl ⟨rfl, .inr ⟨_, rfl, .inr (.inl hlegal)⟩⟩)
  · intro err herr
    rw [loadEntries_eq_ok.mpr h] at herr
    cases herr

/-- The record files are those of the sequences in the list. -/
theorem Holds.recordName_mem_iff (h : Holds fromSlice euid d es) {sequence : UInt64} :
    recordName sequence ∈ d.files ↔ sequence.toNat < es.length := by
  rw [Directory.mem_files_iff]
  constructor
  · intro hne
    obtain ⟨e, he, hname⟩ := h.complete _ hne (endsWith_recordName _)
    obtain ⟨i, hi⟩ := List.getElem?_of_mem he
    rw [recordName_injective hname, h.sequence_at hi]
    exact (List.getElem?_eq_some_iff.mp hi).1
  · intro hlt
    have hat := List.getElem?_eq_getElem hlt
    obtain ⟨file, hfile, -⟩ := h.stored _ (List.mem_of_getElem? hat)
    rw [← UInt64.toNat_inj.mp (h.sequence_at hat), hfile]
    simp

/-- The name of the next record is free. -/
theorem Holds.next_free (h : Holds fromSlice euid d es) {sequence : UInt64}
    (hseq : sequence.toNat = es.length) : d.files[recordName sequence]? = none := by
  by_contra hne
  have := h.recordName_mem_iff.mp (Directory.mem_files_iff.mpr hne)
  omega

/-- A transition in an environment without faults, on a journal whose next temporary name is
free, publishes the record. -/
theorem transition_clean {p : Process} {previous : JournalEntry} (next : TransactionState)
    (nativeResult : Option NativeResult) (reconciliation : Option ReconcileResult)
    (h : Loaded fromSlice p.euid d es) (hlast : es.getLast? = some previous)
    (hlegal : previous.state.legal next = true)
    (hpub : Publishable (previous.successor next nativeResult reconciliation))
    (hfree : recordTemporary (previous.sequence + 1) p.pid ∉ d.files) :
    Sat (fun _ => False) (transition fromSlice p next nativeResult reconciliation) d fun o d' =>
      o = .ok () ∧ Directory.Published (recordTemporary (previous.sequence + 1) p.pid)
        (recordName (previous.sequence + 1)) ⟨Directory.freshStat p.euid,
          canonicalEncode (previous.successor next nativeResult reconciliation)⟩ d d' := by
  refine (transition_sat h hlast next nativeResult reconciliation).mono fun o d' hend => ?_
  have hnext := h.next_free (h.successor_sequence hlast next nativeResult reconciliation)
  rcases hend with ⟨-, ⟨-, hfalse⟩ | ⟨err, -, ⟨-, hfalse⟩ | hillegal | hnot⟩⟩ | ⟨-, -, hend⟩
  · exact hfalse.elim
  · exact hfalse.elim
  · exact absurd hlegal hillegal
  · exact absurd hpub hnot
  · cases o with
    | ok u => exact ⟨rfl, hend.2⟩
    | err err =>
      rcases hend with ⟨-, ⟨f, hf⟩ | ⟨hmem, -⟩⟩ | ⟨⟨-, hfalse⟩, -⟩
      · simp [Directory.openRead, hnext] at hf
      · exact absurd hmem hfree
      · exact hfalse.elim
    | crashed => exact hend.1.elim

theorem WriteRecordEnd.stat {A : Fate StateError → Prop} {p : Process} {sequence : UInt64}
    {bytes : List UInt8} {o : Outcome StateError Unit}
    (hend : WriteRecordEnd A p sequence bytes d o d') : d'.stat = d.stat := by
  match o, hend with
  | .ok _, ⟨_, hp⟩ => exact hp.stat
  | .err _, .inl ⟨heq, _⟩ => rw [heq]
  | .err _, .inr ⟨_, .inl hs⟩ => exact hs.stat
  | .err _, .inr ⟨_, .inr hp⟩ => exact hp.stat
  | .crashed, ⟨_, .inl hs⟩ => exact hs.stat
  | .crashed, ⟨_, .inr hp⟩ => exact hp.stat

theorem TransitionEnd.stat {A : Fate StateError → Prop} {p : Process}
    {previous e : JournalEntry} {o : Outcome StateError Unit}
    (hend : TransitionEnd A p d previous e o d') : d'.stat = d.stat := by
  rcases hend with ⟨rfl, -⟩ | ⟨-, -, hend⟩
  · rfl
  · exact hend.stat

/-- The list after a transition. -/
theorem TransitionEnd.loaded {A : Fate StateError → Prop} {p : Process}
    {previous : JournalEntry} {next : TransactionState} {nativeResult : Option NativeResult}
    {reconciliation : Option ReconcileResult} {o : Outcome StateError Unit}
    (hend : TransitionEnd A p d previous
      (previous.successor next nativeResult reconciliation) o d')
    (h : Loaded fromSlice p.euid d es) (hlast : es.getLast? = some previous)
    (hdec : previous.state.legal next →
      Publishable (previous.successor next nativeResult reconciliation) →
      canonicalDecode fromSlice
          (canonicalEncode (previous.successor next nativeResult reconciliation)) =
        .ok (previous.successor next nativeResult reconciliation)) :
    (o ≠ .ok () ∧ Loaded fromSlice p.euid d' es) ∨
      (previous.state.legal next = true ∧ Loaded fromSlice p.euid d'
        (es ++ [previous.successor next nativeResult reconciliation])) := by
  rcases hend with ⟨rfl, hwhy⟩ | ⟨hlegal, hpub, hend⟩
  · refine .inl ⟨?_, h⟩
    rcases hwhy with ⟨rfl, -⟩ | ⟨err, rfl, -⟩ <;> simp
  · have hfollows : ∀ last ∈ es.getLast?, Follows last
        (previous.successor next nativeResult reconciliation) := by
      intro last hl
      rw [hlast] at hl
      cases hl
      exact ⟨rfl, rfl, hlegal⟩
    rcases hend.holds h.toHolds (h.successor_sequence hlast _ _ _) hfollows hpub (hdec hlegal hpub) with ⟨ho, hh⟩ | hh
    · exact .inl ⟨ho, hh, h.nonempty⟩
    · exact .inr ⟨hlegal, hh, by simp⟩

/-! ## Journals that begin with the record of `create` -/

/-- The sequence of a state's record in a complete journal. -/
def TransactionState.index : TransactionState → UInt64
  | prepared => 0
  | started => 1
  | rpmResult => 2
  | reconciled => 3

theorem TransactionState.index_of_legal {a b : TransactionState} (h : a.legal b = true) :
    b.index = a.index + 1 := by
  cases a <;> cases b <;> first | rfl | simp [legal] at h

/-- A record of the transaction that `create` began. -/
def recordOf (id : TransactionId) (planSha256 : String) (state : TransactionState)
    (nativeResult : Option NativeResult) (reconciliation : Option ReconcileResult) :
    JournalEntry :=
  (preparedEntry id planSha256).next state.index state nativeResult reconciliation

/-- The directory loads to `es`, whose first record is the one `create` wrote. -/
structure Journal (fromSlice : List UInt8 → Except String JournalEntry) (euid : UInt32)
    (id : TransactionId) (planSha256 : String) (d : Directory) (es : List JournalEntry) : Prop
    extends Loaded fromSlice euid d es where
  created : es.head? = some (preparedEntry id planSha256)

variable {id : TransactionId} {planSha256 : String}

/-- Along a chain that counts its records, identity is kept and each sequence is the one of its
state. -/
theorem chain_record (first : JournalEntry) {rest : List JournalEntry}
    (hchain : (first :: rest).IsChain Follows) (hfirst : first.sequence = first.state.index)
    (hseq : ∀ i e, (first :: rest)[i]? = some e → e.sequence = first.sequence + UInt64.ofNat i) :
    ∀ e ∈ first :: rest, e.transactionId = first.transactionId ∧
      e.planSha256 = first.planSha256 ∧ e.sequence = e.state.index := by
  induction rest generalizing first with
  | nil => simpa using hfirst
  | cons next rest ih =>
    obtain ⟨hfollows, hrest⟩ := List.isChain_cons_cons.mp hchain
    have hnext : next.sequence = first.sequence + 1 := by simpa using hseq 1 next rfl
    have hindex : next.sequence = next.state.index := by
      rw [hnext, hfirst, TransactionState.index_of_legal hfollows.legal]
    have hrec := ih next hrest hindex fun i e he => by
      have := hseq (i + 1) e (by simpa using he)
      rw [this, hnext, UInt64.add_assoc, Nat.add_comm, UInt64.ofNat_add]
      rfl
    intro e he
    rcases List.mem_cons.mp he with rfl | he
    · exact ⟨rfl, rfl, hfirst⟩
    · obtain ⟨hid, hdigest, he⟩ := hrec e he
      exact ⟨hid.trans hfollows.id.symm, hdigest.trans hfollows.digest.symm, he⟩

namespace Journal

theorem exists_rest (h : Journal fromSlice euid id planSha256 d es) :
    ∃ rest, es = preparedEntry id planSha256 :: rest := by
  cases es with
  | nil => exact absurd rfl h.nonempty
  | cons e rest =>
    have := h.created
    simp only [List.head?_cons, Option.some.injEq] at this
    exact ⟨rest, by rw [this]⟩

theorem record (h : Journal fromSlice euid id planSha256 d es) :
    ∀ e ∈ es, e.transactionId = id.asStr ∧ e.planSha256 = planSha256 ∧
      e.sequence = e.state.index := by
  obtain ⟨rest, rfl⟩ := h.exists_rest
  refine chain_record (preparedEntry id planSha256) h.chain rfl fun i e he => ?_
  rw [← h.sequence_at he, UInt64.ofNat_toNat]
  exact (UInt64.zero_add _).symm

theorem lifecyclePrefix (h : Journal fromSlice euid id planSha256 d es) : LifecyclePrefix es := by
  obtain ⟨rest, heq⟩ := h.exists_rest
  exact h.lifecyclePrefix_iff.mpr ⟨_, rest, heq, rfl⟩

/-- The record that a legal transition writes is fixed by the transaction and the new state. -/
theorem successor_eq (h : Journal fromSlice euid id planSha256 d es) {previous : JournalEntry}
    (hlast : es.getLast? = some previous) {next : TransactionState}
    (hlegal : previous.state.legal next = true) (nativeResult : Option NativeResult)
    (reconciliation : Option ReconcileResult) :
    previous.successor next nativeResult reconciliation =
      recordOf id planSha256 next nativeResult reconciliation := by
  obtain ⟨hid, hdigest, hseq⟩ := h.record previous (List.mem_of_getLast? hlast)
  simp [JournalEntry.successor, recordOf, JournalEntry.next, hid, hdigest, hseq,
    TransactionState.index_of_legal hlegal, preparedEntry]

theorem append (h : Journal fromSlice euid id planSha256 d es) {e : JournalEntry}
    (h' : Loaded fromSlice euid d' (es ++ [e])) :
    Journal fromSlice euid id planSha256 d' (es ++ [e]) := by
  obtain ⟨rest, rfl⟩ := h.exists_rest
  exact ⟨h', rfl⟩

end Journal

/-- The list that a transition leaves in the journal: what it was, or longer by the record it was
asked to write. -/
theorem Journal.transition_sat {A : Fate StateError → Prop} {p : Process}
    (h : Journal fromSlice p.euid id planSha256 d es) (next : TransactionState)
    (nativeResult : Option NativeResult) (reconciliation : Option ReconcileResult)
    (hdec : Publishable (recordOf id planSha256 next nativeResult reconciliation) →
      canonicalDecode fromSlice
          (canonicalEncode (recordOf id planSha256 next nativeResult reconciliation)) =
        .ok (recordOf id planSha256 next nativeResult reconciliation)) :
    Sat A (transition fromSlice p next nativeResult reconciliation) d fun o d' =>
      d'.stat = d.stat ∧
      ((o ≠ .ok () ∧ Journal fromSlice p.euid id planSha256 d' es) ∨
        Journal fromSlice p.euid id planSha256 d'
          (es ++ [recordOf id planSha256 next nativeResult reconciliation])) := by
  obtain ⟨previous, hlast, -⟩ := h.exists_last
  refine (State.transition_sat h.toLoaded hlast next nativeResult reconciliation).mono
    fun o d' hend => ⟨hend.stat, ?_⟩
  have hsucc := fun (hlegal : previous.state.legal next = true) =>
    h.successor_eq hlast hlegal nativeResult reconciliation
  rcases hend.loaded h.toLoaded hlast fun hlegal hpub => by
      rw [hsucc hlegal] at hpub ⊢
      exact hdec hpub with ⟨ho, h'⟩ | ⟨hlegal, h'⟩
  · exact .inl ⟨ho, h', h.created⟩
  · rw [hsucc hlegal] at h'
    exact .inr (h.append h')

end

end Dnfast.State
