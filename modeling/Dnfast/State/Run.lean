import Dnfast.State.Create

/-! # Runs over one transaction

A run starts with `create` and goes on with calls on the transaction's journal, each made by some
process, with its own faults and possibly its own crash. `Call.asked` is the one record that a call
may add to the journal.

`journal_run` says what holds at every point of every such run. The invariant is `Journal`: the
directory loads to a list that begins with the record of `create`; one call keeps it
(`Call.run_sat`), and so does a whole run (`journalAt_runTurns`). -/

namespace Dnfast.State

open Durable Durable.Exec
open Dnfast.Core (canonicalEncode canonicalDecode)

/-- The calls on the journal of an existing transaction. -/
inductive Call where
  | markStarted
  | recordRpmResult (returnCode : Int32) (callbacks : CallbackSummary)
  | recordRpmResultWithProblems (returnCode : Int32) (callbacks : CallbackSummary)
      (problems : List String)
  | reconcile (result : ReconcileResult)
  | recover
  | reopen

/-- The record that a call is asked to write into the journal of a transaction. -/
def Call.asked (id : TransactionId) (planSha256 : String) : Call → Option JournalEntry
  | .markStarted => some (recordOf id planSha256 .started none none)
  | .recordRpmResult returnCode callbacks =>
    some (recordOf id planSha256 .rpmResult (some ⟨returnCode, callbacks, []⟩) none)
  | .recordRpmResultWithProblems returnCode callbacks problems =>
    some (recordOf id planSha256 .rpmResult (some ⟨returnCode, callbacks, problems⟩) none)
  | .reconcile result => some (recordOf id planSha256 .reconciled none (some result))
  | .recover => some (recordOf id planSha256 .rpmResult (some ⟨-1, .zero, []⟩) none)
  | .reopen => none

/-- One call, by one process, under one script of faults. -/
structure Turn where
  pid : UInt32
  call : Call
  fates : List (Fate StateError)

section
variable (fromSlice : List UInt8 → Except String JournalEntry) (euid : UInt32)
  (id : TransactionId)

/-- A call on the transaction's directory. Only `recover` returns an action. -/
def Call.run (p : Process) : Call → Exec Root StateError (Option RecoveryAction)
  | .markStarted => inDirectory id.asStr do
    State.markStarted fromSlice p
    pure none
  | .recordRpmResult returnCode callbacks => inDirectory id.asStr do
    State.recordRpmResult fromSlice p returnCode callbacks
    pure none
  | .recordRpmResultWithProblems returnCode callbacks problems => inDirectory id.asStr do
    State.recordRpmResultWithProblems fromSlice p returnCode callbacks problems
    pure none
  | .reconcile result => inDirectory id.asStr do
    State.reconcile fromSlice p result
    pure none
  | .recover => inDirectory id.asStr do
    let action ← State.recover fromSlice p
    pure (some action)
  | .reopen => do
    openTransaction p id
    pure none

def Turn.run (turn : Turn) (r : Root) : Outcome StateError (Option RecoveryAction) × Root :=
  let result := turn.call.run fromSlice id ⟨turn.pid, euid⟩ turn.fates r
  (result.1, result.2.1)

def runTurns (turns : List Turn) (r : Root) : Root :=
  turns.foldl (fun r turn => (turn.run fromSlice euid id r).2) r

/-- What the records of the transaction load to. -/
def loadJournal (r : Root) : Except StateError (List JournalEntry) :=
  match r.children[id.asStr]? with
  | none => .error (errno .noent)
  | some d => loadEntries fromSlice euid d

end

section
variable {fromSlice : List UInt8 → Except String JournalEntry} {euid : UInt32}
  {id : TransactionId} {planSha256 : String} {es : List JournalEntry} {r : Root}

/-- The invariant of a run, on the root. -/
def JournalAt (fromSlice : List UInt8 → Except String JournalEntry) (euid : UInt32)
    (id : TransactionId) (planSha256 : String) (r : Root) (es : List JournalEntry) : Prop :=
  ∃ d, r.children[id.asStr]? = some d ∧ Journal fromSlice euid id planSha256 d es

theorem JournalAt.load (h : JournalAt fromSlice euid id planSha256 r es) :
    loadJournal fromSlice euid id r = .ok es := by
  obtain ⟨d, hd, hj⟩ := h
  simp only [loadJournal, hd]
  exact loadEntries_eq_ok.mpr hj.toLoaded

/-- What a call leaves: the same list, or the list with the record it was asked to write. -/
def CallEnd (fromSlice : List UInt8 → Except String JournalEntry) (euid : UInt32)
    (id : TransactionId) (planSha256 : String) (call : Call) (es : List JournalEntry)
    (d' : Directory) : Prop :=
  Journal fromSlice euid id planSha256 d' es ∨
    ∃ e, call.asked id planSha256 = some e ∧
      Journal fromSlice euid id planSha256 d' (es ++ [e])

theorem transition_callEnd (call : Call) {p : Process} {d : Directory}
    {next : TransactionState} {nativeResult : Option NativeResult}
    {reconciliation : Option ReconcileResult}
    (hasked : call.asked id planSha256 =
      some (recordOf id planSha256 next nativeResult reconciliation))
    (hback : ∀ e ∈ call.asked id planSha256, ReadsBack fromSlice e)
    (h : Journal fromSlice p.euid id planSha256 d es) :
    Sat (fun _ => True) (transition fromSlice p next nativeResult reconciliation) d
      fun _ d' => CallEnd fromSlice p.euid id planSha256 call es d' := by
  refine (h.transition_sat next nativeResult reconciliation (hback _ hasked)).mono
    fun o d' hend => ?_
  rcases hend.2 with ⟨-, hj⟩ | hj
  · exact .inl hj
  · exact .inr ⟨_, hasked, hj⟩

theorem recover_sat {p : Process} {d : Directory}
    (hback : ∀ e ∈ Call.recover.asked id planSha256, ReadsBack fromSlice e)
    (h : Journal fromSlice p.euid id planSha256 d es) :
    Sat (fun _ => True) (recover fromSlice p) d fun o d' =>
      CallEnd fromSlice p.euid id planSha256 .recover es d' ∧
      (o = .ok .cleanupRevalidateAndReapprove → ∀ e ∈ es, e.state = .prepared) := by
  refine sat_bind (sat_observe (fun _ => ⟨.inl h, by simp⟩) (fun _ _ => ⟨.inl h, by simp⟩) ?_
    fun _ _ => ⟨.inl h, by simp⟩)
  intro es' hes
  rw [loadEntries_eq_ok.mpr h.toLoaded] at hes
  cases hes
  obtain ⟨final, hlast, hlen⟩ := h.exists_last
  simp only [Then, hlast]
  cases hstate : final.state with
  | prepared =>
    refine sat_pure ⟨.inl h, fun _ e he => ?_⟩
    -- the last record has sequence 0, so it is the only one
    have hseq := (h.record final (List.mem_of_getLast? hlast)).2.2
    rw [hstate] at hseq
    have hone : es.length = 1 := by
      rw [← hlen, hseq]
      rfl
    obtain ⟨rest, rfl⟩ := h.exists_rest
    have hrest : rest = [] := by simpa using hone
    subst hrest
    rw [List.mem_singleton.mp he]
    rfl
  | started =>
    exact (transition_callEnd .recover rfl hback h).bind
      (fun _ _ hend => sat_pure ⟨hend, by simp⟩) (fun _ _ hend => ⟨hend, by simp⟩)
      fun _ hend => ⟨hend, by simp⟩
  | rpmResult => exact sat_pure ⟨.inl h, by simp⟩
  | reconciled =>
    simp only
    split
    · exact sat_pure ⟨.inl h, by simp⟩
    · exact sat_throw ⟨.inl h, by simp⟩

theorem openTransaction_sat {p : Process} {A : Fate StateError → Prop} :
    Sat A (openTransaction p id) r fun _ r' => r' = r := by
  have hobserve : Sat A (Exec.observe (Root.openTransaction p.euid id.asStr)) r fun _ r' => r' = r :=
    sat_observe (fun _ => rfl) (fun _ _ => rfl) (fun _ _ => rfl) fun _ _ => rfl
  refine hobserve.bind ?_ (fun _ _ h => h) fun _ h => h
  rintro _ r' rfl
  exact sat_sync (fun _ => rfl) (fun _ _ => rfl) rfl

/-- **One call.** -/
theorem Call.run_sat {call : Call} {p : Process}
    (hback : ∀ e ∈ call.asked id planSha256, ReadsBack fromSlice e)
    (h : JournalAt fromSlice p.euid id planSha256 r es) :
    Sat (fun _ => True) (call.run fromSlice id p) r fun o r' =>
      (JournalAt fromSlice p.euid id planSha256 r' es ∨
        ∃ e, call.asked id planSha256 = some e ∧
          JournalAt fromSlice p.euid id planSha256 r' (es ++ [e])) ∧
      (o = .ok (some .cleanupRevalidateAndReapprove) → ∀ e ∈ es, e.state = .prepared) := by
  obtain ⟨d, hd, hj⟩ := h
  have onRoot : ∀ d', CallEnd fromSlice p.euid id planSha256 call es d' →
      JournalAt fromSlice p.euid id planSha256 (r.put id.asStr d') es ∨
        ∃ e, call.asked id planSha256 = some e ∧
          JournalAt fromSlice p.euid id planSha256 (r.put id.asStr d') (es ++ [e]) := by
    rintro d' (hj' | ⟨e, hasked, hj'⟩)
    · exact .inl ⟨d', by simp, hj'⟩
    · exact .inr ⟨e, hasked, d', by simp, hj'⟩
  -- a call that only makes a transition
  have ofTransition : ∀ m : Exec Directory StateError Unit,
      Sat (fun _ => True) m d (fun _ d' => CallEnd fromSlice p.euid id planSha256 call es d') →
      Sat (fun _ => True) (inDirectory id.asStr (do m; pure (none : Option RecoveryAction))) r
        fun o r' => (JournalAt fromSlice p.euid id planSha256 r' es ∨
          ∃ e, call.asked id planSha256 = some e ∧
            JournalAt fromSlice p.euid id planSha256 r' (es ++ [e])) ∧
          (o = .ok (some .cleanupRevalidateAndReapprove) → ∀ e ∈ es, e.state = .prepared) := by
    intro m hm
    have hm' : Sat (fun _ => True) (do m; pure (none : Option RecoveryAction)) d fun o d' =>
        CallEnd fromSlice p.euid id planSha256 call es d' ∧
          o ≠ .ok (some .cleanupRevalidateAndReapprove) :=
      hm.bind (fun _ _ hend => sat_pure ⟨hend, by simp⟩) (fun _ _ hend => ⟨hend, by simp⟩)
        fun _ hend => ⟨hend, by simp⟩
    refine (inDirectory_sat hd hm').mono ?_
    rintro o r' ⟨d', rfl, hend, ho⟩
    exact ⟨onRoot d' hend, fun heq => absurd heq ho⟩
  cases call with
  | markStarted => exact ofTransition _ (transition_callEnd _ rfl hback hj)
  | recordRpmResult rc cb => exact ofTransition _ (transition_callEnd _ rfl hback hj)
  | recordRpmResultWithProblems rc cb ps => exact ofTransition _ (transition_callEnd _ rfl hback hj)
  | reconcile result =>
    refine ofTransition _ (sat_bind (sat_lift (fun _ _ => ?_) fun _ _ => .inl hj))
    exact transition_callEnd _ rfl hback hj
  | recover =>
    have hm : Sat (fun _ => True) (do
        let action ← State.recover fromSlice p
        pure (some action)) d fun o d' =>
          CallEnd fromSlice p.euid id planSha256 .recover es d' ∧
          (o = .ok (some .cleanupRevalidateAndReapprove) → ∀ e ∈ es, e.state = .prepared) := by
      refine (State.recover_sat hback hj).bind (fun action d' hend => ?_)
        (fun _ _ hend => ⟨hend.1, by simp⟩) fun _ hend => ⟨hend.1, by simp⟩
      exact sat_pure ⟨hend.1, fun heq => hend.2 (by simpa using heq)⟩
    refine (inDirectory_sat hd hm).mono ?_
    rintro o r' ⟨d', rfl, hend, ho⟩
    exact ⟨onRoot d' hend, ho⟩
  | reopen =>
    refine openTransaction_sat.bind ?_ ?_ ?_
    · rintro _ r' rfl
      exact sat_pure ⟨.inl ⟨d, hd, hj⟩, by simp⟩
    · rintro _ r' rfl
      exact ⟨.inl ⟨d, hd, hj⟩, by simp⟩
    · rintro r' rfl
      exact ⟨.inl ⟨d, hd, hj⟩, by simp⟩

/-! ## Whole runs -/

theorem journalAt_create {p : Process} {fates : List (Fate StateError)} {r₀ : Root}
    (hback : ReadsBack fromSlice (preparedEntry id planSha256))
    (hcreate : (create p id planSha256 fates r₀).1 = .ok ()) :
    JournalAt fromSlice p.euid id planSha256 (create p id planSha256 fates r₀).2.1
      [preparedEntry id planSha256] := by
  have hend := (create_sat p id planSha256 r₀).run fates
  rw [hcreate] at hend
  obtain ⟨-, hpub, d, hput, hp⟩ := hend
  rw [hput]
  have hempty : Holds fromSlice p.euid (Root.freshDirectory p.euid) [] :=
    ⟨rfl, by simp, fun n hn => by simp [Root.freshDirectory] at hn, .nil⟩
  have hholds := hempty.published (e := preparedEntry id planSha256) hp
    (endsWith_recordTemporary 0 p.pid) rfl (by simp) hpub (hback hpub)
  exact ⟨d, Root.put_children .., ⟨hholds, by simp⟩, rfl⟩

/-- The records that the calls of a run are asked to write. -/
def askedEntries (id : TransactionId) (planSha256 : String) (turns : List Turn) :
    List JournalEntry :=
  turns.filterMap fun turn => turn.call.asked id planSha256

/-- A run keeps the invariant and only adds records. -/
theorem journalAt_runTurns {turns : List Turn}
    (hback : ∀ e ∈ askedEntries id planSha256 turns, ReadsBack fromSlice e)
    (h : JournalAt fromSlice euid id planSha256 r es) :
    ∃ es', JournalAt fromSlice euid id planSha256 (runTurns fromSlice euid id turns r) es' ∧
      es <+: es' := by
  induction turns generalizing r es with
  | nil => exact ⟨es, h, List.prefix_refl es⟩
  | cons turn turns ih =>
    have hturn : ∀ e ∈ turn.call.asked id planSha256, ReadsBack fromSlice e := fun e he =>
      hback e (List.mem_filterMap.mpr ⟨turn, List.mem_cons_self, he⟩)
    have hrest : ∀ e ∈ askedEntries id planSha256 turns, ReadsBack fromSlice e := fun e he => by
      obtain ⟨t, ht, hasked⟩ := List.mem_filterMap.mp he
      exact hback e (List.mem_filterMap.mpr ⟨t, List.mem_cons_of_mem _ ht, hasked⟩)
    have hstep := ((Call.run_sat (p := ⟨turn.pid, euid⟩) hturn h).run turn.fates).1
    rcases hstep with hsame | ⟨e, -, hmore⟩
    · exact ih hrest hsame
    · obtain ⟨es', hes', hpre⟩ := ih hrest hmore
      exact ⟨es', hes', (List.prefix_append es [e]).trans hpre⟩

/-- **Every run over one transaction.** After a successful `create` and any calls `before`, then
`later`, by any processes and with any faults and crashes, the records load and are a non-empty
prefix of the lifecycle with one transaction id and one plan digest. The next call leaves the list as
it is or adds exactly the record it was asked to write, whether it succeeds, fails or dies. Once a
`Started` record is on disk, no later `recover` asks for a cleanup and a new approval. -/
theorem journal_run {pid : UInt32} {fates : List (Fate StateError)} {r₀ : Root}
    (before later : List Turn) (turn : Turn)
    (hcreate : (create ⟨pid, euid⟩ id planSha256 fates r₀).1 = .ok ())
    (hback : ∀ e ∈ preparedEntry id planSha256 ::
      askedEntries id planSha256 (before ++ later ++ [turn]), ReadsBack fromSlice e) :
    let r := (create ⟨pid, euid⟩ id planSha256 fates r₀).2.1
    let r₁ := runTurns fromSlice euid id before r
    let r₂ := runTurns fromSlice euid id later r₁
    let r₃ := (turn.run fromSlice euid id r₂).2
    ∃ es₁ es₂ es₃, loadJournal fromSlice euid id r₁ = .ok es₁ ∧
      loadJournal fromSlice euid id r₂ = .ok es₂ ∧ loadJournal fromSlice euid id r₃ = .ok es₃ ∧
      es₁ <+: es₂ ∧ LifecyclePrefix es₂ ∧
      (∀ e ∈ es₂, e.transactionId = id.asStr ∧ e.planSha256 = planSha256) ∧
      (es₃ = es₂ ∨ ∃ e, turn.call.asked id planSha256 = some e ∧ es₃ = es₂ ++ [e]) ∧
      ((∃ e ∈ es₁, e.state = .started) →
        (turn.run fromSlice euid id r₂).1 ≠ .ok (some .cleanupRevalidateAndReapprove)) := by
  intro r r₁ r₂ r₃
  have hasked : ∀ turns : List Turn, turns ⊆ before ++ later ++ [turn] →
      ∀ e ∈ askedEntries id planSha256 turns, ReadsBack fromSlice e := by
    intro turns hsub e he
    obtain ⟨t, ht, hte⟩ := List.mem_filterMap.mp he
    exact hback e (List.mem_cons_of_mem _ (List.mem_filterMap.mpr ⟨t, hsub ht, hte⟩))
  have h₀ := journalAt_create (hback _ List.mem_cons_self) hcreate
  obtain ⟨es₁, h₁, -⟩ := journalAt_runTurns (hasked before (by simp)) h₀
  obtain ⟨es₂, h₂, hpre⟩ := journalAt_runTurns (hasked later (by simp)) h₁
  have hturn : ∀ e ∈ turn.call.asked id planSha256, ReadsBack fromSlice e := fun e he =>
    hasked [turn] (by simp) e (List.mem_filterMap.mpr ⟨turn, by simp, he⟩)
  obtain ⟨hstep, hcleanup⟩ := (Call.run_sat (p := ⟨turn.pid, euid⟩) hturn h₂).run turn.fates
  have ⟨d₂, _, hj₂⟩ := h₂
  have hrecords : ∀ e ∈ es₂, e.transactionId = id.asStr ∧ e.planSha256 = planSha256 :=
    fun e he => ⟨(hj₂.record e he).1, (hj₂.record e he).2.1⟩
  have hlate : (∃ e ∈ es₁, e.state = .started) →
      (turn.run fromSlice euid id r₂).1 ≠ .ok (some .cleanupRevalidateAndReapprove) := by
    rintro ⟨e, he, hstarted⟩ hout
    have hprepared := hcleanup hout e (hpre.subset he)
    rw [hstarted] at hprepared
    cases hprepared
  rcases hstep with hsame | ⟨e, he, hmore⟩
  · exact ⟨es₁, es₂, es₂, h₁.load, h₂.load, hsame.load, hpre, hj₂.lifecyclePrefix, hrecords,
      .inl rfl, hlate⟩
  · exact ⟨es₁, es₂, es₂ ++ [e], h₁.load, h₂.load, hmore.load, hpre, hj₂.lifecyclePrefix,
      hrecords, .inr ⟨e, he, rfl⟩, hlate⟩

end

/-- A root without transactions. -/
def emptyRoot (euid : UInt32) : Root := ⟨⟨euid, 0o040700, 2⟩, ∅⟩

/-- A parser that knows the records of a transaction up to its recovery. -/
def recoveryParser : List UInt8 → Except String JournalEntry :=
  parserOf [preparedEntry exampleId exampleDigest,
    recordOf exampleId exampleDigest .started none none,
    recordOf exampleId exampleDigest .rpmResult (some ⟨-1, .zero, []⟩) none]

/-- A transaction is created and started, and the process that recovers it dies at its first
step. -/
theorem journal_run_recover_dies :
    ∃ es, loadJournal recoveryParser 0 exampleId
        (runTurns recoveryParser 0 exampleId [⟨8, .markStarted, []⟩]
          (create ⟨7, 0⟩ exampleId exampleDigest [] (emptyRoot 0)).2.1) = .ok es ∧
      LifecyclePrefix es := by
  have hcreate : (create ⟨7, 0⟩ exampleId exampleDigest [] (emptyRoot 0)).1 = .ok () := by
    decide +kernel
  have hback : ∀ e ∈ preparedEntry exampleId exampleDigest ::
      askedEntries exampleId exampleDigest
        ([] ++ [⟨8, .markStarted, []⟩] ++ [⟨9, .recover, [.die]⟩]),
      canonicalDecode recoveryParser (canonicalEncode e) = .ok e := by
    decide +kernel
  obtain ⟨_, es, _, _, hload, _, _, hpre, -⟩ := @journal_run recoveryParser 0 _ _ _ _ _ []
    [⟨8, .markStarted, []⟩] ⟨9, .recover, [.die]⟩ hcreate fun e he _ => hback e he
  exact ⟨es, hload, hpre⟩

end Dnfast.State
