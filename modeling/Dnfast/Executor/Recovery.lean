import Dnfast.Executor.Disk

/-! # Recovery of pending transactions

What `recover_pending_transactions` does, in an environment without faults, to a disk that earlier
runs left behind. It goes through the transactions in the order of their names and stops at the
first one that it cannot recover. `Recoverable` says which directories these are, by the names of
the files in them: a directory whose first record is missing does not load, and a temporary file
left by a dead process with the same process id stops the publication of a record.

`recoverPendingTransactions_iff` is the result: recovery settles the disk exactly when every
directory is recoverable. -/

namespace Dnfast.Executor

open Durable Durable.Exec
open Dnfast.State
open Dnfast.Core (canonicalEncode canonicalDecode)

/-- No step fails. -/
abbrev NoFaults : Fate StateError → Prop := fun _ => False

/-! ## Staging -/

/-- The staging directory of a transaction. -/
def VarLib.stage (w : VarLib) (name : String) : Option Directory :=
  w.staging.bind fun s => s.children[name]?

/-- `w'` differs from `w` in the staging directory `name` only. -/
structure StageOnlyAt (name : String) (w w' : VarLib) : Prop where
  transactions : w'.transactions = w.transactions
  others : ∀ n, n ≠ name → w'.stage n = w.stage n

section
variable {p : Process} {pid : UInt32} {name child : String} {s : Root} {d : Directory}

/-- One turn of the loop of `cleanup_private_child`. -/
theorem unlink_private_clean (hd : StageDir d) (hn : name ∈ d.files) :
    Sat NoFaults (do
      Exec.observe fun d => do
        let file ← Directory.openRead d name
        verify 0 file.stat false true
      Exec.step (Directory.unlinkat name)) d fun o d' =>
        o = .ok () ∧ d' = { d with files := d.files.erase name } := by
  obtain ⟨f, hf⟩ := Option.ne_none_iff_exists'.mp (Directory.mem_files_iff.mp hn)
  have hstat := hd.files name f hf
  have hread : d.openRead name = .ok f := by simp [Directory.openRead, hf, hstat]
  have hverify : verify 0 f.stat false true = .ok () := by
    rw [hstat]
    exact verify_freshStat 0 true
  have hunlink : d.unlinkat name = .ok ((), { d with files := d.files.erase name }) := by
    simp [Directory.unlinkat, hf, hstat]
  refine bind_observe_clean (b := ()) ?_ (step_clean hunlink ⟨rfl, rfl⟩)
  simp [hread, hverify, bind, Except.bind]

/-- Where the cleanup of a staging directory that is there ends. -/
def RemovedEnd (child : String) (s : Root) (o : Outcome StateError Unit) (s' : Root) : Prop :=
  o = .ok () ∧ Root.OnlyAt child s s' ∧ s'.children[child]? = none

theorem cleanupPrivateChild_clean (hs : RootOf (fun _ => StageDir) s)
    (hd : s.children[child]? = some d) :
    Sat NoFaults (cleanupPrivateChild (rootProcess pid) child) s (RemovedEnd child s) := by
  have hdir := hs.children child d hd
  have hopen : s.openTransaction 0 child = .ok d := Root.openTransaction_of_fresh hd hdir.stat
  refine bind_observe_clean (b := ()) (by rw [hs.stat]; exact Root.verify_freshDirStat 0) ?_
  refine bind_observe_clean hopen ?_
  -- the directory holds exactly the files that the loop has not reached
  let I : List String → Root → Prop := fun rest s' => Root.OnlyAt child s s' ∧ rest.Nodup ∧
    ∃ d', s'.children[child]? = some d' ∧ StageDir d' ∧ ∀ n, n ∈ d'.files ↔ n ∈ rest
  have hI : I d.childNames s := by
    refine ⟨.refl child s, Std.ExtTreeMap.nodup_keys, d, hd, hdir, fun n => ?_⟩
    rw [Directory.mem_childNames, Directory.mem_files_iff]
  have hloop : Sat NoFaults (Exec.forEach (fun name => inDirectory child do
      Exec.observe fun d => do
        let file ← Directory.openRead d name
        verify (rootProcess pid).euid file.stat false true
      Exec.step (Directory.unlinkat name)) d.childNames) s fun o s' => o = .ok () ∧ I [] s' := by
    refine sat_forEach hI (fun s' h => ⟨rfl, h⟩) ?_
    rintro n rest s₁ ⟨honly, hnodup, d₁, hd₁, hdir₁, hmem⟩
    obtain ⟨hnot, hnodup'⟩ := List.nodup_cons.mp hnodup
    refine (inDirectory_sat hd₁ (unlink_private_clean hdir₁
      ((hmem n).mpr List.mem_cons_self))).mono ?_
    rintro o s₂ ⟨d₂, rfl, rfl, rfl⟩
    refine ⟨honly.trans (Root.onlyAt_put ..), hnodup', _, Root.put_children .., ?_, fun m => ?_⟩
    · refine ⟨hdir₁.stat, fun m f hf => hdir₁.files m f ?_⟩
      rw [Std.ExtTreeMap.getElem?_erase] at hf
      split at hf
      · cases hf
      · exact hf
    · rw [Std.ExtTreeMap.mem_erase, hmem, Ne, Std.LawfulEqOrd.compare_eq_iff_eq, List.mem_cons]
      constructor
      · rintro ⟨hne, rfl | hm⟩
        · exact absurd rfl hne
        · exact hm
      · exact fun hm => ⟨fun heq => hnot (heq ▸ hm), .inr hm⟩
  refine hloop.bind ?_ (by simp) (by simp)
  rintro _ s₁ ⟨-, honly, -, d₁, hd₁, hdir₁, hmem⟩
  refine bind_sync_clean ?_
  have hempty : d₁.files.isEmpty = true := by
    rw [← Std.ExtTreeMap.isEmpty_keys, List.isEmpty_iff]
    refine List.eq_nil_iff_forall_not_mem.mpr fun n hn => ?_
    exact absurd ((hmem n).mp (Std.ExtTreeMap.mem_keys.mp hn)) List.not_mem_nil
  have hrmdir : s₁.rmdir child = .ok ((), { s₁ with children := s₁.children.erase child }) := by
    simp [Root.rmdir, hd₁, hdir₁.stat, hempty]
  obtain ⟨honly', hgone⟩ := Root.onlyAt_rmdir hrmdir
  exact bind_step_clean hrmdir (sync_clean ⟨rfl, honly.trans honly', hgone⟩)

end

section
variable {fromSlice : List UInt8 → Except String JournalEntry} {ts : List Transaction}
  {w : VarLib} {id : TransactionId} {pid : UInt32}

/-- An absent staging directory is no error. -/
theorem cleanupStaging_absent (hw : Disk fromSlice ts w) (habsent : w.stage id.asStr = none) :
    Sat NoFaults (cleanupStaging (rootProcess pid) id) w fun o w' => o = .ok () ∧ w' = w := by
  have hnoent : containsNoSuchFile Errno.noent.message = true := by decide
  have hzoom : Sat NoFaults (onStaging (cleanupPrivateChild (rootProcess pid) id.asStr)) w
      fun o w' => o = .err (errno .noent) ∧ w' = w := by
    refine sat_zoom (fun _ => ⟨rfl, rfl⟩) fun s hs => ?_
    have hchild : s.children[id.asStr]? = none := by simpa [VarLib.stage, hs] using habsent
    have hput : { w with staging := some s } = w := by rw [← hs]
    have hopen : s.openTransaction 0 id.asStr = .error (errno .noent) := by
      simp [Root.openTransaction, hchild]
    refine bind_observe_clean (b := ()) ?_ (bind_observe_refused hopen ⟨rfl, hput⟩)
    rw [(hw.staging s hs).stat]
    exact Root.verify_freshDirStat 0
  refine sat_bind (sat_attempt (hzoom.mono ?_))
  rintro o w' ⟨rfl, rfl⟩
  simp only [Caught, Then, errno, hnoent, if_true]
  exact sat_pure ⟨rfl, rfl⟩

/-- Where the cleanup of a prepared transaction's staging ends. -/
def StagingRemoved (w : VarLib) (id : TransactionId) (o : Outcome StateError Unit) (w' : VarLib) :
    Prop :=
  o = .ok () ∧ StageOnlyAt id.asStr w w' ∧ w'.stage id.asStr = none

theorem cleanupStaging_clean (hw : Disk fromSlice ts w) :
    Sat NoFaults (cleanupStaging (rootProcess pid) id) w (StagingRemoved w id) := by
  cases hstage : w.stage id.asStr with
  | none =>
    refine (cleanupStaging_absent hw hstage).mono ?_
    rintro o w' ⟨rfl, rfl⟩
    exact ⟨rfl, ⟨rfl, fun _ _ => rfl⟩, hstage⟩
  | some d =>
    obtain ⟨s, hs, hd⟩ := Option.bind_eq_some_iff.mp hstage
    have hzoom : Sat NoFaults (onStaging (cleanupPrivateChild (rootProcess pid) id.asStr)) w
        (StagingRemoved w id) := by
      refine sat_zoom (fun hnone => by simp [hs] at hnone) fun s₁ hs₁ => ?_
      rw [hs] at hs₁
      cases hs₁
      refine (cleanupPrivateChild_clean (hw.staging s hs) hd).mono ?_
      rintro o s' ⟨rfl, honly, hgone⟩
      exact ⟨rfl, ⟨rfl, fun n hn => by simpa [VarLib.stage, hs] using honly.others n hn⟩, hgone⟩
    refine sat_bind (sat_attempt (hzoom.mono ?_))
    rintro o w' ⟨rfl, hremoved⟩
    exact sat_pure ⟨rfl, hremoved⟩

end

/-! ## One journal -/

/-- What a recovery by the process `pid` needs of a transaction directory: the first record, and
names for the temporary files of the records that a started transaction still lacks. -/
structure Recoverable (pid : UInt32) (d : Directory) : Prop where
  created : recordName 0 ∈ d.files
  free : recordName 1 ∈ d.files → ∀ sequence : UInt64, sequence = 2 ∨ sequence = 3 →
    recordName sequence ∉ d.files → recordTemporary sequence pid ∉ d.files

instance (pid : UInt32) (d : Directory) : Decidable (Recoverable pid d) :=
  decidable_of_iff (recordName 0 ∈ d.files ∧ (recordName 1 ∈ d.files →
      (recordName 2 ∉ d.files → recordTemporary 2 pid ∉ d.files) ∧
        (recordName 3 ∉ d.files → recordTemporary 3 pid ∉ d.files)))
    ⟨fun h => ⟨h.1, fun hone k hk => by
        rcases hk with rfl | rfl
        · exact (h.2 hone).1
        · exact (h.2 hone).2⟩,
      fun h => ⟨h.created, fun hone => ⟨h.free hone 2 (.inl rfl), h.free hone 3 (.inr rfl)⟩⟩⟩

/-- The directory holds a journal of `t` whose last record is in `state`. -/
structure EndsIn (fromSlice : List UInt8 → Except String JournalEntry) (t : Transaction)
    (d : Directory) (es : List JournalEntry) (state : TransactionState) : Prop
    extends Journal fromSlice 0 t.id t.planSha256.hex d es where
  last : ∃ e, es.getLast? = some e ∧ e.state = state

section
variable {fromSlice : List UInt8 → Except String JournalEntry} {t : Transaction} {d : Directory}
  {es : List JournalEntry} {state : TransactionState} {pid : UInt32}

theorem exists_endsIn (h : Journal fromSlice 0 t.id t.planSha256.hex d es) :
    ∃ state, EndsIn fromSlice t d es state := by
  obtain ⟨e, he, -⟩ := h.exists_last
  exact ⟨e.state, h, e, he, rfl⟩

theorem EndsIn.length (h : EndsIn fromSlice t d es state) :
    es.length = state.index.toNat + 1 := by
  obtain ⟨e, he, rfl⟩ := h.last
  obtain ⟨e', he', hlen⟩ := h.exists_last
  rw [he] at he'
  cases he'
  rw [← hlen, (h.record e (List.mem_of_getLast? he)).2.2]

theorem EndsIn.recordName_mem (h : EndsIn fromSlice t d es state) (sequence : UInt64) :
    recordName sequence ∈ d.files ↔ sequence ≤ state.index := by
  rw [h.recordName_mem_iff, h.length, UInt64.le_iff_toNat_le]
  omega

theorem not_recoverable_of_empty (h : Holds fromSlice 0 d []) : ¬ Recoverable pid d := by
  intro hrec
  have := h.recordName_mem_iff.mp hrec.created
  simp at this

theorem EndsIn.recoverable_iff (pid : UInt32) (h : EndsIn fromSlice t d es state) :
    Recoverable pid d ↔ (state = .started → recordTemporary 2 pid ∉ d.files) ∧
      (state = .started ∨ state = .rpmResult → recordTemporary 3 pid ∉ d.files) := by
  have hmem := h.recordName_mem
  constructor
  · intro hrec
    refine ⟨?_, ?_⟩
    · rintro rfl
      exact hrec.free ((hmem 1).mpr (by decide)) 2 (.inl rfl) (mt (hmem 2).mp (by decide))
    · rintro (rfl | rfl)
      · exact hrec.free ((hmem 1).mpr (by decide)) 3 (.inr rfl) (mt (hmem 3).mp (by decide))
      · exact hrec.free ((hmem 1).mpr (by decide)) 3 (.inr rfl) (mt (hmem 3).mp (by decide))
  · rintro ⟨htwo, hthree⟩
    refine ⟨(hmem 0).mpr UInt64.zero_le, fun hstarted sequence hseq hlacks => ?_⟩
    rw [hmem] at hstarted hlacks
    cases state with
    | prepared => exact absurd hstarted (by decide)
    | started =>
      rcases hseq with rfl | rfl
      · exact htwo rfl
      · exact hthree (.inl rfl)
    | rpmResult =>
      rcases hseq with rfl | rfl
      · exact absurd hlacks (by decide)
      · exact hthree (.inr rfl)
    | reconciled =>
      rcases hseq with rfl | rfl
      · exact absurd hlacks (by decide)
      · exact absurd hlacks (by decide)

/-- Where a legal transition without faults ends. -/
def AppendEnd (fromSlice : List UInt8 → Except String JournalEntry) (pid : UInt32)
    (t : Transaction) (x : Payload) (d : Directory) (es : List JournalEntry)
    (o : Outcome StateError Unit) (d' : Directory) : Prop :=
  (o = .ok () ∧ recordTemporary x.state.index pid ∉ d.files ∧ d'.stat = d.stat ∧
    EndsIn fromSlice t d' (es ++ [x.record t]) x.state ∧
    ∀ k, k ≠ x.state.index → (recordTemporary k pid ∈ d'.files ↔ recordTemporary k pid ∈ d.files)) ∨
  ((∃ e, o = .err e) ∧ recordTemporary x.state.index pid ∈ d.files ∧ d' = d)

theorem EndsIn.transition_clean {x : Payload} (h : EndsIn fromSlice t d es state)
    (hlegal : state.legal x.state = true) (hpub : Publishable (x.record t))
    (hback : ReadsBack fromSlice (x.record t)) :
    Sat NoFaults (transition fromSlice (rootProcess pid) x.state x.nativeResult x.reconciliation) d
      (AppendEnd fromSlice pid t x d es) := by
  obtain ⟨previous, hlast, rfl⟩ := h.last
  have hindex : previous.sequence + 1 = x.state.index := by
    rw [(h.record previous (List.mem_of_getLast? hlast)).2.2,
      TransactionState.index_of_legal hlegal]
  have hsucc := h.successor_eq hlast hlegal x.nativeResult x.reconciliation
  by_cases htemp : recordTemporary x.state.index pid ∈ d.files
  · refine (State.transition_sat (p := rootProcess pid) h.toLoaded hlast x.state x.nativeResult
      x.reconciliation).mono fun o d' hend => .inr ?_
    rw [hsucc] at hend
    rcases hend with ⟨rfl, ⟨-, hfalse⟩ | ⟨e, rfl, -⟩⟩ | ⟨-, -, hend⟩
    · exact hfalse.elim
    · exact ⟨⟨e, rfl⟩, htemp, rfl⟩
    · match o, hend with
      | .ok _, ⟨hfree, _⟩ => exact absurd htemp hfree
      | .err e, .inl ⟨heq, _⟩ => exact ⟨⟨e, rfl⟩, htemp, heq⟩
      | .err _, .inr ⟨⟨_, hfalse⟩, _⟩ => exact hfalse.elim
      | .crashed, ⟨hfalse, _⟩ => exact hfalse.elim
  · have hclean := State.transition_clean (p := rootProcess pid) x.state x.nativeResult
      x.reconciliation h.toLoaded hlast hlegal (by rw [hsucc]; exact hpub)
      (by rw [hindex]; exact htemp)
    refine (hclean.and (h.toJournal.transition_sat (p := rootProcess pid) x.state x.nativeResult
      x.reconciliation hback)).mono ?_
    rintro o d' ⟨⟨rfl, hp⟩, hstat, ⟨hne, -⟩ | hj⟩
    · exact absurd rfl hne
    · refine .inl ⟨rfl, htemp, hstat, ⟨hj, x.record t, by simp, rfl⟩, fun k hk => ?_⟩
      rw [hindex] at hp
      rw [Directory.mem_files_iff, Directory.mem_files_iff, hp.others]
      · exact recordTemporary_ne_recordName _ _ _
      · exact fun heq => hk (recordTemporary_injective heq).1

theorem EndsIn.load (h : EndsIn fromSlice t d es state) : loadEntries fromSlice 0 d = .ok es :=
  loadEntries_eq_ok.mpr h.toLoaded

theorem publishable_interrupted (t : Transaction) : Publishable (Payload.interrupted.record t) := by
  refine publishable_recordOf t.id t.planSha256.valid rfl ⟨?_, ?_⟩
  · rintro r ⟨⟩
    rfl
  · simp [Payload.interrupted]

theorem publishable_recovered (inventory : Sha256) (t : Transaction) :
    Publishable ((Payload.recovered inventory).record t) := by
  refine publishable_recordOf t.id t.planSha256.valid rfl ⟨?_, ?_⟩
  · simp [Payload.recovered]
  · rintro r ⟨⟩
    exact inventory.valid

/-- What recovery decides on a journal in each state. Only a started one is written to. -/
def RecoverClean (fromSlice : List UInt8 → Except String JournalEntry) (pid : UInt32)
    (t : Transaction) (d : Directory) (es : List JournalEntry) :
    TransactionState → Outcome StateError RecoveryAction → Directory → Prop
  | .prepared, o, d' => o = .ok .cleanupRevalidateAndReapprove ∧ d' = d
  | .started, o, d' => (o = .ok .reconcileOnly ∧
      AppendEnd fromSlice pid t .interrupted d es (.ok ()) d') ∨
      ((∃ e, o = .err e) ∧ recordTemporary 2 pid ∈ d.files)
  | .rpmResult, o, d' => o = .ok .reconcileOnly ∧ d' = d
  | .reconciled, o, d' => (∃ result, o = .ok (.terminal result)) ∧ d' = d

theorem EndsIn.recover_clean (pid : UInt32) (h : EndsIn fromSlice t d es state)
    (hback : ReadsBack fromSlice (Payload.interrupted.record t)) :
    Sat NoFaults (recover fromSlice (rootProcess pid)) d
      (RecoverClean fromSlice pid t d es state) := by
  obtain ⟨final, hlast, hstate⟩ := h.last
  refine bind_observe_clean h.load ?_
  simp only [hlast, hstate]
  cases state with
  | prepared => exact sat_pure ⟨rfl, rfl⟩
  | started =>
    refine (h.transition_clean (x := .interrupted) rfl (publishable_interrupted t) hback).bind
      ?_ ?_ ?_
    · rintro ⟨⟩ d' hend
      exact sat_pure (.inl ⟨rfl, hend⟩)
    · rintro e d' (⟨heq, -⟩ | ⟨-, htemp, -⟩)
      · cases heq
      · exact .inr ⟨⟨e, rfl⟩, htemp⟩
    · rintro d' (⟨heq, -⟩ | ⟨⟨e, heq⟩, -⟩) <;> cases heq
  | rpmResult => exact sat_pure ⟨rfl, rfl⟩
  | reconciled =>
    obtain ⟨file, -, hrec⟩ := h.stored final (List.mem_of_getLast? hlast)
    obtain ⟨result, hresult⟩ := hrec.valid.reconciliation_of_reconciled hstate
    simp only [hresult]
    exact sat_pure ⟨⟨result, rfl⟩, rfl⟩

end

/-! ## One transaction -/

/-- The transaction needs no recovery any more: it is prepared and its staging is gone, or it is
reconciled. -/
def Settled (fromSlice : List UInt8 → Except String JournalEntry) (w : VarLib) (name : String) :
    Prop :=
  ∃ d es e, w.transactions.children[name]? = some d ∧ loadEntries fromSlice 0 d = .ok es ∧
    es.getLast? = some e ∧ ((e.state = .prepared ∧ w.stage name = none) ∨ e.state = .reconciled)

/-- What a recovery that succeeds does for the transaction `name`. -/
structure Recovered (fromSlice : List UInt8 → Except String JournalEntry) (name : String)
    (w w' : VarLib) : Prop where
  only : Root.OnlyAt name w.transactions w'.transactions
  stages : ∀ n, n ≠ name → w'.stage n = w.stage n
  settled : Settled fromSlice w' name

/-- Where the recovery of the transaction `name` in `d` ends. -/
def RecoverEnd (fromSlice : List UInt8 → Except String JournalEntry) (pid : UInt32)
    (name : String) (d : Directory) (w : VarLib) (o : Outcome StateError Unit) (w' : VarLib) :
    Prop :=
  (o = .ok () ∧ Recoverable pid d ∧ Recovered fromSlice name w w') ∨
    ((∃ e, o = .err e) ∧ ¬ Recoverable pid d)

section
variable {fromSlice : List UInt8 → Except String JournalEntry} {ts : List Transaction}
  {t : Transaction} {w : VarLib} {id : TransactionId} {d : Directory} {es : List JournalEntry}
  {state : TransactionState} {pid : UInt32} {inventory : Sha256} {α : Type}

/-- The disk with another journal directory. -/
def VarLib.putJournal (w : VarLib) (id : TransactionId) (d : Directory) : VarLib :=
  { w with transactions := w.transactions.put id.asStr d }

theorem putJournal_same (hd : w.transactions.children[id.asStr]? = some d) :
    w.putJournal id d = w := by
  rw [VarLib.putJournal, Root.put_of_getElem? hd]

theorem onJournal_sat {A : Fate StateError → Prop} {m : Exec Directory StateError α}
    {Q : Outcome StateError α → Directory → Prop}
    (hd : w.transactions.children[id.asStr]? = some d) (hm : Sat A m d Q) :
    Sat A (onJournal id m) w fun o w' => ∃ d', w' = w.putJournal id d' ∧ Q o d' := by
  unfold onJournal onTransactions
  refine sat_zoom (fun hnone => by simp at hnone) ?_
  rintro r ⟨⟩
  refine (inDirectory_sat hd hm).mono ?_
  rintro o r' ⟨d', rfl, hQ⟩
  exact ⟨d', rfl, hQ⟩

theorem openTransaction_clean (hd : w.transactions.children[id.asStr]? = some d)
    (hstat : d.stat = Root.freshDirStat 0) :
    Sat NoFaults (onTransactions (openTransaction (rootProcess pid) id)) w fun o w' =>
      o = .ok () ∧ w' = w := by
  refine sat_zoom (fun hnone => by simp at hnone) ?_
  rintro r ⟨⟩
  exact bind_observe_clean (Root.openTransaction_of_fresh hd hstat) (sync_clean ⟨rfl, rfl⟩)

theorem EndsIn.settled_reconciled {d' : Directory}
    (h : EndsIn fromSlice t d' es .reconciled) :
    Settled fromSlice (w.putJournal t.id d') t.id.asStr := by
  obtain ⟨e, he, hstate⟩ := h.last
  exact ⟨d', es, e, Root.put_children .., h.load, he, .inr hstate⟩

theorem recovered_putJournal {d' : Directory}
    (h : Settled fromSlice (w.putJournal t.id d') t.id.asStr) :
    Recovered fromSlice t.id.asStr w (w.putJournal t.id d') :=
  ⟨Root.onlyAt_put .., fun _ _ => rfl, h⟩

/-- The reconciliation with which recovery ends a transaction that has its native result. -/
theorem reconcile_clean (pid : UInt32) (hd : w.transactions.children[t.id.asStr]? = some d)
    (h : EndsIn fromSlice t d es .rpmResult)
    (hback : ReadsBack fromSlice ((Payload.recovered inventory).record t)) :
    Sat NoFaults (do
      Exec.sync
      onJournal t.id (reconcile fromSlice (rootProcess pid) ⟨inventory.hex, false, 0⟩)) w
      fun o w' => (o = .ok () ∧ recordTemporary 3 pid ∉ d.files ∧
          Recovered fromSlice t.id.asStr w w') ∨
        ((∃ e, o = .err e) ∧ recordTemporary 3 pid ∈ d.files) := by
  have hm : Sat NoFaults (reconcile fromSlice (rootProcess pid) ⟨inventory.hex, false, 0⟩) d
      (AppendEnd fromSlice pid t (.recovered inventory) d es) := by
    refine sat_bind (sat_lift (fun _ _ => ?_) ?_)
    · exact h.transition_clean (x := .recovered inventory) rfl (publishable_recovered inventory t)
        hback
    · intro e he
      rw [validateDigest_eq_ok.mpr inventory.valid] at he
      cases he
  refine bind_sync_clean ((onJournal_sat hd hm).mono ?_)
  rintro o _ ⟨d', rfl, ⟨rfl, hfree, -, hends, -⟩ | ⟨he, htemp, -⟩⟩
  · exact .inl ⟨rfl, hfree, recovered_putJournal hends.settled_reconciled⟩
  · exact .inr ⟨he, htemp⟩

theorem recoverTransaction_empty (hstat : d.stat = Root.freshDirStat 0)
    (hd : w.transactions.children[id.asStr]? = some d) (h : Holds fromSlice 0 d []) :
    Sat NoFaults (recoverTransaction fromSlice (rootProcess pid) inventory id) w fun o _ =>
      ∃ e, o = .err e := by
  refine (openTransaction_clean hd hstat).bind ?_ (by simp) (by simp)
  rintro _ w' ⟨-, rfl⟩
  have hrecover : Sat NoFaults (recover fromSlice (rootProcess pid)) d fun o _ =>
      ∃ e, o = .err e := by
    cases hload : loadEntries fromSlice 0 d with
    | ok es => exact absurd (loadEntries_eq_ok.mp hload) (not_loaded_of_holds_nil h)
    | error e => exact bind_observe_refused hload ⟨e, rfl⟩
  have hstaging : Sat NoFaults (recoverWithStaging fromSlice (rootProcess pid) id) w' fun o _ =>
      ∃ e, o = .err e := by
    refine (onJournal_sat hd hrecover).bind ?_ ?_ ?_
    · rintro _ _ ⟨_, _, _, he⟩
      cases he
    · exact fun e _ _ => ⟨e, rfl⟩
    · rintro _ ⟨_, _, _, he⟩
      cases he
  refine hstaging.bind ?_ (fun e _ _ => ⟨e, rfl⟩) ?_
  · rintro _ _ ⟨_, he⟩
    cases he
  · rintro _ ⟨_, he⟩
    cases he

theorem EndsIn.recoverTransaction_clean (hw : Disk fromSlice ts w)
    (hd : w.transactions.children[t.id.asStr]? = some d) (hstat : d.stat = Root.freshDirStat 0)
    (h : EndsIn fromSlice t d es state)
    (hinterrupted : ReadsBack fromSlice (Payload.interrupted.record t))
    (hrecovered : ReadsBack fromSlice ((Payload.recovered inventory).record t)) :
    Sat NoFaults (recoverTransaction fromSlice (rootProcess pid) inventory t.id) w
      (RecoverEnd fromSlice pid t.id.asStr d w) := by
  refine (openTransaction_clean hd hstat).bind ?_ (by simp) (by simp)
  rintro _ w ⟨-, rfl⟩
  have hrecover := onJournal_sat hd (h.recover_clean pid hinterrupted)
  have hiff := h.recoverable_iff pid
  cases state with
  | prepared =>
    have hrec : Recoverable pid d := hiff.mpr ⟨by simp, by simp⟩
    obtain ⟨e, he, hstate⟩ := h.last
    refine sat_bind (sat_bind (hrecover.mono ?_))
    rintro o _ ⟨_, rfl, rfl, rfl⟩
    rw [putJournal_same hd]
    simp only [Then, if_true]
    refine sat_bind ((cleanupStaging_clean hw).mono ?_)
    rintro o w' ⟨rfl, honly, hgone⟩
    refine sat_pure (sat_pure (.inl ⟨rfl, hrec, ?_, honly.others, ?_⟩))
    · rw [honly.transactions]
      exact .refl _ _
    · exact ⟨_, es, e, by rw [honly.transactions]; exact hd, h.load, he, .inl ⟨hstate, hgone⟩⟩
  | started =>
    refine sat_bind (sat_bind (hrecover.mono ?_))
    rintro o _ ⟨d', rfl, ⟨rfl, ⟨-, hfree, hstat', hends, htemps⟩ | ⟨⟨_, he⟩, -⟩⟩ | ⟨⟨e, rfl⟩, htemp⟩⟩
    · simp only [Then, reduceCtorEq, if_false]
      refine sat_pure ?_
      have hd' : (w.putJournal t.id d').transactions.children[t.id.asStr]? = some d' :=
        Root.put_children ..
      refine (reconcile_clean pid hd' hends hrecovered).mono ?_
      have hthree := htemps 3 (by decide)
      rintro o w' (⟨rfl, hfree', hdone⟩ | ⟨he, htemp⟩)
      · refine .inl ⟨rfl, hiff.mpr ⟨fun _ => hfree, fun _ => mt hthree.mpr hfree'⟩, ?_⟩
        exact ⟨(Root.onlyAt_put ..).trans hdone.only, hdone.stages, hdone.settled⟩
      · exact .inr ⟨he, fun hrec => (hiff.mp hrec).2 (.inl rfl) (hthree.mp htemp)⟩
    · cases he
    · exact .inr ⟨⟨e, rfl⟩, fun hrec => (hiff.mp hrec).1 rfl htemp⟩
  | rpmResult =>
    refine sat_bind (sat_bind (hrecover.mono ?_))
    rintro o _ ⟨_, rfl, rfl, rfl⟩
    rw [putJournal_same hd]
    simp only [Then, reduceCtorEq, if_false]
    refine sat_pure ((reconcile_clean pid hd h hrecovered).mono ?_)
    rintro o w' (⟨rfl, hfree, hdone⟩ | ⟨he, htemp⟩)
    · exact .inl ⟨rfl, hiff.mpr ⟨by simp, fun _ => hfree⟩, hdone⟩
    · exact .inr ⟨he, fun hrec => (hiff.mp hrec).2 (.inr rfl) htemp⟩
  | reconciled =>
    refine sat_bind (sat_bind (hrecover.mono ?_))
    rintro o _ ⟨_, rfl, ⟨result, rfl⟩, rfl⟩
    simp only [Then, reduceCtorEq, if_false]
    refine sat_pure (sat_pure (.inl ⟨rfl, hiff.mpr ⟨by simp, by simp⟩, ?_⟩))
    exact recovered_putJournal h.settled_reconciled

/-- **One transaction.** -/
theorem recoverTransaction_clean (pid : UInt32) (hw : Disk fromSlice ts w)
    (hd : w.transactions.children[id.asStr]? = some d)
    (hinterrupted : Payload.interrupted.Back fromSlice ts)
    (hrecovered : (Payload.recovered inventory).Back fromSlice ts) :
    Sat NoFaults (recoverTransaction fromSlice (rootProcess pid) inventory id) w
      (RecoverEnd fromSlice pid id.asStr d w) := by
  obtain ⟨hstat, t, ht, hname, hempty | ⟨es, hj⟩⟩ := hw.transactions.children _ _ hd
  · refine (recoverTransaction_empty hstat hd hempty).mono fun o w' he => ?_
    exact .inr ⟨he, not_recoverable_of_empty hempty⟩
  · obtain rfl := TransactionId.ext hname
    obtain ⟨state, hends⟩ := exists_endsIn hj
    exact hends.recoverTransaction_clean hw hd hstat (hinterrupted t ht) (hrecovered t ht)

/-- The program succeeds and changes nothing. -/
def Untouched (w : VarLib) (o : Outcome StateError Unit) (w' : VarLib) : Prop :=
  o = .ok () ∧ w' = w

/-- Nothing is done for a settled transaction. -/
theorem Settled.recoverTransaction_clean (hw : Disk fromSlice ts w)
    (h : Settled fromSlice w id.asStr) :
    Sat NoFaults (recoverTransaction fromSlice (rootProcess pid) inventory id) w
      (Untouched w) := by
  obtain ⟨d, es, e, hd, hload, hlast, hstate⟩ := h
  refine (openTransaction_clean hd (hw.transactions.children _ _ hd).stat).bind ?_ (by simp)
    (by simp)
  rintro _ w ⟨-, rfl⟩
  rcases hstate with ⟨hstate, habsent⟩ | hstate
  · have hrecover : Sat NoFaults (recover fromSlice (rootProcess pid)) d fun o d' =>
        o = .ok .cleanupRevalidateAndReapprove ∧ d' = d := by
      refine bind_observe_clean hload ?_
      simp only [hlast, hstate]
      exact sat_pure ⟨rfl, rfl⟩
    refine sat_bind (sat_bind ((onJournal_sat hd hrecover).mono ?_))
    rintro o _ ⟨_, rfl, rfl, rfl⟩
    rw [putJournal_same hd]
    simp only [Then, if_true]
    refine sat_bind ((cleanupStaging_absent hw habsent).mono ?_)
    rintro o w' ⟨rfl, rfl⟩
    exact sat_pure (sat_pure ⟨rfl, rfl⟩)
  · have hloaded := loadEntries_eq_ok.mp hload
    obtain ⟨file, -, hrec⟩ := hloaded.stored e (List.mem_of_getLast? hlast)
    obtain ⟨result, hresult⟩ := hrec.valid.reconciliation_of_reconciled hstate
    have hrecover : Sat NoFaults (recover fromSlice (rootProcess pid)) d fun o d' =>
        o = .ok (.terminal result) ∧ d' = d := by
      refine bind_observe_clean hload ?_
      simp only [hlast, hstate, hresult]
      exact sat_pure ⟨rfl, rfl⟩
    refine sat_bind (sat_bind ((onJournal_sat hd hrecover).mono ?_))
    rintro o _ ⟨_, rfl, rfl, rfl⟩
    rw [putJournal_same hd]
    simp only [Then, reduceCtorEq, if_false]
    exact sat_pure (sat_pure ⟨rfl, rfl⟩)

end

/-! ## All transactions -/

theorem transactionIds_eq_ok {P : String → Directory → Prop} {r : Root} (h : RootOf P r)
    (hname : ∀ n d, P n d → ∃ id : TransactionId, n = id.asStr) :
    ∃ ids, transactionIds r = .ok ids ∧ ids.map TransactionId.asStr = r.childNames := by
  have hparse : ∀ names : List String, (∀ n ∈ names, ∃ id : TransactionId, n = id.asStr) →
      ∃ ids, names.mapM TransactionId.parse = .ok ids ∧ ids.map TransactionId.asStr = names := by
    intro names
    induction names with
    | nil => exact fun _ => ⟨[], rfl, rfl⟩
    | cons n names ih =>
      intro hall
      obtain ⟨id, rfl⟩ := hall n List.mem_cons_self
      obtain ⟨ids, hids, hmap⟩ := ih fun m hm => hall m (List.mem_cons_of_mem _ hm)
      exact ⟨id :: ids, by simp [List.mapM_cons, hids, pure, Except.pure, bind, Except.bind],
        by simp [hmap]⟩
  refine hparse r.childNames fun n hn => ?_
  obtain ⟨d, hd⟩ := Option.ne_none_iff_exists'.mp
    (Root.mem_children_iff.mp (Std.ExtTreeMap.mem_keys.mp hn))
  exact hname n d (h.children n d hd)

section
variable {fromSlice : List UInt8 → Except String JournalEntry} {ts : List Transaction}
  {w : VarLib} {pid : UInt32} {inventory : Sha256}

theorem Disk.transactionIds (hw : Disk fromSlice ts w) :
    ∃ ids, transactionIds w.transactions = .ok ids ∧
      ids.map TransactionId.asStr = w.transactions.childNames :=
  transactionIds_eq_ok hw.transactions fun _ _ h => by
    obtain ⟨-, t, -, hname, -⟩ := h
    exact ⟨t.id, hname⟩

/-- Every transaction of the disk is settled. -/
def AllSettled (fromSlice : List UInt8 → Except String JournalEntry) (w : VarLib) : Prop :=
  ∀ name ∈ w.transactions.childNames, Settled fromSlice w name

/-- Every transaction of the disk is recoverable by the process `pid`. -/
def AllRecoverable (pid : UInt32) (w : VarLib) : Prop :=
  ∀ name ∈ w.transactions.childNames, ∀ d ∈ w.transactions.children[name]?, Recoverable pid d

instance (pid : UInt32) (w : VarLib) : Decidable (AllRecoverable pid w) :=
  inferInstanceAs (Decidable (∀ name ∈ w.transactions.childNames,
    ∀ d ∈ w.transactions.children[name]?, Recoverable pid d))

/-- Where recovery ends. -/
def RecoverAllEnd (fromSlice : List UInt8 → Except String JournalEntry) (ts : List Transaction)
    (pid : UInt32) (w : VarLib) (o : Outcome StateError Unit) (w' : VarLib) : Prop :=
  (o = .ok () ∧ AllRecoverable pid w ∧ Disk fromSlice ts w' ∧ AllSettled fromSlice w') ∨
    ((∃ e, o = .err e) ∧ ¬ AllRecoverable pid w)

/-- The invariant of the loop: the transactions `done` are settled and were recoverable, and those
in `rest` are as they were. -/
structure Recovering (fromSlice : List UInt8 → Except String JournalEntry) (ts : List Transaction)
    (pid : UInt32) (w : VarLib) (done rest : List TransactionId) (w' : VarLib) : Prop where
  disk : Disk fromSlice ts w'
  settled : ∀ id ∈ done, Settled fromSlice w' id.asStr
  recoverable : ∀ id ∈ done, ∀ d ∈ w.transactions.children[id.asStr]?, Recoverable pid d
  kept : ∀ id ∈ rest, w'.transactions.children[id.asStr]? = w.transactions.children[id.asStr]?
  names : ∀ name ∈ w'.transactions.childNames, ∃ id ∈ done ++ rest, name = id.asStr

theorem Settled.frame {name n : String} {w' : VarLib} (h : Settled fromSlice w n)
    (hrec : Recovered fromSlice name w w') (hne : n ≠ name) : Settled fromSlice w' n := by
  obtain ⟨d, es, e, hd, hload, hlast, hstate⟩ := h
  exact ⟨d, es, e, by rw [hrec.only.others n hne, hd], hload, hlast,
    by rw [hrec.stages n hne]; exact hstate⟩

theorem Recovering.step {done rest : List TransactionId} {id : TransactionId} {w₁ w₂ : VarLib}
    {d : Directory} (h : Recovering fromSlice ts pid w done (id :: rest) w₁)
    (hnodup : (done ++ id :: rest).Nodup) (hd : w.transactions.children[id.asStr]? = some d)
    (hdisk : Disk fromSlice ts w₂) (hrec : Recoverable pid d)
    (hdone : Recovered fromSlice id.asStr w₁ w₂) :
    Recovering fromSlice ts pid w (done ++ [id]) rest w₂ := by
  obtain ⟨-, hrest, hdisjoint⟩ := List.nodup_append.mp hnodup
  refine ⟨hdisk, ?_, ?_, ?_, ?_⟩
  · intro i hi
    rcases List.mem_append.mp hi with hi | hi
    · refine (h.settled i hi).frame hdone fun heq => ?_
      exact hdisjoint i hi id List.mem_cons_self (TransactionId.ext heq)
    · rw [List.mem_singleton.mp hi]
      exact hdone.settled
  · intro i hi d' hd'
    rcases List.mem_append.mp hi with hi | hi
    · exact h.recoverable i hi d' hd'
    · rw [List.mem_singleton.mp hi, hd] at hd'
      cases hd'
      exact hrec
  · intro i hi
    rw [hdone.only.others, h.kept i (List.mem_cons_of_mem _ hi)]
    intro heq
    exact (List.nodup_cons.mp hrest).1 (TransactionId.ext heq ▸ hi)
  · intro name hname
    by_cases hn : name = id.asStr
    · exact ⟨id, by simp, hn⟩
    · have hmem : name ∈ w₁.transactions.childNames := by
        rw [Root.childNames, Std.ExtTreeMap.mem_keys, Root.mem_children_iff] at hname ⊢
        rwa [hdone.only.others name hn] at hname
      obtain ⟨i, hi, heq⟩ := h.names name hmem
      exact ⟨i, by simpa using hi, heq⟩

/-- **All transactions.** -/
theorem recoverPendingTransactions_clean (pid : UInt32) (hw : Disk fromSlice ts w)
    (hinterrupted : Payload.interrupted.Back fromSlice ts)
    (hrecovered : (Payload.recovered inventory).Back fromSlice ts) :
    Sat NoFaults (recoverPendingTransactions fromSlice (rootProcess pid) inventory) w
      (RecoverAllEnd fromSlice ts pid w) := by
  obtain ⟨ids, hids, hmap⟩ := hw.transactionIds
  have hnodup : ids.Nodup := by
    have : (ids.map TransactionId.asStr).Nodup := hmap ▸ Std.ExtTreeMap.nodup_keys
    exact this.of_map
  refine bind_observe_clean hids ?_
  refine sat_forEach (I := fun rest w' => ∃ done, done ++ rest = ids ∧
    Recovering fromSlice ts pid w done rest w') ⟨[], rfl, hw, by simp, by simp, by simp, ?_⟩ ?_ ?_
  · intro name hname
    rw [← hmap] at hname
    obtain ⟨id, hid, rfl⟩ := List.mem_map.mp hname
    exact ⟨id, by simpa using hid, rfl⟩
  · rintro w' ⟨done, rfl, hend⟩
    refine .inl ⟨rfl, ?_, hend.disk, ?_⟩
    · intro name hname d hd
      rw [← hmap, List.append_nil] at hname
      obtain ⟨id, hid, rfl⟩ := List.mem_map.mp hname
      exact hend.recoverable id hid d hd
    · intro name hname
      obtain ⟨id, hid, rfl⟩ := hend.names name hname
      exact hend.settled id (by simpa using hid)
  · rintro id rest w₁ ⟨done, rfl, hinv⟩
    have hname : id.asStr ∈ w.transactions.childNames := by
      rw [← hmap]
      exact List.mem_map_of_mem (by simp)
    obtain ⟨d, hd⟩ := Option.ne_none_iff_exists'.mp
      (Root.mem_children_iff.mp (Std.ExtTreeMap.mem_keys.mp hname))
    have hd₁ : w₁.transactions.children[id.asStr]? = some d := by
      rw [hinv.kept id List.mem_cons_self, hd]
    refine ((recoverTransaction_clean pid hinv.disk hd₁ hinterrupted hrecovered).and_any
      (recoverTransaction_keeps id hinterrupted hrecovered w₁ hinv.disk)).mono ?_
    rintro o w₂ ⟨⟨rfl, hrec, hdone⟩ | ⟨⟨e, rfl⟩, hnot⟩, hdisk⟩
    · exact ⟨done ++ [id], by simp, hinv.step hnodup hd hdisk hrec hdone⟩
    · exact .inr ⟨⟨e, rfl⟩, fun hall => hnot (hall _ hname d hd)⟩

/-- Recovery changes nothing on a disk that is settled. -/
theorem AllSettled.recoverPendingTransactions_clean (pid : UInt32) (inventory : Sha256)
    (hw : Disk fromSlice ts w) (h : AllSettled fromSlice w) :
    Sat NoFaults (recoverPendingTransactions fromSlice (rootProcess pid) inventory) w
      (Untouched w) := by
  obtain ⟨ids, hids, hmap⟩ := hw.transactionIds
  refine bind_observe_clean hids ?_
  refine sat_forEach (I := fun rest w' => w' = w ∧ ∀ id ∈ rest, Settled fromSlice w id.asStr)
    ⟨rfl, fun id hid => h _ (hmap ▸ List.mem_map_of_mem hid)⟩ (fun w' hend => ⟨rfl, hend.1⟩) ?_
  rintro id rest w ⟨rfl, hrest⟩
  refine ((hrest id List.mem_cons_self).recoverTransaction_clean hw).mono ?_
  rintro o w' ⟨rfl, rfl⟩
  exact ⟨rfl, fun i hi => hrest i (List.mem_cons_of_mem _ hi)⟩

end

section
variable {fromSlice : List UInt8 → Except String JournalEntry}

/-- **Recovery after any history.** Runs of the executor end, fail or die at any step. The next
recovery, by a process of any id and without faults of its own, succeeds, leaves every transaction
prepared without staging or reconciled, and has nothing left to do for any later recovery, exactly
when every transaction directory is recoverable by that process. -/
theorem recoverPendingTransactions_iff {history : List (Invocation × List (Fate StateError))}
    {inventory : Sha256} (hparse : Parses fromSlice (transactionsOf history)
      (writtenPayloads (runsOf history) inventory)) (pid : UInt32) :
    let w := runHistory fromSlice history emptyVarLib
    let after := (recoverPendingTransactions fromSlice (rootProcess pid) inventory).clean w
    (after.1 = .ok () ∧ AllSettled fromSlice after.2 ∧ ∀ pid' inventory',
      (recoverPendingTransactions fromSlice (rootProcess pid') inventory').clean after.2 =
        (.ok (), after.2)) ↔ AllRecoverable pid w := by
  intro w after
  have hw : Disk fromSlice (transactionsOf history) w := disk_runHistory hparse
  have hrecovered : (Payload.recovered inventory).Back fromSlice (transactionsOf history) :=
    hparse.recovered_back (by simp [writtenPayloads])
  have hend := (recoverPendingTransactions_clean pid hw
    (hparse.interrupted_back (by simp [writtenPayloads])) hrecovered).clean
  constructor
  · rintro ⟨hok, -, -⟩
    rcases hend with ⟨-, hall, -⟩ | ⟨⟨e, herr⟩, -⟩
    · exact hall
    · cases hok.symm.trans herr
  · intro hall
    rcases hend with ⟨hok, -, hdisk, hsettled⟩ | ⟨-, hnot⟩
    · refine ⟨hok, hsettled, fun pid' inventory' => ?_⟩
      obtain ⟨hok', hsame⟩ := (hsettled.recoverPendingTransactions_clean pid' inventory'
        hdisk).clean
      exact Prod.ext hok' hsame
    · exact absurd hall hnot

end

/-! ## A process that dies -/

def exampleSha256 : Sha256 := ⟨exampleDigest, by decide⟩

/-- A run of the process 7 whose native transaction fails and changes nothing. -/
def exampleRun : Invocation where
  pid := 7
  recovers := false
  id := exampleId
  plan := []
  planSha256 := exampleSha256
  inputs := []
  approved := true
  inventory := exampleSha256
  native := ⟨true, some [], .zero, true, exampleSha256, false⟩

/-- The run dies after `steps` steps. -/
def diesAfter (steps : Nat) : List (Invocation × List (Fate StateError)) :=
  [(exampleRun, List.replicate steps .go ++ [.die])]

/-- The records of the run, and of a recovery that finds the same packages. -/
def exampleRecords : List JournalEntry :=
  [Payload.prepared, .started, .interrupted, .recovered exampleSha256,
    exampleRun.reconciled true].map fun x => x.record exampleRun.transaction

def exampleParser : List UInt8 → Except String JournalEntry := parserOf exampleRecords

theorem parses_exampleRun :
    Parses exampleParser [exampleRun.transaction] (writtenPayloads [exampleRun] exampleSha256) := by
  have hrecords : ∀ e ∈ exampleRecords, exampleParser (canonicalEncode e) = .ok e := by
    decide +kernel
  intro t ht x hx
  rw [List.mem_singleton.mp ht]
  refine hrecords _ (List.mem_map_of_mem ?_)
  rw [show writtenPayloads [exampleRun] exampleSha256 = [.prepared, .started, .interrupted,
    .recovered exampleSha256, .interrupted, exampleRun.reconciled true, .recovered exampleSha256,
    .recovered exampleSha256] from rfl] at hx
  simp only [List.mem_cons, List.not_mem_nil, or_false] at hx
  rcases hx with h | h | h | h | h | h | h | h <;>
    simp only [h, List.mem_cons, true_or, or_true]

/-- The run dies right after it published the `Started` record, and the process 9 recovers. -/
theorem recoverPendingTransactions_started :
    ((recoverPendingTransactions exampleParser (rootProcess 9) exampleSha256).clean
      (runHistory exampleParser (diesAfter 410) emptyVarLib)).1 = .ok () :=
  ((@recoverPendingTransactions_iff _ (diesAfter 410) _ parses_exampleRun 9).mpr
    (by decide +kernel)).1

/-- The run dies right after it made the transaction directory, and the next recovery fails. -/
theorem recoverPendingTransactions_refuses :
    Parses exampleParser [exampleRun.transaction] (writtenPayloads [exampleRun] exampleSha256) ∧
    ((recoverPendingTransactions exampleParser (rootProcess 9) exampleSha256).clean
      (runHistory exampleParser (diesAfter 9) emptyVarLib)).1 =
        .err (.corrupt "torn or missing journal sequence") :=
  ⟨parses_exampleRun, by decide +kernel⟩

end Dnfast.Executor
