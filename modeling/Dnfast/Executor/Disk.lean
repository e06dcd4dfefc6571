import Dnfast.Durable.Invariant
import Dnfast.State.Create
import Dnfast.State.Records
import Dnfast.Executor.Program

/-! # What runs of the executor leave on disk

`Disk` is the invariant of `/var/lib/dnfast`: each transaction directory is either without a record,
as a process that died in `create` leaves it, or holds a journal that loads; each staging directory
holds private files only. Every program of the executor keeps it, whatever fails and wherever the
process dies (`executorRun_keeps`), so it holds after every history of runs (`disk_runHistory`).

Reading a record back rests on the parser. `Parses` asks of it that it inverts the encoding on the
records that the runs of the history can write. -/

namespace Dnfast.Executor

open Durable Durable.Exec
open Std (ExtTreeMap)
open Dnfast.State
open Dnfast.Core (canonicalEncode canonicalDecode fitsString)

/-! ## The records of a history -/

/-- What the records of a transaction share. -/
structure Transaction where
  id : TransactionId
  planSha256 : Sha256

/-- What a record adds to that. -/
structure Payload where
  state : TransactionState
  nativeResult : Option NativeResult
  reconciliation : Option ReconcileResult

namespace Payload

def record (x : Payload) (t : Transaction) : JournalEntry :=
  recordOf t.id t.planSha256.hex x.state x.nativeResult x.reconciliation

def prepared : Payload := ⟨.prepared, none, none⟩

def started : Payload := ⟨.started, none, none⟩

/-- The native result that `recover` records for a transaction it finds started. -/
def interrupted : Payload := ⟨.rpmResult, some ⟨-1, .zero, []⟩, none⟩

/-- The reconciliation that recovery records. -/
def recovered (inventory : Sha256) : Payload :=
  ⟨.reconciled, none, some ⟨inventory.hex, false, 0⟩⟩

end Payload

namespace Invocation

def transaction (run : Invocation) : Transaction := ⟨run.id, run.planSha256⟩

def rpmResult (run : Invocation) : Payload := ⟨.rpmResult, some run.nativeResult, none⟩

def reconciled (run : Invocation) (success : Bool) : Payload :=
  ⟨.reconciled, none, some (run.reconciliation success)⟩

def payloads (run : Invocation) : List Payload :=
  [run.rpmResult, run.reconciled true, run.reconciled false, .recovered run.inventory]

end Invocation

/-- The payloads that the runs, and a recovery that finds `inventory`, can record. -/
def writtenPayloads (runs : List Invocation) (inventory : Sha256) : List Payload :=
  .prepared :: .started :: .interrupted :: .recovered inventory ::
    runs.flatMap Invocation.payloads

/-- The parser inverts the encoding on the records of the transactions with these payloads. -/
def Parses (fromSlice : List UInt8 → Except String JournalEntry) (ts : List Transaction)
    (xs : List Payload) : Prop :=
  ∀ t ∈ ts, ∀ x ∈ xs, fromSlice (canonicalEncode (x.record t)) = .ok (x.record t)

section
variable {fromSlice : List UInt8 → Except String JournalEntry} {ts : List Transaction}
  {xs : List Payload} {run : Invocation}

/-- The payload reads back in every transaction of the history. -/
def Payload.Back (fromSlice : List UInt8 → Except String JournalEntry) (ts : List Transaction)
    (x : Payload) : Prop :=
  ∀ t ∈ ts, ReadsBack fromSlice (x.record t)

theorem Parses.back (h : Parses fromSlice ts xs) {x : Payload} (hx : x ∈ xs)
    (hproblems : ∀ r ∈ x.nativeResult, ∀ problem ∈ r.problems, fitsString problem = true)
    (hdigest : ∀ r ∈ x.reconciliation, isDigest r.inventorySha256 = true) :
    x.Back fromSlice ts :=
  fun t ht => readsBack_of_serde (h t ht x hx) hproblems hdigest

theorem fitsString_of_validProblem {problem : String} (h : validProblem problem = true) :
    fitsString problem = true := by
  simp only [validProblem, Bool.and_eq_true, decide_eq_true_eq] at h
  refine fitsString_of_utf8ByteSize ?_
  have := h.1.2
  simp only [Core.maxStringBytes]
  omega

/-- The payloads of a run and of the recovery that it begins with read back. -/
structure RunBack (fromSlice : List UInt8 → Except String JournalEntry) (ts : List Transaction)
    (run : Invocation) : Prop where
  known : run.transaction ∈ ts
  prepared : Payload.prepared.Back fromSlice ts
  started : Payload.started.Back fromSlice ts
  interrupted : Payload.interrupted.Back fromSlice ts
  recovered : (Payload.recovered run.inventory).Back fromSlice ts
  /-- the result is recorded only when its problems are valid -/
  rpmResult : (∀ problems, run.native.failed = some problems → problems.all validProblem = true) →
    run.rpmResult.Back fromSlice ts
  reconciled : ∀ success, (run.reconciled success).Back fromSlice ts

theorem Parses.recovered_back {inventory : Sha256} (h : Parses fromSlice ts xs)
    (hx : Payload.recovered inventory ∈ xs) : (Payload.recovered inventory).Back fromSlice ts := by
  refine h.back hx (by simp [Payload.recovered]) ?_
  rintro r ⟨⟩
  exact inventory.valid

theorem Parses.interrupted_back (h : Parses fromSlice ts xs) (hx : Payload.interrupted ∈ xs) :
    Payload.interrupted.Back fromSlice ts :=
  h.back hx (by simp [Payload.interrupted]) (by simp [Payload.interrupted])

theorem Parses.runBack {runs : List Invocation} {inventory : Sha256}
    (h : Parses fromSlice ts (writtenPayloads runs inventory)) (hrun : run ∈ runs)
    (hts : run.transaction ∈ ts) : RunBack fromSlice ts run := by
  have hmem : ∀ x ∈ run.payloads, x ∈ writtenPayloads runs inventory := fun x hx => by
    simp only [writtenPayloads, List.mem_cons, List.mem_flatMap]
    exact .inr (.inr (.inr (.inr ⟨run, hrun, hx⟩)))
  refine ⟨hts, ?_, ?_, ?_, ?_, ?_, ?_⟩
  · exact h.back (by simp [writtenPayloads]) (by simp [Payload.prepared])
      (by simp [Payload.prepared])
  · exact h.back (by simp [writtenPayloads]) (by simp [Payload.started])
      (by simp [Payload.started])
  · exact h.interrupted_back (by simp [writtenPayloads])
  · exact h.recovered_back (hmem _ (by simp [Invocation.payloads]))
  · intro hvalid
    refine h.back (hmem _ (by simp [Invocation.payloads])) ?_ (by simp [Invocation.rpmResult])
    rintro r ⟨⟩ problem hproblem
    cases hfailed : run.native.failed with
    | none => simp [Invocation.nativeResult, hfailed] at hproblem
    | some problems =>
      simp only [Invocation.nativeResult, hfailed] at hproblem
      exact fitsString_of_validProblem (List.all_eq_true.mp (hvalid _ hfailed) _ hproblem)
  · intro success
    refine h.back (hmem _ (by cases success <;> simp [Invocation.payloads]))
      (by simp [Invocation.reconciled]) ?_
    rintro r ⟨⟩
    exact run.native.inventory.valid

end

/-! ## Roots -/

/-- A private root whose children all satisfy `P`. -/
structure RootOf (P : String → Directory → Prop) (r : Root) : Prop where
  stat : r.stat = Root.freshDirStat 0
  children : ∀ n d, r.children[n]? = some d → P n d

section
variable {P : String → Directory → Prop} {r : Root} {α : Type} {name : String}

theorem RootOf.put (h : RootOf P r) {d : Directory} (hd : P name d) : RootOf P (r.put name d) := by
  refine ⟨h.stat, fun n d' hd' => ?_⟩
  by_cases hn : n = name
  · subst hn
    rw [Root.put_children] at hd'
    cases hd'
    exact hd
  · rw [Root.put_children_of_ne hn] at hd'
    exact h.children n d' hd'

theorem inDirectory_keeps {m : Exec Directory StateError α} (h : Keeps (P name) m) :
    Keeps (RootOf P) (inDirectory name m) :=
  Keeps.zoom (J := fun _ => P name) (fun _ _ => h) (fun _ d hr hd => hr.children name d hd)
    fun _ _ _ hr _ hd => hr.put hd

theorem rmdir_keeps (name : String) : Keeps (RootOf P) (Exec.step (Root.rmdir name)) := by
  refine Keeps.step fun r _ r' hr hok => ?_
  obtain ⟨honly, hgone⟩ := Root.onlyAt_rmdir hok
  refine ⟨honly.stat.trans hr.stat, fun n d hd => ?_⟩
  by_cases hn : n = name
  · rw [hn, hgone] at hd
    cases hd
  · exact hr.children n d (by rw [← honly.others n hn, hd])

theorem mkdirat_keeps (hfresh : P name (Root.freshDirectory 0)) :
    Keeps (RootOf P) (Exec.step (Root.mkdirat 0 name)) := by
  refine Keeps.step fun r _ r' hr hok => ?_
  unfold Root.mkdirat at hok
  split at hok
  · cases hok
  · cases hok
    exact hr.put hfresh

end

/-! ## Journals -/

/-- A transaction directory as runs leave it: without a record, or with a journal. -/
structure JournalDir (fromSlice : List UInt8 → Except String JournalEntry) (ts : List Transaction)
    (name : String) (d : Directory) : Prop where
  stat : d.stat = Root.freshDirStat 0
  records : ∃ t ∈ ts, name = t.id.asStr ∧
    (Holds fromSlice 0 d [] ∨ ∃ es, Journal fromSlice 0 t.id t.planSha256.hex d es)

section
variable {fromSlice : List UInt8 → Except String JournalEntry} {ts : List Transaction}
  {name : String} {d : Directory} {pid : UInt32} {t : Transaction}

theorem not_loaded_of_holds_nil {euid : UInt32} {es : List JournalEntry}
    (h : Holds fromSlice euid d []) : ¬ Loaded fromSlice euid d es := by
  intro hl
  obtain ⟨e, he⟩ := List.exists_mem_of_ne_nil _ hl.nonempty
  obtain ⟨file, hfile, -⟩ := hl.stored e he
  obtain ⟨e', he', -⟩ := h.complete (recordName e.sequence) (by simp [hfile]) (by simp)
  cases he'

theorem transition_keeps {x : Payload} (hx : x.Back fromSlice ts) :
    Keeps (JournalDir fromSlice ts name)
      (transition fromSlice (rootProcess pid) x.state x.nativeResult x.reconciliation) := by
  rintro d ⟨hstat, t, ht, hname, hempty | ⟨es, hj⟩⟩
  · -- nothing loads, so nothing is written
    have hdir : JournalDir fromSlice ts name d := ⟨hstat, t, ht, hname, .inl hempty⟩
    refine sat_bind (sat_observe (fun _ => hdir) (fun _ _ => hdir) ?_ fun _ _ => hdir)
    intro es hes
    exact absurd (loadEntries_eq_ok.mp hes) (not_loaded_of_holds_nil hempty)
  · refine (hj.transition_sat (p := rootProcess pid) x.state x.nativeResult x.reconciliation
      (hx t ht)).mono fun o d' hend => ?_
    refine ⟨hend.1.trans hstat, t, ht, hname, .inr ?_⟩
    rcases hend.2 with ⟨-, hj'⟩ | hj'
    · exact ⟨es, hj'⟩
    · exact ⟨_, hj'⟩

theorem recover_keeps (hx : Payload.interrupted.Back fromSlice ts) :
    Keeps (JournalDir fromSlice ts name) (recover fromSlice (rootProcess pid)) := by
  refine Keeps.bind (Keeps.observe _) fun es => ?_
  cases es.getLast? with
  | none => exact Keeps.throw _
  | some final =>
    simp only
    cases final.state with
    | prepared => exact Keeps.pure _
    | started => exact Keeps.bind (transition_keeps hx) fun _ => Keeps.pure _
    | rpmResult => exact Keeps.pure _
    | reconciled =>
      cases final.reconciliation with
      | none => exact Keeps.throw _
      | some result => exact Keeps.pure _

theorem reconcile_keeps {result : ReconcileResult}
    (hx : (Payload.mk .reconciled none (some result)).Back fromSlice ts) :
    Keeps (JournalDir fromSlice ts name) (reconcile fromSlice (rootProcess pid) result) :=
  Keeps.bind (Keeps.lift _) fun _ => transition_keeps hx

/-- What `create` leaves behind is a directory without a record or the journal of the first one. -/
theorem JournalDir.of_leftover (ht : t ∈ ts) (hx : Payload.prepared.Back fromSlice ts)
    (h : Leftover (rootProcess pid) t.id t.planSha256.hex d) :
    JournalDir fromSlice ts t.id.asStr d := by
  refine ⟨h.stat, t, ht, rfl, ?_⟩
  have honly : ∀ n : String, d.files[n]? ≠ none → endsWith n ".json" = true →
      n = recordName 0 := by
    intro n hn hjson
    obtain ⟨f, hf⟩ := Option.ne_none_iff_exists'.mp hn
    rcases (h.files n f hf).2 with rfl | ⟨rfl, -⟩
    · simp at hjson
    · rfl
  cases hfile : d.files[recordName 0]? with
  | none =>
    refine .inl ⟨rfl, by simp, fun n hn hjson => ?_, .nil⟩
    exact absurd hfile (honly n hn hjson ▸ hn)
  | some f =>
    obtain ⟨hstat, htemp | ⟨-, hbytes⟩⟩ := h.files _ _ hfile
    · exact absurd htemp.symm (recordTemporary_ne_recordName _ _ _)
    have hpub : Publishable (recordOf t.id t.planSha256.hex .prepared none none) :=
      publishable_recordOf t.id t.planSha256.valid rfl ⟨by simp, by simp⟩
    have hrec : Record fromSlice 0 f (preparedEntry t.id t.planSha256.hex) := by
      refine ⟨by simp [hstat], by rw [hstat]; exact verify_freshStat _ _, ?_, ?_, hbytes,
        hpub.valid⟩
      · rw [hbytes]
        exact hpub.size
      · rw [hbytes]
        exact hx t ht hpub
    refine .inr ⟨[preparedEntry t.id t.planSha256.hex], ⟨⟨rfl, ?_, ?_, by simp⟩, by simp⟩, rfl⟩
    · intro e he
      rw [List.mem_singleton.mp he]
      exact ⟨f, hfile, hrec⟩
    · exact fun n hn hjson => ⟨_, List.mem_singleton_self _, honly n hn hjson⟩

theorem create_keeps (ht : t ∈ ts) (hx : Payload.prepared.Back fromSlice ts) :
    Keeps (RootOf (JournalDir fromSlice ts))
      (create (rootProcess pid) t.id t.planSha256.hex) := by
  intro r hr
  have hunfinished : ∀ r', Unfinished (rootProcess pid) t.id t.planSha256.hex r r' →
      RootOf (JournalDir fromSlice ts) r' := by
    rintro r' (rfl | ⟨-, honly, hchild⟩)
    · exact hr
    · refine ⟨honly.stat.trans hr.stat, fun n d hd => ?_⟩
      by_cases hn : n = t.id.asStr
      · subst hn
        rcases hchild with hgone | ⟨d', hd', hleft⟩
        · rw [hgone] at hd
          cases hd
        · rw [hd'] at hd
          cases hd
          exact .of_leftover ht hx hleft
      · exact hr.children n d (by rw [← honly.others n hn, hd])
  refine (create_sat (rootProcess pid) t.id t.planSha256.hex r).mono ?_
  rintro (_ | _ | _) r' hend
  · obtain ⟨-, -, d, rfl, hp⟩ := hend
    exact hr.put (.of_leftover ht hx (.of_interrupted (.inr hp)))
  · exact hunfinished r' hend.1
  · exact hunfinished r' hend.2

end

/-! ## Staging -/

/-- A staging directory as runs leave it. -/
structure StageDir (d : Directory) : Prop where
  stat : d.stat = Root.freshDirStat 0
  files : ∀ (n : String) f, d.files[n]? = some f → f.stat = Directory.freshStat 0

theorem stageDir_fresh : StageDir (Root.freshDirectory 0) :=
  ⟨rfl, fun n f hf => by simp [Root.freshDirectory] at hf⟩

theorem StageDir.within {d d' : Directory} (h : StageDir d) (hw : d.Within d') : StageDir d' :=
  ⟨hw.stat.trans h.stat, fun n f hf => h.files n f (hw.files n f hf)⟩

theorem unlinkat_keeps_stage (name : String) :
    Keeps StageDir (Exec.step (Directory.unlinkat name)) :=
  Keeps.step fun _ _ _ hd hok =>
    hd.within (Directory.Within.unlinkat ⟨rfl, fun _ _ hf => hf⟩ hok)

theorem stageFile_keeps (name : String) (bytes : List UInt8) :
    Keeps StageDir (stageFile name bytes) := by
  refine Keeps.bind (Keeps.step ?_) fun _ => Keeps.bind (Keeps.forEach _ fun byte _ =>
    Keeps.change ?_) fun _ => Keeps.bind Keeps.sync fun _ => Keeps.sync
  · intro d _ d' hd hok
    have hfill := Directory.openExclusive_filling hok
    refine ⟨hfill.stat.trans hd.stat, fun n f hf => ?_⟩
    by_cases hn : n = name
    · subst hn
      rw [hfill.file] at hf
      cases hf
      rfl
    · exact hd.files n f (by rw [← hfill.others n hn, hf])
  · intro d hd
    refine ⟨hd.stat, fun n f hf => ?_⟩
    simp only [Directory.append, ExtTreeMap.getElem?_modify] at hf
    split at hf
    · rename_i heq
      obtain rfl := Std.LawfulEqOrd.eq_of_compare heq
      obtain ⟨f', hf', rfl⟩ := Option.map_eq_some_iff.mp hf
      exact hd.files _ f' hf'
    · exact hd.files n f hf

/-! ## The whole disk -/

/-- The invariant of `/var/lib/dnfast`. -/
structure Disk (fromSlice : List UInt8 → Except String JournalEntry) (ts : List Transaction)
    (w : VarLib) : Prop where
  transactions : RootOf (JournalDir fromSlice ts) w.transactions
  staging : ∀ s, w.staging = some s → RootOf (fun _ => StageDir) s

section
variable {fromSlice : List UInt8 → Except String JournalEntry} {ts : List Transaction}
  {α : Type} {run : Invocation} {pid : UInt32}

theorem onTransactions_keeps {m : Exec Root StateError α}
    (h : Keeps (RootOf (JournalDir fromSlice ts)) m) :
    Keeps (Disk fromSlice ts) (onTransactions m) := by
  refine Keeps.zoom (J := fun _ => RootOf (JournalDir fromSlice ts)) (fun _ _ => h) ?_ ?_
  · rintro w r hw ⟨⟩
    exact hw.transactions
  · rintro w _ r' hw - hr'
    exact ⟨hr', hw.staging⟩

theorem onStaging_keeps {m : Exec Root StateError α} (h : Keeps (RootOf fun _ => StageDir) m) :
    Keeps (Disk fromSlice ts) (onStaging m) := by
  refine Keeps.zoom (J := fun _ => RootOf fun _ => StageDir) (fun _ _ => h)
    (fun w s hw hs => hw.staging s hs) ?_
  rintro w _ s' hw - hs'
  refine ⟨hw.transactions, ?_⟩
  rintro s ⟨⟩
  exact hs'

theorem onJournal_keeps {id : TransactionId} {m : Exec Directory StateError α}
    (h : Keeps (JournalDir fromSlice ts id.asStr) m) : Keeps (Disk fromSlice ts) (onJournal id m) :=
  onTransactions_keeps (inDirectory_keeps h)

/-! ### Recovery -/

theorem cleanupPrivateChild_keeps (p : Process) (child : String) :
    Keeps (RootOf fun _ => StageDir) (cleanupPrivateChild p child) := by
  refine Keeps.bind (Keeps.observe _) fun _ => Keeps.bind (Keeps.observe _) fun directory => ?_
  refine Keeps.bind (Keeps.forEach _ fun name _ => inDirectory_keeps ?_) fun _ => ?_
  · exact Keeps.bind (Keeps.observe _) fun _ => unlinkat_keeps_stage name
  · exact Keeps.bind Keeps.sync fun _ => Keeps.bind (rmdir_keeps child) fun _ => Keeps.sync

theorem cleanupStaging_keeps (p : Process) (id : TransactionId) :
    Keeps (Disk fromSlice ts) (cleanupStaging p id) := by
  refine Keeps.bind (Keeps.attempt (onStaging_keeps (cleanupPrivateChild_keeps p id.asStr)))
    fun result => ?_
  split
  · exact Keeps.pure _
  · split
    · exact Keeps.pure _
    · exact Keeps.throw _
  · exact Keeps.throw _

theorem recoverTransaction_keeps {inventory : Sha256} (id : TransactionId)
    (hinterrupted : Payload.interrupted.Back fromSlice ts)
    (hrecovered : (Payload.recovered inventory).Back fromSlice ts) :
    Keeps (Disk fromSlice ts)
      (recoverTransaction fromSlice (rootProcess pid) inventory id) := by
  refine Keeps.bind (onTransactions_keeps (Keeps.bind (Keeps.observe _) fun _ => Keeps.sync))
    fun _ => ?_
  have hstaging : Keeps (Disk fromSlice ts)
      (recoverWithStaging fromSlice (rootProcess pid) id) := by
    refine Keeps.bind (onJournal_keeps (recover_keeps hinterrupted)) fun action => ?_
    split
    · exact Keeps.bind (cleanupStaging_keeps _ id) fun _ => Keeps.pure _
    · exact Keeps.pure _
  refine Keeps.bind hstaging fun action => ?_
  cases action with
  | cleanupRevalidateAndReapprove => exact Keeps.pure _
  | terminal _ => exact Keeps.pure _
  | reconcileOnly =>
    exact Keeps.bind Keeps.sync fun _ => onJournal_keeps (reconcile_keeps hrecovered)

theorem recoverPendingTransactions_keeps {inventory : Sha256}
    (hinterrupted : Payload.interrupted.Back fromSlice ts)
    (hrecovered : (Payload.recovered inventory).Back fromSlice ts) :
    Keeps (Disk fromSlice ts)
      (recoverPendingTransactions fromSlice (rootProcess pid) inventory) :=
  Keeps.bind (Keeps.observe _) fun ids =>
    Keeps.forEach ids fun id _ => recoverTransaction_keeps id hinterrupted hrecovered

/-! ### One run -/

theorem createStaging_keeps (id : TransactionId) (plan : List UInt8) :
    Keeps (Disk fromSlice ts) (createStaging id plan) := by
  refine Keeps.bind (Keeps.change ?_) fun _ => onStaging_keeps ?_
  · intro w hw
    unfold systemDirectory
    split
    · exact hw
    · refine ⟨hw.transactions, ?_⟩
      rintro s ⟨⟩
      exact ⟨rfl, fun n d hd => by simp at hd⟩
  · refine Keeps.bind (mkdirat_keeps stageDir_fresh) fun _ => inDirectory_keeps ?_
    exact Keeps.bind (Keeps.observe _) fun _ => stageFile_keeps "plan.json" plan

theorem cleanupStage_keeps (id : TransactionId) (files : List String) :
    Keeps (Disk fromSlice ts) (cleanupStage id files) := by
  refine onStaging_keeps (Keeps.bind (Keeps.forEach _ fun name _ =>
    inDirectory_keeps (unlinkat_keeps_stage name)) fun _ => ?_)
  exact Keeps.bind Keeps.sync fun _ => Keeps.bind (rmdir_keeps _) fun _ => Keeps.sync

theorem dropStage_keeps (id : TransactionId) (files : List String) :
    Keeps (Disk fromSlice ts) (dropStage id files) := by
  refine onStaging_keeps (Keeps.bind (Keeps.forEach _ fun name _ =>
    Keeps.bind (Keeps.attempt (inDirectory_keeps (unlinkat_keeps_stage name)))
      fun _ => Keeps.pure _) fun _ => ?_)
  refine Keeps.bind (Keeps.attempt Keeps.sync) fun _ => ?_
  refine Keeps.bind (Keeps.attempt (rmdir_keeps _)) fun _ => ?_
  exact Keeps.bind (Keeps.attempt Keeps.sync) fun _ => Keeps.pure _

theorem reconcileAfterFailure_keeps (h : RunBack fromSlice ts run) :
    Keeps (Disk fromSlice ts) (reconcileAfterFailure fromSlice run) :=
  Keeps.bind (Keeps.attempt (onJournal_keeps (reconcile_keeps (h.reconciled false))))
    fun _ => Keeps.pure _

theorem recordResult_keeps (h : RunBack fromSlice ts run)
    (hvalid : ∀ problems, run.native.failed = some problems → problems.all validProblem = true) :
    Keeps (Disk fromSlice ts) (recordResult fromSlice run) :=
  onJournal_keeps (transition_keeps (h.rpmResult hvalid))

theorem finishTransaction_keeps (h : RunBack fromSlice ts run) :
    Keeps (Disk fromSlice ts) (finishTransaction fromSlice run) := by
  have hfailed := reconcileAfterFailure_keeps h
  unfold finishTransaction
  cases hrun : run.native.failed with
  | none =>
    refine Keeps.bind (Keeps.attempt (recordResult_keeps h (by simp [hrun]))) fun recorded => ?_
    cases recorded with
    | error e => exact Keeps.bind hfailed fun _ => Keeps.throw e
    | ok _ =>
      simp only
      split
      · refine Keeps.bind (Keeps.attempt (onJournal_keeps (reconcile_keeps (h.reconciled true))))
          fun reconciled => ?_
        cases reconciled with
        | ok _ => exact Keeps.pure _
        | error e => exact Keeps.bind hfailed fun _ => Keeps.throw e
      · exact Keeps.bind hfailed fun _ => Keeps.throw _
  | some problems =>
    simp only
    split
    · rename_i hvalid
      have hrecord : Keeps (Disk fromSlice ts) (recordResult fromSlice run) := by
        refine recordResult_keeps h fun problems' heq => ?_
        rw [hrun] at heq
        cases heq
        exact hvalid
      exact Keeps.bind (Keeps.attempt hrecord) fun _ => Keeps.bind hfailed fun _ => Keeps.throw _
    · exact Keeps.bind hfailed fun _ => Keeps.throw _

theorem executeTransaction_keeps (h : RunBack fromSlice ts run) :
    Keeps (Disk fromSlice ts) (executeTransaction fromSlice run) := by
  refine Keeps.bind Keeps.sync fun _ => ?_
  split
  · refine Keeps.bind (onJournal_keeps (transition_keeps h.started)) fun _ => ?_
    exact Keeps.bind Keeps.sync fun _ => finishTransaction_keeps h
  · exact Keeps.throw _

theorem runStaged_keeps (h : RunBack fromSlice ts run) :
    Keeps (Disk fromSlice ts) (runStaged fromSlice run) := by
  have hcreate : Keeps (RootOf (JournalDir fromSlice ts))
      (create (rootProcess run.pid) run.id run.planSha256.hex) :=
    create_keeps (t := run.transaction) h.known h.prepared
  refine Keeps.bind Keeps.sync fun _ => ?_
  split
  · refine Keeps.bind (onTransactions_keeps hcreate) fun _ => ?_
    refine Keeps.bind Keeps.sync fun _ => ?_
    refine Keeps.bind (Keeps.attempt (executeTransaction_keeps h)) fun _ => ?_
    refine Keeps.bind Keeps.sync fun _ => ?_
    exact Keeps.bind (cleanupStage_keeps _ _) fun _ => Keeps.lift _
  · exact cleanupStage_keeps _ _

theorem stageAndRun_keeps (h : RunBack fromSlice ts run) (inputs : List (String × List UInt8)) :
    ∀ staged, Keeps (Disk fromSlice ts) (stageAndRun fromSlice run staged inputs) := by
  induction inputs with
  | nil => exact fun staged => Keeps.onErr (runStaged_keeps h) (dropStage_keeps _ _)
  | cons input inputs ih =>
    intro staged
    refine Keeps.bind (Keeps.onErr (onStaging_keeps (inDirectory_keeps ?_)) (dropStage_keeps _ _))
      fun _ => ih _
    exact stageFile_keeps _ _

/-- **One run of the executor keeps the invariant.** -/
theorem executorRun_keeps (h : RunBack fromSlice ts run) :
    Keeps (Disk fromSlice ts) (executorRun fromSlice run) := by
  refine Keeps.bind ?_ fun _ => Keeps.bind (createStaging_keeps _ _) fun _ =>
    stageAndRun_keeps h _ _
  unfold recoverFirst
  split
  · exact recoverPendingTransactions_keeps h.interrupted h.recovered
  · exact Keeps.pure _

end

/-! ## Histories -/

/-- Runs of the executor one after the other, each with the fates of its own steps. -/
def runHistory (fromSlice : List UInt8 → Except String JournalEntry)
    (history : List (Invocation × List (Fate StateError))) (w : VarLib) : VarLib :=
  history.foldl (fun w turn => (executorRun fromSlice turn.1 turn.2 w).2.1) w

/-- Nothing has run yet. -/
def emptyVarLib : VarLib := ⟨⟨Root.freshDirStat 0, ∅⟩, none⟩

/-- The transactions of a history. -/
def transactionsOf (history : List (Invocation × List (Fate StateError))) : List Transaction :=
  history.map fun turn => turn.1.transaction

def runsOf (history : List (Invocation × List (Fate StateError))) : List Invocation :=
  history.map Prod.fst

section
variable {fromSlice : List UInt8 → Except String JournalEntry}

theorem disk_empty (ts : List Transaction) : Disk fromSlice ts emptyVarLib :=
  ⟨⟨rfl, fun n d hd => by simp [emptyVarLib] at hd⟩, by simp [emptyVarLib]⟩

theorem runHistory_keeps {ts : List Transaction} {w : VarLib}
    (history : List (Invocation × List (Fate StateError)))
    (h : ∀ turn ∈ history, RunBack fromSlice ts turn.1) (hw : Disk fromSlice ts w) :
    Disk fromSlice ts (runHistory fromSlice history w) := by
  induction history generalizing w with
  | nil => exact hw
  | cons turn history ih =>
    refine ih (fun t ht => h t (List.mem_cons_of_mem _ ht)) ?_
    exact (executorRun_keeps (h turn List.mem_cons_self)).run hw turn.2

/-- **Every history.** -/
theorem disk_runHistory {history : List (Invocation × List (Fate StateError))} {inventory : Sha256}
    (h : Parses fromSlice (transactionsOf history) (writtenPayloads (runsOf history) inventory)) :
    Disk fromSlice (transactionsOf history) (runHistory fromSlice history emptyVarLib) :=
  runHistory_keeps history (fun _ hturn => h.runBack (List.mem_map_of_mem hturn)
    (List.mem_map_of_mem hturn)) (disk_empty _)

end

end Dnfast.Executor
