import Dnfast.Json.Parse
import Dnfast.State.Journal
import Dnfast.Native.Transaction

/-! # Runs of one executor

Any calls on an `ExecutorInventory`, in any order, with any native step and any journal write failing.
`Disciplined` is what the log of such a run should look like: at most one real run, of the items that
a TEST run accepted, after the journal recorded the start, and no item added after the TEST run.

The invariant `Inv` ties the log to the two state machines. One call keeps it as long as it is not one
of the pair `testTransaction` and `runTransaction`, which share the state machine but neither the
items nor the journal (`inv_apply`); so does a run (`inv_run`). -/

namespace Dnfast.Native

open Durable
open Core (InstalledInventory InstalledPackage canonicalEncode)
open State (Directory JournalEntry Process StateError TransactionState loadEntries recordName)

/-- The calls on an executor, with what their environment does during them. -/
inductive Operation where
  | bindJournal (journal : Directory)
  | addInstall (package : VerifiedPackage) (artifactSha256 : String) (artifactSize : UInt64)
      (mode : TransactionInstallMode) (verified : Except NativeError Unit)
  | addErase (installed : InstalledPackage)
  | prepareCheckedTransaction (attempt : Attempt)
  | testCheckedTransaction (attempt : Attempt)
  | runCheckedTransaction (attempt : Attempt) (recording : List (Option StateError))
  | verifyTransactionDb (verified : Except NativeError Unit)
  | testTransaction (rpmResult : Int32)
  | runTransaction (rpmResult : Int32)
  | requestCancel
  | reconcile (db : Except NativeError Rpmdb) (faults : List (Option StateError)) (success : Bool)
      (changedNames : Option (List String)) (expected : Option (List Identity))
      (cache : Option CachedInventory)

/-- The call is not one of the unchecked pair. -/
def Operation.Checked : Operation → Prop
  | .testTransaction _ | .runTransaction _ => False
  | _ => True

namespace ExecutorInventory

section
variable (fromSlice : List UInt8 → Except String JournalEntry) (p : Process)
  (sha256 : List UInt8 → Core.Sha256Digest)

/-- A call, with its result forgotten up to success. -/
def apply (s : ExecutorInventory) : Operation → Call Unit
  | .bindJournal journal => s.bindJournal journal
  | .addInstall package artifactSha256 artifactSize mode verified =>
    s.addInstall package artifactSha256 artifactSize mode verified
  | .addErase installed => s.addErase installed
  | .prepareCheckedTransaction attempt => s.prepareCheckedTransaction fromSlice p attempt
  | .testCheckedTransaction attempt =>
    (s.testCheckedTransaction fromSlice p attempt).map (·.map fun _ => ()) id
  | .runCheckedTransaction attempt recording =>
    (s.runCheckedTransaction fromSlice p attempt recording).map (·.map fun _ => ()) id
  | .verifyTransactionDb verified => s.verifyTransactionDb verified
  | .testTransaction rpmResult => (s.testTransaction rpmResult).map (·.map fun _ => ()) id
  | .runTransaction rpmResult => (s.runTransaction rpmResult).map (·.map fun _ => ()) id
  | .requestCancel => s.requestCancel
  | .reconcile db faults success changedNames expected cache =>
    (s.reconcileWithSuccess fromSlice p sha256 db faults success changedNames expected cache).1

def run (s : ExecutorInventory) (operations : List Operation) : ExecutorInventory :=
  operations.foldl (fun s operation => (s.apply fromSlice p sha256 operation).2) s

end

end ExecutorInventory

/-! ## What a log should look like -/

def Event.isRan : Event → Bool
  | .ran _ => true
  | _ => false

/-- The part of `Disciplined` that does not depend on a journal. -/
structure Ordered (log : List Event) : Prop where
  once : (log.filter Event.isRan).length ≤ 1
  tested : ∀ before items after, log = before ++ .ran items :: after →
    .tested items true ∈ before
  settled : ∀ before items after, log = before ++ .tested items true :: after →
    ∀ item, .added item ∉ after

/-- The real run happens at most once, after a successful TEST run of the same items and after the
journal was marked as started; no item is added after the TEST run. -/
structure Disciplined (log : List Event) : Prop extends Ordered log where
  marked : ∀ before items after, log = before ++ .ran items :: after → .marked ∈ before

theorem concat_eq_append_cons {α : Type} {log before after : List α} {e x : α}
    (h : log ++ [e] = before ++ x :: after) :
    (after = [] ∧ log = before ∧ e = x) ∨
      ∃ rest, after = rest ++ [e] ∧ log = before ++ x :: rest := by
  rcases List.eq_nil_or_concat after with rfl | ⟨rest, last, rfl⟩
  · obtain ⟨hlog, he⟩ := List.append_inj' h rfl
    exact .inl ⟨rfl, hlog, (List.cons.inj he).1⟩
  · rw [List.concat_eq_append, ← List.cons_append, ← List.append_assoc] at h
    obtain ⟨hlog, he⟩ := List.append_inj' h rfl
    rw [List.concat_eq_append, (List.cons.inj he).1]
    exact .inr ⟨rest, rfl, hlog⟩

namespace Ordered

variable {log : List Event} {items : List TransactionItem}

theorem nil : Ordered [] :=
  ⟨by simp, fun _ _ _ h => by simp at h, fun _ _ _ h => by simp at h⟩

/-- An event other than a real run and an added item may happen at any time. -/
theorem concat (h : Ordered log) {e : Event} (hran : ∀ items, e ≠ .ran items)
    (hadded : ∀ item, e ≠ .added item) : Ordered (log ++ [e]) where
  once := by
    have : Event.isRan e = false := by
      cases e with
      | ran items => exact absurd rfl (hran items)
      | _ => rfl
    simpa [List.filter_append, this] using h.once
  tested before items after heq := by
    rcases concat_eq_append_cons heq with ⟨-, -, he⟩ | ⟨rest, -, hlog⟩
    · exact absurd he (hran items)
    · exact h.tested before items rest hlog
  settled before items after heq item hmem := by
    rcases concat_eq_append_cons heq with ⟨rfl, -, -⟩ | ⟨rest, rfl, hlog⟩
    · cases hmem
    · rcases List.mem_append.mp hmem with hmem | hmem
      · exact h.settled before items rest hlog item hmem
      · exact hadded item (List.mem_singleton.mp hmem).symm

theorem concat_added (h : Ordered log) (hnone : ∀ items, .tested items true ∉ log)
    (item : TransactionItem) : Ordered (log ++ [.added item]) where
  once := by simpa [List.filter_append, Event.isRan] using h.once
  tested before items after heq := by
    rcases concat_eq_append_cons heq with ⟨-, -, he⟩ | ⟨rest, -, hlog⟩
    · cases he
    · exact h.tested before items rest hlog
  settled before items after heq := by
    rcases concat_eq_append_cons heq with ⟨-, -, he⟩ | ⟨rest, -, hlog⟩
    · cases he
    · exact absurd (hlog ▸ List.mem_append_right _ List.mem_cons_self) (hnone items)

theorem concat_ran (h : Ordered log) (hnone : ∀ items, .ran items ∉ log)
    (htested : .tested items true ∈ log) : Ordered (log ++ [.ran items]) where
  once := by
    have hempty : log.filter Event.isRan = [] := by
      rw [List.filter_eq_nil_iff]
      intro e he hran
      cases e with
      | ran items => exact hnone items he
      | _ => cases hran
    rw [List.filter_append, hempty]
    exact Nat.le_refl 1
  tested before items' after heq := by
    rcases concat_eq_append_cons heq with ⟨-, rfl, he⟩ | ⟨rest, -, hlog⟩
    · cases he
      exact htested
    · exact absurd (hlog ▸ List.mem_append_right _ List.mem_cons_self) (hnone items')
  settled before items' after heq item hmem := by
    rcases concat_eq_append_cons heq with ⟨rfl, -, -⟩ | ⟨rest, rfl, hlog⟩
    · cases hmem
    · rcases List.mem_append.mp hmem with hmem | hmem
      · exact h.settled before items' rest hlog item hmem
      · cases List.mem_singleton.mp hmem

end Ordered

/-! ## The effects of the native calls -/

namespace ExecutorInventory

variable {fromSlice : List UInt8 → Except String JournalEntry} {p : Process}
  {sha256 : List UInt8 → Core.Sha256Digest} {s s' : ExecutorInventory}

/-- Nothing that a transaction depends on has changed. -/
structure SameTransaction (s s' : ExecutorInventory) : Prop where
  state : s'.state = s.state
  items : s'.context.items = s.context.items
  phase : s'.context.phase = s.context.phase
  realRun : s'.context.realRun = s.context.realRun
  bound : s'.journal.isSome = s.journal.isSome

theorem SameTransaction.refl (s : ExecutorInventory) : SameTransaction s s :=
  ⟨rfl, rfl, rfl, rfl, rfl⟩

@[simp] theorem collectProblems_items (c : Context) (found : List RpmProblem) :
    (c.collectProblems found).items = c.items := rfl

@[simp] theorem collectProblems_phase (c : Context) (found : List RpmProblem) :
    (c.collectProblems found).phase = c.phase := rfl

@[simp] theorem collectProblems_realRun (c : Context) (found : List RpmProblem) :
    (c.collectProblems found).realRun = c.realRun := rfl

/-- The preflight changes only the list of problems. -/
theorem preflight_context (c : Context) (a : Attempt) :
    ∃ problems, (c.preflight a).2 = { c with problems } := by
  unfold Context.preflight
  split
  · exact ⟨c.problems, rfl⟩
  · split
    · exact ⟨c.problems, rfl⟩
    · exact ⟨_, rfl⟩

/-- `rpmtsRun` counts the run, logs it and leaves everything else but the problems alone. -/
theorem rpmtsRun_spec (test : Bool) (a : Attempt) {failed : Bool}
    (h : s.rpmtsRun test a = (failed, s')) :
    ∃ context, s' = { s with
        context
        log := s.log ++
          [if test then .tested s.context.items (!failed) else .ran s.context.items] } ∧
      context.items = s.context.items ∧ context.phase = s.context.phase ∧
      context.realRun = if test then s.context.realRun else s.context.realRun + 1 := by
  obtain ⟨rfl, rfl⟩ := Prod.mk.inj h
  exact ⟨_, rfl, rfl, rfl, rfl⟩

/-- A preparation or a TEST run changes nothing but problems and counters. A TEST run that reaches
`rpmtsRun` is logged with its result. -/
theorem execute_test (run : Bool) (a : Attempt) {r : Except NativeError Int32}
    (h : s.execute fromSlice p true run a = (r, s')) :
    SameTransaction s s' ∧
      ((s'.log = s.log ∧ (run = true → r.isOk = false)) ∨
        (run = true ∧ s'.log = s.log ++ [.tested s.context.items r.isOk])) := by
  unfold execute at h
  split at h
  · cases h
    exact ⟨.refl s, .inl ⟨rfl, fun _ => rfl⟩⟩
  · unfold attempt at h
    obtain ⟨problems, hc⟩ := preflight_context s.context a
    rcases hpre : s.context.preflight a with ⟨_ | _, c⟩
    · rw [hpre] at h hc
      cases hc
      cases run with
      | false =>
        cases h
        exact ⟨⟨rfl, rfl, rfl, rfl, rfl⟩, .inl ⟨rfl, fun h => by cases h⟩⟩
      | true =>
        simp only [if_true, attemptRun] at h
        rcases hrun : rpmtsRun true a { s with context := { s.context with problems } } with
          ⟨failed, s''⟩
        obtain ⟨context, rfl, hitems, hphase, hreal⟩ := rpmtsRun_spec true a hrun
        rw [hrun] at h
        cases failed <;> cases h <;> exact ⟨⟨rfl, hitems, hphase, hreal, rfl⟩, .inr ⟨rfl, rfl⟩⟩
    · rw [hpre] at h hc
      cases hc
      cases h
      exact ⟨⟨rfl, rfl, rfl, rfl, rfl⟩, .inl ⟨rfl, fun _ => rfl⟩⟩

/-- The events that the start of a real run adds to the log. -/
def startEvents (s : ExecutorInventory) : List Event := if s.journal.isSome then [.marked] else []

theorem transactionStart_spec (faults : List (Option StateError)) {started : Bool}
    (h : s.transactionStart fromSlice p faults = (started, s')) :
    ∃ journal, journal.isSome = s.journal.isSome ∧
      s' = { s with journal, log := s.log ++ if started then s.startEvents else [] } := by
  unfold transactionStart at h
  cases hjournal : s.journal with
  | none =>
    simp only [hjournal] at h
    cases h
    have hevents : s.startEvents = [] := by simp [startEvents, hjournal]
    exact ⟨s.journal, congrArg Option.isSome hjournal, by simp [hevents]⟩
  | some d =>
    simp only [hjournal] at h
    rcases hd : onJournal (State.markStarted fromSlice p) faults d with ⟨_ | _, d'⟩
    · simp only [hd] at h
      cases h
      exact ⟨some d', rfl, by simp⟩
    · simp only [hd] at h
      cases h
      exact ⟨some d', rfl, by simp [startEvents, hjournal]⟩

/-- A real run fails before `rpmtsRun`, with nothing changed but the journal, or it is counted and
logged after the start of the transaction. -/
theorem execute_run (a : Attempt) {r : Except NativeError Int32}
    (h : s.execute fromSlice p false true a = (r, s')) :
    (SameTransaction s s' ∧ s'.log = s.log ∧ r.isOk = false) ∨
      (s.context.phase = .preflight ∧ s'.state = s.state ∧
        s'.journal.isSome = s.journal.isSome ∧ s'.context.realRun = s.context.realRun + 1 ∧
        s'.log = s.log ++ s.startEvents ++ [.ran s.context.items]) := by
  unfold execute at h
  split at h
  · cases h
    exact .inl ⟨.refl s, rfl, rfl⟩
  · rename_i hready
    unfold attempt at h
    obtain ⟨problems, hc⟩ := preflight_context s.context a
    rcases hpre : s.context.preflight a with ⟨_ | _, c⟩
    · rw [hpre] at h hc
      cases hc
      simp only [if_true, attemptRun, Bool.false_eq_true, if_false] at h
      rcases hstart : transactionStart fromSlice p a.marking
        { s with context := { s.context with problems } } with ⟨_ | _, s₁⟩
      all_goals
        obtain ⟨journal, hbound, rfl⟩ := transactionStart_spec a.marking hstart
        simp only [hstart] at h
      · cases h
        exact .inl ⟨⟨rfl, rfl, rfl, rfl, hbound⟩, by simp, rfl⟩
      · refine .inr ?_
        split at h
        all_goals
          rename_i s₂ hrun
          obtain ⟨context, rfl, hitems, -, hreal⟩ := rpmtsRun_spec false a hrun
          cases h
          exact ⟨by simp_all, rfl, hbound, hreal, rfl⟩
    · rw [hpre] at h hc
      cases hc
      cases h
      exact .inl ⟨⟨rfl, rfl, rfl, rfl, rfl⟩, rfl, rfl⟩

theorem recordResult_spec (returnCode : Int32) (faults : List (Option StateError))
    {r : Except InventoryError Unit}
    (h : s.recordResult fromSlice p returnCode faults = (r, s')) :
    ∃ journal, journal.isSome = s.journal.isSome ∧ s' = { s with journal } := by
  unfold recordResult at h
  cases hjournal : s.journal with
  | none =>
    simp only [hjournal] at h
    cases h
    exact ⟨s.journal, congrArg Option.isSome hjournal, rfl⟩
  | some d =>
    simp only [hjournal] at h
    split at h
    · cases h
      exact ⟨s.journal, congrArg Option.isSome hjournal, rfl⟩
    · split at h
      all_goals
        cases h
        refine ⟨_, ?_, rfl⟩
        rfl

/-- A checked run is refused, or it fails before `rpmtsRun` and may be made again, or the real run
happened and the executor has started. -/
theorem runCheckedTransaction_spec (a : Attempt) (recording : List (Option StateError))
    {r : Except InventoryError Int32} (hreal : s.context.realRun = 0)
    (h : s.runCheckedTransaction fromSlice p a recording = (r, s')) :
    (s' = s ∧ r.isOk = false) ∨
      (s.state = .tested ∧ SameTransaction s s' ∧ s'.log = s.log ∧ r.isOk = false) ∨
      (s.state = .tested ∧ s'.state = .started ∧ s'.journal.isSome = s.journal.isSome ∧
        s'.log = s.log ++ s.startEvents ++ [.ran s.context.items]) := by
  unfold runCheckedTransaction at h
  split at h
  · cases h
    exact .inl ⟨rfl, rfl⟩
  · rename_i hstate
    have hstate : s.state = .tested := by simpa using hstate
    refine .inr ?_
    rcases hrun : s.execute fromSlice p false true a with ⟨_ | _, s₁⟩
    · rcases execute_run a hrun with ⟨hsame, hlog, -⟩ | ⟨-, hs, hbound, hcount, hlog⟩
      · simp only [hrun, hsame.realRun, hreal, if_true] at h
        cases h
        exact .inl ⟨hstate, hsame, hlog, rfl⟩
      · have hone : s₁.context.realRun ≠ 0 := by simp [hcount, hreal]
        simp only [hrun, if_neg hone] at h
        refine .inr ⟨hstate, ?_⟩
        split at h
        · cases h
          exact ⟨rfl, hbound, hlog⟩
        · split at h
          all_goals
            rename_i s₂ hrec
            obtain ⟨journal, hj, rfl⟩ := recordResult_spec _ _ hrec
            cases h
            exact ⟨rfl, hj.trans hbound, hlog⟩
    · rcases execute_run a hrun with ⟨-, -, hok⟩ | ⟨-, hs, hbound, hcount, hlog⟩
      · cases hok
      · have hone : s₁.context.realRun = 1 := by simp [hcount, hreal]
        simp only [hrun, hone, ne_eq, not_true_eq_false, if_false] at h
        refine .inr ⟨hstate, ?_⟩
        split at h
        all_goals
          rename_i s₂ hrec
          obtain ⟨journal, hj, rfl⟩ := recordResult_spec _ _ hrec
          cases h
          exact ⟨rfl, hj.trans hbound, hlog⟩

/-! ## The invariant of a run -/

/-- What ties the log to the state: before the executor has started there was no real run, before it
is tested no TEST run succeeded, and once it is tested the items are those of a successful one. -/
structure Inv (s : ExecutorInventory) : Prop where
  ordered : Ordered s.log
  marked : s.journal.isSome = true → ∀ before items after,
    s.log = before ++ .ran items :: after → .marked ∈ before
  quiet : s.state ≠ .started → s.state ≠ .reconciled → ∀ items, .ran items ∉ s.log
  untested : s.state = .prepared → ∀ items, .tested items true ∉ s.log
  ready : s.state = .tested → .tested s.context.items true ∈ s.log
  fresh : s.state = .prepared ∨ s.state = .tested → s.context.realRun = 0

namespace Inv

theorem begin (inventory : InstalledInventory) (rpmdbCookie : Option String) :
    Inv (.begin inventory rpmdbCookie) where
  ordered := .nil
  marked _ _ _ _ h := by simp [ExecutorInventory.begin] at h
  quiet _ _ _ := List.not_mem_nil
  untested _ _ := List.not_mem_nil
  ready h := by cases h
  fresh _ := rfl

theorem same (h : Inv s) (hsame : SameTransaction s s') (hlog : s'.log = s.log) : Inv s' where
  ordered := hlog ▸ h.ordered
  marked hbound := by
    rw [hsame.bound] at hbound
    rw [hlog]
    exact h.marked hbound
  quiet := by
    rw [hsame.state, hlog]
    exact h.quiet
  untested := by
    rw [hsame.state, hlog]
    exact h.untested
  ready := by
    rw [hsame.state, hlog, hsame.items]
    exact h.ready
  fresh := by
    rw [hsame.state, hsame.realRun]
    exact h.fresh

/-- A log without a real run says nothing about the start of one. -/
theorem marked_of_quiet (hquiet : ∀ items, .ran items ∉ s.log) :
    s.journal.isSome = true → ∀ before items after,
      s.log = before ++ .ran items :: after → .marked ∈ before := by
  intro _ before items after heq
  refine absurd ?_ (hquiet items)
  rw [heq]
  exact List.mem_append_right _ List.mem_cons_self

theorem bindJournal (h : Inv s) (journal : Directory) : Inv (s.bindJournal journal).2 := by
  unfold ExecutorInventory.bindJournal
  split
  · exact h
  · rename_i hstate
    have hprepared : s.state = .prepared := by simp_all
    have hquiet := h.quiet (by simp [hprepared]) (by simp [hprepared])
    exact ⟨h.ordered, marked_of_quiet hquiet, h.quiet, h.untested, h.ready, h.fresh⟩

theorem append (h : Inv s) (hprepared : s.state = .prepared) (item : TransactionItem)
    (verified : Except NativeError Unit) : Inv (s.append item verified).2 := by
  unfold ExecutorInventory.append
  split
  · exact h
  · split
    · exact h
    · split
      · exact h
      · have huntested := h.untested hprepared
        have hquiet := h.quiet (by simp [hprepared]) (by simp [hprepared])
        refine ⟨h.ordered.concat_added huntested item, marked_of_quiet ?_, fun _ _ => ?_,
          fun _ => ?_, fun htested => ?_, h.fresh⟩
        · simpa using hquiet
        · simpa using hquiet
        · simpa using huntested
        · rw [hprepared] at htested
          cases htested

theorem addInstall (h : Inv s) (package : VerifiedPackage) (artifactSha256 : String)
    (artifactSize : UInt64) (mode : TransactionInstallMode) (verified : Except NativeError Unit) :
    Inv (s.addInstall package artifactSha256 artifactSize mode verified).2 := by
  unfold ExecutorInventory.addInstall
  split
  · exact h
  · rename_i hstate
    split
    · exact h
    · exact h.append (by simpa using hstate) _ _

theorem addErase (h : Inv s) (installed : InstalledPackage) : Inv (s.addErase installed).2 := by
  unfold ExecutorInventory.addErase
  split
  · exact h
  · rename_i hstate
    split
    · exact h
    · split
      · exact h
      · exact h.append (by simpa using hstate) _ _

/-- A preparation or a TEST run that fails. -/
theorem failedTest (h : Inv s) (hsame : SameTransaction s s')
    (hlog : s'.log = s.log ∨ s'.log = s.log ++ [.tested s.context.items false]) : Inv s' := by
  rcases hlog with hlog | hlog
  · exact h.same hsame hlog
  · refine ⟨?_, fun hbound => ?_, ?_, ?_, ?_, ?_⟩
    · rw [hlog]
      exact h.ordered.concat (by simp) (by simp)
    · intro before items after heq
      rw [hlog] at heq
      rcases concat_eq_append_cons heq with ⟨-, -, he⟩ | ⟨rest, -, hlog⟩
      · cases he
      · exact h.marked (hsame.bound ▸ hbound) before items rest hlog
    · rw [hsame.state, hlog]
      simpa using h.quiet
    · rw [hsame.state, hlog]
      simpa using h.untested
    · rw [hsame.state, hlog, hsame.items]
      simpa using h.ready
    · rw [hsame.state, hsame.realRun]
      exact h.fresh

theorem prepareCheckedTransaction (h : Inv s) (a : Attempt) :
    Inv (s.prepareCheckedTransaction fromSlice p a).2 := by
  unfold ExecutorInventory.prepareCheckedTransaction
  split
  · exact h
  · rcases hrun : s.execute fromSlice p true false a with ⟨_ | _, s'⟩
    all_goals
      rcases execute_test false a hrun with ⟨hsame, ⟨hlog, -⟩ | ⟨hfalse, -⟩⟩
      · exact h.same hsame hlog
      · cases hfalse

theorem testCheckedTransaction (h : Inv s) (a : Attempt) :
    Inv (s.testCheckedTransaction fromSlice p a).2 := by
  unfold ExecutorInventory.testCheckedTransaction
  split
  · exact h
  · rename_i hstate
    have hprepared : s.state = .prepared := by simpa using hstate
    have hquiet := h.quiet (by simp [hprepared]) (by simp [hprepared])
    rcases hrun : s.execute fromSlice p true true a with ⟨_ | _, s'⟩
    · rcases execute_test true a hrun with ⟨hsame, ⟨hlog, -⟩ | ⟨-, hlog⟩⟩
      · exact h.failedTest hsame (.inl hlog)
      · exact h.failedTest hsame (.inr hlog)
    · rcases execute_test true a hrun with ⟨hsame, ⟨-, hfalse⟩ | ⟨-, hlog⟩⟩
      · cases hfalse rfl
      · have hnone : ∀ items, .ran items ∉ s'.log := by
          rw [hlog]
          simpa using hquiet
        refine ⟨?_, marked_of_quiet hnone, fun _ _ => hnone, fun hs => (by cases hs), fun _ => ?_,
          fun _ => ?_⟩
        · change Ordered s'.log
          rw [hlog]
          exact h.ordered.concat (by simp) (by simp)
        · change _ ∈ s'.log
          rw [hlog, hsame.items]
          exact List.mem_append_right _ (List.mem_singleton_self _)
        · exact hsame.realRun.trans (h.fresh (.inl hprepared))

/-- The log after a real run that the journal's start preceded. -/
theorem ran (h : Inv s) (htested : s.state = .tested) (hstate : s'.state = .started)
    (hbound : s'.journal.isSome = s.journal.isSome)
    (hlog : s'.log = s.log ++ s.startEvents ++ [.ran s.context.items]) : Inv s' := by
  have hquiet := h.quiet (by simp [htested]) (by simp [htested])
  have hready := h.ready htested
  have hstart : Ordered (s.log ++ s.startEvents) ∧ (∀ items, .ran items ∉ s.log ++ s.startEvents) ∧
      .tested s.context.items true ∈ s.log ++ s.startEvents := by
    unfold startEvents
    split
    · exact ⟨h.ordered.concat (by simp) (by simp), by simpa using hquiet, by simpa using hready⟩
    · simpa using ⟨h.ordered, hquiet, hready⟩
  obtain ⟨hordered, hnone, hmem⟩ := hstart
  refine ⟨hlog ▸ hordered.concat_ran hnone hmem, fun hsome before items after heq => ?_,
    fun hs => absurd hstate hs, fun hs => ?_, fun hs => ?_, fun hs => ?_⟩
  · rw [hlog] at heq
    rcases concat_eq_append_cons heq with ⟨-, hbefore, -⟩ | ⟨rest, -, hrest⟩
    · rw [← hbefore, startEvents, if_pos (hbound ▸ hsome)]
      exact List.mem_append_right _ (List.mem_singleton_self _)
    · refine absurd ?_ (hnone items)
      rw [hrest]
      exact List.mem_append_right _ List.mem_cons_self
  · rw [hstate] at hs
    cases hs
  · rw [hstate] at hs
    cases hs
  · rw [hstate] at hs
    simp at hs

theorem runCheckedTransaction (h : Inv s) (a : Attempt) (recording : List (Option StateError)) :
    Inv (s.runCheckedTransaction fromSlice p a recording).2 := by
  by_cases htested : s.state = .tested
  · rcases hrun : s.runCheckedTransaction fromSlice p a recording with ⟨r, s'⟩
    rcases runCheckedTransaction_spec a recording (h.fresh (.inr htested)) hrun with
      ⟨rfl, -⟩ | ⟨-, hsame, hlog, -⟩ | ⟨-, hstate, hbound, hlog⟩
    · exact h
    · exact h.same hsame hlog
    · exact h.ran htested hstate hbound hlog
  · rw [ExecutorInventory.runCheckedTransaction, if_pos htested]
    exact h

theorem requestCancel (h : Inv s) : Inv s.requestCancel.2 := by
  unfold ExecutorInventory.requestCancel
  split
  iterate 2
    rename_i hstate
    have hquiet := h.quiet (by simp [hstate]) (by simp [hstate])
    exact ⟨h.ordered, marked_of_quiet hquiet, fun _ _ => hquiet, fun hs => (by cases hs),
      fun hs => (by cases hs), fun hs => (by simp at hs)⟩
  all_goals exact h

end Inv

theorem recordReconciliation_spec (result : State.ReconcileResult)
    (faults : List (Option StateError)) {r : Except InventoryError Unit}
    (h : s.recordReconciliation fromSlice p result faults = (r, s')) :
    ∃ journal, journal.isSome = s.journal.isSome ∧ s' = { s with journal } := by
  unfold recordReconciliation at h
  cases hjournal : s.journal with
  | none =>
    simp only [hjournal] at h
    cases h
    exact ⟨s.journal, congrArg Option.isSome hjournal, rfl⟩
  | some d =>
    simp only [hjournal] at h
    split at h
    all_goals
      cases h
      refine ⟨_, ?_, rfl⟩
      rfl

theorem Inv.reconcileWithSuccess (h : Inv s) (db : Except NativeError Rpmdb)
    (faults : List (Option StateError)) (success : Bool) (changedNames : Option (List String))
    (expected : Option (List Identity)) (cache : Option CachedInventory) :
    Inv (s.reconcileWithSuccess fromSlice p sha256 db faults success changedNames expected
      cache).1.2 := by
  unfold ExecutorInventory.reconcileWithSuccess
  split
  · exact h
  · rename_i hstate
    have hstarted : s.state = .started := by simpa using hstate
    dsimp only
    split
    · exact h
    · split
      · exact h
      · split
        all_goals
          rename_i s' hrec
          obtain ⟨journal, hbound, rfl⟩ := recordReconciliation_spec _ _ hrec
        · exact h.same ⟨rfl, rfl, rfl, rfl, hbound⟩ rfl
        · exact ⟨h.ordered, fun hsome => h.marked (hbound ▸ hsome),
            fun _ hs => absurd rfl hs, fun hs => (by cases hs), fun hs => (by cases hs),
            fun hs => (by simp at hs)⟩

theorem verifyTransactionDb_snd (verified : Except NativeError Unit) (s : ExecutorInventory) :
    (s.verifyTransactionDb verified).2 = s := by
  unfold verifyTransactionDb
  split
  · rfl
  · split <;> rfl

/-- **One call keeps the invariant**, unless it is one of the unchecked pair. -/
theorem inv_apply (h : Inv s) {operation : Operation} (hchecked : operation.Checked) :
    Inv (s.apply fromSlice p sha256 operation).2 := by
  cases operation with
  | bindJournal journal => exact h.bindJournal journal
  | addInstall package artifactSha256 artifactSize mode verified =>
    exact h.addInstall package artifactSha256 artifactSize mode verified
  | addErase installed => exact h.addErase installed
  | prepareCheckedTransaction attempt => exact h.prepareCheckedTransaction attempt
  | testCheckedTransaction attempt => exact h.testCheckedTransaction attempt
  | runCheckedTransaction attempt recording => exact h.runCheckedTransaction attempt recording
  | verifyTransactionDb verified =>
    change Inv (s.verifyTransactionDb verified).2
    rw [verifyTransactionDb_snd]
    exact h
  | testTransaction rpmResult => cases hchecked
  | runTransaction rpmResult => cases hchecked
  | requestCancel => exact h.requestCancel
  | reconcile db faults success changedNames expected cache =>
    exact h.reconcileWithSuccess db faults success changedNames expected cache

theorem inv_run (h : Inv s) {operations : List Operation}
    (hchecked : ∀ operation ∈ operations, operation.Checked) :
    Inv (s.run fromSlice p sha256 operations) := by
  induction operations generalizing s with
  | nil => exact h
  | cons operation operations ih =>
    exact ih (inv_apply h (hchecked _ List.mem_cons_self))
      fun o ho => hchecked o (List.mem_cons_of_mem _ ho)

end ExecutorInventory

/-! ## The records of the journal -/

/-- The state is part of a record's encoding. -/
theorem state_of_canonicalEncode {e e' : JournalEntry} (h : canonicalEncode e = canonicalEncode e') :
    e.state = e'.state := by
  have hvalue : e.toValue = e'.toValue := by
    have hparse := congrArg Json.parse h
    rw [show canonicalEncode e = e.toValue.render from rfl,
      show canonicalEncode e' = e'.toValue.render from rfl, Json.parse_render, Json.parse_render]
      at hparse
    exact Option.some.inj hparse
  have hfield (e : JournalEntry) : ∃ ms, e.toValue = .obj ms ∧
      Json.field ms "state" = some e.state.toValue := by
    unfold JournalEntry.toValue
    cases e.nativeResult <;> cases e.reconciliation <;> exact ⟨_, rfl, rfl⟩
  have hstate : e.state.toValue = e'.state.toValue := by
    obtain ⟨ms, hms, hfield₁⟩ := hfield e
    obtain ⟨ms', hms', hfield₂⟩ := hfield e'
    obtain rfl := Json.Value.obj.inj (hms.symm.trans (hvalue.trans hms'))
    exact Option.some.inj (hfield₁.symm.trans hfield₂)
  cases hs : e.state <;> cases hs' : e'.state <;>
    first | rfl | (rw [hs, hs'] at hstate; simp [TransactionState.toValue] at hstate)

section
variable {fromSlice : List UInt8 → Except String JournalEntry} {p : Process}
  {d d' : Directory}

/-- Each record file of `d'` is in `d`, or it encodes a record whose state satisfies `P`. -/
def Extends (P : TransactionState → Prop) (d d' : Directory) : Prop :=
  ∀ sequence file, d'.files[recordName sequence]? = some file →
    d.files[recordName sequence]? = some file ∨
      ∃ e : JournalEntry, file.bytes = canonicalEncode e ∧ P e.state

theorem Extends.refl (P : TransactionState → Prop) (d : Directory) : Extends P d d :=
  fun _ _ h => .inl h

theorem Extends.trans {P : TransactionState → Prop} {d₁ d₂ d₃ : Directory} (h : Extends P d₁ d₂)
    (h' : Extends P d₂ d₃) : Extends P d₁ d₃ := by
  intro sequence file hfile
  rcases h' sequence file hfile with hfile | hnew
  · exact h sequence file hfile
  · exact .inr hnew

/-- The journal has a record of the result of the real run. -/
def ResultRecorded (fromSlice : List UInt8 → Except String JournalEntry) (euid : UInt32)
    (d : Directory) : Prop :=
  ∃ es, loadEntries fromSlice euid d = .ok es ∧ ∃ e ∈ es, e.state = .rpmResult

theorem onJournal_snd (m : Exec Directory StateError Unit) (faults : List (Option StateError))
    (d : Directory) : ∃ fates, (onJournal m faults d).2 = (m fates d).2.1 := by
  refine ⟨faults.map fun fault => fault.elim .go .fail, ?_⟩
  unfold onJournal
  dsimp only
  split <;> simp_all

theorem extends_writeRecord {A : Fate StateError → Prop} {P : TransactionState → Prop}
    {e : JournalEntry} {o : Outcome StateError Unit} (he : P e.state)
    (hend : State.WriteRecordEnd A p e.sequence (canonicalEncode e) d o d') : Extends P d d' := by
  have hpublished {file : State.File} (hbytes : file.bytes = canonicalEncode e)
      (h : State.Directory.Published (State.recordTemporary e.sequence p.pid)
        (recordName e.sequence) file d d') : Extends P d d' := by
    intro sequence found hfound
    by_cases hname : recordName sequence = recordName e.sequence
    · rw [hname, h.file] at hfound
      cases hfound
      exact .inr ⟨e, hbytes, he⟩
    · rw [h.others _ hname (State.recordTemporary_ne_recordName _ _ _).symm] at hfound
      exact .inl hfound
  have hinterrupted (h : State.Directory.Interrupted p.euid
      (State.recordTemporary e.sequence p.pid) (recordName e.sequence) (canonicalEncode e) d d') :
      Extends P d d' := by
    rcases h with hs | hp
    · intro sequence found hfound
      rw [hs.others _ (State.recordTemporary_ne_recordName _ _ _).symm] at hfound
      exact .inl hfound
    · exact hpublished rfl hp
  match o, hend with
  | .ok _, hend => exact hpublished rfl hend.2
  | .err _, .inl ⟨heq, _⟩ => exact heq ▸ .refl P d
  | .err _, .inr ⟨_, hi⟩ => exact hinterrupted hi
  | .crashed, ⟨_, hi⟩ => exact hinterrupted hi

/-- A transition that writes at all writes a record of the state it leads to, after a record of a
state that may precede it. -/
theorem extends_transition (next : TransactionState) (nativeResult : Option State.NativeResult)
    (reconciliation : Option State.ReconcileResult) (faults : List (Option StateError))
    (d : Directory) :
    Extends (fun state => state = next ∧ ∃ es, loadEntries fromSlice p.euid d = .ok es ∧
        ∃ e ∈ es, e.state.legal next = true) d
      (onJournal (State.transition fromSlice p next nativeResult reconciliation) faults d).2 := by
  obtain ⟨fates, hsnd⟩ := onJournal_snd
    (State.transition fromSlice p next nativeResult reconciliation) faults d
  rw [hsnd]
  cases hload : loadEntries fromSlice p.euid d with
  | error error =>
    have hsame : Exec.Sat (fun _ => True)
        (State.transition fromSlice p next nativeResult reconciliation) d fun _ d' => d' = d := by
      refine Exec.sat_bind (Exec.sat_observe (fun _ => rfl) (fun _ _ => rfl) ?_ (fun _ _ => rfl))
      intro es hes
      rw [hload] at hes
      cases hes
    rw [hsame.run fates]
    exact .refl _ d
  | ok es =>
    have hloaded := State.loadEntries_eq_ok.mp hload
    obtain ⟨previous, hlast, -⟩ := hloaded.exists_last
    have hend := (State.transition_sat (A := fun _ => True) hloaded hlast next nativeResult
      reconciliation).run fates
    rcases hend with ⟨hsame, -⟩ | ⟨hlegal, -, hend⟩
    · rw [hsame]
      exact .refl _ d
    · exact extends_writeRecord ⟨rfl, es, rfl, previous, List.mem_of_getLast? hlast, hlegal⟩ hend

theorem Extends.mono {P Q : TransactionState → Prop} (h : Extends P d d')
    (hPQ : ∀ state, P state → Q state) : Extends Q d d' := by
  intro sequence file hfile
  rcases h sequence file hfile with hold | ⟨e, hbytes, he⟩
  · exact .inl hold
  · exact .inr ⟨e, hbytes, hPQ _ he⟩

/-- The states that a call may record in the journal `d`: Reconciled only after a result. -/
def MayRecord (fromSlice : List UInt8 → Except String JournalEntry) (euid : UInt32) (d : Directory)
    (state : TransactionState) : Prop :=
  state = .reconciled → ResultRecorded fromSlice euid d

/-- The journal of `s'` is that of `s`, longer by records that may follow it. -/
def JournalStep (fromSlice : List UInt8 → Except String JournalEntry) (euid : UInt32)
    (s s' : ExecutorInventory) : Prop :=
  ∀ d ∈ s.journal, ∃ d' ∈ s'.journal, Extends (MayRecord fromSlice euid d) d d'

namespace ExecutorInventory

variable {s s' : ExecutorInventory} {sha256 : List UInt8 → Core.Sha256Digest}

theorem journalStep_of_eq (h : s'.journal = s.journal) : JournalStep fromSlice p.euid s s' :=
  fun d hd => ⟨d, h ▸ hd, .refl _ d⟩

theorem transactionStart_journal (faults : List (Option StateError)) (d : Directory)
    (hd : s.journal = some d) :
    ∃ d', (s.transactionStart fromSlice p faults).2.journal = some d' ∧
      Extends (· ≠ .reconciled) d d' := by
  have hext := @extends_transition fromSlice p .started none none faults d
  unfold transactionStart
  simp only [hd]
  split
  all_goals
    rename_i d' hrun
    refine ⟨d', rfl, ?_⟩
    rw [show State.transition fromSlice p .started none none = State.markStarted fromSlice p from
      rfl, hrun] at hext
    exact hext.mono fun state h => by simp [h.1]

theorem recordResult_journal (returnCode : Int32) (faults : List (Option StateError))
    (d : Directory) (hd : s.journal = some d) :
    ∃ d', (s.recordResult fromSlice p returnCode faults).2.journal = some d' ∧
      Extends (· ≠ .reconciled) d d' := by
  unfold recordResult
  simp only [hd]
  split
  · exact ⟨d, hd, .refl _ d⟩
  · rename_i problems _
    have hext := @extends_transition fromSlice p .rpmResult
      (some ⟨returnCode, s.callbacks, problems⟩) none faults d
    split
    all_goals
      rename_i d' hrun
      refine ⟨d', rfl, ?_⟩
      rw [show State.transition fromSlice p .rpmResult (some ⟨returnCode, s.callbacks, problems⟩)
        none = State.recordRpmResultWithProblems fromSlice p returnCode s.callbacks problems from
        rfl, hrun] at hext
      exact hext.mono fun state h => by simp [h.1]

theorem execute_journal (test run : Bool) (a : Attempt) (d : Directory)
    (hd : s.journal = some d) :
    ∃ d', (s.execute fromSlice p test run a).2.journal = some d' ∧
      Extends (· ≠ .reconciled) d d' := by
  unfold execute
  split
  · exact ⟨d, hd, .refl _ d⟩
  · have hattempt : ∃ d', (s.attempt fromSlice p test run a).2.journal = some d' ∧
        Extends (· ≠ .reconciled) d d' := by
      unfold attempt
      split
      · exact ⟨d, hd, .refl _ d⟩
      · split
        · unfold attemptRun
          split
          · exact ⟨d, hd, .refl _ d⟩
          · rename_i c _ _ _
            obtain ⟨d', hd', hext⟩ := @transactionStart_journal fromSlice p
              { s with context := c } a.marking d hd
            split
            all_goals
              rename_i s' hstart
              rw [hstart] at hd'
              exact ⟨d', hd', hext⟩
        · exact ⟨d, hd, .refl _ d⟩
    split
    all_goals
      rename_i s' hrun
      rw [hrun] at hattempt
      exact hattempt

theorem runCheckedTransaction_journal (a : Attempt) (recording : List (Option StateError))
    (d : Directory) (hd : s.journal = some d) :
    ∃ d', (s.runCheckedTransaction fromSlice p a recording).2.journal = some d' ∧
      Extends (· ≠ .reconciled) d d' := by
  unfold runCheckedTransaction
  split
  · exact ⟨d, hd, .refl _ d⟩
  · obtain ⟨d₁, hd₁, hext₁⟩ := @execute_journal fromSlice p s false true a d hd
    split
    all_goals
      rename_i s₁ hrun
      rw [hrun] at hd₁
    · split
      · exact ⟨d₁, hd₁, hext₁⟩
      · rename_i result _
        obtain ⟨d₂, hd₂, hext₂⟩ := @recordResult_journal fromSlice p { s₁ with state := .started }
          result recording d₁ hd₁
        split
        all_goals
          rename_i s₂ hrec
          rw [hrec] at hd₂
          exact ⟨d₂, hd₂, hext₁.trans hext₂⟩
    · split
      · exact ⟨d₁, hd₁, hext₁⟩
      · obtain ⟨d₂, hd₂, hext₂⟩ := @recordResult_journal fromSlice p { s₁ with state := .started }
          (-1) recording d₁ hd₁
        dsimp only
        split
        · exact ⟨d₁, hd₁, hext₁⟩
        · split
          all_goals
            rename_i s₂ hrec
            rw [hrec] at hd₂
            exact ⟨d₂, hd₂, hext₁.trans hext₂⟩

/-- The state before Reconciled is that of a recorded result. -/
theorem rpmResult_of_legal {state : TransactionState} (h : state.legal .reconciled = true) :
    state = .rpmResult := by
  cases state <;> first | rfl | cases h

theorem recordReconciliation_journal (result : State.ReconcileResult)
    (faults : List (Option StateError)) (d : Directory) (hd : s.journal = some d) :
    ∃ d', (s.recordReconciliation fromSlice p result faults).2.journal = some d' ∧
      Extends (MayRecord fromSlice p.euid d) d d' := by
  have hext : Extends (MayRecord fromSlice p.euid d) d
      (onJournal (State.reconcile fromSlice p result) faults d).2 := by
    cases hdigest : State.validateDigest result.inventorySha256 with
    | error e =>
      have hrun : State.reconcile fromSlice p result = Exec.throw e := by
        simp only [State.reconcile, hdigest, Exec.lift]
        rfl
      rw [hrun]
      exact .refl _ d
    | ok _ =>
      have hrun : State.reconcile fromSlice p result =
          State.transition fromSlice p .reconciled none (some result) := by
        simp only [State.reconcile, hdigest, Exec.lift]
        rfl
      rw [hrun]
      refine (extends_transition _ _ _ _ _).mono ?_
      rintro state ⟨-, es, hload, e, he, hlegal⟩ -
      exact ⟨es, hload, e, he, rpmResult_of_legal hlegal⟩
  unfold recordReconciliation
  simp only [hd]
  split
  all_goals
    rename_i d' hrun
    rw [hrun] at hext
    exact ⟨d', rfl, hext⟩

theorem reconcileWithSuccess_journal (db : Except NativeError Rpmdb)
    (faults : List (Option StateError)) (success : Bool) (changedNames : Option (List String))
    (expected : Option (List Identity)) (cache : Option CachedInventory) (d : Directory)
    (hd : s.journal = some d) :
    ∃ d', (s.reconcileWithSuccess fromSlice p sha256 db faults success changedNames expected
        cache).1.2.journal = some d' ∧ Extends (MayRecord fromSlice p.euid d) d d' := by
  unfold reconcileWithSuccess
  split
  · exact ⟨d, hd, .refl _ d⟩
  · dsimp only
    split
    · exact ⟨d, hd, .refl _ d⟩
    · rename_i inventory postCookie _
      obtain ⟨d', hd', hext⟩ := @recordReconciliation_journal fromSlice p s
        (reconcileResult sha256 s.inventory inventory success) faults d hd
      split
      · exact ⟨d, hd, .refl _ d⟩
      · split
        all_goals
          rename_i s' hrec
          rw [hrec] at hd'
          exact ⟨d', hd', hext⟩

theorem append_journal (item : TransactionItem) (verified : Except NativeError Unit)
    (s : ExecutorInventory) : (s.append item verified).2.journal = s.journal := by
  unfold append
  split
  · rfl
  · split
    · rfl
    · split <;> rfl

/-- No call leaves the journal with a Reconciled record that it may not have. -/
theorem apply_journalStep (s : ExecutorInventory) (operation : Operation) :
    JournalStep fromSlice p.euid s (s.apply fromSlice p sha256 operation).2 := by
  have hother {d d' : Directory} (h : Extends (· ≠ .reconciled) d d') :
      Extends (MayRecord fromSlice p.euid d) d d' :=
    h.mono fun _ hne hstate => absurd hstate hne
  cases operation with
  | bindJournal journal =>
    intro d hd
    refine ⟨d, ?_, .refl _ d⟩
    have hd : s.journal = some d := hd
    simp [apply, bindJournal, hd]
  | addInstall package artifactSha256 artifactSize mode verified =>
    refine journalStep_of_eq ?_
    simp only [apply, addInstall]
    split
    · rfl
    · split
      · rfl
      · exact append_journal _ _ s
  | addErase installed =>
    refine journalStep_of_eq ?_
    simp only [apply, addErase]
    split
    · rfl
    · split
      · rfl
      · split
        · rfl
        · exact append_journal _ _ s
  | prepareCheckedTransaction attempt =>
    intro d hd
    obtain ⟨d', hd', hext⟩ := @execute_journal fromSlice p s true false attempt d hd
    simp only [apply, prepareCheckedTransaction]
    split
    · exact ⟨d, hd, .refl _ d⟩
    · split
      all_goals
        rename_i s' hrun
        rw [hrun] at hd'
        exact ⟨d', hd', hother hext⟩
  | testCheckedTransaction attempt =>
    intro d hd
    obtain ⟨d', hd', hext⟩ := @execute_journal fromSlice p s true true attempt d hd
    simp only [apply, testCheckedTransaction]
    split
    · exact ⟨d, hd, .refl _ d⟩
    · split
      all_goals
        rename_i s' hrun
        rw [hrun] at hd'
        exact ⟨d', hd', hother hext⟩
  | runCheckedTransaction attempt recording =>
    intro d hd
    obtain ⟨d', hd', hext⟩ := @runCheckedTransaction_journal fromSlice p s attempt recording d hd
    exact ⟨d', hd', hother hext⟩
  | verifyTransactionDb verified =>
    exact journalStep_of_eq (congrArg journal (verifyTransactionDb_snd verified s))
  | testTransaction rpmResult =>
    refine journalStep_of_eq ?_
    simp only [apply, testTransaction]
    split_ifs <;> rfl
  | runTransaction rpmResult =>
    refine journalStep_of_eq ?_
    simp only [apply, runTransaction]
    split_ifs <;> rfl
  | requestCancel =>
    refine journalStep_of_eq ?_
    simp only [apply, requestCancel]
    split <;> rfl
  | reconcile db faults success changedNames expected cache =>
    intro d hd
    obtain ⟨d', hd', hext⟩ := @reconcileWithSuccess_journal fromSlice p s sha256 db faults success
      changedNames expected cache d hd
    exact ⟨d', hd', hext⟩

end ExecutorInventory

end

/-! ## The guarantees -/

/-- The call asks for a cancellation, a TEST run or a real run. -/
def Operation.Begins : Operation → Prop
  | .testCheckedTransaction _ | .runCheckedTransaction _ _ | .testTransaction _
  | .runTransaction _ | .requestCancel => True
  | _ => False

/-- The record file of `e` is in `d'` and was not in `d`. -/
def NewRecord (d d' : Directory) (e : JournalEntry) : Prop :=
  ∃ file, d'.files[recordName e.sequence]? = some file ∧ file.bytes = canonicalEncode e ∧
    d.files[recordName e.sequence]? ≠ some file

section
variable (fromSlice : List UInt8 → Except String JournalEntry) (p : Process)
  (sha256 : List UInt8 → Core.Sha256Digest)

/-- What an executor with a bound journal guarantees: a disciplined log, no cancellation, TEST run or
real run after the real run, and a Reconciled record only where a result is recorded. -/
structure Guarded (s : ExecutorInventory) : Prop where
  disciplined : Disciplined s.log
  final : (∃ items, .ran items ∈ s.log) → ∀ operation : Operation, operation.Begins →
    (s.apply fromSlice p sha256 operation).1.isOk = false
  recorded : ∀ (operation : Operation) (d d' : Directory), s.journal = some d →
    (s.apply fromSlice p sha256 operation).2.journal = some d' →
    ∀ e, NewRecord d d' e → e.state = .reconciled → ResultRecorded fromSlice p.euid d

end

section
variable {fromSlice : List UInt8 → Except String JournalEntry} {p : Process}
  {sha256 : List UInt8 → Core.Sha256Digest}

/-- An executor that has started or is done refuses to begin anything. -/
theorem refuses_of_started {s : ExecutorInventory}
    (h : s.state = .started ∨ s.state = .reconciled) {operation : Operation}
    (hbegins : operation.Begins) : (s.apply fromSlice p sha256 operation).1.isOk = false := by
  cases operation with
  | testCheckedTransaction attempt | testTransaction rpmResult =>
    have hstate : s.state ≠ .prepared := by rcases h with h | h <;> simp [h]
    simp [ExecutorInventory.apply, ExecutorInventory.testCheckedTransaction,
      ExecutorInventory.testTransaction, hstate, Except.isOk, Except.toBool, Except.map]
  | runCheckedTransaction attempt recording | runTransaction rpmResult =>
    have hstate : s.state ≠ .tested := by rcases h with h | h <;> simp [h]
    simp [ExecutorInventory.apply, ExecutorInventory.runCheckedTransaction,
      ExecutorInventory.runTransaction, hstate, Except.isOk, Except.toBool, Except.map]
  | requestCancel =>
    rcases h with h | h <;>
      simp [ExecutorInventory.apply, ExecutorInventory.requestCancel, h, Except.isOk,
        Except.toBool]
  | _ => cases hbegins

/-- **Every run of checked calls is guarded** once a journal is bound: whatever the calls, their order
and the failures of native steps and journal writes. -/
theorem guarded_of_checked (inventory : InstalledInventory) (rpmdbCookie : Option String)
    (operations : List Operation) (hchecked : ∀ operation ∈ operations, operation.Checked)
    (hbound : ((ExecutorInventory.begin inventory rpmdbCookie).run fromSlice p sha256
      operations).journal.isSome = true) :
    Guarded fromSlice p sha256 ((ExecutorInventory.begin inventory rpmdbCookie).run fromSlice p
      sha256 operations) := by
  have hinv := @ExecutorInventory.inv_run fromSlice p sha256 _ (.begin inventory rpmdbCookie) _
    hchecked
  refine ⟨⟨hinv.ordered, hinv.marked hbound⟩, ?_, ?_⟩
  · rintro ⟨items, hran⟩ operation hbegins
    refine refuses_of_started ?_ hbegins
    by_contra hnot
    exact hinv.quiet (fun h => hnot (.inl h)) (fun h => hnot (.inr h)) items hran
  · rintro operation d d' hd hd' e ⟨file, hfile, hbytes, hnew⟩ hstate
    obtain ⟨d₂, hd₂, hext⟩ := ExecutorInventory.apply_journalStep _ operation d hd
    rw [Option.mem_def, hd'] at hd₂
    cases hd₂
    rcases hext e.sequence file hfile with hold | ⟨e', hbytes', hmay⟩
    · exact absurd hold hnew
    · have hsame := state_of_canonicalEncode (hbytes.symm.trans hbytes')
      exact hmay (hsame ▸ hstate)

end

/-! ## A run -/

/-- An inventory with one package. -/
def oldKernel : InstalledPackage where
  name := "kernel"
  evra := ⟨0, "6.1", "1.fc44", .x86_64⟩
  vendor := "Fedora Project"
  dbInstance := 7
  installTime := 1
  immutableHeaderSha256 := ⟨State.exampleDigest, by decide +kernel⟩
  named := by decide
  valid := rfl

def kernelInventory : InstalledInventory := Core.singleInventory "6.0.1" (by decide) oldKernel

/-- An attempt in which librpm agrees to everything. -/
def smooth : Attempt := ⟨true, true, some [], true, [], 0, [], false, 0, 0⟩

def preparedJournal : Directory :=
  State.directoryOf 0 [State.preparedEntry State.exampleId State.exampleDigest]

/-- A parser that knows the records of a transaction up to its result. -/
def startedParser : List UInt8 → Except String JournalEntry :=
  State.parserOf [State.preparedEntry State.exampleId State.exampleDigest,
    State.recordOf State.exampleId State.exampleDigest .started none none]

/-- The executor after the calls, with the inventory above. -/
def kernelRun (operations : List Operation) : ExecutorInventory :=
  (ExecutorInventory.begin kernelInventory none).run startedParser ⟨7, 0⟩
    (fun _ => oldKernel.immutableHeaderSha256) operations

/-- The erasure of the kernel passes its TEST run. -/
theorem guarded_of_checked_erase :
    (kernelRun [.bindJournal preparedJournal, .addErase oldKernel,
        .testCheckedTransaction smooth]).log =
      [.added (.erase 7 State.exampleDigest), .tested [.erase 7 State.exampleDigest] true] ∧
    Guarded startedParser ⟨7, 0⟩ (fun _ => oldKernel.immutableHeaderSha256)
      (kernelRun [.bindJournal preparedJournal, .addErase oldKernel,
        .testCheckedTransaction smooth]) := by
  refine ⟨by decide +kernel, guarded_of_checked kernelInventory none _ ?_ (by decide +kernel)⟩
  intro operation hmem
  simp only [List.mem_cons, List.not_mem_nil, or_false] at hmem
  rcases hmem with rfl | rfl | rfl <;> trivial

/-- The unchecked TEST run has no items, but it opens the way to the real run of the items that were
added, and the unchecked run does not ask the journal. -/
theorem unchecked_runs_undisciplined :
    ((kernelRun [.bindJournal preparedJournal, .addErase oldKernel, .testTransaction 0,
        .runCheckedTransaction smooth []]).journal.isSome = true ∧
      ¬ Disciplined (kernelRun [.bindJournal preparedJournal, .addErase oldKernel,
        .testTransaction 0, .runCheckedTransaction smooth []]).log) ∧
    ((kernelRun [.bindJournal preparedJournal, .testTransaction 0,
        .runTransaction 0]).journal.isSome = true ∧
      ¬ Disciplined (kernelRun [.bindJournal preparedJournal, .testTransaction 0,
        .runTransaction 0]).log) := by
  have hmixed : ((kernelRun [.bindJournal preparedJournal, .addErase oldKernel,
        .testTransaction 0, .runCheckedTransaction smooth []]).journal.isSome,
      (kernelRun [.bindJournal preparedJournal, .addErase oldKernel,
        .testTransaction 0, .runCheckedTransaction smooth []]).log) =
      (true, [.added (.erase 7 State.exampleDigest), .tested [] true, .marked,
        .ran [.erase 7 State.exampleDigest]]) := by
    decide +kernel
  have hunchecked : (kernelRun [.bindJournal preparedJournal, .testTransaction 0,
      .runTransaction 0]).log = [.tested [] true, .ran []] := by
    decide +kernel
  obtain ⟨hbound, hlog⟩ := Prod.mk.inj hmixed
  refine ⟨⟨hbound, fun h => ?_⟩, by decide +kernel, fun h => ?_⟩
  · have := h.tested [.added (.erase 7 State.exampleDigest), .tested [] true, .marked] _ [] hlog
    simp at this
  · have := h.marked [.tested [] true] _ [] hunchecked
    simp at this

end Dnfast.Native
