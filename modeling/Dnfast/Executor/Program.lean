import Mathlib.Data.List.Infix
import Dnfast.State.Store

/-! # The executor's programs over `/var/lib/dnfast`

The parts of `dnfast-executor` and `dnfast-native` that act on the transaction journals and the
staging area: `recover_pending_transactions`, `Staging`, and one run of the executor with the native
transaction in the middle. The state is `VarLib`: the root of the journals and the root of the
staging directories, which is made on first use.

What the programs read from outside is an input of the run (`Invocation`): the plan and its digest,
the random transaction id, the approval, the digest of the installed packages, and how the native
transaction went. Errors are `StateError` throughout: the executor wraps their text and decides
nothing on it, except for the one test in `recoverWithStaging`. -/

namespace Dnfast.Executor

open Durable
open Dnfast.State

/-- The durable state below `/var/lib/dnfast` that a run of the executor acts on. -/
structure VarLib where
  transactions : Root
  staging : Option Root
  deriving DecidableEq

/-- The executor runs as root. -/
def rootProcess (pid : UInt32) : Process := ⟨pid, 0⟩

def onTransactions {α : Type} (m : Exec Root StateError α) : Exec VarLib StateError α :=
  Exec.zoom (fun w => some w.transactions) (fun r w => { w with transactions := r })
    (errno .noent) m

/-- A program on the staging root. `open_existing_root` reports a missing root as `ENOENT`. -/
def onStaging {α : Type} (m : Exec Root StateError α) : Exec VarLib StateError α :=
  Exec.zoom (·.staging) (fun r w => { w with staging := some r }) (errno .noent) m

/-- A program on the journal of one transaction. -/
def onJournal {α : Type} (id : TransactionId) (m : Exec Directory StateError α) :
    Exec VarLib StateError α :=
  onTransactions (inDirectory id.asStr m)

/-! ## Recovery -/

/-- `message.contains("No such file")`. -/
def containsNoSuchFile (message : String) : Bool :=
  decide ("No such file".toList <:+: message.toList)

/-- The cleanup of a `Prepared` transaction's staging directory, whose absence is no error. -/
def cleanupStaging (p : Process) (id : TransactionId) : Exec VarLib StateError Unit := do
  match ← Exec.attempt (onStaging (cleanupPrivateChild p id.asStr)) with
  | .ok _ => pure ()
  | .error (.io message) =>
    if containsNoSuchFile message then pure () else Exec.throw (.io message)
  | .error error => Exec.throw error

section
variable (fromSlice : List UInt8 → Except String JournalEntry)

def recoverWithStaging (p : Process) (id : TransactionId) :
    Exec VarLib StateError RecoveryAction := do
  let action ← onJournal id (recover fromSlice p)
  if action = .cleanupRevalidateAndReapprove then do
    cleanupStaging p id
    pure action
  else pure action

/-- The body of the loop of `recover_pending_transactions`. `inventory` is the digest of the
installed packages, read when a transaction has to be reconciled. -/
def recoverTransaction (p : Process) (inventory : Sha256) (id : TransactionId) :
    Exec VarLib StateError Unit := do
  onTransactions (openTransaction p id)
  match ← recoverWithStaging fromSlice p id with
  | .cleanupRevalidateAndReapprove => pure ()
  | .terminal _ => pure ()
  | .reconcileOnly => do
    Exec.sync
    onJournal id (reconcile fromSlice p ⟨inventory.hex, false, 0⟩)

def recoverPendingTransactions (p : Process) (inventory : Sha256) :
    Exec VarLib StateError Unit := do
  let ids ← Exec.observe fun w : VarLib => transactionIds w.transactions
  Exec.forEach (recoverTransaction fromSlice p inventory) ids

end

/-! ## Staging -/

/-- The mode test of `validate_directory`. -/
def validateDirectory (d : Directory) : Except StateError Unit :=
  if !d.stat.isDirectory ∨ d.stat.uid ≠ 0 ∨ d.stat.mode &&& 0o022 ≠ 0 then
    .error (.unsafePath "unsafe staging directory")
  else .ok ()

/-- `system_directory`: the staging root is made when it is missing. -/
def systemDirectory (w : VarLib) : VarLib :=
  match w.staging with
  | some _ => w
  | none => { w with staging := some ⟨(Root.freshDirectory 0).stat, ∅⟩ }

/-- `write_bytes` and `copy_file`: a new file of the staging directory. -/
def stageFile (name : String) (bytes : List UInt8) : Exec Directory StateError Unit := do
  Exec.step (Directory.openExclusive 0 name)
  writeAll name bytes
  fsync
  fsync

/-- `Staging::create`. -/
def createStaging (id : TransactionId) (plan : List UInt8) : Exec VarLib StateError Unit := do
  Exec.change systemDirectory
  onStaging do
    Exec.step (Root.mkdirat 0 id.asStr)
    inDirectory id.asStr do
      Exec.observe validateDirectory
      stageFile "plan.json" plan

/-- `Staging::cleanup`. -/
def cleanupStage (id : TransactionId) (files : List String) : Exec VarLib StateError Unit :=
  onStaging do
    Exec.forEach (fun name => inDirectory id.asStr (Exec.step (Directory.unlinkat name)))
      (files ++ ["plan.json"])
    fsync
    Exec.step (Root.rmdir id.asStr)
    fsync

/-- `Staging::drop`: the same steps, each tried whatever became of the ones before it. -/
def dropStage (id : TransactionId) (files : List String) : Exec VarLib StateError Unit :=
  onStaging do
    Exec.forEach (fun name => do
      let _ ← Exec.attempt (inDirectory id.asStr (Exec.step (Directory.unlinkat name)))
      pure ()) (files ++ ["plan.json"])
    let _ ← Exec.attempt (fsync : Exec Root StateError Unit)
    let _ ← Exec.attempt (Exec.step (Root.rmdir id.asStr))
    let _ ← Exec.attempt (fsync : Exec Root StateError Unit)
    pure ()

/-! ## One run of the executor -/

/-- `TransactionProblem::new`. -/
def validProblem (problem : String) : Bool :=
  !problem.isEmpty && decide (problem.utf8ByteSize ≤ 4096) && !problem.toList.contains '\x00'

/-- How the native transaction goes. -/
structure NativeRun where
  /-- keyrings, artifacts, actions and the `TEST` run are all accepted -/
  preflight : Bool
  /-- the problems of a real run that failed -/
  failed : Option (List String)
  callbacks : CallbackSummary
  /-- the database verifies and holds the planned packages afterwards -/
  verified : Bool
  /-- the digest of the packages installed afterwards, and whether it differs -/
  inventory : Sha256
  changed : Bool

/-- What one run of the executor is given. -/
structure Invocation where
  pid : UInt32
  /-- the daemon recovers before its first transaction only -/
  recovers : Bool
  id : TransactionId
  plan : List UInt8
  planSha256 : Sha256
  inputs : List (String × List UInt8)
  approved : Bool
  /-- the digest of the packages installed before the run -/
  inventory : Sha256
  native : NativeRun

namespace Invocation

def process (run : Invocation) : Process := rootProcess run.pid

def files (run : Invocation) : List String := run.inputs.map Prod.fst

/-- The reconciliation that `reconcile_with_success` records. -/
def reconciliation (run : Invocation) (success : Bool) : ReconcileResult :=
  ⟨run.native.inventory.hex, success, if run.native.changed then 1 else 0⟩

/-- The native result that `record_result` records. -/
def nativeResult (run : Invocation) : NativeResult :=
  match run.native.failed with
  | none => ⟨0, run.native.callbacks, []⟩
  | some problems => ⟨-1, run.native.callbacks, problems⟩

end Invocation

section
variable (fromSlice : List UInt8 → Except String JournalEntry)

/-- `reconcile_after_failure` as `stateful_or_preflight` calls it: its result is only reported. -/
def reconcileAfterFailure (run : Invocation) : Exec VarLib StateError Unit := do
  let _ ← Exec.attempt
    (onJournal run.id (reconcile fromSlice run.process (run.reconciliation false)))
  pure ()

/-- `record_result`. -/
def recordResult (run : Invocation) : Exec VarLib StateError Unit :=
  onJournal run.id (recordRpmResultWithProblems fromSlice run.process run.nativeResult.returnCode
    run.nativeResult.callbacks run.nativeResult.problems)

/-- The real run has returned: its result is recorded and the transaction reconciled. -/
def finishTransaction (run : Invocation) : Exec VarLib StateError Unit := do
  match run.native.failed with
  | none => do
    match ← Exec.attempt (recordResult fromSlice run) with
    | .error error => do
      reconcileAfterFailure fromSlice run
      Exec.throw error
    | .ok _ =>
      if run.native.verified then do
        match ← Exec.attempt
          (onJournal run.id (reconcile fromSlice run.process (run.reconciliation true))) with
        | .ok _ => pure ()
        | .error error => do
          reconcileAfterFailure fromSlice run
          Exec.throw error
      else do
        reconcileAfterFailure fromSlice run
        Exec.throw (.io "executor-phase=reconcile")
  | some problems => do
    if problems.all validProblem then do
      let _ ← Exec.attempt (recordResult fromSlice run)
      reconcileAfterFailure fromSlice run
      Exec.throw (.io "executor-phase=run")
    else do
      reconcileAfterFailure fromSlice run
      Exec.throw (.io "executor-phase=run")

/-- `run_inner`. The journal is marked as started by the callback that the native layer makes right
before the real run; when that fails, there is no real run. -/
def executeTransaction (run : Invocation) : Exec VarLib StateError Unit := do
  Exec.sync
  if run.native.preflight then do
    onJournal run.id (markStarted fromSlice run.process)
    Exec.sync
    finishTransaction fromSlice run
  else Exec.throw (.io "executor-phase=test")

/-- A run once its inputs are staged: the private mount, the approval, the journal, the
transaction, and the cleanup. -/
def runStaged (run : Invocation) : Exec VarLib StateError Unit := do
  Exec.sync
  if run.approved then do
    onTransactions (create run.process run.id run.planSha256.hex)
    Exec.sync
    let execution ← Exec.attempt (executeTransaction fromSlice run)
    Exec.sync
    cleanupStage run.id run.files
    Exec.lift execution
  else cleanupStage run.id run.files

/-- The inputs are staged one by one, each in its own file. When anything fails, the files that
were completed until then are dropped with the staging directory. -/
def stageAndRun (run : Invocation) :
    List String → List (String × List UInt8) → Exec VarLib StateError Unit
  | staged, [] => Exec.onErr (runStaged fromSlice run) (dropStage run.id staged)
  | staged, (name, bytes) :: inputs => do
    Exec.onErr (onStaging (inDirectory run.id.asStr (stageFile name bytes)))
      (dropStage run.id staged)
    stageAndRun run (staged ++ [name]) inputs

/-- The recovery that a run begins with. -/
def recoverFirst (run : Invocation) : Exec VarLib StateError Unit :=
  if run.recovers then recoverPendingTransactions fromSlice run.process run.inventory
  else pure ()

/-- One run of the executor, or of the daemon on one request: recovery, staging, transaction. -/
def executorRun (run : Invocation) : Exec VarLib StateError Unit := do
  recoverFirst fromSlice run
  createStaging run.id run.plan
  stageAndRun fromSlice run [] run.inputs

end

end Dnfast.Executor
