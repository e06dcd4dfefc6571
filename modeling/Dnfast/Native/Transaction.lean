import Dnfast.State.Store
import Dnfast.Native.Inventory

/-! # The transaction of one executor

`dnfast-native`, `checked_transaction.rs` and the calls of `ExecutorInventory` in `inventory.rs`, with
the native layer below them: `transaction.c`, `transaction_run.c` and the run functions of
`inventory_write.c`. An `ExecutorInventory` holds the native context with the items of the
transaction, the inventory it was opened on and, once it is bound, the journal of the transaction.
Two state machines advance side by side: `ExecutionState` on this side and the native
`TransactionPhase`.

There are two families of calls that run RPM. The checked ones run the items of the context and ask
the journal before the real run. `testTransaction` and `runTransaction` run the transaction set of
the write lock itself, which has no items, and do not know the journal.

What librpm answers in one attempt is an argument (`Attempt`), and so are the faults of the journal's
file system. The log of an executor is what happened so far: it is no part of the source, and no
function reads it. -/

namespace Dnfast.Native

open Durable
open Core (InstalledInventory InstalledPackage canonicalEncode)
open State (CallbackSummary Directory JournalEntry Process ReconcileResult StateError)

inductive ExecutionState where
  | prepared
  | tested
  | testFailed (result : Int32)
  | started
  | reconciled
  | cancelled
  deriving DecidableEq

inductive TransactionPhase where
  | preflight
  | started
  deriving DecidableEq

inductive TransactionInstallMode where
  | install
  | upgrade
  | reinstall
  | downgrade
  deriving DecidableEq

structure VerifiedPackage where
  name : String
  epoch : String
  version : String
  release : String
  arch : String
  vendor : String
  primaryFingerprint : String
  signingFingerprint : String
  deriving DecidableEq

inductive TransactionItem where
  | install (package : VerifiedPackage) (artifactSha256 : String) (artifactSize : UInt64)
      (mode : TransactionInstallMode)
  | erase (dbInstance : UInt64) (headerSha256 : String)
  deriving DecidableEq

/-- What an executor did to the RPM database and to its journal, in the order it happened. -/
inductive Event where
  | added (item : TransactionItem)
  | tested (items : List TransactionItem) (succeeded : Bool)
  | marked
  | ran (items : List TransactionItem)
  deriving DecidableEq

/-! ## The native context -/

inductive ProblemType where
  | pkgInstalled
  | oldPackage
  | other
  deriving DecidableEq

/-- A problem of the transaction set. `key` is the place of its item, and the text is missing when it
is not UTF-8. -/
structure RpmProblem where
  type : ProblemType
  key : Option Nat
  text : Option String

structure Context where
  writing : Bool
  items : List TransactionItem
  phase : TransactionPhase
  testRun : UInt64
  realRun : UInt64
  scriptStop : UInt64
  packageStop : UInt64
  problems : List (Option String)

/-- `RPMPROB_FILTER_REPLACEPKG` and `RPMPROB_FILTER_OLDPACKAGE`. -/
structure Filters where
  replacepkg : Bool
  oldpackage : Bool

def TransactionItem.hasMode (mode : TransactionInstallMode) : TransactionItem → Bool
  | .install _ _ _ m => m = mode
  | .erase _ _ => false

def Context.authorizedFilters (c : Context) : Filters :=
  ⟨c.items.any (·.hasMode .reinstall), c.items.any (·.hasMode .downgrade)⟩

def Context.problemIsAuthorized (c : Context) (filters : Filters) (problem : RpmProblem) : Bool :=
  match problem.key.bind (c.items[·]?) with
  | none => false
  | some item =>
    (problem.type = .pkgInstalled && item.hasMode .reinstall && filters.replacepkg) ||
      (problem.type = .oldPackage && item.hasMode .downgrade && filters.oldpackage)

def Context.collectProblems (c : Context) (found : List RpmProblem) : Context :=
  { c with problems :=
      (found.filter fun problem => !c.problemIsAuthorized c.authorizedFilters problem).map (·.text) }

/-- `dnfast_inventory_write_end`. -/
def Context.endInventoryWrite (c : Context) : Context :=
  { c with writing := false, items := [], problems := [] }

def Context.transactionProblems (c : Context) : Except InventoryError (List String) :=
  c.problems.mapM fun
    | none => .error (.native (.nativeFailure 7 "invalid native transaction result"))
    | some text => .ok text

/-- `problems`: each text is parsed as a `TransactionProblem`. -/
def Context.parsedProblems (c : Context) : Except InventoryError (List String) := do
  let texts ← c.transactionProblems
  Except.refuseIf (texts.any fun text => text = "" || text.utf8ByteSize > 4096 || Rpmdb.hasNul text)
    .problemList
  return texts

/-- What librpm and the journal's file system answer while `attempt` runs. -/
structure Attempt where
  /-- The transaction set is created and its write transaction begins. -/
  opened : Bool
  /-- Every item is verified again and added. -/
  itemsAdded : Bool
  /-- The problems after `rpmtsCheck`, unless that fails itself. -/
  checked : Option (List RpmProblem)
  ordered : Bool
  /-- The faults of `mark_started`. -/
  marking : List (Option StateError)
  result : Int32
  /-- The problems after `rpmtsRun`. -/
  found : List RpmProblem
  callbackFailed : Bool
  scriptStops : UInt64
  packageStops : UInt64

structure ExecutorInventory where
  context : Context
  inventory : InstalledInventory
  state : ExecutionState
  journal : Option Directory
  rpmdbCookie : Option String
  log : List Event

/-- The executor that `begin` returns. -/
def ExecutorInventory.begin (inventory : InstalledInventory) (rpmdbCookie : Option String) :
    ExecutorInventory where
  context := ⟨true, [], .preflight, 0, 0, 0, 0, []⟩
  inventory := inventory
  state := .prepared
  journal := none
  rpmdbCookie := rpmdbCookie
  log := []

/-- The preflight of `attempt`: whether it fails, and the problems it leaves. -/
def Context.preflight (c : Context) (a : Attempt) : Bool × Context :=
  if !a.opened || !a.itemsAdded then (true, c)
  else
    match a.checked with
    | none => (true, c)
    | some found =>
      let c := c.collectProblems found
      (!c.problems.isEmpty || !a.ordered, c)

/-- A program on the journal, under a list of faults. None of them is a crash. -/
def onJournal (m : Exec Directory StateError Unit) (faults : List (Option StateError))
    (d : Directory) : Except StateError Unit × Directory :=
  let fates := faults.map fun fault => fault.elim .go .fail
  match m fates d with
  | (.ok (), d', _) => (.ok (), d')
  | (.err e, d', _) => (.error e, d')
  | (.crashed, d', _) => (.error .busy, d')

/-- The calls return a result and the executor after them. -/
abbrev Call (α : Type) := Except InventoryError α × ExecutorInventory

namespace ExecutorInventory

section
variable (fromSlice : List UInt8 → Except String JournalEntry) (p : Process)

/-- The callback that `attempt` makes before the real run: the journal's `mark_started`, or nothing
when no journal is bound. -/
def transactionStart (faults : List (Option StateError)) (s : ExecutorInventory) :
    Bool × ExecutorInventory :=
  match s.journal with
  | none => (true, s)
  | some d =>
    match onJournal (State.markStarted fromSlice p) faults d with
    | (.ok (), d') => (true, { s with journal := some d', log := s.log ++ [.marked] })
    | (.error _, d') => (false, { s with journal := some d' })

/-- `rpmtsRun` with the items of the context, and what `attempt` makes of its result. -/
def rpmtsRun (test : Bool) (a : Attempt) (s : ExecutorInventory) : Bool × ExecutorInventory :=
  let c := s.context.collectProblems a.found
  let failed := a.result != 0 || !c.problems.isEmpty || a.callbackFailed
  let c := { c with
    testRun := if test then c.testRun + 1 else c.testRun
    realRun := if test then c.realRun else c.realRun + 1
    scriptStop := c.scriptStop + a.scriptStops
    packageStop := c.packageStop + a.packageStops }
  let event := if test then .tested c.items (!failed) else .ran c.items
  (failed, { s with context := c, log := s.log ++ [event] })

/-- `attempt` after a preflight that succeeds: the start of a real run, then the run. -/
def attemptRun (test : Bool) (a : Attempt) (s : ExecutorInventory) : Bool × ExecutorInventory :=
  if test then rpmtsRun test a s
  else
    match s.transactionStart fromSlice p a.marking with
    | (false, s) => (true, s)
    | (true, s) => rpmtsRun test a { s with context := { s.context with phase := .started } }

/-- `attempt`: whether it fails, and what it leaves. -/
def attempt (test run : Bool) (a : Attempt) (s : ExecutorInventory) : Bool × ExecutorInventory :=
  match s.context.preflight a with
  | (true, c) => (true, { s with context := c })
  | (false, c) =>
    if run then attemptRun fromSlice p test a { s with context := c } else (false, { s with context := c })

/-- The message of a failed attempt. `stage` has passed all its values by the end of `attempt`, so
the stage that failed is not the one reported. -/
def attemptFailure (test run : Bool) : NativeError :=
  .nativeFailure 7 <|
    if run && !test then "real transaction failed; reconciliation required"
    else "preflight stage: rpmtsOrder"

def execute (test run : Bool) (a : Attempt) (s : ExecutorInventory) :
    Except NativeError Int32 × ExecutorInventory :=
  if !s.context.writing || s.context.items.isEmpty || s.context.phase ≠ .preflight then
    (.error (.nativeFailure 1 "transaction is not prepared"), s)
  else
    match attempt fromSlice p test run a s with
    | (true, s) => (.error (attemptFailure test run), s)
    | (false, s) => (.ok (if run then a.result else 0), s)

/-! ## The calls -/

def bindJournal (journal : Directory) (s : ExecutorInventory) : Call Unit :=
  if s.state ≠ .prepared || s.journal.isSome then (.error .invalidState, s)
  else (.ok (), { s with journal := some journal })

/-- `append_item`, and before it the test that the transaction is mutable. `verified` is what the
native layer says of the item itself. -/
def append (item : TransactionItem) (verified : Except NativeError Unit) (s : ExecutorInventory) :
    Call Unit :=
  if !s.context.writing || s.context.phase ≠ .preflight then
    (.error (.native (.nativeFailure 1 "transaction is not mutable")), s)
  else
    match verified with
    | .error e => (.error (.native e), s)
    | .ok () =>
      if s.context.items.length ≥ maxPackages then
        (.error (.native (.nativeFailure 3 "action limit exceeded")), s)
      else
        (.ok (), { s with
          context := { s.context with items := s.context.items ++ [item] }
          log := s.log ++ [.added item] })

def addInstall (package : VerifiedPackage) (artifactSha256 : String) (artifactSize : UInt64)
    (mode : TransactionInstallMode) (verified : Except NativeError Unit) (s : ExecutorInventory) :
    Call Unit :=
  if s.state ≠ .prepared then (.error .invalidState, s)
  else
    match Core.Sha256Digest.parse artifactSha256 "artifact_sha256" with
    | .error _ => (.error .headerDigest, s)
    | .ok _ => s.append (.install package artifactSha256 artifactSize mode) verified

def addErase (installed : InstalledPackage) (s : ExecutorInventory) : Call Unit :=
  if s.state ≠ .prepared then (.error .invalidState, s)
  else
    match s.inventory.eraseTarget installed.dbInstance installed.immutableHeaderSha256.asStr with
    | .error e => (.error (.eraseIdentity e), s)
    | .ok _ =>
      if installed.dbInstance = 0 || installed.dbInstance.toNat ≥ 2 ^ 32 then
        (.error (.native (.nativeFailure 1 "invalid erase action")), s)
      else s.append (.erase installed.dbInstance installed.immutableHeaderSha256.asStr) (.ok ())

/-- The error of an attempt that did not reach the real run. -/
def preflightError (e : NativeError) (s : ExecutorInventory) : InventoryError :=
  match s.context.parsedProblems with
  | .error e => e
  | .ok [] => .native e
  | .ok problems => .transactionPreflight problems

def prepareCheckedTransaction (a : Attempt) (s : ExecutorInventory) : Call Unit :=
  if s.state ≠ .prepared then (.error .invalidState, s)
  else
    match execute fromSlice p true false a s with
    | (.ok _, s) => (.ok (), s)
    | (.error e, s) => (.error (s.preflightError e), s)

def testCheckedTransaction (a : Attempt) (s : ExecutorInventory) : Call Int32 :=
  if s.state ≠ .prepared then (.error .invalidState, s)
  else
    match execute fromSlice p true true a s with
    | (.ok result, s) => (.ok result, { s with state := .tested })
    | (.error e, s) => (.error (s.preflightError e), s)

/-- The summary of the callbacks that is recorded with a result. -/
def callbacks (s : ExecutorInventory) : CallbackSummary :=
  ⟨0, 0, s.context.scriptStop, 0, s.context.packageStop, 0, false⟩

def recordResult (returnCode : Int32) (faults : List (Option StateError)) (s : ExecutorInventory) :
    Call Unit :=
  match s.journal with
  | none => (.ok (), s)
  | some d =>
    match s.context.transactionProblems with
    | .error e => (.error e, s)
    | .ok problems =>
      match onJournal (State.recordRpmResultWithProblems fromSlice p returnCode s.callbacks problems)
        faults d with
      | (.ok (), d') => (.ok (), { s with journal := some d' })
      | (.error e, d') => (.error (.journal e.toString), { s with journal := some d' })

def runCheckedTransaction (a : Attempt) (recording : List (Option StateError))
    (s : ExecutorInventory) : Call Int32 :=
  if s.state ≠ .tested then (.error .invalidState, s)
  else
    match execute fromSlice p false true a s with
    | (.ok result, s) =>
      if s.context.realRun ≠ 1 then
        (s.context.parsedProblems.bind fun problems => .error (.transactionPreflight problems), s)
      else
        match recordResult fromSlice p result recording { s with state := .started } with
        | (.ok (), s) => (.ok result, s)
        | (.error e, s) =>
          (s.context.parsedProblems.bind fun problems =>
            .error (.potentiallyStateful problems (some e)), s)
    | (.error e, s) =>
      if s.context.realRun = 0 then (.error (s.preflightError e), s)
      else
        let s := { s with state := .started }
        match s.context.parsedProblems with
        | .error e => (.error e, s)
        | .ok problems =>
          match recordResult fromSlice p (-1) recording s with
          | (.ok (), s) => (.error (.potentiallyStateful problems none), s)
          | (.error e, s) => (.error (.potentiallyStateful problems (some e)), s)

def verifyTransactionDb (verified : Except NativeError Unit) (s : ExecutorInventory) : Call Unit :=
  if s.state ≠ .started then (.error .invalidState, s)
  else if s.context.phase ≠ .started then
    (.error (.native (.nativeFailure 1 "real run has not started")), s)
  else (verified.mapError .native, s)

/-- `test_transaction`. The transaction set of the write lock has no items. -/
def testTransaction (rpmResult : Int32) (s : ExecutorInventory) : Call Int32 :=
  if s.state ≠ .prepared then (.error .invalidState, s)
  else if !s.context.writing then
    (.error (.native (.nativeFailure 1 "write context is not active")), s)
  else
    let s := { s with log := s.log ++ [Event.tested [] (rpmResult = 0)] }
    if rpmResult = 0 then (.ok rpmResult, { s with state := .tested })
    else
      (.error (.testFailed rpmResult),
        { s with context := s.context.endInventoryWrite, state := .testFailed rpmResult })

def runTransaction (rpmResult : Int32) (s : ExecutorInventory) : Call Int32 :=
  if s.state ≠ .tested then (.error .invalidState, s)
  else
    let s := { s with state := .started }
    if !s.context.writing then
      (.error (.native (.nativeFailure 1 "write context is not active")), s)
    else (.ok rpmResult, { s with log := s.log ++ [.ran []] })

def requestCancel (s : ExecutorInventory) : Call Unit :=
  match s.state with
  | .prepared | .tested =>
    (.ok (), { s with context := s.context.endInventoryWrite, state := .cancelled })
  | .started => (.error .tooLate, s)
  | .testFailed _ | .reconciled | .cancelled => (.error .invalidState, s)

end

/-! ## Reconciliation -/

section
variable (fromSlice : List UInt8 → Except String JournalEntry) (p : Process)
  (sha256 : List UInt8 → Core.Sha256Digest)

/-- The read of a reconciliation: the inventory after the transaction and, for a read of selected
names, its cookie. -/
def readAfter (db : Except NativeError Rpmdb) (success : Bool) (changedNames : Option (List String))
    (s : ExecutorInventory) (cache : Option CachedInventory) :
    Cached (InstalledInventory × Option String) :=
  match changedNames with
  | some names =>
    let (result, cache) := readLockedSelected db s.inventory names cache
    (result.bind fun snapshot =>
      if s.rpmdbCookie = some snapshot.rpmdbCookie then .error .unchangedCookie
      else .ok (snapshot.inventory, some snapshot.rpmdbCookie), cache)
  | none =>
    let (result, cache) := if success then readLocked db cache else readLockedUncached db cache
    (result.map fun inventory => (inventory, none), cache)

/-- An unknown vendor is read as an empty one. -/
def knownVendor (vendor : String) : String := if vendor = "unknown" then "" else vendor

/-- The identities that the inventory has under the changed names, sorted. -/
def actualIdentities (inventory : InstalledInventory) (changedNames : List String) :
    List Identity :=
  ((inventory.packages.filter (·.name ∈ changedNames)).map fun package =>
    toLex (package.name, toLex (package.evra, knownVendor package.vendor))).insertionSort (· ≤ ·)

def checkIdentities (inventory : InstalledInventory) (changedNames : Option (List String))
    (expected : Option (List Identity)) : Except InventoryError Unit :=
  match changedNames, expected with
  | some names, some expected =>
    let actual := actualIdentities inventory names
    let expected := expected.insertionSort (· ≤ ·)
    Except.refuseIf (actual ≠ expected) (.postTransactionIdentity expected actual)
  | _, _ => .ok ()

/-- The result that a reconciliation records. -/
def reconcileResult (before after : InstalledInventory) (success : Bool) : ReconcileResult where
  inventorySha256 := (sha256 (canonicalEncode after)).asStr
  success := success
  changedPackages := if canonicalEncode before ≠ canonicalEncode after then 1 else 0

def recordReconciliation (result : ReconcileResult) (faults : List (Option StateError))
    (s : ExecutorInventory) : Call Unit :=
  match s.journal with
  | none => (.ok (), s)
  | some d =>
    match onJournal (State.reconcile fromSlice p result) faults d with
    | (.ok (), d') => (.ok (), { s with journal := some d' })
    | (.error e, d') => (.error (.journal e.toString), { s with journal := some d' })

def reconcileWithSuccess (db : Except NativeError Rpmdb) (faults : List (Option StateError))
    (success : Bool) (changedNames : Option (List String)) (expected : Option (List Identity))
    (s : ExecutorInventory) (cache : Option CachedInventory) :
    Call Unit × Option CachedInventory :=
  if s.state ≠ .started then ((.error .invalidState, s), cache)
  else
    let (read, cache) := s.readAfter db success changedNames cache
    match read with
    | .error e => ((.error e, s), cache)
    | .ok (inventory, postCookie) =>
      match checkIdentities inventory changedNames expected with
      | .error e => ((.error e, s), cache)
      | .ok () =>
        let result := reconcileResult sha256 s.inventory inventory success
        match s.recordReconciliation fromSlice p result faults with
        | (.error e, s) => ((.error e, s), cache)
        | (.ok (), s) =>
          ((.ok (), { s with
            inventory
            rpmdbCookie := if postCookie.isSome then postCookie else s.rpmdbCookie
            state := .reconciled }), cache)

end

end ExecutorInventory

end Dnfast.Native
