import Dnfast.Data.Bytes
import Dnfast.Executor.Memo

/-! # The daemon

`dnfast-executor`, `resident.rs`: the daemon answers one connection after the other. A `Prepare` is
answered with a `Prepared` frame that holds a token, the digest of the plan and its actions; the plan is
executed when the next frame on the connection is a decision with this token. Before that the plan and
the planning snapshot are checked again.

A step of the daemon finds one `World`, and the next step may find another one: snapshots are published
and time goes on while the daemon waits for a frame, or works. The log of the daemon is no part of the
source, and no function reads it. -/

namespace Dnfast.Executor

open Core (Action InstalledInventory)
open Except (refuseIf)
open Solver (CanonicalSolverPlan)

/-! ## Frames -/

def protocolSchema : String := "dnfast.daemon.v1"

inductive ClientMessage where
  | ping (schema : String)
  | warm (schema : String) (repositories : List String)
  | plan (schema action : String) (repositories packages : List String)
  | prepare (schema action : String) (repositories packages : List String)
  | decision (schema token : String) (approved : Bool)
  deriving DecidableEq

structure DaemonAction where
  kind : String
  name : String
  epoch : String
  version : String
  release : String
  arch : String
  repoId : Option String
  reason : String
  deriving DecidableEq

/-- The `Prepared` frame. -/
structure PreparedFrame where
  token : String
  command : String
  planDigest : String
  actions : List DaemonAction

def daemonActions (plan : CanonicalSolverPlan) : List DaemonAction :=
  plan.actions.map fun action => {
    kind := action.operation
    name := action.name
    epoch := action.targetEvra.epoch.toNat.repr
    version := action.targetEvra.version
    release := action.targetEvra.release
    arch := action.targetEvra.arch.asRpmArch
    repoId := action.repoId
    reason := action.reason.asStr }

def parseAction (value : String) : Option Action :=
  if value = "install" then some .install
  else if value = "upgrade" then some .upgrade
  else if value = "remove" then some .remove
  else if value = "downgrade" then some .downgrade
  else if value = "reinstall" then some .reinstall
  else if value = "distro-sync" then some .distroSync
  else if value = "autoremove" then some .autoremove
  else none

def actionName : Action → String
  | .install => "install"
  | .upgrade => "upgrade"
  | .remove => "remove"
  | .downgrade => "downgrade"
  | .reinstall => "reinstall"
  | .distroSync => "distro-sync"
  | .autoremove => "autoremove"

def canonicalRepositoryIds (repositories : List String) : Bool :=
  repositories.all (fun id => id != "" && id.toList.all fun c =>
    c.isAlphanum || c = '_' || c = '.' || c = '-') && repositories.IsChain (· < ·)

/-- The action of a request that is well formed. -/
def admitted (schema action : String) (repositories : List String) : Option Action :=
  if schema = protocolSchema ∧ canonicalRepositoryIds repositories then parseAction action else none

/-- `secure_equal`. -/
def secureEqual (left right : List UInt8) : Bool :=
  left.length = right.length &&
    (left.zip right).foldl (fun different (a, b) => different ||| (a ^^^ b)) 0 = 0

theorem foldl_xor_eq_zero_iff (pairs : List (UInt8 × UInt8)) (different : UInt8) :
    pairs.foldl (fun different (a, b) => different ||| (a ^^^ b)) different = 0 ↔
      different = 0 ∧ ∀ p ∈ pairs, p.1 = p.2 := by
  induction pairs generalizing different with
  | nil => simp
  | cons p pairs ih =>
    rw [List.foldl_cons, ih, UInt8.or_eq_zero_iff, UInt8.xor_eq_zero_iff, List.forall_mem_cons,
      and_assoc]

theorem secureEqual_iff {left right : List UInt8} : secureEqual left right = true ↔ left = right := by
  rw [secureEqual, Bool.and_eq_true, decide_eq_true_iff, decide_eq_true_iff, foldl_xor_eq_zero_iff]
  constructor
  · rintro ⟨hlength, -, hpairs⟩
    refine List.ext_getElem hlength fun i hi hi' => ?_
    have hmem : (left[i], right[i]) ∈ left.zip right := by
      rw [List.mem_iff_getElem]
      exact ⟨i, by simpa using ⟨hi, hi'⟩, List.getElem_zip⟩
    exact hpairs _ hmem
  · rintro rfl
    refine ⟨rfl, rfl, fun p hp => ?_⟩
    obtain ⟨i, hi, rfl⟩ := List.mem_iff_getElem.mp hp
    rw [List.getElem_zip]

/-! ## Tokens -/

def frameDigest (bytes : List UInt8) : List UInt8 := bytes.length.beBytes 8 ++ bytes

/-- The bytes that a token is the digest of. -/
def tokenInput (nonce : List UInt8) (sequence : UInt64) (planDigest : String) (solved : SolvedPlan) :
    List UInt8 :=
  let proposal := solved.plan.proposal
  "dnfast-resident-solve-token-v1".asBytes ++ frameDigest nonce ++
    frameDigest (sequence.toNat.beBytes 8) ++ frameDigest planDigest.asBytes ++
    frameDigest solved.rpmdbCookie.asBytes ++
    frameDigest proposal.integrity.metadataSha256.asStr.asBytes ++
    frameDigest proposal.integrity.trustSha256.asStr.asBytes ++
    frameDigest proposal.integrity.policySha256.asStr.asBytes ++
    frameDigest (proposal.expiresAtUnix.toNat.beBytes 8)

/-! ## The state -/

/-- A plan that was prepared on a connection. -/
structure Prepared where
  connection : Nat
  solved : SolvedPlan
  token : String

/-- Where the daemon is in the handling of a connection. -/
inductive Phase where
  | listening
  | awaiting (t : Prepared)
  | approved (t : Prepared)
  | revalidated (t : Prepared)
  | rebound (t : Prepared)
  | rechecked (t : Prepared)
  | staged (t : Prepared)
  | executing (t : Prepared)
  | stopped

inductive Event where
  | received (connection : Nat) (message : ClientMessage)
  | prepared (connection : Nat) (sequence : UInt64) (input : List UInt8) (frame : PreparedFrame)
  | revalidated (connection : Nat) (w : World)
  | rechecked (connection : Nat) (w : World)
  | started (connection : Nat) (plan : CanonicalSolverPlan) (w : World)

structure DaemonState where
  planner : ResidentPlanner
  nonce : List UInt8
  sequence : UInt64
  /-- How many connections were accepted so far; the connections are numbered. -/
  accepted : Nat
  phase : Phase
  log : List Event

/-- What happens next: a connection with its peer and its first frame, a frame on the connection that is
handled, a step of the daemon on its own and the end of an execution with what was published. Reads and
writes may fail, and so may what a step does outside. -/
inductive DaemonInput where
  | accept (peer : Except String Bool) (frame : Except String ClientMessage) (w : World)
      (written : Except String Unit)
  | read (frame : Except String ClientMessage)
  | proceed (w : World) (result : Except String Unit)
  | executed (w : World) (result : Except String (InstalledInventory × String × String))

namespace DaemonState

def logged (s : DaemonState) (events : List Event) : DaemonState := { s with log := s.log ++ events }

def listen (s : DaemonState) : DaemonState := { s with phase := .listening }

end DaemonState

section
variable (out : Outside) (planDigest : CanonicalSolverPlan → Except Solver.PlanError String)

/-- `requires_full_filelists`. -/
def ResidentPlanner.requiresFullFilelists (w : World) (action : Action)
    (packages repositories : List String) (s : ResidentPlanner) :
    Except DaemonError Bool × ResidentPlanner :=
  if !packages.any isAbsolute then (.ok false, s)
  else
    let covered : Except DaemonError Bool :=
      if action = .install then do
        let snapshot ← openSystem out w
        let integrity ←
          (Planning.integrityForRepositories out.lib snapshot repositories).mapError .snapshot
        let selected ← selectedRepositories snapshot integrity
        return selected.all (·.fileProvides.isSome)
      else .ok false
    match covered with
    | .error e => (.error e, s)
    | .ok true => (.ok false, s)
    | .ok false =>
      match s.ensure out w repositories with
      | (.error e, s) => (.error e, s)
      | (.ok (), s) =>
        match s.cached with
        | none => (.error (.planning "resident pool"), s)
        | some pool =>
          match everyAbsoluteIsPrimary out pool packages with
          | .error e => (.error e, s)
          | .ok primary => (.ok (!primary && (action ≠ .install ||
              pool.repositories.any (·.fileProvides.isNone))), s)

/-- `revalidate_solved`. -/
def revalidateSolved (w : World) (solved : SolvedPlan) : Except DaemonError Unit := do
  (solved.plan.proposal.validateExecutable solved.policy w.now).mapError .domain
  let digest ← currentSystemDigest w
  refuseIf (digest ≠ solved.integrity.planningSnapshotSha256.asStr)
    (.planning "root-published planning snapshot changed after solve")

namespace DaemonState

/-- The start of `prepare_and_execute`, up to the wait for the decision. -/
def prepare (connection : Nat) (solved : SolvedPlan) (written : Except String Unit) (s : DaemonState) :
    DaemonState :=
  match planDigest solved.plan with
  | .error _ => s
  | .ok digest =>
    let sequence := s.sequence + 1
    let input := tokenInput s.nonce sequence digest solved
    let token := (out.lib.crates.sha256 input).asStr
    match written with
    | .error _ => { s with sequence := sequence }
    | .ok () =>
      { s.logged [.prepared connection sequence input ⟨token,
          actionName solved.plan.proposal.intent.action, digest, daemonActions solved.plan⟩] with
        sequence := sequence
        phase := .awaiting ⟨connection, solved, token⟩ }

/-- The solution of a request, unless the planner of the client has to find it. -/
def solve (w : World) (schema action : String) (repositories packages : List String)
    (s : DaemonState) : Option SolvedPlan × DaemonState :=
  match admitted schema action repositories with
  | none => (none, s)
  | some action =>
    match s.planner.requiresFullFilelists out w action packages repositories with
    | (.ok false, planner) =>
      match planner.solve out w action packages repositories with
      | (.ok solved, planner) => (some solved, { s with planner := planner })
      | (.error _, planner) => (none, { s with planner := planner })
    | (_, planner) => (none, { s with planner := planner })

def handleConnection (w : World) (message : ClientMessage) (written : Except String Unit)
    (connection : Nat) (s : DaemonState) : DaemonState :=
  match message with
  | .ping _ => s
  | .warm schema repositories =>
    if schema = protocolSchema ∧ canonicalRepositoryIds repositories then
      { s with planner := (s.planner.warm out w repositories).2 }
    else s
  | .plan schema action repositories packages => (s.solve out w schema action repositories packages).2
  | .prepare schema action repositories packages =>
    match s.solve out w schema action repositories packages with
    | (none, s) => s
    | (some solved, s) => s.prepare out planDigest connection solved written
  | .decision .. => s

/-- The frame after `Prepared`. -/
def decided (t : Prepared) (message : ClientMessage) (s : DaemonState) : DaemonState :=
  match message with
  | .decision schema token approved =>
    if schema = protocolSchema ∧ secureEqual t.token.asBytes token.asBytes ∧ approved then
      { s with phase := .approved t }
    else s.listen
  | _ => s.listen

/-- The rest of `prepare_and_execute`, up to the start of the execution. -/
def proceed (w : World) (result : Except String Unit) (s : DaemonState) : DaemonState :=
  match s.phase with
  | .approved t =>
    match revalidateSolved w t.solved with
    | .error _ => s.listen
    | .ok () => { s.logged [.revalidated t.connection w] with phase := .revalidated t }
  | .revalidated t =>
    -- `result` is that of the runtime bindings of the snapshot
    match openSystem out w, result with
    | .ok _, .ok () => { s with phase := .rebound t }
    | _, _ => s.listen
  | .rebound t =>
    match currentSystemDigest w with
    | .error _ => s.listen
    | .ok digest =>
      if digest ≠ t.solved.integrity.planningSnapshotSha256.asStr then s.listen
      else { s.logged [.rechecked t.connection w] with phase := .rechecked t }
  | .rechecked t =>
    -- pending transactions are recovered, the inputs are staged and the journal is created
    match result with
    | .error _ => s.listen
    | .ok () => { s with phase := .staged t }
  | .staged t => { s.logged [.started t.connection t.solved.plan w] with phase := .executing t }
  | _ => s

def step (s : DaemonState) : DaemonInput → DaemonState
  | .accept peer frame w written =>
    match s.phase with
    | .listening =>
      let connection := s.accepted
      let s := { s with accepted := s.accepted + 1 }
      match peer, frame with
      | .error _, _ => { s with phase := .stopped }
      | .ok false, _ => s
      | .ok true, .error _ => s
      | .ok true, .ok message =>
        (s.logged [.received connection message]).handleConnection out planDigest w message written
          connection
    | _ => s
  | .read frame =>
    match s.phase, frame with
    | .awaiting _, .error _ => s.listen
    | .awaiting t, .ok message => (s.logged [.received t.connection message]).decided t message
    | _, _ => s
  | .proceed w result => s.proceed out w result
  | .executed w result =>
    match s.phase, result with
    | .executing _, .error _ => s.listen
    | .executing _, .ok (inventory, source, published) =>
      { s.listen with planner := (s.planner.refreshAfterMutation out w inventory source published).2 }
    | _, _ => s

def run (s : DaemonState) (inputs : List DaemonInput) : DaemonState :=
  inputs.foldl (step out planDigest) s

end DaemonState

/-- The daemon at startup, with the planner that the verification of the database leaves if there is a
planning snapshot. -/
def DaemonState.start (nonce : List UInt8) (startup : Option (World × Core.Architecture)) :
    DaemonState where
  planner := match startup with
    | none => .new
    | some (w, architecture) => (ResidentPlanner.new.verifyStartup out w architecture).2
  nonce := nonce
  sequence := 0
  accepted := 0
  phase := .listening
  log := []

end

/-! ## The plans of the planner -/

section
variable {out : Outside} {w : World} {s : ResidentPlanner} {repositories packages : List String}
  {action : Action}

/-- The plan that the pool remembers was made for the record of the pool. -/
def ResidentPlanner.Remembers (s : ResidentPlanner) : Prop :=
  ∀ pool entry, s.cached = some pool → pool.lastSolve = some entry →
    entry.plan.proposal.integrity = pool.integrity

namespace ResidentPlanner.Remembers

theorem of_cached {s' : ResidentPlanner} (h : s.Remembers)
    (hcached : s'.cached = s.cached ∨ ∀ pool, s'.cached = some pool → pool.lastSolve = none) :
    s'.Remembers := by
  intro pool entry hpool hentry
  rcases hcached with hsame | hnone
  · exact h pool entry (hsame ▸ hpool) hentry
  · rw [hnone pool hpool] at hentry
    cases hentry

theorem lastSolve_of_buildPool {snapshot : Planning.PlanningSnapshot} {ids : List String}
    {integrity : Core.PlanIntegrity} {cookie : Option String} {pending : Option PendingInstalled}
    {pool : ResidentPool} (h : buildPool out w snapshot ids integrity cookie pending = .ok pool) :
    pool.lastSolve = none := by
  simp only [buildPool, fillPool, Except.bind_eq_ok, Except.pure_eq_ok] at h
  obtain ⟨_, -, _, -, _, -, _, -, _, -, _, -, _, -, _, -, _, -, rfl⟩ := h
  rfl

theorem rebuild (h : s.Remembers) : (s.rebuild out w repositories).2.Remembers := by
  unfold ResidentPlanner.rebuild
  dsimp only
  split
  · exact h
  · split
    · exact h.of_cached (.inl rfl)
    · next hbuild =>
      refine h.of_cached (.inr fun pool hpool => ?_)
      cases hpool
      exact lastSolve_of_buildPool hbuild

theorem ensure (h : s.Remembers) : (s.ensure out w repositories).2.Remembers := by
  unfold ResidentPlanner.ensure
  split
  · exact h
  · exact h.of_cached (.inl rfl)
  · exact h.rebuild
  · refine rebuild ?_
    exact h.of_cached (.inl rfl)

theorem refreshAfterMutation {inventory : InstalledInventory} {source published : String}
    (h : s.Remembers) : (s.refreshAfterMutation out w inventory source published).2.Remembers := by
  unfold ResidentPlanner.refreshAfterMutation
  have hinvalidate : s.invalidate.Remembers := h.of_cached (.inr fun pool hpool => by cases hpool)
  split
  · exact hinvalidate
  · split
    · exact hinvalidate
    · split
      · exact hinvalidate
      · next hrefreshed =>
        refine h.of_cached (.inr fun pool hpool => ?_)
        cases hpool
        simp only [refreshedPool, Except.bind_eq_ok, Except.pure_eq_ok] at hrefreshed
        obtain ⟨_, -, _, -, _, -, _, -, rfl⟩ := hrefreshed
        rfl

theorem requiresFullFilelists (h : s.Remembers) :
    (s.requiresFullFilelists out w action packages repositories).2.Remembers := by
  unfold ResidentPlanner.requiresFullFilelists
  dsimp only
  split
  · exact h
  · split
    · exact h
    · exact h
    · have hensure : (s.ensure out w repositories).2.Remembers := h.ensure
      split
      · next heq =>
        rw [heq] at hensure
        exact hensure
      · next heq =>
        rw [heq] at hensure
        split
        · exact hensure
        · split <;> exact hensure

/-- The plan of an answer was made for its record. -/
theorem solveCached {intent : Core.TransactionIntent}
    {prefetch : Option (Except DaemonError PrefetchedFileSelectors)} (h : s.Remembers) :
    (s.solveCached out w intent prefetch).2.Remembers ∧
      ∀ solved, (s.solveCached out w intent prefetch).1 = .ok solved →
        solved.plan.proposal.integrity = solved.integrity := by
  unfold ResidentPlanner.solveCached
  split
  · exact ⟨h, fun solved hsolved => by cases hsolved⟩
  · next pool hpool =>
    dsimp only
    split
    · next plan hplan =>
      refine ⟨h, fun solved hsolved => ?_⟩
      cases hsolved
      obtain ⟨entry, hentry, rfl⟩ := Option.map_eq_some_iff.mp hplan
      exact h pool entry hpool (Option.filter_eq_some_iff.mp hentry).1
    · split
      · exact ⟨h, fun solved hsolved => by cases hsolved⟩
      · next plan hsolve =>
        have hproposal := (proposal_of_solveOn hsolve).1
        refine ⟨fun pool' entry hpool' hentry => ?_, fun solved hsolved => ?_⟩
        · cases hpool'
          cases hentry
          exact hproposal
        · cases hsolved
          exact hproposal

theorem solve (h : s.Remembers) (out : Outside) (w : World) (action : Action)
    (packages repositories : List String) :
    (s.solve out w action packages repositories).2.Remembers ∧
      ∀ solved, (s.solve out w action packages repositories).1 = .ok solved →
        solved.plan.proposal.integrity = solved.integrity := by
  unfold ResidentPlanner.solve
  split
  · exact ⟨h, fun solved hsolved => by cases hsolved⟩
  · dsimp only
    have hensure : (s.ensure out w repositories).2.Remembers := h.ensure
    split
    · next heq =>
      rw [heq] at hensure
      exact ⟨hensure, fun solved hsolved => by cases hsolved⟩
    · next heq =>
      rw [heq] at hensure
      exact hensure.solveCached

theorem verifyStartup {architecture : Core.Architecture} :
    (ResidentPlanner.new.verifyStartup out w architecture).2.Remembers := by
  intro pool entry hpool
  unfold ResidentPlanner.verifyStartup at hpool
  dsimp only at hpool
  split at hpool <;> cases hpool

end ResidentPlanner.Remembers

end

/-! ## What goes before an execution -/

def ClientMessage.isPrepare : ClientMessage → Bool
  | .prepare .. => true
  | _ => false

section
variable (out : Outside) (planDigest : CanonicalSolverPlan → Except Solver.PlanError String)

/-- The plan was sent in a `Prepared` frame on the connection, as the answer to a `Prepare`. -/
def PreparedTrail (t : Prepared) (log : List Event) : Prop :=
  ∃ before message sequence input frame, log = before ++ [.received t.connection message,
      .prepared t.connection sequence input frame] ∧ message.isPrepare = true ∧
    frame.token = t.token ∧ planDigest t.solved.plan = .ok frame.planDigest ∧
    frame.actions = daemonActions t.solved.plan

def ApprovedTrail (t : Prepared) (log : List Event) : Prop :=
  ∃ before, log = before ++ [.received t.connection (.decision protocolSchema t.token true)] ∧
    PreparedTrail planDigest t before

/-- The planning snapshot of the plan is the current one. -/
def EmbedsCurrent (plan : CanonicalSolverPlan) (w : World) : Prop :=
  currentSystemDigest w = .ok plan.proposal.integrity.planningSnapshotSha256.asStr

def RevalidatedTrail (t : Prepared) (log : List Event) : Prop :=
  ∃ before w, log = before ++ [.revalidated t.connection w] ∧ ApprovedTrail planDigest t before ∧
    EmbedsCurrent t.solved.plan w ∧ w.now ≤ t.solved.plan.proposal.expiresAtUnix

def RecheckedTrail (t : Prepared) (log : List Event) : Prop :=
  ∃ before w, log = before ++ [.rechecked t.connection w] ∧ RevalidatedTrail planDigest t before ∧
    EmbedsCurrent t.solved.plan w

/-- What the log of a daemon ends with in a phase. -/
def PhaseTrail (log : List Event) : Phase → Prop
  | .awaiting t => PreparedTrail planDigest t log ∧
      t.solved.plan.proposal.integrity = t.solved.integrity
  | .approved t => ApprovedTrail planDigest t log ∧
      t.solved.plan.proposal.integrity = t.solved.integrity
  | .revalidated t | .rebound t => RevalidatedTrail planDigest t log ∧
      t.solved.plan.proposal.integrity = t.solved.integrity
  | .rechecked t | .staged t => RecheckedTrail planDigest t log
  | _ => True

/-- Every execution was approved, checked and checked again. -/
def Authorized (log : List Event) : Prop :=
  ∀ before c plan w after, log = before ++ .started c plan w :: after →
    ∃ t, t.connection = c ∧ t.solved.plan = plan ∧ RecheckedTrail planDigest t before

structure DaemonInv (s : DaemonState) : Prop where
  remembers : s.planner.Remembers
  trail : PhaseTrail planDigest s.log s.phase
  authorized : Authorized planDigest s.log

end

section
variable {out : Outside} {planDigest : CanonicalSolverPlan → Except Solver.PlanError String}
  {s : DaemonState}

def Event.isStarted : Event → Bool
  | .started .. => true
  | _ => false

namespace Authorized

theorem concat {log : List Event} {e : Event} (h : Authorized planDigest log)
    (he : ∀ c plan w, e = .started c plan w →
      ∃ t, t.connection = c ∧ t.solved.plan = plan ∧ RecheckedTrail planDigest t log) :
    Authorized planDigest (log ++ [e]) := by
  intro before c plan w after hlog
  rcases List.eq_nil_or_concat after with rfl | ⟨after, last, rfl⟩
  · obtain ⟨rfl, hlast⟩ := List.append_inj' hlog rfl
    exact he c plan w (List.singleton_inj.mp hlast)
  · rw [List.concat_eq_append, ← List.cons_append, ← List.append_assoc] at hlog
    exact h before c plan w after (List.append_inj' hlog rfl).1

theorem concat_of_not_isStarted {log : List Event} {e : Event} (h : Authorized planDigest log)
    (he : e.isStarted = false) : Authorized planDigest (log ++ [e]) := by
  apply h.concat
  rintro c plan w rfl
  cases he

end Authorized

namespace DaemonInv

theorem listen (h : DaemonInv planDigest s) : DaemonInv planDigest s.listen where
  remembers := h.remembers
  trail := trivial
  authorized := h.authorized

end DaemonInv

variable {w : World} {message : ClientMessage} {written : Except String Unit} {connection : Nat}

/-- The planner remembers, and a solution is a plan for its record. -/
theorem DaemonState.solve_spec (h : s.planner.Remembers) (out : Outside) (w : World)
    (schema action : String) (repositories packages : List String) :
    ∃ planner : ResidentPlanner, planner.Remembers ∧
      (s.solve out w schema action repositories packages).2 = { s with planner := planner } ∧
      ∀ solved, (s.solve out w schema action repositories packages).1 = some solved →
        solved.plan.proposal.integrity = solved.integrity := by
  unfold DaemonState.solve
  split
  · exact ⟨s.planner, h, rfl, fun solved hsolved => by cases hsolved⟩
  · next kind _ =>
    have hfull : (s.planner.requiresFullFilelists out w kind packages repositories).2.Remembers :=
      h.requiresFullFilelists
    split
    · next planner heq =>
      rw [heq] at hfull
      have hsolve := hfull.solve out w kind packages repositories
      split
      · next solved planner' heq' =>
        rw [heq'] at hsolve
        refine ⟨planner', hsolve.1, rfl, fun solved' hsolved => ?_⟩
        cases hsolved
        exact hsolve.2 solved rfl
      · next heq' =>
        rw [heq'] at hsolve
        exact ⟨_, hsolve.1, rfl, fun solved' hsolved => by cases hsolved⟩
    · next heq =>
      rw [heq] at hfull
      exact ⟨_, hfull, rfl, fun solved hsolved => by cases hsolved⟩

/-- The handling of the first frame of a connection: the planner changes, and a `Prepare` may prepare
a plan. -/
theorem DaemonState.handleConnection_cases (h : s.planner.Remembers) :
    ∃ planner : ResidentPlanner, planner.Remembers ∧
      (s.handleConnection out planDigest w message written connection = { s with planner := planner } ∨
        message.isPrepare = true ∧ ∃ solved, solved.plan.proposal.integrity = solved.integrity ∧
          s.handleConnection out planDigest w message written connection =
            { s with planner := planner }.prepare out planDigest connection solved written) := by
  unfold DaemonState.handleConnection
  split
  · exact ⟨s.planner, h, .inl rfl⟩
  · next schema repositories =>
    split
    · exact ⟨_, h.ensure, .inl rfl⟩
    · exact ⟨s.planner, h, .inl rfl⟩
  · next schema action repositories packages =>
    obtain ⟨planner, hplanner, heq, -⟩ := solve_spec h out w schema action repositories packages
    exact ⟨planner, hplanner, .inl heq⟩
  · next schema action repositories packages =>
    obtain ⟨planner, hplanner, heq, hsolved⟩ :=
      solve_spec h out w schema action repositories packages
    split
    · next hnone =>
      rw [hnone] at heq
      exact ⟨planner, hplanner, .inl heq⟩
    · next solved s' hsome =>
      rw [hsome] at heq hsolved
      exact ⟨planner, hplanner, .inr ⟨rfl, solved, hsolved solved rfl, heq ▸ rfl⟩⟩
  · exact ⟨s.planner, h, .inl rfl⟩

theorem expiresAtUnix_of_validateExecutable {plan : Core.PlanEnvelope} {policy : Core.SolverPolicy}
    {now : UInt64} (h : plan.validateExecutable policy now = .ok ()) : now ≤ plan.expiresAtUnix := by
  simp only [Core.PlanEnvelope.validateExecutable, Core.PlanEnvelope.validateNow,
    Except.check_bind_eq_ok, Except.refuseIf_eq_ok] at h
  obtain ⟨⟨-, -, -, hexpiry, -⟩, -⟩ := h
  exact UInt64.not_lt.mp hexpiry

theorem revalidateSolved_eq_ok {solved : SolvedPlan} (h : revalidateSolved w solved = .ok ()) :
    currentSystemDigest w = .ok solved.integrity.planningSnapshotSha256.asStr ∧
      w.now ≤ solved.plan.proposal.expiresAtUnix := by
  simp only [revalidateSolved, Except.bind_eq_ok, Except.refuseIf_eq_ok, Except.mapError_eq_ok] at h
  obtain ⟨_, hexecutable, digest, hdigest, hsame⟩ := h
  rw [not_not] at hsame
  exact ⟨hsame ▸ hdigest, expiresAtUnix_of_validateExecutable hexecutable⟩

namespace DaemonInv

theorem prepare {solved : SolvedPlan} {before : List Event} (h : DaemonInv planDigest s)
    (hsolved : solved.plan.proposal.integrity = solved.integrity)
    (hlog : s.log = before ++ [.received connection message]) (hmessage : message.isPrepare = true) :
    DaemonInv planDigest (s.prepare out planDigest connection solved written) := by
  unfold DaemonState.prepare
  split
  · exact h
  · next digest hdigest =>
    dsimp only
    split
    · exact ⟨h.remembers, h.trail, h.authorized⟩
    · refine ⟨h.remembers, ⟨⟨before, message, s.sequence + 1,
        tokenInput s.nonce (s.sequence + 1) digest solved,
        ⟨_, actionName solved.plan.proposal.intent.action, digest, daemonActions solved.plan⟩,
        ?_, hmessage, rfl, hdigest, rfl⟩, hsolved⟩, ?_⟩
      · rw [DaemonState.logged, hlog, List.append_assoc]
        rfl
      · exact h.authorized.concat_of_not_isStarted rfl

theorem received (h : DaemonInv planDigest s) (hphase : s.phase = .listening) (accepted : Nat) :
    DaemonInv planDigest ({ s with accepted := accepted }.logged [.received connection message]) where
  remembers := h.remembers
  trail := by
    change PhaseTrail planDigest _ s.phase
    rw [hphase]
    trivial
  authorized := h.authorized.concat_of_not_isStarted rfl

theorem handleConnection {before : List Event} (h : DaemonInv planDigest s)
    (hlog : s.log = before ++ [.received connection message]) :
    DaemonInv planDigest (s.handleConnection out planDigest w message written connection) := by
  obtain ⟨planner, hplanner, heq | ⟨hmessage, solved, hsolved, heq⟩⟩ :=
    @DaemonState.handleConnection_cases out planDigest s w message written connection h.remembers
  · rw [heq]
    exact ⟨hplanner, h.trail, h.authorized⟩
  · rw [heq]
    have hinv : DaemonInv planDigest { s with planner := planner } :=
      ⟨hplanner, h.trail, h.authorized⟩
    exact hinv.prepare hsolved hlog hmessage

theorem decided {t : Prepared} (h : DaemonInv planDigest s)
    (hphase : s.phase = .awaiting t) :
    DaemonInv planDigest ((s.logged [.received t.connection message]).decided t message) := by
  have hauthorized : Authorized planDigest (s.log ++ [.received t.connection message]) :=
    h.authorized.concat_of_not_isStarted rfl
  have htrail := h.trail
  rw [hphase] at htrail
  unfold DaemonState.decided
  split
  · next schema token approved =>
    split
    · next haccepted =>
      obtain ⟨rfl, htoken, happroved⟩ := haccepted
      have htoken : t.token = token := String.asBytes_injective (secureEqual_iff.mp htoken)
      subst htoken happroved
      exact ⟨h.remembers, ⟨⟨s.log, rfl, htrail.1⟩, htrail.2⟩, hauthorized⟩
    · exact ⟨h.remembers, trivial, hauthorized⟩
  · exact ⟨h.remembers, trivial, hauthorized⟩

theorem proceed {result : Except String Unit} (h : DaemonInv planDigest s) :
    DaemonInv planDigest (s.proceed out w result) := by
  have htrail := h.trail
  unfold DaemonState.proceed
  split
  · next t hphase =>
    rw [hphase] at htrail
    split
    · exact h.listen
    · next hok =>
      obtain ⟨hcurrent, hexpiry⟩ := revalidateSolved_eq_ok hok
      refine ⟨h.remembers, ⟨⟨s.log, w, rfl, htrail.1, ?_, hexpiry⟩, htrail.2⟩, ?_⟩
      · rw [EmbedsCurrent, htrail.2]
        exact hcurrent
      · exact h.authorized.concat_of_not_isStarted rfl
  · next t hphase =>
    rw [hphase] at htrail
    split
    · exact ⟨h.remembers, htrail, h.authorized⟩
    · exact h.listen
  · next t hphase =>
    rw [hphase] at htrail
    split
    · exact h.listen
    · next digest hdigest =>
      split
      · exact h.listen
      · next hsame =>
        rw [not_not] at hsame
        refine ⟨h.remembers, ⟨s.log, w, rfl, htrail.1, ?_⟩, ?_⟩
        · rw [EmbedsCurrent, htrail.2, ← hsame]
          exact hdigest
        · exact h.authorized.concat_of_not_isStarted rfl
  · next t hphase =>
    rw [hphase] at htrail
    split
    · exact h.listen
    · exact ⟨h.remembers, htrail, h.authorized⟩
  · next t hphase =>
    rw [hphase] at htrail
    refine ⟨h.remembers, trivial, h.authorized.concat fun c plan w' he => ?_⟩
    cases he
    exact ⟨t, rfl, rfl, htrail⟩
  · exact h

theorem step (h : DaemonInv planDigest s) (input : DaemonInput) :
    DaemonInv planDigest (s.step out planDigest input) := by
  unfold DaemonState.step
  split
  · next peer frame w written =>
    split
    · next hphase =>
      dsimp only
      split
      · exact ⟨h.remembers, trivial, h.authorized⟩
      · exact ⟨h.remembers, h.trail, h.authorized⟩
      · exact ⟨h.remembers, h.trail, h.authorized⟩
      · exact (h.received hphase (s.accepted + 1)).handleConnection rfl
    · exact h
  · split
    · exact h.listen
    · next hphase => exact h.decided hphase
    · exact h
  · exact h.proceed
  · split
    · exact h.listen
    · exact ⟨h.remembers.refreshAfterMutation, trivial, h.authorized⟩
    · exact h

theorem run (h : DaemonInv planDigest s) (inputs : List DaemonInput) :
    DaemonInv planDigest (s.run out planDigest inputs) := by
  induction inputs generalizing s with
  | nil => exact h
  | cons input inputs ih => exact ih (h.step input)

theorem start (nonce : List UInt8) (startup : Option (World × Core.Architecture)) :
    DaemonInv planDigest (.start out nonce startup) where
  remembers := by
    cases startup with
    | none =>
      intro pool entry hpool
      cases hpool
    | some startup => exact ResidentPlanner.Remembers.verifyStartup
  trail := trivial
  authorized := by
    intro before c plan w after hlog
    cases before <;> cases hlog

end DaemonInv

end

/-! ## The tokens of a run -/

section
variable {out : Outside} {planDigest : CanonicalSolverPlan → Except Solver.PlanError String}
  {s : DaemonState}

/-- A `Prepared` frame with the number and the bytes of its token. -/
structure Sent where
  sequence : UInt64
  input : List UInt8
  frame : PreparedFrame

def Event.sent : Event → Option Sent
  | .prepared _ sequence input frame => some ⟨sequence, input, frame⟩
  | _ => none

/-- The `Prepared` frames of a run, in the order in which they were sent. -/
def sentFrames (log : List Event) : List Sent := log.filterMap Event.sent

@[simp] theorem sentFrames_append (log events : List Event) :
    sentFrames (log ++ events) = sentFrames log ++ sentFrames events :=
  List.filterMap_append

theorem sequence_of_tokenInput {nonce : List UInt8} {m n : UInt64} {p q : String}
    {solved solved' : SolvedPlan} (h : tokenInput nonce m p solved = tokenInput nonce n q solved') :
    m = n := by
  simp only [tokenInput, List.append_assoc, List.append_cancel_left_eq] at h
  have hframe := List.append_inj_left h (by simp [frameDigest])
  simp only [frameDigest, Nat.length_beBytes, List.append_cancel_left_eq] at hframe
  exact UInt64.toNat_inj.mp (Nat.beBytes_inj m.toNat_lt n.toNat_lt hframe)

/-- The frames that were sent are numbered in their order, and every token is the digest of the bytes
with this number. -/
structure Numbered (out : Outside) (s : DaemonState) : Prop where
  increasing : (sentFrames s.log).Pairwise (·.sequence < ·.sequence)
  le_sequence : ∀ f ∈ sentFrames s.log, f.sequence ≤ s.sequence
  token : ∀ f ∈ sentFrames s.log, f.frame.token = (out.lib.crates.sha256 f.input).asStr
  input : ∀ f ∈ sentFrames s.log, ∃ digest solved,
    f.input = tokenInput s.nonce f.sequence digest solved

/-- The frames of a run have different tokens if no two of their inputs collide. -/
theorem Numbered.pairwise_token_ne (h : Numbered out s)
    (hfree : ∀ f ∈ sentFrames s.log, ∀ g ∈ sentFrames s.log,
      out.lib.crates.sha256 f.input = out.lib.crates.sha256 g.input → f.input = g.input) :
    (sentFrames s.log).Pairwise (·.frame.token ≠ ·.frame.token) := by
  refine h.increasing.imp_of_mem fun {f g} hf hg hlt htoken => ?_
  rw [h.token f hf, h.token g hg] at htoken
  have hinput := hfree f hf g hg (Core.Sha256Digest.asStr_injective htoken)
  obtain ⟨_, _, hf⟩ := h.input f hf
  obtain ⟨_, _, hg⟩ := h.input g hg
  rw [hf, hg] at hinput
  have heq : f.sequence = g.sequence := sequence_of_tokenInput hinput
  rw [heq] at hlt
  exact UInt64.lt_irrefl _ hlt

/-- The input brings a `Prepare`. -/
def DaemonInput.isPrepare : DaemonInput → Bool
  | .accept _ (.ok message) _ _ => message.isPrepare
  | _ => false

/-- What a step does to the frames that were sent: nothing, or it counts a prepared plan and may send
its frame. -/
inductive Counts (out : Outside) (s s' : DaemonState) : Bool → Prop where
  | quiet {prepare : Bool} (hnonce : s'.nonce = s.nonce) (hsequence : s'.sequence = s.sequence)
      (hsent : sentFrames s'.log = sentFrames s.log) : Counts out s s' prepare
  | counted (sent : List Sent) (hnonce : s'.nonce = s.nonce)
      (hsequence : s'.sequence = s.sequence + 1)
      (hsent : sentFrames s'.log = sentFrames s.log ++ sent)
      (hframe : sent = [] ∨ ∃ digest solved frame,
        sent = [⟨s.sequence + 1, tokenInput s.nonce (s.sequence + 1) digest solved, frame⟩] ∧
        frame.token =
          (out.lib.crates.sha256 (tokenInput s.nonce (s.sequence + 1) digest solved)).asStr) :
      Counts out s s' true

namespace Counts

theorem prepare (connection : Nat) (solved : SolvedPlan) (written : Except String Unit) :
    Counts out s (s.prepare out planDigest connection solved written) true := by
  unfold DaemonState.prepare
  split
  · exact .quiet rfl rfl rfl
  · next digest _ =>
    dsimp only
    split
    · exact .counted [] rfl rfl (List.append_nil _).symm (.inl rfl)
    · exact .counted [⟨s.sequence + 1, tokenInput s.nonce (s.sequence + 1) digest solved, _⟩] rfl rfl
        (sentFrames_append _ _) (.inr ⟨digest, solved, _, rfl, rfl⟩)

theorem sentFrames_logged {e : Event} (he : e.sent = none) :
    sentFrames (s.logged [e]).log = sentFrames s.log := by
  rw [DaemonState.logged, sentFrames_append, sentFrames, sentFrames, List.filterMap_cons_none he]
  exact List.append_nil _

theorem proceed (w : World) (result : Except String Unit) {b : Bool} :
    Counts out s (s.proceed out w result) b := by
  unfold DaemonState.proceed
  split
  · split
    · exact .quiet rfl rfl rfl
    · exact .quiet rfl rfl (sentFrames_logged rfl)
  · split
    · exact .quiet rfl rfl rfl
    · exact .quiet rfl rfl rfl
  · split
    · exact .quiet rfl rfl rfl
    · split
      · exact .quiet rfl rfl rfl
      · exact .quiet rfl rfl (sentFrames_logged rfl)
  · split
    · exact .quiet rfl rfl rfl
    · exact .quiet rfl rfl rfl
  · exact .quiet rfl rfl (sentFrames_logged rfl)
  · exact .quiet rfl rfl rfl

theorem decided (t : Prepared) (message : ClientMessage) {b : Bool} :
    Counts out s ((s.logged [.received t.connection message]).decided t message) b := by
  unfold DaemonState.decided
  split
  · split
    · exact .quiet rfl rfl (sentFrames_logged rfl)
    · exact .quiet rfl rfl (sentFrames_logged rfl)
  · exact .quiet rfl rfl (sentFrames_logged rfl)

/-- The first state may be changed in what is not counted. -/
theorem of_same {s₀ s' : DaemonState} {b : Bool} (h : Counts out s s' b) (hnonce : s.nonce = s₀.nonce)
    (hsequence : s.sequence = s₀.sequence) (hsent : sentFrames s.log = sentFrames s₀.log) :
    Counts out s₀ s' b := by
  cases h with
  | quiet hn hq hs => exact .quiet (hn.trans hnonce) (hq.trans hsequence) (hs.trans hsent)
  | counted sent hn hq hs hframe =>
    refine .counted sent (hn.trans hnonce) (hsequence ▸ hq) (hsent ▸ hs) ?_
    rwa [hnonce, hsequence] at hframe

theorem step (hremembers : s.planner.Remembers) (input : DaemonInput) :
    Counts out s (s.step out planDigest input) input.isPrepare := by
  unfold DaemonState.step
  split
  · next peer frame w written =>
    split
    · dsimp only
      split
      · exact .quiet rfl rfl rfl
      · exact .quiet rfl rfl rfl
      · exact .quiet rfl rfl rfl
      · next message =>
        obtain ⟨planner, -, heq | ⟨hmessage, solved, -, heq⟩⟩ :=
          @DaemonState.handleConnection_cases out planDigest
            ({ s with accepted := s.accepted + 1 }.logged [.received s.accepted message]) w message
            written s.accepted hremembers
        · rw [heq]
          exact .quiet rfl rfl (sentFrames_logged rfl)
        · rw [heq, DaemonInput.isPrepare, hmessage]
          exact (prepare _ _ _).of_same rfl rfl (sentFrames_logged rfl)
    · exact .quiet rfl rfl rfl
  · split
    · exact .quiet rfl rfl rfl
    · exact decided _ _
    · exact .quiet rfl rfl rfl
  · exact proceed _ _
  · split
    · exact .quiet rfl rfl rfl
    · exact .quiet rfl rfl rfl
    · exact .quiet rfl rfl rfl

theorem toNat_sequence_le {s' : DaemonState} {b : Bool} (h : Counts out s s' b) :
    s'.sequence.toNat ≤ s.sequence.toNat + b.toNat := by
  cases h with
  | quiet _ hsequence _ =>
    rw [hsequence]
    exact Nat.le_add_right _ _
  | counted _ _ hsequence _ _ =>
    rw [hsequence, UInt64.toNat_add, UInt64.toNat_one]
    exact Nat.mod_le _ _

end Counts

namespace Numbered

theorem of_counts {s' : DaemonState} {b : Bool} (h : Numbered out s) (hcounts : Counts out s s' b)
    (hlt : b = true → s.sequence.toNat + 1 < 2 ^ 64) : Numbered out s' := by
  cases hcounts with
  | quiet hnonce hsequence hsent =>
    constructor
    · exact hsent ▸ h.increasing
    · exact hsent ▸ hsequence ▸ h.le_sequence
    · exact hsent ▸ h.token
    · exact hsent ▸ hnonce ▸ h.input
  | counted sent hnonce hsequence hsent hframe =>
    have hnext : (s.sequence + 1).toNat = s.sequence.toNat + 1 := by
      rw [UInt64.toNat_add, UInt64.toNat_one, Nat.mod_eq_of_lt (hlt rfl)]
    have hless : s.sequence < s.sequence + 1 := by
      rw [UInt64.lt_iff_toNat_lt, hnext]
      exact Nat.lt_succ_self _
    have hle : ∀ f ∈ sentFrames s.log, f.sequence < s.sequence + 1 :=
      fun f hf => UInt64.lt_of_le_of_lt (h.le_sequence f hf) hless
    rcases hframe with rfl | ⟨digest, solved, frame, rfl, htoken⟩
    · rw [List.append_nil] at hsent
      constructor
      · exact hsent ▸ h.increasing
      · exact hsent ▸ hsequence ▸ fun f hf => UInt64.le_of_lt (hle f hf)
      · exact hsent ▸ h.token
      · exact hsent ▸ hnonce ▸ h.input
    · constructor
      · rw [hsent, List.pairwise_append]
        refine ⟨h.increasing, List.pairwise_singleton _ _, fun f hf g hg => ?_⟩
        rw [List.mem_singleton.mp hg]
        exact hle f hf
      · rw [hsent, hsequence]
        intro f hf
        rcases List.mem_append.mp hf with hf | hf
        · exact UInt64.le_of_lt (hle f hf)
        · rw [List.mem_singleton.mp hf]
          exact UInt64.le_refl _
      · rw [hsent]
        intro f hf
        rcases List.mem_append.mp hf with hf | hf
        · exact h.token f hf
        · rw [List.mem_singleton.mp hf]
          exact htoken
      · rw [hsent, hnonce]
        intro f hf
        rcases List.mem_append.mp hf with hf | hf
        · exact h.input f hf
        · rw [List.mem_singleton.mp hf]
          exact ⟨digest, solved, rfl⟩

theorem run {inputs : List DaemonInput} (h : Numbered out s) (hinv : DaemonInv planDigest s)
    (hlt : s.sequence.toNat + inputs.countP DaemonInput.isPrepare < 2 ^ 64) :
    Numbered out (s.run out planDigest inputs) := by
  induction inputs generalizing s with
  | nil => exact h
  | cons input inputs ih =>
    have hcounts : Counts out s (s.step out planDigest input) input.isPrepare :=
      .step hinv.remembers input
    have hsequence := hcounts.toNat_sequence_le
    refine ih (h.of_counts hcounts fun hprepare => ?_) (hinv.step input) ?_
    · rw [List.countP_cons_of_pos hprepare] at hlt
      omega
    · cases hprepare : input.isPrepare with
      | false =>
        rw [hprepare, Bool.toNat_false] at hsequence
        rw [List.countP_cons_of_neg (hprepare ▸ Bool.false_ne_true)] at hlt
        omega
      | true =>
        rw [hprepare, Bool.toNat_true] at hsequence
        rw [List.countP_cons_of_pos hprepare] at hlt
        omega

theorem start (nonce : List UInt8) (startup : Option (World × Core.Architecture)) :
    Numbered out (.start out nonce startup) where
  increasing := List.Pairwise.nil
  le_sequence := fun f hf => by cases hf
  token := fun f hf => by cases hf
  input := fun f hf => by cases hf

end Numbered

end

/-- **Only what was approved is executed.** In every run of the daemon with fewer than `2 ^ 64` plans,
an execution is started only on a connection where the plan was sent in a `Prepared` frame, as the
answer to a `Prepare`, and the next frame was an approving decision with the token of this frame; after
the decision the plan had not expired and its planning snapshot was the current one, twice. The frames
of the run have different tokens, if the digest function has no collision among their inputs. -/
theorem executions_are_approved (out : Outside)
    (planDigest : CanonicalSolverPlan → Except Solver.PlanError String) (nonce : List UInt8)
    (startup : Option (World × Core.Architecture)) (inputs : List DaemonInput)
    (hcount : inputs.countP DaemonInput.isPrepare < 2 ^ 64)
    (hfree : ∀ f ∈ sentFrames ((DaemonState.start out nonce startup).run out planDigest inputs).log,
      ∀ g ∈ sentFrames ((DaemonState.start out nonce startup).run out planDigest inputs).log,
        out.lib.crates.sha256 f.input = out.lib.crates.sha256 g.input → f.input = g.input) :
    Authorized planDigest ((DaemonState.start out nonce startup).run out planDigest inputs).log ∧
      (sentFrames ((DaemonState.start out nonce startup).run out planDigest inputs).log).Pairwise
        (·.frame.token ≠ ·.frame.token) := by
  have hinv : DaemonInv planDigest (.start out nonce startup) := .start nonce startup
  have hnumbered : Numbered out (.start out nonce startup) := .start nonce startup
  have hlt : (DaemonState.start out nonce startup).sequence.toNat +
      inputs.countP DaemonInput.isPrepare < 2 ^ 64 := by
    have hzero : (DaemonState.start out nonce startup).sequence.toNat = 0 := rfl
    rw [hzero, Nat.zero_add]
    exact hcount
  exact ⟨(hinv.run inputs).authorized, (hnumbered.run hinv hlt).pairwise_token_ne hfree⟩

/-! ### A run -/

open Planning (newDigest newInventory soloRepository)

def sevenWorld : World := plainWorld (schemaStore newDigest (schemaDocument 7)) none noFault

def sixWorld : World := plainWorld (schemaStore sixDigest (schemaDocument 6)) none noFault

/-- A request and its approval; the execution is started in a given world. -/
def appInputs (token : String) (w : World) : List DaemonInput :=
  [.accept (.ok true) (.ok (.warm protocolSchema [])) sevenWorld (.ok ()),
    .accept (.ok true) (.ok (.prepare protocolSchema "install" [] ["app"])) sevenWorld (.ok ()),
    .read (.ok (.decision protocolSchema token true)), .proceed sevenWorld (.ok ()),
    .proceed sevenWorld (.ok ()), .proceed sevenWorld (.ok ()), .proceed sevenWorld (.ok ()),
    .proceed w (.ok ())]

/-- The pool that a request builds. -/
theorem sameView_of_ready {pool : ResidentPool}
    (hready : Ready schemaEvidence sevenWorld [] (schemaSnapshot 7) pool) :
    SameView pool (appPool 7) ∧ pool.rpmdbCookie = "cookie" := by
  obtain ⟨hpatched, hview⟩ := sameView_patched (metadataInput_schema metadata_schemas.2.1) hready
  have hintegrity : pool.integrity = patchedIntegrity 7 := by
    have hsnapshot : pool.integrity.planningSnapshotSha256 = newDigest := by
      refine Core.Sha256Digest.ext (Except.ok.inj (hready.poolOf.digest.symm.trans ?_))
      rw [← sha256_schemas.2]
      exact decodes_schemas.2.digest
    have hinventory : pool.integrity.inventorySha256 =
        Planning.inventorySha256 schemaLibrary.crates newInventory := by
      obtain ⟨b⟩ := Planning.integrityForRepositories_eq_ok.mp hready.poolOf.integrity
      have hrecord := b.record
      have hlib : (appOutside schemaLibrary).lib.crates = schemaLibrary.crates := rfl
      have hpublished : (schemaSnapshot 7).payload.inventory = newInventory := rfl
      rw [hlib, hpublished] at hrecord
      rw [hrecord]
    rw [hpatched, ← hsnapshot, ← hinventory]
  refine ⟨⟨hintegrity, hview.policy, hview.repositories, hview.modules, ?_, ?_⟩, ?_⟩
  · rw [← hview.context, patchedPool, hready.poolOf.context]
    rfl
  · rw [hready.poolOf.inventory]
    rfl
  · obtain ⟨found, hfound, hcookie⟩ := hready.reads
    have hplain : Reads sevenWorld plainInstalled := rfl
    rw [← hcookie, Reads.unique hfound hplain]
    rfl

theorem validateExecutable_appPool :
    (solveOn (appOutside schemaLibrary) (appPool 7) appIntent 1 none).toOption.map (fun plan =>
      (plan.proposal.validateExecutable (appPool 7).policy 1).toOption) = some (some ()) := by
  decide +kernel

/-- A planner that has been warmed solves the request. -/
theorem exists_solved_app : ∃ s s' solved,
    ResidentPlanner.new.ensure (appOutside schemaLibrary) sevenWorld [] = (.ok (), s) ∧
    s.solve (appOutside schemaLibrary) sevenWorld .install ["app"] [] = (.ok solved, s') ∧
    solved.integrity.planningSnapshotSha256 = newDigest ∧
    solved.plan.proposal.integrity = solved.integrity ∧
    revalidateSolved sevenWorld solved = .ok () := by
  obtain ⟨p, hp, -⟩ := exists_published_seven
  obtain ⟨_, built, -, -, hbuilt⟩ := exists_ready p covers_seven
  obtain ⟨s, pool, hensure, hcached, hlast, hready, -⟩ := new_ensure_calm covers_seven hbuilt p.opens
  rw [hp] at hready
  obtain ⟨hview, hcookie⟩ := sameView_of_ready hready
  have hplans := validateExecutable_appPool
  rw [← solveOn_congr hview] at hplans
  obtain ⟨plan, hplan, hvalid⟩ := Except.toOption_map_eq_some.mp hplans
  rw [Except.toOption_eq_some] at hvalid
  have hdigest : Planning.currentDigest (schemaStore newDigest (schemaDocument 7)) =
      .ok pool.integrity.planningSnapshotSha256.asStr := by
    rw [hview.integrity]
    exact Planning.currentDigest_eq_ok.mpr points_schemaStore
  have hsolve := solve_of_current hcached hready.ids hcookie hready.poolOf.generation hlast hdigest
    intentOf_app hplan
  refine ⟨s, _, pool.solved plan, hensure, Prod.ext hsolve rfl, congrArg (·.planningSnapshotSha256)
    hview.integrity, (proposal_of_solveOn hplan).1, ?_⟩
  have hsystem : currentSystemDigest sevenWorld =
      .ok pool.integrity.planningSnapshotSha256.asStr :=
    congrArg (Except.mapError DaemonError.snapshot) hdigest
  have hpolicy : (pool.solved plan).policy = (appPool 7).policy := hview.policy
  have hnow : sevenWorld.now = 1 := rfl
  have hplan' : (pool.solved plan).plan = plan := rfl
  have hdigest' : (pool.solved plan).integrity = pool.integrity := rfl
  rw [revalidateSolved, hpolicy, hnow, hplan', hvalid, hdigest', hsystem]
  simp [Except.mapError_ok, Except.refuseIf, bind, Except.bind]

theorem openSystem_app {lib : Planning.Library} {store : Planning.Store} (p : Published lib store) :
    openSystem (appOutside lib) (plainWorld store none noFault) = .ok p.snapshot :=
  congrArg (Except.mapError DaemonError.snapshot) p.opens

/-- The digest of a plan, in these runs. -/
def appDigest (_ : CanonicalSolverPlan) : Except Solver.PlanError String := .ok Core.zeroDigest.asStr

/-- A request whose plan is solved and still current runs once it is accepted. -/
theorem run_accepted {out : Outside} {planDigest : CanonicalSolverPlan → Except Solver.PlanError String}
    {w₀ w : World} {s s' : ResidentPlanner} {solved : SolvedPlan}
    {snapshot : Planning.PlanningSnapshot} {digest token : String} {input : List UInt8}
    (hensure : ResidentPlanner.new.ensure out w₀ [] = (.ok (), s))
    (hsolve : s.solve out w₀ .install ["app"] [] = (.ok solved, s'))
    (hrevalidate : revalidateSolved w₀ solved = .ok ()) (hopen : openSystem out w₀ = .ok snapshot)
    (hdigest : planDigest solved.plan = .ok digest) (hinput : tokenInput [] (0 + 1) digest solved = input)
    (htoken : (out.lib.crates.sha256 input).asStr = token) :
    ((DaemonState.start out [] none).run out planDigest
      [.accept (.ok true) (.ok (.warm protocolSchema [])) w₀ (.ok ()),
        .accept (.ok true) (.ok (.prepare protocolSchema "install" [] ["app"])) w₀ (.ok ()),
        .read (.ok (.decision protocolSchema token true)), .proceed w₀ (.ok ()),
        .proceed w₀ (.ok ()), .proceed w₀ (.ok ()), .proceed w₀ (.ok ()), .proceed w (.ok ())]).log =
      [.received 0 (.warm protocolSchema []),
        .received 1 (.prepare protocolSchema "install" [] ["app"]),
        .prepared 1 (0 + 1) input ⟨token, actionName solved.plan.proposal.intent.action, digest,
          daemonActions solved.plan⟩,
        .received 1 (.decision protocolSchema token true), .revalidated 1 w₀, .rechecked 1 w₀] ++
        [.started 1 solved.plan w] := by
  have hcurrent := (revalidateSolved_eq_ok hrevalidate).1
  have hids : canonicalRepositoryIds [] = true := by decide
  have hadmitted : admitted protocolSchema "install" [] = some .install := by decide
  have hfull : s.requiresFullFilelists out w₀ .install ["app"] [] = (.ok false, s) := by
    have habsolute : ["app"].any isAbsolute = false := by decide
    simp only [ResidentPlanner.requiresFullFilelists, habsolute, Bool.not_false, if_true]
  have hequal : secureEqual token.asBytes token.asBytes = true := secureEqual_iff.mpr rfl
  simp only [DaemonState.run, List.foldl_cons, List.foldl_nil, DaemonState.step,
    DaemonState.start, DaemonState.logged, DaemonState.handleConnection, hids, and_self, if_true,
    ResidentPlanner.warm, hensure, DaemonState.solve, hadmitted, hfull, hsolve, DaemonState.prepare,
    hdigest, hinput, htoken, DaemonState.decided, hequal, DaemonState.proceed, hrevalidate, hopen,
    hcurrent, ne_eq, not_true_eq_false, if_false, List.nil_append, List.cons_append]

/-- The run starts the plan that was prepared, whatever the snapshot is then. -/
theorem exists_run_app (w : World) : ∃ (token : String) (plan : CanonicalSolverPlan)
    (before : List Event), ((DaemonState.start (appOutside schemaLibrary) [] none).run
      (appOutside schemaLibrary) appDigest (appInputs token w)).log = before ++ [.started 1 plan w] ∧
    plan.proposal.integrity.planningSnapshotSha256 = newDigest ∧
    (sentFrames before).length = 1 := by
  obtain ⟨s, s', solved, hensure, hsolve, hsnapshot, hembeds, hrevalidate⟩ := exists_solved_app
  obtain ⟨p, -⟩ := exists_published_seven
  exact ⟨_, solved.plan, _, run_accepted hensure hsolve hrevalidate (openSystem_app p) rfl rfl rfl,
    hembeds ▸ hsnapshot, rfl⟩

theorem executions_are_approved_app : ∃ (token : String) (plan : CanonicalSolverPlan)
    (before : List Event), ((DaemonState.start (appOutside schemaLibrary) [] none).run
      (appOutside schemaLibrary) appDigest (appInputs token sevenWorld)).log =
        before ++ [.started 1 plan sevenWorld] ∧
    ∃ t : Prepared, t.connection = 1 ∧ t.solved.plan = plan ∧ RecheckedTrail appDigest t before := by
  obtain ⟨token, plan, before, hlog, -, hframes⟩ := exists_run_app sevenWorld
  refine ⟨token, plan, before, hlog, (executions_are_approved (appOutside schemaLibrary) appDigest []
    none (appInputs token sevenWorld) ?_ ?_).1 before 1 plan sevenWorld [] hlog⟩
  · have hcount : (appInputs token sevenWorld).countP DaemonInput.isPrepare = 1 := rfl
    rw [hcount]
    decide
  · rw [hlog, sentFrames_append]
    obtain ⟨frame, hframe⟩ := List.length_eq_one_iff.mp hframes
    have hstarted : sentFrames [.started 1 plan sevenWorld] = [] := rfl
    rw [hframe, hstarted]
    intro f hf g hg _
    rw [List.mem_singleton.mp hf, List.mem_singleton.mp hg]

/-- A snapshot is published after the checks and before the execution. -/
theorem execution_of_outdated_plan : ¬ ∀ (out : Outside)
    (planDigest : CanonicalSolverPlan → Except Solver.PlanError String) (nonce : List UInt8)
    (inputs : List DaemonInput) (before after : List Event) (c : Nat) (plan : CanonicalSolverPlan)
    (w : World), ((DaemonState.start out nonce none).run out planDigest inputs).log =
      before ++ .started c plan w :: after → EmbedsCurrent plan w := by
  intro h
  obtain ⟨token, plan, before, hlog, hsnapshot, -⟩ := exists_run_app sixWorld
  have hcurrent := h _ _ _ _ _ _ _ _ _ hlog
  have hdigest : Planning.currentDigest (schemaStore sixDigest (schemaDocument 6)) =
      .ok sixDigest.asStr := Planning.currentDigest_eq_ok.mpr points_schemaStore
  have hsix : currentSystemDigest sixWorld = .ok sixDigest.asStr :=
    congrArg (Except.mapError DaemonError.snapshot) hdigest
  rw [EmbedsCurrent, hsnapshot, hsix] at hcurrent
  have hne : sixDigest.asStr ≠ newDigest.asStr := by decide
  exact hne (Except.ok.inj hcurrent)

end Dnfast.Executor
