import Dnfast.Executor.Resident
import Dnfast.Planning.Runs

/-! # A receipt that was missed is rechecked

Once a planner has found that the receipt of its database is not current, it should not go on with
these files before a full verification has succeeded. `ensure` forgets the verified cookie for this
when the receipt of its pool is missed. A build that takes up the startup state does not: when it
fails, the startup state is gone and the verified cookie has stayed, and the next build accepts the
cookie alone. `rechecked_of_steady` is the property for the runs in which this does not happen. -/

namespace Dnfast.Executor

open Cache (RpmdbFiles)
open Core (Action Architecture InstalledInventory)

/-! ## Logs -/

/-- Between a missed receipt and a request that goes on with the same files there is a full
verification. -/
def Rechecked (log : List Finding) : Prop :=
  ∀ before between after files,
    log = before ++ .missed files :: (between ++ .accepted files :: after) → .verified ∈ between

/-- The receipt was missed over these files, and nothing was verified since. -/
def Outstanding (log : List Finding) (files : RpmdbFiles) : Prop :=
  ∃ before after, log = before ++ .missed files :: after ∧ .verified ∉ after

section
variable {log : List Finding} {files : RpmdbFiles}

theorem rechecked_nil : Rechecked [] := fun _ _ _ _ h => by simp at h

theorem rechecked_concat {finding : Finding} :
    Rechecked (log ++ [finding]) ↔
      Rechecked log ∧ ∀ files, finding = .accepted files → ¬ Outstanding log files := by
  constructor
  · intro h
    constructor
    · rintro before between after files rfl
      exact h before between (after ++ [finding]) files (by simp)
    · rintro files rfl ⟨before, after, rfl, hnone⟩
      exact hnone (h before after [] files (by simp))
  · rintro ⟨h, hlast⟩ before between after files heq
    rcases after.eq_nil_or_concat with rfl | ⟨after, last, rfl⟩
    · have hsplit : log ++ [finding] =
          (before ++ .missed files :: between) ++ [.accepted files] := by simpa using heq
      obtain ⟨hlog, hfinding⟩ := List.append_inj' hsplit rfl
      by_contra hnone
      exact hlast files (by simpa using hfinding) ⟨before, between, hlog, hnone⟩
    · have hsplit : log ++ [finding] =
          (before ++ .missed files :: (between ++ .accepted files :: after)) ++ [last] := by
        simpa using heq
      exact h before between after files (List.append_inj' hsplit rfl).1

theorem outstanding_concat {finding : Finding} :
    Outstanding (log ++ [finding]) files ↔
      finding = .missed files ∨ (Outstanding log files ∧ finding ≠ .verified) := by
  constructor
  · rintro ⟨before, after, heq, hnone⟩
    rcases after.eq_nil_or_concat with rfl | ⟨after, last, rfl⟩
    · obtain ⟨-, hfinding⟩ := List.append_inj' heq rfl
      exact .inl (by simpa using hfinding)
    · have hsplit : log ++ [finding] = (before ++ .missed files :: after) ++ [last] := by
        simpa using heq
      obtain ⟨hlog, hfinding⟩ := List.append_inj' hsplit rfl
      obtain rfl : finding = last := by simpa using hfinding
      have hnone' : .verified ∉ after ∧ .verified ≠ finding := by simpa using hnone
      exact .inr ⟨⟨before, after, hlog, hnone'.1⟩, fun h => hnone'.2 h.symm⟩
  · rintro (rfl | ⟨⟨before, after, rfl, hnone⟩, hfinding⟩)
    · exact ⟨log, [], rfl, List.not_mem_nil⟩
    · refine ⟨before, after ++ [finding], by simp, ?_⟩
      simp only [List.mem_append, List.mem_singleton, not_or]
      exact ⟨hnone, fun h => hfinding h.symm⟩

end

/-! ## Calls and runs -/

inductive PlannerCall where
  | verifyStartup (architecture : Architecture)
  | warm (repositories : List String)
  | solve (action : Action) (packages repositories : List String)
  | refreshAfterMutation (inventory : InstalledInventory) (sourceSnapshot publishedSnapshot : String)

section
variable (out : Outside)

namespace ResidentPlanner

/-- The planner after a call, whatever the call returns. -/
def apply (s : ResidentPlanner) (w : World) : PlannerCall → ResidentPlanner
  | .verifyStartup architecture => (s.verifyStartup out w architecture).2
  | .warm repositories => (s.warm out w repositories).2
  | .solve action packages repositories => (s.solve out w action packages repositories).2
  | .refreshAfterMutation inventory source published =>
    (s.refreshAfterMutation out w inventory source published).2

def run (s : ResidentPlanner) (history : List (World × PlannerCall)) : ResidentPlanner :=
  history.foldl (fun s (w, call) => s.apply out w call) s

end ResidentPlanner

/-! ## The condition -/

/-- Startup finds a receipt that vouches for the database, so that nothing is verified. -/
def receiptVouches (w : World) (architecture : Architecture) : Prop :=
  (∃ published found, openSystem out w = .ok published ∧
      startupReceipt out w architecture published.payload.inventory = .ok (some found)) ∨
    ∃ before generation, w.readSnapshot .readOpened = .ok before ∧
      w.files.check out.lib.crates.sha256 (rpmdbReceiptBinding out before architecture) =
        .ok (.hit generation)

/-- A request that builds a pool from the startup state, and misses its receipt, completes the full
verification. -/
def TakesUp (s : ResidentPlanner) (w : World) (repositories : List String) : Prop :=
  ∀ digest receiptMissed snapshot, currentSystemDigest w = .ok digest →
    freshness out w repositories digest s.cached = .ok (.outdated receiptMissed) →
    openSystem out w = .ok snapshot →
    pendingMissed out w snapshot.payload.policy.solver.baseArch s.pendingInstalled = true →
    ∃ o, openPool out w snapshot.payload.policy.solver.baseArch s.pendingInstalled = .ok o ∧
      (verifyRpmdbUnchanged out w o.current).isOk = true

/-- The condition on one call, by the state before it and the world it finds. While a missed receipt
is outstanding, no receipt vouches for the database at startup, and no transaction on the snapshot
of the pool is taken over. -/
def Steady (s : ResidentPlanner) (w : World) : PlannerCall → Prop
  | .verifyStartup architecture =>
    (∃ files, Outstanding s.log files) → ¬ receiptVouches out w architecture
  | .warm repositories => TakesUp out s w repositories
  | .solve _ _ repositories => TakesUp out s w repositories
  | .refreshAfterMutation _ source _ =>
    (∃ files, Outstanding s.log files) →
      ∀ pool, s.cached = some pool → pool.integrity.planningSnapshotSha256.asStr ≠ source

/-- All calls of the run meet the condition. -/
def SteadyRun (s : ResidentPlanner) : List (World × PlannerCall) → Prop
  | [] => True
  | (w, call) :: history => Steady out s w call ∧ SteadyRun (s.apply out w call) history

/-! ## The invariant -/

/-- While a missed receipt is outstanding, no cookie counts as verified, and the pool is bound to a
generation that is not current over the files in question. -/
def Guards (s : ResidentPlanner) (files : RpmdbFiles) : Prop :=
  s.verifiedRpmdbCookie = none ∧ ∀ pool, s.cached = some pool →
    ∃ generation, pool.rpmdbGeneration = some generation ∧
      files.isCurrent out.lib.crates.sha256 generation ≠ .ok true

structure RecheckInv (s : ResidentPlanner) : Prop where
  rechecked : Rechecked s.log
  guarded : ∀ files, Outstanding s.log files → Guards out s files

end

section
variable {out : Outside} {s : ResidentPlanner} {w : World}

theorem RecheckInv.new : RecheckInv out .new where
  rechecked := rechecked_nil
  guarded files h := by
    obtain ⟨before, after, heq, -⟩ := h
    simp [ResidentPlanner.new] at heq

/-- A verification settles whatever was outstanding. -/
theorem not_outstanding_verified {log : List Finding} {files : RpmdbFiles} :
    ¬ Outstanding (log ++ [.verified]) files := by
  rw [outstanding_concat]
  simp

/-- A startup state whose receipt was missed has to be verified in any case. -/
theorem requireFullVerify_of_pendingMissed {architecture : Architecture}
    {pending : Option PendingInstalled} {o : Opened}
    (hmissed : pendingMissed out w architecture pending = true)
    (hopen : openPool out w architecture pending = .ok o) : o.requireFullVerify = true := by
  cases pending with
  | none => cases hmissed
  | some pending =>
    simp only [pendingMissed, Bool.and_eq_true, decide_eq_true_eq] at hmissed
    obtain ⟨harch, hmissed⟩ := hmissed
    cases hgeneration : pending.receiptGeneration with
    | none =>
      rw [hgeneration] at hmissed
      cases hmissed
    | some generation =>
      simp only [hgeneration] at hmissed
      cases hcurrent : isCurrent out w .isCurrentPending generation with
      | error e => simp [hcurrent] at hmissed
      | ok current =>
        simp only [hcurrent] at hmissed
        obtain rfl : current = false := by simpa using hmissed
        simp only [openPool, if_pos harch, hgeneration, hcurrent, Except.ok_bind,
          Bool.false_eq_true, if_false, Option.isSome_some] at hopen
        obtain ⟨live, -, hopen⟩ := Except.bind_eq_ok.mp hopen
        split at hopen
        · obtain rfl := Except.pure_eq_ok.mp hopen
          rfl
        · obtain ⟨opened, -, hopen⟩ := Except.bind_eq_ok.mp hopen
          obtain rfl := Except.pure_eq_ok.mp hopen
          rfl

/-- What a build adds to the log, when it completes the verification of a startup state whose receipt
it missed: nothing or a verification at the end. In the second case nothing is outstanding after it,
and without one no verification was needed. -/
theorem buildFindings_cases {architecture : Architecture} {cookie : Option String}
    {pending : Option PendingInstalled}
    (htakes : pendingMissed out w architecture pending = true →
      ∃ o, openPool out w architecture pending = .ok o ∧
        (verifyRpmdbUnchanged out w o.current).isOk = true) :
    (∃ before, buildFindings out w architecture cookie pending = before ++ [.verified] ∧
        ∀ finding ∈ before, finding = .missed w.files) ∨
      (buildFindings out w architecture cookie pending = [] ∧
        ∀ o, openPool out w architecture pending = .ok o → (o.verify out w cookie).isOk = true →
          o.needsVerify cookie = false) := by
  unfold buildFindings
  cases hmissed : pendingMissed out w architecture pending with
  | true =>
    obtain ⟨o, hopen, hok⟩ := htakes hmissed
    have hneeds : o.needsVerify cookie = true := by
      simp [Opened.needsVerify, requireFullVerify_of_pendingMissed hmissed hopen]
    refine .inl ⟨[.missed w.files], ?_, by simp⟩
    simp [hopen, hneeds, Opened.verify, hok]
  | false =>
    cases hopen : openPool out w architecture pending with
    | error e => exact .inr ⟨by simp, fun o ho => by cases ho⟩
    | ok o =>
      by_cases hverified : o.needsVerify cookie ∧ (o.verify out w cookie).isOk
      · exact .inl ⟨[], by simp [hverified], by simp⟩
      · refine .inr ⟨by simp [hverified], fun o' ho' hok => ?_⟩
        cases ho'
        rw [← Bool.not_eq_true]
        exact fun hneeds => hverified ⟨hneeds, hok⟩

/-- A list of missed receipts and nothing else is no acceptance. -/
theorem rechecked_append_missed {log before : List Finding} (h : Rechecked log)
    (hmissed : ∀ finding ∈ before, ∃ files, finding = .missed files) : Rechecked (log ++ before) := by
  induction before using List.reverseRecOn with
  | nil => simpa using h
  | append_singleton before finding ih =>
    rw [← List.append_assoc, rechecked_concat]
    refine ⟨ih fun f hf => hmissed f (List.mem_append_left _ hf), ?_⟩
    rintro files rfl
    obtain ⟨_, heq⟩ := hmissed (.accepted files) (by simp)
    cases heq

theorem RecheckInv.rebuild {repositories : List String} (h : RecheckInv out s)
    (htakes : ∀ snapshot, openSystem out w = .ok snapshot →
      pendingMissed out w snapshot.payload.policy.solver.baseArch s.pendingInstalled = true →
      ∃ o, openPool out w snapshot.payload.policy.solver.baseArch s.pendingInstalled = .ok o ∧
        (verifyRpmdbUnchanged out w o.current).isOk = true) :
    RecheckInv out (s.rebuild out w repositories).2 := by
  unfold ResidentPlanner.rebuild
  simp only
  split
  · exact h
  · next snapshot integrity hbound =>
    obtain ⟨_, hsnapshot, hbound⟩ := Except.bind_eq_ok.mp hbound
    obtain ⟨_, -, hbound⟩ := Except.bind_eq_ok.mp hbound
    cases Except.pure_eq_ok.mp hbound
    have hfindings := @buildFindings_cases out w _ s.verifiedRpmdbCookie _ (htakes snapshot hsnapshot)
    have hrechecked : Rechecked (s.log ++ buildFindings out w
        snapshot.payload.policy.solver.baseArch s.verifiedRpmdbCookie s.pendingInstalled) := by
      rcases hfindings with ⟨before, heq, hbefore⟩ | ⟨heq, -⟩
      · rw [heq, ← List.append_assoc, rechecked_concat]
        exact ⟨rechecked_append_missed h.rechecked fun f hf => ⟨_, hbefore f hf⟩, by simp⟩
      · simpa [heq] using h.rechecked
    split
    · -- the build fails: the startup state is gone
      refine ⟨hrechecked, fun files hout => ?_⟩
      simp only [ResidentPlanner.logged] at hout
      rcases hfindings with ⟨before, heq, -⟩ | ⟨heq, -⟩
      · rw [heq, ← List.append_assoc] at hout
        exact absurd hout not_outstanding_verified
      · rw [heq, List.append_nil] at hout
        exact h.guarded files hout
    · next pool hpool =>
      have hnone : ∀ files, ¬ Outstanding (s.log ++ buildFindings out w
          snapshot.payload.policy.solver.baseArch s.verifiedRpmdbCookie s.pendingInstalled) files := by
        intro files hout
        rcases hfindings with ⟨before, heq, -⟩ | ⟨heq, hneeds⟩
        · rw [heq, ← List.append_assoc] at hout
          exact not_outstanding_verified hout
        · -- no verification, so some cookie counted as verified
          rw [heq, List.append_nil] at hout
          obtain ⟨o, hopen, hpool⟩ := Except.bind_eq_ok.mp hpool
          obtain ⟨current, hverify, -⟩ := Except.bind_eq_ok.mp hpool
          have hno := hneeds o hopen (by rw [hverify]; rfl)
          rw [(h.guarded files hout).1] at hno
          simp [Opened.needsVerify] at hno
      constructor
      · simp only [ResidentPlanner.logged, ← List.append_assoc]
        exact rechecked_concat.mpr ⟨hrechecked, fun files _ => hnone files⟩
      · intro files hout
        simp only [ResidentPlanner.logged, ← List.append_assoc, outstanding_concat] at hout
        rcases hout with hno | ⟨hout, -⟩
        · cases hno
        · exact absurd hout (hnone files)

/-! ## The calls -/

/-- How the pool was found: a current one by its receipt or its cookie, a missed receipt by the
generation of the pool. -/
theorem freshness_current {repositories : List String} {digest : String} {cached : Option ResidentPool}
    (h : freshness out w repositories digest cached = .ok .current) :
    ∃ pool, cached = some pool ∧ ∀ generation, pool.rpmdbGeneration = some generation →
      w.files.isCurrent out.lib.crates.sha256 generation = .ok true := by
  cases cached with
  | none => cases h
  | some pool =>
    refine ⟨pool, rfl, fun generation hgeneration => ?_⟩
    unfold freshness at h
    simp only at h
    split at h
    · rw [hgeneration] at h
      obtain ⟨current, hcurrent, h⟩ := Except.bind_eq_ok.mp h
      cases current with
      | false => cases Except.pure_eq_ok.mp h
      | true =>
        rw [isCurrent, Except.check_bind_eq_ok, Except.mapError_eq_ok] at hcurrent
        exact hcurrent.2
    · cases h

theorem freshness_missed {repositories : List String} {digest : String} {cached : Option ResidentPool}
    (h : freshness out w repositories digest cached = .ok (.outdated true)) :
    ∃ pool generation, cached = some pool ∧ pool.rpmdbGeneration = some generation ∧
      w.files.isCurrent out.lib.crates.sha256 generation ≠ .ok true := by
  cases cached with
  | none => cases h
  | some pool =>
    unfold freshness at h
    simp only at h
    split at h
    · cases hgeneration : pool.rpmdbGeneration with
      | none =>
        rw [hgeneration] at h
        obtain ⟨current, -, h⟩ := Except.bind_eq_ok.mp h
        have := Except.pure_eq_ok.mp h
        split at this <;> cases this
      | some generation =>
        rw [hgeneration] at h
        obtain ⟨current, hcurrent, h⟩ := Except.bind_eq_ok.mp h
        rw [isCurrent, Except.check_bind_eq_ok, Except.mapError_eq_ok] at hcurrent
        refine ⟨pool, generation, rfl, hgeneration, ?_⟩
        rw [hcurrent.2]
        cases current with
        | true => cases Except.pure_eq_ok.mp h
        | false => simp
    · cases h

theorem RecheckInv.ensure {repositories : List String} (h : RecheckInv out s)
    (htakes : TakesUp out s w repositories) : RecheckInv out (s.ensure out w repositories).2 := by
  unfold ResidentPlanner.ensure
  split
  · exact h
  · next hfresh =>
    obtain ⟨digest, -, hfresh⟩ := Except.bind_eq_ok.mp hfresh
    obtain ⟨pool, hpool, hcurrent⟩ := freshness_current hfresh
    constructor
    · refine rechecked_concat.mpr ⟨h.rechecked, ?_⟩
      rintro files ⟨⟩ hout
      obtain ⟨generation, hgeneration, hnot⟩ := (h.guarded _ hout).2 pool hpool
      exact hnot (hcurrent generation hgeneration)
    · intro files hout
      rcases outstanding_concat.mp hout with hno | ⟨hout, -⟩
      · cases hno
      · exact h.guarded files hout
  · next hfresh =>
    obtain ⟨digest, hdigest, hfresh⟩ := Except.bind_eq_ok.mp hfresh
    exact h.rebuild fun snapshot => htakes digest false snapshot hdigest hfresh
  · next hfresh =>
    obtain ⟨digest, hdigest, hfresh⟩ := Except.bind_eq_ok.mp hfresh
    obtain ⟨pool, generation, hpool, hgeneration, hnot⟩ := freshness_missed hfresh
    have hinv : RecheckInv out
        { s.logged [.missed w.files] with verifiedRpmdbCookie := none } := by
      refine ⟨rechecked_concat.mpr ⟨h.rechecked, by simp⟩, fun files hout => ⟨rfl, ?_⟩⟩
      intro pool' hpool'
      cases hpool.symm.trans hpool'
      refine ⟨generation, hgeneration, ?_⟩
      rcases outstanding_concat.mp hout with heq | ⟨hout, -⟩
      · cases heq
        exact hnot
      · obtain ⟨generation', hgeneration', hnot'⟩ := (h.guarded files hout).2 pool hpool
        cases hgeneration.symm.trans hgeneration'
        exact hnot'
    exact hinv.rebuild fun snapshot => htakes digest true snapshot hdigest hfresh

/-- Calls that keep the log, the verified cookie and the generation of the pool keep the invariant. -/
theorem RecheckInv.same {s' : ResidentPlanner} (h : RecheckInv out s) (hlog : s'.log = s.log)
    (hcookie : s'.verifiedRpmdbCookie = s.verifiedRpmdbCookie)
    (hcached : ∀ pool', s'.cached = some pool' →
      ∃ pool, s.cached = some pool ∧ pool.rpmdbGeneration = pool'.rpmdbGeneration) :
    RecheckInv out s' where
  rechecked := hlog ▸ h.rechecked
  guarded files hout := by
    rw [hlog] at hout
    obtain ⟨hnone, hpools⟩ := h.guarded files hout
    refine ⟨hcookie.trans hnone, fun pool' hpool' => ?_⟩
    obtain ⟨pool, hpool, hgeneration⟩ := hcached pool' hpool'
    exact hgeneration ▸ hpools pool hpool

theorem RecheckInv.solveCached {intent : Core.TransactionIntent}
    {prefetch : Option (Except DaemonError PrefetchedFileSelectors)} (h : RecheckInv out s) :
    RecheckInv out (s.solveCached out w intent prefetch).2 := by
  unfold ResidentPlanner.solveCached
  cases hcached : s.cached with
  | none => exact h
  | some pool =>
    simp only
    split
    · exact h
    · split
      · exact h
      · refine h.same rfl rfl ?_
        rintro _ ⟨⟩
        exact ⟨pool, hcached, rfl⟩

theorem RecheckInv.solve {action : Action} {packages repositories : List String}
    (h : RecheckInv out s) (htakes : TakesUp out s w repositories) :
    RecheckInv out (s.solve out w action packages repositories).2 := by
  have hensured := h.ensure htakes
  unfold ResidentPlanner.solve
  cases intentOf action packages with
  | error e => exact h
  | ok intent =>
    simp only
    cases hensure : s.ensure out w repositories with
    | mk result s' =>
      rw [hensure] at hensured
      cases result with
      | error e => exact hensured
      | ok u => exact hensured.solveCached

theorem RecheckInv.invalidate (h : RecheckInv out s) : RecheckInv out s.invalidate :=
  h.same rfl rfl fun _ hno => by cases hno

theorem RecheckInv.of_not_outstanding (hrechecked : Rechecked s.log)
    (hnone : ∀ files, ¬ Outstanding s.log files) : RecheckInv out s :=
  ⟨hrechecked, fun files hout => absurd hout (hnone files)⟩

theorem RecheckInv.refreshAfterMutation {inventory : InstalledInventory} {source published : String}
    (h : RecheckInv out s)
    (hsteady : Steady out s w (.refreshAfterMutation inventory source published)) :
    RecheckInv out (s.refreshAfterMutation out w inventory source published).2 := by
  unfold ResidentPlanner.refreshAfterMutation
  cases hcached : s.cached with
  | none => exact h.invalidate
  | some pool =>
    simp only
    split
    · exact h.invalidate
    · next heq =>
      split
      · exact h.invalidate
      · refine .of_not_outstanding h.rechecked fun files hout => ?_
        exact hsteady ⟨files, hout⟩ pool hcached (not_not.mp heq)

/-- A startup that ends well was verified, or a receipt vouched for it. -/
theorem startupState_cases {architecture : Architecture} {pending : PendingInstalled}
    (h : startupState out w architecture = .ok pending) :
    startupVerifies out w architecture = true ∨ receiptVouches out w architecture := by
  obtain ⟨published, hpublished, h⟩ := Except.bind_eq_ok.mp h
  rw [Except.check_bind_eq_ok, Except.refuseIf_eq_ok, not_not] at h
  obtain ⟨harch, h⟩ := h
  obtain ⟨receipt, hreceipt, h⟩ := Except.bind_eq_ok.mp h
  cases receipt with
  | some found => exact .inr (.inl ⟨published, found, hpublished, hreceipt⟩)
  | none =>
    obtain ⟨_, hverify, -⟩ := Except.bind_eq_ok.mp h
    rw [startupVerify, Except.check_bind_eq_ok] at hverify
    obtain ⟨hopen, hverify⟩ := hverify
    obtain ⟨before, hbefore, hverify⟩ := Except.bind_eq_ok.mp hverify
    obtain ⟨check, hcheck, hverify⟩ := Except.bind_eq_ok.mp hverify
    rw [Except.mapError_eq_ok] at hcheck
    have hread : (do w.run .openContext; w.readSnapshot .readOpened) = .ok before := by
      rw [Except.check_bind_eq_ok]
      exact ⟨hopen, hbefore⟩
    cases check with
    | hit generation => exact .inr (.inr ⟨before, generation, hbefore, hcheck⟩)
    | miss generation corrupted =>
      obtain ⟨snapshot, hsnapshot, -⟩ := Except.bind_eq_ok.mp hverify
      left
      simp only [startupVerifies, hpublished, hreceipt, startupVerified, hread, hcheck, hsnapshot, harch]
      rfl
    | unsupported =>
      obtain ⟨snapshot, hsnapshot, -⟩ := Except.bind_eq_ok.mp hverify
      left
      simp only [startupVerifies, hpublished, hreceipt, startupVerified, hread, hcheck, hsnapshot, harch]
      rfl

theorem RecheckInv.verifyStartup {architecture : Architecture} (h : RecheckInv out s)
    (hsteady : Steady out s w (.verifyStartup architecture)) :
    RecheckInv out (s.verifyStartup out w architecture).2 := by
  unfold ResidentPlanner.verifyStartup
  simp only
  cases hverifies : startupVerifies out w architecture with
  | true =>
    have hrechecked : Rechecked (s.log ++ [.verified]) :=
      rechecked_concat.mpr ⟨h.rechecked, by simp⟩
    split <;> exact .of_not_outstanding hrechecked fun _ => not_outstanding_verified
  | false =>
    have hlog : (s.logged (if false = true then [.verified] else [])).log = s.log := by
      simp [ResidentPlanner.logged]
    split
    · exact h.same hlog rfl fun pool hpool => ⟨pool, hpool, rfl⟩
    · next pending hstate =>
      refine .of_not_outstanding (hlog ▸ h.rechecked) fun files hout => ?_
      have hvouched := (startupState_cases hstate).resolve_left (by simp [hverifies])
      exact hsteady ⟨files, hlog ▸ hout⟩ hvouched

theorem RecheckInv.apply {call : PlannerCall} (h : RecheckInv out s)
    (hsteady : Steady out s w call) : RecheckInv out (s.apply out w call) := by
  cases call with
  | verifyStartup architecture => exact h.verifyStartup hsteady
  | warm repositories => exact h.ensure hsteady
  | solve action packages repositories => exact h.solve hsteady
  | refreshAfterMutation inventory source published => exact h.refreshAfterMutation hsteady

theorem RecheckInv.run {history : List (World × PlannerCall)} (h : RecheckInv out s)
    (hsteady : SteadyRun out s history) : RecheckInv out (s.run out history) := by
  induction history generalizing s with
  | nil => exact h
  | cons step history ih => exact ih (h.apply hsteady.1) hsteady.2

end

/-- **A missed receipt is rechecked.** In every run of a new planner whose calls meet the condition,
a request goes on with files over which a receipt was missed only after a full verification that
succeeded since. The calls may fail anywhere, and the files of the database may change between them
in any way. -/
theorem rechecked_of_steady (out : Outside) (history : List (World × PlannerCall))
    (hsteady : SteadyRun out .new history) :
    Rechecked (ResidentPlanner.new.run out history).log :=
  (RecheckInv.new.run hsteady).rechecked

/-! ## Two runs

At startup the database is verified and gets a receipt. The file system has no checksums any more when
the first request comes, so that the receipt is not current. In the first run the full verification
succeeds then. In the second one it fails, and the next request goes on with the files. -/

open Planning (PlanningSnapshot newInventory)

/-- A native library without any packages. -/
def plainOutside (lib : Planning.Library) : Outside where
  lib := lib
  hasProvider _ _ := .ok false
  packageEvidence _ _ _ := .error (.nativeFailure 5 "package not found")
  identityEvidence _ _ _ := .error (.nativeFailure 5 "package not found")
  catalogNamed _ _ _ := .ok []
  solve _ _ := .error (.nativeFailure 6 "nothing provides the package")
  fileProviders _ _ := .ok []
  artifactPolicies _ _ _ := .ok []

/-- A database without packages, and without receipts. -/
def plainFiles (measured : Option Cache.Measured) : RpmdbFiles :=
  ⟨.ok ⟨"cookie", ⟨"sqlite", "4.20", []⟩⟩, .ok measured, fun _ => .ok none, .ok none⟩

def plainWorld (store : Planning.Store) (measured : Option Cache.Measured)
    (fault : External → Option DaemonError) : World :=
  ⟨plainFiles measured, store, none, 1, fun _ => false, fault⟩

def noFault : External → Option DaemonError := fun _ => none

/-- The full verification fails. -/
def damaged (operation : External) : Option DaemonError :=
  if operation = .verifyInstalled then some (.native (.nativeFailure 5 "rpmdb verification failed"))
  else none

def plainMeasured : Cache.Measured := ⟨1, 2, 3, 4, 5, 6, 7⟩

def plainInstalled : Native.InventorySnapshot := ⟨newInventory, "cookie"⟩

section
variable {lib : Planning.Library} {store : Planning.Store} {measured : Option Cache.Measured}
  {fault : External → Option DaemonError} {operation : External} {binding : String}

theorem run_plain (h : fault operation = none) :
    (plainWorld store measured fault).run operation = .ok () := by
  simp only [World.run, plainWorld, h]

theorem readSnapshot_plain (h : fault operation = none) :
    (plainWorld store measured fault).readSnapshot operation = .ok plainInstalled := by
  rw [World.readSnapshot, run_plain h]
  rfl

theorem descriptor_le (h : Core.isLowerDigest binding = true) :
    (plainMeasured.descriptor binding).utf8ByteSize ≤ Cache.maxReceiptBytes := by
  have hsize : binding.utf8ByteSize = 64 := (Planning.asBytes_of_isLowerDigest h).1
  have hrest : ∀ rest : String, rest.utf8ByteSize ≤ 15 →
      ("dnfast-rpmdb-verified-generation-v1 " ++ (binding ++ rest)).utf8ByteSize ≤ 512 := by
    intro rest hle
    have hhead : "dnfast-rpmdb-verified-generation-v1 ".utf8ByteSize = 36 := by decide +kernel
    rw [String.utf8ByteSize_append, String.utf8ByteSize_append]
    omega
  unfold Cache.Measured.descriptor
  simp only [String.append_assoc]
  exact hrest _ (by decide +kernel)

/-- The generation of the measured file under a binding. -/
def plainGeneration (lib : Planning.Library) (binding : String) : Cache.RpmDbVerifiedGeneration :=
  ⟨binding, plainMeasured.descriptor binding,
    (lib.crates.sha256 (plainMeasured.descriptor binding).asBytes).asStr ++ ".verified"⟩

theorem describe_plain (h : Core.isLowerDigest binding = true) :
    (plainFiles (some plainMeasured)).describe lib.crates.sha256 binding =
      .ok (some (plainGeneration lib binding)) := by
  rw [RpmdbFiles.describe, plainFiles, Except.ok_bind]
  simp only [Except.refuseIf, if_neg (Nat.not_lt.mpr (descriptor_le h))]
  rfl

theorem check_plain (h : Core.isLowerDigest binding = true) :
    (plainFiles (some plainMeasured)).check lib.crates.sha256 binding =
      .ok (.miss (plainGeneration lib binding) false) := by
  rw [RpmdbFiles.check, Cache.validateDigest, h, describe_plain h]
  rfl

theorem check_plain_none (h : Core.isLowerDigest binding = true) :
    (plainFiles none).check lib.crates.sha256 binding = .ok .unsupported := by
  rw [RpmdbFiles.check, Cache.validateDigest, h]
  rfl

theorem publishCurrent_plain (h : Core.isLowerDigest binding = true) :
    (plainFiles (some plainMeasured)).publishCurrent lib.crates.sha256
      (plainGeneration lib binding) = .ok () := by
  simp only [RpmdbFiles.publishCurrent, plainGeneration, describe_plain h, Except.ok_bind,
    Except.refuseIf, ne_eq, not_true_eq_false, if_false]

theorem sameInventoryGeneration_self (out : Outside) (snapshot : Native.InventorySnapshot) :
    sameInventoryGeneration out snapshot snapshot = true := by
  simp [sameInventoryGeneration]

theorem verifyRpmdbUnchanged_plain :
    verifyRpmdbUnchanged (plainOutside lib) (plainWorld store measured noFault) plainInstalled =
      .ok plainInstalled := by
  rw [verifyRpmdbUnchanged, readSnapshot_plain rfl, Except.ok_bind, sameInventoryGeneration_self]
  rfl

/-- What startup binds its receipt to. -/
def plainBinding (lib : Planning.Library) : String :=
  rpmdbReceiptBinding (plainOutside lib) plainInstalled .x86_64

theorem isLowerDigest_plainBinding : Core.isLowerDigest (plainBinding lib) = true :=
  Core.Sha256Digest.canonical _

theorem check_plainBinding :
    (plainWorld store (some plainMeasured) noFault).files.check (plainOutside lib).lib.crates.sha256
        (rpmdbReceiptBinding (plainOutside lib) plainInstalled .x86_64) =
      .ok (.miss (plainGeneration lib (plainBinding lib)) false) :=
  check_plain isLowerDigest_plainBinding

theorem startupVerify_plain :
    startupVerify (plainOutside lib) (plainWorld store (some plainMeasured) noFault) .x86_64 =
      .ok (plainInstalled, some (plainGeneration lib (plainBinding lib))) := by
  have hpublish : (plainWorld store (some plainMeasured) noFault).files.publishCurrent
      (plainOutside lib).lib.crates.sha256 (plainGeneration lib (plainBinding lib)) = .ok () :=
    publishCurrent_plain isLowerDigest_plainBinding
  rw [startupVerify, run_plain rfl, readSnapshot_plain rfl, Except.ok_bind, Except.ok_bind,
    check_plainBinding]
  simp only [Except.mapError_ok, Except.ok_bind, verifyRpmdbUnchanged_plain, hpublish]
  rfl

/-- What startup leaves for the first pool. -/
def plainPending (lib : Planning.Library) : PendingInstalled where
  architecture := .x86_64
  context := { NativeContext.open .x86_64 with
    installed := some (.rpmdb ⟨"cookie", ⟨"sqlite", "4.20", []⟩⟩) }
  snapshot := plainInstalled
  receiptGeneration := some (plainGeneration lib (plainBinding lib))

theorem startupReceipt_plain {inventory : InstalledInventory} :
    startupReceipt (plainOutside lib) (plainWorld store measured noFault) .x86_64 inventory =
      .ok none := rfl

theorem openSystem_plain {snapshot : PlanningSnapshot} (h : fault .openSnapshot = none)
    (hopen : Planning.openSnapshot lib store = .ok snapshot) :
    openSystem (plainOutside lib) (plainWorld store measured fault) = .ok snapshot := by
  rw [openSystem, run_plain h, Except.ok_bind]
  exact congrArg (Except.mapError _) hopen

/-- The planner after startup. -/
def plainStarted (lib : Planning.Library) : ResidentPlanner :=
  ⟨none, some "cookie", some (plainPending lib), [.verified]⟩

theorem verifyStartup_plain {snapshot : PlanningSnapshot}
    (hopen : Planning.openSnapshot lib store = .ok snapshot)
    (harch : snapshot.payload.policy.solver.baseArch = .x86_64) :
    ResidentPlanner.new.apply (plainOutside lib) (plainWorld store (some plainMeasured) noFault)
      (.verifyStartup .x86_64) = plainStarted lib := by
  have hopened := @openSystem_plain lib store (some plainMeasured) noFault snapshot rfl hopen
  have hstate : startupState (plainOutside lib) (plainWorld store (some plainMeasured) noFault)
      .x86_64 = .ok (plainPending lib) := by
    rw [startupState, hopened, Except.ok_bind]
    simp only [harch, startupReceipt_plain, startupVerify_plain, Except.ok_bind, Except.refuseIf,
      ne_eq, not_true_eq_false, if_false]
    rfl
  have hverifies : startupVerifies (plainOutside lib)
      (plainWorld store (some plainMeasured) noFault) .x86_64 = true := by
    simp only [startupVerifies, hopened, harch, startupReceipt_plain, startupVerified]
    rw [run_plain rfl, readSnapshot_plain rfl, Except.ok_bind]
    simp only [check_plainBinding, verifyRpmdbUnchanged_plain]
    rfl
  simp only [ResidentPlanner.apply, ResidentPlanner.verifyStartup, hverifies, hstate]
  rfl

/-! ### The first request -/

theorem isCurrent_plain (h : fault operation = none) :
    isCurrent (plainOutside lib) (plainWorld store none fault) operation
      (plainGeneration lib (plainBinding lib)) = .ok false := by
  have hcheck : (plainFiles none).check (plainOutside lib).lib.crates.sha256
      (plainGeneration lib (plainBinding lib)).binding = .ok .unsupported :=
    check_plain_none isLowerDigest_plainBinding
  have hfiles : (plainWorld store none fault).files = plainFiles none := rfl
  simp only [isCurrent, run_plain h, hfiles, RpmdbFiles.isCurrent, hcheck, Except.ok_bind]
  rfl

theorem pendingMissed_plain (h : fault .isCurrentPending = none) :
    pendingMissed (plainOutside lib) (plainWorld store none fault) .x86_64
      (some (plainPending lib)) = true := by
  simp only [pendingMissed, plainPending, isCurrent_plain h]
  rfl

theorem openPool_plain (h : fault .isCurrentPending = none) (h' : fault .readPending = none) :
    openPool (plainOutside lib) (plainWorld store none fault) .x86_64 (some (plainPending lib)) =
      .ok ⟨(plainPending lib).context, plainInstalled, true, none⟩ := by
  simp only [openPool, plainPending, if_true, isCurrent_plain h, readSnapshot_plain h',
    sameInventoryGeneration_self, Except.ok_bind]
  rfl

/-- What the requests find in the planning store: its current snapshot, with an integrity record and
the repositories of its bindings. -/
structure Published (lib : Planning.Library) (store : Planning.Store) where
  snapshot : PlanningSnapshot
  digest : String
  integrity : Core.PlanIntegrity
  repositories : List Planning.PlanningRepository
  allowed : List Planning.PlanningRepository
  points : Planning.currentDigest store = .ok digest
  opens : Planning.openSnapshot lib store = .ok snapshot
  arch : snapshot.payload.policy.solver.baseArch = .x86_64
  inventory : snapshot.payload.inventory = newInventory
  binds : Planning.integrityForRepositories lib snapshot [] = .ok integrity
  selects : selectedRepositories snapshot integrity = .ok repositories
  allows : snapshot.selectedRepositories [] = .ok allowed
  narrow : ∀ r ∈ repositories, r.priority.toNat < 2 ^ 31 ∧ r.cost.toNat < 2 ^ 31

theorem foldlM_loadRepository {repositories : List Planning.PlanningRepository}
    (h : ∀ r ∈ repositories, r.priority.toNat < 2 ^ 31 ∧ r.cost.toNat < 2 ^ 31)
    (context : NativeContext) : ∃ loaded, repositories.foldlM (fun context r =>
      loadRepository (plainWorld store measured noFault) r context) context = .ok loaded := by
  induction repositories generalizing context with
  | nil => exact ⟨context, rfl⟩
  | cons r repositories ih =>
    have hr := h r List.mem_cons_self
    have hload : loadRepository (plainWorld store measured noFault) r context =
        .ok { context with repositories := context.repositories ++ [r] } := by
      rw [loadRepository, Except.refuseIf, if_neg (by omega), Except.ok_bind, run_plain rfl]
      rfl
    rw [List.foldlM_cons, hload, Except.ok_bind]
    exact ih (fun r hr => h r (List.mem_cons_of_mem _ hr)) _

theorem exists_fillPool {out : Outside}
    (hartifacts : ∀ selected state arch, out.artifactPolicies selected state arch = .ok [])
    (p : Published lib store) (context : NativeContext) (requireFullVerify : Bool) :
    ∃ pool, fillPool out (plainWorld store none noFault) p.snapshot [] p.integrity
      ⟨context, plainInstalled, requireFullVerify, none⟩ plainInstalled = .ok pool := by
  obtain ⟨loaded, hloaded⟩ := @foldlM_loadRepository store none _ p.narrow context
  have hinventory : p.snapshot.payload.inventory = plainInstalled.inventory := p.inventory
  have hpolicy : moduleArtifactPolicy out p.snapshot [] = .ok [] := by
    rw [moduleArtifactPolicy, p.allows]
    simp only [Except.mapError_ok, Except.ok_bind, hartifacts]
  rw [fillPool, hinventory, Except.refuseIf, if_neg (by simp), Except.ok_bind, p.selects,
    Except.ok_bind, hpolicy, Except.ok_bind, run_plain rfl, Except.ok_bind, hloaded]
  exact ⟨_, rfl⟩

/-- How a request with no pool rebuilds it. -/
theorem warm_plain (p : Published lib store) {s : ResidentPlanner} (hcached : s.cached = none)
    (h : fault .currentDigest = none) :
    s.apply (plainOutside lib) (plainWorld store measured fault) (.warm []) =
      (s.rebuild (plainOutside lib) (plainWorld store measured fault) []).2 := by
  have hdigest : currentSystemDigest (plainWorld store measured fault) = .ok p.digest := by
    rw [currentSystemDigest, run_plain h, Except.ok_bind]
    exact congrArg (Except.mapError _) p.points
  simp only [ResidentPlanner.apply, ResidentPlanner.warm, ResidentPlanner.ensure, hdigest, hcached,
    freshness, Except.ok_bind]

theorem rebuild_plain (p : Published lib store) (s : ResidentPlanner)
    (h : fault .openSnapshot = none) :
    (s.rebuild (plainOutside lib) (plainWorld store none fault) []).2 =
      match buildPool (plainOutside lib) (plainWorld store none fault) p.snapshot [] p.integrity
          s.verifiedRpmdbCookie s.pendingInstalled with
      | .error _ => { s.logged (buildFindings (plainOutside lib) (plainWorld store none fault)
          .x86_64 s.verifiedRpmdbCookie s.pendingInstalled) with pendingInstalled := none }
      | .ok pool => { s.logged (buildFindings (plainOutside lib) (plainWorld store none fault)
          .x86_64 s.verifiedRpmdbCookie s.pendingInstalled ++ [.accepted (plainFiles none)]) with
          pendingInstalled := none
          verifiedRpmdbCookie := some pool.rpmdbCookie
          cached := some pool } := by
  have hbound : (do
      let snapshot ← openSystem (plainOutside lib) (plainWorld store none fault)
      let integrity ← (Planning.integrityForRepositories (plainOutside lib).lib snapshot
        []).mapError DaemonError.snapshot
      return (snapshot, integrity)) = .ok (p.snapshot, p.integrity) := by
    rw [openSystem_plain h p.opens, Except.ok_bind]
    exact congrArg (fun x => (Except.mapError _ x).bind fun integrity => .ok (p.snapshot, integrity))
      p.binds
  simp only [ResidentPlanner.rebuild, hbound, p.arch]
  split
  · next hbuild => simp only [hbuild]
  · next hbuild =>
    simp only [hbuild]
    rfl

/-- The verification fails, and the startup state is gone. -/
theorem warm_damaged (p : Published lib store) :
    (plainStarted lib).apply (plainOutside lib) (plainWorld store none damaged) (.warm []) =
      ⟨none, some "cookie", none, [.verified, .missed (plainFiles none)]⟩ := by
  have hpool := @openPool_plain lib store damaged rfl rfl
  have hbuild : buildPool (plainOutside lib) (plainWorld store none damaged) p.snapshot []
      p.integrity (some "cookie") (some (plainPending lib)) =
        .error (.native (.nativeFailure 5 "rpmdb verification failed")) := by
    rw [buildPool, p.arch, hpool]
    rfl
  have hfindings : buildFindings (plainOutside lib) (plainWorld store none damaged) .x86_64
      (some "cookie") (some (plainPending lib)) = [.missed (plainFiles none)] := by
    rw [buildFindings, pendingMissed_plain rfl, hpool]
    rfl
  rw [warm_plain p rfl rfl, rebuild_plain p _ rfl]
  simp only [plainStarted, hbuild, hfindings]
  rfl

/-- The verification succeeds, and the request goes on. -/
theorem warm_started (p : Published lib store) :
    ((plainStarted lib).apply (plainOutside lib) (plainWorld store none noFault) (.warm [])).log =
      [.verified, .missed (plainFiles none), .verified, .accepted (plainFiles none)] := by
  have hpool := @openPool_plain lib store noFault rfl rfl
  have hverify : (⟨(plainPending lib).context, plainInstalled, true, none⟩ : Opened).verify
      (plainOutside lib) (plainWorld store none noFault) (some "cookie") = .ok plainInstalled :=
    verifyRpmdbUnchanged_plain
  obtain ⟨pool, hfill⟩ := @exists_fillPool lib store (plainOutside lib) (fun _ _ _ => rfl) p
    (plainPending lib).context true
  have hbuild : buildPool (plainOutside lib) (plainWorld store none noFault) p.snapshot []
      p.integrity (some "cookie") (some (plainPending lib)) = .ok pool := by
    rw [buildPool, p.arch, hpool, Except.ok_bind, hverify, Except.ok_bind, hfill]
  have hfindings : buildFindings (plainOutside lib) (plainWorld store none noFault) .x86_64
      (some "cookie") (some (plainPending lib)) = [.missed (plainFiles none), .verified] := by
    rw [buildFindings, pendingMissed_plain rfl, hpool]
    simp only [hverify]
    rfl
  rw [warm_plain p rfl rfl, rebuild_plain p _ rfl]
  simp only [plainStarted, hbuild, hfindings]
  rfl

/-- The cookie alone is accepted. -/
theorem warm_again (p : Published lib store) {log : List Finding} :
    ((⟨none, some "cookie", none, log⟩ : ResidentPlanner).apply (plainOutside lib)
      (plainWorld store none noFault) (.warm [])).log = log ++ [.accepted (plainFiles none)] := by
  have hpool : openPool (plainOutside lib) (plainWorld store none noFault) .x86_64 none =
    .ok ⟨(plainPending lib).context, plainInstalled, false, none⟩ := rfl
  obtain ⟨pool, hfill⟩ := @exists_fillPool lib store (plainOutside lib) (fun _ _ _ => rfl) p
    (plainPending lib).context false
  have hbuild : buildPool (plainOutside lib) (plainWorld store none noFault) p.snapshot []
      p.integrity (some "cookie") none = .ok pool := by
    rw [buildPool, p.arch, hpool, Except.ok_bind]
    exact hfill
  have hfindings : buildFindings (plainOutside lib) (plainWorld store none noFault) .x86_64
      (some "cookie") none = [] := by
    rw [buildFindings, hpool]
    rfl
  rw [warm_plain p rfl rfl, rebuild_plain p _ rfl]
  simp only [hbuild, hfindings]
  rfl

/-- Startup, and the first request after it. -/
def plainHistory (store : Planning.Store) (fault : External → Option DaemonError) :
    List (World × PlannerCall) :=
  [(plainWorld store (some plainMeasured) noFault, .verifyStartup .x86_64),
    (plainWorld store none fault, .warm [])]

theorem log_verified (p : Published lib store) :
    (ResidentPlanner.new.run (plainOutside lib) (plainHistory store noFault)).log =
      [.verified, .missed (plainFiles none), .verified, .accepted (plainFiles none)] := by
  simp only [ResidentPlanner.run, plainHistory, List.foldl_cons, List.foldl_nil,
    verifyStartup_plain p.opens p.arch, warm_started p]

theorem steadyRun_plain (p : Published lib store) :
    SteadyRun (plainOutside lib) .new (plainHistory store noFault) := by
  refine ⟨?_, ?_, trivial⟩
  · rintro ⟨files, before, after, heq, -⟩
    simp [ResidentPlanner.new] at heq
  · rw [verifyStartup_plain p.opens p.arch]
    intro digest receiptMissed snapshot _ _ hopened _
    cases hopened.symm.trans (openSystem_plain rfl p.opens)
    rw [p.arch]
    refine ⟨_, openPool_plain rfl rfl, ?_⟩
    rw [verifyRpmdbUnchanged_plain]
    rfl

theorem log_damaged (p : Published lib store) :
    (ResidentPlanner.new.run (plainOutside lib)
      (plainHistory store damaged ++ [(plainWorld store none noFault, .warm [])])).log =
        [.verified, .missed (plainFiles none), .accepted (plainFiles none)] := by
  simp only [ResidentPlanner.run, plainHistory, List.cons_append, List.nil_append, List.foldl_cons,
    List.foldl_nil, verifyStartup_plain p.opens p.arch, warm_damaged p, warm_again p]

end

/-! ### The store of one repository -/

open Planning (soloLibrary soloRepository soloSnapshot soloStore newDigest)

theorem frame_of_lt {s : String} (h : s.utf8ByteSize < 2 ^ 64) :
    Planning.frame s s.asBytes = .ok (Planning.frameBytes s) :=
  Planning.frame_eq_ok.mpr ⟨h, rfl⟩

section
variable {lib : Planning.Library} {store : Planning.Store} {crates : Planning.Crates}

theorem trust_solo : Planning.frame (Planning.trustSha256 crates soloRepository.trust).asStr
    (Planning.trustSha256 crates soloRepository.trust).asStr.asBytes =
      .ok (Planning.frameBytes (Planning.trustSha256 crates soloRepository.trust).asStr) :=
  frame_of_lt (Planning.utf8ByteSize_lt_of_isLowerDigest (Core.Sha256Digest.canonical _))

theorem id_solo : soloRepository.id.utf8ByteSize < 2 ^ 64 := by decide +kernel

theorem exists_trustInput_solo : ∃ trust,
    [soloRepository].mapM (Planning.trustInput crates) = .ok trust := by
  simp only [List.mapM_cons, List.mapM_nil, Planning.trustInput, frame_of_lt id_solo, trust_solo,
    Except.ok_bind]
  exact ⟨_, rfl⟩

theorem exists_metadataInput_solo : ∃ metadata,
    Planning.metadataInput crates 7 [soloRepository] = .ok metadata := by
  have hrest : ((do
      let generation ← Planning.frame soloRepository.generationSha256
        soloRepository.generationSha256.asBytes
      let origin ← Planning.frame soloRepository.origin.sha256 soloRepository.origin.sha256.asBytes
      let metadata ← [soloRepository.repomd, soloRepository.primary, soloRepository.filelists].mapM
        Planning.PlanningBytes.input
      let extended ← Planning.extendedInput 7 soloRepository
      let updateinfo ← Planning.updateinfoInput 7 soloRepository
      return (generation, origin, metadata, extended, updateinfo)).toOption.map fun _ => ()) =
        some () := by
    decide +kernel
  obtain ⟨_, hrest, -⟩ := Except.toOption_map_eq_some.mp hrest
  simp only [Except.bind_eq_ok] at hrest
  obtain ⟨_, hgeneration, _, horigin, _, hmetadata, _, hextended, _, hupdateinfo, -⟩ := hrest
  simp only [Planning.metadataInput, List.mapM_cons, List.mapM_nil, Planning.repositoryInput,
    frame_of_lt id_solo, hgeneration, horigin, trust_solo, hmetadata, hextended, hupdateinfo,
    Except.ok_bind]
  exact ⟨_, rfl⟩

def soloBinding (crates : Planning.Crates) : Core.RepositoryBinding where
  id := "fedora"
  generationSha256 := ⟨Planning.fedoraGeneration, by decide +kernel⟩
  originSha256 := ⟨soloRepository.origin.sha256, by decide +kernel⟩
  trustSha256 := Planning.trustSha256 crates soloRepository.trust
  identifier := Core.fedoraBinding.identifier

theorem repositoryBinding_solo :
    Planning.repositoryBinding crates soloRepository = .ok (soloBinding crates) := by
  have hgeneration := (soloBinding crates).generationSha256.parse_asStr "generation_sha256"
  have horigin := (soloBinding crates).originSha256.parse_asStr "origin_sha256"
  have hnew := (soloBinding crates).new_self
  simp only [soloBinding] at hgeneration horigin hnew
  have hfields : soloRepository.generationSha256 = Planning.fedoraGeneration ∧
    soloRepository.id = "fedora" := ⟨rfl, rfl⟩
  simp only [Planning.repositoryBinding, hfields, hgeneration, horigin, Except.ok_bind, hnew]
  rfl

/-- A store with a snapshot of the repository is one that requests can use. -/
theorem exists_published_of_payload {snapshot : PlanningSnapshot} {digest : String}
    {bytes metadata : List UInt8} (hpoints : Planning.currentDigest store = .ok digest)
    (hopens : Planning.openSnapshot lib store = .ok snapshot)
    (hpayload : snapshot.payload = (soloSnapshot newInventory).payload)
    (hdecodes : Planning.Decodes lib bytes snapshot)
    (hmetadata : Planning.metadataInput lib.crates snapshot.schemaVersion [soloRepository] =
      .ok metadata) : ∃ p : Published lib store, p.snapshot = snapshot ∧
        p.integrity.metadataSha256 = lib.crates.sha256 metadata := by
  obtain ⟨trust, htrust⟩ := @exists_trustInput_solo lib.crates
  have hall : snapshot.selectedRepositories [] = .ok [soloRepository] := by
    have hsolo : (soloSnapshot newInventory).selectedRepositories [] = .ok [soloRepository] := by
      decide +kernel
    simpa only [PlanningSnapshot.selectedRepositories, hpayload] using hsolo
  have hfound : (soloSnapshot newInventory).payload.allowedRepositories.find? (·.id = "fedora") =
    some soloRepository := by decide +kernel
  refine ⟨⟨snapshot, digest, _, [soloRepository], [soloRepository], hpoints, hopens,
    by rw [hpayload]; rfl, by rw [hpayload]; rfl,
    Planning.integrityForRepositories_eq_ok.mpr ⟨⟨[soloRepository], bytes, metadata, trust,
      [soloBinding lib.crates], hdecodes.validate, hall, hdecodes.2, hmetadata, htrust, ?_, rfl, ?_⟩⟩,
    ?_, hall, ?_⟩, rfl, rfl⟩
  · rw [List.mapM_cons, repositoryBinding_solo]
    rfl
  · simp [Core.PlanIntegrity.validate, Except.refuseIf]
  · have hid : (soloBinding lib.crates).id = "fedora" := rfl
    simp only [selectedRepositories, List.mapM_cons, List.mapM_nil, hid, hpayload, hfound]
    rfl
  · intro r hr
    cases List.mem_singleton.mp hr
    decide +kernel

end

theorem exists_published_solo : Nonempty (Published soloLibrary soloStore) := by
  obtain ⟨metadata, hmetadata⟩ := @exists_metadataInput_solo soloLibrary.crates
  obtain ⟨p, -⟩ := exists_published_of_payload
    (Planning.currentDigest_eq_ok.mpr Planning.points_soloStore) Planning.openSnapshot_soloStore rfl
    Planning.decodes_new hmetadata
  exact ⟨p⟩

theorem rechecked_of_steady_solo :
    (ResidentPlanner.new.run (plainOutside soloLibrary) (plainHistory soloStore noFault)).log =
        [.verified, .missed (plainFiles none), .verified, .accepted (plainFiles none)] ∧
      Rechecked
        (ResidentPlanner.new.run (plainOutside soloLibrary) (plainHistory soloStore noFault)).log := by
  obtain ⟨p⟩ := exists_published_solo
  exact ⟨log_verified p, rechecked_of_steady _ _ (steadyRun_plain p)⟩

/-- The full verification fails, and the next request goes on with the same files for their cookie. -/
theorem missed_receipt_is_accepted : ¬ ∀ (out : Outside) (history : List (World × PlannerCall)),
    Rechecked (ResidentPlanner.new.run out history).log := by
  intro h
  obtain ⟨p⟩ := exists_published_solo
  have hmem := h _ _ [.verified] [] [] (plainFiles none) (log_damaged p)
  cases hmem

end Dnfast.Executor
