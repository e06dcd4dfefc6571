import Mathlib.Data.List.Forall2
import Mathlib.Data.Nat.Basic
import Mathlib.Logic.Relation
import Dnfast.Data.Descriptors

/-! # Descriptors for the executor

`executor_fd.c`: the plan, the manifest and the artifacts are handed to the executor as the descriptors
from 3 on. All of them are saved above the target range before any target is replaced, so it does not
matter which numbers they had. In the executor they stay open, and the take functions give duplicates. -/

namespace Dnfast.Native

open Relation (ReflTransGen)

variable {File : Type}

/-! ## Handing over -/

/-- What the calls around the descriptors give. -/
structure Surroundings where
  root : Bool
  allocates : Bool
  closesRange : Bool
  setsEnvironment : Bool

/-- The first loop: temporary duplicates, from the minimum on. -/
def saveFds (limit minimum : Nat) (t : Descriptors File) : List Int → Option (Descriptors File × List Nat)
  | [] => some (t, [])
  | source :: sources => do
    let source ← source.toNat?
    let (t, fd) ← t.dupFrom limit source minimum
    let (t, fds) ← saveFds limit minimum t sources
    return (t, fd :: fds)

/-- The second loop: the targets, which are inherited. -/
def installFds (limit : Nat) (t : Descriptors File) (target : Nat) : List Nat → Option (Descriptors File)
  | [] => some t
  | fd :: fds => do
    let t ← t.dup3 limit fd target false
    let t ← t.setCloexec target false
    installFds limit t (target + 1) fds

def executorArguments (artifactCount : Nat) (approval : UInt8) : Option (List String) := do
  let mode ← match approval with
    | 0 => some []
    | 1 => some ["--assumeyes"]
    | 2 => some ["--assumeno"]
    | _ => none
  return ["/usr/libexec/dnfast-executor", "--plan-fd", "3", "--compact-fd", "4", "--artifact-fd-base", "5",
    "--artifact-count", toString artifactCount] ++ mode

/-- `dnfast_executor_exec_compact`: the descriptors and the arguments with which `execve` is reached. -/
def execCompact (w : Surroundings) (limit : Nat) (t : Descriptors File) (planFd manifestFd : Int)
    (artifactFds : List Int) (approval : UInt8) : Option (Descriptors File × List String) := do
  guard (0 ≤ planFd ∧ 0 ≤ manifestFd ∧ w.root ∧ artifactFds.length ≤ 1024 ∧ w.allocates)
  let minimum := artifactFds.length + 5
  let (t, temporary) ← saveFds limit minimum t (planFd :: manifestFd :: artifactFds)
  let t ← installFds limit t 3 temporary
  let t := temporary.foldl Descriptors.close t
  guard (w.closesRange ∧ w.setsEnvironment)
  let arguments ← executorArguments artifactFds.length approval
  return (t.closeFrom minimum, arguments)

/-! ## Taking over -/

/-- The take functions of the executor. -/
inductive Take where
  | plan
  | compact
  | artifact (index : Nat)
  deriving DecidableEq, Repr

/-- The inherited descriptor, counted from 3 on. -/
def Take.index : Take → Nat
  | plan => 0
  | compact => 1
  | artifact index => index + 2

/-- The inherited descriptor stays open, and is not inherited further. -/
def takeInheritedFd (limit : Nat) (t : Descriptors File) (source minimum : Nat) :
    Descriptors File × Option Nat :=
  match t.setCloexec source true with
  | none => (t, none)
  | some t =>
    match t.dupFrom limit source minimum with
    | none => (t, none)
    | some (t, fd) => (t, some fd)

def take (limit : Nat) (t : Descriptors File) : Take → Descriptors File × Option Nat
  | .plan => takeInheritedFd limit t 3 4
  | .compact => takeInheritedFd limit t 4 5
  | .artifact index =>
    if index > 1023 then (t, none) else takeInheritedFd limit t (index + 5) (index + 6)

/-- What the executor does: it takes descriptors, and opens and closes others. -/
inductive ExecutorStep (limit count : Nat) : Descriptors File → Descriptors File → Prop
  | take (t : Descriptors File) (k : Take) : ExecutorStep limit count t (take limit t k).1
  | other {t t' : Descriptors File} (h : ∀ i < count, t' (3 + i) = t (3 + i)) : ExecutorStep limit count t t'

/-! ## What is handed over -/

section Exec

variable {limit minimum target : Nat} {t t' : Descriptors File} {sources : List Int} {fds : List Nat}
  {files : List File}

/-- The descriptors are open and stand for the files. -/
def Opens (t : Descriptors File) (sources : List Int) (files : List File) : Prop :=
  List.Forall₂ (fun source file => source.toNat?.bind t.file? = some file) sources files

/-- The temporary descriptors. -/
def Saved (minimum : Nat) (t : Descriptors File) (fds : List Nat) (files : List File) : Prop :=
  List.Forall₂ (fun fd file => minimum ≤ fd ∧ t.file? fd = some file) fds files

/-- What is open stays open, and nothing below the minimum changes. -/
theorem saveFds_eq_some (hopens : Opens t sources files)
    (h : saveFds limit minimum t sources = some (t', fds)) :
    (∀ fd file, t.file? fd = some file → t'.file? fd = some file) ∧ (∀ fd < minimum, t' fd = t fd) ∧
      Saved minimum t' fds files := by
  induction sources generalizing t fds files with
  | nil =>
    cases hopens
    cases h
    exact ⟨fun _ _ h => h, fun _ _ => rfl, .nil⟩
  | cons source sources ih =>
    obtain ⟨n, hn, h⟩ := Option.bind_eq_some_iff.mp h
    obtain ⟨⟨t₁, fd⟩, hdup, h⟩ := Option.bind_eq_some_iff.mp h
    obtain ⟨⟨t₂, fds⟩, hsave, h⟩ := Option.bind_eq_some_iff.mp h
    cases h
    obtain ⟨file, hfile, hle, hfree, rfl⟩ := Descriptors.dupFrom_eq_some hdup
    have hkept : ∀ fd' f, t.file? fd' = some f → (t.set fd ⟨file, true⟩).file? fd' = some f := by
      intro fd' f hf
      have hne : fd' ≠ fd := by
        rintro rfl
        simp [Descriptors.file?, hfree] at hf
      rw [Descriptors.file?, Descriptors.set_ne hne]
      exact hf
    cases hopens with
    | cons hsource hrest =>
      rw [hn, Option.bind_some, hfile] at hsource
      cases hsource
      -- the other sources are still open after the duplicate is there
      have hopens' := hrest.imp fun source f hsource => show source.toNat?.bind
          (Descriptors.file? (t.set fd ⟨file, true⟩)) = some f by
        obtain ⟨m, hm, hf⟩ := Option.bind_eq_some_iff.mp hsource
        exact Option.bind_eq_some_iff.mpr ⟨m, hm, hkept m f hf⟩
      obtain ⟨hstays, hbelow, hsaved⟩ := ih hopens' hsave
      refine ⟨fun fd' f hf => hstays fd' f (hkept fd' f hf), fun fd' hlt => ?_, .cons ⟨hle, ?_⟩ hsaved⟩
      · rw [hbelow fd' hlt, Descriptors.set_ne (by omega)]
      · exact hstays fd file (by rw [Descriptors.file?, Descriptors.set_self]; rfl)

/-- The targets stand for the files that were saved, and nothing else changes. -/
theorem installFds_eq_some (hsaved : Saved minimum t fds files) (hle : target + files.length ≤ minimum)
    (h : installFds limit t target fds = some t') :
    (∀ i < files.length, t' (target + i) = files[i]?.map (⟨·, false⟩)) ∧
      ∀ fd, fd < target ∨ target + files.length ≤ fd → t' fd = t fd := by
  induction fds generalizing t target files with
  | nil =>
    cases hsaved
    cases h
    exact ⟨fun i hi => absurd hi (Nat.not_lt_zero i), fun _ _ => rfl⟩
  | cons fd fds ih =>
    obtain ⟨t₁, hdup, h⟩ := Option.bind_eq_some_iff.mp h
    obtain ⟨t₂, hset, h⟩ := Option.bind_eq_some_iff.mp h
    obtain ⟨file', hfile', rfl⟩ := Descriptors.dup3_eq_some hdup
    obtain ⟨file'', hfile'', rfl⟩ := Descriptors.setCloexec_eq_some hset
    cases hsaved with
    | @cons _ file _ files hfd hrest =>
      rw [hfd.2] at hfile'
      cases hfile'
      rw [Descriptors.file?, Descriptors.set_self] at hfile''
      cases hfile''
      rw [List.length_cons] at hle ⊢
      -- the temporaries lie above the targets
      have hsaved' : Saved minimum ((t.set target ⟨file', false⟩).set target ⟨file', false⟩) fds files := by
        refine List.Forall₂.imp (fun fd' f hf => ⟨hf.1, ?_⟩) hrest
        rw [Descriptors.file?, Descriptors.set_ne (by omega), Descriptors.set_ne (by omega)]
        exact hf.2
      obtain ⟨htargets, hothers⟩ := ih hsaved' (by omega) h
      refine ⟨fun i hi => ?_, fun fd' hfd' => ?_⟩
      · cases i with
        | zero =>
          rw [Nat.add_zero, hothers target (.inl (Nat.lt_succ_self target)), Descriptors.set_self]
          rfl
        | succ i =>
          rw [← Nat.add_assoc, Nat.add_right_comm, htargets i (by omega)]
          rfl
      · rw [hothers fd' (by omega), Descriptors.set_ne (by omega), Descriptors.set_ne (by omega)]

theorem le_of_saved (h : Saved minimum t fds files) : ∀ fd ∈ fds, minimum ≤ fd := by
  induction h with
  | nil => exact fun _ h => absurd h List.not_mem_nil
  | cons hfd _ ih => exact List.forall_mem_cons.mpr ⟨hfd.1, ih⟩

end Exec

/-- At `execve` the descriptors from 3 on are the files, all inheritable, and no others. -/
theorem execCompact_eq_some {w : Surroundings} {limit : Nat} {t t' : Descriptors File}
    {planFd manifestFd : Int} {artifactFds : List Int} {approval : UInt8} {files : List File}
    {arguments : List String} (hopens : Opens t (planFd :: manifestFd :: artifactFds) files)
    (h : execCompact w limit t planFd manifestFd artifactFds approval = some (t', arguments)) :
    files.length ≤ 1026 ∧ (∀ i, t' (3 + i) = files[i]?.map (⟨·, false⟩)) ∧ ∀ fd < 3, t' fd = t fd := by
  obtain ⟨_, hguard, h⟩ := Option.bind_eq_some_iff.mp h
  obtain ⟨⟨t₁, fds⟩, hsave, h⟩ := Option.bind_eq_some_iff.mp h
  obtain ⟨t₂, hinstall, h⟩ := Option.bind_eq_some_iff.mp h
  obtain ⟨_, -, h⟩ := Option.bind_eq_some_iff.mp h
  obtain ⟨args, -, h⟩ := Option.bind_eq_some_iff.mp h
  cases h
  have hcount : artifactFds.length ≤ 1024 := by
    by_contra hlt
    rw [guard, if_neg fun h => hlt h.2.2.2.1] at hguard
    cases hguard
  have hlength : files.length = artifactFds.length + 2 := hopens.length_eq.symm
  obtain ⟨-, hbelow, hsaved⟩ := saveFds_eq_some hopens hsave
  obtain ⟨htargets, hothers⟩ := installFds_eq_some hsaved (by omega) hinstall
  have hclosed : ∀ fd < artifactFds.length + 5,
      (fds.foldl Descriptors.close t₂).closeFrom (artifactFds.length + 5) fd = t₂ fd := by
    intro fd hfd
    have hnot : fd ∉ fds := fun hmem => absurd (le_of_saved hsaved fd hmem) (not_le.mpr hfd)
    rw [Descriptors.closeFrom, if_pos hfd, Descriptors.foldl_close_of_notMem hnot]
  refine ⟨by omega, fun i => ?_, fun fd hfd => ?_⟩
  · by_cases hi : i < files.length
    · rw [hclosed _ (by omega), htargets i hi]
    · rw [Descriptors.closeFrom, if_neg (by omega), List.getElem?_eq_none (not_lt.mp hi)]
      rfl
  · rw [hclosed fd (by omega), hothers fd (.inl hfd), hbelow fd (by omega)]

/-! ## What is taken -/

section Taken

variable {limit source minimum fd : Nat} {t t' s s' : Descriptors File} {files : List File} {file : File}
  {k : Take}

theorem file?_set_of_file? {d : Descriptor File} (h : t.file? fd = some d.file) (x : Nat) :
    (t.set fd d).file? x = t.file? x := by
  by_cases hx : x = fd
  · subst hx
    rw [h, Descriptors.file?, Descriptors.set_self]
    rfl
  · rw [Descriptors.file?, Descriptors.set_ne hx]
    rfl

/-- A taken descriptor is a fresh one for the file. -/
theorem takeInheritedFd_eq_some (h : takeInheritedFd limit t source minimum = (t', some fd)) :
    ∃ file, t.file? source = some file ∧ t fd = none ∧ t' fd = some ⟨file, true⟩ := by
  unfold takeInheritedFd at h
  split at h
  · cases h
  next t₁ hset =>
    split at h
    · cases h
    next t₂ fd' hdup =>
      cases h
      obtain ⟨file, hfile, rfl⟩ := Descriptors.setCloexec_eq_some hset
      obtain ⟨file', hfile', -, hfree, rfl⟩ := Descriptors.dupFrom_eq_some hdup
      rw [file?_set_of_file? hfile, hfile] at hfile'
      cases hfile'
      have hnone : t.file? fd = none := by
        rw [← file?_set_of_file? (d := ⟨file, true⟩) hfile, Descriptors.file?, hfree]
        rfl
      exact ⟨file, hfile, Option.map_eq_none_iff.mp hnone, Descriptors.set_self⟩

theorem exists_takeInheritedFd (hsource : t.file? source = some file) (hle : minimum ≤ fd) (hlt : fd < limit)
    (hfree : t fd = none) : ∃ t' fd', takeInheritedFd limit t source minimum = (t', some fd') := by
  obtain ⟨d, hd, -⟩ := Option.map_eq_some_iff.mp hsource
  have hset : t.setCloexec source true = some (t.set source ⟨d.file, true⟩) := by
    rw [Descriptors.setCloexec, hd]
    rfl
  have hne : fd ≠ source := by
    rintro rfl
    rw [hfree] at hd
    cases hd
  obtain ⟨fd', hfd'⟩ := @Descriptors.exists_lowestFree _ (t.set source ⟨d.file, true⟩) limit minimum fd hle hlt
    (by rw [Descriptors.set_ne hne, hfree])
  have hdup : (t.set source ⟨d.file, true⟩).dupFrom limit source minimum =
      some ((t.set source ⟨d.file, true⟩).set fd' ⟨d.file, true⟩, fd') := by
    rw [Descriptors.dupFrom, Descriptors.set_self, Option.bind_eq_bind, Option.bind_some, hfd']
    rfl
  refine ⟨(t.set source ⟨d.file, true⟩).set fd' ⟨d.file, true⟩, fd', ?_⟩
  rw [takeInheritedFd, hset]
  dsimp only
  rw [hdup]

/-- Taking keeps what is open. -/
theorem file?_takeInheritedFd (h : t.file? fd = some file) :
    (takeInheritedFd limit t source minimum).1.file? fd = some file := by
  unfold takeInheritedFd
  split
  · exact h
  next t₁ hset =>
    obtain ⟨file₁, hfile₁, rfl⟩ := Descriptors.setCloexec_eq_some hset
    have hkept : (t.set source ⟨file₁, true⟩).file? fd = some file := by
      rw [file?_set_of_file? hfile₁, h]
    split
    · exact hkept
    next t₂ fd' hdup =>
      obtain ⟨file₂, -, -, hfree, rfl⟩ := Descriptors.dupFrom_eq_some hdup
      have hne : fd ≠ fd' := by
        rintro rfl
        simp [Descriptors.file?, hfree] at hkept
      dsimp only
      rw [Descriptors.file?, Descriptors.set_ne hne]
      exact hkept

theorem file?_take (h : t.file? fd = some file) : (take limit t k).1.file? fd = some file := by
  cases k with
  | plan => exact file?_takeInheritedFd h
  | compact => exact file?_takeInheritedFd h
  | artifact index =>
    unfold take
    dsimp only
    split
    · exact h
    · exact file?_takeInheritedFd h

/-- A take of an inherited descriptor, whose index is within the limit of the artifacts. -/
theorem take_eq (hk : k.index ≤ 1025) :
    take limit t k = takeInheritedFd limit t (3 + k.index) (4 + k.index) := by
  cases k with
  | plan => rfl
  | compact => rfl
  | artifact index =>
    rw [Take.index] at hk ⊢
    rw [take, if_neg (by omega)]
    congr 1 <;> omega

/-- The inherited descriptors stand for the files. -/
def Inherited (files : List File) (s : Descriptors File) : Prop :=
  ∀ (i : Nat) (file : File), files[i]? = some file → s.file? (3 + i) = some file

theorem inherited_step (h : ExecutorStep limit files.length s s') (hs : Inherited files s) :
    Inherited files s' := by
  intro i file hi
  cases h with
  | take k => exact file?_take (hs i file hi)
  | other hsame =>
    obtain ⟨hlt, -⟩ := List.getElem?_eq_some_iff.mp hi
    rw [Descriptors.file?, hsame i hlt]
    exact hs i file hi

theorem inherited_run (h : ReflTransGen (ExecutorStep limit files.length) t s) (ht : Inherited files t) :
    Inherited files s := by
  induction h with
  | refl => exact ht
  | tail _ hstep ih => exact inherited_step hstep ih

end Taken

/-- When `execve` is reached, descriptor 3 stands for the plan, 4 for the manifest and the next ones for
the artifacts, all inheritable, and none is open above them, whichever numbers they had. In the executor
every take function gives, at any time, a fresh descriptor of its file, unless no number is free. -/
theorem execCompact_spec (w : Surroundings) (limit : Nat) (t t' : Descriptors File)
    (planFd manifestFd : Int) (artifactFds : List Int) (approval : UInt8) (arguments : List String)
    (files : List File) (hopens : Opens t (planFd :: manifestFd :: artifactFds) files)
    (h : execCompact w limit t planFd manifestFd artifactFds approval = some (t', arguments)) :
    (∀ i, t' (3 + i) = files[i]?.map (⟨·, false⟩)) ∧ (∀ fd < 3, t' fd = t fd) ∧
    ∀ (limit' : Nat) (s : Descriptors File),
      ReflTransGen (ExecutorStep limit' files.length) t'.exec s →
      ∀ (k : Take) (file : File), files[k.index]? = some file →
        (∀ s' fd, take limit' s k = (s', some fd) → s fd = none ∧ s' fd = some ⟨file, true⟩) ∧
        ∀ fd, 4 + k.index ≤ fd → fd < limit' → s fd = none →
          ∃ s' fd', take limit' s k = (s', some fd') := by
  obtain ⟨hlength, htargets, hothers⟩ := execCompact_eq_some hopens h
  refine ⟨htargets, hothers, fun limit' s hrun k file hk => ?_⟩
  have hstart : Inherited files t'.exec := by
    intro i f hi
    rw [Descriptors.file?, Descriptors.exec, htargets i, hi]
    rfl
  have hfile := inherited_run hrun hstart k.index file hk
  have hindex : k.index ≤ 1025 := by
    obtain ⟨hlt, -⟩ := List.getElem?_eq_some_iff.mp hk
    omega
  rw [take_eq hindex]
  refine ⟨fun s' fd htake => ?_, fun fd hle hlt hfree => exists_takeInheritedFd hfile hle hlt hfree⟩
  obtain ⟨file', hfile', hfree, hfd⟩ := takeInheritedFd_eq_some htake
  rw [hfile] at hfile'
  cases hfile'
  exact ⟨hfree, hfd⟩

/-- Descriptors below 8, each standing for the file with its number. -/
def crossedFds : Descriptors Nat := fun fd => if fd < 8 then some ⟨fd, true⟩ else none

/-- The plan and the manifest stand on each other's targets, the artifacts too. -/
theorem execCompact_spec_crossed :
    ∃ t' arguments, execCompact ⟨true, true, true, true⟩ 64 crossedFds 4 3 [6, 5] 1 = some (t', arguments) ∧
      t' 3 = some ⟨4, false⟩ ∧ t' 4 = some ⟨3, false⟩ ∧ t' 5 = some ⟨6, false⟩ ∧ t' 6 = some ⟨5, false⟩ ∧
      t' 7 = none ∧
      ∀ s' fd, take 64 t'.exec (.artifact 0) = (s', some fd) → s' fd = some ⟨6, true⟩ := by
  have hopens : Opens crossedFds [4, 3, 6, 5] [4, 3, 6, 5] :=
    .cons rfl (.cons rfl (.cons rfl (.cons rfl .nil)))
  have hsome : (execCompact ⟨true, true, true, true⟩ 64 crossedFds 4 3 [6, 5] 1).isSome := by
    decide +kernel
  obtain ⟨⟨t', arguments⟩, h⟩ := Option.isSome_iff_exists.mp hsome
  obtain ⟨htargets, -, htake⟩ := execCompact_spec _ _ _ _ _ _ _ _ _ _ hopens h
  exact ⟨t', arguments, h, htargets 0, htargets 1, htargets 2, htargets 3, htargets 4,
    fun s' fd hs => ((htake 64 _ .refl (.artifact 0) 6 rfl).1 s' fd hs).2⟩

end Dnfast.Native
