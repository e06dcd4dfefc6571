import Mathlib.Data.List.Basic
import Mathlib.Logic.Function.Basic

/-! # Descriptor tables

The open descriptors of a process: a number stands for a file, and a flag says whether the descriptor is
closed when another program is executed. A duplicate gets the lowest free number from a minimum on, or
replaces what a given number stood for. No number reaches the limit of the process. -/

structure Descriptor (File : Type) where
  file : File
  cloexec : Bool
  deriving DecidableEq, Repr

abbrev Descriptors (File : Type) := Nat → Option (Descriptor File)

namespace Descriptors

variable {File : Type} (t : Descriptors File) (limit : Nat)

def file? (fd : Nat) : Option File := (t fd).map (·.file)

/-- The lowest number from the minimum on that is free. -/
def lowestFree (minimum : Nat) : Option Nat :=
  (List.range' minimum (limit - minimum)).find? fun fd => (t fd).isNone

def set (fd : Nat) (d : Descriptor File) : Descriptors File := Function.update t fd (some d)

/-- `F_DUPFD_CLOEXEC`. -/
def dupFrom (source minimum : Nat) : Option (Descriptors File × Nat) := do
  let d ← t source
  let fd ← t.lowestFree limit minimum
  return (t.set fd ⟨d.file, true⟩, fd)

/-- `dup3`: what the target stood for is closed. -/
def dup3 (source target : Nat) (cloexec : Bool) : Option (Descriptors File) := do
  guard (source ≠ target ∧ target < limit)
  let d ← t source
  return t.set target ⟨d.file, cloexec⟩

/-- `F_GETFD` and `F_SETFD`. -/
def setCloexec (fd : Nat) (cloexec : Bool) : Option (Descriptors File) := do
  let d ← t fd
  return t.set fd ⟨d.file, cloexec⟩

def close (fd : Nat) : Descriptors File := Function.update t fd none

/-- `close_range` without an upper end. -/
def closeFrom (first : Nat) : Descriptors File := fun fd => if fd < first then t fd else none

/-- The descriptors of the program that is executed. -/
def exec : Descriptors File := fun fd => (t fd).filter (!·.cloexec)

variable {t limit} {t' : Descriptors File} {source target minimum fd fd' : Nat} {d : Descriptor File}
  {cloexec : Bool} {file : File}

@[simp] theorem set_self : t.set fd d fd = some d := Function.update_self ..

theorem set_ne (h : fd' ≠ fd) : t.set fd d fd' = t fd' := Function.update_of_ne h ..

theorem lowestFree_eq_some (h : t.lowestFree limit minimum = some fd) : minimum ≤ fd ∧ t fd = none := by
  have hfree := List.find?_some h
  have hmem := List.mem_of_find?_eq_some h
  rw [List.mem_range'_1] at hmem
  exact ⟨hmem.1, Option.isNone_iff_eq_none.mp hfree⟩

theorem exists_lowestFree (hle : minimum ≤ fd) (hlt : fd < limit) (hfree : t fd = none) :
    ∃ fd', t.lowestFree limit minimum = some fd' := by
  rw [← Option.isSome_iff_exists, lowestFree, List.find?_isSome]
  refine ⟨fd, List.mem_range'_1.mpr ⟨hle, ?_⟩, by rw [hfree]; rfl⟩
  omega

/-- A duplicate stands for the same file, at a number that was free. -/
theorem dupFrom_eq_some (h : t.dupFrom limit source minimum = some (t', fd)) :
    ∃ file, t.file? source = some file ∧ minimum ≤ fd ∧ t fd = none ∧ t' = t.set fd ⟨file, true⟩ := by
  obtain ⟨d, hd, h⟩ := Option.bind_eq_some_iff.mp h
  obtain ⟨fd', hfd, h⟩ := Option.bind_eq_some_iff.mp h
  cases h
  obtain ⟨hle, hfree⟩ := lowestFree_eq_some hfd
  exact ⟨d.file, by rw [file?, hd]; rfl, hle, hfree, rfl⟩

theorem dup3_eq_some (h : t.dup3 limit source target cloexec = some t') :
    ∃ file, t.file? source = some file ∧ t' = t.set target ⟨file, cloexec⟩ := by
  obtain ⟨_, -, h⟩ := Option.bind_eq_some_iff.mp h
  obtain ⟨d, hd, h⟩ := Option.bind_eq_some_iff.mp h
  cases h
  exact ⟨d.file, by rw [file?, hd]; rfl, rfl⟩

theorem setCloexec_eq_some (h : t.setCloexec fd cloexec = some t') :
    ∃ file, t.file? fd = some file ∧ t' = t.set fd ⟨file, cloexec⟩ := by
  obtain ⟨d, hd, h⟩ := Option.bind_eq_some_iff.mp h
  cases h
  exact ⟨d.file, by rw [file?, hd]; rfl, rfl⟩

theorem foldl_close_of_notMem {l : List Nat} (h : fd ∉ l) : l.foldl close t fd = t fd := by
  induction l generalizing t with
  | nil => rfl
  | cons x l ih =>
    rw [List.mem_cons, not_or] at h
    rw [List.foldl_cons, ih h.2]
    exact Function.update_of_ne h.1 ..

end Descriptors
