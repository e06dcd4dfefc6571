import Std.Data.ExtTreeMap

/-! # Directories that are flushed

A directory has the entries that processes see and the entries as of its last flush. A power loss
leaves the latter. An entry is copied when the directory is flushed, so the model is exact for programs
that flush a file, or a directory below, before they flush the directory that lists it. -/

namespace Durable

open Std (ExtTreeMap)

structure Folder (α : Type) where
  now : ExtTreeMap String α
  disk : ExtTreeMap String α

namespace Folder

variable {α : Type} {f : Folder α} {name other source target : String} {a b : α} {g : α → α}

instance [DecidableEq α] : DecidableEq (Folder α) := fun ⟨n, d⟩ ⟨n', d'⟩ =>
  decidable_of_iff (n = n' ∧ d = d') (by rw [Folder.mk.injEq])

def empty : Folder α := ⟨∅, ∅⟩

def put (name : String) (a : α) (f : Folder α) : Folder α := { f with now := f.now.insert name a }

def modify (name : String) (g : α → α) (f : Folder α) : Folder α :=
  { f with now := f.now.modify name g }

def remove (name : String) (f : Folder α) : Folder α := { f with now := f.now.erase name }

/-- The entry `a` under `source` gets the name `target`. -/
def move (source target : String) (a : α) (f : Folder α) : Folder α :=
  { f with now := (f.now.erase source).insert target a }

def flush (f : Folder α) : Folder α := { f with disk := f.now }

/-- What a power loss leaves, where `g` says what it leaves of an entry. -/
def restore (g : α → α) (f : Folder α) : Folder α :=
  ⟨f.disk.map fun _ a => g a, f.disk.map fun _ a => g a⟩

theorem getElem?_put : (f.put name a).now[other]? = if name = other then some a else f.now[other]? := by
  simp [put, ExtTreeMap.getElem?_insert]

theorem getElem?_remove : (f.remove name).now[other]? =
    if name = other then none else f.now[other]? := by
  simp [remove, ExtTreeMap.getElem?_erase]

theorem getElem?_modify : (f.modify name g).now[other]? =
    if name = other then f.now[other]?.map g else f.now[other]? := by
  simp only [modify, ExtTreeMap.getElem?_modify, Std.compare_eq_iff_eq]
  split
  next h => rw [h]
  · rfl

theorem getElem?_move : (f.move source target a).now[other]? =
    if target = other then some a else if source = other then none else f.now[other]? := by
  simp [move, ExtTreeMap.getElem?_insert, ExtTreeMap.getElem?_erase]

@[simp] theorem disk_put : (f.put name a).disk = f.disk := rfl
@[simp] theorem disk_modify : (f.modify name g).disk = f.disk := rfl
@[simp] theorem disk_remove : (f.remove name).disk = f.disk := rfl
@[simp] theorem disk_move : (f.move source target a).disk = f.disk := rfl
@[simp] theorem now_flush : f.flush.now = f.now := rfl
@[simp] theorem disk_flush : f.flush.disk = f.now := rfl

theorem now_restore : (f.restore g).now[name]? = f.disk[name]?.map g := by
  simp [restore]

theorem disk_restore : (f.restore g).disk[name]? = f.disk[name]?.map g := by
  simp [restore]

end Folder

end Durable
