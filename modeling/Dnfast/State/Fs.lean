import Std.Data.ExtTreeMap
import Dnfast.Durable.Rules
import Dnfast.State.Model

/-! # The journal's file system layer

`fs.rs` and `fault.rs` of `dnfast-state`: the private directories below `/var/lib/dnfast` and the
operations that read, publish, replace and remove files in them. A `Directory` maps names to files,
a `Root` maps names to directories.

Each system call that changes a directory is one durable step, and so is each armed fault point
(`check`); `write_all` is one step for each byte, so that a crash can leave any beginning of the
file. The environment may fail any of them or stop the process before it. What a step leaves is what
the next process finds.

Modes: files are created with `0600` and directories with `0700`; the process's umask is taken to
leave the owner's bits alone. -/

namespace Dnfast.State

open Durable
open Std (ExtTreeMap)

inductive Errno where
  | noent
  | exist
  | notdir
  | isdir
  | notempty
  | loop
  deriving DecidableEq, Repr

def Errno.message : Errno → String
  | .noent => "No such file or directory (os error 2)"
  | .exist => "File exists (os error 17)"
  | .notdir => "Not a directory (os error 20)"
  | .isdir => "Is a directory (os error 21)"
  | .notempty => "Directory not empty (os error 39)"
  | .loop => "Too many levels of symbolic links (os error 40)"

def errno (error : Errno) : StateError := .io error.message

/-- The part of `stat` that `verify` reads. -/
structure Stat where
  uid : UInt32
  mode : UInt32
  nlink : UInt64
  deriving DecidableEq

namespace Stat

def isDirectory (stat : Stat) : Bool := stat.mode &&& 0o170000 == 0o040000

def isSymlink (stat : Stat) : Bool := stat.mode &&& 0o170000 == 0o120000

end Stat

structure File where
  stat : Stat
  bytes : List UInt8
  deriving DecidableEq

structure Directory where
  stat : Stat
  files : ExtTreeMap String File
  deriving DecidableEq

/-- A directory of private directories. -/
structure Root where
  stat : Stat
  children : ExtTreeMap String Directory
  deriving DecidableEq

/-- What the operations read of the process they run in. -/
structure Process where
  pid : UInt32
  euid : UInt32
  deriving DecidableEq

inductive FaultPoint where
  | create
  | write
  | fileSync
  | publish
  | directorySync
  deriving DecidableEq, Repr

/-- `FaultPlan::check`: whether the point is armed is the environment's choice. -/
def check {σ : Type} (_point : FaultPoint) : Exec σ StateError Unit := Exec.sync

/-- The fault point of an operation that has a fault plan. -/
def checkIf {σ : Type} (faults : Bool) (point : FaultPoint) : Exec σ StateError Unit :=
  if faults then check point else pure ()

/-- `fsync` and `sync_all`. -/
def fsync {σ : Type} : Exec σ StateError Unit := Exec.sync

def verify (euid : UInt32) (stat : Stat) (directory oneLink : Bool) : Except StateError Unit :=
  let kind := if directory then 0o040000 else 0o100000
  let expectedMode := if directory then 0o700 else 0o600
  if stat.uid ≠ euid ∨ stat.mode &&& 0o170000 ≠ kind ∨ stat.mode &&& 0o777 ≠ expectedMode ∨
      (oneLink ∧ stat.nlink ≠ 1) then
    .error (.unsafePath "ownership, mode, type, or link count")
  else .ok ()

/-! ## Names -/

def endsWith (name suffix : String) : Bool := suffix.toList.isSuffixOf name.toList

/-- `format!("{n}")`. -/
def decimal (n : Nat) : List Char := Nat.toDigits 10 n

/-- `format!("{n:020}")`. -/
def padded (n : Nat) : List Char :=
  List.replicate (20 - (decimal n).length) '0' ++ decimal n

/-- The final name of a record. -/
def recordName (sequence : UInt64) : String :=
  String.ofList (padded sequence.toNat ++ ".json".toList)

/-- The name a record is written under before it is published. -/
def recordTemporary (sequence : UInt64) (pid : UInt32) : String :=
  String.ofList ('.' :: (padded sequence.toNat ++ (".tmp-".toList ++ decimal pid.toNat)))

/-- The name a replacement of `name` is written under before it is published. -/
def replacementTemporary (name : String) (pid : UInt32) : String :=
  String.ofList ('.' :: (name.toList ++ (".tmp-".toList ++ decimal pid.toNat)))

/-! ## System calls on the files of a directory -/

namespace Directory

def freshStat (euid : UInt32) : Stat := ⟨euid, 0o100600, 1⟩

/-- `openat` for reading, not following symbolic links. -/
def openRead (d : Directory) (name : String) : Except StateError File :=
  match d.files[name]? with
  | none => .error (errno .noent)
  | some file => if file.stat.isSymlink then .error (errno .loop) else .ok file

/-- `openat` with `CREATE` and `EXCL`. -/
def openExclusive (euid : UInt32) (name : String) (d : Directory) :
    Except StateError (Unit × Directory) :=
  if name ∈ d.files then .error (errno .exist)
  else .ok ((), { d with files := d.files.insert name ⟨freshStat euid, []⟩ })

def fchmod (name : String) (d : Directory) : Directory :=
  { d with files := d.files.modify name fun file =>
      { file with stat := { file.stat with mode := 0o100600 } } }

def append (name : String) (byte : UInt8) (d : Directory) : Directory :=
  { d with files := d.files.modify name fun file =>
      { file with bytes := file.bytes ++ [byte] } }

def renameat (source target : String) (d : Directory) : Except StateError (Unit × Directory) :=
  match d.files[source]? with
  | none => .error (errno .noent)
  | some file =>
    if (d.files[target]?).any fun old => old.stat.isDirectory then .error (errno .isdir)
    else .ok ((), { d with files := (d.files.erase source).insert target file })

def unlinkat (name : String) (d : Directory) : Except StateError (Unit × Directory) :=
  match d.files[name]? with
  | none => .error (errno .noent)
  | some file =>
    if file.stat.isDirectory then .error (errno .isdir)
    else .ok ((), { d with files := d.files.erase name })

/-- `child_names`: the names in order. -/
def childNames (d : Directory) : List String := d.files.keys

def readBounded (euid : UInt32) (d : Directory) (name : String) (maximum : Nat) :
    Except StateError (List UInt8) := do
  let file ← d.openRead name
  verify euid file.stat false true
  if file.bytes.length > maximum then .error (.limit "record")
  else .ok file.bytes

def readOptionalBounded (euid : UInt32) (d : Directory) (name : String) (maximum : Nat) :
    Except StateError (Option (List UInt8)) :=
  match d.openRead name with
  | .ok file => do
    verify euid file.stat false true
    if file.bytes.length > maximum then .error (.limit "record")
    else .ok (some file.bytes)
  | .error error => if error = errno .noent then .ok none else .error error

end Directory

/-- `write_all`. -/
def writeAll (name : String) (bytes : List UInt8) : Exec Directory StateError Unit :=
  Exec.forEach (fun byte => Exec.change (Directory.append name byte)) bytes

/-- What `write_record` and `write_atomic_replacing` do once the temporary file is open, up to the
point where the cleanup guard is disarmed. -/
def fillAndRename (temporary name : String) (bytes : List UInt8) (faults : Bool) :
    Exec Directory StateError Unit := do
  Exec.change (Directory.fchmod temporary)
  checkIf faults .write
  writeAll temporary bytes
  checkIf faults .fileSync
  fsync
  checkIf faults .publish
  Exec.step (Directory.renameat temporary name)
  fsync

/-- The cleanup guard of a temporary file. -/
def tempCleanup (name : String) : Exec Directory StateError Unit :=
  Exec.step (Directory.unlinkat name)

/-- The record's name is not taken. Any failure to open it, not only its absence, is taken to mean
that it is free. -/
def requireFree (name : String) : Exec Directory StateError Unit := do
  match ← Exec.attempt (Exec.observe fun d => d.openRead name) with
  | .ok _ => Exec.throw (.corrupt "duplicate sequence")
  | .error _ => pure ()

def writeRecord (p : Process) (sequence : UInt64) (bytes : List UInt8) :
    Exec Directory StateError Unit := do
  let finalName := recordName sequence
  requireFree finalName
  let temporary := recordTemporary sequence p.pid
  Exec.step (Directory.openExclusive p.euid temporary)
  Exec.onErr (fillAndRename temporary finalName bytes true) (tempCleanup temporary)
  check .directorySync

def writeAtomicReplacing (p : Process) (name : String) (bytes : List UInt8) :
    Exec Directory StateError Unit := do
  let temporary := replacementTemporary name p.pid
  let _ ← Exec.attempt (Exec.step (Directory.unlinkat temporary))
  Exec.step (Directory.openExclusive p.euid temporary)
  Exec.onErr (fillAndRename temporary name bytes false) (tempCleanup temporary)

/-! ## System calls on a root -/

namespace Root

def freshDirectory (euid : UInt32) : Directory := ⟨⟨euid, 0o040700, 2⟩, ∅⟩

/-- `mkdirat`. -/
def mkdirat (euid : UInt32) (name : String) (r : Root) : Except StateError (Unit × Root) :=
  if name ∈ r.children then .error (errno .exist)
  else .ok ((), { r with children := r.children.insert name (freshDirectory euid) })

/-- `unlinkat` with `REMOVEDIR`. -/
def rmdir (name : String) (r : Root) : Except StateError (Unit × Root) :=
  match r.children[name]? with
  | none => .error (errno .noent)
  | some d =>
    if !d.stat.isDirectory then .error (errno .notdir)
    else if !d.files.isEmpty then .error (errno .notempty)
    else .ok ((), { r with children := r.children.erase name })

/-- `open_transaction`. -/
def openTransaction (euid : UInt32) (name : String) (r : Root) : Except StateError Directory :=
  match r.children[name]? with
  | none => .error (errno .noent)
  | some d =>
    if d.stat.isSymlink then .error (errno .loop)
    else if !d.stat.isDirectory then .error (errno .notdir)
    else (verify euid d.stat true false).map fun _ => d

def childNames (r : Root) : List String := r.children.keys

def put (name : String) (d : Directory) (r : Root) : Root :=
  { r with children := r.children.insert name d }

end Root

/-- A program on the directory `name` of a root. -/
def inDirectory {α : Type} (name : String) (m : Exec Directory StateError α) :
    Exec Root StateError α :=
  Exec.zoom (fun r => r.children[name]?) (Root.put name) (errno .noent) m

def createTransaction (p : Process) (name : String) : Exec Root StateError Unit := do
  check .create
  Exec.step (Root.mkdirat p.euid name)
  fsync
  let _ ← Exec.observe (Root.openTransaction p.euid name)

def cleanupPrivateChild (p : Process) (child : String) : Exec Root StateError Unit := do
  Exec.observe fun r => verify p.euid r.stat true false
  let directory ← Exec.observe (Root.openTransaction p.euid child)
  Exec.forEach (fun name => inDirectory child do
      Exec.observe fun d => do
        let file ← d.openRead name
        verify p.euid file.stat false true
      Exec.step (Directory.unlinkat name)) directory.childNames
  fsync
  Exec.step (Root.rmdir child)
  fsync

def removeFailedTransaction (p : Process) (child : String) : Exec Root StateError Unit := do
  let directory ← Exec.observe (Root.openTransaction p.euid child)
  Exec.forEach (fun name => inDirectory child (Exec.step (Directory.unlinkat name)))
    directory.childNames
  fsync
  Exec.step (Root.rmdir child)
  fsync

end Dnfast.State
