import Dnfast.Core.PlanCodec
import Dnfast.Core.Inventory

/-! # Reading the RPM database

`dnfast-native`, `inventory.rs`, with the native reads of `inventory.c` and `inventory_write.c`. A
read of the RPM database returns its cookie and, unless the caller already knows the cookie, the
packages. The whole process shares one cached inventory, kept under the cookie it was read at: a
read that finds the cookie again is answered from the cache (`finishCachedRead`).

`readLockedSelected` reads only the packages of some names and puts them in place of those of the
inventory before. What it builds goes into the cache under the new cookie.

The database that a native read sees is an argument, or the error the read ended in. -/

namespace Dnfast.Native

open Except (refuseIf okOr)
open Core (Architecture DomainError EraseLookupError Evra InstalledInventory InstalledPackage
  Sha256Digest)
open Json (Value)

/-! ## Errors -/

inductive NativeError where
  | unsupportedAbi (component symbol : String)
  | interrupted
  | callbackFailed
  | nativeFailure (status : Int32) (message : String)
  | permissionDenied
  | lockTimeout
  deriving DecidableEq, Repr

/-- An identity that a transaction should leave: name, EVRA and vendor. -/
abbrev Identity := String ×ₗ Evra ×ₗ String

/-- The error of a journal write stands for its text, and lists of identities for theirs. -/
inductive InventoryError where
  | native (error : NativeError)
  | domain (error : DomainError)
  | architecture (arch : String)
  | staleInventory
  | unchangedCookie
  | postTransactionIdentity (expected actual : List Identity)
  | invalidState
  | tooLate
  | testFailed (result : Int32)
  | transactionPreflight (problems : List String)
  | potentiallyStateful (problems : List String) (journalError : Option InventoryError)
  | eraseIdentity (error : EraseLookupError)
  | headerDigest
  | problemList
  | journal (error : String)

/-! ## What the native layer returns -/

structure InventoryPackage where
  name : String
  version : String
  release : String
  arch : String
  vendor : String
  epoch : UInt32
  dbInstance : UInt64
  installTime : UInt64
  immutableHeaderSha256 : String
  deriving DecidableEq

structure Inventory where
  backend : String
  rpmVersion : String
  packages : List InventoryPackage
  deriving DecidableEq

structure InventoryRead where
  cookie : String
  inventory : Option Inventory

/-- The RPM database, as a read under one lock sees it. -/
structure Rpmdb where
  cookie : String
  inventory : Inventory
  deriving DecidableEq

/-- `limits.max_packages`, as `dnfast_limits_default` sets it. -/
def maxPackages : Nat := 2000000

namespace Rpmdb

/-- `dnfast_inventory_take_cookie`. -/
def takeCookie (db : Rpmdb) : Except NativeError String :=
  if db.cookie = "" then .error (.nativeFailure 7 "rpmdb cookie unavailable") else .ok db.cookie

/-- `finish_collection`, for the packages that the iterators returned. -/
def collected (db : Rpmdb) (packages : List InventoryPackage) : Except NativeError Inventory :=
  if packages.length > maxPackages then .error (.nativeFailure 3 "package limit exceeded")
  else if db.inventory.backend = "" then .error (.nativeFailure 7 "rpmdb backend unavailable")
  else .ok { db.inventory with packages }

/-- `read_inventory_cached` and `read_locked_inventory_cached`. -/
def readCached (db : Rpmdb) (expectedCookie : Option String) : Except NativeError InventoryRead := do
  let cookie ← db.takeCookie
  if expectedCookie = some cookie then .ok ⟨cookie, none⟩
  else do
    let inventory ← db.collected db.inventory.packages
    .ok ⟨cookie, some inventory⟩

/-- The names are in strictly ascending order. -/
def canonicalNames (names : List String) : Bool := names.zip names.tail |>.all fun (a, b) => a < b

/-- `c_string`. -/
def hasNul (name : String) : Bool := '\x00' ∈ name.toList

/-- `read_locked_inventory_selected`. -/
def readSelected (db : Rpmdb) (names : List String) : Except NativeError InventoryRead := do
  refuseIf (names = [] ∨ ¬ canonicalNames names)
    (.nativeFailure 1 "selected inventory names are not canonical")
  refuseIf (names.any hasNul) (.nativeFailure 1 "string contains NUL")
  let cookie ← db.takeCookie
  refuseIf (names.length > maxPackages) (.nativeFailure 3 "name limit exceeded")
  refuseIf ("" ∈ names) (.nativeFailure 1 "selected names are not canonical")
  let inventory ← db.collected
    (names.flatMap fun name => db.inventory.packages.filter (·.name = name))
  .ok ⟨cookie, some inventory⟩

end Rpmdb

/-! ## From native to canonical inventories -/

def architectureOf (arch : String) : Except InventoryError Architecture :=
  if arch = "aarch64" then .ok .aarch64
  else if arch = "x86_64" then .ok .x86_64
  else if arch = "noarch" then .ok .noarch
  else .error (.architecture arch)

def convertPackage (package : InventoryPackage) : Except InventoryError InstalledPackage := do
  let arch ← architectureOf package.arch
  (InstalledPackage.new package.name ⟨package.epoch, package.version, package.release, arch⟩
    package.vendor package.dbInstance package.installTime
    package.immutableHeaderSha256).mapError .domain

def convert (raw : Inventory) : Except InventoryError InstalledInventory := do
  let packages ← raw.packages.mapM convertPackage
  (InstalledInventory.new raw.backend raw.rpmVersion packages).mapError .domain

end Dnfast.Native

namespace Dnfast.Core

open Json (Value)

def InstalledPackage.toValue (p : InstalledPackage) : Value :=
  .obj [("db_instance", .num p.dbInstance.toNat), ("evra", p.evra.toValue),
    ("immutable_header_sha256", .str p.immutableHeaderSha256.asStr),
    ("install_time", .num p.installTime.toNat), ("name", .str p.name), ("vendor", .str p.vendor)]

def InstalledInventory.toValue (i : InstalledInventory) : Value :=
  .obj [("install_root", .str "/"), ("packages", .arr (i.packages.map InstalledPackage.toValue)),
    ("rpm_version", .str i.rpmVersion), ("rpmdb_backend", .str i.rpmdbBackend),
    ("schema_version", .num 1)]

instance : Serialize InstalledInventory := ⟨InstalledInventory.toValue⟩

end Dnfast.Core

namespace Dnfast.Native

open Except (refuseIf okOr)
open Core (InstalledInventory InstalledPackage)

/-! ## The cached inventory -/

structure CachedInventory where
  cookie : String
  inventory : InstalledInventory

structure InventorySnapshot where
  inventory : InstalledInventory
  rpmdbCookie : String

/-- The result of a read and what the cache holds after it. -/
abbrev Cached (α : Type) := Except InventoryError α × Option CachedInventory

def finishCachedRead (cache : Option CachedInventory) (read : InventoryRead) :
    Cached InstalledInventory :=
  match read.inventory with
  | some raw =>
    match convert raw with
    | .error e => (.error e, cache)
    | .ok inventory => (.ok inventory, some ⟨read.cookie, inventory⟩)
  | none =>
    match cache with
    | some cached =>
      if cached.cookie = read.cookie then (.ok cached.inventory, cache)
      else (.error .invalidState, cache)
    | none => (.error .invalidState, cache)

/-- A native read of the database with a cookie that may already be known. -/
def readThrough (db : Except NativeError Rpmdb) (expected : Option String)
    (cache : Option CachedInventory) : Cached (InventoryRead × InstalledInventory) :=
  match db.bind (·.readCached expected) with
  | .error e => (.error (.native e), cache)
  | .ok read =>
    let (inventory, cache) := finishCachedRead cache read
    (inventory.map fun inventory => (read, inventory), cache)

def readSnapshotFromContext (db : Except NativeError Rpmdb) (cache : Option CachedInventory) :
    Cached InventorySnapshot :=
  let (result, cache) := readThrough db (cache.map (·.cookie)) cache
  (result.map fun (read, inventory) => ⟨inventory, read.cookie⟩, cache)

def readLocked (db : Except NativeError Rpmdb) (cache : Option CachedInventory) :
    Cached InstalledInventory :=
  let (result, cache) := readThrough db (cache.map (·.cookie)) cache
  (result.map (·.2), cache)

def readLockedUncached (db : Except NativeError Rpmdb) (cache : Option CachedInventory) :
    Cached InstalledInventory :=
  let (result, cache) := readThrough db none cache
  (result.map (·.2), cache)

/-- The packages of `selected` put in place of those that `before` has under the changed names. -/
def mergeSelected (before selected : InstalledInventory) (changedNames : List String) :
    Except InventoryError InstalledInventory :=
  (InstalledInventory.new before.rpmdbBackend before.rpmVersion
    (before.packages.filter (·.name ∉ changedNames) ++ selected.packages)).mapError .domain

def selectedSnapshot (db : Except NativeError Rpmdb) (before : InstalledInventory)
    (changedNames : List String) : Except InventoryError InventorySnapshot := do
  refuseIf (changedNames = [] ∨ ¬ Rpmdb.canonicalNames changedNames) .invalidState
  let read ← (db.bind (·.readSelected changedNames)).mapError .native
  let selected ← convert (← okOr read.inventory .invalidState)
  refuseIf (selected.rpmdbBackend ≠ before.rpmdbBackend ∨ selected.rpmVersion ≠ before.rpmVersion)
    .invalidState
  refuseIf (selected.packages.any (·.name ∉ changedNames)) .invalidState
  let inventory ← mergeSelected before selected changedNames
  return ⟨inventory, read.cookie⟩

/-- `read_locked_selected`: what it builds is cached under the cookie just read. -/
def readLockedSelected (db : Except NativeError Rpmdb) (before : InstalledInventory)
    (changedNames : List String) (cache : Option CachedInventory) : Cached InventorySnapshot :=
  match selectedSnapshot db before changedNames with
  | .error e => (.error e, cache)
  | .ok snapshot => (.ok snapshot, some ⟨snapshot.rpmdbCookie, snapshot.inventory⟩)

end Dnfast.Native
