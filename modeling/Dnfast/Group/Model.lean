import Mathlib.Data.String.Basic
import Dnfast.Data.SortDedup
import Dnfast.Json.Parse
import Dnfast.State.Store

/-! # Installed package groups

`group.rs` of `dnfast-state`, without its file: the group state, its validation, the two mutations
of it, and the settlement of pending mutations against the transaction journal.

A `BTreeMap` is an `ExtTreeMap`, whose `toList` lists the entries in the order of their keys. A
`BTreeSet` that is only asked for its members is the list it is collected from. `sort` followed by
`dedup` is `List.sortDedup`. -/

namespace Dnfast.Group

open Std (ExtTreeMap)
open Dnfast.State (StateError TransactionId JournalEntry Root validateDigest loadEntries)
open Dnfast.Core (canonicalEncode)
open Json (Value)

def maxStateBytes : Nat := 8 * 1024 * 1024
def maxGroups : Nat := 4096
def maxPackages : Nat := 65536
def maxPending : Nat := 128

structure GroupRecord where
  id : String
  ownedPackages : List String

inductive MutationKind where
  | install
  | remove
  deriving DecidableEq, Repr

/-- Group ids with the packages of each. -/
abbrev GroupMap := ExtTreeMap String (List String)

/-- The packages of all groups of a map. -/
def packagesOf (groups : GroupMap) : List String := groups.toList.flatMap Prod.snd

structure PendingMutation where
  planSha256 : String
  kind : MutationKind
  groups : GroupMap
  introducedPackages : List String
  seenTransactionIds : List String
  deriving DecidableEq

structure GroupState where
  schemaVersion : UInt32
  groups : GroupMap
  introducedPackages : List String
  pending : List PendingMutation
  deriving DecidableEq

/-- `GroupState::default`. -/
def GroupState.default : GroupState := ⟨2, ∅, [], []⟩

/-! ## JSON forms, members in the order of their keys -/

def strings (values : List String) : Value := .arr (values.map .str)

def groupsValue (groups : GroupMap) : Value :=
  .obj (groups.toList.map fun (id, packages) => (id, strings packages))

def MutationKind.toValue : MutationKind → Value
  | .install => .str "install"
  | .remove => .str "remove"

/-- `introduced_packages`, which is left out when it is empty. -/
def introducedMember (packages : List String) : List (String × Value) :=
  if packages.isEmpty then [] else [("introduced_packages", strings packages)]

def PendingMutation.toValue (m : PendingMutation) : Value :=
  .obj (("groups", groupsValue m.groups) :: (introducedMember m.introducedPackages ++
    [("kind", m.kind.toValue), ("plan_sha256", .str m.planSha256),
     ("seen_transaction_ids", strings m.seenTransactionIds)]))

def GroupState.toValue (s : GroupState) : Value :=
  .obj (("groups", groupsValue s.groups) :: (introducedMember s.introducedPackages ++
    [("pending", .arr (s.pending.map PendingMutation.toValue)),
     ("schema_version", .num s.schemaVersion.toNat)]))

instance : Core.Serialize GroupState := ⟨GroupState.toValue⟩

/-! ## Validation -/

def validId (value : String) : Bool :=
  !value.isEmpty && decide (value.utf8ByteSize ≤ 4096) &&
    value.toList.all fun c => c.isAlphanum || ['+', '.', '_', '-'].contains c

def validateId (value : String) : Except StateError Unit :=
  if validId value then .ok () else .error (.corrupt "invalid group or package identifier")

/-- No two neighbours are out of order. -/
def strictlyAscending : List String → Bool
  | a :: b :: rest => decide (a < b) && strictlyAscending (b :: rest)
  | _ => true

def validateSortedIds (values : List String) : Except StateError Unit :=
  if !strictlyAscending values then .error (.corrupt "identifiers are not canonical")
  else values.forM validateId

def validateIds (values : List String) : Except StateError Unit := validateSortedIds values

/-- The entries of a map, each an id with a sorted list of ids. -/
def validateGroups (groups : GroupMap) : Except StateError Unit :=
  groups.toList.forM fun (id, packages) => do
    validateId id
    validateSortedIds packages

def GroupMap.packageCount (groups : GroupMap) : Nat :=
  (groups.toList.map fun x => x.2.length).sum

def GroupState.packageCount (s : GroupState) : Nat :=
  GroupMap.packageCount s.groups + s.introducedPackages.length +
    (s.pending.map fun m => GroupMap.packageCount m.groups).sum +
    (s.pending.map fun m => m.introducedPackages.length).sum

def validateMutation (m : PendingMutation) : Except StateError Unit := do
  validateDigest m.planSha256
  if m.groups.isEmpty then .error (.corrupt "empty pending group mutation")
  else do
    validateGroups m.groups
    validateSortedIds m.introducedPackages
    if (m.kind = .remove ∧ !m.introducedPackages.isEmpty) ∨
        m.introducedPackages.any fun package => !(packagesOf m.groups).contains package then
      .error (.corrupt "invalid introduced packages in pending group mutation")
    else if !strictlyAscending m.seenTransactionIds then
      .error (.corrupt "noncanonical pending transaction ids")
    else .ok ()

def validateState (s : GroupState) : Except StateError Unit :=
  if s.schemaVersion ≠ 2 ∨ s.groups.size > maxGroups ∨ s.pending.length > maxPending then
    .error (.corrupt "invalid group state bounds")
  else if s.packageCount > maxPackages then .error (.limit "group packages")
  else do
    validateGroups s.groups
    validateSortedIds s.introducedPackages
    if s.introducedPackages.any fun package => !(packagesOf s.groups).contains package then
      .error (.corrupt "introduced package has no installed group owner")
    else s.pending.forM validateMutation

/-! ## Mutations -/

/-- The loop of `canonical_records`. -/
def collectRecords : List GroupRecord → GroupMap → Except StateError GroupMap
  | [], result => .ok result
  | record :: records, result => do
    validateId record.id
    let packages := record.ownedPackages.sortDedup
    if packages.any (fun package => !validId package) ∨ record.id ∈ result then
      .error (.corrupt "invalid group record")
    else collectRecords records (result.insert record.id packages)

def canonicalRecords (records : List GroupRecord) : Except StateError GroupMap :=
  collectRecords records ∅

/-- One turn of the loop of `apply_install`. -/
def addGroup (groups : GroupMap) (id : String) (packages : List String) : GroupMap :=
  groups.insert id ((groups[id]?.getD []) ++ packages).sortDedup

def applyInstall (s : GroupState) (groups : GroupMap) (introducedPackages : List String) :
    GroupState :=
  { s with
    groups := groups.toList.foldl (fun owned (id, packages) => addGroup owned id packages) s.groups
    introducedPackages := (s.introducedPackages ++ introducedPackages).sortDedup }

/-- The packages of the groups that stay when `ids` are removed. -/
def retainedPackages (groups : GroupMap) (ids : List String) : List String :=
  (groups.toList.filter fun x => !ids.contains x.1).flatMap Prod.snd

/-- The packages of the groups `ids`. -/
def removedPackages (groups : GroupMap) (ids : List String) : List String :=
  (groups.toList.filter fun x => ids.contains x.1).flatMap Prod.snd

def applyRemove (s : GroupState) (ids : List String) : GroupState :=
  let retained := retainedPackages s.groups ids
  let released := (removedPackages s.groups ids).filter fun package => !retained.contains package
  { s with
    introducedPackages := s.introducedPackages.filter fun package => !released.contains package
    groups := ids.foldl (fun groups id => groups.erase id) s.groups }

/-- The list that `packages_to_remove` returns. `introduced_packages` is sorted, so its binary
search finds exactly its members. -/
def removablePackages (s : GroupState) (ids : List String) : List String :=
  let retained := retainedPackages s.groups ids
  ((removedPackages s.groups ids).filter fun package =>
    !retained.contains package && s.introducedPackages.contains package).sortDedup

def migrate (s : GroupState) : Except StateError GroupState :=
  if s.schemaVersion = 1 then
    .ok { s with
      introducedPackages := (packagesOf s.groups).sortDedup
      pending := s.pending.map fun m =>
        if m.kind = .install then { m with introducedPackages := (packagesOf m.groups).sortDedup }
        else m
      schemaVersion := 2 }
  else if s.schemaVersion = 2 then .ok s
  else .error (.corrupt "unsupported group state schema")

/-! ## Settlement against the journal -/

/-- The transaction journal as `reconcile_locked` sees it: the transactions in the order of their
ids, and the records of each, read when they are needed. -/
structure JournalView where
  ids : Except StateError (List TransactionId)
  load : TransactionId → Except StateError (List JournalEntry)

/-- The view of the journal in the directory `r`. -/
def JournalView.ofRoot (fromSlice : List UInt8 → Except String JournalEntry) (euid : UInt32)
    (r : Root) : JournalView where
  ids := State.transactionIds r
  load id := do
    let d ← Root.openTransaction euid id.asStr r
    loadEntries fromSlice euid d

/-- The records of a transaction have a native result with return code 0, and the last one a
successful reconciliation. -/
def succeeded (entries : List JournalEntry) (last : JournalEntry) : Bool :=
  (entries.any fun entry => entry.state = .rpmResult &&
    entry.nativeResult.any fun result => result.returnCode = 0) &&
  last.reconciliation.any fun result => result.success

/-- What the records of one transaction say about a plan: nothing, or that it has ended and
whether it succeeded. -/
def verdict (planSha256 : String) (entries : List JournalEntry) : Option Bool :=
  if entries.head?.map (·.planSha256) ≠ some planSha256 then none
  else
    match entries.getLast? with
    | none => none
    | some last => if last.state ≠ .reconciled then none else some (succeeded entries last)

/-- The inner loop of `reconcile_locked`: the verdict of the first transaction that has one. -/
def terminal (load : TransactionId → Except StateError (List JournalEntry))
    (m : PendingMutation) : List TransactionId → Except StateError (Option Bool)
  | [] => .ok none
  | id :: ids =>
    if m.seenTransactionIds.contains id.asStr then terminal load m ids
    else do
      let entries ← load id
      match verdict m.planSha256 entries with
      | some success => .ok (some success)
      | none => terminal load m ids

def PendingMutation.apply (m : PendingMutation) (s : GroupState) : GroupState :=
  match m.kind with
  | .install => applyInstall s m.groups m.introducedPackages
  | .remove => applyRemove s m.groups.keys

/-- What the outer loop of `reconcile_locked` carries. -/
structure Settling where
  state : GroupState
  retained : List PendingMutation
  changed : Bool

/-- One turn of the outer loop. -/
def Settling.step (x : Settling) (m : PendingMutation) : Option Bool → Settling
  | some true => { x with state := m.apply x.state, changed := true }
  | some false => { x with changed := true }
  | none => { x with retained := x.retained ++ [m] }

/-- The outer loop of `reconcile_locked`. -/
def settle (load : TransactionId → Except StateError (List JournalEntry))
    (ids : List TransactionId) : List PendingMutation → Settling → Except StateError Settling
  | [], x => .ok x
  | m :: rest, x => do
    let result ← terminal load m ids
    settle load ids rest (x.step m result)

/-- `reconcile_locked` between the reading of the state and the writing of it: the new state, and
whether it has to be written. -/
def reconcileState (journal : JournalView) (s : GroupState) :
    Except StateError (GroupState × Bool) := do
  let ids ← journal.ids
  let x ← settle journal.load ids s.pending ⟨{ s with pending := [] }, [], false⟩
  let state := { x.state with pending := x.retained }
  validateState state
  .ok (state, x.changed)

end Dnfast.Group
