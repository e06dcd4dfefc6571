import Dnfast.Metadata.Filelists
import Dnfast.Planning.FileProviders
import Dnfast.Solver.Relation

/-! # The records of metadata

`dnfast-metadata`: what `repomd.xml` says of the other documents, and the packages of primary in the
three forms in which they are kept. -/

namespace Dnfast.Metadata

open Planning.LazyIndex (PrimaryPackageIdentity)

structure MetadataRecord where
  href : String
  checksum : String
  size : UInt64
  openChecksum : String
  openSize : UInt64
  deriving DecidableEq

structure AuxiliaryRecord where
  href : String
  checksum : String
  size : UInt64
  deriving DecidableEq

structure RepomdRecords where
  primary : MetadataRecord
  filelists : MetadataRecord
  group : Option AuxiliaryRecord
  modules : Option AuxiliaryRecord
  updateinfo : Option AuxiliaryRecord
  deriving DecidableEq

/-- A package as the search index has it. -/
structure Package where
  name : String
  arch : String
  epoch : String
  version : String
  release : String
  summary : String
  deriving DecidableEq

structure CompletePackage where
  name : String
  arch : String
  epoch : String
  version : String
  release : String
  summary : String
  checksum : String
  location : String
  description : String
  vendor : String
  buildHost : String
  sourceRpm : String
  packageSize : UInt64
  installedSize : UInt64
  archiveSize : UInt64
  buildTime : UInt64
  provides : List Solver.Relation
  requires : List Solver.Relation
  recommends : List Solver.Relation
  suggests : List Solver.Relation
  supplements : List Solver.Relation
  enhances : List Solver.Relation
  conflicts : List Solver.Relation
  obsoletes : List Solver.Relation
  files : List String
  deriving DecidableEq

/-- A path by its digest, with the ordinal of its package. -/
abbrev PrimaryFileRecord := List UInt8 ×ₗ Nat

structure ValidatedPrimary where
  packages : List Package
  identities : List PrimaryPackageIdentity
  primaryFiles : List PrimaryFileRecord

def searchPackage (record : CompletePackage) : Package :=
  ⟨record.name, record.arch, record.epoch, record.version, record.release, record.summary⟩

def primaryIdentity (record : CompletePackage) : PrimaryPackageIdentity :=
  ⟨record.checksum, record.name, record.arch, record.epoch, record.version, record.release⟩

/-- `primary_file_records` of `dnfast-cache`. -/
def primaryFileRecords (crates : Planning.Crates) (records : List CompletePackage) :
    List PrimaryFileRecord :=
  Planning.primaryFileRecords crates (records.map fun r => ⟨primaryIdentity r, r.files⟩)

/-- The parsers of the documents, on bytes. -/
structure Parsers where
  parseRepomd : List UInt8 → Except String MetadataRecord
  parseRepomdRecords : List UInt8 → Except String RepomdRecords
  decodePrimary : List UInt8 → MetadataRecord → Except String (List UInt8)
  parsePrimary : List UInt8 → Except String (List Package)
  decodeRecord : List UInt8 → MetadataRecord → Except String (List UInt8)
  parsePrimaryRecords : List UInt8 → Except String (List CompletePackage)
  parseFilelistsRecord : List UInt8 → MetadataRecord → Except String (List FileListPackage)
  validateFilelistsGeneration : List CompletePackage → List FileListPackage → Except String Unit
  validatePrimaryRecord : List UInt8 → MetadataRecord → Except String ValidatedPrimary
  validateFilelistsRecordIdentities : List UInt8 → MetadataRecord → List PrimaryPackageIdentity →
    Except String Unit

end Dnfast.Metadata
