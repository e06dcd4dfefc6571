import Dnfast.Metadata.Xml

/-! # The parser of filelists

`dnfast-metadata`, `filelists.rs`: `parse_filelists`, which keeps the files of every package, and the
join of its result with the identities of primary. -/

namespace Dnfast.Metadata

def maxPackages : Nat := 2000000
def maxFilePaths : Nat := 50000000
def maxFilesPerPackage : Nat := 1000000
def maxXmlTextBytes : Nat := 1024 * 1024

structure FileListPackage where
  packageId : String
  name : String
  arch : String
  epoch : String
  version : String
  release : String
  files : List String
  deriving DecidableEq, Repr

/-- A package that is being read. -/
structure Builder where
  packageId : String
  name : String
  arch : String
  epoch : String := ""
  version : String := ""
  release : String := ""
  files : List String := []
  fileCount : Nat := 0
  deriving DecidableEq, Repr

/-- The state of the parser. `opened` are the elements that the reader has open. -/
structure State where
  opened : List (List UInt8) := []
  current : Option Builder := none
  fileText : Option String := none
  packages : List FileListPackage := []
  declared : Option Nat := none
  rootSeen : Bool := false
  rootClosed : Bool := false
  declarationSeen : Bool := false
  paths : Nat := 0
  deriving DecidableEq, Repr

def refuse (c : Prop) [Decidable c] (message : String) : Except MetadataError Unit :=
  Except.refuseIf c (.xml message)

/-- `char::is_control`. -/
def isControl (c : Char) : Bool := c.toNat < 32 || (127 ≤ c.toNat && c.toNat < 160)

/-- `char::is_whitespace`. -/
def isUnicodeWhitespace (c : Char) : Bool :=
  (9 ≤ c.toNat && c.toNat ≤ 13) || (8192 ≤ c.toNat && c.toNat ≤ 8202) ||
    [32, 133, 160, 5760, 8232, 8233, 8239, 8287, 12288].contains c.toNat

/-- The loop over the bytes of a path: the length of the segment, and whether it has only dots. -/
structure Segment where
  length : Nat
  isDots : Bool

def Segment.dots (s : Segment) : Bool := s.isDots && (s.length == 1 || s.length == 2)

def segmentByte (s : Segment) (b : UInt8) : Option Segment :=
  if b < 32 || b == 127 then none
  else if b = Byte.slash then
    if s.length == 0 || s.dots then none else some ⟨0, true⟩
  else some ⟨s.length + 1, s.isDots && b == 46⟩

def safeFilePath (value : String) : Bool :=
  match value.asBytes with
  | [] => false
  | first :: rest =>
    first == Byte.slash &&
      match rest.foldlM segmentByte ⟨0, true⟩ with
      | none => false
      | some s =>
        !s.dots && (value.toList.all (·.toNat < 128) || !value.toList.any isControl)

/-! ## Elements -/

def rejectNestedNamespaceDeclarations :
    List Attribute → List (List UInt8) → Except MetadataError Unit
  | [], _ => .ok ()
  | a :: rest, seen => do
    Except.refuseIf (a.key ∈ seen) .quickXml
    refuse (a.key = "xmlns".asBytes ∨ "xmlns:".asBytes <+: a.key)
      "nested filelists namespace declaration"
    rejectNestedNamespaceDeclarations rest (a.key :: seen)

def rejectPrefix (name : List UInt8) : Except MetadataError Unit :=
  refuse (58 ∈ name) "unexpected filelists namespace prefix"

section
variable (q : QuickXml)

def State.startRoot (s : State) (tag : Tag) : Except MetadataError State := do
  refuse (tag.name ≠ "filelists".asBytes) "unexpected filelists root or namespace"
  let xmlns ← attributeStreaming q "xmlns".asBytes tag.attributes []
  refuse (xmlns ≠ some "http://linux.duke.edu/metadata/filelists")
    "unexpected filelists root or namespace"
  let packages ← required q tag "packages"
  let declared ← parseNumber packages
  checkedLimit declared maxPackages "packages"
  return { s with declared := some declared, rootSeen := true }

def State.startPackage (s : State) (tag : Tag) : Except MetadataError State := do
  refuse s.current.isSome "nested filelists package"
  let packageId ← required q tag "pkgid"
  let name ← required q tag "name"
  let arch ← required q tag "arch"
  return { s with current := some { packageId, name, arch } }

def State.startFile (s : State) : Except MetadataError State := do
  refuse s.fileText.isSome "nested filelists file"
  return { s with fileText := some "" }

def State.startElement (s : State) (tag : Tag) : Except MetadataError State :=
  if tag.name = "package".asBytes then s.startPackage q tag
  else if tag.name = "file".asBytes ∧ s.current.isSome then s.startFile
  else .ok s

def State.start (s : State) (tag : Tag) : Except MetadataError State := do
  refuse s.rootClosed "content after filelists root"
  if s.rootSeen then
    rejectNestedNamespaceDeclarations tag.attributes []
    rejectPrefix tag.name
    s.startElement q tag
  else s.startRoot q tag

def State.version (s : State) (tag : Tag) : Except MetadataError State := do
  let package ← Except.okOr s.current (.xml "version outside filelists package")
  let epoch ← attributeStreaming q "epoch".asBytes tag.attributes []
  let version ← required q tag "ver"
  let release ← required q tag "rel"
  return { s with current := some { package with epoch := epoch.getD "0", version, release } }

def State.empty (s : State) (tag : Tag) : Except MetadataError State := do
  refuse (!s.rootSeen ∨ s.rootClosed) "element outside filelists root"
  rejectNestedNamespaceDeclarations tag.attributes []
  rejectPrefix tag.name
  if tag.name = "version".asBytes then s.version q tag else return s

def State.appendFileText (s : State) (value : String) : Except MetadataError State := do
  let file ← Except.okOr s.fileText (.xml "file text outside file")
  checkedLimit (file ++ value).utf8ByteSize maxXmlTextBytes "XML text"
  return { s with fileText := some (file ++ value) }

def State.finishFile (s : State) : Except MetadataError State := do
  let value ← Except.okOr s.fileText (.xml "file end without start")
  Except.refuseIf (!safeFilePath value) (.unsafeLocation value)
  let package ← Except.okOr s.current (.xml "file outside filelists package")
  let fileCount ← checkedIncrement package.fileCount maxFilesPerPackage "files per package"
  let paths ← checkedIncrement s.paths maxFilePaths "file paths"
  return { s with
    fileText := none
    current := some { package with fileCount, files := package.files ++ [value] }
    paths }

def Builder.finish (b : Builder) : FileListPackage :=
  ⟨b.packageId, b.name, b.arch, b.epoch, b.version, b.release, b.files⟩

def State.finishPackage (s : State) : Except MetadataError State := do
  refuse s.fileText.isSome "unclosed filelists file"
  let package ← Except.okOr s.current (.xml "package end without start")
  refuse (package.version = "" ∨ package.release = "") "filelists package missing version"
  return { s with current := none, packages := s.packages ++ [package.finish] }

def State.finishRoot (s : State) : Except MetadataError State := do
  refuse s.current.isSome "unclosed filelists package"
  return { s with rootClosed := true }

/-- `State::end`. -/
def State.close (s : State) (name : List UInt8) : Except MetadataError State := do
  refuse (!s.rootSeen ∨ s.rootClosed) "end element outside filelists root"
  if name = "file".asBytes then s.finishFile
  else if name = "package".asBytes then s.finishPackage
  else if name = "filelists".asBytes then s.finishRoot
  else return s

/-! ## The loop over the events -/

def State.outside (s : State) : Bool := !s.rootSeen || s.rootClosed

def State.text (s : State) (raw : List UInt8) : Except MetadataError State :=
  if s.fileText.isSome then do s.appendFileText (← decodeText q raw)
  else if s.outside then do
    let decoded ← decodeText q raw
    refuse (¬ decoded.toList.all isUnicodeWhitespace) "text outside filelists root"
    return s
  else .ok s

def State.content (s : State) : Except MetadataError State := do
  refuse s.outside "content outside filelists root"
  return s

def State.reference (s : State) (name : List UInt8) : Except MetadataError State :=
  if s.fileText.isSome then do s.appendFileText (← decodeReference q name) else s.content

def State.declaration (s : State) : Except MetadataError State := do
  refuse (s.rootSeen ∨ s.declarationSeen) "misplaced XML declaration or doctype"
  return { s with declarationSeen := true }

/-- An event of the reader. It checks that an end tag has the name of the element that is open. -/
def State.event (s : State) : Event → Except MetadataError State
  | .start tag => do
    let s ← s.start q tag
    return { s with opened := tag.name :: s.opened }
  | .empty tag => s.empty q tag
  | .close name _ => do
    Except.refuseIf (s.opened.head? ≠ some name) .quickXml
    { s with opened := s.opened.tail }.close name
  | .text raw => s.text q raw
  | .generalRef name => s.reference q name
  | .comment _ | .pi _ => .ok s
  | .cData _ => s.content
  | .decl _ => s.declaration
  | .docType _ => .error (.xml "misplaced XML declaration or doctype")

def State.finish (s : State) : Except MetadataError (List FileListPackage) := do
  refuse (!s.rootSeen ∨ !s.rootClosed) "incomplete filelists root"
  let declared ← Except.okOr s.declared (.xml "missing filelists package count")
  refuse (s.packages.length ≠ declared) ("filelists package count mismatch: declared " ++
    toString declared ++ ", parsed " ++ toString s.packages.length)
  return s.packages

def parseFilelists (d : Document) : Except MetadataError (List FileListPackage) := do
  let s ← d.events.foldlM (State.event q) {}
  s.finish

end

end Dnfast.Metadata
