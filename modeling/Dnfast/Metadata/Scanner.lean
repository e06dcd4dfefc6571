import Mathlib.Data.String.Basic
import Dnfast.Data.SortDedup
import Dnfast.Metadata.Filelists

/-! # The scanner for one path

`dnfast-metadata`, `filelists.rs`: `scan_validated_filelists_xml_path`. It goes over the bytes of a
document that the parser has accepted, in the pieces that the reader returns, and looks for the
packages that have one path. -/

namespace Dnfast.Metadata

inductive LexicalState
  | text
  | tag
  | comment
  | processingInstruction
  deriving DecidableEq, Repr

structure ValidatedPathScanner where
  target : String
  tag : List UInt8 := []
  file : List UInt8 := []
  fileLength : Nat := 0
  fileMatches : Bool := true
  fileComplex : Bool := false
  packageId : Option String := none
  providers : List String := []
  fileActive : Bool := false
  state : LexicalState := .text
  quote : Option UInt8 := none
  deriving DecidableEq, Repr

/-- `bytes.get(start..stop)`. -/
def get (bytes : List UInt8) (start stop : Nat) : Option (List UInt8) :=
  if start ≤ stop ∧ stop ≤ bytes.length then some ((bytes.drop start).take (stop - start)) else none

def tagName (tag expected : List UInt8) : Bool :=
  expected.isPrefixOf tag && match tag[expected.length]? with
    | none => true
    | some b => Byte.isWhitespace b || b == Byte.slash || b == Byte.gt

/-- `tag.strip_prefix(b"/").is_some_and(|tag| tag_name(tag, expected))`. -/
def closingTagName (tag expected : List UInt8) : Bool :=
  match tag with
  | b :: rest => b == Byte.slash && tagName rest expected
  | [] => false

/-- The text of `tag` that stands before the byte that ended it. -/
def stripGt (tag : List UInt8) : List UInt8 :=
  if tag.getLast? = some Byte.gt then tag.dropLast else tag

section
variable (q : QuickXml)

/-- The loop over the attributes of a tag. Every turn reads one, so the fuel is the length of the
text. -/
def rawAttributeFrom (expected : List UInt8) : Nat → List UInt8 → Except MetadataError String
  | 0, _ | _, [] => .error (.xml "missing required attribute")
  | fuel + 1, rest@(_ :: _) => do
    let rest := rest.dropWhile Byte.isWhitespace
    let name := rest.takeWhile fun b => !Byte.isWhitespace b && b != Byte.equals
    let rest := rest.dropWhile fun b => !Byte.isWhitespace b && b != Byte.equals
    let rest := rest.dropWhile Byte.isWhitespace
    refuse (rest.head? ≠ some Byte.equals) "invalid package attribute"
    let rest := rest.tail.dropWhile Byte.isWhitespace
    let quote ← Except.okOr (rest.head?.filter Byte.isQuote) (.xml "unquoted package attribute")
    let raw := rest.tail.takeWhile (· != quote)
    let rest := (rest.tail.dropWhile (· != quote)).tail
    if name = expected then Except.okOr (decodeRaw q raw) .quickXml
    else rawAttributeFrom expected fuel rest

def requiredRawAttribute (tag expected : List UInt8) : Except MetadataError String :=
  match tag.dropWhile fun b => !Byte.isWhitespace b with
  | [] => .error (.xml "package attributes are absent")
  | rest => rawAttributeFrom q expected rest.length rest

namespace ValidatedPathScanner

def beginFile (s : ValidatedPathScanner) : ValidatedPathScanner :=
  { s with file := [], fileLength := 0, fileMatches := true, fileComplex := false, fileActive := true }

def fileMatched (s : ValidatedPathScanner) : Except MetadataError Bool :=
  if s.fileComplex then do
    let raw ← Except.okOr (String.ofBytes? s.file) .quickXml
    let value ← Except.okOr (unescape q raw) .quickXml
    return value == s.target
  else .ok (s.fileMatches && s.fileLength == s.target.utf8ByteSize)

def addProvider (s : ValidatedPathScanner) : Except MetadataError ValidatedPathScanner := do
  let packageId ← Except.okOr s.packageId (.xml "file outside filelists package")
  return { s with providers := s.providers ++ [packageId] }

def endFile (s : ValidatedPathScanner) : Except MetadataError ValidatedPathScanner :=
  if s.fileActive then do
    let matched ← s.fileMatched q
    let s ← if matched then s.addProvider else .ok s
    return { s with fileActive := false }
  else .ok s

/-- The first reference of a path: what stands before it has to begin the target. -/
def pushReference (s : ValidatedPathScanner) (previousLength : Nat) (before rest : List UInt8) :
    ValidatedPathScanner :=
  let prefixEnd := previousLength + before.length
  let fileMatches := get s.target.asBytes previousLength prefixEnd == some before
  if !fileMatches || prefixEnd > s.target.utf8ByteSize then { s with fileMatches }
  else { s with
    fileMatches
    fileComplex := true
    file := s.file ++ s.target.asBytes.take prefixEnd ++ rest }

def pushFileBytes (s : ValidatedPathScanner) (bytes : List UInt8) :
    Except MetadataError ValidatedPathScanner := do
  let previousLength := s.fileLength
  Except.refuseIf (previousLength + bytes.length ≥ 2 ^ 64) (.xml "file path length overflow")
  checkedLimit (previousLength + bytes.length) maxXmlTextBytes "XML text"
  let s := { s with fileLength := previousLength + bytes.length }
  if s.fileComplex then return { s with file := s.file ++ bytes }
  else if !s.fileMatches then return s
  else if Byte.amp ∈ bytes then
    return s.pushReference previousLength (bytes.takeWhile (· != Byte.amp))
      (bytes.dropWhile (· != Byte.amp))
  else return { s with
    fileMatches := get s.target.asBytes previousLength s.fileLength == some bytes }

def finishTag (s : ValidatedPathScanner) : Except MetadataError ValidatedPathScanner :=
  let tag := stripGt s.tag
  if tagName tag "package".asBytes then do
    let packageId ← requiredRawAttribute q tag "pkgid".asBytes
    return { s with packageId := some packageId }
  else if closingTagName tag "package".asBytes then .ok { s with packageId := none }
  else if tagName tag "file".asBytes then .ok s.beginFile
  else if closingTagName tag "file".asBytes then s.endFile q
  else .ok s

/-- A byte inside a tag, after it was added to the tag. -/
def tagByte (s : ValidatedPathScanner) (byte : UInt8) :
    Except MetadataError ValidatedPathScanner :=
  if s.tag = "!--".asBytes then .ok { s with state := .comment }
  else if s.tag = "?".asBytes then .ok { s with state := .processingInstruction }
  else match s.quote with
    | some quote => .ok (if byte = quote then { s with quote := none } else s)
    | none =>
      if Byte.isQuote byte then .ok { s with quote := some byte }
      else if byte = Byte.gt then do
        let s ← s.finishTag q
        return { s with state := .text }
      else .ok s

def pushByte (s : ValidatedPathScanner) (byte : UInt8) :
    Except MetadataError ValidatedPathScanner :=
  let s := { s with tag := s.tag ++ [byte] }
  match s.state with
  | .text => .ok s
  | .tag => s.tagByte q byte
  | .comment => .ok (if "-->".asBytes <:+ s.tag then { s with state := .text } else s)
  | .processingInstruction => .ok (if "?>".asBytes <:+ s.tag then { s with state := .text } else s)

/-- Text up to the next tag. -/
def pushText (s : ValidatedPathScanner) (text : List UInt8) :
    Except MetadataError ValidatedPathScanner :=
  if s.fileActive ∧ text ≠ [] then s.pushFileBytes text else .ok s

def beginTag (s : ValidatedPathScanner) : ValidatedPathScanner :=
  { s with tag := [], quote := none, state := .tag }

/-- The loop of `push`. Every turn takes a byte at least, so the fuel is the length of the bytes. -/
def pushFrom : Nat → ValidatedPathScanner → List UInt8 → Except MetadataError ValidatedPathScanner
  | 0, s, _ | _, s, [] => .ok s
  | fuel + 1, s, byte :: rest =>
    if s.state = .text then do
      let s ← s.pushText ((byte :: rest).takeWhile (· != Byte.lt))
      match (byte :: rest).dropWhile (· != Byte.lt) with
      | [] => return s
      | _ :: tag =>
        let s := s.beginTag
        if "file>".asBytes.isPrefixOf tag then
          pushFrom fuel { s.beginFile with state := .text } (tag.drop 5)
        else if "/file>".asBytes.isPrefixOf tag then do
          let s ← s.endFile q
          pushFrom fuel { s with state := .text } (tag.drop 6)
        else pushFrom fuel s tag
    else do
      let s ← s.pushByte q byte
      pushFrom fuel s rest

def push (s : ValidatedPathScanner) (bytes : List UInt8) :
    Except MetadataError ValidatedPathScanner :=
  s.pushFrom q bytes.length bytes

def finish (s : ValidatedPathScanner) : Except MetadataError (List String) := do
  refuse (s.state ≠ .text ∨ s.fileActive ∨ s.packageId.isSome)
    "validated filelists scan ended inside an element"
  return s.providers.sortDedup

end ValidatedPathScanner

/-- `chunks` are the pieces in which the reader returns the document. -/
def scanValidatedFilelistsXmlPath (chunks : List (List UInt8)) (target : String) :
    Except MetadataError (List String) := do
  let s ← chunks.foldlM (ValidatedPathScanner.push q) { target }
  s.finish

end

end Dnfast.Metadata
