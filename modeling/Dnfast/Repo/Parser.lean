import Dnfast.Repo.Profile

/-! # Repository files as a refresh reads them

`dnfast-repo`, `parser.rs` and `refresh_policy.rs`: the same file as the profile, read leniently. -/

namespace Dnfast.Repo

open Except (refuseIf okOr)

/-- `RepoError::Parse`. -/
structure ParseError where
  path : String
  line : Nat
  message : String
  deriving DecidableEq, Repr

/-- `to_ascii_lowercase`. -/
def asciiLowercase (text : String) : String := String.ofList (text.toList.map Char.toLower)

/-! ## Repositories -/

inductive SourceKind where
  | baseUrl
  | metalink
  | mirrorlist
  deriving DecidableEq, Repr

structure Repository where
  id : String
  enabled : Bool
  baseurls : List String
  metalink : Option String
  mirrorlist : Option String
  origin : String
  deriving DecidableEq, Repr

def Repository.sources (r : Repository) : List (SourceKind × String) :=
  r.baseurls.map (.baseUrl, ·) ++ r.metalink.toList.map (.metalink, ·) ++
    r.mirrorlist.toList.map (.mirrorlist, ·)

def Repository.selectedSource (r : Repository) : Option (SourceKind × String) := r.sources.head?

structure RepositoryBuilder where
  repository : Repository
  sectionLine : Nat

/-- The parser between two lines. -/
structure ParserState where
  repositories : List Repository := []
  current : Option RepositoryBuilder := none

section
variable (path : String)

def finishRepository (current : Option RepositoryBuilder) (repositories : List Repository) :
    Except ParseError (List Repository) :=
  match current with
  | none => .ok repositories
  | some current => do
    refuseIf (current.repository.enabled ∧ current.repository.selectedSource = none)
      ⟨path, current.sectionLine, "enabled repository has no source"⟩
    refuseIf (∃ r ∈ repositories, r.id = current.repository.id)
      ⟨path, current.sectionLine, "duplicate repository id: " ++ current.repository.id⟩
    return repositories ++ [current.repository]

def parseSection (number : Nat) (line : List Char) (s : ParserState) :
    Except ParseError ParserState := do
  refuseIf (line.getLast? ≠ some ']') ⟨path, number, "malformed repository section"⟩
  let id := String.ofList (sectionName line)
  refuseIf (id = "") ⟨path, number, "repository id cannot be empty"⟩
  let repositories ← finishRepository path s.current s.repositories
  return ⟨repositories, some ⟨⟨id, true, [], none, none, path⟩, number⟩⟩

/-- What a setting makes of the repository. Others than these are ignored. -/
def setRepository (number : Nat) (r : Repository) (key value : String) :
    Except ParseError Repository :=
  match key with
  | "enabled" => do
    let enabled ← okOr (booleanValue value)
      ⟨path, number, "invalid boolean for enabled: " ++ value⟩
    return { r with enabled }
  | "baseurl" => .ok { r with baseurls := r.baseurls ++ words value }
  | "metalink" => .ok { r with metalink := nonempty value }
  | "mirrorlist" => .ok { r with mirrorlist := nonempty value }
  | _ => .ok r

def parseKey (number : Nat) (line : List Char) (s : ParserState) : Except ParseError ParserState := do
  let current ← okOr s.current ⟨path, number, "key outside repository section"⟩
  let (key, value) ← okOr (List.splitOnce ['='] line) ⟨path, number, "expected key=value"⟩
  let repository ← setRepository path number current.repository
    (asciiLowercase (String.ofList (trim key))) (String.ofList (trim value))
  return { s with current := some { current with repository } }

def parseLine (s : ParserState) (raw : List Char × Nat) : Except ParseError ParserState :=
  let line := trim raw.1
  if isComment line then .ok s
  else if line.head? = some '[' then parseSection path (raw.2 + 1) line s
  else parseKey path (raw.2 + 1) line s

def parseRepositoryFile (input : String) : Except ParseError (List Repository) := do
  let s ← (lines input).zipIdx.foldlM (parseLine path) {}
  finishRepository path s.current s.repositories

end

/-! ## The refresh policy -/

structure RefreshPolicy where
  skipIfUnavailable : Bool
  deriving DecidableEq, Repr

/-- The parser between two lines: whether it is in the section of the repository. -/
structure PolicyState where
  selected : Bool := false
  skip : Bool := false
  deriving DecidableEq, Repr

section
variable (path : String) (id : String)

def policyBoolean (number : Nat) (value : String) : Except ParseError Bool :=
  okOr (booleanValue value) ⟨path, number, "invalid refresh policy boolean"⟩

def setPolicy (number : Nat) (s : PolicyState) (key value : String) : Except ParseError PolicyState :=
  match key with
  | "skip_if_unavailable" => do
    let skip ← policyBoolean path number value
    return { s with skip }
  | "sslverify" => do
    let on ← policyBoolean path number value
    refuseIf (!on) ⟨path, number, "sslverify=false is forbidden"⟩
    return s
  | "proxy" => do
    refuseIf (¬ (value = "" ∨ value = "_none_"))
      ⟨path, number, "proxy is unsupported for secure refresh"⟩
    return s
  | _ => .ok s

def policyLine (s : PolicyState) (raw : List Char × Nat) : Except ParseError PolicyState :=
  let line := trim raw.1
  if line.head? = some '[' ∧ line.getLast? = some ']' then
    .ok { s with selected := String.ofList (sectionName line) = id }
  else if !s.selected || isComment line then .ok s
  else
    match List.splitOnce ['='] line with
    | none => .ok s
    | some (key, value) =>
      setPolicy path (raw.2 + 1) s (asciiLowercase (String.ofList (trim key)))
        (String.ofList (trim value))

def parseRefreshPolicy (input : String) : Except ParseError RefreshPolicy := do
  let s ← (lines input).zipIdx.foldlM (policyLine path id) {}
  return ⟨s.skip⟩

end

end Dnfast.Repo
