import Dnfast.Core.Plan
import Dnfast.Data.Digits
import Dnfast.Data.Split
import Dnfast.Repo.Variables

/-! # The main configuration

`dnfast-repo`, `main_config.rs`: the lines of a configuration file, and the settings of `[main]`. -/

namespace Dnfast.Repo

structure MutationError where
  path : String
  line : Nat
  message : String
  deriving DecidableEq, Repr

/-! ## Lines -/

/-- `str::lines`. -/
def lines (text : String) : List (List Char) :=
  let pieces := text.toList.splitOn '\n'
  let ended := pieces.dropLast.map fun line =>
    if line.getLast? = some '\r' then line.dropLast else line
  ended ++ pieces.getLast?.toList.filter (· ≠ [])

/-- `str::trim`. -/
def trim (text : List Char) : List Char :=
  ((text.dropWhile Core.isWhitespace).reverse.dropWhile Core.isWhitespace).reverse

/-- `split_whitespace`. -/
def words (value : String) : List String :=
  ((value.toList.splitOnP Core.isWhitespace).filter (· ≠ [])).map String.ofList

def isKeyChar (c : Char) : Bool := isAsciiAlphanumeric c || c ∈ ['_', '.', '-']

/-- The line says nothing. -/
def isComment (line : List Char) : Bool :=
  line = [] || line.head? = some '#' || line.head? = some ';'

def MAX_FILE_BYTES : Nat := 1048576
def MAX_LINES : Nat := 4096
def MAX_LINE_BYTES : Nat := 65536

/-- The value of a boolean setting. -/
def booleanValue (value : String) : Option Bool :=
  let lower := String.ofList (value.toList.map Char.toLower)
  if lower ∈ ["1", "true", "yes", "on"] then some true
  else if lower ∈ ["0", "false", "no", "off"] then some false
  else none

section
variable (path : String)

def checkLimits (input : String) : Except MutationError Unit := do
  Except.refuseIf (input.utf8ByteSize > MAX_FILE_BYTES) ⟨path, 0, "configuration file exceeds 1 MiB"⟩
  Except.refuseIf ((lines input).length > MAX_LINES)
    ⟨path, MAX_LINES + 1, "configuration file exceeds 4096 lines"⟩
  match (lines input).findIdx? fun line => String.bytesOf line > MAX_LINE_BYTES with
  | some index => .error ⟨path, index + 1, "configuration line exceeds 64 KiB"⟩
  | none => .ok ()

variable (line : Nat)

def pair (input : List Char) : Except MutationError (String × String) := do
  let (key, value) ← Except.okOr (List.splitOnce ['='] input) ⟨path, line, "expected key=value"⟩
  let key := trim key
  Except.refuseIf (key = [] ∨ !key.all isKeyChar) ⟨path, line, "invalid mutation key"⟩
  Except.refuseIf (value.any fun c => c.toNat < 32 && c ≠ '\t')
    ⟨path, line, "invalid control byte in value"⟩
  return (String.ofList key, String.ofList (trim value))

def boolean (value : String) : Except MutationError Bool :=
  Except.okOr (booleanValue value) ⟨path, line, "invalid boolean"⟩

end

/-! ## Settings -/

structure MainConfig where
  reposdir : List String
  varsdir : List String
  installWeakDeps : Bool
  best : Bool
  excludepkgs : List String
  includepkgs : List String
  protectedPackages : List String
  installonlypkgs : List String
  installonlyLimit : UInt32
  deriving DecidableEq

/-- An empty value empties the list. -/
def resetOrAppend (target : List String) (value : String) : List String :=
  if value = "" then [] else target ++ words value

/-- `str::parse` of an unsigned number below the bound. -/
def parseUnsigned (bound : Nat) (value : String) : Option Nat :=
  let digits := match value.toList with
    | '+' :: rest => rest
    | digits => digits
  if digits ≠ [] ∧ digits.all Char.isDigit then
    let n := Nat.ofNumeral 10 (digits.map fun c => c.toNat - '0'.toNat)
    if n < bound then some n else none
  else none

def applyMainValue (path : String) (line : Nat) (result : MainConfig) (key value : String) :
    Except MutationError MainConfig :=
  match key with
  | "reposdir" => .ok { result with reposdir := resetOrAppend result.reposdir value }
  | "varsdir" => .ok { result with varsdir := resetOrAppend result.varsdir value }
  | "install_weak_deps" => do
    let installWeakDeps ← boolean path line value
    return { result with installWeakDeps }
  | "best" => do
    let best ← boolean path line value
    return { result with best }
  | "excludepkgs" => .ok { result with excludepkgs := resetOrAppend result.excludepkgs value }
  | "includepkgs" => .ok { result with includepkgs := resetOrAppend result.includepkgs value }
  | "protected_packages" =>
    .ok { result with protectedPackages := resetOrAppend result.protectedPackages value }
  | "installonlypkgs" =>
    .ok { result with installonlypkgs := resetOrAppend result.installonlypkgs value }
  | "installonly_limit" => do
    let parsed ← Except.okOr (parseUnsigned UInt32.size value)
      ⟨path, line, "invalid installonly_limit"⟩
    Except.refuseIf (parsed = 1) ⟨path, line, "installonly_limit must be 0 or at least 2"⟩
    return { result with installonlyLimit := UInt32.ofNat parsed }
  | _ => .error ⟨path, line, "unsupported mutation key: " ++ key⟩

end Dnfast.Repo
