import Dnfast.Planning.Model
import Dnfast.Repo.Profile

/-! # Key bundles

`dnfast-repo`, `trust.rs`: where the keys of a repository may lie, the digest over them, and the
fingerprints of their certificates. What the key files hold, and what `sha2` and `sequoia_openpgp`
compute, is a parameter. -/

namespace Dnfast.Repo

open Except (refuseIf okOr)

def MAX_KEY_FILES : Nat := 256

/-- A trusted directory of keys. -/
inductive KeyLocation where
  | repository
  | system
  deriving DecidableEq, Repr

/-- What is outside: the bytes of a key file, when its owner, its mode and its size are accepted, the
digest, and the fingerprints of the certificates in a file, of which one may not be readable. -/
structure KeyHost where
  readKey : KeyLocation → String → Option (List UInt8)
  sha256 : List UInt8 → List UInt8
  certificates : List UInt8 → Option (List (Option String))

structure KeyBundle where
  paths : List String
  digest : List UInt8
  certificates : List (List UInt8)
  deriving DecidableEq

/-- The error of a key or of a location that is not accepted. -/
def keyError (message : String) : MutationError := ⟨"<gpgkey>", 0, message⟩

/-! ## Locations -/

/-- `Path::components` of an absolute path. -/
def pathParts (path : List Char) : List (List Char) :=
  (path.splitOn '/').filter fun part => part ≠ [] && part ≠ ['.']

/-- The path is absolute and has no `..`. -/
def isCanonical (path : List Char) : Bool :=
  path.head? = some '/' && !(pathParts path).contains ['.', '.']

/-- The location before the check that it is absolute. -/
def locationPath (value : List Char) : Except MutationError (List Char) :=
  match value.dropPrefix? "file:///".toList with
  | some suffix =>
    if suffix = [] ∨ suffix.head? = some '/' then .error (keyError "gpgkey file URI is invalid")
    else .ok ('/' :: suffix)
  | none =>
    if "file:".toList <+: value ∨ "://".toList <:+: value then
      .error (keyError "gpgkey is not a local file URI")
    else .ok value

def normalizeGpgkeyLocation (value : String) : Except MutationError String := do
  let path ← locationPath value.toList
  refuseIf (!isCanonical path) (keyError "gpgkey is not an absolute local path")
  return String.ofList path

def normalizeGpgkeyLocations (values : List String) : Except MutationError (List String) :=
  values.mapM normalizeGpgkeyLocation

def validateLexicalPath (repoId path : String) : Except MutationError KeyLocation := do
  let parts := pathParts path.toList
  refuseIf (!isCanonical path.toList) (keyError "gpgkey path is not absolute and canonical")
  let root := pathParts ("/etc/dnfast/keys/".toList ++ repoId.toList)
  if root <+: parts ∧ parts ≠ root then return .repository
  else if parts ≠ [] ∧ parts.dropLast = pathParts "/etc/pki/rpm-gpg".toList then return .system
  else throw (keyError "gpgkey path is outside trusted key directories")

/-- A snapshot accepts the path of a key exactly when the key bundle of the repository may hold it. -/
theorem validateGpgkeyBundlePath_eq_ok {repoId path : String} :
    Planning.validateGpgkeyBundlePath repoId path = .ok () ↔
      Planning.validId repoId = true ∧ ∃ location, validateLexicalPath repoId path = .ok location := by
  have hparts : Planning.pathComponents = pathParts := rfl
  simp only [Planning.validateGpgkeyBundlePath, Except.check_bind_eq_ok, Except.refuseIf_eq_ok,
    validateLexicalPath, isCanonical, hparts, Bool.not_eq_true', Bool.not_eq_false, Bool.and_eq_true,
    decide_eq_true_eq, List.contains_eq_mem, decide_eq_false_iff_not, not_or, not_not]
  refine and_congr_right fun _ => ?_
  constructor
  · rintro ⟨hcanonical, htrusted⟩
    rw [not_and_or, not_not, not_not] at htrusted
    split
    · exact ⟨_, hcanonical, rfl⟩
    · exact ⟨_, hcanonical, if_pos (htrusted.resolve_left ‹_›)⟩
  · rintro ⟨location, hcanonical, hlocation⟩
    refine ⟨hcanonical, fun h => ?_⟩
    rw [if_neg h.1, if_neg h.2] at hlocation
    cases hlocation

/-! ## The digest -/

/-- `u64::try_from(..)` of a length, in big-endian order. -/
def lengthFrame (length : Nat) (message : String) : Except MutationError (List UInt8) := do
  refuseIf (2 ^ 64 ≤ length) (keyError message)
  return length.beBytes 8

section
variable (host : KeyHost)

/-- The loop over the paths: the paths that were seen, the bytes for the digest, the certificates. -/
structure BundleState where
  seen : List (List (List Char)) := []
  digested : List UInt8 := "dnfast-key-bundle-v1".asBytes
  certificates : List (List UInt8) := []

def bundleKey (repoId : String) (s : BundleState) (path : String) :
    Except MutationError BundleState := do
  refuseIf (pathParts path.toList ∈ s.seen) (keyError "duplicate gpgkey path")
  let location ← validateLexicalPath repoId path
  let bytes ← okOr (host.readKey location path) ⟨path, 0, "untrusted or oversized gpgkey"⟩
  let pathLength ← lengthFrame path.utf8ByteSize "gpgkey path too long"
  let length ← lengthFrame bytes.length "gpgkey file too large"
  return ⟨pathParts path.toList :: s.seen,
    s.digested ++ (pathLength ++ path.asBytes ++ length ++ bytes), s.certificates ++ [bytes]⟩

def keyBundleDigest (repoId : String) (paths : List String) : Except MutationError KeyBundle := do
  refuseIf (!validId repoId) (keyError "invalid repository id")
  refuseIf (paths.length > MAX_KEY_FILES) (keyError "gpgkey file limit exceeds 256")
  let s ← paths.foldlM (bundleKey host repoId) {}
  return ⟨paths, host.sha256 s.digested, s.certificates⟩

/-! ## Fingerprints -/

/-- One certificate of a file. The fingerprints are in ascending order. -/
def addFingerprint (fingerprints : List String) (certificate : Option String) :
    Except MutationError (List String) := do
  let fingerprint ← okOr certificate (keyError "gpgkey contains an invalid OpenPGP certificate")
  refuseIf (fingerprint.utf8ByteSize ≠ 40) (keyError "OpenPGP primary fingerprint is unsupported")
  let added := if fingerprint ∈ fingerprints then fingerprints
    else fingerprints.orderedInsert (· ≤ ·) fingerprint
  refuseIf (added.length > MAX_KEY_FILES) (keyError "OpenPGP certificate limit exceeds 256")
  return added

def addCertificates (fingerprints : List String) (bytes : List UInt8) :
    Except MutationError (List String) := do
  let certificates ← okOr (host.certificates bytes)
    (keyError "gpgkey is not an OpenPGP certificate")
  certificates.foldlM addFingerprint fingerprints

def primaryCertificateFingerprints (certificates : List (List UInt8)) :
    Except MutationError (List String) := do
  let fingerprints ← certificates.foldlM (addCertificates host) []
  refuseIf (fingerprints = []) (keyError "OpenPGP certificate bundle is empty")
  return fingerprints

end

/-! ## Normalised locations -/

variable {text path : List Char} {value value' value'' : String}

theorem locationPath_eq_ok (h : locationPath text = .ok path) : text = path ∧
    ¬ "file:".toList <+: text ∨ ∃ suffix, text = "file:///".toList ++ suffix ∧ path = '/' :: suffix := by
  unfold locationPath at h
  split at h
  · next suffix hsuffix =>
    split at h
    · cases h
    · cases h
      obtain ⟨front, htext, hfront⟩ := List.dropPrefix?_eq_some_iff.mp hsuffix
      exact .inr ⟨suffix, by rw [htext, eq_of_beq hfront], rfl⟩
  · split at h
    · cases h
    · next hlocal =>
      cases h
      exact .inl ⟨rfl, fun hfile => hlocal (.inl hfile)⟩

theorem normalizeGpgkeyLocation_eq_ok (h : normalizeGpgkeyLocation value = .ok value') :
    locationPath value.toList = .ok value'.toList ∧ isCanonical value'.toList = true := by
  simp only [normalizeGpgkeyLocation, Except.bind_eq_ok, Except.refuseIf_eq_ok,
    Except.pure_eq_ok] at h
  obtain ⟨path, hpath, _, hcanonical, rfl⟩ := h
  rw [String.toList_ofList]
  exact ⟨hpath, by simpa using hcanonical⟩

theorem exists_slash (h : isCanonical path = true) : ∃ rest, path = '/' :: rest := by
  rw [isCanonical, Bool.and_eq_true, decide_eq_true_eq, List.head?_eq_some_iff] at h
  exact h.1

/-- A location that is normalised is its own normal form. -/
theorem normalizeGpgkeyLocation_idem (h : normalizeGpgkeyLocation value = .ok value')
    (h' : normalizeGpgkeyLocation value' = .ok value'') : value'' = value' := by
  obtain ⟨rest, hrest⟩ := exists_slash (normalizeGpgkeyLocation_eq_ok h).2
  obtain ⟨hpath, -⟩ := normalizeGpgkeyLocation_eq_ok h'
  rcases locationPath_eq_ok hpath with ⟨heq, -⟩ | ⟨suffix, htext, -⟩
  · exact (String.toList_inj.mp heq).symm
  · rw [hrest] at htext
    exact absurd (List.cons.inj htext).1 (by decide)

end Dnfast.Repo
