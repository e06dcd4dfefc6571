import Mathlib.Data.List.Lex
import Dnfast.Core.Value
import Dnfast.Data.SortDedup
import Dnfast.Trust.Keyring

/-! # Trust in artifacts

`dnfast-native`, `trust.rs` and `checked_transaction.rs`, and `native/src/transaction.c`. An artifact
is accepted under the keyring of its repository, which has the keys of one bundle and the policy's
primary fingerprints (`verifyArtifact`). Before it is installed it is verified again, now under a
keyring with the keys of all repositories, and must come out the same (`addInstall`, `reverify`).

The checks of `addInstall` on the descriptor and on the phase of the transaction are left out. -/

namespace Dnfast.Trust

open Except (refuseIf okOr)
open Dnfast.Core (Sha256Digest)

instance instLinearOrderUInt8 : LinearOrder UInt8 where
  le_refl := UInt8.le_refl
  le_trans _ _ _ := UInt8.le_trans
  le_antisymm _ _ := UInt8.le_antisymm
  le_total := UInt8.le_total
  lt_iff_le_not_ge a b := by
    rw [UInt8.not_le]
    exact ⟨fun h => ⟨UInt8.le_of_lt h, h⟩, And.right⟩
  toDecidableLE := inferInstance

inductive SigningSubkeyRule where
  | primaryOnly
  | authorizedSubkeys
  deriving DecidableEq, Repr

/-- A policy as `validate` accepts it. -/
structure RepoTrustPolicy where
  repoId : String
  keyBundleSha256 : Sha256Digest
  allowedPrimaryFingerprints : List String
  signingSubkeyRule : SigningSubkeyRule
  validAtUnix : UInt64
  named : repoId ≠ ""
  supplied : allowedPrimaryFingerprints ≠ []
  ordered : allowedPrimaryFingerprints.IsChain (· < ·)
  hexadecimal : ∀ fingerprint ∈ allowedPrimaryFingerprints, fingerprint.toList.length = 40 ∧
    fingerprint.toList.all Core.isAsciiHexdigit = true

inductive TrustError where
  | bundle (message : String)
  | bundleDigestMismatch
  | verificationTimeMismatch
  | unauthorizedSigner
  | nevraMismatch
  | vendorMismatch
  | signingSubkeyRejected
  | native (message : String)
  deriving DecidableEq, Repr

structure VerifiedStagedKey where
  bundlePath : String
  certificate : List UInt8

/-- The keys of a repository with its policy. -/
structure Bundle where
  policy : RepoTrustPolicy
  repository : String
  keys : List VerifiedStagedKey

namespace Bundle

def certificates (b : Bundle) : List (List UInt8) := b.keys.map (·.certificate)

/-- The bytes of `u64::to_be_bytes`. -/
def be64 (n : Nat) : List UInt8 := (List.range 8).map fun i => UInt8.ofNat (n / 256 ^ (7 - i))

def lengthPrefixed (bytes : List UInt8) : List UInt8 := be64 bytes.length ++ bytes

def digestInput (b : Bundle) : List UInt8 :=
  "dnfast-key-bundle-v1".toUTF8.toList ++ b.keys.flatMap fun key =>
    lengthPrefixed key.bundlePath.toUTF8.toList ++ lengthPrefixed key.certificate

end Bundle

structure KeyringInstalled where
  native : Keyring
  allowedPrimaryFingerprints : List String

section
variable (lib : Librpm)

/-! ## Opening keyrings -/

def validateStagedBundleAtBoundTime (b : Bundle) : Except TrustError Unit := do
  refuseIf (b.repository ≠ b.policy.repoId) (.bundle "repository id differs from trust policy")
  refuseIf (¬ (b.keys.map (·.bundlePath)).Nodup) (.bundle "duplicate staged key path")
  refuseIf (lib.sha256 b.digestInput ≠ b.policy.keyBundleSha256.asStr) .bundleDigestMismatch

def validateStagedBundle (now : UInt64) (b : Bundle) : Except TrustError Unit := do
  refuseIf (now.toNat - b.policy.validAtUnix.toNat > 300 ∨
    b.policy.validAtUnix.toNat - now.toNat > 300) .verificationTimeMismatch
  validateStagedBundleAtBoundTime lib b

/-- The time of the policy may be long ago here; the sum saturates. -/
def validateRevalidatedStagedBundle (now : UInt64) (b : Bundle) : Except TrustError Unit := do
  refuseIf (b.policy.validAtUnix.toNat > min (now.toNat + 300) (2 ^ 64 - 1))
    .verificationTimeMismatch
  validateStagedBundleAtBoundTime lib b

def openStagedKeyring (certificates : List (List UInt8)) (allowedPrimaryFingerprints : List String) :
    Except TrustError KeyringInstalled := do
  let certificates := certificates.sortDedup
  refuseIf (certificates = []) (.bundle "no staged repository keys")
  let native ← (Keyring.openKeys lib certificates).mapError .native
  return ⟨native, allowedPrimaryFingerprints.sortDedup⟩

/-- The constructors over one bundle. -/
def fromBundle (validate : Bundle → Except TrustError Unit) (b : Bundle) :
    Except TrustError KeyringInstalled := do
  validate b
  openStagedKeyring lib b.certificates b.policy.allowedPrimaryFingerprints

/-- The constructors over several bundles. -/
def fromBundles (validate : Bundle → Except TrustError Unit) (bundles : List Bundle) :
    Except TrustError KeyringInstalled := do
  forM bundles validate
  openStagedKeyring lib (bundles.flatMap (·.certificates))
    (bundles.flatMap (·.policy.allowedPrimaryFingerprints))

def fromVerifiedStagedBundle (now : UInt64) := fromBundle lib (validateStagedBundle lib now)

def fromVerifiedStagedBundles (now : UInt64) := fromBundles lib (validateStagedBundle lib now)

def fromRevalidatedStagedBundle (now : UInt64) :=
  fromBundle lib (validateRevalidatedStagedBundle lib now)

def fromRevalidatedStagedBundles (now : UInt64) :=
  fromBundles lib (validateRevalidatedStagedBundle lib now)

/-! ## Accepting an artifact -/

structure ExpectedPackage where
  name : String
  epoch : UInt64
  version : String
  release : String
  arch : String
  vendor : String
  deriving DecidableEq, Repr

structure VerifiedArtifact where
  package : ExpectedPackage
  primaryFingerprint : String
  signingFingerprint : String
  artifactSha256 : String
  artifactSize : Nat

def authorize (allowed : List String) (primary signing : String) (rule : SigningSubkeyRule)
    (actual expected : ExpectedPackage) : Except TrustError Unit := do
  refuseIf (primary ∉ allowed) .unauthorizedSigner
  refuseIf (rule = .primaryOnly ∧ signing ≠ primary) .signingSubkeyRejected
  refuseIf (actual.name ≠ expected.name ∨ actual.epoch ≠ expected.epoch ∨
    actual.version ≠ expected.version ∨ actual.release ≠ expected.release ∨
    actual.arch ≠ expected.arch) .nevraMismatch
  refuseIf (actual.vendor ≠ expected.vendor ∧
    ¬ (expected.vendor = "unknown" ∧ actual.vendor = "")) .vendorMismatch

/-- `parse::<u64>`; the sign that it also takes does not come up. -/
def parseU64 (text : String) : Option UInt64 :=
  let n := Nat.ofDigitChars 10 text.toList 0
  if text ≠ "" ∧ text.toList.all Char.isDigit ∧ n < 2 ^ 64 then some (UInt64.ofNat n) else none

theorem parseU64_repr (n : UInt64) : parseU64 n.toNat.repr = some n := by
  have hlist : n.toNat.repr.toList = Nat.toDigits 10 n.toNat := by
    rw [Nat.repr, String.toList_ofList]
  have hne : n.toNat.repr ≠ "" := by
    intro h
    rw [h] at hlist
    exact Nat.toDigits_ne_nil hlist.symm
  have hdigits : n.toNat.repr.toList.all Char.isDigit = true := by
    rw [hlist, List.all_eq_true]
    exact fun c hc => Nat.isDigit_of_mem_toDigits (by decide) (by decide) hc
  have hvalue : Nat.ofDigitChars 10 n.toNat.repr.toList 0 = n.toNat := by
    rw [hlist, Nat.ofDigitChars_ten_toDigits]
  rw [parseU64, hvalue, if_pos ⟨hne, hdigits, n.toNat_lt⟩, UInt64.ofNat_toNat]

def KeyringInstalled.verifyArtifact (keyring : KeyringInstalled) (file : List UInt8)
    (expected : ExpectedPackage) (rule : SigningSubkeyRule) :
    Except TrustError VerifiedArtifact := do
  let verified ← (keyring.native.verifyFd lib file).mapError .native
  let epoch ← okOr (parseU64 verified.epoch) .nevraMismatch
  let actual : ExpectedPackage := ⟨verified.name, epoch, verified.version, verified.release,
    verified.arch, verified.vendor⟩
  authorize keyring.allowedPrimaryFingerprints verified.primaryFingerprint
    verified.signingFingerprint rule actual expected
  return ⟨actual, verified.primaryFingerprint, verified.signingFingerprint, lib.sha256 file,
    file.length⟩

/-! ## Installing it -/

/-- The package that the transaction expects. -/
def VerifiedArtifact.expected (a : VerifiedArtifact) : VerifiedPackage :=
  ⟨a.package.name, a.package.epoch.toNat.repr, a.package.version, a.package.release, a.package.arch,
    a.package.vendor, a.primaryFingerprint, a.signingFingerprint⟩

/-- A text goes into an array of `char` of the given size. -/
def copyToArray (capacity : Nat) (value : String) : Except String Unit := do
  refuseIf ('\x00' ∈ value.toList ∨ value.utf8ByteSize ≥ capacity) "invalid package identity"
  refuseIf (lib.signedChar ∧ value.toList.any (fun c => 128 ≤ c.toNat)) "non-ASCII package identity"

/-- `RawVerifiedPackage::from_verified`. -/
def fromVerified (p : VerifiedPackage) : Except String Unit := do
  copyToArray lib 256 p.name
  copyToArray lib 32 p.epoch
  copyToArray lib 256 p.version
  copyToArray lib 256 p.release
  copyToArray lib 64 p.arch
  copyToArray lib 256 p.vendor
  copyToArray lib 41 p.primaryFingerprint
  copyToArray lib 41 p.signingFingerprint

/-- `dnfast_transaction_reverify`. -/
def reverify (ring : Keyring) (file : List UInt8) (a : VerifiedArtifact) : Bool :=
  file.length = a.artifactSize && lib.sha256 file = a.artifactSha256 &&
    match ring.verifyFd lib file with
    | .ok actual => actual = a.expected
    | .error _ => false

def addInstall (keyring : KeyringInstalled) (file : List UInt8) (a : VerifiedArtifact) :
    Except String Unit := do
  fromVerified lib a.expected
  let actual ← keyring.native.verifyFd lib file
  refuseIf (actual ≠ a.expected) "retained RPM identity changed"
  refuseIf (!reverify lib keyring.native file a) "retained RPM identity changed"

end

end Dnfast.Trust
