import Dnfast.Data.Forall2
import Dnfast.Trust.Packet

/-! # Keyrings and signers

`native/src/keyring.c`, `keyring_identity.c` and `rpm_payload.c`: a keyring has the certificates for
librpm and, beside them, a list of the identities of their keys, by which a verified package is
attributed to a signer. Opening only ever appends to both, so that an import returns what it appends.

librpm is a parameter: what it reads of certificates and files, its digests, and the result of its
verification. `signers` are the keys under which it verified a signature of the file; no function of
the source asks for them. -/

namespace Dnfast.Trust

open Except (refuseIf okOr)

structure Pubkey where
  fingerprintAsHex : Option String
  keyIdAsHex : Option String

/-- What is read of a package header. The binding refuses texts that are not UTF-8. -/
structure Header where
  /-- The texts of the tag for OpenPGP signatures. -/
  openpgp : List (List UInt8)
  epoch : UInt64
  name : Option String
  version : Option String
  release : Option String
  arch : Option String
  vendor : Option String
  payloadSha256 : Option String

structure SignerIdentity where
  keyId : String
  primary : String
  signing : String
  deriving DecidableEq, Repr

structure Librpm where
  /-- `pgpParsePkts`, when it finds an armored public key. -/
  parsePkts : List UInt8 → Option (List UInt8)
  pubKeyCertLen : List UInt8 → Option Nat
  pubKeyLint : List UInt8 → Bool
  pubkeyNew : List UInt8 → Option Pubkey
  getSubkeys : List UInt8 → List Pubkey
  sha1 : List UInt8 → List UInt8
  /-- In hexadecimal digits. -/
  sha256 : List UInt8 → String
  base64Decode : List UInt8 → Option (List UInt8)
  /-- The result of `rpmReadPackageFile` with the certificates as keyring, 0 when it verified. -/
  readPackageFile : List (List UInt8) → List UInt8 → Int
  header : List UInt8 → Header
  /-- The keys, by primary and own fingerprint, under which a signature of the file verified. -/
  signers : List (List UInt8) → List UInt8 → List (String × String)
  /-- Whether the `char` of C is signed. -/
  signedChar : Bool

/-- `toupper`, of every character. -/
def toUpper (text : String) : String := String.ofList (text.toList.map Char.toUpper)

structure Keyring where
  keys : List (List UInt8)
  identities : List SignerIdentity
  deriving DecidableEq

section
variable (lib : Librpm)

/-! ## Importing certificates -/

/-- `add_identity`. -/
def identityOf (primary signing : Pubkey) (signingFp : Option String) : Option SignerIdentity := do
  let primaryFp ← primary.fingerprintAsHex
  let keyId ← signing.keyIdAsHex
  let signingFp ← signingFp
  if primaryFp.utf8ByteSize ≠ 40 ∨ keyId.utf8ByteSize ≠ 16 ∨ signingFp.utf8ByteSize ≠ 40 then none
  else some ⟨toUpper keyId, toUpper primaryFp, toUpper signingFp⟩

def v4Fingerprint (body : List UInt8) : Option (List UInt8) :=
  if body.length > 65535 ∨ body.head? ≠ some 4 then none
  else some (lib.sha1 ([0x99, UInt8.ofNat (body.length / 256), UInt8.ofNat body.length] ++ body))

/-- The loop of `subkey_fingerprint`: the first subkey packet with the key id. Every packet takes
bytes. -/
def subkeyFingerprint (keyId : String) : Nat → List UInt8 → Option String
  | _, [] => none
  | 0, _ :: _ => none
  | rounds + 1, certificate => do
    let span ← packetSpan certificate
    let rest := certificate.drop (span.header + span.body)
    let fingerprint := if span.tag = 14 then
        v4Fingerprint lib ((certificate.drop span.header).take span.body) else none
    match fingerprint with
    | some fingerprint =>
      if fingerprint.length = 20 ∧ hexUpper ((fingerprint.drop 12).take 8) = toUpper keyId then
        some (hexUpper fingerprint)
      else subkeyFingerprint keyId rounds rest
    | none => subkeyFingerprint keyId rounds rest

/-- The identity of one subkey. -/
def subkeyIdentity (packet : List UInt8) (primary subkey : Pubkey) : Except Int SignerIdentity := do
  let fingerprint ← okOr (do
    let keyId ← subkey.keyIdAsHex
    subkeyFingerprint lib keyId packet.length packet) (-32)
  okOr (identityOf primary subkey (some fingerprint)) (-1)

/-- `add_certificate`: the identities of its keys. Adding the key to the ring of librpm fails only
for null arguments; a key that is there already is merged. -/
def addCertificate (packet : List UInt8) : Except Int (List SignerIdentity) := do
  refuseIf (!lib.pubKeyLint packet) (-29)
  let primary ← okOr (lib.pubkeyNew packet) (-30)
  let identity ← okOr (identityOf primary primary primary.fingerprintAsHex) (-31)
  let subkeys ← (lib.getSubkeys packet).mapM (subkeyIdentity lib packet primary)
  return identity :: subkeys

/-- The loop of `import_armor` over the certificates in a blob. -/
def importFrom : Nat → List UInt8 → Except Int Keyring
  | _, [] => .ok ⟨[], []⟩
  | 0, _ :: _ => .error (-20)
  | rounds + 1, packets => do
    let length ← okOr (lib.pubKeyCertLen packets) (-20)
    refuseIf (length = 0 ∨ length > packets.length) (-20)
    let certificate := packets.take length
    let identities ← addCertificate lib certificate
    let rest ← importFrom rounds (packets.drop length)
    return ⟨certificate :: rest.keys, identities ++ rest.identities⟩

def importArmor (blob : List UInt8) : Except Int Keyring := do
  let packets ← okOr (lib.parsePkts blob) (-11)
  importFrom lib packets.length packets

/-- What one blob adds to a keyring. -/
def importBlob (blob : List UInt8) : Except String Keyring :=
  (if blob = [] then .error (-1) else importArmor lib blob).mapError fun (code : Int) =>
    "certificate import failed at " ++ code.repr

/-- `dnfast_keyring_open`. -/
def Keyring.openKeys (blobs : List (List UInt8)) : Except String Keyring := do
  refuseIf (blobs = []) "invalid key bundle"
  let imports ← blobs.mapM (importBlob lib)
  return ⟨imports.flatMap (·.keys), imports.flatMap (·.identities)⟩

/-! ## Finding the signer -/

/-- The only identity with the signing fingerprint. -/
def Keyring.only (ring : Keyring) (fingerprint : String) : Option SignerIdentity :=
  match ring.identities.filter (·.signing = fingerprint) with
  | [identity] => some identity
  | _ => none

def findPacketSigner (ring : Keyring) (packet : List UInt8) : Option SignerIdentity := do
  ring.only (hexUpper (← claimedIssuer packet))

def findEncodedSigner (ring : Keyring) (encoded : List UInt8) : Option SignerIdentity := do
  findPacketSigner ring (← lib.base64Decode encoded)

def findSigner (ring : Keyring) (header : Header) : Option SignerIdentity :=
  header.openpgp.findSome? (findEncodedSigner lib ring)

def findFdSigner (ring : Keyring) (file : List UInt8) : Option SignerIdentity := do
  let area ← signatureArea file
  (List.range area.indexCount).findSome? fun i => do
    findPacketSigner ring (← entryPacket lib.base64Decode area i)

/-! ## The payload digest -/

def maxIndex : Nat := 4000000
def maxHeader : Nat := 512 * 1024 * 1024

def headerEnd (file : List UInt8) (start : Nat) : Option Nat := do
  let intro ← headerIntro file start
  let count := be32 (intro.drop 8)
  let data := be32 (intro.drop 12)
  if count > maxIndex ∨ data > maxHeader then none
  else some (start + headerSize + count * 16 + data)

def payloadOffset (file : List UInt8) : Option Nat := do
  let signatureEnd ← headerEnd file leadSize
  headerEnd file ((signatureEnd + 7) / 8 * 8)

def verifyPayloadDigest (file : List UInt8) (header : Header) : Bool :=
  match header.payloadSha256, payloadOffset file with
  | some expected, some offset => expected != "" && offset < file.length &&
      toUpper expected = toUpper (lib.sha256 (file.drop offset))
  | _, _ => false

/-! ## Verifying a file -/

structure VerifiedPackage where
  name : String
  epoch : String
  version : String
  release : String
  arch : String
  vendor : String
  primaryFingerprint : String
  signingFingerprint : String
  deriving DecidableEq, Repr

def copyText (capacity : Nat) (value : Option String) : Option String :=
  value.filter (·.utf8ByteSize < capacity)

def copyOptionalText (capacity : Nat) (value : Option String) : Option String :=
  copyText capacity (some (value.getD ""))

/-- The package of a header, as it is attributed to the signer. -/
def verifiedPackage (header : Header) (signer : SignerIdentity) : Option VerifiedPackage := do
  let name ← copyText 256 header.name
  let epoch ← copyText 32 (some header.epoch.toNat.repr)
  let version ← copyText 256 header.version
  let release ← copyText 256 header.release
  let arch ← copyText 64 header.arch
  let vendor ← copyOptionalText 256 header.vendor
  return ⟨name, epoch, version, release, arch, vendor, signer.primary, signer.signing⟩

/-- `dnfast_keyring_verify_fd`. -/
def Keyring.verifyFd (ring : Keyring) (file : List UInt8) : Except String VerifiedPackage := do
  let result := lib.readPackageFile ring.keys file
  refuseIf (result ≠ 0) ("rpm verification result " ++ result.repr)
  let header := lib.header file
  refuseIf (!verifyPayloadDigest lib file header) "compressed payload digest verification failed"
  let signer ← okOr ((findSigner lib ring header).or (findFdSigner lib ring file))
    "verified signature issuer was not attributed"
  okOr (verifiedPackage header signer) "verified header field invalid"

end

end Dnfast.Trust
