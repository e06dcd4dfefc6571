import Dnfast.Core.Executable
import Dnfast.Trust.Artifact

/-! # Whom a verified package is attributed to

The search for the signer goes through the fingerprints that the signature packets claim, those of
the header first, then those of the signature area (`claims`), and takes the first one that exactly
one identity of the keyring has. librpm's verification is not asked. So the reported key is one whose
signature verified exactly when the first claim of a known key is true (`reports_signer_iff`). -/

namespace Dnfast.Trust

section
variable (lib : Librpm)

/-- The issuer that a packet claims, as the identities have it. -/
def claimOf (packet : List UInt8) : Option String := (claimedIssuer packet).map hexUpper

/-- The claims of the packets in the signature area. -/
def areaClaims (file : List UInt8) : List String :=
  match signatureArea file with
  | none => []
  | some area => (List.range area.indexCount).filterMap fun i =>
      (entryPacket lib.base64Decode area i).bind claimOf

/-- The claimed issuers in the order in which the search meets them. -/
def claims (file : List UInt8) : List String :=
  ((lib.header file).openpgp.filterMap fun encoded => (lib.base64Decode encoded).bind claimOf) ++
    areaClaims lib file

/-- librpm verified a signature of the file under the key. -/
def Signed (ring : Keyring) (file : List UInt8) (primary signing : String) : Prop :=
  (primary, signing) ∈ lib.signers ring.keys file

/-- The first claim that names one key of the ring is of a key that signed. -/
def FirstClaimTrue (ring : Keyring) (file : List UInt8) : Prop :=
  ∀ pre fingerprint post identity, claims lib file = pre ++ fingerprint :: post →
    (∀ earlier ∈ pre, ring.only earlier = none) → ring.only fingerprint = some identity →
    Signed lib ring file identity.primary identity.signing

end

section
variable {lib : Librpm} {ring : Keyring} {file : List UInt8}

theorem Keyring.only_eq_some {fingerprint : String} {identity : SignerIdentity} :
    ring.only fingerprint = some identity ↔
      ring.identities.filter (·.signing = fingerprint) = [identity] := by
  unfold Keyring.only
  split
  · next h => rw [h, Option.some.injEq, List.singleton_inj]
  · next h =>
    simp only [reduceCtorEq, false_iff]
    exact fun heq => h identity heq

theorem Keyring.mem_of_only {fingerprint : String} {identity : SignerIdentity}
    (h : ring.only fingerprint = some identity) :
    identity ∈ ring.identities ∧ identity.signing = fingerprint := by
  have hmem : identity ∈ ring.identities.filter (·.signing = fingerprint) := by
    rw [Keyring.only_eq_some.mp h]
    exact List.mem_singleton_self identity
  rw [List.mem_filter, decide_eq_true_eq] at hmem
  exact hmem

theorem findSome?_filterMap {α β γ : Type} (f : α → Option β) (g : β → Option γ) (l : List α) :
    (l.filterMap f).findSome? g = l.findSome? fun a => (f a).bind g := by
  induction l with
  | nil => rfl
  | cons a l ih =>
    rw [List.findSome?_cons, ← ih]
    cases hf : f a with
    | none => rw [List.filterMap_cons_none hf, Option.bind_none]
    | some b => rw [List.filterMap_cons_some hf, List.findSome?_cons, Option.bind_some]

theorem findPacketSigner_eq (packet : List UInt8) :
    findPacketSigner ring packet = (claimOf packet).bind ring.only := by
  rw [findPacketSigner, claimOf, Option.bind_map]
  rfl

/-- Both searches together are one over the claims. -/
theorem signer_eq : (findSigner lib ring (lib.header file)).or (findFdSigner lib ring file) =
    (claims lib file).findSome? ring.only := by
  rw [claims, List.findSome?_append, findSome?_filterMap]
  have hheader : findSigner lib ring (lib.header file) = (lib.header file).openpgp.findSome?
      fun encoded => ((lib.base64Decode encoded).bind claimOf).bind ring.only := by
    unfold findSigner findEncodedSigner
    simp only [findPacketSigner_eq, Option.bind_assoc, Option.bind_eq_bind]
  have harea : findFdSigner lib ring file = (areaClaims lib file).findSome? ring.only := by
    unfold findFdSigner areaClaims
    cases signatureArea file with
    | none => rfl
    | some area =>
      simp only [Option.bind_eq_bind, Option.bind_some, findSome?_filterMap, findPacketSigner_eq,
        Option.bind_assoc]
  rw [hheader, harea]

/-- What a verified file has, and whom it is attributed to. -/
theorem verifyFd_eq_ok {package : VerifiedPackage} : ring.verifyFd lib file = .ok package ↔
    lib.readPackageFile ring.keys file = 0 ∧ verifyPayloadDigest lib file (lib.header file) = true ∧
      ∃ signer, (claims lib file).findSome? ring.only = some signer ∧
        verifiedPackage (lib.header file) signer = some package := by
  rw [Keyring.verifyFd, Except.check_bind_eq_ok, Except.check_bind_eq_ok, Except.bind_eq_ok]
  simp only [Except.refuseIf_eq_ok, Except.okOr_eq_ok, not_not, Bool.not_eq_true', Bool.not_eq_false,
    signer_eq]

theorem fingerprints_of_verifiedPackage {header : Header} {signer : SignerIdentity}
    {package : VerifiedPackage} (h : verifiedPackage header signer = some package) :
    package.primaryFingerprint = signer.primary ∧ package.signingFingerprint = signer.signing := by
  simp only [verifiedPackage, Option.bind_eq_bind, Option.bind_eq_some_iff, Option.pure_def,
    Option.some.injEq] at h
  obtain ⟨_, -, _, -, _, -, _, -, _, -, _, -, rfl⟩ := h
  exact ⟨rfl, rfl⟩

/-- The first claim of a known key decides. -/
theorem firstClaimTrue_iff {signer : SignerIdentity}
    (h : (claims lib file).findSome? ring.only = some signer) :
    FirstClaimTrue lib ring file ↔ Signed lib ring file signer.primary signer.signing := by
  obtain ⟨pre, fingerprint, post, heq, honly, hpre⟩ := List.findSome?_eq_some_iff.mp h
  constructor
  · exact fun htrue => htrue pre fingerprint post signer heq hpre honly
  · intro hsigned pre' fingerprint' post' identity heq' hpre' honly'
    have hfound : (claims lib file).findSome? ring.only = some identity :=
      List.findSome?_eq_some_iff.mpr ⟨pre', fingerprint', post', heq', honly', hpre'⟩
    rw [h, Option.some.injEq] at hfound
    rwa [← hfound]

theorem signed_iff {package : VerifiedPackage} (h : ring.verifyFd lib file = .ok package) :
    Signed lib ring file package.primaryFingerprint package.signingFingerprint ↔
      FirstClaimTrue lib ring file := by
  obtain ⟨-, -, signer, hsigner, hpackage⟩ := verifyFd_eq_ok.mp h
  obtain ⟨hprimary, hsigning⟩ := fingerprints_of_verifiedPackage hpackage
  rw [hprimary, hsigning]
  exact (firstClaimTrue_iff hsigner).symm

end

/-! ## Accepted artifacts -/

section
variable {lib : Librpm} {keyring : KeyringInstalled} {file : List UInt8} {expected : ExpectedPackage}
  {rule : SigningSubkeyRule} {artifact : VerifiedArtifact}

/-- What acceptance rests on. -/
theorem verifyArtifact_eq_ok (h : keyring.verifyArtifact lib file expected rule = .ok artifact) :
    keyring.native.verifyFd lib file = .ok artifact.expected ∧
      artifact.primaryFingerprint ∈ keyring.allowedPrimaryFingerprints ∧
      artifact.artifactSha256 = lib.sha256 file ∧ artifact.artifactSize = file.length := by
  rw [KeyringInstalled.verifyArtifact, Except.bind_eq_ok] at h
  obtain ⟨verified, hverified, h⟩ := h
  obtain ⟨epoch, hepoch, h⟩ := Except.bind_eq_ok.mp h
  rw [Except.check_bind_eq_ok, authorize, Except.check_bind_eq_ok, Except.refuseIf_eq_ok, not_not,
    Except.pure_eq_ok] at h
  obtain ⟨⟨hallowed, -⟩, rfl⟩ := h
  rw [Except.mapError_eq_ok] at hverified
  rw [Except.okOr_eq_ok] at hepoch
  refine ⟨?_, hallowed, rfl, rfl⟩
  -- the epoch that was parsed is written as it was read
  obtain ⟨-, -, signer, -, hpackage⟩ := verifyFd_eq_ok.mp hverified
  simp only [verifiedPackage, copyText, Option.bind_eq_bind, Option.bind_eq_some_iff,
    Option.pure_def, Option.some.injEq, Option.filter_eq_some_iff] at hpackage
  obtain ⟨_, -, text, ⟨rfl, -⟩, _, -, _, -, _, -, _, -, rfl⟩ := hpackage
  rw [parseU64_repr, Option.some.injEq] at hepoch
  rw [hverified, ← hepoch]
  rfl

theorem allowed_of_fromBundle {validate : Bundle → Except TrustError Unit} {b : Bundle}
    (h : fromBundle lib validate b = .ok keyring) :
    ∀ primary, primary ∈ keyring.allowedPrimaryFingerprints ↔
      primary ∈ b.policy.allowedPrimaryFingerprints := by
  rw [fromBundle, Except.check_bind_eq_ok, openStagedKeyring, Except.check_bind_eq_ok] at h
  obtain ⟨native, -, h⟩ := Except.bind_eq_ok.mp h.2.2
  rw [← Except.pure_eq_ok.mp h]
  exact fun primary => List.mem_sortDedup

end

/-- **The reported signer signed exactly when the first claim of a known key is true.** Whatever the
file and the keyring, the fingerprints of a verified file are those of a key under which librpm
verified a signature if and only if the first signature packet that names one key of the ring names
such a key; and that is also when an artifact that is accepted under the keyring of its repository
was signed by the key it is attributed to, which is one under an allowed primary fingerprint. -/
theorem reports_signer_iff (lib : Librpm) :
    (∀ (ring : Keyring) (file : List UInt8) (package : VerifiedPackage),
      ring.verifyFd lib file = .ok package →
      (Signed lib ring file package.primaryFingerprint package.signingFingerprint ↔
        FirstClaimTrue lib ring file)) ∧
    ∀ (now : UInt64) (bundle : Bundle) (keyring : KeyringInstalled) (file : List UInt8)
      (expected : ExpectedPackage) (artifact : VerifiedArtifact),
      fromRevalidatedStagedBundle lib now bundle = .ok keyring →
      keyring.verifyArtifact lib file expected bundle.policy.signingSubkeyRule = .ok artifact →
      ((Signed lib keyring.native file artifact.primaryFingerprint artifact.signingFingerprint ∧
          artifact.primaryFingerprint ∈ bundle.policy.allowedPrimaryFingerprints) ↔
        FirstClaimTrue lib keyring.native file) := by
  constructor
  · exact fun ring file package h => signed_iff h
  · intro now bundle keyring file expected artifact hopen haccept
    obtain ⟨hverified, hallowed, -⟩ := verifyArtifact_eq_ok haccept
    have hiff : Signed lib keyring.native file artifact.primaryFingerprint
        artifact.signingFingerprint ↔ FirstClaimTrue lib keyring.native file := signed_iff hverified
    rw [hiff]
    constructor
    · exact And.left
    · exact fun htrue => ⟨htrue, (allowed_of_fromBundle hopen _).mp hallowed⟩

/-! A file that one key signed, with packets that claim some keys. -/

/-- A version 4 signature packet that claims the fingerprint made of the byte. -/
def signaturePacket (k : UInt8) : List UInt8 :=
  [0xc2, 36, 4, 0, 1, 8, 0, 23, 22, 33, 4] ++ List.replicate 20 k ++ [0, 0, 0xab, 0xcd, 0, 1, 1]

/-- Its text in base 64, for the two keys of the examples. -/
def encodedPacket (k : UInt8) : List UInt8 :=
  (if k = 0xaa then "wiQEAAEIABcWIQSqqqqqqqqqqqqqqqqqqqqqqqqqqgAAq80AAQE="
    else "wiQEAAEIABcWIQS7u7u7u7u7u7u7u7u7u7u7u7u7uwAAq80AAQE=").toUTF8.toList

def fingerprintOf (k : UInt8) : String := hexUpper (List.replicate 20 k)

/-- A lead, two empty headers and a payload of one byte. -/
def smallFile : List UInt8 :=
  let header := [0x8e, 0xad, 0xe8, 1] ++ List.replicate 12 0
  List.replicate 96 0 ++ header ++ header ++ [1]

def appHeader (claimed : List UInt8) : Header where
  openpgp := claimed.map encodedPacket
  epoch := 0
  name := some "app"
  version := some "1"
  release := some "1"
  arch := some "noarch"
  vendor := some "Vendor"
  payloadSha256 := some Core.zeroDigest.asStr

/-- librpm over certificates of one byte, which stand for keys with that fingerprint. Line ends
around an armored certificate do not count. The file is signed by `signer`. -/
def smallLibrpm (signer : UInt8) (claimed : List UInt8) : Librpm where
  parsePkts blob := some (blob.filter (· ≠ 10))
  pubKeyCertLen _ := some 1
  pubKeyLint _ := true
  pubkeyNew packet := packet.head?.map fun k =>
    ⟨some (fingerprintOf k), some (hexUpper (List.replicate 8 k))⟩
  getSubkeys _ := []
  sha1 _ := []
  sha256 _ := Core.zeroDigest.asStr
  base64Decode text := if text = encodedPacket 0xaa then some (signaturePacket 0xaa)
    else if text = encodedPacket 0xbb then some (signaturePacket 0xbb) else none
  readPackageFile keys _ := if keys.contains [signer] then 0 else 4
  header _ := appHeader claimed
  signers keys _ := if keys.contains [signer] then [(fingerprintOf signer, fingerprintOf signer)] else []
  signedChar := true

/-- A repository with the certificates, in files of these contents, that allows the first key. -/
def vendorBundle (repository : String) (hnamed : repository ≠ "") (files : List (List UInt8)) :
    Bundle where
  policy := ⟨repository, Core.zeroDigest, [fingerprintOf 0xaa], .authorizedSubkeys, 0, hnamed,
    by simp, by simp, by decide +kernel⟩
  repository := repository
  keys := files.zipIdx.map fun (file, i) => ⟨i.repr, file⟩

def expectedApp : ExpectedPackage := ⟨"app", 0, "1", "1", "noarch", "Vendor"⟩

/-- Open the keyring of a repository and verify the artifact under it. -/
def acceptApp (lib : Librpm) (bundle : Bundle) :
    Except TrustError (KeyringInstalled × VerifiedArtifact) := do
  let keyring ← fromRevalidatedStagedBundle lib 0 bundle
  let artifact ← keyring.verifyArtifact lib smallFile expectedApp bundle.policy.signingSubkeyRule
  return (keyring, artifact)

theorem acceptApp_eq_ok {lib : Librpm} {bundle : Bundle} {keyring : KeyringInstalled}
    {artifact : VerifiedArtifact} (h : acceptApp lib bundle = .ok (keyring, artifact)) :
    fromRevalidatedStagedBundle lib 0 bundle = .ok keyring ∧
      keyring.verifyArtifact lib smallFile expectedApp bundle.policy.signingSubkeyRule =
        .ok artifact := by
  obtain ⟨keyring', hopen, h⟩ := Except.bind_eq_ok.mp h
  obtain ⟨artifact', haccept, h⟩ := Except.bind_eq_ok.mp h
  obtain ⟨rfl, rfl⟩ := Prod.mk.inj (Except.pure_eq_ok.mp h)
  exact ⟨hopen, haccept⟩

def vendor : Bundle := vendorBundle "vendor" (by decide) [[0xaa], [0xbb]]

def identityNamed (k : UInt8) : SignerIdentity :=
  ⟨hexUpper (List.replicate 8 k), fingerprintOf k, fingerprintOf k⟩

/-- The keyring of the repository, which also has a key that is not allowed. -/
def vendorRing : Keyring := ⟨[[0xaa], [0xbb]], [identityNamed 0xaa, identityNamed 0xbb]⟩

/-- A package with the one signature of the allowed key is attributed to it. -/
theorem reports_signer_allowed : ∃ keyring artifact,
    acceptApp (smallLibrpm 0xaa [0xaa]) vendor = .ok (keyring, artifact) ∧
      Signed (smallLibrpm 0xaa [0xaa]) keyring.native smallFile artifact.primaryFingerprint
        artifact.signingFingerprint := by
  have hshown : (acceptApp (smallLibrpm 0xaa [0xaa]) vendor).toOption.map (fun r => r.1.native) =
      some vendorRing := by decide +kernel
  obtain ⟨⟨keyring, artifact⟩, hrun, hring⟩ := Except.toOption_map_eq_some.mp hshown
  obtain ⟨hopen, haccept⟩ := acceptApp_eq_ok hrun
  have htrue : FirstClaimTrue (smallLibrpm 0xaa [0xaa]) vendorRing smallFile := by
    refine (@firstClaimTrue_iff _ _ _ (identityNamed 0xaa) (by decide +kernel)).mpr ?_
    unfold Signed
    decide +kernel
  refine ⟨keyring, artifact, hrun, ?_⟩
  exact (((reports_signer_iff _).2 0 vendor keyring smallFile expectedApp artifact hopen
    haccept).mpr (hring ▸ htrue)).1

/-- A package that the other key signed, with a packet in front that names the allowed key, is
accepted as signed by the allowed key. -/
theorem reports_other_signer : ∃ keyring artifact,
    acceptApp (smallLibrpm 0xbb [0xaa, 0xbb]) vendor = .ok (keyring, artifact) ∧
      artifact.primaryFingerprint ∈ vendor.policy.allowedPrimaryFingerprints ∧
      (smallLibrpm 0xbb [0xaa, 0xbb]).signers keyring.native.keys smallFile =
        [(fingerprintOf 0xbb, fingerprintOf 0xbb)] ∧
      ¬ Signed (smallLibrpm 0xbb [0xaa, 0xbb]) keyring.native smallFile artifact.primaryFingerprint
        artifact.signingFingerprint := by
  have hshown : (acceptApp (smallLibrpm 0xbb [0xaa, 0xbb]) vendor).toOption.map (fun r =>
      (r.1.native, r.2.primaryFingerprint)) = some (vendorRing, fingerprintOf 0xaa) := by
    decide +kernel
  obtain ⟨⟨keyring, artifact⟩, hrun, heq⟩ := Except.toOption_map_eq_some.mp hshown
  obtain ⟨hring, hprimary⟩ := Prod.mk.inj heq
  have hsigners : (smallLibrpm 0xbb [0xaa, 0xbb]).signers vendorRing.keys smallFile =
      [(fingerprintOf 0xbb, fingerprintOf 0xbb)] := by decide +kernel
  refine ⟨keyring, artifact, hrun, ?_, ?_, ?_⟩
  · rw [show artifact.primaryFingerprint = _ from hprimary]
    exact List.mem_singleton_self _
  · rw [show keyring.native = _ from hring]
    exact hsigners
  · rw [Signed, show keyring.native = _ from hring, hsigners,
      show artifact.primaryFingerprint = _ from hprimary, List.mem_singleton, Prod.mk.injEq]
    exact fun h => absurd h.1 (by decide +kernel)

end Dnfast.Trust
