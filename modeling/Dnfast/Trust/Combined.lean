import Dnfast.Trust.Signer

/-! # The keyring of all repositories

The combined keyring drops key files with the same bytes, and the search for the signer wants one
identity with the fingerprint. A certificate that two repositories have in different files is there
twice and cannot sign any more. `combined_keeps_iff` says when an artifact that is accepted under the
keyring of its repository stays acceptable under the combined one. -/

namespace Dnfast.Trust

/-! ## Opening -/

section
variable {lib : Librpm} {blobs : List (List UInt8)} {ring : Keyring}

theorem openKeys_eq_ok : Keyring.openKeys lib blobs = .ok ring ↔ blobs ≠ [] ∧
    ∃ imports, List.Forall₂ (fun blob r => importBlob lib blob = .ok r) blobs imports ∧
      ring = ⟨imports.flatMap (·.keys), imports.flatMap (·.identities)⟩ := by
  rw [Keyring.openKeys, Except.check_bind_eq_ok, Except.refuseIf_eq_ok, Except.bind_eq_ok]
  simp only [Except.mapM_eq_ok, Except.pure_eq_ok, eq_comm (b := ring)]

/-- Whatever blobs can be imported can be opened together. -/
theorem exists_openKeys (hne : blobs ≠ []) (h : ∀ blob ∈ blobs, ∃ r, importBlob lib blob = .ok r) :
    ∃ ring, Keyring.openKeys lib blobs = .ok ring := by
  obtain ⟨imports, himports⟩ := Except.exists_mapM_eq_ok h
  exact ⟨_, openKeys_eq_ok.mpr ⟨hne, imports, Except.mapM_eq_ok.mp himports, rfl⟩⟩

/-- The identities of a ring are those of its blobs. -/
theorem mem_identities_iff (h : Keyring.openKeys lib blobs = .ok ring) {identity : SignerIdentity} :
    identity ∈ ring.identities ↔
      ∃ blob ∈ blobs, ∃ r, importBlob lib blob = .ok r ∧ identity ∈ r.identities := by
  obtain ⟨-, imports, himports, rfl⟩ := openKeys_eq_ok.mp h
  rw [List.mem_flatMap]
  constructor
  · rintro ⟨r, hr, hmem⟩
    obtain ⟨blob, hblob, himport⟩ := himports.exists_left hr
    exact ⟨blob, hblob, r, himport, hmem⟩
  · rintro ⟨blob, hblob, r, himport, hmem⟩
    obtain ⟨r', hr', himport'⟩ := himports.exists_right hblob
    obtain rfl : r = r' := Except.ok.inj (himport.symm.trans himport')
    exact ⟨r, hr', hmem⟩

theorem openStagedKeyring_eq_ok {certificates : List (List UInt8)} {allowed : List String}
    {keyring : KeyringInstalled} : openStagedKeyring lib certificates allowed = .ok keyring ↔
      Keyring.openKeys lib certificates.sortDedup = .ok keyring.native ∧
        keyring.allowedPrimaryFingerprints = allowed.sortDedup := by
  obtain ⟨native, fingerprints⟩ := keyring
  rw [openStagedKeyring, Except.check_bind_eq_ok, Except.refuseIf_eq_ok, Except.bind_eq_ok]
  simp only [Except.mapError_eq_ok, Except.pure_eq_ok, KeyringInstalled.mk.injEq]
  constructor
  · rintro ⟨-, ring, hring, rfl, rfl⟩
    exact ⟨hring, rfl⟩
  · rintro ⟨hring, rfl⟩
    exact ⟨(openKeys_eq_ok.mp hring).1, native, hring, rfl, rfl⟩

theorem fromBundle_eq_ok {validate : Bundle → Except TrustError Unit} {b : Bundle}
    {keyring : KeyringInstalled} (h : fromBundle lib validate b = .ok keyring) :
    validate b = .ok () ∧ Keyring.openKeys lib b.certificates.sortDedup = .ok keyring.native := by
  rw [fromBundle, Except.check_bind_eq_ok, openStagedKeyring_eq_ok] at h
  exact ⟨h.1, h.2.1⟩

theorem validateRevalidatedStagedBundle_mono {now later : UInt64} (hlater : now ≤ later)
    {b : Bundle} (h : validateRevalidatedStagedBundle lib now b = .ok ()) :
    validateRevalidatedStagedBundle lib later b = .ok () := by
  rw [validateRevalidatedStagedBundle, Except.check_bind_eq_ok, Except.refuseIf_eq_ok] at h ⊢
  have hle : now.toNat ≤ later.toNat := UInt64.le_iff_toNat_le.mp hlater
  refine ⟨?_, h.2⟩
  have htime := h.1
  omega

/-- Repositories whose keyrings open have a combined keyring. -/
theorem exists_combined {now later : UInt64} (hlater : now ≤ later) {bundles : List Bundle}
    (hisolated : ∀ b ∈ bundles, ∃ k, fromRevalidatedStagedBundle lib now b = .ok k) {own : Bundle}
    (hown : own ∈ bundles) : ∃ combined,
      fromRevalidatedStagedBundles lib later bundles = .ok combined ∧
      Keyring.openKeys lib (bundles.flatMap (·.certificates)).sortDedup = .ok combined.native := by
  have hvalid : forM bundles (validateRevalidatedStagedBundle lib later) = .ok () := by
    rw [Except.forM_eq_ok]
    intro b hb
    obtain ⟨k, hk⟩ := hisolated b hb
    exact validateRevalidatedStagedBundle_mono hlater (fromBundle_eq_ok hk).1
  have himports : ∀ blob ∈ (bundles.flatMap (·.certificates)).sortDedup,
      ∃ r, importBlob lib blob = .ok r := by
    intro blob hblob
    obtain ⟨b, hb, hmem⟩ := List.mem_flatMap.mp (List.mem_sortDedup.mp hblob)
    obtain ⟨k, hk⟩ := hisolated b hb
    obtain ⟨-, imports, hall, -⟩ := openKeys_eq_ok.mp (fromBundle_eq_ok hk).2
    obtain ⟨r, -, hr⟩ := hall.exists_right (List.mem_sortDedup.mpr hmem)
    exact ⟨r, hr⟩
  have hne : (bundles.flatMap (·.certificates)).sortDedup ≠ [] := by
    obtain ⟨k, hk⟩ := hisolated own hown
    obtain ⟨blob, hblob⟩ := List.exists_mem_of_ne_nil _ (openKeys_eq_ok.mp (fromBundle_eq_ok hk).2).1
    have hmem := List.mem_flatMap.mpr ⟨own, hown, List.mem_sortDedup.mp hblob⟩
    exact List.ne_nil_of_mem (List.mem_sortDedup.mpr hmem)
  obtain ⟨ring, hring⟩ := exists_openKeys hne himports
  refine ⟨⟨ring, (bundles.flatMap (·.policy.allowedPrimaryFingerprints)).sortDedup⟩, ?_, hring⟩
  rw [fromRevalidatedStagedBundles, fromBundles, Except.check_bind_eq_ok, openStagedKeyring_eq_ok]
  exact ⟨hvalid, hring, rfl⟩

/-- The combined keyring has the identities of each. -/
theorem identities_subset {bundles : List Bundle} {own : Bundle} {combined isolated : Keyring}
    (hown : own ∈ bundles)
    (hcombined : Keyring.openKeys lib (bundles.flatMap (·.certificates)).sortDedup = .ok combined)
    (hisolated : Keyring.openKeys lib own.certificates.sortDedup = .ok isolated) :
    ∀ identity ∈ isolated.identities, identity ∈ combined.identities := by
  intro identity hidentity
  obtain ⟨blob, hblob, hrest⟩ := (mem_identities_iff hisolated).mp hidentity
  refine (mem_identities_iff hcombined).mpr ⟨blob, ?_, hrest⟩
  exact List.mem_sortDedup.mpr (List.mem_flatMap.mpr ⟨own, hown, List.mem_sortDedup.mp hblob⟩)

end

/-! ## Keeping the signer -/

/-- How many identities have the signing fingerprint. -/
def Keyring.occurrences (ring : Keyring) (fingerprint : String) : Nat :=
  (ring.identities.filter (·.signing = fingerprint)).length

/-- A ring has a signer where another one found it: librpm verifies the file with its keys too, the
fingerprint is there once, and no packet before names some other key that is there once. -/
structure KeepsSigner (lib : Librpm) (ring : Keyring) (file : List UInt8) (signing : String) :
    Prop where
  verified : lib.readPackageFile ring.keys file = 0
  once : ring.occurrences signing = 1
  first : ∀ earlier ∈ (claims lib file).takeWhile (· ≠ signing), ring.occurrences earlier ≠ 1

section
variable {lib : Librpm} {ring own : Keyring} {file : List UInt8}

theorem occurrences_eq_one {fingerprint : String} :
    ring.occurrences fingerprint = 1 ↔ ∃ identity, ring.only fingerprint = some identity := by
  rw [Keyring.occurrences, List.length_eq_one_iff]
  simp only [Keyring.only_eq_some]

theorem only_eq_none {fingerprint : String} :
    ring.only fingerprint = none ↔ ring.occurrences fingerprint ≠ 1 := by
  rw [ne_eq, occurrences_eq_one, ← Option.isSome_iff_exists, Option.not_isSome_iff_eq_none]

theorem takeWhile_ne_eq {α : Type} [DecidableEq α] {a : α} {pre post : List α} (h : a ∉ pre) :
    (pre ++ a :: post).takeWhile (· ≠ a) = pre := by
  rw [List.takeWhile_append_of_pos]
  · simp
  · intro b hb
    refine decide_eq_true fun heq => h ?_
    rwa [← heq]

/-- The search ends at the first claim of the signer that it finds. -/
theorem findSome?_only_eq_some {signer : SignerIdentity}
    (h : (claims lib file).findSome? ring.only = some signer) :
    ∃ pre post, claims lib file = pre ++ signer.signing :: post ∧ signer.signing ∉ pre ∧
      ring.only signer.signing = some signer ∧ ∀ earlier ∈ pre, ring.only earlier = none := by
  obtain ⟨pre, fingerprint, post, heq, honly, hpre⟩ := List.findSome?_eq_some_iff.mp h
  obtain rfl : signer.signing = fingerprint := (Keyring.mem_of_only honly).2
  refine ⟨pre, post, heq, fun hmem => ?_, honly, hpre⟩
  rw [hpre _ hmem] at honly
  cases honly

theorem keepsSigner_of_found {signer : SignerIdentity}
    (hverified : lib.readPackageFile ring.keys file = 0)
    (h : (claims lib file).findSome? ring.only = some signer) :
    KeepsSigner lib ring file signer.signing := by
  obtain ⟨pre, post, heq, hnotMem, honly, hpre⟩ := findSome?_only_eq_some h
  refine ⟨hverified, occurrences_eq_one.mpr ⟨signer, honly⟩, fun earlier hearlier => ?_⟩
  rw [heq, takeWhile_ne_eq hnotMem] at hearlier
  exact only_eq_none.mp (hpre earlier hearlier)

/-- A larger ring that keeps the signer finds it. -/
theorem found_of_keepsSigner {signer : SignerIdentity}
    (hown : (claims lib file).findSome? own.only = some signer)
    (hsubset : ∀ identity ∈ own.identities, identity ∈ ring.identities)
    (h : KeepsSigner lib ring file signer.signing) :
    (claims lib file).findSome? ring.only = some signer := by
  obtain ⟨pre, post, heq, hnotMem, honly, -⟩ := findSome?_only_eq_some hown
  have hfirst := h.first
  rw [heq, takeWhile_ne_eq hnotMem] at hfirst
  refine List.findSome?_eq_some_iff.mpr ⟨pre, signer.signing, post, heq, ?_, fun earlier he => ?_⟩
  · -- the one identity there is the one of the smaller ring
    obtain ⟨identity, hidentity⟩ := occurrences_eq_one.mp h.once
    have hsame : signer ∈ ring.identities.filter (·.signing = signer.signing) :=
      List.mem_filter.mpr ⟨hsubset signer (Keyring.mem_of_only honly).1, decide_eq_true rfl⟩
    rw [Keyring.only_eq_some.mp hidentity, List.mem_singleton] at hsame
    rw [hidentity, hsame]
  · exact only_eq_none.mpr (hfirst earlier he)

theorem verifyFd_same_iff {package : VerifiedPackage} (hown : own.verifyFd lib file = .ok package)
    (hsubset : ∀ identity ∈ own.identities, identity ∈ ring.identities) :
    ring.verifyFd lib file = .ok package ↔
      KeepsSigner lib ring file package.signingFingerprint := by
  constructor
  · intro h
    obtain ⟨hread, -, signer, hsigner, hpackage⟩ := verifyFd_eq_ok.mp h
    rw [(fingerprints_of_verifiedPackage hpackage).2]
    exact keepsSigner_of_found hread hsigner
  · intro h
    obtain ⟨-, hdigest, signer, hsigner, hpackage⟩ := verifyFd_eq_ok.mp hown
    rw [(fingerprints_of_verifiedPackage hpackage).2] at h
    have hfound := found_of_keepsSigner hsigner hsubset h
    exact verifyFd_eq_ok.mpr ⟨h.verified, hdigest, signer, hfound, hpackage⟩

end

section
variable {lib : Librpm} {keyring : KeyringInstalled} {file : List UInt8} {a : VerifiedArtifact}

theorem reverify_iff (hdigest : a.artifactSha256 = lib.sha256 file)
    (hsize : a.artifactSize = file.length) :
    reverify lib keyring.native file a = true ↔ keyring.native.verifyFd lib file = .ok a.expected := by
  rw [reverify, hdigest, hsize]
  cases keyring.native.verifyFd lib file with
  | error e => simp
  | ok actual => simp

theorem addInstall_iff (hdigest : a.artifactSha256 = lib.sha256 file)
    (hsize : a.artifactSize = file.length) : addInstall lib keyring file a = .ok () ↔
      fromVerified lib a.expected = .ok () ∧
        keyring.native.verifyFd lib file = .ok a.expected := by
  rw [addInstall, Except.check_bind_eq_ok, Except.bind_eq_ok]
  simp only [Except.check_bind_eq_ok, Except.refuseIf_eq_ok, not_not, Bool.not_eq_true',
    Bool.not_eq_false]
  refine and_congr_right fun _ => ⟨?_, fun h => ?_⟩
  · rintro ⟨actual, hactual, rfl, -⟩
    exact hactual
  · exact ⟨a.expected, h, rfl, (reverify_iff hdigest hsize).mpr h⟩

end

/-- **When the combined keyring accepts what a repository's keyring accepted.** For repositories
whose keyrings open, the combined keyring opens. It attributes an artifact that its own repository
accepts to the same key, and every reverification accepts it, exactly when the ring keeps the signer;
it can be added for installation when besides its texts fit the arrays of the transaction. -/
theorem combined_keeps_iff {lib : Librpm} {now later : UInt64} {bundles : List Bundle} {own : Bundle}
    {keyring : KeyringInstalled} {file : List UInt8} {expected : ExpectedPackage}
    {artifact : VerifiedArtifact} (hlater : now ≤ later)
    (hisolated : ∀ b ∈ bundles, ∃ k, fromRevalidatedStagedBundle lib now b = .ok k)
    (hown : own ∈ bundles) (hopen : fromRevalidatedStagedBundle lib now own = .ok keyring)
    (haccept : keyring.verifyArtifact lib file expected own.policy.signingSubkeyRule = .ok artifact) :
    ∃ combined, fromRevalidatedStagedBundles lib later bundles = .ok combined ∧
      (combined.native.verifyFd lib file = .ok artifact.expected ↔
        KeepsSigner lib combined.native file artifact.signingFingerprint) ∧
      (reverify lib combined.native file artifact = true ↔
        KeepsSigner lib combined.native file artifact.signingFingerprint) ∧
      (addInstall lib combined file artifact = .ok () ↔
        fromVerified lib artifact.expected = .ok () ∧
          KeepsSigner lib combined.native file artifact.signingFingerprint) := by
  obtain ⟨combined, hcombined, hring⟩ := exists_combined hlater hisolated hown
  obtain ⟨hverified, -, hdigest, hsize⟩ := verifyArtifact_eq_ok haccept
  have hsubset := identities_subset hown hring (fromBundle_eq_ok hopen).2
  have hiff : combined.native.verifyFd lib file = .ok artifact.expected ↔
      KeepsSigner lib combined.native file artifact.signingFingerprint :=
    verifyFd_same_iff hverified hsubset
  refine ⟨combined, hcombined, hiff, ?_, ?_⟩
  · rw [reverify_iff hdigest hsize, hiff]
  · rw [addInstall_iff hdigest hsize, hiff]

/-! Two repositories with the same certificate. -/

def vendorUpdates (file : List UInt8) : Bundle := vendorBundle "updates" Core.updates_ne_empty [file]

/-- In the same file, the certificate is there once. -/
theorem keeps_signer_same_file : ∃ keyring artifact combined,
    acceptApp (smallLibrpm 0xaa [0xaa]) vendor = .ok (keyring, artifact) ∧
      fromRevalidatedStagedBundles (smallLibrpm 0xaa [0xaa]) 1 [vendor, vendorUpdates [0xaa]] =
        .ok combined ∧
      addInstall (smallLibrpm 0xaa [0xaa]) combined smallFile artifact = .ok () := by
  have hshown : (acceptApp (smallLibrpm 0xaa [0xaa]) vendor).toOption.map (fun r =>
      (r.2.signingFingerprint, (fromVerified (smallLibrpm 0xaa [0xaa]) r.2.expected).isOk)) =
      some (fingerprintOf 0xaa, true) := by decide +kernel
  obtain ⟨⟨keyring, artifact⟩, hrun, heq⟩ := Except.toOption_map_eq_some.mp hshown
  obtain ⟨hsigning, hfits⟩ := Prod.mk.inj heq
  obtain ⟨hopen, haccept⟩ := acceptApp_eq_ok hrun
  have hupdates : ((fromRevalidatedStagedBundle (smallLibrpm 0xaa [0xaa]) 0
      (vendorUpdates [0xaa])).toOption.map fun k => k.native.keys) = some [[0xaa]] := by decide +kernel
  obtain ⟨other, hother, -⟩ := Except.toOption_map_eq_some.mp hupdates
  obtain ⟨combined, hcombined, -, -, hadd⟩ := @combined_keeps_iff (smallLibrpm 0xaa [0xaa]) 0 1
    [vendor, vendorUpdates [0xaa]] vendor keyring smallFile expectedApp artifact (by decide)
    (by simpa using ⟨⟨keyring, hopen⟩, ⟨other, hother⟩⟩) (by simp) hopen haccept
  have hring : (fromRevalidatedStagedBundles (smallLibrpm 0xaa [0xaa]) 1
      [vendor, vendorUpdates [0xaa]]).toOption.map (fun k => k.native) = some vendorRing := by
    decide +kernel
  obtain ⟨combined', hcombined', hsame⟩ := Except.toOption_map_eq_some.mp hring
  obtain rfl : combined = combined' := Except.ok.inj (hcombined.symm.trans hcombined')
  have hkeeps : KeepsSigner (smallLibrpm 0xaa [0xaa]) vendorRing smallFile (fingerprintOf 0xaa) :=
    ⟨by decide +kernel, by decide +kernel, by decide +kernel⟩
  refine ⟨keyring, artifact, combined, hrun, hcombined, hadd.mpr ⟨?_, ?_⟩⟩
  · cases hcopy : fromVerified (smallLibrpm 0xaa [0xaa]) artifact.expected with
    | ok u => rfl
    | error e =>
      rw [hcopy] at hfits
      cases hfits
  · rw [show artifact.signingFingerprint = _ from hsigning, show combined.native = _ from hsame]
    exact hkeeps

/-- In files that differ by a line end it is there twice, and nothing that it signed is installed. -/
theorem loses_signer_other_file : ∃ keyring artifact combined other,
    acceptApp (smallLibrpm 0xaa [0xaa]) vendor = .ok (keyring, artifact) ∧
      fromRevalidatedStagedBundle (smallLibrpm 0xaa [0xaa]) 0 (vendorUpdates [0xaa, 10]) =
        .ok other ∧
      fromRevalidatedStagedBundles (smallLibrpm 0xaa [0xaa]) 1 [vendor, vendorUpdates [0xaa, 10]] =
        .ok combined ∧
      combined.native.verifyFd (smallLibrpm 0xaa [0xaa]) smallFile =
        .error "verified signature issuer was not attributed" ∧
      addInstall (smallLibrpm 0xaa [0xaa]) combined smallFile artifact ≠ .ok () := by
  have haccepted : (acceptApp (smallLibrpm 0xaa [0xaa]) vendor).toOption.map (fun r => r.1.native) =
      some vendorRing := by decide +kernel
  obtain ⟨⟨keyring, artifact⟩, hrun, -⟩ := Except.toOption_map_eq_some.mp haccepted
  have hupdates : ((fromRevalidatedStagedBundle (smallLibrpm 0xaa [0xaa]) 0
      (vendorUpdates [0xaa, 10])).toOption.map fun k => k.native.keys) = some [[0xaa]] := by
    decide +kernel
  obtain ⟨other, hother, -⟩ := Except.toOption_map_eq_some.mp hupdates
  have hring : (fromRevalidatedStagedBundles (smallLibrpm 0xaa [0xaa]) 1
      [vendor, vendorUpdates [0xaa, 10]]).toOption.map (fun k => k.native) =
      some ⟨[[0xaa], [0xaa], [0xbb]],
        [identityNamed 0xaa, identityNamed 0xaa, identityNamed 0xbb]⟩ := by decide +kernel
  obtain ⟨combined, hcombined, hnative⟩ := Except.toOption_map_eq_some.mp hring
  have hlost : combined.native.verifyFd (smallLibrpm 0xaa [0xaa]) smallFile =
      .error "verified signature issuer was not attributed" := by
    rw [hnative]
    decide +kernel
  refine ⟨keyring, artifact, combined, other, hrun, hother, hcombined, hlost, fun hadd => ?_⟩
  rw [addInstall, Except.check_bind_eq_ok, Except.bind_eq_ok] at hadd
  obtain ⟨-, actual, hactual, -⟩ := hadd
  rw [hlost] at hactual
  cases hactual

end Dnfast.Trust
