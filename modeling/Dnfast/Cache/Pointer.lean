import Dnfast.Cache.Model
import Dnfast.Json.Weight

/-! # Reading a pointer back

A pointer that is written with evidence that is valid is read as it was written: it is short enough, it
is no digest alone, and it is the canonical document of itself. -/

namespace Dnfast.Cache

open Core (isLowerDigest isAsciiHexdigit lowerHexDigits)
open Except (refuseIf okOr)
open Planning (RepomdAuthentication)

/-! ## The document -/

theorem authenticationOf_authenticationValue (a : RepomdAuthentication) :
    authenticationOf (authenticationValue a) = some a := by
  cases a <;> rfl

theorem ofValue_value (p : CurrentPointer) : CurrentPointer.ofValue p.value = some p := by
  have hversion : (Json.field [("version", .num p.version.toNat), ("digest", .str p.digest),
      ("repomd_authentication", authenticationValue p.repomdAuthentication)] "version").bind
        Json.u32Of = some p.version := Json.u32Of_toNat p.version
  have honly : Json.onlyFields [("version", .num p.version.toNat), ("digest", .str p.digest),
      ("repomd_authentication", authenticationValue p.repomdAuthentication)]
        ["version", "digest", "repomd_authentication"] = true := rfl
  have hauthentication : (Json.field [("version", .num p.version.toNat), ("digest", .str p.digest),
      ("repomd_authentication", authenticationValue p.repomdAuthentication)]
        "repomd_authentication").bind authenticationOf = some p.repomdAuthentication :=
    authenticationOf_authenticationValue p.repomdAuthentication
  simp only [CurrentPointer.value, CurrentPointer.ofValue, honly, if_true, hversion,
    hauthentication, Option.bind_eq_bind, Option.bind_some]
  rfl

/-! ## Its length -/

theorem length_renderString_of_hex {s : String} (h : ∀ c ∈ s.toList, isAsciiHexdigit c = true) :
    (Json.renderString s).length = s.toList.length + 2 := by
  have hone : ∀ c ∈ lowerHexDigits ++ "ABCDEF".toList, (Json.escapeChar c).length = 1 :=
    List.all_iff_forall_prop.mp (by decide)
  have hchars : (s.toList.flatMap Json.escapeChar).length = s.toList.length := by
    rw [List.length_flatMap, List.map_congr_left fun c hc => hone c (by simpa [isAsciiHexdigit] using h c hc)]
    simp
  simp only [Json.renderString, List.length_cons, List.length_append, hchars, List.length_nil]

theorem hex_of_isLowerDigest {s : String} (h : isLowerDigest s = true) :
    s.toList.length = 64 ∧ ∀ c ∈ s.toList, isAsciiHexdigit c = true := by
  simp only [isLowerDigest, Bool.and_eq_true, beq_iff_eq, List.all_eq_true, decide_eq_true_eq] at h
  exact ⟨h.1, fun c hc => by simpa [isAsciiHexdigit] using .inl (h.2 c hc)⟩

theorem hex_of_validFingerprint {s : String} (h : RepomdAuthentication.validFingerprint s = true) :
    s.toList.length = 40 ∧ ∀ c ∈ s.toList, isAsciiHexdigit c = true := by
  simp only [RepomdAuthentication.validFingerprint, Bool.and_eq_true, beq_iff_eq,
    List.all_eq_true] at h
  exact ⟨h.1, fun c hc => (h.2 c hc).1⟩

theorem length_authenticationValue_le {a : RepomdAuthentication} (h : a.validate = .ok ()) :
    (authenticationValue a).render.length ≤ 600 := by
  cases a with
  | transportOnly => decide +kernel
  | openPgp primary signing bundle signature =>
    simp only [RepomdAuthentication.validate, Except.refuseIf_eq_ok, Bool.or_eq_true,
      Bool.not_eq_true', not_or, Bool.not_eq_false] at h
    obtain ⟨⟨⟨hprimary, hsigning⟩, hbundle⟩, hsignature⟩ := h
    obtain ⟨hp, hp'⟩ := hex_of_validFingerprint hprimary
    obtain ⟨hs, hs'⟩ := hex_of_validFingerprint hsigning
    obtain ⟨hb, hb'⟩ := hex_of_isLowerDigest hbundle
    obtain ⟨hg, hg'⟩ := hex_of_isLowerDigest hsignature
    have hkeys : (Json.renderString "kind").length = 6 ∧ (Json.renderString "open_pgp").length = 10 ∧
        (Json.renderString "primary_fingerprint").length = 21 ∧
        (Json.renderString "signing_fingerprint").length = 21 ∧
        (Json.renderString "key_bundle_sha256").length = 19 ∧
        (Json.renderString "signature_sha256").length = 18 := by decide +kernel
    obtain ⟨h₁, h₂, h₃, h₄, h₅, h₆⟩ := hkeys
    simp only [authenticationValue, Json.Value.render, Json.Value.renderMembers, List.length_cons,
      List.length_append, List.length_nil, length_renderString_of_hex hp',
      length_renderString_of_hex hs', length_renderString_of_hex hb', length_renderString_of_hex hg',
      hp, hs, hb, hg, h₁, h₂, h₃, h₄, h₅, h₆]
    omega

theorem length_bytes_le {digest : String} {a : RepomdAuthentication} (hd : isLowerDigest digest = true)
    (ha : a.validate = .ok ()) : (CurrentPointer.bytes ⟨1, digest, a⟩).length ≤ 2048 := by
  obtain ⟨hd, hd'⟩ := hex_of_isLowerDigest hd
  have hkeys : (Json.renderString "version").length = 9 ∧ (Json.renderString "digest").length = 8 ∧
      (Json.renderString "repomd_authentication").length = 23 ∧
      (Json.renderInt (1 : UInt32).toNat).length = 1 := by decide +kernel
  obtain ⟨h₁, h₂, h₃, h₄⟩ := hkeys
  have hvalue := length_authenticationValue_le ha
  simp only [CurrentPointer.bytes, CurrentPointer.value, Json.Value.render,
    Json.Value.renderMembers, List.length_cons, List.length_append, List.length_nil, h₁, h₂, h₃, h₄, hd, length_renderString_of_hex hd']
  omega

/-! ## It is no digest -/

theorem eq_of_utf8EncodeChar_eq_cons {c : Char} {b : UInt8} {bs : List UInt8} (hb : b.toNat < 128)
    (h : String.utf8EncodeChar c = b :: bs) : c.toNat = b.toNat := by
  have hc : c.toNat ≤ 127 := by
    by_contra hc
    have := Json.le_of_mem_utf8EncodeChar (by omega) (h ▸ List.mem_cons_self : b ∈ String.utf8EncodeChar c)
    omega
  have hc' : c.val.toNat ≤ 127 := hc
  simp only [String.utf8EncodeChar, hc', if_true, List.cons.injEq] at h
  rw [← h.1, UInt8.toNat_ofNat']
  change c.toNat = c.toNat % 256
  omega

theorem mem_trim {c : Char} {text : List Char} (h : c ∈ text)
    (hc : Metadata.isUnicodeWhitespace c = false) : c ∈ trim text := by
  have hall : ∀ {l : List Char}, c ∈ l.takeWhile Metadata.isUnicodeWhitespace →
      Metadata.isUnicodeWhitespace c = true := fun h => List.all_eq_true.mp List.all_takeWhile c h
  have hmem : ∀ {l : List Char}, c ∈ l → c ∈ l.dropWhile Metadata.isUnicodeWhitespace := by
    intro l hl
    rw [← List.takeWhile_append_dropWhile (p := Metadata.isUnicodeWhitespace) (l := l),
      List.mem_append] at hl
    refine hl.resolve_left fun hl => ?_
    rw [hall hl] at hc
    cases hc
  exact List.mem_reverse.mpr (hmem (List.mem_reverse.mpr (hmem h)))

theorem legacyDigest_bytes (p : CurrentPointer) : legacyDigest p.bytes = none := by
  have hcons : ∃ rest, p.bytes = 0x7b :: rest := ⟨_, rfl⟩
  obtain ⟨rest, hrest⟩ := hcons
  unfold legacyDigest
  cases htext : String.ofBytes? p.bytes with
  | none => rfl
  | some text =>
    have hbrace : '{' ∈ text.toList := by
      have hbytes := String.asBytes_of_ofBytes?_eq_some htext
      rw [String.asBytes_eq_flatMap, hrest] at hbytes
      cases hlist : text.toList with
      | nil => simp [hlist] at hbytes
      | cons c cs =>
        obtain ⟨b, bs, hb⟩ := Json.utf8EncodeChar_eq_cons c
        rw [hlist, List.flatMap_cons, hb, List.cons_append, List.cons.injEq] at hbytes
        have hc := eq_of_utf8EncodeChar_eq_cons (by rw [hbytes.1]; decide) hb
        rw [hbytes.1] at hc
        have : c = '{' := Char.ext (UInt32.toNat_inj.mp hc)
        exact this ▸ List.mem_cons_self
    have hdigest : isLowerDigest (String.ofList (trim text.toList)) = false := by
      rw [← Bool.not_eq_true]
      intro h
      have hall := (hex_of_isLowerDigest h).2 '{' (by
        rw [String.toList_ofList]
        exact mem_trim hbrace (by decide))
      exact absurd hall (by decide)
    simp [hdigest]

theorem readPointer_bytes {digest : String} {a : RepomdAuthentication}
    (hd : isLowerDigest digest = true) (ha : a.validate = .ok ()) :
    readPointer (CurrentPointer.bytes ⟨1, digest, a⟩) = .ok ⟨1, digest, a⟩ := by
  have hparse : (Json.parse (CurrentPointer.bytes ⟨1, digest, a⟩)).bind CurrentPointer.ofValue =
      some ⟨1, digest, a⟩ := by
    rw [CurrentPointer.bytes, Json.parse_render, Option.bind_some, ofValue_value]
  have hok : ¬((1 : UInt32) ≠ 1 ∨ (!isLowerDigest digest) = true ∨
      CurrentPointer.bytes ⟨1, digest, a⟩ ≠ CurrentPointer.bytes ⟨1, digest, a⟩) := by simp [hd]
  unfold readPointer
  simp only [legacyDigest_bytes, Except.bind_eq_ok, Except.okOr_eq_ok, Except.refuseIf_eq_ok,
    Except.pure_eq_ok]
  exact ⟨_, hparse, (), hok, (), by rw [ha]; rfl, rfl⟩

end Dnfast.Cache
