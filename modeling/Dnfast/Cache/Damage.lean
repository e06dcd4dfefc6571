import Dnfast.Cache.Derived
import Dnfast.Data.Raises

/-! # Damaged derived files

The readers find every damage of the bytes but one: a text that is not UTF-8 is an I/O error where the
file is read as a string, so the entry counts as unreadable and not as one to build again. -/

namespace Dnfast.Cache.Derived

open Except (Raises raises_bind raises_check_bind)
open Core (Sha256Digest)

/-- The callers repair what such an error reports. -/
def Repairable (e : CacheError) : Prop := ∃ message, e = .corrupt message

@[simp] theorem repairable_corrupt {message : String} : Repairable (.corrupt message) := ⟨message, rfl⟩

@[simp] theorem not_repairable_io {message : String} : ¬ Repairable (.io message) := fun ⟨_, h⟩ => nomatch h

/-- The bytes of the file, when their number is accepted, are a text. -/
def Legible (file : Option Bytes) (maximum : Nat) : Prop :=
  ∀ bytes, file = some bytes → bytes ≠ [] → bytes.length ≤ maximum → (String.ofBytes? bytes).isSome

/-! ## Solv entries -/

theorem raises_validateDigest {value role : String} : Raises Repairable (validateDigest value role) := by
  simp [validateDigest]

theorem raises_parseProtection {protection digest : String} :
    Raises Repairable (parseProtection protection digest) := by
  unfold parseProtection
  split
  · refine raises_validateDigest.bind fun _ => ?_
    simp [raises_bind]
  · split
    · exact Except.raises_ok
    · exact Except.raises_error.mpr repairable_corrupt

theorem raises_parseCookie {value : String} : Raises Repairable (parseCookie value) := by
  unfold parseCookie cookieField
  simp [raises_bind, raises_validateDigest, raises_parseProtection]

theorem raises_readToString {bytes : Bytes} :
    Raises Repairable (readToString bytes) ↔ (String.ofBytes? bytes).isSome := by
  rw [readToString, Except.raises_okOr, Option.isSome_iff_ne_none]
  simp

theorem raises_validateRegular {bytes : Bytes} : Raises Repairable (validateRegular bytes) := by
  simp [validateRegular]

theorem validateRegular_eq_ok {bytes : Bytes} :
    validateRegular bytes = .ok () ↔ bytes ≠ [] ∧ bytes.length ≤ MAX_SOLV_BYTES := by
  rw [validateRegular, Except.refuseIf_eq_ok, not_or, not_lt]

/-- The cookie is a text, or its size is refused. -/
theorem raises_readIntegrityCookie {file : Option Bytes} :
    Raises Repairable (readIntegrityCookie file) ↔ Legible file MAX_INTEGRITY_COOKIE_BYTES := by
  cases file with
  | none => exact iff_of_true Except.raises_ok nofun
  | some bytes =>
    have hparse : ∀ value : String, Raises Repairable (do return some (← parseCookie value)) :=
      fun value => raises_parseCookie.bind fun _ => Except.raises_pure
    unfold readIntegrityCookie Legible
    dsimp only
    rw [raises_check_bind, raises_check_bind, raises_bind, validateRegular_eq_ok, Except.refuseIf_eq_ok,
      raises_readToString, not_lt]
    constructor
    · rintro ⟨-, h⟩ _ ⟨⟩ hne hle
      exact ((h ⟨hne, hle.trans (by decide)⟩).2 hle).1
    · intro h
      exact ⟨raises_validateRegular, fun ⟨hne, _⟩ => ⟨by simp, fun hle => ⟨h bytes rfl hne hle,
        fun value _ => hparse value⟩⟩⟩

variable {sha256 : Bytes → Sha256Digest}

theorem raises_readReference {file : Option Bytes} : Raises Repairable (readReference file) := by
  cases file with
  | none => exact Except.raises_ok
  | some bytes =>
    unfold readReference
    simp [raises_bind, raises_validateRegular, raises_validateDigest]

theorem raises_verifyProtection {w : SolvWorld} {p : IntegrityProtection} :
    Raises Repairable (verifyProtection w p) := by
  cases p with
  | fsVerity expected => simp [verifyProtection, raises_bind]
  | btrfsChecksum => simp [verifyProtection]

theorem raises_protect {w : SolvWorld} : Raises Repairable (protect w) := by
  unfold protect
  split
  · simp
  · split
    all_goals exact Except.raises_ok

theorem raises_verifyContent {w : SolvWorld} {content : Bytes} {binding expected : String}
    {cookie : Option IntegrityCookie} :
    Raises Repairable (verifyContent sha256 w content binding expected cookie) := by
  cases cookie with
  | some cookie => simp [verifyContent, raises_bind, raises_verifyProtection]
  | none => simp [verifyContent, raises_bind, verifyStream, raises_protect]

theorem raises_openContent {w : SolvWorld} {content cookie : Option Bytes} {binding expected : String} :
    Raises Repairable (openContent sha256 w content cookie binding expected) ↔
      ∀ bytes, content = some bytes → validateRegular bytes = .ok () →
        Legible cookie MAX_INTEGRITY_COOKIE_BYTES := by
  unfold openContent
  rw [raises_bind, Except.raises_okOr]
  refine (and_iff_right fun _ => repairable_corrupt).trans (forall_congr' fun bytes => ?_)
  rw [Except.okOr_eq_ok, raises_check_bind, raises_bind, raises_readIntegrityCookie]
  exact imp_congr_right fun _ => ⟨fun h hvalid => (h.2 hvalid).1,
    fun h => ⟨raises_validateRegular, fun hvalid => ⟨h hvalid, fun _ _ => raises_verifyContent⟩⟩⟩

/-- Opening an entry gets as far as the cookie: the binding and the reference are right, and the content is
there and has an accepted size. -/
def ReachesCookie (directory : Option SolvDirectory) (binding : String) (cookie : Option Bytes) : Prop :=
  ∃ d content bytes, validateDigest binding "solv cache binding" = .ok () ∧ directory = some d ∧
    readReference (d (binding ++ ".ref")) = .ok (some content) ∧
    d (binding ++ "-" ++ content ++ ".solv") = some bytes ∧ validateRegular bytes = .ok () ∧
    cookie = d.cookie binding content

theorem raises_openSolv {w : SolvWorld} {directory : Option SolvDirectory} {binding : String} :
    Raises Repairable (openSolv sha256 w directory binding) ↔
      ∀ cookie, ReachesCookie directory binding cookie → Legible cookie MAX_INTEGRITY_COOKIE_BYTES := by
  unfold openSolv ReachesCookie
  rw [raises_check_bind]
  cases directory with
  | none =>
    refine iff_of_true ⟨raises_validateDigest, fun _ => Except.raises_pure⟩ ?_
    rintro _ ⟨d, _, _, -, ⟨⟩, -⟩
  | some d =>
    dsimp only
    rw [raises_bind]
    constructor
    · rintro ⟨-, h⟩ _ ⟨_, content, bytes, hbinding, ⟨⟩, href, hbytes, hvalid, rfl⟩
      have hopen := (h hbinding).2 _ href
      dsimp only at hopen
      exact raises_openContent.mp (raises_bind.mp hopen).1 bytes hbytes hvalid
    · refine fun h => ⟨raises_validateDigest, fun hbinding => ⟨raises_readReference, fun found href => ?_⟩⟩
      cases found with
      | none => exact Except.raises_pure
      | some content =>
        refine Raises.bind (raises_openContent.mpr fun bytes hbytes hvalid => ?_) fun _ => Except.raises_pure
        exact h _ ⟨d, content, bytes, hbinding, rfl, href, hbytes, hvalid, rfl⟩

/-- The entry is ready or is built again, exactly when no error is left that cannot be repaired. -/
theorem cacheEntryReady_eq_ok {w : SolvWorld} {directory : Option SolvDirectory} {binding : String} :
    (∃ ready, cacheEntryReady sha256 w directory binding = .ok ready) ↔
      Raises Repairable (openSolv sha256 w directory binding) := by
  unfold cacheEntryReady
  generalize openSolv sha256 w directory binding = result
  cases result with
  | ok found => cases found <;> simp
  | error e => cases e <;> simp [Repairable]

/-! ## Receipts -/

theorem raises_readLimitedReceipt {file : Option Bytes} {maximum : Nat} {role : String} :
    Raises Repairable (readLimitedReceipt file maximum role) ↔ Legible file maximum := by
  cases file with
  | none => exact iff_of_true Except.raises_ok nofun
  | some bytes =>
    unfold readLimitedReceipt Legible
    dsimp only
    rw [raises_check_bind, raises_bind, Except.refuseIf_eq_ok, raises_readToString, not_or, not_lt]
    constructor
    · rintro ⟨-, h⟩ _ ⟨⟩ hne hle
      exact (h ⟨hne, hle⟩).1
    · refine fun h => ⟨by simp, fun ⟨hne, hle⟩ => ⟨h bytes rfl hne hle, fun value _ => ?_⟩⟩
      exact Raises.bind (by simp) fun _ => Except.raises_pure

variable {db : Except Native.NativeError Native.Rpmdb} {measured : Option Measured} {d : ReceiptDirectory}
  {binding : String} {generation : RpmDbVerifiedGeneration}

theorem raises_receiptOf : Raises Repairable ((d.files db measured).receiptOf generation) ↔
    Legible (d.receipts generation.receiptName) maxReceiptBytes := by
  rw [← @raises_readLimitedReceipt _ _ "RPMDB verification receipt"]
  unfold RpmdbFiles.receiptOf ReceiptDirectory.files
  dsimp only
  generalize readLimitedReceipt (d.receipts generation.receiptName) _ _ = result
  cases result with
  | ok found => cases found <;> simp
  | error e => cases e <;> simp [Repairable]

theorem raises_describe : Raises Repairable ((d.files db measured).describe sha256 binding) := by
  unfold RpmdbFiles.describe ReceiptDirectory.files
  dsimp only
  rw [Except.ok_bind]
  cases measured with
  | none => exact Except.raises_pure
  | some m =>
    refine Raises.bind ?_ fun _ => Except.raises_pure
    rw [Except.raises_refuseIf]
    exact fun _ => repairable_corrupt

theorem raises_check : Raises Repairable ((d.files db measured).check sha256 binding) ↔
    ∀ generation, validateDigest binding "RPMDB verification binding" = .ok () →
      (d.files db measured).describe sha256 binding = .ok (some generation) →
        Legible (d.receipts generation.receiptName) maxReceiptBytes := by
  unfold RpmdbFiles.check
  rw [raises_check_bind, raises_bind]
  constructor
  · rintro ⟨-, h⟩ generation hbinding hdescribe
    exact raises_receiptOf.mp (raises_bind.mp ((h hbinding).2 _ hdescribe)).1
  · refine fun h => ⟨raises_validateDigest, fun hbinding => ⟨raises_describe, fun found hfound => ?_⟩⟩
    cases found with
    | none => exact Except.raises_pure
    | some generation =>
      refine Raises.bind (raises_receiptOf.mpr (h generation hbinding hfound)) fun verdict => ?_
      cases verdict <;> exact Except.raises_pure

/-- The current receipt describes the generation that is measured. -/
def Describes (sha256 : Bytes → Sha256Digest) (d : ReceiptDirectory)
    (db : Except Native.NativeError Native.Rpmdb) (measured : Option Measured)
    (generation : RpmDbVerifiedGeneration) : Prop :=
  ∃ record, (d.files db measured).current = .ok (some (some record)) ∧
    (d.files db measured).describe sha256 record.binding = .ok (some generation) ∧
    generation.descriptor = record.descriptor

theorem raises_current : Raises Repairable (d.files db measured).current ↔
    Legible d.current MAX_CURRENT_RECEIPT_BYTES := by
  rw [← @raises_readLimitedReceipt _ _ "RPMDB current-generation receipt"]
  unfold ReceiptDirectory.files
  dsimp only
  rw [raises_bind]
  exact and_iff_left fun _ _ => Except.raises_pure

theorem raises_currentReceipt : Raises Repairable ((d.files db measured).currentReceipt sha256) ↔
    Legible d.current MAX_CURRENT_RECEIPT_BYTES ∧ ∀ generation, Describes sha256 d db measured generation →
      Legible (d.receipts generation.receiptName) maxReceiptBytes := by
  rw [← @raises_current db measured d]
  unfold RpmdbFiles.currentReceipt Describes
  cases hcurrent : (d.files db measured).current with
  | error e =>
    cases e <;> simp [Repairable]
  | ok found =>
    cases found with
    | none => simp
    | some record =>
      cases record with
      | none => simp
      | some record =>
        dsimp only
        rw [raises_bind, and_iff_right raises_describe, and_iff_right Except.raises_ok]
        constructor
        · rintro h generation ⟨_, ⟨⟩, hdescribe, hsame⟩
          have hrest := h _ hdescribe
          dsimp only at hrest
          rw [if_neg (not_not.mpr hsame)] at hrest
          exact raises_receiptOf.mp (raises_bind.mp hrest).1
        · intro h found hfound
          cases found with
          | none => exact Except.raises_pure
          | some generation =>
            dsimp only
            split
            · exact Except.raises_pure
            next hsame =>
              refine Raises.bind (raises_receiptOf.mpr
                (h generation ⟨record, rfl, hfound, not_not.mp hsame⟩)) fun verdict => ?_
              cases verdict <;> exact Except.raises_pure

/-- Whatever the bytes of the derived files are, opening a solv entry, checking a generation and reading
the current one report damage as something that the callers repair, exactly when the cookie and the
receipts that are read, where their size is accepted, are UTF-8. -/
theorem damage_iff (sha256 : Bytes → Sha256Digest) (w : SolvWorld) (directory : Option SolvDirectory)
    (d : ReceiptDirectory) (db : Except Native.NativeError Native.Rpmdb) (measured : Option Measured)
    (binding : String) :
    (Raises Repairable (openSolv sha256 w directory binding) ↔
      ∀ cookie, ReachesCookie directory binding cookie → Legible cookie MAX_INTEGRITY_COOKIE_BYTES) ∧
    ((∃ ready, cacheEntryReady sha256 w directory binding = .ok ready) ↔
      ∀ cookie, ReachesCookie directory binding cookie → Legible cookie MAX_INTEGRITY_COOKIE_BYTES) ∧
    (Raises Repairable ((d.files db measured).check sha256 binding) ↔
      ∀ generation, validateDigest binding "RPMDB verification binding" = .ok () →
        (d.files db measured).describe sha256 binding = .ok (some generation) →
          Legible (d.receipts generation.receiptName) maxReceiptBytes) ∧
    (Raises Repairable ((d.files db measured).currentReceipt sha256) ↔
      Legible d.current MAX_CURRENT_RECEIPT_BYTES ∧
        ∀ generation, Describes sha256 d db measured generation →
          Legible (d.receipts generation.receiptName) maxReceiptBytes) :=
  ⟨raises_openSolv, cacheEntryReady_eq_ok.trans raises_openSolv, raises_check, raises_currentReceipt⟩

/-- A cache directory whose only file is a current receipt that is not UTF-8. -/
def illegibleReceipts : ReceiptDirectory where
  receipts _ := none
  current := some [0xff, 0x0a]
  parseState _ := none

theorem illegible_current_receipt : ¬ Raises Repairable
    ((illegibleReceipts.files (.error .interrupted) none).currentReceipt fun _ => Core.zeroDigest) := by
  rw [raises_currentReceipt]
  rintro ⟨hcurrent, -⟩
  have htext := hcurrent [0xff, 0x0a] rfl (by decide) (by decide)
  revert htext
  decide +kernel

end Dnfast.Cache.Derived
