import Mathlib.Data.Bool.AllAny
import Mathlib.Data.Prod.Lex
import Mathlib.Data.String.Basic
import Mathlib.Order.WithBot
import Dnfast.Core.Canonical

/-! # Package identities

The value types of `dnfast-core`, `value.rs`: architectures, EVRAs with the RPM comparison of
versions, and SHA-256 digests. `Sha256Digest` carries its well-formedness; an `Evra` does not, since
`Evra::new` accepts empty parts and leaves it to `validate` to refuse them.

Orders are the derived ones: enumerations by position, records field by field. They are linear
orders, by injection into a lexicographic product. -/

namespace Dnfast.Core

inductive Architecture where
  | aarch64
  | x86_64
  | noarch
  deriving DecidableEq, Repr

namespace Architecture

def asRpmArch : Architecture → String
  | aarch64 => "aarch64"
  | x86_64 => "x86_64"
  | noarch => "noarch"

def rank : Architecture → Nat
  | aarch64 => 0
  | x86_64 => 1
  | noarch => 2

theorem rank_injective : Function.Injective rank := by
  intro a b h
  cases a <;> cases b <;> first | rfl | cases h

instance : LinearOrder Architecture := LinearOrder.lift' rank rank_injective

end Architecture

/-! ## Digests -/

def lowerHexDigits : List Char := "0123456789abcdef".toList

/-- `is_ascii_hexdigit`. -/
def isAsciiHexdigit (c : Char) : Bool := c ∈ lowerHexDigits ++ "ABCDEF".toList

/-- The text is a SHA-256 digest as `Sha256Digest::parse` leaves it. -/
def isLowerDigest (value : String) : Bool :=
  value.toList.length == 64 && value.toList.all fun c => c ∈ lowerHexDigits

theorem mem_lowerHexDigits_of_code {c : Char}
    (h : (48 ≤ c.toNat && c.toNat ≤ 57 || 97 ≤ c.toNat && c.toNat ≤ 102) = true) :
    c ∈ lowerHexDigits := by
  have hall : ∀ n ∈ List.range 103, (48 ≤ n && n ≤ 57 || 97 ≤ n && n ≤ 102) = true →
      Char.ofNat n ∈ lowerHexDigits := by decide +kernel
  have hrange : c.toNat ∈ List.range 103 := by
    simp only [Bool.or_eq_true, Bool.and_eq_true, decide_eq_true_eq] at h
    rw [List.mem_range]
    omega
  rw [← Char.ofNat_toNat c]
  exact hall c.toNat hrange h

/-- A digest that is written out, by the codes of its digits. -/
theorem isLowerDigest_ofList {digits : List Char}
    (h : (digits.length == 64 && digits.all fun c =>
      48 ≤ c.toNat && c.toNat ≤ 57 || 97 ≤ c.toNat && c.toNat ≤ 102) = true) :
    isLowerDigest (String.ofList digits) = true := by
  rw [Bool.and_eq_true, List.all_eq_true] at h
  rw [isLowerDigest, String.toList_ofList, Bool.and_eq_true, List.all_eq_true]
  exact ⟨h.1, fun c hc => decide_eq_true (mem_lowerHexDigits_of_code (h.2 c hc))⟩

structure Sha256Digest where
  asStr : String
  canonical : isLowerDigest asStr = true
  deriving DecidableEq

namespace Sha256Digest

theorem toLower_mem_lowerHexDigits {c : Char} (h : isAsciiHexdigit c = true) :
    c.toLower ∈ lowerHexDigits := by
  have hall : ∀ c ∈ lowerHexDigits ++ "ABCDEF".toList, c.toLower ∈ lowerHexDigits :=
    List.all_iff_forall_prop.mp (by decide)
  exact hall c (by simpa [isAsciiHexdigit] using h)

theorem toLower_of_mem_lowerHexDigits {c : Char} (h : c ∈ lowerHexDigits) : c.toLower = c := by
  have hall : ∀ c ∈ lowerHexDigits, c.toLower = c :=
    List.all_iff_forall_prop.mp (by decide)
  exact hall c h

def toAsciiLowercase (value : String) : String := String.ofList (value.toList.map Char.toLower)

theorem isLowerDigest_toAsciiLowercase {value : String} (hlen : value.toList.length = 64)
    (hhex : value.toList.all isAsciiHexdigit = true) :
    isLowerDigest (toAsciiLowercase value) = true := by
  simp only [isLowerDigest, toAsciiLowercase, String.toList_ofList, List.length_map, hlen,
    Bool.and_eq_true, List.all_eq_true, List.mem_map, decide_eq_true_eq]
  refine ⟨by decide, ?_⟩
  rintro c ⟨d, hd, rfl⟩
  exact toLower_mem_lowerHexDigits (List.all_eq_true.mp hhex d hd)

def parse (value : String) (field : String) : Except DomainError Sha256Digest :=
  if h : value.toList.length = 64 ∧ value.toList.all isAsciiHexdigit = true then
    .ok ⟨toAsciiLowercase value, isLowerDigest_toAsciiLowercase h.1 h.2⟩
  else .error (.invalidDigest field)

theorem ext {a b : Sha256Digest} (h : a.asStr = b.asStr) : a = b := by
  cases a
  cases b
  cases h
  rfl

theorem asStr_injective : Function.Injective asStr := fun _ _ => ext

instance : LinearOrder Sha256Digest := LinearOrder.lift' asStr asStr_injective

@[simp] theorem parse_asStr (digest : Sha256Digest) (field : String) :
    parse digest.asStr field = .ok digest := by
  have hdigest := digest.canonical
  simp only [isLowerDigest, Bool.and_eq_true, beq_iff_eq, List.all_eq_true, decide_eq_true_eq]
    at hdigest
  obtain ⟨hlen, hhex⟩ := hdigest
  have hall : digest.asStr.toList.all isAsciiHexdigit = true := by
    rw [List.all_eq_true]
    intro c hc
    simpa [isAsciiHexdigit] using Or.inl (hhex c hc)
  have hlower : digest.asStr.toList.map Char.toLower = digest.asStr.toList := by
    conv_rhs => rw [← List.map_id digest.asStr.toList]
    exact List.map_congr_left fun c hc => toLower_of_mem_lowerHexDigits (hhex c hc)
  rw [parse, dif_pos ⟨hlen, hall⟩]
  refine congrArg Except.ok (ext ?_)
  simp only [toAsciiLowercase, hlower, String.ofList_toList]

end Sha256Digest

/-! ## The RPM order of versions -/

/-- A byte that neither belongs to a segment nor is a `~` or `^` mark. The bytes of a character
beyond ASCII are all separators, so the comparison runs over characters. -/
def isSeparator (c : Char) : Bool := !c.isAlphanum && c != '~' && c != '^'

/-- The character continues a segment of digits, or one of letters. -/
def inSegment (numeric : Bool) (c : Char) : Bool := c.isDigit == numeric && c.isAlphanum

/-- The segments in the order that decides: digits by value (leading zeros dropped, then length),
letters as text. -/
def segmentCmp (numeric : Bool) (left right : List Char) : Ordering :=
  if numeric then
    let left := left.dropWhile (· == '0')
    let right := right.dropWhile (· == '0')
    (compare left.length right.length).then (compare left right)
  else compare left right

theorem length_lt_of_dropWhile_eq_cons {p : Char → Bool} {l rest : List Char} {c : Char}
    (h : l.dropWhile p = c :: rest) : rest.length < l.length := by
  have hle : (l.dropWhile p).length ≤ l.length := (List.dropWhile_sublist p).length_le
  rw [h, List.length_cons] at hle
  exact hle

/-- `rpm_part_cmp` on the characters of both parts. -/
def rpmPartCmp (left right : List Char) : Ordering :=
  match hl : left.dropWhile isSeparator, hr : right.dropWhile isSeparator with
  | '~' :: l, '~' :: r => rpmPartCmp l r
  | '~' :: _, _ => .lt
  | _, '~' :: _ => .gt
  | '^' :: l, '^' :: r => rpmPartCmp l r
  | '^' :: _, [] => .gt
  | [], '^' :: _ => .lt
  | '^' :: _, _ :: _ => .lt
  | _ :: _, '^' :: _ => .gt
  | [], r => compare 0 r.length
  | l, [] => compare l.length 0
  | a :: l, b :: r =>
    if a.isDigit != b.isDigit then if a.isDigit then .gt else .lt
    else
      -- both first characters are in their segment
      let p := inSegment a.isDigit
      (segmentCmp a.isDigit (a :: l.takeWhile p) (b :: r.takeWhile p)).then
        (rpmPartCmp (l.dropWhile p) (r.dropWhile p))
termination_by left.length + right.length
decreasing_by
  · have := length_lt_of_dropWhile_eq_cons hl
    have := length_lt_of_dropWhile_eq_cons hr
    omega
  · have := length_lt_of_dropWhile_eq_cons hl
    have := length_lt_of_dropWhile_eq_cons hr
    omega
  · have := length_lt_of_dropWhile_eq_cons hl
    have := length_lt_of_dropWhile_eq_cons hr
    have := (List.dropWhile_sublist (inSegment a.isDigit) (l := l)).length_le
    have := (List.dropWhile_sublist (inSegment a.isDigit) (l := r)).length_le
    omega

theorem segmentCmp_swap (numeric : Bool) (left right : List Char) :
    (segmentCmp numeric left right).swap = segmentCmp numeric right left := by
  cases numeric with
  | false => simpa [segmentCmp] using Std.OrientedOrd.eq_swap.symm
  | true =>
    simp only [segmentCmp, if_true, Ordering.swap_then]
    rw [← Std.OrientedOrd.eq_swap, ← Std.OrientedOrd.eq_swap]

/-- The comparison is antisymmetric: exchanging the parts turns the result around. -/
theorem rpmPartCmp_swap (left right : List Char) :
    (rpmPartCmp left right).swap = rpmPartCmp right left := by
  fun_induction rpmPartCmp left right
  all_goals conv_rhs => rw [rpmPartCmp]
  all_goals split <;> grind [Ordering.swap, segmentCmp_swap, Nat.compare_swap, Ordering.swap_then]

/-! ## EVRAs -/

structure Evra where
  epoch : UInt32
  version : String
  release : String
  arch : Architecture
  deriving DecidableEq

namespace Evra

def key (e : Evra) : Nat ×ₗ String ×ₗ String ×ₗ Architecture :=
  toLex (e.epoch.toNat, toLex (e.version, toLex (e.release, e.arch)))

theorem key_injective : Function.Injective key := by
  intro a b h
  cases a
  cases b
  simp only [key, EmbeddingLike.apply_eq_iff_eq, Prod.mk.injEq, UInt32.toNat_inj] at h
  obtain ⟨rfl, rfl, rfl, rfl⟩ := h
  rfl

instance : LinearOrder Evra := LinearOrder.lift' key key_injective

def validate (e : Evra) : Except DomainError Unit :=
  if e.version = "" then .error (.empty "version")
  else if e.release = "" then .error (.empty "release")
  else .ok ()

def isStrictlyNewerThan (e installed : Evra) : Bool :=
  if e.epoch ≠ installed.epoch then e.epoch > installed.epoch
  else
    match rpmPartCmp e.version.toList installed.version.toList with
    | .eq => (rpmPartCmp e.release.toList installed.release.toList).isGT
    | ordering => ordering.isGT

/-- No EVRA is both newer and older than another. -/
theorem not_isStrictlyNewerThan_of_newer {a b : Evra} (h : a.isStrictlyNewerThan b = true) :
    b.isStrictlyNewerThan a = false := by
  have hversion := rpmPartCmp_swap a.version.toList b.version.toList
  have hrelease := rpmPartCmp_swap a.release.toList b.release.toList
  unfold isStrictlyNewerThan at h ⊢
  by_cases hepoch : a.epoch = b.epoch
  · rw [if_neg (by simpa using hepoch)] at h
    rw [if_neg (by simpa using hepoch.symm), ← hversion]
    cases hv : rpmPartCmp a.version.toList b.version.toList with
    | lt => simp [hv] at h
    | gt => simp
    | eq =>
      simp only [hv] at h
      simp only [Ordering.swap_eq, ← hrelease]
      cases hr : rpmPartCmp a.release.toList b.release.toList <;> simp [hr] at h ⊢
  · rw [if_pos hepoch] at h
    rw [if_pos (Ne.symm hepoch)]
    simp only [gt_iff_lt, decide_eq_true_eq, decide_eq_false_iff_not, UInt32.lt_iff_toNat_lt] at h ⊢
    omega

end Evra

/-! Names, an EVRA and digests of the examples. -/

theorem app_ne_empty : "app" ≠ "" := by decide
theorem lib_ne_empty : "lib" ≠ "" := by decide
theorem fedora_ne_empty : "fedora" ≠ "" := by decide
theorem updates_ne_empty : "updates" ≠ "" := by decide

theorem validate_first : (⟨0, "1", "1", .x86_64⟩ : Evra).validate = .ok () := by decide +kernel

theorem isLowerDigest_noBytes :
    isLowerDigest "e3b0c44298fc1c149afbf4c8996fb92427ae41e4649b934ca495991b7852b855" = true :=
  isLowerDigest_ofList (by decide)

theorem isLowerDigest_primary :
    isLowerDigest "986a1b7135f4986150aa5fa0028feeaa66cdaf3ed6a00a355dd86e042f7fb494" = true :=
  isLowerDigest_ofList (by decide)

theorem isLowerDigest_filelists :
    isLowerDigest "d34b6d53edfbb763dde137d3a4cb839f7699c59a730b4b3bd74f0dc7d6acf2cd" = true :=
  isLowerDigest_ofList (by decide)

end Dnfast.Core
