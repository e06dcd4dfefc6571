import Dnfast.Data.Check
import Dnfast.Data.Digits
import Dnfast.Data.Split
import Dnfast.Repo.MainConfig

/-! # `metadata_expire`

`dnfast-repo`, `profile.rs`: how long the metadata of a repository is fresh, in seconds. The texts are
lists of characters: whatever the parser looks for is ASCII, so it finds it in the characters where the
source finds it in the bytes. -/

namespace Dnfast.Repo

open Nat (ofNumeral fractionOf floor_numeral)

inductive MetadataExpire where
  | afterSeconds (seconds : UInt64)
  | never
  deriving DecidableEq, Repr

/-- How the parser ends without a result. `overflow` is an operation without a check of its own that
leaves `u64`. -/
inductive ExpireFailure where
  | refused (error : MutationError)
  | overflow
  deriving DecidableEq, Repr

/-! ## The parser -/

/-- A `u64`, when the number is one. -/
def exact (n : Nat) : Option UInt64 := if n < UInt64.size then some (UInt64.ofNat n) else none

def checkedMul (a b : UInt64) : Option UInt64 := exact (a.toNat * b.toNat)
def checkedAdd (a b : UInt64) : Option UInt64 := exact (a.toNat + b.toNat)

/-- `u64::from(byte - b'0')`, for a decimal digit. -/
def decimalDigit (c : Char) : Nat := c.toNat - '0'.toNat

/-- The seconds of a unit. -/
def unitMultiplier : Char → Option UInt64
  | 's' | 'S' => some 1
  | 'm' | 'M' => some 60
  | 'h' | 'H' => some 3600
  | 'd' | 'D' => some 86400
  | _ => none

def durationParts (value : List Char) : Option (List Char × UInt64) :=
  let (number, multiplier) := match value.getLast?.bind unitMultiplier with
    | some multiplier => (value.dropLast, multiplier)
    | none => (value, 1)
  if number = [] then none else some (number, multiplier)

/-- `total.checked_mul(base)?.checked_add(digit)`. -/
def checkedStep (base total : UInt64) (digit : Nat) : Option UInt64 :=
  (checkedMul total base).bind (checkedAdd · (UInt64.ofNat digit))

def decimalSeconds (value : List Char) (multiplier : UInt64) : Option UInt64 := do
  let total ← value.foldlM (fun total c => checkedStep 10 total (decimalDigit c)) 0
  checkedMul total multiplier

inductive HexadecimalSecondsError where
  | invalid
  | overflow
  deriving DecidableEq, Repr

def hexadecimalDigit (c : Char) : Option Nat :=
  if '0' ≤ c ∧ c ≤ '9' then some (c.toNat - '0'.toNat)
  else if 'a' ≤ c ∧ c ≤ 'f' then some (c.toNat - 'a'.toNat + 10)
  else if 'A' ≤ c ∧ c ≤ 'F' then some (c.toNat - 'A'.toNat + 10)
  else none

def hexadecimalStep (total : UInt64) (c : Char) : Except HexadecimalSecondsError UInt64 := do
  let digit ← Except.okOr (hexadecimalDigit c) .invalid
  Except.okOr (checkedStep 16 total digit) .overflow

def hexadecimalSeconds (value : List Char) (multiplier : UInt64) :
    Except HexadecimalSecondsError UInt64 := do
  Except.refuseIf (value = []) .invalid
  let seconds ← value.foldlM hexadecimalStep 0
  Except.okOr (checkedMul seconds multiplier) .overflow

/-- `fractional_seconds`. Nothing in it is checked; `none` is an overflow. -/
def fractionalSeconds (value : List Char) (multiplier : UInt64) : Option UInt64 :=
  value.foldrM (fun c carry =>
    (exact (decimalDigit c * multiplier.toNat)).bind fun scaled =>
      (exact (scaled.toNat + carry.toNat)).map (· / 10)) 0

def decimalParts (number : List Char) : List Char × List Char :=
  (List.splitOnce ['.'] number).getD (number, [])

section
variable (path : String) (line : Nat)

/-- The part of `parse_metadata_expire` after the hexadecimal numbers. -/
def decimalExpire (number : List Char) (multiplier : UInt64) : Except ExpireFailure MetadataExpire := do
  let (whole, fraction) := decimalParts number
  Except.refuseIf (number.count '.' > 1 ∨ (whole = [] ∧ fraction = []) ∨ !whole.all Char.isDigit ∨
    !fraction.all Char.isDigit) (.refused ⟨path, line, "invalid metadata_expire"⟩)
  let tooLong := ExpireFailure.refused ⟨path, line, "metadata_expire exceeds u64 seconds"⟩
  let wholeSeconds ← Except.okOr (decimalSeconds whole multiplier) tooLong
  let fractional ← Except.okOr (fractionalSeconds fraction multiplier) .overflow
  let seconds ← Except.okOr (checkedAdd wholeSeconds fractional) tooLong
  return .afterSeconds seconds

def hexadecimalExpire (digits : List Char) (multiplier : UInt64) : Except ExpireFailure MetadataExpire :=
  match hexadecimalSeconds digits multiplier with
  | .ok seconds => .ok (.afterSeconds seconds)
  | .error .invalid => .error (.refused ⟨path, line, "invalid metadata_expire"⟩)
  | .error .overflow => .error (.refused ⟨path, line, "metadata_expire exceeds u64 seconds"⟩)

/-- The digits behind `0x`. -/
def hexadecimalPrefix : List Char → Option (List Char)
  | '0' :: 'x' :: digits => some digits
  | '0' :: 'X' :: digits => some digits
  | _ => none

/-- The text without its plus sign. -/
def unsigned : List Char → List Char
  | '+' :: body => body
  | body => body

def parseMetadataExpire (value : String) : Except ExpireFailure MetadataExpire := do
  if value = "-1" ∨ value = "never" then return .never
  let (number, multiplier) ← Except.okOr (durationParts (unsigned value.toList))
    (.refused ⟨path, line, "invalid metadata_expire"⟩)
  match hexadecimalPrefix number with
  | some digits => hexadecimalExpire path line digits multiplier
  | none => decimalExpire path line number multiplier

end

/-! ## What a duration is -/

/-- A numeral and its number. -/
inductive Numeral : List Char → ℚ → Prop where
  | decimal {whole : List Char} (hne : whole ≠ []) (hwhole : whole.all Char.isDigit) :
      Numeral whole (ofNumeral 10 (whole.map decimalDigit))
  | fixed {whole fraction : List Char} (hne : whole ≠ [] ∨ fraction ≠ [])
      (hwhole : whole.all Char.isDigit) (hfraction : fraction.all Char.isDigit) :
      Numeral (whole ++ '.' :: fraction) (ofNumeral 10 (whole.map decimalDigit) +
        ofNumeral 10 (fraction.map decimalDigit) / (10 ^ fraction.length : Nat))
  | hexadecimal {x : Char} {digits : List Char} {values : List Nat} (hx : x = 'x' ∨ x = 'X')
      (hne : digits ≠ []) (hdigits : digits.map hexadecimalDigit = values.map some) :
      Numeral ('0' :: x :: digits) (ofNumeral 16 values)

/-- A numeral of seconds, or one with a unit behind it. -/
inductive Duration : List Char → ℚ → Prop where
  | seconds {number : List Char} {q : ℚ} (h : Numeral number q) : Duration number q
  | unit {number : List Char} {q : ℚ} {c : Char} {m : UInt64} (h : Numeral number q)
      (hunit : unitMultiplier c = some m) : Duration (number ++ [c]) (q * m.toNat)

/-- The duration that the parser reads: a unit letter at the end is the unit, also where it could be a
digit. -/
inductive Reading : List Char → ℚ → Prop where
  | seconds {number : List Char} {q : ℚ} (h : Numeral number q)
      (hlast : number.getLast?.bind unitMultiplier = none) : Reading number q
  | unit {number : List Char} {q : ℚ} {c : Char} {m : UInt64} (h : Numeral number q)
      (hunit : unitMultiplier c = some m) : Reading (number ++ [c]) (q * m.toNat)

/-- An optional plus sign in front. -/
def Signed (duration : List Char → ℚ → Prop) (text : List Char) (q : ℚ) : Prop :=
  duration text q ∨ ∃ body, text = '+' :: body ∧ duration body q

/-- The result for a text: `never`, or the whole seconds of a duration, if a `u64` holds them. -/
def Expires (duration : List Char → ℚ → Prop) (value : String) (e : MetadataExpire) : Prop :=
  (e = .never ∧ value ∈ ["-1", "never"]) ∨
    ∃ q, Signed duration value.toList q ∧ ⌊q⌋₊ ≤ 2 ^ 64 - 1 ∧
      ∃ seconds : UInt64, e = .afterSeconds seconds ∧ seconds.toNat = ⌊q⌋₊

/-- A hexadecimal numeral without a unit, for a number of seconds, that ends in the letter of a unit. -/
def EndsInUnit (text : List Char) : Prop :=
  ∃ x digits c values, unsigned text = '0' :: x :: (digits ++ [c]) ∧ (x = 'x' ∨ x = 'X') ∧
    (c = 'd' ∨ c = 'D') ∧ (digits ++ [c]).map hexadecimalDigit = values.map some ∧
    ofNumeral 16 values ≤ 2 ^ 64 - 1

/-! ## Arithmetic in `u64` -/

theorem exact_eq_some {n : Nat} {u : UInt64} : exact n = some u ↔ u.toNat = n := by
  unfold exact
  split
  next h =>
    rw [Option.some_inj, ← UInt64.toNat_inj, UInt64.toNat_ofNat_of_lt' h, eq_comm]
  next h =>
    refine iff_of_false nofun ?_
    rintro rfl
    exact h u.toNat_lt

theorem exact_eq_none {n : Nat} : exact n = none ↔ UInt64.size ≤ n := by
  unfold exact
  split
  next h => exact iff_of_false nofun (not_le_of_gt h)
  next h => exact iff_of_true rfl (not_lt.mp h)

/-- The loop of both kinds of integers. -/
def checkedFold (base : UInt64) (digits : List Nat) (total : UInt64) : Option UInt64 :=
  digits.foldlM (checkedStep base) total

variable {base multiplier u total : UInt64} {digits : List Nat} {d : Nat}

theorem le_foldl (hbase : 0 < base.toNat) (n : Nat) :
    n ≤ digits.foldl (fun total d => total * base.toNat + d) n := by
  induction digits generalizing n with
  | nil => exact le_refl n
  | cons d digits ih =>
    have hstep : n ≤ n * base.toNat + d := Nat.le_add_right_of_le (Nat.le_mul_of_pos_right n hbase)
    exact hstep.trans (ih _)

theorem checkedStep_eq_some (hd : d < UInt64.size) :
    checkedStep base total d = some u ↔ u.toNat = total.toNat * base.toNat + d := by
  have hdigit : (UInt64.ofNat d).toNat = d := UInt64.toNat_ofNat_of_lt' hd
  simp only [checkedStep, Option.bind_eq_some_iff, checkedMul, checkedAdd, exact_eq_some, hdigit]
  constructor
  · rintro ⟨product, hproduct, hu⟩
    rw [hu, hproduct]
  · intro hu
    have hlt := u.toNat_lt
    have hproduct : total.toNat * base.toNat < UInt64.size := by
      rw [hu] at hlt
      exact lt_of_le_of_lt (Nat.le_add_right _ d) hlt
    exact ⟨UInt64.ofNat (total.toNat * base.toNat), UInt64.toNat_ofNat_of_lt' hproduct,
      by rw [hu, UInt64.toNat_ofNat_of_lt' hproduct]⟩

/-- The loop ends in the number, whenever that fits: no total on the way is greater. -/
theorem checkedFold_eq_some (hbase : 0 < base.toNat) (hdigits : ∀ d ∈ digits, d < UInt64.size) :
    checkedFold base digits total = some u ↔
      u.toNat = digits.foldl (fun total d => total * base.toNat + d) total.toNat := by
  induction digits generalizing total with
  | nil => simp [checkedFold, ← UInt64.toNat_inj, eq_comm]
  | cons d digits ih =>
    have hd := hdigits d List.mem_cons_self
    have ih := fun t => @ih t fun d hd => hdigits d (List.mem_cons_of_mem _ hd)
    rw [checkedFold, List.foldlM_cons, Option.bind_eq_bind, Option.bind_eq_some_iff, List.foldl_cons]
    constructor
    · rintro ⟨next, hnext, hrest⟩
      rw [← (checkedStep_eq_some hd).mp hnext]
      exact (ih next).mp hrest
    · intro hu
      have hlt : total.toNat * base.toNat + d < UInt64.size :=
        lt_of_le_of_lt (le_foldl hbase _) (hu ▸ u.toNat_lt)
      have hnext : (UInt64.ofNat (total.toNat * base.toNat + d)).toNat = _ :=
        UInt64.toNat_ofNat_of_lt' hlt
      exact ⟨_, (checkedStep_eq_some hd).mpr hnext, (ih _).mpr (by rw [hu, hnext])⟩

theorem decimalDigit_lt {c : Char} (h : c.isDigit) : decimalDigit c < 10 := by
  simp only [Char.isDigit, Bool.and_eq_true, decide_eq_true_eq] at h
  have hle : c.val.toNat ≤ 57 := h.2
  have : c.toNat ≤ 57 := hle
  have : '0'.toNat = 48 := rfl
  rw [decimalDigit]
  omega

theorem forall_decimalDigit_lt {text : List Char} (h : text.all Char.isDigit) :
    ∀ d ∈ text.map decimalDigit, d < 10 := by
  intro d hd
  obtain ⟨c, hc, rfl⟩ := List.mem_map.mp hd
  exact decimalDigit_lt (List.all_eq_true.mp h c hc)

theorem hexadecimalDigit_lt {c : Char} (h : hexadecimalDigit c = some d) : d < 16 := by
  have hbound : ∀ {a b : Char}, a ≤ b → a.toNat ≤ b.toNat := fun h => h
  unfold hexadecimalDigit at h
  have h0 : '0'.toNat = 48 := rfl
  have h9 : '9'.toNat = 57 := rfl
  have ha : 'a'.toNat = 97 := rfl
  have hf : 'f'.toNat = 102 := rfl
  have hA : 'A'.toNat = 65 := rfl
  have hF : 'F'.toNat = 70 := rfl
  split at h
  next hc =>
    have := hbound hc.2
    cases h
    omega
  split at h
  next hc =>
    have := hbound hc.2
    cases h
    omega
  split at h
  next hc =>
    have := hbound hc.2
    cases h
    omega
  cases h

theorem decimalSeconds_eq_some {whole : List Char} (hwhole : whole.all Char.isDigit)
    (hmultiplier : 0 < multiplier.toNat) : decimalSeconds whole multiplier = some u ↔
      u.toNat = ofNumeral 10 (whole.map decimalDigit) * multiplier.toNat := by
  have hdigits : ∀ d ∈ whole.map decimalDigit, d < UInt64.size := fun d hd =>
    (forall_decimalDigit_lt hwhole d hd).trans (by decide)
  have hfold : whole.foldlM (fun total c => checkedStep 10 total (decimalDigit c)) 0 =
      checkedFold 10 (whole.map decimalDigit) 0 := by
    rw [checkedFold, List.foldlM_map]
  rw [decimalSeconds, hfold, Option.bind_eq_bind, Option.bind_eq_some_iff]
  constructor
  · rintro ⟨total, htotal, hu⟩
    rw [checkedFold_eq_some (by decide) hdigits] at htotal
    rw [checkedMul, exact_eq_some, htotal] at hu
    exact hu
  · intro hu
    have hlt : ofNumeral 10 (whole.map decimalDigit) < UInt64.size :=
      lt_of_le_of_lt (Nat.le_mul_of_pos_right _ hmultiplier) (hu ▸ u.toNat_lt)
    have htotal : (UInt64.ofNat (ofNumeral 10 (whole.map decimalDigit))).toNat = _ :=
      UInt64.toNat_ofNat_of_lt' hlt
    exact ⟨_, (checkedFold_eq_some (by decide) hdigits).mpr htotal, by
      rw [checkedMul, exact_eq_some, hu, htotal]⟩

/-- What the loop over hexadecimal digits does when all of them are. -/
theorem foldlM_hexadecimalStep {text : List Char} (h : text.map hexadecimalDigit = digits.map some) :
    text.foldlM hexadecimalStep total = Except.okOr (checkedFold 16 digits total) .overflow := by
  induction text generalizing digits total with
  | nil =>
    cases List.map_eq_nil_iff.mp h.symm
    rfl
  | cons c text ih =>
    cases digits with
    | nil => cases h
    | cons d digits =>
      rw [List.map_cons, List.map_cons, List.cons.injEq] at h
      have hone : hexadecimalStep total c = Except.okOr (checkedStep 16 total d) .overflow := by
        rw [hexadecimalStep, h.1]
        rfl
      rw [List.foldlM_cons, hone, checkedFold, List.foldlM_cons]
      cases hstep : checkedStep 16 total d with
      | none => rfl
      | some next => exact ih h.2

/-- The loop has no other digits. -/
theorem digits_of_foldlM_hexadecimalStep {text : List Char}
    (h : text.foldlM hexadecimalStep total = .ok u) :
    ∃ digits : List Nat, text.map hexadecimalDigit = digits.map some := by
  induction text generalizing total with
  | nil => exact ⟨[], rfl⟩
  | cons c text ih =>
    rw [List.foldlM_cons, Except.bind_eq_ok] at h
    obtain ⟨next, hnext, h⟩ := h
    obtain ⟨d, hd, -⟩ := Except.bind_eq_ok.mp hnext
    obtain ⟨digits, hdigits⟩ := ih h
    exact ⟨d :: digits, by rw [List.map_cons, List.map_cons, hdigits, Except.okOr_eq_ok.mp hd]⟩

theorem hexadecimalSeconds_eq_ok {text : List Char} (hmultiplier : 0 < multiplier.toNat) :
    hexadecimalSeconds text multiplier = .ok u ↔ text ≠ [] ∧
      ∃ digits : List Nat, text.map hexadecimalDigit = digits.map some ∧
        u.toNat = ofNumeral 16 digits * multiplier.toNat := by
  have hlt : ∀ {digits : List Nat}, text.map hexadecimalDigit = digits.map some →
      ∀ d ∈ digits, d < UInt64.size := by
    intro digits h d hd
    have hmem : some d ∈ text.map hexadecimalDigit := h ▸ List.mem_map_of_mem hd
    obtain ⟨c, -, hc⟩ := List.mem_map.mp hmem
    exact (hexadecimalDigit_lt hc).trans (by decide)
  have htotal : ∀ {digits : List Nat} {seconds : UInt64},
      text.map hexadecimalDigit = digits.map some →
        (text.foldlM hexadecimalStep 0 = .ok seconds ↔ seconds.toNat = ofNumeral 16 digits) := by
    intro digits seconds h
    rw [foldlM_hexadecimalStep h, Except.okOr_eq_ok, checkedFold_eq_some (by decide) (hlt h)]
    rfl
  rw [hexadecimalSeconds, Except.check_bind_eq_ok, Except.refuseIf_eq_ok]
  refine and_congr_right fun _ => ?_
  simp only [Except.bind_eq_ok, Except.okOr_eq_ok, checkedMul, exact_eq_some]
  constructor
  · rintro ⟨seconds, hseconds, hu⟩
    obtain ⟨digits, hdigits⟩ := digits_of_foldlM_hexadecimalStep hseconds
    exact ⟨digits, hdigits, by rw [hu, (htotal hdigits).mp hseconds]⟩
  · rintro ⟨digits, hdigits, hu⟩
    have hfits : ofNumeral 16 digits < UInt64.size :=
      lt_of_le_of_lt (Nat.le_mul_of_pos_right _ hmultiplier) (hu ▸ u.toNat_lt)
    have hseconds : (UInt64.ofNat (ofNumeral 16 digits)).toNat = _ := UInt64.toNat_ofNat_of_lt' hfits
    exact ⟨_, (htotal hdigits).mpr hseconds, by rw [hu, hseconds]⟩

/-- The fraction never overflows, and it is exact. -/
theorem fractionalSeconds_eq_some {fraction : List Char} (hfraction : fraction.all Char.isDigit)
    (hmultiplier : 0 < multiplier.toNat) (hsmall : multiplier.toNat ≤ 86400) :
    ∃ u, fractionalSeconds fraction multiplier = some u ∧
      u.toNat = fractionOf 10 multiplier.toNat (fraction.map decimalDigit) := by
  induction fraction with
  | nil => exact ⟨0, rfl, rfl⟩
  | cons c fraction ih =>
    have hall := hfraction
    rw [List.all_cons, Bool.and_eq_true] at hfraction
    obtain ⟨carry, hcarry, hvalue⟩ := ih hfraction.2
    have hc := decimalDigit_lt hfraction.1
    have hless := Nat.fractionOf_lt hmultiplier (forall_decimalDigit_lt hfraction.2)
    have hproduct : decimalDigit c * multiplier.toNat ≤ 9 * 86400 :=
      Nat.mul_le_mul (Nat.le_of_lt_succ hc) hsmall
    rw [← hvalue] at hless
    have hsize : UInt64.size = 18446744073709551616 := rfl
    have hscaled : (UInt64.ofNat (decimalDigit c * multiplier.toNat)).toNat = _ :=
      UInt64.toNat_ofNat_of_lt' (by omega)
    have hsum : (UInt64.ofNat (decimalDigit c * multiplier.toNat + carry.toNat)).toNat = _ :=
      UInt64.toNat_ofNat_of_lt' (by omega)
    refine ⟨UInt64.ofNat (decimalDigit c * multiplier.toNat + carry.toNat) / 10, ?_, ?_⟩
    · rw [fractionalSeconds] at hcarry
      rw [fractionalSeconds, List.foldrM_cons, hcarry, Option.bind_eq_bind, Option.bind_some,
        exact_eq_some.mpr hscaled, Option.bind_some, hscaled, exact_eq_some.mpr hsum, Option.map_some]
    · rw [List.map_cons, Nat.fractionOf_cons, ← hvalue, UInt64.toNat_div, hsum]
      rfl

/-! ## The shape of a numeral -/

theorem unitMultiplier_bounds {c : Char} {m : UInt64} (h : unitMultiplier c = some m) :
    0 < m.toNat ∧ m.toNat ≤ 86400 := by
  unfold unitMultiplier at h
  split at h
  all_goals
    cases h
    try decide

theorem durationParts_eq_some {body number : List Char} {m : UInt64} :
    durationParts body = some (number, m) ↔ number ≠ [] ∧
      ((body = number ∧ m = 1 ∧ number.getLast?.bind unitMultiplier = none) ∨
        ∃ c, body = number ++ [c] ∧ unitMultiplier c = some m) := by
  unfold durationParts
  cases hlast : body.getLast?.bind unitMultiplier with
  | none =>
    simp only [Option.ite_none_left_eq_some, Option.some_inj, Prod.mk.injEq]
    constructor
    · rintro ⟨hne, rfl, rfl⟩
      exact ⟨hne, .inl ⟨rfl, rfl, hlast⟩⟩
    · rintro ⟨hne, ⟨rfl, rfl, -⟩ | ⟨c, rfl, hc⟩⟩
      · exact ⟨hne, rfl, rfl⟩
      · rw [List.getLast?_concat, Option.bind_some, hc] at hlast
        cases hlast
  | some multiplier =>
    obtain ⟨c, hc, hunit⟩ := Option.bind_eq_some_iff.mp hlast
    obtain ⟨front, rfl⟩ := List.getLast?_eq_some_iff.mp hc
    simp only [List.dropLast_concat, Option.ite_none_left_eq_some, Option.some_inj, Prod.mk.injEq]
    constructor
    · rintro ⟨hne, rfl, rfl⟩
      exact ⟨hne, .inr ⟨c, rfl, hunit⟩⟩
    · rintro ⟨hne, ⟨rfl, rfl, hnone⟩ | ⟨c', heq, hunit'⟩⟩
      · rw [hlast] at hnone
        cases hnone
      · obtain ⟨rfl, hsame⟩ := List.append_inj' heq rfl
        cases hsame
        rw [hunit'] at hunit
        cases hunit
        exact ⟨hne, rfl, rfl⟩

/-- A numeral starts with a digit or with its point. -/
theorem Numeral.head {number : List Char} {q : ℚ} (h : Numeral number q) :
    ∃ c rest, number = c :: rest ∧ (c.isDigit ∨ c = '.') := by
  cases h with
  | decimal hne hwhole =>
    obtain ⟨c, rest, rfl⟩ := List.exists_cons_of_ne_nil hne
    exact ⟨c, rest, rfl, .inl (List.all_eq_true.mp hwhole c List.mem_cons_self)⟩
  | @fixed whole fraction hne hwhole hfraction =>
    cases whole with
    | nil => exact ⟨'.', fraction, rfl, .inr rfl⟩
    | cons c rest => exact ⟨c, _, rfl, .inl (List.all_eq_true.mp hwhole c List.mem_cons_self)⟩
  | hexadecimal hx hne hdigits => exact ⟨'0', _, rfl, .inl rfl⟩

theorem Duration.head {text : List Char} {q : ℚ} (h : Duration text q) :
    ∃ c rest, text = c :: rest ∧ (c.isDigit ∨ c = '.') := by
  cases h with
  | seconds h => exact h.head
  | unit h =>
    obtain ⟨c, rest, rfl, hc⟩ := h.head
    exact ⟨c, _, rfl, hc⟩

theorem Reading.duration {text : List Char} {q : ℚ} (h : Reading text q) : Duration text q := by
  cases h with
  | seconds h => exact .seconds h
  | unit h hunit => exact .unit h hunit

theorem not_duration_plus (body : List Char) (q : ℚ) : ¬ Duration ('+' :: body) q := by
  intro h
  obtain ⟨c, rest, heq, hc⟩ := h.head
  cases heq
  exact absurd hc (by decide)

/-- A reading is a numeral and what the parser takes for its unit. -/
theorem reading_iff {body : List Char} {q : ℚ} : Reading body q ↔
    ∃ number m q₀, durationParts body = some (number, m) ∧ Numeral number q₀ ∧ q = q₀ * m.toNat := by
  constructor
  · rintro (⟨h, hlast⟩ | ⟨h, hunit⟩)
    · have hne : body ≠ [] := by
        obtain ⟨c, rest, rfl, -⟩ := h.head
        nofun
      exact ⟨body, 1, q, durationParts_eq_some.mpr ⟨hne, .inl ⟨rfl, rfl, hlast⟩⟩, h, by simp⟩
    · next number q₀ c m =>
      have hne : number ≠ [] := by
        obtain ⟨c, rest, rfl, -⟩ := h.head
        nofun
      exact ⟨number, m, q₀, durationParts_eq_some.mpr ⟨hne, .inr ⟨c, rfl, hunit⟩⟩, h, rfl⟩
  · rintro ⟨number, m, q₀, hparts, h, rfl⟩
    obtain ⟨-, ⟨rfl, rfl, hlast⟩ | ⟨c, rfl, hunit⟩⟩ := durationParts_eq_some.mp hparts
    · have hone : q₀ * ((1 : UInt64).toNat : ℚ) = q₀ := by simp
      rw [hone]
      exact .seconds h hlast
    · exact .unit h hunit

theorem hexadecimalPrefix_eq_some {number digits : List Char} :
    hexadecimalPrefix number = some digits ↔
      ∃ x, (x = 'x' ∨ x = 'X') ∧ number = '0' :: x :: digits := by
  unfold hexadecimalPrefix
  split <;> simp_all [eq_comm]

/-- Behind `0x`, only a hexadecimal numeral. -/
theorem numeral_hexadecimal_iff {x : Char} {digits : List Char} {q : ℚ} (hx : x = 'x' ∨ x = 'X') :
    Numeral ('0' :: x :: digits) q ↔ digits ≠ [] ∧
      ∃ values : List Nat, digits.map hexadecimalDigit = values.map some ∧ q = ofNumeral 16 values := by
  constructor
  · intro h
    generalize hnumber : '0' :: x :: digits = number at h
    have hmem : x ∈ number := hnumber ▸ by simp
    have hdigit : x.isDigit = false := by
      rcases hx with rfl | rfl <;> rfl
    cases h with
    | decimal hne hwhole =>
      rw [List.all_eq_true.mp hwhole x hmem] at hdigit
      cases hdigit
    | fixed hne hwhole hfraction =>
      have hpoint : x ≠ '.' := by
        rcases hx with rfl | rfl <;> decide
      rcases List.mem_append.mp hmem with hmem | hmem
      · rw [List.all_eq_true.mp hwhole x hmem] at hdigit
        cases hdigit
      · rw [List.all_eq_true.mp hfraction x ((List.mem_cons.mp hmem).resolve_left hpoint)] at hdigit
        cases hdigit
    | hexadecimal _ hne hdigits =>
      cases hnumber
      exact ⟨hne, _, hdigits, rfl⟩
  · rintro ⟨hne, values, hdigits, rfl⟩
    exact .hexadecimal hx hne hdigits

theorem notMem_of_isDigit {text : List Char} (h : text.all Char.isDigit) : '.' ∉ text :=
  fun hmem => absurd (List.all_eq_true.mp h '.' hmem) (by decide)

/-- A number that is not hexadecimal is a numeral when the parser finds nothing wrong with it. -/
theorem numeral_decimal_iff {number whole fraction : List Char} {q : ℚ}
    (hbare : hexadecimalPrefix number = none) (hparts : decimalParts number = (whole, fraction)) :
    Numeral number q ↔ ¬ (number.count '.' > 1 ∨ (whole = [] ∧ fraction = []) ∨
        !whole.all Char.isDigit ∨ !fraction.all Char.isDigit) ∧
      q = ofNumeral 10 (whole.map decimalDigit) +
        ofNumeral 10 (fraction.map decimalDigit) / (10 ^ fraction.length : Nat) := by
  have hnothex : ∀ {x : Char} {digits : List Char}, x = 'x' ∨ x = 'X' →
      number ≠ '0' :: x :: digits := by
    intro x digits hx heq
    rw [hexadecimalPrefix_eq_some.mpr ⟨x, hx, heq⟩] at hbare
    cases hbare
  simp only [not_or, Bool.not_eq_true', Bool.not_eq_false, not_and_or, not_lt]
  unfold decimalParts at hparts
  cases hsplit : List.splitOnce ['.'] number with
  | none =>
    rw [hsplit] at hparts
    cases hparts
    have hpoint := List.splitOnce_singleton_eq_none.mp hsplit
    constructor
    · intro h
      cases h with
      | decimal hne hwhole =>
        exact ⟨⟨by simp [List.count_eq_zero.mpr hpoint], .inl hne, hwhole, rfl⟩, by simp⟩
      | fixed => exact absurd (List.mem_append_right _ List.mem_cons_self) hpoint
      | hexadecimal hx => exact absurd rfl (hnothex hx)
    · rintro ⟨⟨-, hne, hwhole, -⟩, rfl⟩
      have hnum := Numeral.decimal (hne.resolve_right fun h => h rfl) hwhole
      simpa using hnum
  | some parts =>
    rw [hsplit] at hparts
    cases hparts
    obtain rfl : number = whole ++ '.' :: fraction := by simpa using List.eq_of_splitOnce hsplit
    constructor
    · intro h
      generalize hnumber : whole ++ '.' :: fraction = number at h
      cases h with
      | decimal hne hwhole =>
        exact absurd (hnumber ▸ List.mem_append_right _ List.mem_cons_self) (notMem_of_isDigit hwhole)
      | @fixed whole' fraction' hne hwhole hfraction =>
        rw [hnumber, List.splitOnce_singleton_of_notMem (notMem_of_isDigit hwhole)] at hsplit
        cases hsplit
        refine ⟨⟨?_, hne, hwhole, hfraction⟩, rfl⟩
        rw [List.count_append, List.count_eq_zero.mpr (notMem_of_isDigit hwhole), List.count_cons_self,
          List.count_eq_zero.mpr (notMem_of_isDigit hfraction)]
      | hexadecimal hx => exact absurd hnumber (hnothex hx)
    · rintro ⟨⟨-, hne, hwhole, hfraction⟩, rfl⟩
      exact .fixed hne hwhole hfraction

/-! ## The result -/

section
variable {path : String} {line : Nat}

/-- What a parser returns for a numeral: the whole seconds, and no overflow. -/
def Exact (outcome : Except ExpireFailure MetadataExpire) (number : List Char) (multiplier : UInt64) :
    Prop :=
  (∀ e, outcome = .ok e ↔ ∃ q, Numeral number q ∧
    ∃ seconds : UInt64, e = .afterSeconds seconds ∧ seconds.toNat = ⌊q * multiplier.toNat⌋₊) ∧
  outcome ≠ .error .overflow

theorem exact_hexadecimalExpire {x : Char} {digits : List Char} (hx : x = 'x' ∨ x = 'X')
    (hmultiplier : 0 < multiplier.toNat) :
    Exact (hexadecimalExpire path line digits multiplier) ('0' :: x :: digits) multiplier := by
  have hfloor : ∀ n : Nat, ⌊(n : ℚ) * multiplier.toNat⌋₊ = n * multiplier.toNat := by
    intro n
    rw [← Nat.cast_mul, Nat.floor_natCast]
  have hok : ∀ e, hexadecimalExpire path line digits multiplier = .ok e ↔
      ∃ seconds, hexadecimalSeconds digits multiplier = .ok seconds ∧ e = .afterSeconds seconds := by
    intro e
    unfold hexadecimalExpire
    cases hexadecimalSeconds digits multiplier with
    | ok seconds => simp [eq_comm]
    | error error => cases error <;> simp
  refine ⟨fun e => ?_, ?_⟩
  · rw [hok]
    constructor
    · rintro ⟨seconds, hseconds, rfl⟩
      obtain ⟨hne, values, hvalues, hu⟩ := (hexadecimalSeconds_eq_ok hmultiplier).mp hseconds
      exact ⟨_, .hexadecimal hx hne hvalues, seconds, rfl, by rw [hu, hfloor]⟩
    · rintro ⟨q, h, seconds, rfl, hu⟩
      obtain ⟨hne, values, hvalues, rfl⟩ := (numeral_hexadecimal_iff hx).mp h
      rw [hfloor] at hu
      exact ⟨seconds, (hexadecimalSeconds_eq_ok hmultiplier).mpr ⟨hne, values, hvalues, hu⟩, rfl⟩
  · unfold hexadecimalExpire
    split <;> nofun

theorem exact_decimalExpire {number : List Char} (hbare : hexadecimalPrefix number = none)
    (hmultiplier : 0 < multiplier.toNat ∧ multiplier.toNat ≤ 86400) :
    Exact (decimalExpire path line number multiplier) number multiplier := by
  obtain ⟨whole, fraction, hparts⟩ : ∃ whole fraction, decimalParts number = (whole, fraction) :=
    ⟨_, _, rfl⟩
  have hnumeral := fun q => @numeral_decimal_iff number whole fraction q hbare hparts
  unfold decimalExpire
  simp only [hparts]
  by_cases hbad : number.count '.' > 1 ∨ (whole = [] ∧ fraction = []) ∨ !whole.all Char.isDigit ∨
      !fraction.all Char.isDigit
  · unfold Except.refuseIf
    rw [if_pos hbad]
    refine ⟨fun e => iff_of_false (fun h => by cases h) ?_, fun h => by cases h⟩
    rintro ⟨q, h, -⟩
    exact ((hnumeral q).mp h).1 hbad
  · unfold Except.refuseIf
    rw [if_neg hbad, Except.ok_bind]
    have hdigits := hbad
    simp only [not_or, Bool.not_eq_true', Bool.not_eq_false] at hdigits
    obtain ⟨-, -, hwhole, hfraction⟩ := hdigits
    obtain ⟨fractional, hfractional, hexact⟩ :=
      fractionalSeconds_eq_some hfraction hmultiplier.1 hmultiplier.2
    have hfloor := @Nat.floor_numeral 10 multiplier.toNat (fraction.map decimalDigit) (by decide)
      (ofNumeral 10 (whole.map decimalDigit))
    rw [← hexact, List.length_map] at hfloor
    rw [hfractional]
    refine ⟨fun e => ?_, ?_⟩
    · simp only [Except.bind_eq_ok, Except.okOr_eq_ok, Except.pure_eq_ok, checkedAdd, exact_eq_some,
        Option.some_inj]
      constructor
      · rintro ⟨wholeSeconds, hwholeSeconds, _, rfl, seconds, hseconds, rfl⟩
        rw [decimalSeconds_eq_some hwhole hmultiplier.1] at hwholeSeconds
        refine ⟨_, (hnumeral _).mpr ⟨hbad, rfl⟩, seconds, rfl, ?_⟩
        rw [hfloor, hseconds, hwholeSeconds]
      · rintro ⟨q, h, seconds, rfl, hseconds⟩
        obtain ⟨-, rfl⟩ := (hnumeral q).mp h
        rw [hfloor] at hseconds
        have hfits : ofNumeral 10 (whole.map decimalDigit) * multiplier.toNat < UInt64.size :=
          lt_of_le_of_lt (Nat.le_add_right _ _) (hseconds ▸ seconds.toNat_lt)
        have hvalue : (UInt64.ofNat (ofNumeral 10 (whole.map decimalDigit) * multiplier.toNat)).toNat =
            _ := UInt64.toNat_ofNat_of_lt' hfits
        exact ⟨_, (decimalSeconds_eq_some hwhole hmultiplier.1).mpr hvalue, fractional, rfl, seconds,
          by rw [hseconds, hvalue], rfl⟩
    · cases decimalSeconds whole multiplier with
      | none => exact fun h => by cases h
      | some wholeSeconds =>
        simp only [Except.okOr, Option.elim, Except.ok_bind]
        cases checkedAdd wholeSeconds fractional with
        | none => exact fun h => by cases h
        | some seconds => exact fun h => by cases h

theorem signed_iff {duration : List Char → ℚ → Prop} {text : List Char} {q : ℚ}
    (hplus : ∀ body q, ¬ duration ('+' :: body) q) :
    Signed duration text q ↔ duration (unsigned text) q := by
  unfold unsigned
  split
  next body =>
    refine ⟨?_, fun h => .inr ⟨body, rfl, h⟩⟩
    rintro (h | ⟨_, heq, h⟩)
    · exact absurd h (hplus body q)
    · cases heq
      exact h
  next hno =>
    refine ⟨?_, .inl⟩
    rintro (h | ⟨body, rfl, -⟩)
    · exact h
    · exact absurd rfl (hno body)

theorem signed_duration_iff {text : List Char} {q : ℚ} :
    Signed Duration text q ↔ Duration (unsigned text) q :=
  signed_iff not_duration_plus

theorem signed_reading_iff {text : List Char} {q : ℚ} :
    Signed Reading text q ↔ Reading (unsigned text) q :=
  signed_iff fun body q h => not_duration_plus body q h.duration

/-- The parser returns the whole seconds of what it reads, in every length and with every number of
zeros, and no step overflows. -/
theorem parseMetadataExpire_eq_ok (path : String) (line : Nat) (value : String) :
    (∀ e, parseMetadataExpire path line value = .ok e ↔ Expires Reading value e) ∧
      parseMetadataExpire path line value ≠ .error .overflow := by
  by_cases hnever : value = "-1" ∨ value = "never"
  · have hnone : ∀ q, ¬ Signed Reading value.toList q := by
      rintro q h
      obtain ⟨c, rest, heq, hc⟩ := (signed_reading_iff.mp h).duration.head
      rcases hnever with rfl | rfl
      · cases heq
        exact absurd hc (by decide)
      · cases heq
        exact absurd hc (by decide)
    have hparse : parseMetadataExpire path line value = .ok .never := if_pos hnever
    rw [hparse]
    refine ⟨fun e => ?_, nofun⟩
    constructor
    · rintro ⟨⟩
      exact .inl ⟨rfl, by simpa using hnever⟩
    · rintro (⟨rfl, -⟩ | ⟨q, h, -⟩)
      · rfl
      · exact absurd h (hnone q)
  · have hparse : parseMetadataExpire path line value =
        (Except.okOr (durationParts (unsigned value.toList))
          (.refused ⟨path, line, "invalid metadata_expire"⟩) >>= fun (number, multiplier) =>
            match hexadecimalPrefix number with
            | some digits => hexadecimalExpire path line digits multiplier
            | none => decimalExpire path line number multiplier) := if_neg hnever
    have hlist : ∀ e : MetadataExpire, ¬ (e = .never ∧ value ∈ ["-1", "never"]) := by
      rintro e ⟨-, h⟩
      exact hnever (by simpa using h)
    have hbound : ∀ (seconds : UInt64) (q : ℚ), seconds.toNat = ⌊q⌋₊ → ⌊q⌋₊ ≤ 2 ^ 64 - 1 :=
      fun seconds q h => h ▸ Nat.le_sub_one_of_lt seconds.toNat_lt
    rw [hparse]
    simp only [Expires, hlist, false_or, signed_reading_iff, reading_iff]
    cases hparts : durationParts (unsigned value.toList) with
    | none => exact ⟨fun e => iff_of_false nofun (by rintro ⟨q, ⟨_, _, _, ⟨⟩, -⟩, -⟩), nofun⟩
    | some parts =>
      obtain ⟨number, multiplier⟩ := parts
      have hmultiplier : 0 < multiplier.toNat ∧ multiplier.toNat ≤ 86400 := by
        obtain ⟨-, ⟨-, rfl, -⟩ | ⟨c, -, hunit⟩⟩ := durationParts_eq_some.mp hparts
        · decide
        · exact unitMultiplier_bounds hunit
      obtain ⟨hexact, hno⟩ : Exact (match hexadecimalPrefix number with
          | some digits => hexadecimalExpire path line digits multiplier
          | none => decimalExpire path line number multiplier) number multiplier := by
        cases hbare : hexadecimalPrefix number with
        | none => exact exact_decimalExpire hbare hmultiplier
        | some digits =>
          obtain ⟨x, hx, rfl⟩ := hexadecimalPrefix_eq_some.mp hbare
          exact exact_hexadecimalExpire hx hmultiplier.1
      refine ⟨fun e => (hexact e).trans ?_, hno⟩
      constructor
      · rintro ⟨q, h, seconds, rfl, hseconds⟩
        exact ⟨q * multiplier.toNat, ⟨number, multiplier, q, rfl, h, rfl⟩, hbound _ _ hseconds, seconds,
          rfl, hseconds⟩
      · rintro ⟨q, ⟨number', multiplier', q₀, hsame, h, rfl⟩, -, seconds, rfl, hseconds⟩
        cases hsame
        exact ⟨q₀, h, seconds, rfl, hseconds⟩

/-- A numeral that ends in the letter of a unit is hexadecimal. -/
theorem Numeral.ends_in_unit {number : List Char} {q : ℚ} (h : Numeral number q)
    (hlast : number.getLast?.bind unitMultiplier ≠ none) :
    ∃ x digits c values, number = '0' :: x :: (digits ++ [c]) ∧ (x = 'x' ∨ x = 'X') ∧
      (c = 'd' ∨ c = 'D') ∧ (digits ++ [c]).map hexadecimalDigit = values.map some ∧
      q = ofNumeral 16 values := by
  obtain ⟨m, hm⟩ := Option.ne_none_iff_exists'.mp hlast
  obtain ⟨c, hc, hunit⟩ := Option.bind_eq_some_iff.mp hm
  obtain ⟨front, hfront⟩ := List.getLast?_eq_some_iff.mp hc
  have hletter : c.isDigit = false ∧ c ≠ '.' := by
    unfold unitMultiplier at hunit
    split at hunit
    all_goals
      cases hunit
      try decide
  cases h with
  | decimal hne hwhole =>
    rw [List.all_eq_true.mp hwhole c (hfront ▸ by simp)] at hletter
    cases hletter.1
  | @fixed whole fraction hne hwhole hfraction =>
    have hmem : c ∈ whole ++ '.' :: fraction := hfront ▸ by simp
    rcases List.mem_append.mp hmem with hmem | hmem
    · rw [List.all_eq_true.mp hwhole c hmem] at hletter
      cases hletter.1
    · rw [List.all_eq_true.mp hfraction c ((List.mem_cons.mp hmem).resolve_left hletter.2)] at hletter
      cases hletter.1
  | @hexadecimal x digits values hx hne hdigits =>
    obtain ⟨digits', c', rfl⟩ := (List.eq_nil_or_concat' digits).resolve_left hne
    obtain rfl : c' = c := by
      rw [← List.cons_append, ← List.cons_append, List.getLast?_concat] at hc
      exact Option.some.inj hc
    refine ⟨x, digits', c', values, rfl, hx, ?_, hdigits, rfl⟩
    have hdigit : hexadecimalDigit c' ≠ none := by
      have hmem : hexadecimalDigit c' ∈ values.map some := hdigits ▸ by simp
      obtain ⟨d, -, hd⟩ := List.mem_map.mp hmem
      rw [← hd]
      nofun
    unfold unitMultiplier at hunit
    split at hunit
    all_goals first
      | exact .inl rfl
      | exact .inr rfl
      | exact absurd (by decide) hdigit
      | cases hunit

theorem not_reading_of_endsInUnit {text : List Char} {x c : Char} {digits : List Char}
    {values : List Nat} (htext : unsigned text = '0' :: x :: (digits ++ [c])) (hx : x = 'x' ∨ x = 'X')
    (hc : c = 'd' ∨ c = 'D') (hvalues : (digits ++ [c]).map hexadecimalDigit = values.map some) :
    ∀ q, Signed Reading text q → ⌊q⌋₊ ≠ ofNumeral 16 values := by
  intro q h hsame
  have hunit : unitMultiplier c = some 86400 := by
    rcases hc with rfl | rfl <;> rfl
  have hdigit : hexadecimalDigit c = some 13 := by
    rcases hc with rfl | rfl <;> rfl
  have hparts : durationParts (unsigned text) = some ('0' :: x :: digits, 86400) :=
    durationParts_eq_some.mpr ⟨nofun, .inr ⟨c, by rw [htext]; rfl, hunit⟩⟩
  obtain ⟨number, m, q₀, hparts', hnumeral, rfl⟩ := reading_iff.mp (signed_reading_iff.mp h)
  rw [hparts] at hparts'
  cases hparts'
  obtain ⟨-, front, hfront, rfl⟩ := (numeral_hexadecimal_iff hx).mp hnumeral
  -- the last digit is lost: the number is a multiple of 16, and the numeral is not
  obtain rfl : values = front ++ [13] := by
    refine List.map_injective_iff.mpr (Option.some_injective Nat) ?_
    rw [← hvalues, List.map_append, hfront, List.map_append, List.map_singleton, hdigit]
    rfl
  have hfloor : ⌊(ofNumeral 16 front : ℚ) * (86400 : UInt64).toNat⌋₊ = ofNumeral 16 front * 86400 := by
    rw [← Nat.cast_mul, Nat.floor_natCast]
    rfl
  rw [hfloor, Nat.ofNumeral_concat] at hsame
  omega

/-- What the parser reads is a duration, and it is the one that the text can be, unless a digit is taken
for the unit. -/
theorem signed_duration_iff_reading {text : List Char} {q : ℚ} (h : ¬ EndsInUnit text)
    (hq : ⌊q⌋₊ ≤ 2 ^ 64 - 1) : Signed Duration text q ↔ Signed Reading text q := by
  rw [signed_duration_iff, signed_reading_iff]
  refine ⟨fun hduration => ?_, Reading.duration⟩
  generalize hbody : unsigned text = body at hduration
  cases hduration with
  | unit hnumeral hunit => exact .unit hnumeral hunit
  | seconds hnumeral =>
    by_cases hlast : body.getLast?.bind unitMultiplier = none
    · exact .seconds hnumeral hlast
    · obtain ⟨x, digits, c, values, hsame, hx, hc, hvalues, rfl⟩ := hnumeral.ends_in_unit hlast
      rw [Nat.floor_natCast] at hq
      exact absurd ⟨x, digits, c, values, hbody.trans hsame, hx, hc, hvalues, hq⟩ h

/-- The parser returns the whole seconds of the duration that a text is, for numerals of every length,
exactly when no digit at the end of a hexadecimal numeral can be taken for a unit. -/
theorem parseMetadataExpire_spec (path : String) (line : Nat) (value : String) :
    ((∀ e, parseMetadataExpire path line value = .ok e ↔ Expires Duration value e) ∧
      parseMetadataExpire path line value ≠ .error .overflow) ↔ ¬ EndsInUnit value.toList := by
  obtain ⟨hreads, hoverflow⟩ := parseMetadataExpire_eq_ok path line value
  constructor
  · rintro ⟨hspec, -⟩ ⟨x, digits, c, values, htext, hx, hc, hvalues, hle⟩
    have hduration : Signed Duration value.toList (ofNumeral 16 values) := by
      rw [signed_duration_iff, htext]
      exact .seconds (.hexadecimal hx (by simp) hvalues)
    have hseconds : (UInt64.ofNat (ofNumeral 16 values)).toNat = ofNumeral 16 values :=
      UInt64.toNat_ofNat_of_lt' (Nat.lt_of_le_pred (by decide) hle)
    have hok := (hspec (.afterSeconds (UInt64.ofNat (ofNumeral 16 values)))).mpr
      (.inr ⟨_, hduration, by rwa [Nat.floor_natCast], _, rfl, by rw [hseconds, Nat.floor_natCast]⟩)
    obtain ⟨⟨⟩, -⟩ | ⟨q, hreading, -, seconds, heq, hq⟩ := (hreads _).mp hok
    cases heq
    exact not_reading_of_endsInUnit htext hx hc hvalues q hreading (by rw [← hq, hseconds])
  · intro h
    refine ⟨fun e => (hreads e).trans (or_congr_right (exists_congr fun q => ?_)), hoverflow⟩
    rw [and_left_comm, and_left_comm (a := Signed Duration value.toList q)]
    exact and_congr_right fun hq => and_congr_left fun _ => (signed_duration_iff_reading h hq).symm

/-- A numeral of thirteen seconds, refused for the want of a number in front of its unit. -/
theorem hexadecimal_digit_is_unit : Expires Duration "0xd" (.afterSeconds 13) ∧
    parseMetadataExpire "fedora.repo" 2 "0xd" =
      .error (.refused ⟨"fedora.repo", 2, "invalid metadata_expire"⟩) := by
  constructor
  · have hnumeral : Numeral "0xd".toList (ofNumeral 16 [13]) :=
      @Numeral.hexadecimal 'x' ['d'] [13] (.inl rfl) nofun rfl
    have hfloor : ⌊((ofNumeral 16 [13] : Nat) : ℚ)⌋₊ = 13 := Nat.floor_natCast 13
    exact .inr ⟨_, .inl (.seconds hnumeral), by rw [hfloor]; decide, 13, rfl, by rw [hfloor]; rfl⟩
  · rfl

end

end Dnfast.Repo
