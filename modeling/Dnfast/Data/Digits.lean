import Mathlib.Algebra.Order.Floor.Semifield
import Mathlib.Data.Nat.Digits.Lemmas
import Mathlib.Data.Rat.Floor
import Mathlib.Tactic.Ring

/-! # Numerals

The number of a list of digits, the greatest first, and the floor of a number with a fraction. A digit
is folded in on the left of an integer, and on the right of a fraction, where each step drops its
remainder: what is dropped never shows in the floor of the whole. -/

namespace Nat

/-- The digits as a number, the first one the greatest. -/
def ofNumeral (base : Nat) (digits : List Nat) : Nat := digits.foldl (fun total d => total * base + d) 0

/-- The part of `0.digits * unit` before the point, one digit at a time from the right. -/
def fractionOf (base unit : Nat) (digits : List Nat) : Nat :=
  digits.foldr (fun d carry => (d * unit + carry) / base) 0

variable {base unit : Nat} {digits : List Nat} {d : Nat}

theorem ofNumeral_eq_ofDigits (base : Nat) (digits : List Nat) :
    ofNumeral base digits = ofDigits base digits.reverse := by
  rw [ofNumeral, Nat.ofDigits_eq_foldr, List.foldr_reverse]
  congr 1
  funext total d
  simp only [Nat.cast_id]
  rw [Nat.mul_comm, Nat.add_comm]

@[simp] theorem ofNumeral_nil : ofNumeral base [] = 0 := rfl

theorem ofNumeral_concat : ofNumeral base (digits ++ [d]) = ofNumeral base digits * base + d := by
  simp [ofNumeral, List.foldl_append]

theorem ofNumeral_cons :
    ofNumeral base (d :: digits) = d * base ^ digits.length + ofNumeral base digits := by
  rw [ofNumeral_eq_ofDigits, ofNumeral_eq_ofDigits, List.reverse_cons, Nat.ofDigits_append,
    Nat.ofDigits_singleton, List.length_reverse, Nat.mul_comm, Nat.add_comm]

@[simp] theorem fractionOf_nil : fractionOf base unit [] = 0 := rfl

theorem fractionOf_cons :
    fractionOf base unit (d :: digits) = (d * unit + fractionOf base unit digits) / base := rfl

/-- The remainders that are dropped on the way do not matter. -/
theorem fractionOf_eq_div (hbase : 0 < base) :
    fractionOf base unit digits = ofNumeral base digits * unit / base ^ digits.length := by
  induction digits with
  | nil => simp
  | cons d digits ih =>
    have hpow : 0 < base ^ digits.length := Nat.pow_pos hbase
    have hsum : (d * base ^ digits.length + ofNumeral base digits) * unit =
        ofNumeral base digits * unit + d * unit * base ^ digits.length := by ring
    rw [fractionOf_cons, ih, ofNumeral_cons, List.length_cons, Nat.pow_succ, ← Nat.div_div_eq_div_mul,
      hsum, Nat.add_mul_div_right _ _ hpow, Nat.add_comm]

/-- The carry stays below the unit. -/
theorem fractionOf_lt (hunit : 0 < unit) (h : ∀ d ∈ digits, d < base) :
    fractionOf base unit digits < unit := by
  induction digits with
  | nil => exact hunit
  | cons d digits ih =>
    have hd := h d List.mem_cons_self
    have hcarry := ih fun d hd => h d (List.mem_cons_of_mem _ hd)
    rw [fractionOf_cons, Nat.div_lt_iff_lt_mul (by omega)]
    calc d * unit + fractionOf base unit digits
        < d * unit + unit := Nat.add_lt_add_left hcarry _
      _ = (d + 1) * unit := (Nat.succ_mul d unit).symm
      _ ≤ base * unit := Nat.mul_le_mul_right _ hd
      _ = unit * base := Nat.mul_comm _ _

theorem floor_numeral (hbase : 0 < base) (whole : Nat) :
    ⌊((whole : ℚ) + ofNumeral base digits / (base ^ digits.length : Nat)) * unit⌋₊ =
      whole * unit + fractionOf base unit digits := by
  have hsplit : ((whole : ℚ) + ofNumeral base digits / (base ^ digits.length : Nat)) * unit =
      ((ofNumeral base digits * unit : Nat) : ℚ) / (base ^ digits.length : Nat) +
        (whole * unit : Nat) := by
    push_cast
    ring
  rw [hsplit, Nat.floor_add_natCast (by positivity), Nat.floor_div_eq_div, fractionOf_eq_div hbase,
    Nat.add_comm]

end Nat
