import Mathlib.Data.List.Basic
import Mathlib.Algebra.Order.Ring.Nat
import Mathlib.Tactic.Ring

/-! # Bytes of numbers and texts

Numbers of a fixed width in big-endian order, and the UTF-8 form of a text. -/

/-- The order of lists is decided in front, or else behind. -/
theorem List.lt_iff_take_drop {α : Type} [LT α] {n : Nat} {l l' : List α} (hl : n ≤ l.length)
    (hl' : n ≤ l'.length) :
    l < l' ↔ l.take n < l'.take n ∨ l.take n = l'.take n ∧ l.drop n < l'.drop n := by
  induction n generalizing l l' with
  | zero => simp
  | succ n ih =>
    cases l with
    | nil => cases hl
    | cons a l =>
      cases l' with
      | nil => cases hl'
      | cons b l' =>
        simp only [take_succ_cons, drop_succ_cons, cons_lt_cons_iff, cons.injEq,
          ih (Nat.le_of_succ_le_succ hl) (Nat.le_of_succ_le_succ hl')]
        rw [and_or_left, or_assoc, and_assoc]

namespace Nat

/-- The lowest `width` bytes of the number, the greatest first. -/
def beBytes (n : Nat) : Nat → List UInt8
  | 0 => []
  | width + 1 => UInt8.ofNat (n / 256 ^ width) :: beBytes n width

/-- Bytes as a number, the first one the greatest. -/
def ofBeBytes : List UInt8 → Nat
  | [] => 0
  | b :: bytes => b.toNat * 256 ^ bytes.length + ofBeBytes bytes

@[simp] theorem length_beBytes (n width : Nat) : (beBytes n width).length = width := by
  induction width with
  | zero => rfl
  | succ width ih => rw [beBytes, List.length_cons, ih]

theorem ofBeBytes_lt (bytes : List UInt8) : ofBeBytes bytes < 256 ^ bytes.length := by
  induction bytes with
  | nil => exact Nat.one_pos
  | cons b bytes ih =>
    rw [ofBeBytes, List.length_cons, Nat.pow_succ]
    have hb : b.toNat + 1 ≤ 256 := b.toNat_lt
    calc b.toNat * 256 ^ bytes.length + ofBeBytes bytes
        < b.toNat * 256 ^ bytes.length + 256 ^ bytes.length := Nat.add_lt_add_left ih _
      _ = 256 ^ bytes.length * (b.toNat + 1) := by ring
      _ ≤ 256 ^ bytes.length * 256 := Nat.mul_le_mul_left _ hb

theorem beBytes_mod (n width : Nat) : beBytes (n % 256 ^ width) width = beBytes n width := by
  suffices h : ∀ w ≤ width, beBytes (n % 256 ^ width) w = beBytes n w from h width le_rfl
  intro w
  induction w with
  | zero => intro _; rfl
  | succ w ih =>
    intro hw
    have hdvd : 256 ^ w * 256 ∣ 256 ^ width := by
      rw [← Nat.pow_succ]
      exact Nat.pow_dvd_pow 256 hw
    have hdigit : n % 256 ^ width / 256 ^ w % 256 = n / 256 ^ w % 256 := by
      rw [← Nat.mod_mul_right_div_self, ← Nat.mod_mul_right_div_self, Nat.mod_mod_of_dvd _ hdvd]
    rw [beBytes, beBytes, ih (by omega)]
    refine congrArg (· :: _) ?_
    rw [← UInt8.toNat_inj, UInt8.toNat_ofNat', UInt8.toNat_ofNat']
    exact hdigit

theorem ofBeBytes_beBytes (n width : Nat) : ofBeBytes (beBytes n width) = n % 256 ^ width := by
  induction width with
  | zero => rw [beBytes, ofBeBytes, Nat.pow_zero, Nat.mod_one]
  | succ width ih =>
    have hdigit : (UInt8.ofNat (n / 256 ^ width)).toNat = n / 256 ^ width % 256 :=
      UInt8.toNat_ofNat'
    rw [beBytes, ofBeBytes, length_beBytes, ih, hdigit, Nat.pow_succ, Nat.mod_mul, Nat.mul_comm,
      Nat.add_comm]

theorem beBytes_ofBeBytes (bytes : List UInt8) :
    beBytes (ofBeBytes bytes) bytes.length = bytes := by
  induction bytes with
  | nil => rfl
  | cons b bytes ih =>
    have hlt := ofBeBytes_lt bytes
    have hpos : 0 < 256 ^ bytes.length := Nat.pow_pos (by decide)
    have hdigit : (b.toNat * 256 ^ bytes.length + ofBeBytes bytes) / 256 ^ bytes.length
        = b.toNat := by
      rw [Nat.mul_comm, Nat.mul_add_div hpos, Nat.div_eq_of_lt hlt, Nat.add_zero]
    have hrest : (b.toNat * 256 ^ bytes.length + ofBeBytes bytes) % 256 ^ bytes.length
        = ofBeBytes bytes := by
      rw [Nat.mul_comm, Nat.mul_add_mod, Nat.mod_eq_of_lt hlt]
    rw [ofBeBytes, List.length_cons, beBytes, hdigit, UInt8.ofNat_toNat, ← beBytes_mod, hrest, ih]

theorem beBytes_inj {width m n : Nat} (hm : m < 256 ^ width) (hn : n < 256 ^ width)
    (h : beBytes m width = beBytes n width) : m = n := by
  have hvalue := congrArg ofBeBytes h
  rwa [ofBeBytes_beBytes, ofBeBytes_beBytes, Nat.mod_eq_of_lt hm, Nat.mod_eq_of_lt hn] at hvalue

/-- Numbers of one width are in the order of their bytes. -/
theorem ofBeBytes_lt_iff {bs cs : List UInt8} (h : bs.length = cs.length) :
    ofBeBytes bs < ofBeBytes cs ↔ bs < cs := by
  induction bs generalizing cs with
  | nil =>
    cases cs with
    | nil => exact iff_of_false (Nat.lt_irrefl _) (List.lt_irrefl _)
    | cons c cs => cases h
  | cons b bs ih =>
    cases cs with
    | nil => cases h
    | cons c cs =>
      have hlength : bs.length = cs.length := Nat.succ.inj h
      have hb := ofBeBytes_lt bs
      have hc := ofBeBytes_lt cs
      rw [List.cons_lt_cons_iff, ← ih hlength, ofBeBytes, ofBeBytes, hlength]
      rw [hlength] at hb
      generalize 256 ^ cs.length = w at *
      have hstep {x y : UInt8} {m n : Nat} (hxy : x < y) (hm : m < w) :
          x.toNat * w + m < y.toNat * w + n := by
        calc x.toNat * w + m < x.toNat * w + w := Nat.add_lt_add_left hm _
          _ = (x.toNat + 1) * w := by ring
          _ ≤ y.toNat * w := Nat.mul_le_mul_right w (UInt8.lt_iff_toNat_lt.mp hxy)
          _ ≤ y.toNat * w + n := Nat.le_add_right _ _
      by_cases heq : b = c
      · subst heq
        rw [Nat.add_lt_add_iff_left]
        exact ⟨fun h => Or.inr ⟨rfl, h⟩, fun h => h.elim (absurd · (UInt8.lt_irrefl b)) And.right⟩
      rcases UInt8.lt_or_lt_of_ne heq with hlt | hgt
      · exact iff_of_true (hstep hlt hb) (Or.inl hlt)
      · refine iff_of_false (Nat.lt_asymm (hstep hgt hc)) ?_
        rintro (hlt | ⟨rfl, -⟩)
        · exact UInt8.lt_asymm hlt hgt
        · exact heq rfl

end Nat

namespace String

/-- `as_bytes`. -/
def asBytes (s : String) : List UInt8 := s.toUTF8.data.toList

@[simp] theorem length_asBytes (s : String) : s.asBytes.length = s.utf8ByteSize := rfl

theorem asBytes_injective : Function.Injective asBytes := by
  intro s t h
  exact toByteArray_inj.mp (ByteArray.ext (Array.toList_inj.mp h))

@[simp] theorem asBytes_append (s t : String) : (s ++ t).asBytes = s.asBytes ++ t.asBytes := by
  simp [asBytes, toUTF8]

/-- `str::from_utf8`. -/
def ofBytes? (bytes : List UInt8) : Option String := fromUTF8? ⟨bytes.toArray⟩

theorem asBytes_of_ofBytes?_eq_some {bytes : List UInt8} {s : String} (h : ofBytes? bytes = some s) :
    s.asBytes = bytes := by
  rw [ofBytes?, fromUTF8?] at h
  split at h
  · cases h
    rfl
  · cases h

@[simp] theorem ofBytes?_asBytes (s : String) : ofBytes? s.asBytes = some s := by
  have hvalid : (⟨s.asBytes.toArray⟩ : ByteArray).IsValidUTF8 := s.isValidUTF8
  rw [ofBytes?, fromUTF8?, dif_pos hvalid]
  rfl

theorem ofBytes?_append {bytes bytes' : List UInt8} {s s' : String} (h : ofBytes? bytes = some s)
    (h' : ofBytes? bytes' = some s') : ofBytes? (bytes ++ bytes') = some (s ++ s') := by
  rw [← asBytes_of_ofBytes?_eq_some h, ← asBytes_of_ofBytes?_eq_some h', ← asBytes_append,
    ofBytes?_asBytes]

theorem asBytes_eq_flatMap (s : String) : s.asBytes = s.toList.flatMap utf8EncodeChar := by
  rw [asBytes, toUTF8, ← utf8Encode_toList, List.utf8Encode]
  simp

end String
