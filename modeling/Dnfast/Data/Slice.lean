import Mathlib.Data.List.Basic
import Dnfast.Data.Check

/-! # Slices

A slice expression panics when its range does not lie in the list. A computation over slices ends
with a result, with an error of its own or with a panic, and these are kept apart so that it can be
said that the last never happens. -/

/-- How a computation ends without a result. -/
inductive Fault (ε : Type) where
  | panic
  | error (e : ε)
  deriving DecidableEq

namespace List

variable {α ε : Type} {l : List α} {n start stop i : Nat}

/-- `l[start..stop]`. -/
def slice (l : List α) (start stop : Nat) : Except (Fault ε) (List α) :=
  if start ≤ stop ∧ stop ≤ l.length then .ok ((l.drop start).take (stop - start)) else .error .panic

/-- `try_into().expect(..)` into an array of the given length. -/
def fixed (n : Nat) (l : List α) : Except (Fault ε) (List α) :=
  if l.length = n then .ok l else .error .panic

/-- `chunks_exact`: what is left over at the end is dropped. -/
def chunksExact (n : Nat) (l : List α) : List (List α) :=
  (range (l.length / n)).map fun i => (l.drop (i * n)).take n

theorem slice_eq_ok (hle : start ≤ stop) (hstop : stop ≤ l.length) :
    (l.slice start stop : Except (Fault ε) _) = .ok ((l.drop start).take (stop - start)) :=
  if_pos ⟨hle, hstop⟩

theorem fixed_eq_ok (h : l.length = n) : (l.fixed n : Except (Fault ε) _) = .ok l := if_pos h

theorem length_drop_take (hle : start ≤ stop) (hstop : stop ≤ l.length) :
    ((l.drop start).take (stop - start)).length = stop - start := by
  rw [length_take, length_drop]
  omega

@[simp] theorem length_chunksExact (n : Nat) (l : List α) :
    (l.chunksExact n).length = l.length / n := by
  rw [chunksExact, length_map, length_range]

theorem getElem_chunksExact (h : i < (l.chunksExact n).length) :
    (l.chunksExact n)[i] = (l.drop (i * n)).take n := by
  simp only [chunksExact, getElem_map, getElem_range]

theorem mul_le_length (h : i < l.length / n) : (i + 1) * n ≤ l.length :=
  Nat.le_trans (Nat.mul_le_mul_right n h) (Nat.div_mul_le_self _ _)

theorem slice_chunk (h : i < l.length / n) :
    (l.slice (i * n) ((i + 1) * n) : Except (Fault ε) _) = .ok ((l.drop (i * n)).take n) := by
  rw [slice_eq_ok (Nat.mul_le_mul_right n (Nat.le_succ i)) (mul_le_length h), Nat.succ_mul,
    Nat.add_sub_cancel_left]

theorem length_of_mem_chunksExact {c : List α} (h : c ∈ l.chunksExact n) : c.length = n := by
  obtain ⟨i, hi, rfl⟩ := mem_map.mp h
  have hlength := mul_le_length (mem_range.mp hi)
  rw [Nat.succ_mul] at hlength
  rw [length_take, length_drop]
  omega

theorem chunksExact_append {c : List α} (hn : 0 < n) (hc : c.length = n) (l : List α) :
    (c ++ l).chunksExact n = c :: l.chunksExact n := by
  have hcount : (c ++ l).length / n = l.length / n + 1 := by
    rw [length_append, hc, Nat.add_div_left _ hn]
  rw [chunksExact, hcount, range_succ_eq_map, map_cons, map_map, Nat.zero_mul, drop_zero,
    take_left' hc]
  refine congrArg (c :: ·) (map_congr_left fun i _ => ?_)
  rw [Function.comp_apply, Nat.succ_mul, Nat.add_comm, ← drop_drop, drop_left' hc]

/-- Equal pieces put together are taken apart again. -/
theorem chunksExact_flatten (hn : 0 < n) {cs : List (List α)} (hcs : ∀ c ∈ cs, c.length = n) :
    cs.flatten.chunksExact n = cs := by
  induction cs with
  | nil => simp [chunksExact]
  | cons c cs ih =>
    rw [forall_mem_cons] at hcs
    rw [flatten_cons, chunksExact_append hn hcs.1, ih hcs.2]

theorem length_flatten_of_length_eq {cs : List (List α)} (hcs : ∀ c ∈ cs, c.length = n) :
    cs.flatten.length = cs.length * n := by
  induction cs with
  | nil => simp
  | cons c cs ih =>
    rw [forall_mem_cons] at hcs
    rw [flatten_cons, length_append, hcs.1, ih hcs.2, length_cons, Nat.succ_mul, Nat.add_comm]

/-- The middle of three parts. -/
theorem slice_append {l₁ l₂ l₃ : List α} (hstart : start = l₁.length)
    (hstop : stop = l₁.length + l₂.length) :
    ((l₁ ++ l₂ ++ l₃).slice start stop : Except (Fault ε) _) = .ok l₂ := by
  subst hstart hstop
  rw [slice_eq_ok (by omega) (by simp only [length_append]; omega), append_assoc, drop_left,
    Nat.add_sub_cancel_left, take_left]

end List

/-! ## Computations that do not panic -/

namespace Except

variable {ε α β σ : Type}

def Safe (x : Except (Fault ε) α) : Prop := x ≠ .error .panic

theorem safe_ok (a : α) : Safe (.ok a : Except (Fault ε) α) := nofun

theorem safe_error (e : ε) : Safe (.error (.error e) : Except (Fault ε) α) := nofun

theorem safe_refuseIf (c : Prop) [Decidable c] (e : ε) :
    Safe (refuseIf c (.error e) : Except (Fault ε) Unit) := by
  unfold refuseIf
  split
  · exact safe_error e
  · exact safe_ok ()

theorem Safe.bind {x : Except (Fault ε) α} {f : α → Except (Fault ε) β} (hx : Safe x)
    (hf : ∀ a, x = .ok a → Safe (f a)) : Safe (x >>= f) := by
  cases x with
  | error e =>
    intro h
    exact hx (congrArg Except.error (Except.error.inj h))
  | ok a => exact hf a rfl

theorem safe_foldlM {f : σ → α → Except (Fault ε) σ} {l : List α}
    (hf : ∀ s, ∀ a ∈ l, Safe (f s a)) (s : σ) : Safe (l.foldlM f s) := by
  induction l generalizing s with
  | nil => exact safe_ok s
  | cons a l ih =>
    rw [List.foldlM_cons]
    refine Safe.bind (hf s a List.mem_cons_self) fun s' _ => ?_
    exact ih (fun s a ha => hf s a (List.mem_cons_of_mem _ ha)) s'

theorem safe_slice {l : List α} {start stop : Nat} (hle : start ≤ stop) (hstop : stop ≤ l.length) :
    Safe (l.slice start stop : Except (Fault ε) _) := by
  rw [List.slice_eq_ok hle hstop]
  exact safe_ok _

end Except
