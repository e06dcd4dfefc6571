/-! # Checks

A check is a computation in `Except` that returns nothing. Its specification is the condition under
which it succeeds: `refuseIf` is the single test, and the lemmas below read the success of a sequence
of checks, of a loop over a list and of a computation with a result as the conjunction of the
conditions of its parts. -/

namespace Except

variable {ε α β : Type}

/-- Fail with `e` when the condition holds. -/
def refuseIf (c : Prop) [Decidable c] (e : ε) : Except ε Unit := if c then .error e else .ok ()

@[simp] theorem refuseIf_eq_ok {c : Prop} [Decidable c] {e : ε} {u : Unit} :
    refuseIf c e = .ok u ↔ ¬ c := by
  unfold refuseIf
  split <;> simp_all

/-- `Option::ok_or`. -/
def okOr (o : Option α) (e : ε) : Except ε α := o.elim (.error e) .ok

@[simp] theorem okOr_eq_ok {o : Option α} {e : ε} {a : α} : okOr o e = .ok a ↔ o = some a := by
  cases o <;> simp [okOr]

@[simp] theorem bind_eq_ok {x : Except ε α} {f : α → Except ε β} {b : β} :
    (x >>= f) = .ok b ↔ ∃ a, x = .ok a ∧ f a = .ok b := by
  cases x with
  | error e => simp [bind, Except.bind]
  | ok a => simp [bind, Except.bind]

@[simp] theorem ok_bind {a : α} {f : α → Except ε β} : (.ok a >>= f) = f a := rfl

theorem check_bind_eq_ok {x : Except ε Unit} {y : Except ε β} {b : β} :
    (x >>= fun _ => y) = .ok b ↔ x = .ok () ∧ y = .ok b := by
  rw [bind_eq_ok]
  constructor
  · rintro ⟨⟨⟩, hx, hy⟩
    exact ⟨hx, hy⟩
  · rintro ⟨hx, hy⟩
    exact ⟨(), hx, hy⟩

@[simp] theorem pure_eq_ok {a b : α} : (pure a : Except ε α) = .ok b ↔ a = b := by
  simp [pure, Except.pure]

@[simp] theorem throw_ne_ok {e : ε} {a : α} : (throw e : Except ε α) ≠ .ok a := by
  intro h
  cases h

@[simp] theorem map_eq_ok {x : Except ε α} {f : α → β} {b : β} :
    x.map f = .ok b ↔ ∃ a, x = .ok a ∧ f a = b := by
  cases x <;> simp [Except.map]

theorem mapError_ok {ε' : Type} (f : ε → ε') (a : α) : (Except.ok a).mapError f = .ok a := rfl

theorem mapError_error {ε' : Type} (f : ε → ε') (e : ε) :
    (Except.error e : Except ε α).mapError f = .error (f e) := rfl

@[simp] theorem mapError_eq_ok {ε' : Type} {x : Except ε α} {f : ε → ε'} {a : α} :
    x.mapError f = .ok a ↔ x = .ok a := by
  cases x with
  | ok b => simp [mapError_ok]
  | error e => simp [mapError_error]

/-- A computation is evaluated through what it shows of its result. -/
theorem toOption_map_eq_some {x : Except ε α} {f : α → β} {b : β} :
    x.toOption.map f = some b ↔ ∃ a, x = .ok a ∧ f a = b := by
  cases x <;> simp [Except.toOption]

theorem toOption_eq_some {x : Except ε α} {a : α} : x.toOption = some a ↔ x = .ok a := by
  cases x <;> simp [Except.toOption]

/-- A loop of checks succeeds when each of them does. -/
theorem forM_eq_ok {f : α → Except ε PUnit} {l : List α} :
    forM l f = .ok () ↔ ∀ a ∈ l, f a = .ok () := by
  induction l with
  | nil => simp
  | cons a l ih => rw [List.forM_cons, check_bind_eq_ok, ih, List.forall_mem_cons]

/-- What each step of a loop keeps holds after the loop. -/
theorem foldlM_invariant {f : β → α → Except ε β} {l : List α} {P : β → Prop}
    (hstep : ∀ b, ∀ a ∈ l, P b → ∀ b', f b a = .ok b' → P b') {b b' : β} (h : l.foldlM f b = .ok b')
    (hb : P b) : P b' := by
  induction l generalizing b with
  | nil =>
    rw [List.foldlM_nil, pure_eq_ok] at h
    rwa [← h]
  | cons a l ih =>
    rw [List.foldlM_cons, bind_eq_ok] at h
    obtain ⟨b₁, hfirst, h⟩ := h
    exact ih (fun b a ha => hstep b a (List.mem_cons_of_mem _ ha)) h
      (hstep b a List.mem_cons_self hb b₁ hfirst)

/-- The same for a loop over the first numbers, where the invariant may count. -/
theorem foldlM_range_invariant {f : β → Nat → Except ε β} {N : Nat} {P : Nat → β → Prop}
    (hstep : ∀ n < N, ∀ b, P n b → ∀ b', f b n = .ok b' → P (n + 1) b') {b b' : β}
    (h : (List.range N).foldlM f b = .ok b') (hb : P 0 b) : P N b' := by
  induction N generalizing b' with
  | zero =>
    rw [List.range_zero, List.foldlM_nil, pure_eq_ok] at h
    rwa [← h]
  | succ N ih =>
    rw [List.range_succ, List.foldlM_append, bind_eq_ok] at h
    obtain ⟨b₁, hfirst, h⟩ := h
    rw [List.foldlM_cons, bind_eq_ok] at h
    obtain ⟨b₂, hlast, h⟩ := h
    rw [List.foldlM_nil, pure_eq_ok] at h
    rw [← h]
    exact hstep N N.lt_succ_self b₁ (ih (fun n hn => hstep n (Nat.lt_succ_of_lt hn)) hfirst) b₂
      hlast

end Except
