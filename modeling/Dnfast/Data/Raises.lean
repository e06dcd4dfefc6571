import Dnfast.Data.Check

/-! # What a computation raises

`Raises P x`: every error of `x` has the property `P`. A sequence of computations raises what its parts
raise, each on the results of those before. -/

namespace Except

variable {ε α β : Type} {P : ε → Prop} {x : Except ε α} {f : α → Except ε β}

def Raises (P : ε → Prop) (x : Except ε α) : Prop := ∀ e, x = .error e → P e

@[simp] theorem raises_ok {a : α} : Raises P (.ok a : Except ε α) := nofun

@[simp] theorem raises_pure {a : α} : Raises P (pure a : Except ε α) := nofun

@[simp] theorem raises_error {e : ε} : Raises P (.error e : Except ε α) ↔ P e :=
  ⟨fun h => h e rfl, fun h _ he => Except.error.inj he ▸ h⟩

theorem raises_bind : Raises P (x >>= f) ↔ Raises P x ∧ ∀ a, x = .ok a → Raises P (f a) := by
  cases x with
  | error e =>
    change Raises P (.error e) ↔ _
    simp
  | ok a =>
    change Raises P (f a) ↔ _
    simp

@[simp] theorem raises_map {g : α → β} : Raises P (g <$> x) ↔ Raises P x := by
  cases x with
  | error e =>
    change Raises P (.error e) ↔ _
    simp
  | ok a =>
    change Raises P (.ok (g a)) ↔ _
    simp

theorem raises_check_bind {x : Except ε Unit} {y : Except ε β} :
    Raises P (x >>= fun _ => y) ↔ Raises P x ∧ (x = .ok () → Raises P y) := by
  rw [raises_bind]
  exact and_congr_right fun _ => ⟨fun h => h (), fun h _ => h⟩

theorem Raises.bind (hx : Raises P x) (hf : ∀ a, Raises P (f a)) : Raises P (x >>= f) :=
  raises_bind.mpr ⟨hx, fun a _ => hf a⟩

@[simp] theorem raises_refuseIf {c : Prop} [Decidable c] {e : ε} : Raises P (refuseIf c e) ↔ (c → P e) := by
  unfold refuseIf
  split <;> simp_all

@[simp] theorem raises_okOr {o : Option α} {e : ε} : Raises P (okOr o e) ↔ (o = none → P e) := by
  cases o <;> simp [okOr]

end Except
