import Mathlib.Init

/-! # Programs with a state and errors

`Fallible σ ε α` is a program with state `σ`, errors `ε` and result `α` that keeps its state when it
ends in an error: what was done before the error stays done. `Post m s Q` says how it ends, and has one
rule for each way to put programs together. -/

def Fallible (σ ε α : Type) : Type := σ → Except ε α × σ

namespace Fallible

variable {σ ε α β : Type}

protected def pure (a : α) : Fallible σ ε α := fun s => (.ok a, s)

protected def bind (m : Fallible σ ε α) (f : α → Fallible σ ε β) : Fallible σ ε β := fun s =>
  match m s with
  | (.ok a, s') => f a s'
  | (.error e, s') => (.error e, s')

instance : Monad (Fallible σ ε) where
  pure := Fallible.pure
  bind := Fallible.bind

protected def throw (e : ε) : Fallible σ ε α := fun s => (.error e, s)

/-- A computation on values. -/
def lift (x : Except ε α) : Fallible σ ε α := fun s => (x, s)

/-- What is read from the state. -/
def observe (read : σ → Except ε α) : Fallible σ ε α := fun s => (read s, s)

/-- The result of `m`, or the error that it ended in. -/
def attempt (m : Fallible σ ε α) : Fallible σ ε (Except ε α) := fun s => (.ok (m s).1, (m s).2)

/-- The same program with other errors. -/
def mapError {ε' : Type} (f : ε → ε') (m : Fallible σ ε α) : Fallible σ ε' α :=
  fun s => ((m s).1.mapError f, (m s).2)

theorem bind_assoc {γ : Type} (m : Fallible σ ε α) (f : α → Fallible σ ε β) (g : β → Fallible σ ε γ) :
    m >>= f >>= g = m >>= fun a => f a >>= g := by
  funext s
  change Fallible.bind (Fallible.bind m f) g s = Fallible.bind m (fun a => Fallible.bind (f a) g) s
  unfold Fallible.bind
  rcases m s with ⟨e | a, s'⟩ <;> rfl

/-- The end of `m` from `s` satisfies `Q`. -/
def Post (m : Fallible σ ε α) (s : σ) (Q : Except ε α → σ → Prop) : Prop := Q (m s).1 (m s).2

namespace Post

variable {m : Fallible σ ε α} {f : α → Fallible σ ε β} {s : σ} {P Q : Except ε α → σ → Prop}
  {R : Except ε β → σ → Prop}

theorem mono (h : Post m s P) (himp : ∀ r s', P r s' → Q r s') : Post m s Q := himp _ _ h

theorem and (h : Post m s P) (h' : Post m s Q) : Post m s fun r s' => P r s' ∧ Q r s' := ⟨h, h'⟩

theorem pure {a : α} (h : Q (.ok a) s) : Post (Pure.pure a : Fallible σ ε α) s Q := h

theorem throw {e : ε} (h : Q (.error e) s) : Post (Fallible.throw e : Fallible σ ε α) s Q := h

theorem lift {x : Except ε α} (hok : ∀ a, x = .ok a → Q (.ok a) s)
    (herror : ∀ e, x = .error e → Q (.error e) s) : Post (Fallible.lift x : Fallible σ ε α) s Q := by
  cases x with
  | ok a => exact hok a rfl
  | error e => exact herror e rfl

theorem lift_eq {x : Except ε α} : Post (Fallible.lift x : Fallible σ ε α) s fun r s' => s' = s ∧ r = x :=
  ⟨rfl, rfl⟩

theorem bind (hm : Post m s P) (hok : ∀ a s', P (.ok a) s' → Post (f a) s' R)
    (herror : ∀ e s', P (.error e) s' → R (.error e) s') : Post (m >>= f) s R := by
  change R (Fallible.bind m f s).1 (Fallible.bind m f s).2
  rcases hrun : m s with ⟨e | a, s'⟩
  all_goals
    rw [Post, hrun] at hm
    simp only [Fallible.bind, hrun]
  · exact herror e s' hm
  · exact hok a s' hm

/-- What every step keeps. -/
theorem keeps {I : σ → Prop} (hm : Post m s fun _ s' => I s')
    (hf : ∀ a s', I s' → Post (f a) s' fun _ s'' => I s'') : Post (m >>= f) s fun _ s' => I s' :=
  hm.bind (fun a s' h => hf a s' h) fun _ _ h => h

theorem observe {read : σ → Except ε α} (h : Q (read s) s) : Post (Fallible.observe read) s Q := h

theorem attempt {Q : Except ε (Except ε α) → σ → Prop} (h : Post m s fun r s' => Q (.ok r) s') :
    Post (Fallible.attempt m) s Q := h

theorem mapError {ε' : Type} {g : ε → ε'} {Q : Except ε' α → σ → Prop}
    (h : Post m s fun r s' => Q (r.mapError g) s') : Post (Fallible.mapError g m) s Q := h

/-- The sequencing rule after a program whose error is a value. -/
theorem bind_attempt {g : Except ε α → Fallible σ ε β} (hm : Post m s P)
    (hg : ∀ r s', P r s' → Post (g r) s' R) : Post (Fallible.attempt m >>= g) s R :=
  hg _ _ hm

end Post

end Fallible
