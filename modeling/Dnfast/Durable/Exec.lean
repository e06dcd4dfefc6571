import Mathlib.Init

/-! # Programs over durable state

A program over durable state acts in single *durable steps*: it makes a directory, writes a
file, renames it. At each step the environment decides (`Fate`) whether the step happens, fails
with an error, or is never reached because the process died before it. The environment's choices
are a script of fates; past its end every step happens.

`Exec σ ε α` is a program with state `σ`, errors `ε` and result `α`. It is executable, and it
ends in an `Outcome`: a result, an error, or a crash. A crash stops the whole program, cleanup
handlers included, so the state it leaves is the one the next process finds. -/

namespace Durable

/-- What the environment does to one durable step. -/
inductive Fate (ε : Type) where
  | go
  | fail (error : ε)
  | die
  deriving DecidableEq, Repr

/-- How a program ends. -/
inductive Outcome (ε α : Type) where
  | ok (value : α)
  | err (error : ε)
  | crashed
  deriving DecidableEq, Repr

/-- A program over the durable state `σ`: it consumes fates and returns the outcome, the state it
leaves and the fates it did not use. -/
def Exec (σ ε α : Type) : Type := List (Fate ε) → σ → Outcome ε α × σ × List (Fate ε)

namespace Exec

variable {σ τ ε α β : Type}

/-- The outcome and the state left when every step happens. -/
def clean (m : Exec σ ε α) (s : σ) : Outcome ε α × σ := ((m [] s).1, (m [] s).2.1)

protected def pure (a : α) : Exec σ ε α := fun fates s => (.ok a, s, fates)

protected def bind (m : Exec σ ε α) (f : α → Exec σ ε β) : Exec σ ε β := fun fates s =>
  match m fates s with
  | (.ok a, s', rest) => f a rest s'
  | (.err e, s', rest) => (.err e, s', rest)
  | (.crashed, s', rest) => (.crashed, s', rest)

instance : Monad (Exec σ ε) where
  pure := Exec.pure
  bind := Exec.bind

/-- An error, with no step taken. -/
protected def throw (e : ε) : Exec σ ε α := fun fates s => (.err e, s, fates)

/-- A computation on values: no step is taken. -/
def lift : Except ε α → Exec σ ε α
  | .ok a => Exec.pure a
  | .error e => Exec.throw e

/-- One durable step. The operation reads the state and either refuses, leaving the state as it
is, or returns a value and the next state. -/
def step (operation : σ → Except ε (α × σ)) : Exec σ ε α := fun fates s =>
  match fates with
  | .die :: rest => (.crashed, s, rest)
  | .fail e :: rest => (.err e, s, rest)
  | .go :: rest =>
    match operation s with
    | .ok (a, s') => (.ok a, s', rest)
    | .error e => (.err e, s, rest)
  | [] =>
    match operation s with
    | .ok (a, s') => (.ok a, s', [])
    | .error e => (.err e, s, [])

/-- A step that reads the state. -/
def observe (read : σ → Except ε α) : Exec σ ε α :=
  step fun s => (read s).map fun a => (a, s)

/-- A step that changes the state and cannot refuse. -/
def change (update : σ → σ) : Exec σ ε Unit :=
  step fun s => .ok ((), update s)

/-- A step that leaves the state as it is, such as a sync. -/
def sync : Exec σ ε Unit := change id

/-- The result of `m`, or the error it ended in. A crash is not caught. -/
def attempt (m : Exec σ ε α) : Exec σ ε (Except ε α) := fun fates s =>
  match m fates s with
  | (.ok a, s', rest) => (.ok (.ok a), s', rest)
  | (.err e, s', rest) => (.ok (.error e), s', rest)
  | (.crashed, s', rest) => (.crashed, s', rest)

/-- `m`, with `cleanup` run when it ends in an error. The error of `m` is returned whatever
becomes of the cleanup, unless the process dies in it. -/
def onErr (m : Exec σ ε α) (cleanup : Exec σ ε Unit) : Exec σ ε α := do
  match ← attempt m with
  | .ok a => pure a
  | .error e =>
    let _ ← attempt cleanup
    Exec.throw e

/-- `f` on each element in turn, up to the first error. -/
def forEach (f : α → Exec σ ε Unit) : List α → Exec σ ε Unit
  | [] => pure ()
  | a :: as => do
    f a
    forEach f as

/-- The results of `f` on each element in turn, up to the first error. -/
def mapEach (f : α → Exec σ ε β) : List α → Exec σ ε (List β)
  | [] => pure []
  | a :: as => do
    let b ← f a
    let bs ← mapEach f as
    pure (b :: bs)

/-- A program on a part of the state: `get` finds the part and `set` puts it back. It ends in
`missing` when there is no such part. -/
def zoom (get : σ → Option τ) (set : τ → σ → σ) (missing : ε) (m : Exec τ ε α) : Exec σ ε α :=
  fun fates s =>
    match get s with
    | none => (.err missing, s, fates)
    | some t =>
      match m fates t with
      | (o, t', rest) => (o, set t' s, rest)

end Exec

end Durable
