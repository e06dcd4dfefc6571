import Dnfast.Durable.Rules

/-! # What a program ensures

`Exec.Ensures A m s I good P` is a specification of `m` from `s` in one piece: `I` holds wherever `m`
ends, a crash included; a result satisfies `P`; `m` crashes only when the environment stops it, and it
ends in an error only when the environment makes a step fail or when `good` does not hold. `good` is fixed, so it can be carried through a whole
program and be discharged at its call. -/

namespace Durable.Exec

variable {σ τ ε α β : Type} {A : Fate ε → Prop}

/-- The environment makes no step fail, though it may stop the process. -/
def NoFail (A : Fate ε → Prop) : Prop := ∀ e, ¬ A (.fail e)

def Ensures (A : Fate ε → Prop) (m : Exec σ ε α) (s : σ) (I : σ → Prop) (good : Prop)
    (P : α → σ → Prop) : Prop :=
  Sat A m s fun o s' => I s' ∧ match o with
    | .ok a => P a s'
    | .err _ => NoFail A → ¬ good
    | .crashed => A .die

namespace Ensures

variable {m : Exec σ ε α} {f : α → Exec σ ε β} {s : σ} {I J : σ → Prop} {good better : Prop}
  {P Q : α → σ → Prop} {R : β → σ → Prop}

theorem mono (h : Ensures A m s I good P) (hI : ∀ s', I s' → J s') (hgood : better → good)
    (hP : ∀ a s', I s' → P a s' → Q a s') : Ensures A m s J better Q := by
  refine Sat.mono h ?_
  rintro (a | e | _) s' ⟨hi, h⟩
  · exact ⟨hI s' hi, hP a s' hi h⟩
  · exact ⟨hI s' hi, fun hA hb => h hA (hgood hb)⟩
  · exact ⟨hI s' hi, h⟩

theorem imp (h : Ensures A m s I good P) (hP : ∀ a s', I s' → P a s' → Q a s') :
    Ensures A m s I good Q :=
  h.mono (fun _ hi => hi) (fun hg => hg) hP

/-- A narrow invariant is passed on with the result. -/
theorem keep (h : Ensures A m s I good P) (hI : ∀ s', I s' → J s') :
    Ensures A m s J good fun a s' => I s' ∧ P a s' :=
  h.mono hI (fun hg => hg) fun _ _ hi hP => ⟨hi, hP⟩

theorem pure {a : α} (hI : I s) (hP : P a s) : Ensures A (Pure.pure a) s I good P :=
  sat_pure ⟨hI, hP⟩

theorem throw {e : ε} (hI : I s) (hbad : NoFail A → ¬ good) :
    Ensures A (Exec.throw e : Exec σ ε α) s I good P :=
  sat_throw ⟨hI, hbad⟩

theorem bind (hm : Ensures A m s I good P)
    (hf : ∀ a s', I s' → P a s' → Ensures A (f a) s' I good R) : Ensures A (m >>= f) s I good R := by
  refine sat_bind (Sat.mono hm ?_)
  rintro (a | e | _) s' ⟨hi, h⟩
  · exact hf a s' hi h
  · exact ⟨hi, h⟩
  · exact ⟨hi, h⟩

theorem step {operation : σ → Except ε (α × σ)} (hI : I s)
    (hok : ∀ a s', operation s = .ok (a, s') → I s' ∧ P a s')
    (herr : ∀ e, operation s = .error e → NoFail A → ¬ good) :
    Ensures A (Exec.step operation) s I good P :=
  sat_step (fun hdie => ⟨hI, hdie⟩) (fun e hA => ⟨hI, fun hno => absurd hA (hno e)⟩) hok
    fun e he => ⟨hI, herr e he⟩

theorem observe {read : σ → Except ε α} (hI : I s) (hok : ∀ a, read s = .ok a → P a s)
    (herr : ∀ e, read s = .error e → NoFail A → ¬ good) :
    Ensures A (Exec.observe read) s I good P :=
  sat_observe (fun hdie => ⟨hI, hdie⟩) (fun e hA => ⟨hI, fun hno => absurd hA (hno e)⟩)
    (fun a ha => ⟨hI, hok a ha⟩) fun e he => ⟨hI, herr e he⟩

theorem change {update : σ → σ} {P : Unit → σ → Prop} (hI : I s) (hI' : I (update s))
    (hP : P () (update s)) : Ensures A (Exec.change update) s I good P :=
  sat_change (fun hdie => ⟨hI, hdie⟩) (fun e hA => ⟨hI, fun hno => absurd hA (hno e)⟩) ⟨hI', hP⟩

theorem sync {P : Unit → σ → Prop} (hI : I s) (hP : P () s) :
    Ensures A (Exec.sync : Exec σ ε Unit) s I good P :=
  change hI hI hP

theorem lift {x : Except ε α} (hI : I s) (hok : ∀ a, x = .ok a → P a s)
    (herr : ∀ e, x = .error e → NoFail A → ¬ good) : Ensures A (Exec.lift x) s I good P :=
  sat_lift (fun a ha => ⟨hI, hok a ha⟩) fun e he => ⟨hI, herr e he⟩

/-- A step that may fail, and what is done about it: a step that failed has changed nothing. -/
theorem attempt_step {operation : σ → Except ε (α × σ)} {g : Except ε α → Exec σ ε β} (hI : I s)
    (hok : ∀ a s', operation s = .ok (a, s') → Ensures A (g (.ok a)) s' I good R)
    (herr : ∀ e, A (.fail e) ∨ operation s = .error e → Ensures A (g (.error e)) s I good R) :
    Ensures A (Exec.attempt (Exec.step operation) >>= g) s I good R := by
  refine sat_bind (sat_attempt (sat_step ?_ ?_ ?_ ?_))
  · exact fun hdie => ⟨hI, hdie⟩
  · exact fun e hA => herr e (.inl hA)
  · exact hok
  · exact fun e he => herr e (.inr he)

theorem forEach {g : α → Exec σ ε Unit} {as : List α} {P : List α → σ → Prop} (hI : I s)
    (hP : P as s)
    (hg : ∀ a rest s', I s' → P (a :: rest) s' →
      Ensures A (g a) s' I good fun _ s'' => P rest s'') :
    Ensures A (Exec.forEach g as) s I good fun _ s' => P [] s' := by
  induction as generalizing s with
  | nil => exact pure hI hP
  | cons a as ih => exact bind (hg a as s hI hP) fun _ s' hI' hP' => ih hI' hP'

theorem mapEach {g : α → Exec σ ε β} {as : List α} {P : List β → List α → σ → Prop} (hI : I s)
    {done : List β} (hP : P done as s)
    (hg : ∀ bs a rest s', I s' → P bs (a :: rest) s' →
      Ensures A (g a) s' I good fun b s'' => P (bs ++ [b]) rest s'') :
    Ensures A (Exec.mapEach g as) s I good fun bs s' => P (done ++ bs) [] s' := by
  induction as generalizing s done with
  | nil => exact pure hI (by rwa [List.append_nil])
  | cons a as ih =>
    refine bind (hg done a as s hI hP) fun b s' hI' hP' => ?_
    refine bind (ih hI' hP') fun bs s'' hI'' hP'' => ?_
    exact pure hI'' (by rwa [List.append_assoc] at hP'')

theorem zoom {get : σ → Option τ} {set : τ → σ → σ} {missing : ε} {m : Exec τ ε α}
    {K : τ → Prop} {P : α → τ → Prop} {Q : α → σ → Prop}
    (hnone : get s = none → I s ∧ (NoFail A → ¬ good))
    (hsome : ∀ t, get s = some t → Ensures A m t K good P)
    (hK : ∀ t t', get s = some t → K t' → I (set t' s))
    (hP : ∀ t a t', get s = some t → K t' → P a t' → Q a (set t' s)) :
    Ensures A (Exec.zoom get set missing m) s I good Q := by
  refine sat_zoom hnone fun t ht => (Sat.mono (hsome t ht) ?_)
  rintro (a | e | _) t' ⟨hk, h⟩
  · exact ⟨hK t t' ht hk, hP t a t' ht hk h⟩
  · exact ⟨hK t t' ht hk, h⟩
  · exact ⟨hK t t' ht hk, h⟩

end Ensures

end Durable.Exec
