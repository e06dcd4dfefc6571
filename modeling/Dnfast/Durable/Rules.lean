import Dnfast.Durable.Exec

/-! # Rules for programs over durable state

`Exec.Sat A m s Q`: whatever the environment does, as long as each of its choices satisfies `A`,
the program `m` started in `s` ends with an outcome and a state that satisfy `Q`. The postcondition
speaks about crashes too, so it states what a later process may find.

Two choices of `A` matter. With `fun _ => True` every step may fail or be the last one. With
`fun _ => False` every step happens, and `Sat` is a statement about `Exec.clean`
(`Exec.sat_clean_iff`). -/

namespace Durable.Exec

variable {σ τ ε α β : Type} {A : Fate ε → Prop}

/-- Every end of `m` from `s` under an environment in `A` satisfies `Q`. -/
def Sat (A : Fate ε → Prop) (m : Exec σ ε α) (s : σ) (Q : Outcome ε α → σ → Prop) : Prop :=
  ∀ fates, (∀ f ∈ fates, A f) →
    Q (m fates s).1 (m fates s).2.1 ∧ ∀ f ∈ (m fates s).2.2, A f

/-- The postcondition of `m` that makes `m >>= f` satisfy `Q`. -/
def Then (A : Fate ε → Prop) (f : α → Exec σ ε β) (Q : Outcome ε β → σ → Prop) :
    Outcome ε α → σ → Prop
  | .ok a, s => Sat A (f a) s Q
  | .err e, s => Q (.err e) s
  | .crashed, s => Q .crashed s

theorem Sat.mono {m : Exec σ ε α} {s : σ} {Q R : Outcome ε α → σ → Prop}
    (h : Sat A m s Q) (himp : ∀ o s', Q o s' → R o s') : Sat A m s R :=
  fun fates hA => ⟨himp _ _ (h fates hA).1, (h fates hA).2⟩

/-- Two postconditions of one program hold together. -/
theorem Sat.and {m : Exec σ ε α} {s : σ} {Q R : Outcome ε α → σ → Prop}
    (hQ : Sat A m s Q) (hR : Sat A m s R) : Sat A m s fun o s' => Q o s' ∧ R o s' :=
  fun fates hA => ⟨⟨(hQ fates hA).1, (hR fates hA).1⟩, (hQ fates hA).2⟩

/-- What holds under every environment holds under a narrower one. -/
theorem Sat.and_any {m : Exec σ ε α} {s : σ} {Q R : Outcome ε α → σ → Prop}
    (hQ : Sat A m s Q) (hR : Sat (fun _ => True) m s R) :
    Sat A m s fun o s' => Q o s' ∧ R o s' :=
  fun fates hA => ⟨⟨(hQ fates hA).1, (hR fates fun _ _ => trivial).1⟩, (hQ fates hA).2⟩

theorem Sat.run {m : Exec σ ε α} {s : σ} {Q : Outcome ε α → σ → Prop}
    (h : Sat (fun _ => True) m s Q) (fates : List (Fate ε)) :
    Q (m fates s).1 (m fates s).2.1 :=
  (h fates fun _ _ => trivial).1

theorem sat_clean_iff {m : Exec σ ε α} {s : σ} {Q : Outcome ε α → σ → Prop}
    (hrest : (m [] s).2.2 = []) :
    Sat (fun _ => False) m s Q ↔ Q (m.clean s).1 (m.clean s).2 := by
  constructor
  · intro h
    exact (h [] (by simp)).1
  · intro h fates hA
    have : fates = [] := List.eq_nil_iff_forall_not_mem.mpr hA
    subst this
    exact ⟨h, by simp [hrest]⟩

/-- The run in which every step happens. -/
theorem Sat.nil {m : Exec σ ε α} {s : σ} {Q : Outcome ε α → σ → Prop}
    (h : Sat A m s Q) : Q (m [] s).1 (m [] s).2.1 :=
  (h [] (by simp)).1

theorem Sat.clean {m : Exec σ ε α} {s : σ} {Q : Outcome ε α → σ → Prop}
    (h : Sat A m s Q) : Q (m.clean s).1 (m.clean s).2 :=
  (h [] (by simp)).1

theorem sat_pure {a : α} {s : σ} {Q : Outcome ε α → σ → Prop} (h : Q (.ok a) s) :
    Sat A (pure a : Exec σ ε α) s Q :=
  fun _ hA => ⟨h, hA⟩

theorem sat_throw {e : ε} {s : σ} {Q : Outcome ε α → σ → Prop} (h : Q (.err e) s) :
    Sat A (Exec.throw e : Exec σ ε α) s Q :=
  fun _ hA => ⟨h, hA⟩

theorem sat_bind {m : Exec σ ε α} {f : α → Exec σ ε β} {s : σ} {Q : Outcome ε β → σ → Prop}
    (h : Sat A m s (Then A f Q)) : Sat A (m >>= f) s Q := by
  intro fates hA
  have hm := h fates hA
  change Q ((Exec.bind m f) fates s).1 ((Exec.bind m f) fates s).2.1 ∧
    ∀ g ∈ ((Exec.bind m f) fates s).2.2, A g
  rcases hrun : m fates s with ⟨_ | _ | _, s', rest⟩
  all_goals
    rw [hrun] at hm
    simp only [Exec.bind, hrun]
  · exact hm.1 rest hm.2
  · exact hm
  · exact hm

/-- The sequencing rule with the cases of the first program's end taken apart. -/
theorem Sat.bind {m : Exec σ ε α} {f : α → Exec σ ε β} {s : σ} {P : Outcome ε α → σ → Prop}
    {Q : Outcome ε β → σ → Prop} (hm : Sat A m s P)
    (hok : ∀ a s', P (.ok a) s' → Sat A (f a) s' Q)
    (herr : ∀ e s', P (.err e) s' → Q (.err e) s')
    (hcrashed : ∀ s', P .crashed s' → Q .crashed s') : Sat A (m >>= f) s Q := by
  refine sat_bind (hm.mono ?_)
  rintro (a | e | _) s' hP
  · exact hok a s' hP
  · exact herr e s' hP
  · exact hcrashed s' hP

/-- The sequencing rule after a program that succeeds with a known result. -/
theorem Sat.bind_ok {m : Exec σ ε α} {f : α → Exec σ ε β} {s : σ} {a : α} {P : σ → Prop}
    {Q : Outcome ε β → σ → Prop} (hm : Sat A m s fun o s' => o = .ok a ∧ P s')
    (hf : ∀ s', P s' → Sat A (f a) s' Q) : Sat A (m >>= f) s Q := by
  refine hm.bind ?_ ?_ ?_
  · rintro _ s' ⟨⟨⟩, hP⟩
    exact hf s' hP
  · rintro e s' ⟨⟨⟩, -⟩
  · rintro s' ⟨⟨⟩, -⟩

theorem sat_lift {x : Except ε α} {s : σ} {Q : Outcome ε α → σ → Prop}
    (hok : ∀ a, x = .ok a → Q (.ok a) s) (herr : ∀ e, x = .error e → Q (.err e) s) :
    Sat A (lift x : Exec σ ε α) s Q := by
  cases x with
  | ok a => exact sat_pure (hok a rfl)
  | error e => exact sat_throw (herr e rfl)

theorem sat_bind_lift {x : Except ε β} {f : β → Exec σ ε α} {s : σ} {Q : Outcome ε α → σ → Prop}
    (hok : ∀ b, x = .ok b → Sat A (f b) s Q) (herr : ∀ e, x = .error e → Q (.err e) s) :
    Sat A (lift x >>= f) s Q :=
  sat_bind (sat_lift hok herr)

theorem sat_step {operation : σ → Except ε (α × σ)} {s : σ} {Q : Outcome ε α → σ → Prop}
    (hdie : A .die → Q .crashed s) (hfail : ∀ e, A (.fail e) → Q (.err e) s)
    (hok : ∀ a s', operation s = .ok (a, s') → Q (.ok a) s')
    (herr : ∀ e, operation s = .error e → Q (.err e) s) :
    Sat A (step operation) s Q := by
  intro fates hA
  have hgo : ∀ rest : List (Fate ε), (∀ f ∈ rest, A f) →
      Q (step operation (.go :: rest) s).1 (step operation (.go :: rest) s).2.1 ∧
      ∀ f ∈ (step operation (.go :: rest) s).2.2, A f := by
    intro rest hrest
    unfold step
    cases hop : operation s with
    | ok p => exact ⟨hok p.1 p.2 hop, hrest⟩
    | error e => exact ⟨herr e hop, hrest⟩
  cases fates with
  | nil => exact hgo [] hA
  | cons f rest =>
    have hrest : ∀ g ∈ rest, A g := fun g hg => hA g (List.mem_cons_of_mem _ hg)
    cases f with
    | go => exact hgo rest hrest
    | fail e => exact ⟨hfail e (hA _ List.mem_cons_self), hrest⟩
    | die => exact ⟨hdie (hA _ List.mem_cons_self), hrest⟩

theorem sat_observe {read : σ → Except ε α} {s : σ} {Q : Outcome ε α → σ → Prop}
    (hdie : A .die → Q .crashed s) (hfail : ∀ e, A (.fail e) → Q (.err e) s)
    (hok : ∀ a, read s = .ok a → Q (.ok a) s) (herr : ∀ e, read s = .error e → Q (.err e) s) :
    Sat A (observe read) s Q := by
  refine sat_step hdie hfail ?_ ?_
  · intro a s' h
    cases hr : read s with
    | ok b =>
      simp only [hr, Except.map, Except.ok.injEq, Prod.mk.injEq] at h
      obtain ⟨rfl, rfl⟩ := h
      exact hok _ hr
    | error e => simp [hr, Except.map] at h
  · intro e h
    cases hr : read s with
    | ok b => simp [hr, Except.map] at h
    | error e' =>
      simp only [hr, Except.map, Except.error.injEq] at h
      exact h ▸ herr _ hr

theorem sat_change {update : σ → σ} {s : σ} {Q : Outcome ε Unit → σ → Prop}
    (hdie : A .die → Q .crashed s) (hfail : ∀ e, A (.fail e) → Q (.err e) s)
    (hok : Q (.ok ()) (update s)) : Sat A (change update) s Q := by
  refine sat_step hdie hfail ?_ ?_
  · intro a s' h
    simp only [Except.ok.injEq, Prod.mk.injEq] at h
    exact h.2 ▸ hok
  · intro e h
    simp at h

theorem sat_sync {s : σ} {Q : Outcome ε Unit → σ → Prop}
    (hdie : A .die → Q .crashed s) (hfail : ∀ e, A (.fail e) → Q (.err e) s)
    (hok : Q (.ok ()) s) : Sat A (sync : Exec σ ε Unit) s Q :=
  sat_change hdie hfail hok

/-- The postcondition of `m` that makes `attempt m` satisfy `Q`. -/
def Caught (Q : Outcome ε (Except ε α) → σ → Prop) : Outcome ε α → σ → Prop
  | .ok a, s => Q (.ok (.ok a)) s
  | .err e, s => Q (.ok (.error e)) s
  | .crashed, s => Q .crashed s

theorem sat_attempt {m : Exec σ ε α} {s : σ} {Q : Outcome ε (Except ε α) → σ → Prop}
    (h : Sat A m s (Caught Q)) : Sat A (attempt m) s Q := by
  intro fates hA
  have hm := h fates hA
  rcases hrun : m fates s with ⟨_ | _ | _, s', rest⟩
  all_goals
    rw [hrun] at hm
    simp only [attempt, hrun]
    exact hm

/-- The cleanup of `onErr` runs from the state its program failed in, and is judged by the state
it leaves: its own result is dropped. -/
theorem sat_onErr {m : Exec σ ε α} {cleanup : Exec σ ε Unit} {s : σ}
    {Q : Outcome ε α → σ → Prop}
    (h : Sat A m s fun
      | .ok a, s' => Q (.ok a) s'
      | .err e, s' => Sat A cleanup s' fun
        | .ok _, s'' => Q (.err e) s''
        | .err _, s'' => Q (.err e) s''
        | .crashed, s'' => Q .crashed s''
      | .crashed, s' => Q .crashed s') : Sat A (onErr m cleanup) s Q := by
  refine sat_bind (sat_attempt (h.mono ?_))
  rintro (a | e | _) s' hQ
  · exact sat_pure hQ
  · refine sat_bind (sat_attempt (Sat.mono hQ ?_))
    rintro (_ | _ | _) s'' hQ'
    · exact sat_throw hQ'
    · exact sat_throw hQ'
    · exact hQ'
  · exact hQ

/-- An invariant of every element's program is one of `forEach`. -/
theorem sat_forEach {f : α → Exec σ ε Unit} {as : List α} {s : σ}
    {I : List α → σ → Prop} {Q : Outcome ε Unit → σ → Prop} (hI : I as s)
    (hdone : ∀ s', I [] s' → Q (.ok ()) s')
    (hstep : ∀ a rest s', I (a :: rest) s' → Sat A (f a) s' fun
      | .ok _, s'' => I rest s''
      | .err e, s'' => Q (.err e) s''
      | .crashed, s'' => Q .crashed s'') : Sat A (forEach f as) s Q := by
  induction as generalizing s with
  | nil => exact sat_pure (hdone s hI)
  | cons a as ih =>
    refine sat_bind ((hstep a as s hI).mono ?_)
    rintro (_ | _ | _) s' h
    · exact ih h
    · exact h
    · exact h

/-- The same with results: the invariant is about the results so far. -/
theorem sat_mapEach {f : α → Exec σ ε β} {as : List α} {s : σ} {done : List β}
    {I : List β → List α → σ → Prop} {Q : Outcome ε (List β) → σ → Prop} (hI : I done as s)
    (hdone : ∀ bs s', I (done ++ bs) [] s' → Q (.ok bs) s')
    (hstep : ∀ bs a rest s', I bs (a :: rest) s' → Sat A (f a) s' fun
      | .ok b, s'' => I (bs ++ [b]) rest s''
      | .err e, s'' => Q (.err e) s''
      | .crashed, s'' => Q .crashed s'') : Sat A (mapEach f as) s Q := by
  induction as generalizing s done Q with
  | nil => exact sat_pure (hdone [] s (by rwa [List.append_nil]))
  | cons a as ih =>
    refine sat_bind ((hstep done a as s hI).mono ?_)
    rintro (b | _ | _) s' h
    · refine sat_bind (ih h ?_ hstep)
      intro bs s'' hbs
      exact sat_pure (hdone (b :: bs) s'' (by rwa [List.append_assoc] at hbs))
    · exact h
    · exact h

theorem sat_zoom {get : σ → Option τ} {set : τ → σ → σ} {missing : ε} {m : Exec τ ε α} {s : σ}
    {Q : Outcome ε α → σ → Prop} (hnone : get s = none → Q (.err missing) s)
    (hsome : ∀ t, get s = some t → Sat A m t fun o t' => Q o (set t' s)) :
    Sat A (zoom get set missing m) s Q := by
  intro fates hA
  cases hget : get s with
  | none =>
    simp only [zoom, hget]
    exact ⟨hnone hget, hA⟩
  | some t =>
    simp only [zoom, hget]
    exact hsome t hget fates hA

/-! ## Environments without faults: symbolic execution -/

section
variable {s : σ} {Q : Outcome ε α → σ → Prop}

theorem step_clean {operation : σ → Except ε (α × σ)} {a : α} {s' : σ}
    (h : operation s = .ok (a, s')) (hQ : Q (.ok a) s') :
    Sat (fun _ => False) (step operation) s Q := by
  refine sat_step False.elim (fun _ => False.elim) ?_ ?_
  · intro a' s'' h'
    rw [h] at h'
    cases h'
    exact hQ
  · intro e h'
    rw [h] at h'
    cases h'

theorem step_refused {operation : σ → Except ε (α × σ)} {e : ε} (h : operation s = .error e)
    (hQ : Q (.err e) s) : Sat (fun _ => False) (step operation) s Q := by
  refine sat_step False.elim (fun _ => False.elim) ?_ ?_
  · intro a' s'' h'
    rw [h] at h'
    cases h'
  · intro e' h'
    rw [h] at h'
    cases h'
    exact hQ

theorem observe_clean {read : σ → Except ε α} {a : α} (h : read s = .ok a) (hQ : Q (.ok a) s) :
    Sat (fun _ => False) (observe read) s Q :=
  step_clean (by simp [h, Except.map]) hQ

theorem observe_refused {read : σ → Except ε α} {e : ε} (h : read s = .error e)
    (hQ : Q (.err e) s) : Sat (fun _ => False) (observe read) s Q :=
  step_refused (by simp [h, Except.map]) hQ

theorem sync_clean {Q : Outcome ε Unit → σ → Prop} (hQ : Q (.ok ()) s) :
    Sat (fun _ => False) (sync : Exec σ ε Unit) s Q :=
  step_clean rfl hQ

variable {f : β → Exec σ ε α}

theorem bind_step_clean {operation : σ → Except ε (β × σ)} {b : β} {s' : σ}
    (h : operation s = .ok (b, s')) (hf : Sat (fun _ => False) (f b) s' Q) :
    Sat (fun _ => False) (step operation >>= f) s Q :=
  sat_bind (step_clean h hf)

theorem bind_observe_clean {read : σ → Except ε β} {b : β} (h : read s = .ok b)
    (hf : Sat (fun _ => False) (f b) s Q) : Sat (fun _ => False) (observe read >>= f) s Q :=
  sat_bind (observe_clean h hf)

theorem bind_observe_refused {read : σ → Except ε β} {e : ε} (h : read s = .error e)
    (hQ : Q (.err e) s) : Sat (fun _ => False) (observe read >>= f) s Q :=
  sat_bind (observe_refused h hQ)

theorem bind_sync_clean {g : Unit → Exec σ ε α} (hg : Sat (fun _ => False) (g ()) s Q) :
    Sat (fun _ => False) (sync >>= g) s Q :=
  sat_bind (sync_clean hg)

end

end Durable.Exec
