import Dnfast.Durable.Exec

/-! # What an environment can lead a program to

`Exec.May A m s o s'`: there are choices of the environment, all in `A`, under which `m` started in `s`
ends in `o` and leaves `s'`. `Exec.Sat` is about all choices, `Exec.May` about some; the choices are
used up exactly, so that programs can be run one after the other. -/

namespace Durable.Exec

variable {σ τ ε α β : Type} {A : Fate ε → Prop} {s s' s'' : σ}

def May (A : Fate ε → Prop) (m : Exec σ ε α) (s : σ) (o : Outcome ε α) (s' : σ) : Prop :=
  ∃ fates, (∀ f ∈ fates, A f) ∧ ∀ rest, m (fates ++ rest) s = (o, s', rest)

namespace May

variable {m : Exec σ ε α} {f : α → Exec σ ε β} {a : α} {o : Outcome ε β}

theorem pure : May A (Pure.pure a : Exec σ ε α) s (.ok a) s :=
  ⟨[], nofun, fun _ => rfl⟩

theorem lift {x : Except ε α} (h : x = .ok a) : May A (Exec.lift x : Exec σ ε α) s (.ok a) s := by
  rw [h]
  exact pure

theorem step {operation : σ → Except ε (α × σ)} (hgo : A .go) (h : operation s = .ok (a, s')) :
    May A (Exec.step operation) s (.ok a) s' :=
  ⟨[.go], by simpa using hgo, fun rest => by simp [Exec.step, h]⟩

theorem observe {read : σ → Except ε α} (hgo : A .go) (h : read s = .ok a) :
    May A (Exec.observe read) s (.ok a) s :=
  step hgo (by rw [h]; rfl)

theorem change {update : σ → σ} (hgo : A .go) : May A (Exec.change update) s (.ok ()) (update s) :=
  step hgo rfl

theorem sync (hgo : A .go) : May A (Exec.sync : Exec σ ε Unit) s (.ok ()) s := change hgo

/-- The process is stopped before the step. -/
theorem die {operation : σ → Except ε (α × σ)} (hdie : A .die) :
    May A (Exec.step operation) s .crashed s :=
  ⟨[.die], by simpa using hdie, fun _ => rfl⟩

theorem bind (hm : May A m s (.ok a) s') (hf : May A (f a) s' o s'') : May A (m >>= f) s o s'' := by
  obtain ⟨fates, hA, hrun⟩ := hm
  obtain ⟨fates', hA', hrun'⟩ := hf
  refine ⟨fates ++ fates', fun g hg => ?_, fun rest => ?_⟩
  · rcases List.mem_append.mp hg with hg | hg
    · exact hA g hg
    · exact hA' g hg
  · show Exec.bind m f (fates ++ fates' ++ rest) s = _
    rw [List.append_assoc]
    simp only [Exec.bind, hrun, hrun']

theorem stop (hm : May A m s .crashed s') : May A (m >>= f) s .crashed s' := by
  obtain ⟨fates, hA, hrun⟩ := hm
  refine ⟨fates, hA, fun rest => ?_⟩
  show Exec.bind m f (fates ++ rest) s = _
  simp only [Exec.bind, hrun]

theorem forEach_cons {g : α → Exec σ ε Unit} {as : List α} {o : Outcome ε Unit}
    (h : May A (g a >>= fun _ => Exec.forEach g as) s o s') : May A (Exec.forEach g (a :: as)) s o s' :=
  h

/-- Elements for which nothing is done are passed over. -/
theorem forEach_append {g : α → Exec σ ε Unit} {front as : List α} {o : Outcome ε Unit}
    (hfront : ∀ a ∈ front, g a = Pure.pure ()) (h : May A (Exec.forEach g as) s o s') :
    May A (Exec.forEach g (front ++ as)) s o s' := by
  induction front with
  | nil => exact h
  | cons a front ih =>
    rw [List.forall_mem_cons] at hfront
    refine forEach_cons (bind (a := ()) ?_ (ih hfront.2))
    rw [hfront.1]
    exact pure

theorem zoom {get : σ → Option τ} {set : τ → σ → σ} {missing : ε} {m : Exec τ ε α} {t t' : τ}
    {o : Outcome ε α} (hget : get s = some t) (h : May A m t o t') :
    May A (Exec.zoom get set missing m) s o (set t' s) := by
  obtain ⟨fates, hA, hrun⟩ := h
  exact ⟨fates, hA, fun rest => by simp only [Exec.zoom, hget, hrun]⟩

end May

end Durable.Exec
