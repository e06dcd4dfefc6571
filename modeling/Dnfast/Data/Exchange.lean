import Mathlib.Data.List.Basic
import Dnfast.Data.Check

/-! # Steps that change places

A loop over a list whose steps can fail. When two neighbouring steps that succeed also succeed the other
way around, and end alike, then the loop succeeds over every permutation of the list and ends alike. -/

namespace Except

variable {ε σ α β γ : Type}

/-- Steps over the elements with the property change places, up to the relation between states. -/
structure Exchange (step : σ → α → Except ε σ) (R : σ → σ → Prop) (P : α → Prop) : Prop where
  refl : ∀ s, R s s
  trans : ∀ {s t u}, R s t → R t u → R s u
  congr : ∀ {s t s' : σ} {a : α}, P a → R s t → step s a = .ok s' → ∃ t', step t a = .ok t' ∧ R s' t'
  swap : ∀ {s m s' : σ} {a b : α}, P a → P b → step s a = .ok m → step m b = .ok s' →
    ∃ m' t', step s b = .ok m' ∧ step m' a = .ok t' ∧ R s' t'

namespace Exchange

variable {step : σ → α → Except ε σ} {R : σ → σ → Prop} {P : α → Prop} {l l' : List α} {s t s' : σ}

/-- Steps that end in the same state. -/
theorem of_eq (hswap : ∀ {s m s' : σ} {a b : α}, P a → P b → step s a = .ok m → step m b = .ok s' →
    ∃ m', step s b = .ok m' ∧ step m' a = .ok s') : Exchange step (· = ·) P where
  refl _ := rfl
  trans := Eq.trans
  congr _ heq h := ⟨_, heq ▸ h, rfl⟩
  swap ha hb h h' :=
    let ⟨m', hm', hlast⟩ := hswap ha hb h h'
    ⟨m', _, hm', hlast, rfl⟩

variable (H : Exchange step R P)

include H

theorem foldlM_congr (hl : ∀ a ∈ l, P a) (hR : R s t) (h : l.foldlM step s = .ok s') :
    ∃ t', l.foldlM step t = .ok t' ∧ R s' t' := by
  induction l generalizing s t with
  | nil =>
    cases pure_eq_ok.mp h
    exact ⟨t, rfl, hR⟩
  | cons a l ih =>
    rw [List.forall_mem_cons] at hl
    rw [List.foldlM_cons, bind_eq_ok] at h
    obtain ⟨next, hstep, h⟩ := h
    obtain ⟨next', hstep', hnext⟩ := H.congr hl.1 hR hstep
    obtain ⟨t', ht', hend⟩ := ih hl.2 hnext h
    exact ⟨t', by rw [List.foldlM_cons, hstep', ok_bind, ht'], hend⟩

theorem foldlM_perm (hperm : l.Perm l') (hl : ∀ a ∈ l, P a) (hR : R s t)
    (h : l.foldlM step s = .ok s') : ∃ t', l'.foldlM step t = .ok t' ∧ R s' t' := by
  induction hperm generalizing s t s' with
  | nil => exact H.foldlM_congr hl hR h
  | cons a hperm ih =>
    rw [List.forall_mem_cons] at hl
    rw [List.foldlM_cons, bind_eq_ok] at h
    obtain ⟨next, hstep, h⟩ := h
    obtain ⟨next', hstep', hnext⟩ := H.congr hl.1 hR hstep
    obtain ⟨t', ht', hend⟩ := ih hl.2 hnext h
    exact ⟨t', by rw [List.foldlM_cons, hstep', ok_bind, ht'], hend⟩
  | swap a b l =>
    rw [List.forall_mem_cons, List.forall_mem_cons] at hl
    obtain ⟨hb, ha, hl⟩ := hl
    rw [List.foldlM_cons, bind_eq_ok] at h
    obtain ⟨m, hm, h⟩ := h
    rw [List.foldlM_cons, bind_eq_ok] at h
    obtain ⟨next, hnext, h⟩ := h
    obtain ⟨m', next', hm', hnext', hsame⟩ := H.swap hb ha hm hnext
    -- the same two steps from the other state
    obtain ⟨m₁, hm₁, hR₁⟩ := H.congr ha hR hm'
    obtain ⟨n₁, hn₁, hR₂⟩ := H.congr hb hR₁ hnext'
    obtain ⟨t', ht', hend⟩ := H.foldlM_congr hl (H.trans hsame hR₂) h
    exact ⟨t', by rw [List.foldlM_cons, hm₁, ok_bind, List.foldlM_cons, hn₁, ok_bind, ht'], hend⟩
  | trans hperm _ ih ih' =>
    obtain ⟨t₁, ht₁, hR₁⟩ := ih hl (H.refl s) h
    obtain ⟨t', ht', hend⟩ := ih' (fun a ha => hl a (hperm.mem_iff.mpr ha)) hR ht₁
    exact ⟨t', ht', H.trans hR₁ hend⟩

end Exchange

/-- A loop inside a loop is one loop. -/
theorem foldlM_flatMap {l : List α} {f : α → List β} {step : σ → β → Except ε σ} {s : σ} :
    (l.flatMap f).foldlM step s = l.foldlM (fun s a => (f a).foldlM step s) s := by
  induction l generalizing s with
  | nil => rfl
  | cons a l ih =>
    rw [List.flatMap_cons, List.foldlM_append, List.foldlM_cons]
    exact congrArg _ (funext fun _ => ih)

/-- What follows a step may be mapped under it. -/
theorem bind_eq_map_bind {x : Except ε α} {f : α → Except ε γ} {f' : α → Except ε β} {g : β → γ}
    (h : ∀ a, f a = (f' a).map g) : (x >>= f) = (x >>= f').map g := by
  cases x with
  | error e => rfl
  | ok a => exact h a

/-- A loop whose steps agree with those of another, on the images of the states and the elements. -/
theorem foldlM_image {σ' α' : Type} {step : σ → α → Except ε σ} {step' : σ' → α' → Except ε σ'}
    {f : α → α'} {g : σ → σ'} (h : ∀ s a, step' (g s) (f a) = (step s a).map g) {l : List α} {s : σ} :
    (l.map f).foldlM step' (g s) = (l.foldlM step s).map g := by
  induction l generalizing s with
  | nil => rfl
  | cons a l ih =>
    rw [List.map_cons, List.foldlM_cons, List.foldlM_cons, h]
    cases step s a with
    | error e => rfl
    | ok next => exact ih

/-- A loop beside one that succeeds over the same elements. The relation is between the states of the
one and what the other has come to, which may be an error. -/
theorem foldlM_beside {ε' σ' : Type} {step : σ → α → Except ε σ} {step' : σ' → α → Except ε' σ'}
    {R : σ → Except ε' σ' → Prop}
    (hstep : ∀ {s s' : σ} {x : Except ε' σ'} {a : α}, step s a = .ok s' → R s x →
      R s' (x >>= fun t => step' t a))
    {l : List α} {s s' : σ} {x : Except ε' σ'} (h : l.foldlM step s = .ok s') (hR : R s x) :
    R s' (x >>= fun t => l.foldlM step' t) := by
  induction l generalizing s x with
  | nil =>
    cases pure_eq_ok.mp h
    cases x with
    | error e => exact hR
    | ok t => exact hR
  | cons a l ih =>
    rw [List.foldlM_cons, bind_eq_ok] at h
    obtain ⟨next, hnext, h⟩ := h
    have hrest := ih h (hstep hnext hR)
    cases x with
    | error e => exact hrest
    | ok t => exact hrest

end Except
