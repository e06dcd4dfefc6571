import Mathlib.Data.List.Forall2
import Dnfast.Data.Check

/-! # Lists related element by element -/

namespace List.Forall₂

variable {α β : Type} {R : α → β → Prop} {l : List α} {l' : List β}

theorem exists_right (h : Forall₂ R l l') {a : α} (ha : a ∈ l) : ∃ b ∈ l', R a b := by
  induction h with
  | nil => cases ha
  | cons hr _ ih =>
    rcases mem_cons.mp ha with rfl | ha
    · exact ⟨_, mem_cons_self, hr⟩
    · obtain ⟨b, hb, hab⟩ := ih ha
      exact ⟨b, mem_cons_of_mem _ hb, hab⟩

theorem exists_left (h : Forall₂ R l l') {b : β} (hb : b ∈ l') : ∃ a ∈ l, R a b :=
  h.flip.exists_right hb

/-- What stands at a place on the right has a counterpart at that place on the left. -/
theorem getElem?_left (h : Forall₂ R l l') {i : Nat} {b : β} (hb : l'[i]? = some b) :
    ∃ a, l[i]? = some a ∧ R a b := by
  induction h generalizing i with
  | nil => cases hb
  | cons hr _ ih =>
    cases i with
    | zero =>
      cases hb
      exact ⟨_, rfl, hr⟩
    | succ i => exact ih hb

/-- Values that related elements share are the same, in the same order. -/
theorem map_eq {γ : Type} {f : α → γ} {g : β → γ} (h : Forall₂ R l l')
    (hfg : ∀ a ∈ l, ∀ b ∈ l', R a b → f a = g b) : l.map f = l'.map g := by
  induction h with
  | nil => rfl
  | cons hr _ ih =>
    rw [map_cons, map_cons, hfg _ mem_cons_self _ mem_cons_self hr]
    rw [ih fun a ha b hb => hfg a (mem_cons_of_mem _ ha) b (mem_cons_of_mem _ hb)]

/-- The relation may be weakened at the elements of the lists. -/
theorem imp_of_mem {S : α → β → Prop} (h : Forall₂ R l l')
    (himp : ∀ a ∈ l, ∀ b ∈ l', R a b → S a b) : Forall₂ S l l' := by
  induction h with
  | nil => exact .nil
  | cons hr _ ih =>
    refine .cons (himp _ mem_cons_self _ mem_cons_self hr) (ih fun a ha b hb => ?_)
    exact himp a (mem_cons_of_mem _ ha) b (mem_cons_of_mem _ hb)

/-- Relations compose element by element. -/
theorem and {S : α → β → Prop} (h : Forall₂ R l l') (h' : Forall₂ S l l') :
    Forall₂ (fun a b => R a b ∧ S a b) l l' := by
  induction h with
  | nil => exact .nil
  | cons hab _ ih =>
    cases h' with
    | cons hab' h' => exact .cons ⟨hab, hab'⟩ (ih h')

theorem comp {γ : Type} {S : β → γ → Prop} {l'' : List γ} (h : Forall₂ R l l')
    (h' : Forall₂ S l' l'') : Forall₂ (fun a c => ∃ b, R a b ∧ S b c) l l'' := by
  induction h generalizing l'' with
  | nil =>
    cases h'
    exact .nil
  | cons hr _ ih =>
    cases h' with
    | cons hs hss => exact .cons ⟨_, hr, hs⟩ (ih hss)

/-- A third list is found element by element. -/
theorem exists_lift {γ : Type} {S : α → γ → Prop} {T : β → γ → Prop} (h : Forall₂ R l l')
    (hlift : ∀ a ∈ l, ∀ b ∈ l', R a b → ∃ c, S a c ∧ T b c) :
    ∃ l'' : List γ, Forall₂ S l l'' ∧ Forall₂ T l' l'' := by
  induction h with
  | nil => exact ⟨[], .nil, .nil⟩
  | cons hr _ ih =>
    obtain ⟨c, hs, ht⟩ := hlift _ mem_cons_self _ mem_cons_self hr
    obtain ⟨l'', hss, hts⟩ := ih fun a ha b hb =>
      hlift a (mem_cons_of_mem _ ha) b (mem_cons_of_mem _ hb)
    exact ⟨c :: l'', .cons hs hss, .cons ht hts⟩

end List.Forall₂

/-- A computation over a list succeeds when it does on each element. -/
theorem Except.mapM_eq_ok {ε α β : Type} {f : α → Except ε β} {l : List α} {l' : List β} :
    l.mapM f = .ok l' ↔ List.Forall₂ (fun a b => f a = .ok b) l l' := by
  induction l generalizing l' with
  | nil => rw [List.mapM_nil, pure_eq_ok, List.forall₂_nil_left_iff, eq_comm]
  | cons a l ih =>
    rw [List.mapM_cons, bind_eq_ok]
    constructor
    · rintro ⟨b, hb, hrest⟩
      obtain ⟨bs, hbs, hpure⟩ := bind_eq_ok.mp hrest
      rw [← pure_eq_ok.mp hpure]
      exact .cons hb (ih.mp hbs)
    · rintro (_ | ⟨hb, hbs⟩)
      exact ⟨_, hb, bind_eq_ok.mpr ⟨_, ih.mpr hbs, rfl⟩⟩

/-- A computation that succeeds on each element succeeds over the list. -/
theorem Except.exists_mapM_eq_ok {ε α β : Type} {f : α → Except ε β} {l : List α}
    (h : ∀ a ∈ l, ∃ b, f a = .ok b) : ∃ l', l.mapM f = .ok l' := by
  induction l with
  | nil => exact ⟨[], List.mapM_nil⟩
  | cons a l ih =>
    obtain ⟨b, hb⟩ := h a List.mem_cons_self
    obtain ⟨bs, hbs⟩ := ih fun a ha => h a (List.mem_cons_of_mem _ ha)
    exact ⟨b :: bs, mapM_eq_ok.mpr (.cons hb (mapM_eq_ok.mp hbs))⟩

/-- A computation that can only give one value on each element gives these values. -/
theorem Except.mapM_eq_map {ε α β : Type} {f : α → Except ε β} {g : α → β} {l : List α}
    {l' : List β} (h : l.mapM f = .ok l') (hf : ∀ a ∈ l, ∀ b, f a = .ok b → b = g a) :
    l' = l.map g := by
  have hmap := (mapM_eq_ok.mp h).map_eq (f := g) (g := id) fun a ha b _ hb => (hf a ha b hb).symm
  rw [hmap, List.map_id]
