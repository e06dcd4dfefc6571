import Dnfast.Json.Value

/-! # Reading typed data from JSON values

The shapes of the `Deserialize` implementations that serde derives: a record is an object whose
fields are each there once, an absent or null value of an optional field is none. -/

namespace Json

/-- The value of a field that is there once. -/
def field (ms : List (String × Value)) (key : String) : Option Value :=
  match ms.filter (·.1 == key) with
  | [m] => some m.2
  | _ => none

/-- No field has another name than these. -/
def onlyFields (ms : List (String × Value)) (keys : List String) : Bool :=
  ms.all fun m => keys.contains m.1

def stringOf : Value → Option String
  | .str s => some s
  | _ => none

def stringsOf : Value → Option (List String)
  | .arr vs => vs.mapM stringOf
  | _ => none

def u32Of : Value → Option UInt32
  | .num (.ofNat n) => if n < 2 ^ 32 then some (UInt32.ofNat n) else none
  | _ => none

def u64Of : Value → Option UInt64
  | .num (.ofNat n) => if n < 2 ^ 64 then some (UInt64.ofNat n) else none
  | _ => none

def arrayOf {α : Type} (f : Value → Option α) : Value → Option (List α)
  | .arr vs => vs.mapM f
  | _ => none

/-- A value that may be null. -/
def nullable {α : Type} (f : Value → Option α) : Value → Option (Option α)
  | .null => some none
  | v => (f v).map some

/-- A field that may be absent or null. -/
def optionalField {α : Type} (ms : List (String × Value)) (key : String) (f : Value → Option α) :
    Option (Option α) :=
  if ms.any (·.1 == key) then (field ms key).bind (nullable f) else some none

/-- The form of an optional value, null when there is none. -/
def optionValue {α : Type} (f : α → Value) : Option α → Value
  | none => .null
  | some a => f a

theorem depth_optionValue_le {α : Type} {f : α → Value} {n : Nat} (h : ∀ a, (f a).depth ≤ n)
    (o : Option α) : (optionValue f o).depth ≤ n := by
  cases o with
  | none => exact Nat.zero_le n
  | some a => exact h a

theorem mapM_map_some {α β : Type} {f : β → Option α} {g : α → β} (h : ∀ a, f (g a) = some a)
    (l : List α) : (l.map g).mapM f = some l := by
  induction l with
  | nil => rfl
  | cons a l ih => simp [List.mapM_cons, h, ih]

/-- A list whose elements are read back under a condition. -/
theorem mapM_map_ite {α β : Type} {f : β → Option α} {g : α → β} {p : α → Prop} [DecidablePred p]
    (h : ∀ a, f (g a) = if p a then some a else none) (l : List α) :
    (l.map g).mapM f = if ∀ a ∈ l, p a then some l else none := by
  induction l with
  | nil => simp
  | cons a l ih =>
    rw [List.map_cons, List.mapM_cons, h, ih]
    by_cases ha : p a
    · by_cases hl : ∀ a ∈ l, p a
      · rw [if_pos ha, if_pos hl, if_pos (List.forall_mem_cons.mpr ⟨ha, hl⟩)]
        rfl
      · rw [if_pos ha, if_neg hl, if_neg fun hall => hl (List.forall_mem_cons.mp hall).2]
        rfl
    · rw [if_neg ha, if_neg fun hall => ha (List.forall_mem_cons.mp hall).1]
      rfl

@[simp] theorem u32Of_toNat (n : UInt32) : u32Of (.num n.toNat) = some n := by
  have : u32Of (.num (.ofNat n.toNat)) = some n := by simp [u32Of, n.toNat_lt]
  exact this

@[simp] theorem u64Of_toNat (n : UInt64) : u64Of (.num n.toNat) = some n := by
  have : u64Of (.num (.ofNat n.toNat)) = some n := by simp [u64Of, n.toNat_lt]
  exact this

/-- A field that is there is read as its value says. -/
theorem optionalField_eq {α : Type} {ms : List (String × Value)} {key : String} {v : Value}
    (h : field ms key = some v) (f : Value → Option α) :
    optionalField ms key f = nullable f v := by
  have hany : ms.any (·.1 == key) = true := by
    rw [List.any_eq_true]
    unfold field at h
    split at h
    · next m hm =>
      have hmem : m ∈ ms.filter (·.1 == key) := by simp [hm]
      rw [List.mem_filter] at hmem
      exact ⟨m, hmem⟩
    · cases h
  rw [optionalField, if_pos hany, h]
  rfl

theorem nullable_optionValue {α : Type} {f : Value → Option α} {g : α → Value}
    (hnull : ∀ a, g a ≠ .null) (hf : ∀ a, f (g a) = some a) (o : Option α) :
    nullable f (optionValue g o) = some o := by
  cases o with
  | none => rfl
  | some a =>
    have h : nullable f (g a) = (f (g a)).map some := by
      unfold nullable
      split
      · next hv => exact absurd hv (hnull a)
      · rfl
    rw [optionValue, h, hf]
    rfl

end Json
