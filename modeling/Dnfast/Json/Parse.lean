import Dnfast.Json.Value

/-! # Reading compact JSON

`Json.parse` reads back what `Json.Value.render` writes (`parse_render`), so rendering is injective.
It is a recursive descent over the bytes with fuel: each call that goes deeper into the text takes
one unit, and the length of the text is enough. -/

namespace Json

/-! ## Strings -/

/-- The character of a short escape. -/
def unescape (letter : UInt8) : Option Char :=
  match letter.toNat with
  | 0x22 => some (Char.ofNat 0x22)
  | 0x5c => some (Char.ofNat 0x5c)
  | 0x62 => some (Char.ofNat 0x08)
  | 0x74 => some (Char.ofNat 0x09)
  | 0x6e => some (Char.ofNat 0x0a)
  | 0x66 => some (Char.ofNat 0x0c)
  | 0x72 => some (Char.ofNat 0x0d)
  | _ => none

/-- The value of a lowercase hexadecimal digit. -/
def unhex (b : UInt8) : Nat := if b.toNat < 58 then b.toNat - 48 else b.toNat - 87

/-- One character of a string literal, and what follows it. -/
def parseChar : List UInt8 → Option (Char × List UInt8)
  | 0x5c :: 0x75 :: _ :: _ :: high :: low :: rest =>
    some (Char.ofNat (16 * unhex high + unhex low), rest)
  | 0x5c :: letter :: rest => (unescape letter).map fun c => (c, rest)
  | bytes => (bytes.toByteArray.utf8DecodeChar? 0).map fun c => (c, bytes.drop c.utf8Size)

/-- The characters up to the closing quote, and what follows it. -/
def parseChars : Nat → List UInt8 → Option (List Char × List UInt8)
  | 0, _ => none
  | _ + 1, 0x22 :: rest => some ([], rest)
  | fuel + 1, bytes => do
    let (c, rest) ← parseChar bytes
    let (cs, rest) ← parseChars fuel rest
    pure (c :: cs, rest)

theorem parseChar_short {c : Char} {letter : UInt8} (h : shortEscape c = some letter)
    (rest : List UInt8) : parseChar (0x5c :: letter :: rest) = some (c, rest) := by
  have hc : c = Char.ofNat c.toNat := (Char.ofNat_toNat c).symm
  unfold shortEscape at h
  split at h <;> cases h <;> (rename_i hn; rw [hn] at hc; rw [hc]; rfl)

theorem parseChar_control {c : Char} (h : c.toNat < 0x20) (rest : List UInt8) :
    parseChar (0x5c :: 0x75 :: 0x30 :: 0x30 :: hexDigit (c.toNat / 16) :: hexDigit (c.toNat % 16) ::
      rest) = some (c, rest) := by
  have hval : ∀ n < 0x20, 16 * unhex (hexDigit (n / 16)) + unhex (hexDigit (n % 16)) = n := by
    decide
  simp only [parseChar]
  rw [hval _ h, Char.ofNat_toNat]

theorem utf8EncodeChar_eq_cons (c : Char) : ∃ b bs, String.utf8EncodeChar c = b :: bs := by
  refine List.exists_cons_of_length_pos ?_
  rw [String.length_utf8EncodeChar]
  exact c.utf8Size_pos

theorem parseChar_utf8 {c : Char} (h : shortEscape c = none) (rest : List UInt8) :
    parseChar (String.utf8EncodeChar c ++ rest) = some (c, rest) := by
  have hdecode : (String.utf8EncodeChar c ++ rest).toByteArray.utf8DecodeChar? 0 = some c := by
    rw [List.toByteArray_append']
    exact ByteArray.utf8DecodeChar?_utf8EncodeChar_append
  have hdrop : (String.utf8EncodeChar c ++ rest).drop c.utf8Size = rest := by
    rw [← String.length_utf8EncodeChar, List.drop_left]
  obtain ⟨b, bs, hb⟩ := utf8EncodeChar_eq_cons c
  have hplain := (plain_utf8EncodeChar h b (by simp [hb])).2
  unfold parseChar
  split
  · rename_i heq
    rw [hb, List.cons_append, List.cons.injEq] at heq
    exact absurd heq.1 hplain
  · rename_i heq
    rw [hb, List.cons_append, List.cons.injEq] at heq
    exact absurd heq.1 hplain
  · rw [hdecode, Option.map_some, hdrop]

theorem parseChar_escapeChar (c : Char) (rest : List UInt8) :
    parseChar (escapeChar c ++ rest) = some (c, rest) := by
  unfold escapeChar
  cases hs : shortEscape c with
  | some letter => exact parseChar_short hs rest
  | none =>
    simp only
    split
    · rename_i hc
      exact parseChar_control hc rest
    · exact parseChar_utf8 hs rest

/-- No escaped character begins with a quote. -/
theorem escapeChar_ne_quote (c : Char) : ∃ b bs, escapeChar c = b :: bs ∧ b ≠ 0x22 := by
  unfold escapeChar
  cases hs : shortEscape c with
  | some letter => exact ⟨_, _, rfl, by decide⟩
  | none =>
    simp only
    split
    · exact ⟨_, _, rfl, by decide⟩
    · obtain ⟨b, bs, hb⟩ := utf8EncodeChar_eq_cons c
      exact ⟨b, bs, hb, (plain_utf8EncodeChar hs b (by simp [hb])).1⟩

theorem parseChars_flatMap (cs : List Char) (rest : List UInt8) {fuel : Nat}
    (hfuel : cs.length < fuel) :
    parseChars fuel (cs.flatMap escapeChar ++ 0x22 :: rest) = some (cs, rest) := by
  induction cs generalizing fuel with
  | nil =>
    obtain ⟨n, rfl⟩ := Nat.exists_eq_add_of_lt hfuel
    simp [parseChars]
  | cons c cs ih =>
    obtain ⟨n, rfl⟩ : ∃ n, fuel = n + 1 := ⟨fuel - 1, by omega⟩
    obtain ⟨b, bs, hb, hquote⟩ := escapeChar_ne_quote c
    have hchar := parseChar_escapeChar c (cs.flatMap escapeChar ++ 0x22 :: rest)
    simp only [List.length_cons] at hfuel
    rw [List.flatMap_cons, List.append_assoc]
    rw [hb, List.cons_append] at hchar ⊢
    unfold parseChars
    split
    · omega
    · rename_i heq
      simp only [List.cons.injEq] at heq
      exact absurd heq.1 hquote
    · rename_i heq _
      cases heq
      simp [hchar, ih (show cs.length < n by omega)]

/-- A string literal after its opening quote. -/
def parseString (bytes : List UInt8) : Option (String × List UInt8) :=
  (parseChars (bytes.length + 1) bytes).map fun (cs, rest) => (String.ofList cs, rest)

theorem length_le_flatMap_escapeChar (cs : List Char) :
    cs.length ≤ (cs.flatMap escapeChar).length := by
  induction cs with
  | nil => simp
  | cons c cs ih =>
    obtain ⟨b, bs, hb, -⟩ := escapeChar_ne_quote c
    simp only [List.flatMap_cons, hb, List.length_append, List.length_cons]
    omega

theorem parseString_flatMap (s : String) (rest : List UInt8) :
    parseString (s.toList.flatMap escapeChar ++ 0x22 :: rest) = some (s, rest) := by
  have := length_le_flatMap_escapeChar s.toList
  rw [parseString, parseChars_flatMap _ _ (by simp only [List.length_append]; omega)]
  simp

/-! ## Numbers -/

def isDigitByte (b : UInt8) : Bool := decide (48 ≤ b.toNat) && decide (b.toNat ≤ 57)

/-- A decimal numeral, and what follows it. -/
def parseNat (bytes : List UInt8) : Option (Nat × List UInt8) :=
  let digits := bytes.takeWhile isDigitByte
  if digits.isEmpty then none
  else some (Nat.ofDigitChars 10 (digits.map fun b => Char.ofNat b.toNat) 0,
    bytes.dropWhile isDigitByte)

/-- What may follow a number. -/
def Delimited (rest : List UInt8) : Prop := ∀ b ∈ rest.head?, isDigitByte b = false

theorem isDigitByte_of_isDigit {c : Char} (h : c.isDigit = true) :
    isDigitByte (UInt8.ofNat c.toNat) = true ∧ Char.ofNat (UInt8.ofNat c.toNat).toNat = c := by
  simp only [Char.isDigit, Bool.and_eq_true, decide_eq_true_eq, UInt32.le_iff_toNat_le] at h
  change 48 ≤ c.toNat ∧ c.toNat ≤ 57 at h
  have hn : (UInt8.ofNat c.toNat).toNat = c.toNat := by
    rw [UInt8.toNat_ofNat']
    omega
  simp only [isDigitByte, hn, Bool.and_eq_true, decide_eq_true_eq, Char.ofNat_toNat, and_true]
  exact h

theorem parseNat_renderNat (n : Nat) {rest : List UInt8} (hrest : Delimited rest) :
    parseNat (renderNat n ++ rest) = some (n, rest) := by
  have hdigit : ∀ c ∈ Nat.toDigits 10 n, c.isDigit = true :=
    fun c hc => Nat.isDigit_of_mem_toDigits (by decide) (by decide) hc
  have hall : ∀ b ∈ renderNat n, isDigitByte b = true := by
    intro b hb
    obtain ⟨c, hc, rfl⟩ := List.mem_map.mp hb
    exact (isDigitByte_of_isDigit (hdigit c hc)).1
  have htake : (renderNat n ++ rest).takeWhile isDigitByte = renderNat n := by
    rw [List.takeWhile_append_of_pos hall]
    cases rest with
    | nil => simp
    | cons b rest => simp [hrest b rfl]
  have hdropw : (renderNat n ++ rest).dropWhile isDigitByte = rest := by
    rw [List.dropWhile_append_of_pos hall]
    cases rest with
    | nil => rfl
    | cons b rest => simp [hrest b rfl]
  have hchars : (renderNat n).map (fun b => Char.ofNat b.toNat) = Nat.toDigits 10 n := by
    rw [renderNat, List.map_map]
    exact (List.map_congr_left fun c hc => (isDigitByte_of_isDigit (hdigit c hc)).2).trans
      (List.map_id _)
  have hne : (renderNat n).isEmpty = false := by
    simp [renderNat]
  simp only [parseNat, htake, hdropw, hne, hchars, Bool.false_eq_true, if_false]
  rw [Nat.ofDigitChars_toDigits (by decide) (by decide)]

/-! ## Values -/

mutual

/-- A value, and what follows it. -/
def parseValue : Nat → List UInt8 → Option (Value × List UInt8)
  | 0, _ => none
  | _ + 1, 0x6e :: 0x75 :: 0x6c :: 0x6c :: rest => some (.null, rest)
  | _ + 1, 0x74 :: 0x72 :: 0x75 :: 0x65 :: rest => some (.bool true, rest)
  | _ + 1, 0x66 :: 0x61 :: 0x6c :: 0x73 :: 0x65 :: rest => some (.bool false, rest)
  | _ + 1, 0x22 :: rest => (parseString rest).map fun (s, rest) => (.str s, rest)
  | _ + 1, 0x5b :: 0x5d :: rest => some (.arr [], rest)
  | fuel + 1, 0x5b :: rest => do
    let (v, rest) ← parseValue fuel rest
    let (vs, rest) ← parseElems fuel rest
    pure (.arr (v :: vs), rest)
  | _ + 1, 0x7b :: 0x7d :: rest => some (.obj [], rest)
  | fuel + 1, 0x7b :: rest => do
    let (m, rest) ← parseMember fuel rest
    let (ms, rest) ← parseMembers fuel rest
    pure (.obj (m :: ms), rest)
  | _ + 1, 0x2d :: rest => (parseNat rest).map fun (n, rest) => (.num (-n), rest)
  | _ + 1, bytes => (parseNat bytes).map fun (n, rest) => (.num n, rest)

/-- The elements after the first, up to the closing bracket. -/
def parseElems : Nat → List UInt8 → Option (List Value × List UInt8)
  | fuel + 1, 0x2c :: rest => do
    let (v, rest) ← parseValue fuel rest
    let (vs, rest) ← parseElems fuel rest
    pure (v :: vs, rest)
  | _ + 1, 0x5d :: rest => some ([], rest)
  | _, _ => none

/-- A member: its key, a colon and its value. -/
def parseMember : Nat → List UInt8 → Option ((String × Value) × List UInt8)
  | fuel + 1, 0x22 :: rest => do
    let (k, rest) ← parseString rest
    match rest with
    | 0x3a :: rest => do
      let (v, rest) ← parseValue fuel rest
      pure ((k, v), rest)
    | _ => none
  | _, _ => none

/-- The members after the first, up to the closing bracket. -/
def parseMembers : Nat → List UInt8 → Option (List (String × Value) × List UInt8)
  | fuel + 1, 0x2c :: rest => do
    let (m, rest) ← parseMember fuel rest
    let (ms, rest) ← parseMembers fuel rest
    pure (m :: ms, rest)
  | _ + 1, 0x7d :: rest => some ([], rest)
  | _, _ => none

end

/-- A whole text. -/
def parse (bytes : List UInt8) : Option Value :=
  match parseValue (bytes.length + 1) bytes with
  | some (v, []) => some v
  | _ => none

theorem delimited_nil : Delimited [] := by simp [Delimited]

theorem delimited_cons {b : UInt8} (h : isDigitByte b = false) (rest : List UInt8) :
    Delimited (b :: rest) := by
  simpa [Delimited] using h

theorem parseValue_digit {b : UInt8} (h : isDigitByte b = true) (rest : List UInt8) (fuel : Nat) :
    parseValue (fuel + 1) (b :: rest) =
      (parseNat (b :: rest)).map fun (n, rest) => (.num n, rest) := by
  unfold parseValue
  split
  -- every other case begins with a byte that is no digit
  all_goals first
    | omega
    | (rename_i heq; cases heq; exact absurd h (by decide))
    | rfl

theorem renderNat_eq_cons (n : Nat) : ∃ b bs, renderNat n = b :: bs ∧ isDigitByte b = true := by
  cases hd : Nat.toDigits 10 n with
  | nil => simp at hd
  | cons c cs =>
    refine ⟨UInt8.ofNat c.toNat, cs.map fun c => UInt8.ofNat c.toNat, by simp [renderNat, hd], ?_⟩
    have hc : c ∈ Nat.toDigits 10 n := by simp [hd]
    exact (isDigitByte_of_isDigit (Nat.isDigit_of_mem_toDigits (by decide) (by decide) hc)).1

theorem parseValue_renderInt (n : Int) {rest : List UInt8} (hrest : Delimited rest) (fuel : Nat) :
    parseValue (fuel + 1) (renderInt n ++ rest) = some (.num n, rest) := by
  cases n with
  | ofNat n =>
    obtain ⟨b, bs, hb, hdigit⟩ := renderNat_eq_cons n
    have hparse := parseNat_renderNat n hrest
    simp only [renderInt, hb, List.cons_append] at hparse ⊢
    rw [parseValue_digit hdigit, hparse]
    rfl
  | negSucc n =>
    have hparse := parseNat_renderNat (n + 1) hrest
    simp only [renderInt, List.cons_append, parseValue, hparse, Option.map_some]
    rfl

namespace Value

/-- No value begins with a closing bracket. -/
theorem render_eq_cons (v : Value) : ∃ b bs, v.render = b :: bs ∧ b ≠ 0x5d := by
  have hnat : ∀ n, ∃ b bs, renderNat n = b :: bs ∧ b ≠ 0x5d := by
    intro n
    obtain ⟨b, bs, hb, hdigit⟩ := renderNat_eq_cons n
    refine ⟨b, bs, hb, ?_⟩
    rintro rfl
    exact absurd hdigit (by decide)
  match v with
  | .null => exact ⟨_, _, rfl, by decide⟩
  | .bool true => exact ⟨_, _, rfl, by decide⟩
  | .bool false => exact ⟨_, _, rfl, by decide⟩
  | .num (.ofNat n) =>
    simpa [render, renderInt] using hnat n
  | .num (.negSucc n) => exact ⟨0x2d, _, by simp [render, renderInt]; rfl, by decide⟩
  | .str s => exact ⟨0x22, _, by simp [render, renderString]; rfl, by decide⟩
  | .arr [] => exact ⟨0x5b, [0x5d], by simp [render], by decide⟩
  | .arr (v :: vs) => exact ⟨0x5b, _, by simp [render]; rfl, by decide⟩
  | .obj [] => exact ⟨0x7b, [0x7d], by simp [render], by decide⟩
  | .obj ((k, v) :: ms) => exact ⟨0x7b, _, by simp [render]; rfl, by decide⟩

theorem size_pos (v : Value) : 0 < v.size := by
  obtain ⟨b, bs, hb, -⟩ := v.render_eq_cons
  simp [size, hb]

/-- The array case is not the empty array. -/
theorem parseValue_arr {b : UInt8} (hb : b ≠ 0x5d) (rest : List UInt8) (fuel : Nat) :
    parseValue (fuel + 1) (0x5b :: b :: rest) = (do
      let (v, rest) ← parseValue fuel (b :: rest)
      let (vs, rest) ← parseElems fuel rest
      pure (.arr (v :: vs), rest)) := by
  rw [parseValue]
  rintro rest' ⟨⟩
  exact hb rfl

theorem parseMember_render {k : String} {v : Value} {rest : List UInt8} {fuel : Nat}
    (hv : parseValue fuel (v.render ++ rest) = some (v, rest)) :
    parseMember (fuel + 1) (renderString k ++ 0x3a :: v.render ++ rest) =
      some ((k, v), rest) := by
  have hk := parseString_flatMap k (0x3a :: (v.render ++ rest))
  simp only [renderString, List.cons_append, List.append_assoc, List.nil_append] at hk ⊢
  simp [parseMember, hk, hv]

mutual

/-- **The round trip**, with what follows the value. -/
theorem parseValue_render (v : Value) (rest : List UInt8) (fuel : Nat) (hrest : Delimited rest)
    (hfuel : v.size ≤ fuel) : parseValue fuel (v.render ++ rest) = some (v, rest) := by
  obtain ⟨n, rfl⟩ : ∃ n, fuel = n + 1 := ⟨fuel - 1, by have := v.size_pos; omega⟩
  match v with
  | .null => rfl
  | .bool true => rfl
  | .bool false => rfl
  | .num i =>
    rw [render]
    exact parseValue_renderInt i hrest n
  | .str s =>
    have hs := parseString_flatMap s rest
    simp only [render, renderString, List.cons_append, List.append_assoc, List.nil_append] at hs ⊢
    simp [parseValue, hs]
  | .arr [] => simp [render, parseValue]
  | .arr (v :: vs) =>
    rw [size_arr, sizeElems_cons, if_neg (by simp)] at hfuel
    obtain ⟨b, bs, hb, hne⟩ := v.render_eq_cons
    have hv := parseValue_render v (renderElems vs ++ 0x5d :: rest) n
      (by cases vs <;> exact delimited_cons (by decide) _) (by omega)
    have hvs := parseElems_render vs rest n (by omega)
    rw [hb, List.cons_append] at hv
    simp only [render, hb, List.cons_append, List.append_assoc, List.nil_append]
    rw [parseValue_arr hne, hv]
    simp [hvs]
  | .obj [] => simp [render, parseValue]
  | .obj ((k, v) :: ms) =>
    rw [size_obj, sizeMembers_cons, if_neg (by simp)] at hfuel
    obtain ⟨m, rfl⟩ : ∃ m, n = m + 1 := ⟨n - 1, by omega⟩
    have hv := parseValue_render v (renderMembers ms ++ 0x7d :: rest) m
      (by cases ms <;> exact delimited_cons (by decide) _) (by omega)
    have hm := parseMember_render (k := k) hv
    have hms := parseMembers_render ms rest (m + 1) (by omega)
    simp only [renderString, List.cons_append, List.append_assoc, List.nil_append] at hm
    simp only [render, renderString, List.cons_append, List.append_assoc, List.nil_append]
    rw [parseValue]
    · simp [hm, hms]
    · rintro rest' ⟨⟩

theorem parseElems_render (vs : List Value) (rest : List UInt8) (fuel : Nat)
    (hfuel : sizeElems vs + 1 ≤ fuel) :
    parseElems fuel (renderElems vs ++ 0x5d :: rest) = some (vs, rest) := by
  obtain ⟨n, rfl⟩ : ∃ n, fuel = n + 1 := ⟨fuel - 1, by omega⟩
  match vs with
  | [] => simp [renderElems, parseElems]
  | v :: vs =>
    rw [sizeElems_cons] at hfuel
    have hv := parseValue_render v (renderElems vs ++ 0x5d :: rest) n
      (by cases vs <;> exact delimited_cons (by decide) _) (by omega)
    have hvs := parseElems_render vs rest n (by omega)
    simp [renderElems, parseElems, hv, hvs]

theorem parseMembers_render (ms : List (String × Value)) (rest : List UInt8) (fuel : Nat)
    (hfuel : sizeMembers ms + 1 ≤ fuel) :
    parseMembers fuel (renderMembers ms ++ 0x7d :: rest) = some (ms, rest) := by
  obtain ⟨n, rfl⟩ : ∃ n, fuel = n + 1 := ⟨fuel - 1, by omega⟩
  match ms with
  | [] => simp [renderMembers, parseMembers]
  | (k, v) :: ms =>
    rw [sizeMembers_cons] at hfuel
    obtain ⟨m, rfl⟩ : ∃ m, n = m + 1 := ⟨n - 1, by omega⟩
    have hv := parseValue_render v (renderMembers ms ++ 0x7d :: rest) m
      (by cases ms <;> exact delimited_cons (by decide) _) (by omega)
    have hm := parseMember_render (k := k) hv
    have hms := parseMembers_render ms rest (m + 1) (by omega)
    simp only [List.cons_append, List.append_assoc] at hm
    simp [renderMembers, parseMembers, hm, hms]

end

end Value

/-- **The round trip.** -/
theorem parse_render (v : Value) : parse v.render = some v := by
  have h := v.parseValue_render [] _ delimited_nil (Nat.le_succ v.size)
  rw [List.append_nil] at h
  simp only [parse]
  rw [show v.render.length + 1 = v.size.succ from rfl, h]

end Json
