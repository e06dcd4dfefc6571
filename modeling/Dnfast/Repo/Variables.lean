import Mathlib.Data.List.TakeWhile
import Std.Data.ExtTreeMap
import Dnfast.Data.Check
import Dnfast.Data.Utf8

/-! # Variables

`dnfast-repo`, `variables.rs`. A text is read in pieces: characters that stand for themselves, a
doubled dollar sign, and names of variables. The reading does not depend on the variables, whose
values are put in its place. -/

namespace Dnfast.Repo

abbrev Variables := Std.ExtTreeMap String String

/-- The errors of `RepoError` that `expand` returns. -/
inductive VariableError where
  | malformedVariable (input : String)
  | unresolvedVariable (name : String)
  deriving DecidableEq, Repr

/-- `is_ascii_alphabetic`. -/
def isAsciiAlphabetic (c : Char) : Bool :=
  (65 ≤ c.toNat && c.toNat ≤ 90) || (97 ≤ c.toNat && c.toNat ≤ 122)

/-- `is_ascii_alphanumeric`. -/
def isAsciiAlphanumeric (c : Char) : Bool :=
  isAsciiAlphabetic c || (48 ≤ c.toNat && c.toNat ≤ 57)

def isNameStart (c : Char) : Bool := c = '_' || isAsciiAlphabetic c

def isNameChar (c : Char) : Bool := c = '_' || isAsciiAlphanumeric c

/-- `char_indices`, from the given index on. -/
def charIndices (index : Nat) : List Char → List (Nat × Char)
  | [] => []
  | c :: cs => (index, c) :: charIndices (index + c.utf8Size) cs

/-- The index of the closing brace, and the characters behind it. -/
def braceEnd : List (Nat × Char) → Option (Nat × List (Nat × Char))
  | [] => none
  | (index, current) :: rest => if current = '}' then some (index, rest) else braceEnd rest

/-- `name_end`, and the characters from there. -/
def nameEnd (stop : Nat) : List (Nat × Char) → Nat × List (Nat × Char)
  | [] => (stop, [])
  | (index, current) :: rest =>
    if isNameChar current then nameEnd stop rest else (index, (index, current) :: rest)

theorem length_braceEnd {chars rest : List (Nat × Char)} {stop : Nat}
    (h : braceEnd chars = some (stop, rest)) : rest.length ≤ chars.length := by
  induction chars with
  | nil => cases h
  | cons p chars ih =>
    rw [braceEnd] at h
    split at h
    · cases h
      exact Nat.le_succ _
    · exact Nat.le_succ_of_le (ih h)

theorem length_nameEnd (stop : Nat) (chars : List (Nat × Char)) :
    (nameEnd stop chars).2.length ≤ chars.length := by
  induction chars with
  | nil => exact Nat.le_refl _
  | cons p chars ih =>
    rw [nameEnd]
    split
    · exact Nat.le_succ_of_le ih
    · exact Nat.le_refl _

/-- The value of the variable that is named between the two indices. -/
def variableValue (vars : Variables) (input : String) (start stop : Nat) :
    Except (Fault VariableError) String := do
  let name ← input.byteSlice start stop
  if name = "" then .error (.error (.malformedVariable input))
  else match vars[name]? with
    | none => .error (.error (.unresolvedVariable name))
    | some value => .ok value

/-- The loop of `expand`, over the characters that are left. -/
def expandFrom (vars : Variables) (input : String) :
    List (Nat × Char) → String → Except (Fault VariableError) String
  | [], output => .ok output
  | (_, character) :: rest, output =>
    if character ≠ '$' then expandFrom vars input rest (output.push character)
    else match rest with
      | [] => .ok (output.push '$')
      | (nextIndex, next) :: behind =>
        if next = '$' then expandFrom vars input behind (output.push '$')
        else if next = '{' then
          match _hbrace : braceEnd behind with
          | none => .error (.error (.malformedVariable input))
          | some (stop, after) => do
            let value ← variableValue vars input (nextIndex + next.utf8Size) stop
            expandFrom vars input after (output ++ value)
        else if isNameStart next then do
          let value ← variableValue vars input nextIndex
            (nameEnd input.utf8ByteSize ((nextIndex, next) :: behind)).1
          expandFrom vars input (nameEnd input.utf8ByteSize ((nextIndex, next) :: behind)).2
            (output ++ value)
        else expandFrom vars input ((nextIndex, next) :: behind) (output.push '$')
termination_by chars => chars.length
decreasing_by
  · exact Nat.lt_succ_self _
  · exact Nat.lt_succ_of_lt (Nat.lt_succ_self _)
  · exact Nat.lt_succ_of_le (Nat.le_succ_of_le (length_braceEnd _hbrace))
  · exact Nat.lt_succ_of_le (length_nameEnd _ _)
  · exact Nat.lt_succ_self _

def expand (vars : Variables) (input : String) : Except (Fault VariableError) String :=
  expandFrom vars input (charIndices 0 input.toList) ""

/-! ## The grammar -/

/-- A piece of a text. -/
inductive Piece where
  | text (c : Char)
  | dollar
  | braced (name : List Char)
  | plain (name : List Char)
  | lone
  deriving DecidableEq

namespace Piece

def source : Piece → List Char
  | text c => [c]
  | dollar => ['$', '$']
  | braced name => '$' :: '{' :: (name ++ ['}'])
  | plain name => '$' :: name
  | lone => ['$']

/-- The piece may stand in front of the rest. A plain name is as long as it can be, and a dollar sign
stands for itself where no other piece begins. -/
def Fits : Piece → List Char → Prop
  | text c, _ => c ≠ '$'
  | dollar, _ => True
  | braced name, _ => '}' ∉ name
  | plain name, rest => (∃ c cs, name = c :: cs ∧ isNameStart c = true) ∧
      (∀ c ∈ name, isNameChar c = true) ∧ ∀ c ∈ rest.head?, isNameChar c = false
  | lone, rest => ∀ c ∈ rest.head?, c ≠ '$' ∧ c ≠ '{' ∧ isNameStart c = false

/-- What a name stands for in the text. -/
def named (vars : Variables) (input : String) (name : List Char) : Except VariableError String :=
  if name = [] then .error (.malformedVariable input)
  else Except.okOr vars[String.ofList name]? (.unresolvedVariable (String.ofList name))

def value (vars : Variables) (input : String) : Piece → Except VariableError String
  | text c => .ok (String.singleton c)
  | dollar | lone => .ok "$"
  | braced name | plain name => named vars input name

end Piece

/-- The text is read as the pieces, completely or up to a brace that is not closed. -/
inductive Reads : List Char → List Piece → Bool → Prop where
  | done : Reads [] [] true
  | unclosed {rest : List Char} (h : '}' ∉ rest) : Reads ('$' :: '{' :: rest) [] false
  | piece {p : Piece} {rest : List Char} {ps : List Piece} {complete : Bool} (hfits : p.Fits rest)
      (h : Reads rest ps complete) : Reads (p.source ++ rest) (p :: ps) complete

/-- The values of the pieces one after another, or the error of the first that has none. -/
def denoted (vars : Variables) (input : String) (complete : Bool) :
    List Piece → Except VariableError String
  | [] => if complete then .ok "" else .error (.malformedVariable input)
  | p :: ps => do
    let value ← p.value vars input
    let rest ← denoted vars input complete ps
    return value ++ rest

/-- Every dollar sign twice. -/
def doubled (cs : List Char) : List Char := cs.flatMap fun c => if c = '$' then ['$', '$'] else [c]

variable {vars : Variables} {input output : String} {cs rest name : List Char} {p : Piece}
  {ps ps' : List Piece} {complete complete' : Bool} {stop index : Nat}

/-! ## There is one reading -/

/-- The piece that a text begins with. -/
def nextPiece : List Char → Option (Piece × List Char)
  | [] => none
  | c :: rest =>
    if c ≠ '$' then some (.text c, rest)
    else match rest with
      | [] => some (.lone, [])
      | d :: behind =>
        if d = '$' then some (.dollar, behind)
        else if d = '{' then
          if '}' ∈ behind then
            some (.braced (behind.takeWhile (· ≠ '}')), (behind.dropWhile (· ≠ '}')).tail)
          else none
        else if isNameStart d then
          some (.plain ((d :: behind).takeWhile isNameChar), (d :: behind).dropWhile isNameChar)
        else some (.lone, d :: behind)

theorem isNameChar_of_isNameStart {c : Char} (h : isNameStart c = true) : isNameChar c = true := by
  simp only [isNameStart, isNameChar, isAsciiAlphanumeric, Bool.or_eq_true] at h ⊢
  exact h.imp_right Or.inl

theorem ne_of_isNameStart {c : Char} (h : isNameStart c = true) : c ≠ '$' ∧ c ≠ '{' := by
  constructor <;> rintro rfl <;> revert h <;> decide

theorem takeWhile_braced (h : '}' ∉ name) :
    (name ++ '}' :: rest).takeWhile (· ≠ '}') = name ∧
      (name ++ '}' :: rest).dropWhile (· ≠ '}') = '}' :: rest := by
  have hname : ∀ c ∈ name, decide (c ≠ '}') = true := by
    intro c hc
    rw [decide_eq_true_eq]
    exact fun heq => h (heq ▸ hc)
  rw [List.takeWhile_append_of_pos hname, List.dropWhile_append_of_pos hname]
  simp

theorem takeWhile_plain (h : ∀ c ∈ name, isNameChar c = true)
    (hrest : ∀ c ∈ rest.head?, isNameChar c = false) :
    (name ++ rest).takeWhile isNameChar = name ∧ (name ++ rest).dropWhile isNameChar = rest := by
  rw [List.takeWhile_append_of_pos h, List.dropWhile_append_of_pos h]
  cases rest with
  | nil => simp
  | cons c rest =>
    have hc := hrest c rfl
    simp [hc]

theorem nextPiece_source (h : p.Fits rest) : nextPiece (p.source ++ rest) = some (p, rest) := by
  cases p with
  | text c => exact if_pos h
  | dollar => rfl
  | braced name =>
    obtain ⟨htake, hdrop⟩ := @takeWhile_braced rest name h
    have hmem : '}' ∈ name ++ '}' :: rest := List.mem_append_right _ List.mem_cons_self
    simp only [Piece.source, List.cons_append, List.append_assoc, List.nil_append, nextPiece, hmem,
      htake, hdrop, List.tail_cons, if_true]
    rfl
  | plain name =>
    obtain ⟨⟨c, cs, rfl, hc⟩, hname, hrest⟩ := h
    obtain ⟨htake, hdrop⟩ := takeWhile_plain hname hrest
    obtain ⟨hdollar, hbrace⟩ := ne_of_isNameStart hc
    rw [List.cons_append] at htake hdrop
    simp only [Piece.source, List.cons_append, nextPiece, hdollar, hbrace, hc, htake, hdrop, if_true,
      if_false, ne_eq, not_true_eq_false]
  | lone =>
    cases rest with
    | nil => rfl
    | cons d rest =>
      obtain ⟨hdollar, hbrace, hd⟩ := h d rfl
      simp [Piece.source, nextPiece, hdollar, hbrace, hd]

/-- A text that begins with no piece is empty, or it opens a brace that is not closed. -/
theorem nextPiece_cases (cs : List Char) :
    (∃ (p : Piece) (rest : List Char), cs = p.source ++ rest ∧ p.Fits rest) ∨ cs = [] ∨
      ∃ rest, cs = '$' :: '{' :: rest ∧ '}' ∉ rest := by
  cases cs with
  | nil => exact .inr (.inl rfl)
  | cons c rest =>
    by_cases hc : c = '$'
    · subst hc
      cases rest with
      | nil => exact .inl ⟨.lone, [], rfl, nofun⟩
      | cons d behind =>
        by_cases hdollar : d = '$'
        · subst hdollar
          exact .inl ⟨.dollar, behind, rfl, trivial⟩
        by_cases hbrace : d = '{'
        · subst hbrace
          by_cases hmem : '}' ∈ behind
          · obtain ⟨name, rest, rfl, hname⟩ := List.eq_append_cons_of_mem hmem
            exact .inl ⟨.braced name, rest, by simp [Piece.source], hname⟩
          · exact .inr (.inr ⟨behind, rfl, hmem⟩)
        cases hd : isNameStart d with
        | true =>
          refine .inl ⟨.plain ((d :: behind).takeWhile isNameChar),
            (d :: behind).dropWhile isNameChar, ?_, ?_, ?_, ?_⟩
          · rw [Piece.source, List.cons_append, List.takeWhile_append_dropWhile]
          · rw [List.takeWhile_cons_of_pos (isNameChar_of_isNameStart hd)]
            exact ⟨d, _, rfl, hd⟩
          · exact fun c hc => List.mem_takeWhile_imp hc
          · intro c hc
            have hhead := List.head?_dropWhile_not isNameChar (d :: behind)
            rw [Option.mem_def.mp hc] at hhead
            exact hhead
        | false =>
          refine .inl ⟨.lone, d :: behind, rfl, fun c hc => ?_⟩
          cases hc
          exact ⟨hdollar, hbrace, hd⟩
    · exact .inl ⟨.text c, rest, rfl, hc⟩

theorem Piece.source_ne_nil (p : Piece) : p.source ≠ [] := by
  cases p <;> exact List.cons_ne_nil _ _

theorem nextPiece_unclosed (h : '}' ∉ rest) : nextPiece ('$' :: '{' :: rest) = none := by
  simp [nextPiece, h]

theorem Reads.exists (cs : List Char) : ∃ ps complete, Reads cs ps complete := by
  induction hlength : cs.length using Nat.strong_induction_on generalizing cs with
  | _ length ih =>
    obtain ⟨p, rest, rfl, hfits⟩ | rfl | ⟨rest, rfl, hrest⟩ := nextPiece_cases cs
    · have hpos := List.length_pos_iff.mpr p.source_ne_nil
      rw [List.length_append] at hlength
      obtain ⟨ps, complete, h⟩ := ih rest.length (by omega) rest rfl
      exact ⟨p :: ps, complete, .piece hfits h⟩
    · exact ⟨[], true, .done⟩
    · exact ⟨[], false, .unclosed hrest⟩

theorem Reads.unique (h : Reads cs ps complete) (h' : Reads cs ps' complete') :
    ps = ps' ∧ complete = complete' := by
  induction h generalizing ps' complete' with
  | done =>
    generalize hcs : ([] : List Char) = cs at h'
    cases h' with
    | done => exact ⟨rfl, rfl⟩
    | unclosed => cases hcs
    | @piece p _ _ _ _ _ => exact absurd (List.append_eq_nil_iff.mp hcs.symm).1 p.source_ne_nil
  | unclosed hrest =>
    generalize hcs : '$' :: '{' :: _ = cs at h'
    cases h' with
    | done => cases hcs
    | unclosed => exact ⟨rfl, rfl⟩
    | piece hfits _ =>
      have hnext := nextPiece_unclosed hrest
      rw [hcs, nextPiece_source hfits] at hnext
      cases hnext
  | @piece p rest _ _ hfits _ ih =>
    generalize hcs : p.source ++ rest = cs at h'
    have hnext := nextPiece_source hfits
    rw [hcs] at hnext
    cases h' with
    | done => cases hnext
    | unclosed hrest =>
      rw [nextPiece_unclosed hrest] at hnext
      cases hnext
    | piece hfits' h' =>
      rw [nextPiece_source hfits'] at hnext
      cases hnext
      obtain ⟨rfl, rfl⟩ := ih h'
      exact ⟨rfl, rfl⟩

/-! ## The loop follows the reading -/

theorem charIndices_append (index : Nat) (cs ds : List Char) :
    charIndices index (cs ++ ds) =
      charIndices index cs ++ charIndices (index + String.bytesOf cs) ds := by
  induction cs generalizing index with
  | nil => rfl
  | cons c cs ih =>
    rw [List.cons_append, charIndices, ih, charIndices, List.cons_append, String.bytesOf_cons,
      Nat.add_assoc]

theorem braceEnd_closed (h : '}' ∉ name) : braceEnd (charIndices index (name ++ '}' :: rest)) =
    some (index + String.bytesOf name,
      charIndices (index + String.bytesOf (name ++ ['}'])) rest) := by
  induction name generalizing index with
  | nil => rfl
  | cons c name ih =>
    rw [List.mem_cons, not_or] at h
    rw [List.cons_append, charIndices, braceEnd, if_neg (Ne.symm h.1), ih h.2, List.cons_append,
      String.bytesOf_cons, String.bytesOf_cons, Nat.add_assoc, Nat.add_assoc]

theorem braceEnd_unclosed (h : '}' ∉ rest) : braceEnd (charIndices index rest) = none := by
  induction rest generalizing index with
  | nil => rfl
  | cons c rest ih =>
    rw [List.mem_cons, not_or] at h
    rw [charIndices, braceEnd, if_neg (Ne.symm h.1), ih h.2]

theorem nameEnd_plain (hname : ∀ c ∈ name, isNameChar c = true)
    (hrest : ∀ c ∈ rest.head?, isNameChar c = false) :
    nameEnd (index + String.bytesOf (name ++ rest)) (charIndices index (name ++ rest)) =
      (index + String.bytesOf name, charIndices (index + String.bytesOf name) rest) := by
  induction name generalizing index with
  | nil =>
    cases rest with
    | nil => rfl
    | cons c rest =>
      have hc := hrest c rfl
      rw [List.nil_append, charIndices, nameEnd, if_neg (by rw [hc]; exact Bool.false_ne_true)]
      rfl
  | cons c name ih =>
    rw [List.forall_mem_cons] at hname
    rw [List.cons_append, charIndices, nameEnd, if_pos hname.1, String.bytesOf_cons,
      ← Nat.add_assoc, ih hname.2, String.bytesOf_cons, Nat.add_assoc]

/-- The slice of a name is the name. -/
theorem variableValue_named {before after : List Char}
    (hinput : input.toList = before ++ name ++ after) :
    variableValue vars input (String.bytesOf before) (String.bytesOf before + String.bytesOf name) =
      (Piece.named vars input name).mapError .error := by
  have hslice : input.byteSlice (String.bytesOf before)
      (String.bytesOf before + String.bytesOf name) =
        (.ok (String.ofList name) : Except (Fault VariableError) String) := by
    rw [← String.byteSlice_ofList before name after, ← hinput, String.ofList_toList]
  rw [variableValue, hslice, Except.ok_bind, Piece.named]
  by_cases hname : name = []
  · rw [if_pos hname, if_pos (by rw [hname])]
    rfl
  · rw [if_neg hname, if_neg (by simpa using hname)]
    cases vars[String.ofList name]? <;> rfl

section
variable {chars behind after : List (Nat × Char)} {c d : Char} {next : Nat}

theorem expandFrom_nil : expandFrom vars input [] output = .ok output := by
  rw [expandFrom.eq_def]

theorem expandFrom_text (h : c ≠ '$') : expandFrom vars input ((index, c) :: chars) output =
    expandFrom vars input chars (output.push c) := by
  rw [expandFrom.eq_def]
  exact if_pos h

theorem expandFrom_last :
    expandFrom vars input [(index, '$')] output = .ok (output.push '$') := by
  rw [expandFrom.eq_def]
  rfl

theorem expandFrom_dollar :
    expandFrom vars input ((index, '$') :: (next, '$') :: behind) output =
      expandFrom vars input behind (output.push '$') := by
  rw [expandFrom.eq_def]
  rfl

theorem expandFrom_unclosed (h : braceEnd behind = none) :
    expandFrom vars input ((index, '$') :: (next, '{') :: behind) output =
      .error (.error (.malformedVariable input)) := by
  rw [expandFrom.eq_def]
  simp only [ne_eq, not_true_eq_false, if_false, if_true]
  rw [if_neg (by decide)]
  split
  next => rfl
  next hsome => rw [h] at hsome; cases hsome

theorem expandFrom_braced (h : braceEnd behind = some (stop, after)) :
    expandFrom vars input ((index, '$') :: (next, '{') :: behind) output =
      variableValue vars input (next + 1) stop >>= fun value =>
        expandFrom vars input after (output ++ value) := by
  rw [expandFrom.eq_def]
  simp only [ne_eq, not_true_eq_false, if_false, if_true]
  rw [if_neg (by decide)]
  split
  next hnone => rw [h] at hnone; cases hnone
  next hsome =>
    rw [h] at hsome
    cases hsome
    rfl

theorem expandFrom_plain (hstart : isNameStart d = true)
    (h : nameEnd input.utf8ByteSize ((next, d) :: behind) = (stop, after)) :
    expandFrom vars input ((index, '$') :: (next, d) :: behind) output =
      variableValue vars input next stop >>= fun value =>
        expandFrom vars input after (output ++ value) := by
  obtain ⟨hdollar, hbrace⟩ := ne_of_isNameStart hstart
  rw [expandFrom.eq_def]
  simp only [ne_eq, not_true_eq_false, if_false, hdollar, hbrace, hstart, if_true, h]

theorem expandFrom_lone (hdollar : d ≠ '$') (hbrace : d ≠ '{') (hstart : isNameStart d = false) :
    expandFrom vars input ((index, '$') :: (next, d) :: behind) output =
      expandFrom vars input ((next, d) :: behind) (output.push '$') := by
  rw [expandFrom.eq_def]
  simp [hdollar, hbrace, hstart]

end

/-- An answer behind a value, put behind what is there already. -/
theorem denoted_cons {value : String} (hvalue : p.value vars input = .ok value) :
    ((denoted vars input complete (p :: ps)).map (output ++ ·)).mapError Fault.error =
      ((denoted vars input complete ps).map (output ++ value ++ ·)).mapError Fault.error := by
  rw [denoted, hvalue, Except.ok_bind]
  cases denoted vars input complete ps with
  | error e => rfl
  | ok rest =>
    exact congrArg Except.ok (String.append_assoc.symm)

theorem denoted_bind : ((p.value vars input).mapError Fault.error >>= fun value =>
    ((denoted vars input complete ps).map (output ++ value ++ ·)).mapError Fault.error) =
      ((denoted vars input complete (p :: ps)).map (output ++ ·)).mapError Fault.error := by
  cases hvalue : p.value vars input with
  | error e =>
    rw [denoted, hvalue]
    rfl
  | ok value => exact (denoted_cons hvalue).symm

/-- The loop over what is left of the input puts its values behind the output. -/
theorem expandFrom_of_reads (h : Reads cs ps complete) {before : List Char}
    (hinput : input.toList = before ++ cs) :
    expandFrom vars input (charIndices (String.bytesOf before) cs) output =
      ((denoted vars input complete ps).map (output ++ ·)).mapError .error := by
  induction h generalizing before output with
  | done =>
    rw [charIndices, expandFrom_nil]
    simp [denoted, Except.map, Except.mapError_ok]
  | unclosed hrest =>
    rw [charIndices, charIndices, expandFrom_unclosed (braceEnd_unclosed hrest)]
    rfl
  | @piece p rest ps complete hfits h ih =>
    have hbytes : String.bytesOf before + String.bytesOf p.source =
        String.bytesOf (before ++ p.source) := (String.bytesOf_append before p.source).symm
    have hrest (output : String) := @ih output (before ++ p.source)
      (by rw [hinput, List.append_assoc])
    rw [← hbytes] at hrest
    cases p with
    | text c =>
      rw [denoted_cons rfl, Piece.source, List.singleton_append, charIndices, expandFrom_text hfits]
      exact hrest (output.push c)
    | dollar =>
      rw [denoted_cons rfl, Piece.source, List.cons_append, List.singleton_append, charIndices,
        charIndices, expandFrom_dollar]
      exact hrest (output.push '$')
    | braced name =>
      rw [Piece.source, List.cons_append, List.cons_append, List.append_assoc,
        List.singleton_append, charIndices, charIndices, expandFrom_braced (braceEnd_closed hfits)]
      have hvalue := @variableValue_named vars input name (before ++ ['$', '{']) ('}' :: rest)
        (by simp [hinput, Piece.source])
      rw [String.bytesOf_append] at hvalue
      rw [← denoted_bind]
      refine (congrArg (· >>= _) hvalue).trans (congrArg (bind _) (funext fun value => ?_))
      have hvalueRest := hrest (output ++ value)
      rw [Piece.source, String.bytesOf_cons, String.bytesOf_cons, ← Nat.add_assoc,
        ← Nat.add_assoc] at hvalueRest
      exact hvalueRest
    | plain name =>
      obtain ⟨⟨d, ds, rfl, hstart⟩, hname, hend⟩ := hfits
      have hvalue := @variableValue_named vars input (d :: ds) (before ++ ['$']) rest
        (by simp [hinput, Piece.source])
      have hsize : input.utf8ByteSize =
          String.bytesOf before + '$'.utf8Size + String.bytesOf (d :: ds ++ rest) := by
        rw [← String.bytesOf_toList, hinput, Piece.source, String.bytesOf_append, List.cons_append,
          String.bytesOf_cons, Nat.add_assoc]
      have hend := @nameEnd_plain rest (d :: ds) (String.bytesOf before + '$'.utf8Size) hname hend
      rw [← hsize, List.cons_append, charIndices] at hend
      rw [Piece.source, List.cons_append, List.cons_append, charIndices, charIndices,
        expandFrom_plain hstart hend, ← denoted_bind]
      rw [String.bytesOf_append] at hvalue
      refine (congrArg (· >>= _) hvalue).trans (congrArg (bind _) (funext fun value => ?_))
      have hvalueRest := hrest (output ++ value)
      rw [Piece.source, String.bytesOf_cons, ← Nat.add_assoc] at hvalueRest
      exact hvalueRest
    | lone =>
      rw [denoted_cons rfl, Piece.source, List.singleton_append, charIndices]
      cases rest with
      | nil =>
        obtain ⟨rfl, rfl⟩ := h.unique .done
        rw [charIndices, expandFrom_last]
        simp [denoted, Except.map, Except.mapError_ok, String.push_eq_append]
      | cons d rest =>
        obtain ⟨hdollar, hbrace, hstart⟩ := hfits d rfl
        rw [charIndices, expandFrom_lone hdollar hbrace hstart]
        exact hrest (output.push '$')

theorem expand_of_reads (h : Reads input.toList ps complete) :
    expand vars input = (denoted vars input complete ps).mapError .error := by
  rw [expand]
  refine (@expandFrom_of_reads vars input "" _ ps complete h [] rfl).trans ?_
  cases denoted vars input complete ps with
  | error e => rfl
  | ok text => exact congrArg Except.ok String.empty_append

/-! ## Failures and doubled dollar signs -/

theorem exists_named : (∃ value, Piece.named vars input name = .ok value) ↔
    name ≠ [] ∧ String.ofList name ∈ vars := by
  unfold Piece.named
  split
  next hname => exact ⟨nofun, fun h => absurd hname h.1⟩
  next hname =>
    simp only [Except.okOr_eq_ok, ne_eq, hname, not_false_eq_true, true_and]
    rw [← Option.isSome_iff_exists, Std.ExtTreeMap.isSome_getElem?_iff_mem]

/-- A text is denoted when it is read completely and the names are those of variables. -/
theorem exists_denoted : (∃ text, denoted vars input complete ps = .ok text) ↔
    complete = true ∧ ∀ name, .braced name ∈ ps ∨ .plain name ∈ ps →
      name ≠ [] ∧ String.ofList name ∈ vars := by
  induction ps with
  | nil => cases complete <;> simp [denoted]
  | cons p ps ih =>
    have hcons : (∃ text, denoted vars input complete (p :: ps) = .ok text) ↔
        (∃ value, p.value vars input = .ok value) ∧
          ∃ text, denoted vars input complete ps = .ok text := by
      simp only [denoted, Except.bind_eq_ok, Except.pure_eq_ok]
      constructor
      · rintro ⟨_, value, hvalue, text, htext, -⟩
        exact ⟨⟨value, hvalue⟩, text, htext⟩
      · rintro ⟨⟨value, hvalue⟩, text, htext⟩
        exact ⟨_, value, hvalue, text, htext, rfl⟩
    rw [hcons, ih]
    cases p with
    | text c => simp [Piece.value]
    | dollar => simp [Piece.value]
    | lone => simp [Piece.value]
    | braced name =>
      simp only [Piece.value, exists_named, List.mem_cons, Piece.braced.injEq, reduceCtorEq, false_or,
        or_assoc, forall_eq_or_imp]
      exact and_left_comm
    | plain name =>
      simp only [Piece.value, exists_named, List.mem_cons, Piece.plain.injEq, reduceCtorEq, false_or,
        or_left_comm, forall_eq_or_imp]
      exact and_left_comm

theorem reads_doubled (cs : List Char) :
    Reads (doubled cs) (cs.map fun c => if c = '$' then .dollar else .text c) true := by
  induction cs with
  | nil => exact .done
  | cons c cs ih =>
    rw [doubled, List.flatMap_cons, List.map_cons]
    by_cases hc : c = '$'
    · rw [if_pos hc, if_pos hc]
      exact @Reads.piece .dollar _ _ _ trivial ih
    · rw [if_neg hc, if_neg hc]
      exact @Reads.piece (.text c) _ _ _ hc ih

theorem denoted_doubled (cs : List Char) :
    denoted vars input true (cs.map fun c => if c = '$' then .dollar else .text c) =
      .ok (String.ofList cs) := by
  induction cs with
  | nil => rfl
  | cons c cs ih =>
    rw [List.map_cons, denoted, ih]
    by_cases hc : c = '$'
    · rw [if_pos hc, hc]
      exact congrArg Except.ok (@String.ofList_append ['$'] cs).symm
    · rw [if_neg hc]
      exact congrArg Except.ok (@String.ofList_append [c] cs).symm

theorem Reads.plain_ne_nil (h : Reads cs ps complete) (hname : .plain name ∈ ps) : name ≠ [] := by
  induction h with
  | done => cases hname
  | unclosed => cases hname
  | piece hfits _ ih =>
    rcases List.mem_cons.mp hname with rfl | hname
    · obtain ⟨⟨c, cs, rfl, -⟩, -⟩ := hfits
      exact List.cons_ne_nil c cs
    · exact ih hname

theorem Reads.exists_error (h : Reads cs ps complete) :
    (∃ e, denoted vars input complete ps = .error e) ↔ complete = false ∨ .braced [] ∈ ps ∨
      ∃ name, (.braced name ∈ ps ∨ .plain name ∈ ps) ∧ String.ofList name ∉ vars := by
  have hnot : (∃ e, denoted vars input complete ps = .error e) ↔
      ¬ ∃ text, denoted vars input complete ps = .ok text := by
    cases denoted vars input complete ps <;> simp
  rw [hnot, exists_denoted, not_and_or, Bool.not_eq_true]
  refine or_congr_right ⟨fun hbad => ?_, fun hbad hgood => ?_⟩
  · by_contra hnone
    rw [not_or] at hnone
    refine hbad fun name hname => ⟨?_, ?_⟩
    · rintro rfl
      exact hname.elim hnone.1 fun hplain => h.plain_ne_nil hplain rfl
    · by_contra hvars
      exact hnone.2 ⟨name, hname, hvars⟩
  · rcases hbad with hempty | ⟨name, hname, hvars⟩
    · exact (hgood [] (.inl hempty)).1 rfl
    · exact hvars (hgood name hname).2

/-- The input is read in one way, and `expand` returns the values of its pieces. It fails when a brace
is not closed or empty or a name is not that of a variable; a slice never panics; and the input is
what its text with every dollar sign doubled expands to. -/
theorem expand_spec (vars : Variables) (input : String) : ∃ (ps : List Piece) (complete : Bool),
    Reads input.toList ps complete ∧
    (∀ ps' complete', Reads input.toList ps' complete' → ps' = ps ∧ complete' = complete) ∧
    expand vars input = (denoted vars input complete ps).mapError .error ∧
    ((∃ e, expand vars input = .error e) ↔ complete = false ∨ .braced [] ∈ ps ∨
      ∃ name, (.braced name ∈ ps ∨ .plain name ∈ ps) ∧ String.ofList name ∉ vars) ∧
    expand vars input ≠ .error .panic ∧
    expand vars (String.ofList (doubled input.toList)) = .ok input := by
  obtain ⟨ps, complete, h⟩ := Reads.exists input.toList
  have hexpand := @expand_of_reads vars input ps complete h
  refine ⟨ps, complete, h, fun ps' complete' h' => h'.unique h, hexpand, ?_, ?_, ?_⟩
  · have herror : (∃ e, denoted vars input complete ps = .error e) ↔ _ := h.exists_error
    rw [← herror, hexpand]
    cases denoted vars input complete ps <;> simp [Except.mapError_ok, Except.mapError_error]
  · rw [hexpand]
    cases denoted vars input complete ps <;> simp [Except.mapError_ok, Except.mapError_error]
  · have hdoubled := reads_doubled input.toList
    rw [← @String.toList_ofList (doubled input.toList)] at hdoubled
    rw [expand_of_reads hdoubled, denoted_doubled, String.ofList_toList]
    rfl

end Dnfast.Repo
