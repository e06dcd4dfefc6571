import Dnfast.Data.Split
import Dnfast.Data.Utf8
import Dnfast.Metadata.Filelists

/-! # Paths of files

`dnfast-metadata`: `validate_file_path` of `primary.rs` searches and splits the path, and
`safe_file_path` of `filelists.rs` reads its bytes once. Both accept the paths of the grammar below. -/

namespace Dnfast.Metadata

open String (bytesOf)

def isDotSegment (segment : List Char) : Bool := segment == ['.'] || segment == ['.', '.']

def validateFilePath (path : String) : Except MetadataError Unit :=
  Except.refuseIf (path.toList.head? ≠ some '/' ∨ ['/', '/'] <:+: path.toList ∨
    path.toList.any isControl = true ∨ (path.toList.splitOn '/').any isDotSegment = true)
    (.unsafeLocation path)

/-- The path is a list of segments, each behind a slash. Only the last one may be empty, none leads
to the same directory or the one above, and there is no control character. -/
def IsFilePath (path : String) : Prop :=
  ∃ segments : List (List Char), segments ≠ [] ∧ path.toList = '/' :: ['/'].intercalate segments ∧
    (∀ s ∈ segments, '/' ∉ s) ∧ (∀ s ∈ segments.dropLast, s ≠ []) ∧
    (∀ s ∈ segments, isDotSegment s = false) ∧ ∀ c ∈ path.toList, isControl c = false

variable {path : String} {segment rest cs : List Char} {segments : List (List Char)}

/-! ## Searching and splitting -/

theorem double_slash_cons {c : Char} (hc : c ≠ '/') :
    ['/', '/'] <:+: c :: rest ↔ ['/', '/'] <:+: rest := by
  rw [List.infix_cons_iff]
  refine or_iff_right fun h => hc ?_
  exact (List.cons_prefix_cons.mp h).1.symm

/-- Two slashes do not meet where there is a segment between them. -/
theorem double_slash_segment (hne : segment ≠ []) (hslash : '/' ∉ segment) :
    ['/', '/'] <:+: '/' :: (segment ++ rest) ↔ ['/', '/'] <:+: rest := by
  have hskip : ['/', '/'] <:+: segment ++ rest ↔ ['/', '/'] <:+: rest := by
    clear hne
    induction segment with
    | nil => exact Iff.rfl
    | cons c segment ih =>
      rw [List.mem_cons, not_or] at hslash
      rw [List.cons_append, double_slash_cons (Ne.symm hslash.1), ih hslash.2]
  rw [List.infix_cons_iff, hskip]
  refine or_iff_right fun h => ?_
  obtain ⟨c, segment, rfl⟩ := List.exists_cons_of_ne_nil hne
  obtain ⟨-, h⟩ := List.cons_prefix_cons.mp h
  exact hslash (List.mem_cons.mpr (.inl (List.cons_prefix_cons.mp h).1))

/-- There are two slashes in a row where a segment that is not the last is empty. -/
theorem double_slash_iff (hne : segments ≠ []) (hslash : ∀ s ∈ segments, '/' ∉ s) :
    ['/', '/'] <:+: '/' :: ['/'].intercalate segments ↔ [] ∈ segments.dropLast := by
  induction segments with
  | nil => exact absurd rfl hne
  | cons s segments ih =>
    rw [List.forall_mem_cons] at hslash
    cases segments with
    | nil =>
      rw [List.intercalate_singleton, List.dropLast_singleton]
      refine iff_of_false (fun h => hslash.1 ?_) List.not_mem_nil
      by_cases hs : s = []
      · rw [hs] at h
        exact absurd h.length_le (by decide)
      · rw [← List.append_nil s, double_slash_segment hs hslash.1] at h
        exact absurd h.length_le (by decide)
    | cons t segments =>
      rw [List.intercalate_cons_cons, List.append_assoc, List.singleton_append, List.dropLast_cons_cons,
        List.mem_cons]
      by_cases hs : s = []
      · subst hs
        exact iff_of_true ⟨[], _, rfl⟩ (.inl rfl)
      · rw [double_slash_segment hs hslash.1, ih (List.cons_ne_nil _ _) hslash.2]
        exact (or_iff_right (Ne.symm hs)).symm

/-- The segments of a path are what it is split into. -/
theorem isFilePath_iff : IsFilePath path ↔ ∃ rest, path.toList = '/' :: rest ∧
    (∀ s ∈ (rest.splitOn '/').dropLast, s ≠ []) ∧ (∀ s ∈ rest.splitOn '/', isDotSegment s = false) ∧
    ∀ c ∈ path.toList, isControl c = false := by
  constructor
  · rintro ⟨segments, hne, hpath, hslash, hinner, hdots, hcontrol⟩
    have hsplit : (['/'].intercalate segments).splitOn '/' = segments :=
      List.splitOn_intercalate '/' hslash hne
    exact ⟨_, hpath, hsplit.symm ▸ hinner, hsplit.symm ▸ hdots, hcontrol⟩
  · rintro ⟨rest, hpath, hinner, hdots, hcontrol⟩
    refine ⟨rest.splitOn '/', List.splitOn_ne_nil _ _, ?_, ?_, hinner, hdots, hcontrol⟩
    · rw [List.intercalate_splitOn, hpath]
    · exact fun s hs => List.notMem_of_mem_splitOn hs

theorem validateFilePath_iff : validateFilePath path = .ok () ↔ IsFilePath path := by
  rw [validateFilePath, Except.refuseIf_eq_ok, isFilePath_iff]
  cases hpath : path.toList with
  | nil => simp
  | cons c rest =>
    by_cases hc : c = '/'
    · subst hc
      have hslashes : ['/', '/'] <:+: '/' :: rest ↔ [] ∈ (rest.splitOn '/').dropLast := by
        rw [← double_slash_iff (List.splitOn_ne_nil _ _) fun s hs => List.notMem_of_mem_splitOn hs,
          List.intercalate_splitOn]
      have hsplit : ('/' :: rest).splitOn '/' = [] :: rest.splitOn '/' := by
        rw [List.splitOn_cons_eq_if_modifyHead]
        exact if_pos (beq_self_eq_true '/')
      have hany : ([] :: rest.splitOn '/').any isDotSegment = (rest.splitOn '/').any isDotSegment :=
        rfl
      rw [hslashes, hsplit, hany]
      simp only [List.head?_cons, not_or, List.any_eq_true, not_exists, not_and, Bool.not_eq_true]
      constructor
      · rintro ⟨-, hinner, hcontrol, hdots⟩
        exact ⟨rest, rfl, fun s hs hs' => hinner (hs' ▸ hs), hdots, hcontrol⟩
      · rintro ⟨_, heq, hinner, hdots, hcontrol⟩
        cases heq
        exact ⟨by simp, fun h => hinner [] h rfl, hcontrol, hdots⟩
    · refine iff_of_false (fun h => h (.inl ?_)) ?_
      · simpa using hc
      · rintro ⟨rest', heq, -⟩
        exact hc (List.cons.inj heq).1

/-! ## Reading the bytes once -/

/-- A control character of ASCII. -/
def isAsciiControl (c : Char) : Bool := c.toNat < 32 || c.toNat == 127

/-- What the loop knows of the segment so far. -/
def Segment.of (segment : List Char) : Segment := ⟨bytesOf segment, segment.all (· = '.')⟩

/-- A byte outside of ASCII is a part of the segment. -/
theorem segmentByte_of_le {s : Segment} {b : UInt8} (h : 128 ≤ b.toNat) :
    segmentByte s b = some ⟨s.length + 1, false⟩ := by
  have hne {d : UInt8} (hd : d.toNat < 128) : b ≠ d := by
    rintro rfl
    omega
  have hcontrol : ¬ b < 32 := by
    rw [UInt8.lt_iff_toNat_lt, Nat.not_lt]
    exact Nat.le_trans (by decide) h
  have h127 : (b == 127) = false := beq_eq_false_iff_ne.mpr (hne (by decide))
  have hdot : (b == 46) = false := beq_eq_false_iff_ne.mpr (hne (by decide))
  rw [segmentByte, decide_eq_false hcontrol, h127, hdot, if_neg (by decide),
    if_neg (hne (by decide)), Bool.and_false]

theorem foldlM_segmentByte_of_le {s : Segment} {b : UInt8} {bs : List UInt8}
    (h : ∀ d ∈ b :: bs, 128 ≤ d.toNat) :
    (b :: bs).foldlM segmentByte s = some ⟨s.length + (b :: bs).length, false⟩ := by
  induction bs generalizing b s with
  | nil => rw [List.foldlM_cons, segmentByte_of_le (h b List.mem_cons_self)]; rfl
  | cons d bs ih =>
    rw [List.forall_mem_cons] at h
    rw [List.foldlM_cons, segmentByte_of_le h.1, Option.bind_eq_bind, Option.bind_some, ih h.2,
      List.length_cons, List.length_cons, List.length_cons]
    simp only [Option.some.injEq, Segment.mk.injEq, and_true]
    omega

theorem Segment.of_append (segment cs : List Char) : Segment.of (segment ++ cs) =
    ⟨(Segment.of segment).length + bytesOf cs, (Segment.of segment).isDots && cs.all (· = '.')⟩ := by
  rw [Segment.of, String.bytesOf_append, List.all_append]
  rfl

/-- The bytes of a character are read as the character. -/
theorem foldlM_char {c : Char} (hslash : c ≠ '/') :
    (String.utf8EncodeChar c).foldlM segmentByte (.of segment) =
      if isAsciiControl c then none else some (.of (segment ++ [c])) := by
  rw [Segment.of_append]
  rcases Nat.lt_or_ge c.toNat 128 with hlt | hge
  · have hbytes := String.utf8EncodeChar_of_lt hlt
    have hsize := String.length_utf8EncodeChar c
    rw [hbytes, List.length_singleton] at hsize
    have hnat : (UInt8.ofNat c.toNat).toNat = c.toNat :=
      UInt8.toNat_ofNat'.trans (Nat.mod_eq_of_lt (by omega))
    have hbyte {b : UInt8} {d : Char} (hd : b.toNat = d.toNat) : UInt8.ofNat c.toNat = b ↔ c = d := by
      rw [← UInt8.toNat_inj, hnat, hd, Char.toNat_inj]
    have hcontrol : (decide (UInt8.ofNat c.toNat < 32) || UInt8.ofNat c.toNat == 127) =
        isAsciiControl c := by
      have h127 : (UInt8.ofNat c.toNat == 127) = (c.toNat == 127) := by
        rw [Bool.eq_iff_iff, beq_iff_eq, beq_iff_eq, ← UInt8.toNat_inj, hnat]
        rfl
      have h32 : UInt8.ofNat c.toNat < 32 ↔ c.toNat < 32 := by
        rw [UInt8.lt_iff_toNat_lt, hnat]
        rfl
      rw [isAsciiControl, h127, decide_eq_decide.mpr h32]
    have hdot : (UInt8.ofNat c.toNat == 46) = decide (c = '.') := by
      rw [Bool.eq_iff_iff, beq_iff_eq, decide_eq_true_eq]
      exact hbyte rfl
    rw [hbytes, List.foldlM_cons, segmentByte, hcontrol, hdot, if_neg (mt (hbyte rfl).mp hslash)]
    cases isAsciiControl c with
    | true => rfl
    | false => simp [hsize]
  · obtain ⟨b, bs, hc, hb, hbs⟩ := String.utf8EncodeChar_of_le hge
    have hcontrol : isAsciiControl c = false := by
      simp only [isAsciiControl, Bool.or_eq_false_iff, decide_eq_false_iff_not, beq_eq_false_iff_ne]
      omega
    have hdot : c ≠ '.' := by
      rintro rfl
      exact absurd hge (by decide)
    have hlength := String.length_utf8EncodeChar c
    rw [hc] at hlength
    rw [hc, foldlM_segmentByte_of_le (List.forall_mem_cons.mpr ⟨by omega, hbs⟩), hlength, hcontrol]
    simp [hdot]

theorem foldlM_segment (hslash : '/' ∉ cs) :
    (cs.flatMap String.utf8EncodeChar).foldlM segmentByte (.of segment) =
      if cs.any isAsciiControl then none else some (.of (segment ++ cs)) := by
  induction cs generalizing segment with
  | nil => simp
  | cons c cs ih =>
    rw [List.mem_cons, not_or] at hslash
    rw [List.flatMap_cons, List.foldlM_append, foldlM_char (Ne.symm hslash.1), List.any_cons]
    cases isAsciiControl c with
    | true => rfl
    | false =>
      rw [if_neg Bool.false_ne_true, Option.bind_eq_bind, Option.bind_some, ih hslash.2,
        List.append_assoc]
      rfl

theorem bytesOf_replicate (n : Nat) : bytesOf (List.replicate n '.') = n := by
  induction n with
  | zero => rfl
  | succ n ih =>
    rw [List.replicate_succ, String.bytesOf_cons, ih]
    exact Nat.add_comm 1 n

/-- A segment of dots has as many bytes as it has characters. -/
theorem dots_of : (Segment.of segment).dots = isDotSegment segment := by
  by_cases hdots : segment.all (· = '.') = true
  · have hrepeat : segment = List.replicate segment.length '.' :=
      List.eq_replicate_iff.mpr ⟨rfl, fun c hc => of_decide_eq_true (List.all_eq_true.mp hdots c hc)⟩
    rw [Segment.dots, Segment.of, hdots, hrepeat, bytesOf_replicate]
    match segment.length with
    | 0 | 1 | 2 | n + 3 => rfl
  · have hsegment : isDotSegment segment = false := by
      rw [isDotSegment, Bool.or_eq_false_iff, beq_eq_false_iff_ne, beq_eq_false_iff_ne]
      constructor <;> rintro rfl <;> exact hdots (by decide)
    rw [Segment.dots, Segment.of, hsegment, Bool.eq_false_iff.mpr hdots, Bool.false_and]

/-- A slash ends a segment that is neither empty nor one of dots. -/
theorem segmentByte_slash : segmentByte (.of segment) Byte.slash =
    if segment = [] ∨ isDotSegment segment = true then none else some (.of []) := by
  have hlength : ((Segment.of segment).length == 0) = decide (segment = []) := by
    cases segment with
    | nil => rfl
    | cons c segment =>
      have hc := c.utf8Size_pos
      have hlong : bytesOf (c :: segment) ≠ 0 := by
        rw [String.bytesOf_cons]
        omega
      rw [Segment.of, decide_eq_false (List.cons_ne_nil c segment)]
      exact beq_eq_false_iff_ne.mpr hlong
  rw [segmentByte, if_neg (by decide), if_pos rfl, hlength, dots_of]
  simp only [Bool.or_eq_true, decide_eq_true_eq]
  rfl

/-- The loop over the segments of a path. -/
theorem foldlM_segments (hne : segments ≠ []) (hslash : ∀ s ∈ segments, '/' ∉ s) :
    (∃ s, ((['/'].intercalate segments).flatMap String.utf8EncodeChar).foldlM segmentByte (.of []) =
      some s ∧ s.dots = false) ↔
    (∀ s ∈ segments.dropLast, s ≠ []) ∧ (∀ s ∈ segments, isDotSegment s = false) ∧
      (['/'].intercalate segments).any isAsciiControl = false := by
  induction segments with
  | nil => exact absurd rfl hne
  | cons s segments ih =>
    rw [List.forall_mem_cons] at hslash
    cases segments with
    | nil =>
      rw [List.intercalate_singleton, foldlM_segment hslash.1, List.nil_append]
      cases s.any isAsciiControl with
      | true => simp
      | false => simp [dots_of]
    | cons t segments =>
      have ih := ih (List.cons_ne_nil _ _) hslash.2
      rw [List.intercalate_cons_cons, List.append_assoc, List.singleton_append, List.dropLast_cons_cons,
        List.forall_mem_cons, List.forall_mem_cons, List.flatMap_append, List.foldlM_append,
        foldlM_segment hslash.1, List.flatMap_cons, List.any_append, List.any_cons, List.nil_append]
      cases s.any isAsciiControl with
      | true => simp
      | false =>
        have hslash' : String.utf8EncodeChar '/' = [Byte.slash] := rfl
        rw [if_neg Bool.false_ne_true, Option.bind_eq_bind, Option.bind_some, hslash',
          List.singleton_append, List.foldlM_cons, segmentByte_slash]
        have hcontrol : isAsciiControl '/' = false := rfl
        rw [hcontrol, Bool.false_or, Bool.false_or]
        by_cases hbad : s = [] ∨ isDotSegment s = true
        · rw [if_pos hbad]
          refine iff_of_false (by simp) ?_
          rintro ⟨⟨hs, -⟩, ⟨hdots, -⟩, -⟩
          exact hbad.elim hs (fun h => Bool.false_ne_true (hdots.symm.trans h))
        · rw [if_neg hbad, Option.bind_eq_bind, Option.bind_some, ih]
          rw [not_or, Bool.not_eq_true] at hbad
          rw [and_iff_right hbad.1, and_iff_right hbad.2]

theorem isControl_of_ascii {c : Char} (hascii : c.toNat < 128) :
    isControl c = isAsciiControl c := by
  rw [Bool.eq_iff_iff]
  simp only [isControl, isAsciiControl, Bool.or_eq_true, Bool.and_eq_true, decide_eq_true_eq, beq_iff_eq]
  omega

/-- The loop has refused the control characters of ASCII, and a path with other characters is searched
for the rest. -/
theorem no_control_iff : (cs.any isAsciiControl = false ∧
    (cs.all (·.toNat < 128) || !cs.any isControl) = true) ↔ ∀ c ∈ cs, isControl c = false := by
  simp only [List.any_eq_false, Bool.or_eq_true, List.all_eq_true, decide_eq_true_eq,
    Bool.not_eq_true', Bool.not_eq_true]
  constructor
  · rintro ⟨hloop, hascii | hcontrol⟩ c hc
    · rw [isControl_of_ascii (hascii c hc)]
      exact hloop c hc
    · exact hcontrol c hc
  · intro h
    refine ⟨fun c hc => ?_, .inr h⟩
    have hcontrol := h c hc
    rcases Nat.lt_or_ge c.toNat 128 with hlt | hge
    · rwa [isControl_of_ascii hlt] at hcontrol
    · simp only [isAsciiControl, Bool.or_eq_false_iff, decide_eq_false_iff_not, beq_eq_false_iff_ne]
      omega

/-- Only a slash begins with the byte of a slash. -/
theorem eq_slash_of_byte {c : Char} {bs : List UInt8}
    (h : String.utf8EncodeChar c = Byte.slash :: bs) : c = '/' := by
  rcases Nat.lt_or_ge c.toNat 128 with hlt | hge
  · rw [String.utf8EncodeChar_of_lt hlt] at h
    have hnat := congrArg UInt8.toNat (List.cons.inj h).1
    rw [UInt8.toNat_ofNat', Nat.mod_eq_of_lt (by omega)] at hnat
    exact Char.toNat_inj.mp hnat
  · obtain ⟨b, bs', hc, hb, -⟩ := String.utf8EncodeChar_of_le hge
    rw [hc] at h
    rw [(List.cons.inj h).1] at hb
    exact absurd hb (by decide)

theorem safeFilePath_cons : safeFilePath path = true ↔ ∃ rest, path.toList = '/' :: rest ∧
    (∃ s, (rest.flatMap String.utf8EncodeChar).foldlM segmentByte (.of []) = some s ∧
      s.dots = false) ∧ (path.toList.all (·.toNat < 128) || !path.toList.any isControl) = true := by
  rw [safeFilePath, String.asBytes_eq_flatMap]
  cases hpath : path.toList with
  | nil => simp
  | cons c rest =>
    by_cases hc : c = '/'
    · subst hc
      have hbytes : ('/' :: rest).flatMap String.utf8EncodeChar =
          Byte.slash :: rest.flatMap String.utf8EncodeChar := rfl
      simp only [hbytes, beq_self_eq_true, Bool.true_and, List.cons.injEq, true_and,
        exists_eq_left']
      have hinitial : (⟨0, true⟩ : Segment) = .of [] := rfl
      rw [hinitial]
      cases (rest.flatMap String.utf8EncodeChar).foldlM segmentByte (.of []) with
      | none => simp
      | some s => simp
    · refine iff_of_false (fun h => hc ?_) ?_
      · obtain ⟨b, bs, hbytes⟩ := List.exists_cons_of_ne_nil (@String.utf8EncodeChar_ne_nil c)
        rw [List.flatMap_cons, hbytes, List.cons_append] at h
        have hb : b = Byte.slash := by
          rw [Bool.and_eq_true, beq_iff_eq] at h
          exact h.1
        exact eq_slash_of_byte (hb ▸ hbytes)
      · rintro ⟨rest', heq, -⟩
        exact hc (List.cons.inj heq).1

theorem safeFilePath_iff : safeFilePath path = true ↔ IsFilePath path := by
  rw [safeFilePath_cons, isFilePath_iff]
  refine exists_congr fun rest => and_congr_right fun hpath => ?_
  have hloop := foldlM_segments (List.splitOn_ne_nil '/' rest) fun s hs => List.notMem_of_mem_splitOn hs
  rw [List.intercalate_splitOn] at hloop
  have hany : ('/' :: rest).any isAsciiControl = rest.any isAsciiControl := rfl
  rw [hloop, and_assoc, and_assoc, ← no_control_iff, hpath, hany]

end Dnfast.Metadata
