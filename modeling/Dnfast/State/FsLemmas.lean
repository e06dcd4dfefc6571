import Dnfast.State.Fs

/-! # Names and publication

Record names determine their sequence, temporary names are never record names, and a publication
(`writeRecord`, `writeAtomicReplacing`) touches two names only: the temporary one and the final one.

`Scratched` and `Published` are the two kinds of directory that a publication can leave behind,
whatever fails and wherever the process dies. -/

namespace Dnfast.State

open Durable Durable.Exec
open Std (ExtTreeMap)

/-! ## Names -/

theorem ofDigitChars_padded (n : Nat) : Nat.ofDigitChars 10 (padded n) 0 = n := by
  rw [padded, Nat.ofDigitChars_append, Nat.ofDigitChars_replicate_zero, Nat.mul_zero]
  exact Nat.ofDigitChars_toDigits (by decide) (by decide)

theorem decimal_injective {m n : Nat} (h : decimal m = decimal n) : m = n := by
  have := congrArg (fun ds => Nat.ofDigitChars 10 ds 0) h
  simpa [decimal, Nat.ofDigitChars_toDigits] using this

theorem padded_injective {m n : Nat} (h : padded m = padded n) : m = n := by
  have := congrArg (fun ds => Nat.ofDigitChars 10 ds 0) h
  simpa [ofDigitChars_padded] using this

/-- A 64-bit sequence has at most 20 digits. -/
theorem length_padded (n : UInt64) : (padded n.toNat).length = 20 := by
  have hlen : (decimal n.toNat).length ≤ 20 := by
    refine (Nat.length_toDigits_le_iff (by decide) (by decide)).mpr ?_
    have := n.toNat_lt
    omega
  simp only [padded, List.length_append, List.length_replicate]
  omega

theorem recordName_injective {m n : UInt64} (h : recordName m = recordName n) : m = n := by
  have h' := String.ofList_inj.mp h
  exact UInt64.toNat_inj.mp (padded_injective (List.append_cancel_right h'))

@[simp] theorem recordName_inj {m n : UInt64} : recordName m = recordName n ↔ m = n :=
  ⟨recordName_injective, congrArg _⟩

theorem recordTemporary_injective {m n : UInt64} {i j : UInt32}
    (h : recordTemporary m i = recordTemporary n j) : m = n ∧ i = j := by
  have h' := String.ofList_inj.mp h
  simp only [List.cons.injEq, true_and] at h'
  obtain ⟨hm, hi⟩ := List.append_inj h' (by rw [length_padded, length_padded])
  exact ⟨UInt64.toNat_inj.mp (padded_injective hm),
    UInt32.toNat_inj.mp (decimal_injective (List.append_cancel_left hi))⟩

@[simp] theorem endsWith_recordName (n : UInt64) : endsWith (recordName n) ".json" = true := by
  simp [endsWith, recordName]

theorem decimal_ne_nil (n : Nat) : decimal n ≠ [] := by
  simp [decimal]

/-- A name that ends in a decimal numeral is not a record's. -/
theorem not_endsWith_of_decimal {name : String} {l : List Char} {n : Nat}
    (h : name.toList = l ++ decimal n) : endsWith name ".json" = false := by
  rw [endsWith, Bool.eq_false_iff, Ne, List.isSuffixOf_iff_suffix]
  rintro ⟨t, ht⟩
  have hlast : (decimal n).getLast (decimal_ne_nil n) = 'n' := by
    have := congrArg List.getLast? (ht.trans h)
    rw [List.getLast?_append_of_ne_nil _ (decimal_ne_nil n)] at this
    rw [← Option.some_inj, ← List.getLast?_eq_some_getLast, ← this]
    simp
  have hd := Nat.isDigit_of_mem_toDigits (b := 10) (by decide) (by decide)
    (List.getLast_mem (decimal_ne_nil n))
  rw [hlast] at hd
  exact absurd hd (by decide)

@[simp] theorem endsWith_recordTemporary (n : UInt64) (pid : UInt32) :
    endsWith (recordTemporary n pid) ".json" = false := by
  refine not_endsWith_of_decimal (l := '.' :: (padded n.toNat ++ ".tmp-".toList)) (n := pid.toNat) ?_
  simp [recordTemporary]

@[simp] theorem endsWith_replacementTemporary (name : String) (pid : UInt32) :
    endsWith (replacementTemporary name pid) ".json" = false := by
  refine not_endsWith_of_decimal (l := '.' :: (name.toList ++ ".tmp-".toList)) (n := pid.toNat) ?_
  simp [replacementTemporary]

theorem recordTemporary_ne_recordName (m n : UInt64) (pid : UInt32) :
    recordTemporary m pid ≠ recordName n := by
  intro h
  have := endsWith_recordTemporary m pid
  simp [h] at this

/-! ## Files -/

@[simp] theorem verify_freshStat (euid : UInt32) (oneLink : Bool) :
    verify euid (Directory.freshStat euid) false oneLink = .ok () := by
  have h : (0o100600 : UInt32) &&& 0o170000 = 0o100000 ∧ (0o100600 : UInt32) &&& 0o777 = 0o600 := by
    decide
  simp [verify, Directory.freshStat, h]

@[simp] theorem freshStat_isDirectory (euid : UInt32) :
    (Directory.freshStat euid).isDirectory = false :=
  show ((0o100600 : UInt32) &&& 0o170000 == 0o040000) = false by decide

@[simp] theorem freshStat_isSymlink (euid : UInt32) :
    (Directory.freshStat euid).isSymlink = false :=
  show ((0o100600 : UInt32) &&& 0o170000 == 0o120000) = false by decide

namespace Directory

theorem ext {d d' : Directory} (hs : d.stat = d'.stat)
    (hf : ∀ n : String, d.files[n]? = d'.files[n]?) : d = d' := by
  cases d
  cases d'
  simp only at hs hf
  simp [hs, ExtTreeMap.ext_getElem? hf]

theorem mem_files_iff {d : Directory} {n : String} : n ∈ d.files ↔ d.files[n]? ≠ none := by
  rw [ExtTreeMap.mem_iff_isSome_getElem?, Option.isSome_iff_ne_none]

theorem mem_childNames {d : Directory} {n : String} :
    n ∈ d.childNames ↔ d.files[n]? ≠ none := by
  rw [childNames, ExtTreeMap.mem_keys, mem_files_iff]

/-- `d'` differs from `d` in the file `name` only, which was left alone, removed, or left as a
fresh file with some bytes in it. -/
structure Scratched (euid : UInt32) (name : String) (d d' : Directory) : Prop where
  stat : d'.stat = d.stat
  others : ∀ n, n ≠ name → d'.files[n]? = d.files[n]?
  scratch : d'.files[name]? = d.files[name]? ∨ d'.files[name]? = none ∨
    ∃ bytes, d'.files[name]? = some ⟨freshStat euid, bytes⟩

/-- `d'` is `d` with the file `name` in place and without the file `temporary`. -/
structure Published (temporary name : String) (file : File) (d d' : Directory) : Prop where
  stat : d'.stat = d.stat
  others : ∀ n, n ≠ name → n ≠ temporary → d'.files[n]? = d.files[n]?
  temporary : d'.files[temporary]? = none
  file : d'.files[name]? = some file

theorem Scratched.refl (euid : UInt32) (name : String) (d : Directory) :
    Scratched euid name d d :=
  ⟨rfl, fun _ _ => rfl, .inl rfl⟩

/-- The temporary file is open in `d'` and holds `bytes`. -/
structure Filling (euid : UInt32) (name : String) (bytes : List UInt8) (d d' : Directory) :
    Prop where
  stat : d'.stat = d.stat
  others : ∀ n, n ≠ name → d'.files[n]? = d.files[n]?
  file : d'.files[name]? = some ⟨freshStat euid, bytes⟩

theorem Filling.scratched {euid : UInt32} {name : String} {bytes : List UInt8}
    {d d' : Directory} (h : Filling euid name bytes d d') : Scratched euid name d d' :=
  ⟨h.stat, h.others, .inr (.inr ⟨bytes, h.file⟩)⟩

theorem Filling.fchmod {euid : UInt32} {name : String} {bytes : List UInt8}
    {d d' : Directory} (h : Filling euid name bytes d d') :
    Filling euid name bytes d (d'.fchmod name) where
  stat := h.stat
  others n hn := by
    simpa [Directory.fchmod, ExtTreeMap.getElem?_modify, Ne.symm hn] using h.others n hn
  file := by
    simp [Directory.fchmod, h.file, freshStat]

theorem Filling.append {euid : UInt32} {name : String} {bytes : List UInt8}
    {d d' : Directory} (h : Filling euid name bytes d d') (byte : UInt8) :
    Filling euid name (bytes ++ [byte]) d (d'.append name byte) where
  stat := h.stat
  others n hn := by
    simpa [Directory.append, ExtTreeMap.getElem?_modify, Ne.symm hn] using h.others n hn
  file := by
    simp [Directory.append, h.file]

theorem Filling.renameat {euid : UInt32} {name target : String} {bytes : List UInt8}
    {d d' d'' : Directory} (h : Filling euid name bytes d d') (hne : name ≠ target)
    (hok : d'.renameat name target = .ok ((), d'')) :
    Published name target ⟨freshStat euid, bytes⟩ d d'' := by
  unfold Directory.renameat at hok
  rw [h.file] at hok
  simp only at hok
  split at hok
  · cases hok
  · cases hok
    refine ⟨h.stat, fun n hn hn' => ?_, ?_, ?_⟩
    · simpa [ExtTreeMap.getElem?_insert, ExtTreeMap.getElem?_erase, Ne.symm hn, Ne.symm hn']
        using h.others n hn'
    · simp [hne.symm]
    · simp

theorem openExclusive_filling {euid : UInt32} {name : String} {d d' : Directory}
    (hok : d.openExclusive euid name = .ok ((), d')) : Filling euid name [] d d' := by
  unfold openExclusive at hok
  split at hok
  · cases hok
  · cases hok
    refine ⟨rfl, fun n hn => ?_, by simp⟩
    simp [ExtTreeMap.getElem?_insert, Ne.symm hn]

theorem unlinkat_eq_ok {name : String} {d d' : Directory}
    (hok : d.unlinkat name = .ok ((), d')) : d' = { d with files := d.files.erase name } := by
  unfold unlinkat at hok
  split at hok
  · cases hok
  · split at hok
    · cases hok
    · cases hok
      rfl

theorem Scratched.unlinkat {euid : UInt32} {name : String} {d d' d'' : Directory}
    (h : Scratched euid name d d') (hok : d'.unlinkat name = .ok ((), d'')) :
    Scratched euid name d d'' := by
  rw [unlinkat_eq_ok hok]
  refine ⟨h.stat, fun n hn => ?_, .inr (.inl (by simp))⟩
  simpa [ExtTreeMap.getElem?_erase, Ne.symm hn] using h.others n hn

theorem Published.unlinkat {temporary name : String} {file : File} {d d' : Directory}
    (h : Published temporary name file d d') :
    d'.unlinkat temporary = .error (errno .noent) := by
  simp [Directory.unlinkat, h.temporary]

/-- What a publication has done to `d` when it did not complete. -/
def Interrupted (euid : UInt32) (temporary name : String) (bytes : List UInt8)
    (d d' : Directory) : Prop :=
  Scratched euid temporary d d' ∨ Published temporary name ⟨freshStat euid, bytes⟩ d d'

end Directory

/-! ## Publication -/

open Directory

section
variable {A : Fate StateError → Prop} {euid : UInt32} {temporary name : String}
  {bytes : List UInt8} {d d' : Directory}

/-- The directory entry that a rename would replace is not a directory. -/
def Replaceable (d : Directory) (name : String) : Prop :=
  ∀ old, d.files[name]? = some old → old.stat.isDirectory = false

/-- Where a program that has the temporary file open may end, before the rename. -/
def FillingEnd (A : Fate StateError → Prop) (euid : UInt32) (temporary : String)
    (bytes : List UInt8) (d : Directory) : Outcome StateError Unit → Directory → Prop
  | .ok _, d' => Filling euid temporary bytes d d'
  | .err _, d' => (∃ e, A (.fail e)) ∧ Scratched euid temporary d d'
  | .crashed, d' => A .die ∧ Scratched euid temporary d d'

/-- Where a publication that has its temporary file may end. -/
def PublishEnd (A : Fate StateError → Prop) (euid : UInt32) (temporary name : String)
    (bytes : List UInt8) (d : Directory) : Outcome StateError Unit → Directory → Prop
  | .ok _, d' => Published temporary name ⟨freshStat euid, bytes⟩ d d'
  | .err _, d' => ((∃ e, A (.fail e)) ∨ ¬ Replaceable d name) ∧
      Interrupted euid temporary name bytes d d'
  | .crashed, d' => A .die ∧ Interrupted euid temporary name bytes d d'

theorem filling_bind {m : Exec Directory StateError Unit}
    {f : Unit → Exec Directory StateError Unit} {written : List UInt8}
    (hm : Sat A m d' (FillingEnd A euid temporary written d))
    (hf : ∀ d₁, Filling euid temporary written d d₁ →
      Sat A (f ()) d₁ (PublishEnd A euid temporary name bytes d)) :
    Sat A (m >>= f) d' (PublishEnd A euid temporary name bytes d) := by
  refine sat_bind (hm.mono ?_)
  rintro (_ | e | _) d₁ h₁
  · exact hf d₁ h₁
  · exact ⟨.inl h₁.1, .inl h₁.2⟩
  · exact ⟨h₁.1, .inl h₁.2⟩

theorem change_filling_sat {update : Directory → Directory} {written : List UInt8}
    (h : Filling euid temporary written d d') (hu : Filling euid temporary bytes d (update d')) :
    Sat A (Exec.change update) d' (FillingEnd A euid temporary bytes d) :=
  sat_change (fun hA => ⟨hA, h.scratched⟩) (fun e hA => ⟨⟨e, hA⟩, h.scratched⟩) hu

theorem check_filling_sat (faults : Bool) (point : FaultPoint)
    (h : Filling euid temporary bytes d d') :
    Sat A (checkIf faults point) d' (FillingEnd A euid temporary bytes d) := by
  cases faults with
  | true => exact change_filling_sat h h
  | false => exact sat_pure h

theorem writeAll_sat (bytes : List UInt8) {before : List UInt8}
    (h : Filling euid temporary before d d') :
    Sat A (writeAll temporary bytes) d' (FillingEnd A euid temporary (before ++ bytes) d) := by
  -- the bytes in the file and those left to write make up the whole
  refine sat_forEach (I := fun rest d'' => ∃ done, done ++ rest = before ++ bytes ∧
      Filling euid temporary done d d'') ⟨before, rfl, h⟩ ?_ ?_
  · rintro d'' ⟨done, hdone, hfill⟩
    rw [List.append_nil] at hdone
    exact hdone ▸ hfill
  · rintro byte rest d'' ⟨done, hdone, hfill⟩
    refine (change_filling_sat hfill (hfill.append byte)).mono ?_
    rintro (_ | _ | _) d₁ h₁
    · exact ⟨done ++ [byte], by simpa using hdone, h₁⟩
    · exact h₁
    · exact h₁

theorem fillAndRename_sat (faults : Bool) (hne : temporary ≠ name)
    (h : Filling euid temporary [] d d') :
    Sat A (fillAndRename temporary name bytes faults) d'
      (PublishEnd A euid temporary name bytes d) := by
  unfold fillAndRename
  refine filling_bind (change_filling_sat h h.fchmod) fun d₁ h₁ => ?_
  refine filling_bind (check_filling_sat faults .write h₁) fun d₂ h₂ => ?_
  refine filling_bind (writeAll_sat bytes h₂) fun d₃ h₃ => ?_
  rw [List.nil_append] at h₃
  refine filling_bind (check_filling_sat faults .fileSync h₃) fun d₄ h₄ => ?_
  refine filling_bind (change_filling_sat h₄ h₄) fun d₅ h₅ => ?_
  refine filling_bind (check_filling_sat faults .publish h₅) fun d₆ h₆ => ?_
  refine sat_bind (sat_step (fun hA => ⟨hA, .inl h₆.scratched⟩)
    (fun e hA => ⟨.inl ⟨e, hA⟩, .inl h₆.scratched⟩) ?_ ?_)
  · rintro ⟨⟩ d₇ hok
    have h₇ := h₆.renameat hne hok
    exact sat_sync (fun hA => ⟨hA, .inr h₇⟩) (fun e hA => ⟨.inl ⟨e, hA⟩, .inr h₇⟩) h₇
  · intro e hrefused
    refine ⟨.inr fun hrep => ?_, .inl h₆.scratched⟩
    simp only [Directory.renameat, h₆.file, h₆.others name hne.symm] at hrefused
    split at hrefused
    · rename_i hdir
      obtain ⟨old, hold, hisdir⟩ := (Option.any_eq_true _ _).mp hdir
      simp [hrep old hold] at hisdir
    · cases hrefused

/-- The open temporary file, filled and renamed under its cleanup guard. -/
theorem guarded_sat (faults : Bool) (hne : temporary ≠ name)
    (h : Filling euid temporary [] d d') :
    Sat A (onErr (fillAndRename temporary name bytes faults) (tempCleanup temporary)) d'
      (PublishEnd A euid temporary name bytes d) := by
  refine sat_onErr ((fillAndRename_sat faults hne h).mono ?_)
  rintro (_ | e | _) d₁ h₁
  · exact h₁
  · obtain ⟨hwhy, hs | hp⟩ := h₁
    · refine sat_step (fun hA => ⟨hA, .inl hs⟩) (fun _ _ => ⟨hwhy, .inl hs⟩) ?_
        fun _ _ => ⟨hwhy, .inl hs⟩
      rintro ⟨⟩ d₂ hok
      exact ⟨hwhy, .inl (hs.unlinkat hok)⟩
    · refine sat_step (fun hA => ⟨hA, .inr hp⟩) (fun _ _ => ⟨hwhy, .inr hp⟩) ?_
        fun _ _ => ⟨hwhy, .inr hp⟩
      rintro ⟨⟩ d₂ hok
      rw [hp.unlinkat] at hok
      cases hok
  · exact h₁

end

/-- Where `write_record` may end. It refuses a sequence that is taken and a temporary name that is
taken, and changes nothing then. Otherwise a failure or a crash leaves the directory scratched or
the record published. -/
def WriteRecordEnd (A : Fate StateError → Prop) (p : Process) (sequence : UInt64)
    (bytes : List UInt8) (d : Directory) : Outcome StateError Unit → Directory → Prop
  | .ok _, d' => recordTemporary sequence p.pid ∉ d.files ∧
      Published (recordTemporary sequence p.pid) (recordName sequence)
        ⟨freshStat p.euid, bytes⟩ d d'
  | .err e, d' =>
      (d' = d ∧ ((∃ f, d.openRead (recordName sequence) = .ok f) ∨
        (recordTemporary sequence p.pid ∈ d.files ∧ e = errno .exist))) ∨
      ((∃ e, A (.fail e)) ∧ Interrupted p.euid (recordTemporary sequence p.pid)
        (recordName sequence) bytes d d')
  | .crashed, d' => A .die ∧ Interrupted p.euid (recordTemporary sequence p.pid)
      (recordName sequence) bytes d d'

theorem requireFree_sat {A : Fate StateError → Prop} {name : String} {d : Directory} :
    Sat A (requireFree name) d fun
      | .ok _, d' => d' = d ∧ ((∃ e, A (.fail e)) ∨ Replaceable d name)
      | .err _, d' => d' = d ∧ ∃ f, d.openRead name = .ok f
      | .crashed, d' => d' = d ∧ A .die := by
  refine sat_bind (sat_attempt (sat_observe (fun hA => ⟨rfl, hA⟩) ?_ ?_ ?_))
  · intro e hA
    simp only [Caught, Then]
    exact sat_pure ⟨rfl, .inl ⟨e, hA⟩⟩
  · intro f hf
    simp only [Caught, Then]
    exact sat_throw ⟨rfl, f, hf⟩
  · intro e he
    simp only [Caught, Then]
    refine sat_pure ⟨rfl, .inr fun old hold => ?_⟩
    -- a directory can be opened for reading, so what could not be opened is none
    simp only [openRead, hold] at he
    split at he
    · rename_i hlink
      simp only [Stat.isSymlink, beq_iff_eq] at hlink
      simp [Stat.isDirectory, hlink]
    · cases he

theorem writeRecord_sat {A : Fate StateError → Prop} (p : Process) (sequence : UInt64)
    (bytes : List UInt8) (d : Directory) :
    Sat A (writeRecord p sequence bytes) d (WriteRecordEnd A p sequence bytes d) := by
  have hne := recordTemporary_ne_recordName sequence sequence p.pid
  have hscratch := Scratched.refl p.euid (recordTemporary sequence p.pid) d
  refine sat_bind (requireFree_sat.mono ?_)
  rintro (_ | e | _) d₀ h₀
  · obtain ⟨rfl, hfree⟩ := h₀
    refine sat_bind (sat_step (fun hA => ⟨hA, .inl hscratch⟩)
      (fun e hA => .inr ⟨⟨e, hA⟩, .inl hscratch⟩) ?_ ?_)
    · rintro ⟨⟩ d₁ hopen
      have hnew : recordTemporary sequence p.pid ∉ d₀.files := by
        intro hmem
        simp [openExclusive, hmem] at hopen
      refine sat_bind ((guarded_sat true hne (openExclusive_filling hopen)).mono ?_)
      rintro (_ | e | _) d₂ h₂
      · exact sat_sync (fun hA => ⟨hA, .inr h₂⟩) (fun e hA => .inr ⟨⟨e, hA⟩, .inr h₂⟩)
          ⟨hnew, h₂⟩
      · exact .inr ⟨h₂.1.elim id fun hrep => hfree.resolve_right hrep, h₂.2⟩
      · exact h₂
    · intro e hopen
      unfold openExclusive at hopen
      split at hopen
      · rename_i hmem
        cases hopen
        exact .inl ⟨rfl, .inr ⟨hmem, rfl⟩⟩
      · cases hopen
  · exact .inl ⟨h₀.1, .inl h₀.2⟩
  · exact ⟨h₀.2, .inl (h₀.1 ▸ hscratch)⟩

theorem replacementTemporary_ne_self (name : String) (pid : UInt32) :
    replacementTemporary name pid ≠ name := by
  intro h
  have hlen := congrArg (fun s => s.toList.length) h
  simp only [replacementTemporary, String.toList_ofList, List.length_cons,
    List.length_append] at hlen
  omega

/-- Where `write_atomic_replacing` may end. It removes what an earlier attempt left, so that only a
directory in the place of the temporary or the final file can stop it. -/
def ReplaceEnd (A : Fate StateError → Prop) (p : Process) (name : String) (bytes : List UInt8)
    (d : Directory) : Outcome StateError Unit → Directory → Prop
  | .ok _, d' => Replaceable d (replacementTemporary name p.pid) ∧
      Published (replacementTemporary name p.pid) name ⟨freshStat p.euid, bytes⟩ d d'
  | .err _, d' => ((∃ e, A (.fail e)) ∨ ¬ Replaceable d (replacementTemporary name p.pid) ∨
        ¬ Replaceable d name) ∧
      Interrupted p.euid (replacementTemporary name p.pid) name bytes d d'
  | .crashed, d' => A .die ∧
      Interrupted p.euid (replacementTemporary name p.pid) name bytes d d'

section
variable {A : Fate StateError → Prop} {p : Process} {name : String} {bytes : List UInt8}
  {d d₁ : Directory}

/-- The directory once the leftover of an earlier attempt is out of the way, or could not be
removed. -/
structure Cleared (A : Fate StateError → Prop) (euid : UInt32) (temporary : String)
    (d d₁ : Directory) : Prop where
  scratched : Scratched euid temporary d d₁
  gone : (∃ e, A (.fail e)) ∨ (Replaceable d temporary → d₁.files[temporary]? = none)
  replaceable : d₁.files[temporary]? = none → Replaceable d temporary

theorem unlinkat_cleared (temporary : String) :
    Sat A (attempt (step (unlinkat temporary))) d fun
      | .ok _, d₁ => Cleared A p.euid temporary d d₁
      | .err _, _ => False
      | .crashed, d₁ => A .die ∧ d₁ = d := by
  have hscratch := Scratched.refl p.euid temporary d
  have habsent : d.files[temporary]? = none → Replaceable d temporary := by
    intro h old hold
    rw [h] at hold
    cases hold
  refine sat_attempt (sat_step (fun hA => ⟨hA, rfl⟩) ?_ ?_ ?_)
  · intro e hA
    exact ⟨hscratch, .inl ⟨e, hA⟩, habsent⟩
  · rintro ⟨⟩ d₁ hok
    refine ⟨hscratch.unlinkat hok, .inr fun _ => by simp [unlinkat_eq_ok hok], fun _ => ?_⟩
    intro old hold
    simp only [unlinkat, hold] at hok
    split at hok
    · cases hok
    · simp_all
  · intro e hrefused
    refine ⟨hscratch, .inr fun hrep => ?_, habsent⟩
    simp only [unlinkat] at hrefused
    split at hrefused
    · assumption
    · rename_i file hfile
      simp [hrep file hfile] at hrefused

theorem writeAtomicReplacing_sat (p : Process) (name : String) (bytes : List UInt8)
    (d : Directory) :
    Sat A (writeAtomicReplacing p name bytes) d (ReplaceEnd A p name bytes d) := by
  have hne := replacementTemporary_ne_self name p.pid
  refine sat_bind ((unlinkat_cleared (p := p) (replacementTemporary name p.pid)).mono ?_)
  rintro (_ | e | _) d₁ h₁
  · refine sat_bind (sat_step (fun hA => ⟨hA, .inl h₁.scratched⟩)
      (fun e hA => ⟨.inl ⟨e, hA⟩, .inl h₁.scratched⟩) ?_ ?_)
    · rintro ⟨⟩ d₂ hopen
      have hnew : d₁.files[replacementTemporary name p.pid]? = none := by
        by_contra hmem
        simp [openExclusive, mem_files_iff.mpr hmem] at hopen
      have hfill := openExclusive_filling hopen
      have hfill' : Filling p.euid (replacementTemporary name p.pid) [] d d₂ :=
        ⟨hfill.stat.trans h₁.scratched.stat,
          fun n hn => (hfill.others n hn).trans (h₁.scratched.others n hn), hfill.file⟩
      refine (guarded_sat false hne hfill').mono ?_
      rintro (_ | e | _) d₃ h₃
      · exact ⟨h₁.replaceable hnew, h₃⟩
      · exact ⟨h₃.1.imp_right .inr, h₃.2⟩
      · exact h₃
    · intro e hopen
      refine ⟨?_, .inl h₁.scratched⟩
      rcases h₁.gone with hfail | hgone
      · exact .inl hfail
      · refine .inr (.inl fun hrep => ?_)
        simp [openExclusive, mem_files_iff, hgone hrep] at hopen
  · exact h₁.elim
  · exact ⟨h₁.1, .inl (h₁.2 ▸ Scratched.refl _ _ _)⟩

end

/-! ## Directories of one user -/

/-- Every file is a regular file that the user `euid` created. -/
def AllFresh (euid : UInt32) (d : Directory) : Prop :=
  ∀ (name : String) file, d.files[name]? = some file → file.stat = freshStat euid

theorem AllFresh.replaceable {euid : UInt32} {d : Directory} (h : AllFresh euid d)
    (name : String) : Replaceable d name := by
  intro old hold
  rw [h name old hold]
  exact freshStat_isDirectory euid

theorem AllFresh.published {euid : UInt32} {temporary name : String} {bytes : List UInt8}
    {d d' : Directory} (h : AllFresh euid d)
    (hpub : Published temporary name ⟨freshStat euid, bytes⟩ d d') : AllFresh euid d' := by
  intro n file hfile
  by_cases hname : n = name
  · rw [hname, hpub.file] at hfile
    cases hfile
    rfl
  · by_cases htemp : n = temporary
    · rw [htemp, hpub.temporary] at hfile
      cases hfile
    · exact h n file (hpub.others n hname htemp ▸ hfile)

end Dnfast.State
