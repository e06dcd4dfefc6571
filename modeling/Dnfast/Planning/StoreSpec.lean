import Dnfast.Durable.Ensures
import Dnfast.Planning.Publication

/-! # What the operations of the store do

One specification for each operation on a directory of the store. Each says how the directory may
differ wherever the operation ends, what it has when the operation returns, and under which condition
the operation returns unless a step is made to fail. -/

namespace Dnfast.Planning

open Durable
open Core (isLowerDigest)

variable {A : Fate (Fault PlanningError) → Prop}

/-! ## Names -/

theorem isLowerDigest_temporaryName (occasion : Occasion) (base : String) :
    isLowerDigest (temporaryName occasion base) = false := by
  simp only [isLowerDigest, temporaryName, String.toList_ofList, List.all_cons]
  have hdot : decide ('.' ∈ Core.lowerHexDigits) = false := by decide
  rw [hdot, Bool.false_and, Bool.and_false]

theorem temporaryName_ne_current (occasion : Occasion) (base : String) :
    temporaryName occasion base ≠ currentPointerName := by
  intro h
  have hhead := congrArg (fun name : String => name.toList.head?) h
  simp only [temporaryName, String.toList_ofList, List.head?_cons] at hhead
  exact absurd hhead (by decide)

theorem temporaryName_ne {occasion : Occasion} {base name : String} (h : isLowerDigest name = true) :
    temporaryName occasion base ≠ name := by
  rintro rfl
  rw [isLowerDigest_temporaryName] at h
  cases h

theorem mem_readDir {occasion : Occasion} {names : List String} {name : String} :
    name ∈ occasion.readDir names ↔ name ∈ names :=
  (occasion.complete names).mem_iff

/-! ## Reading and checking -/

section
variable {σ α : Type} {f : σ → Except PlanningError α} {x : Except PlanningError α} {s : σ}
  {I : σ → Prop} {good : Prop} {P : α → σ → Prop}

theorem liftRun_eq_ok {a : α} : liftRun x = .ok a ↔ x = .ok a := Except.mapError_eq_ok

theorem exists_of_liftRun_eq_error {e : Fault PlanningError} (h : liftRun x = .error e) :
    ∃ e', x = .error e' := by
  cases x with
  | error e' => exact ⟨e', rfl⟩
  | ok a => cases h

theorem ensures_reading (hI : I s) (hok : ∀ a, f s = .ok a → P a s)
    (herr : ∀ e, f s = .error e → Exec.NoFail A → ¬ good) : (reading f).Ensures A s I good P := by
  refine Exec.Ensures.observe hI (fun a ha => hok a (liftRun_eq_ok.mp ha)) fun e he => ?_
  obtain ⟨e', he'⟩ := exists_of_liftRun_eq_error he
  exact herr e' he'

theorem ensures_checking (hI : I s) (hok : ∀ a, x = .ok a → P a s)
    (herr : ∀ e, x = .error e → Exec.NoFail A → ¬ good) :
    (checking x : Action σ α).Ensures A s I good P := by
  refine Exec.Ensures.lift hI (fun a ha => hok a (liftRun_eq_ok.mp ha)) fun e he => ?_
  obtain ⟨e', he'⟩ := exists_of_liftRun_eq_error he
  exact herr e' he'

end

/-! ## Files -/

/-- Only the entry `name` may differ, and nothing was flushed. -/
structure Apart {α : Type} (name : String) (f f' : Folder α) : Prop where
  disk : f'.disk = f.disk
  others : ∀ other, other ≠ name → f'.now[other]? = f.now[other]?

section
variable {α : Type} {name : String} {f f' : Folder α}

theorem Apart.refl (name : String) (f : Folder α) : Apart name f f := ⟨rfl, fun _ _ => rfl⟩

theorem Apart.put (h : Apart name f f') (a : α) : Apart name f (f'.put name a) := by
  refine ⟨h.disk, fun other hother => ?_⟩
  rw [Folder.getElem?_put, if_neg hother.symm]
  exact h.others other hother

theorem Apart.modify (h : Apart name f f') (g : α → α) : Apart name f (f'.modify name g) := by
  refine ⟨h.disk, fun other hother => ?_⟩
  rw [Folder.getElem?_modify, if_neg hother.symm]
  exact h.others other hother

theorem Apart.remove (h : Apart name f f') : Apart name f (f'.remove name) := by
  refine ⟨h.disk, fun other hother => ?_⟩
  rw [Folder.getElem?_remove, if_neg hother.symm]
  exact h.others other hother

end

section
variable {name : String} {bytes : List UInt8} {f f₀ : Folder File} {good : Prop}

theorem ensures_createNew (hI : Apart name f₀ f) (hgood : good → name ∉ f.now) :
    (createNew name).Ensures A f (Apart name f₀) good fun _ f' =>
      f'.now[name]? = some ⟨[], false⟩ := by
  refine Exec.Ensures.step hI ?_ ?_
  · intro _ f' h
    split at h
    · cases h
    · cases h
      refine ⟨hI.put _, ?_⟩
      rw [Folder.getElem?_put, if_pos rfl]
  · intro e h _ hg
    rw [if_neg (hgood hg)] at h
    cases h

theorem ensures_writeAll (hI : Apart name f₀ f) {file : File} (hfile : f.now[name]? = some file)
    (hgood : good → bytes.length < 2 ^ 63) :
    (writeAll name bytes).Ensures A f (Apart name f₀) good fun _ f' =>
      f'.now[name]? = some ⟨bytes, false⟩ ∧ bytes.length < 2 ^ 63 := by
  refine Exec.Ensures.step hI ?_ ?_
  · intro _ f' h
    split at h
    next hlength =>
      cases h
      refine ⟨hI.modify _, ?_, hlength⟩
      rw [Folder.getElem?_modify, if_pos rfl, hfile, Option.map_some]
    · cases h
  · intro e h _ hg
    rw [if_pos (hgood hg)] at h
    cases h

theorem ensures_syncAll (hI : Apart name f₀ f) {file : File} (hfile : f.now[name]? = some file) :
    (syncAll name).Ensures A f (Apart name f₀) good fun _ f' =>
      f'.now[name]? = some { file with flushed := true } := by
  refine Exec.Ensures.change hI (hI.modify _) ?_
  rw [Folder.getElem?_modify, if_pos rfl, hfile, Option.map_some]

theorem ensures_writeFileDeferred (name : String) (bytes : List UInt8) (f : Folder File) :
    (writeFileDeferred name bytes).Ensures A f (Apart name f)
      (name ∉ f.now ∧ bytes.length < 2 ^ 63) fun _ f' =>
        f'.now[name]? = some ⟨bytes, false⟩ ∧ bytes.length < 2 ^ 63 := by
  refine Exec.Ensures.bind (ensures_createNew (.refl name f) (·.1)) fun _ f₁ hI₁ hnew => ?_
  refine Exec.Ensures.bind (ensures_writeAll hI₁ hnew (·.2)) fun _ f₂ hI₂ hwritten => ?_
  exact Exec.Ensures.sync hI₂ hwritten

theorem ensures_writeFile (name : String) (bytes : List UInt8) (f : Folder File) :
    (writeFile name bytes).Ensures A f (Apart name f)
      (name ∉ f.now ∧ bytes.length < 2 ^ 63) fun _ f' => f'.now[name]? = some ⟨bytes, true⟩ := by
  refine Exec.Ensures.bind (ensures_createNew (.refl name f) (·.1)) fun _ f₁ hI₁ hnew => ?_
  refine Exec.Ensures.bind (ensures_writeAll hI₁ hnew (·.2)) fun _ f₂ hI₂ hwritten => ?_
  refine Exec.Ensures.bind (ensures_syncAll hI₂ hwritten.1) fun _ f₃ hI₃ hsynced => ?_
  refine Exec.Ensures.bind (P := fun _ f' => f'.now[name]? = some ⟨bytes, true⟩)
    (Exec.Ensures.sync hI₃ hsynced) fun _ f₄ hI₄ hsynced => ?_
  exact ensures_syncAll hI₄ hsynced

end

/-! ## Blobs -/

/-- Besides the temporary file at most the blob was added, and nothing was flushed. -/
structure Placed (temporary digest : String) (bytes : List UInt8) (f f' : Folder File) : Prop where
  disk : f'.disk = f.disk
  others : ∀ other, other ≠ temporary → f'.now[other]? = f.now[other]? ∨
    other = digest ∧ f.now[other]? = none ∧ bytes.length < 2 ^ 63 ∧
      f'.now[other]? = some ⟨bytes, false⟩

section
variable {temporary digest : String} {bytes : List UInt8} {accepts : List UInt8 → Bool}
  {f f' : Folder File}

theorem Apart.placed (h : Apart temporary f f') : Placed temporary digest bytes f f' :=
  ⟨h.disk, fun other hother => .inl (h.others other hother)⟩

/-- What is asked for a blob to be placed. -/
structure Placeable (temporary digest : String) (bytes : List UInt8) (accepts : List UInt8 → Bool)
    (f : Folder File) : Prop where
  fresh : temporary ∉ f.now
  fits : bytes.length < 2 ^ 63
  accepted : ∀ file, f.now[digest]? = some file →
    file.bytes.length ≤ bytes.length ∧ accepts file.bytes = true

theorem bounded_eq_ok {maximum : Nat} {file : File} {b : List UInt8} :
    bounded maximum file = .ok b ↔ file.bytes.length ≤ maximum ∧ file.bytes = b := by
  unfold bounded
  split
  next h => simp [Nat.not_le.mpr h]
  next h => simp [Nat.not_lt.mp h]

theorem ensures_placeBlob (hne : temporary ≠ digest) :
    (placeBlob temporary digest bytes accepts).Ensures A f (Placed temporary digest bytes f)
      (Placeable temporary digest bytes accepts f) fun _ f' => (∃ file, f'.now[digest]? = some file) ∧
        (f'.now[temporary]? = f.now[temporary]? ∨ f'.now[temporary]? = none) := by
  have hrefl : Placed temporary digest bytes f f := (Apart.refl temporary f).placed
  have hread : ∀ file, f.now[digest]? = some file → Placeable temporary digest bytes accepts f →
      readIfPresent digest bytes.length f = .ok (some file.bytes) := by
    intro file hfile hgood
    simp only [readIfPresent, hfile, bounded, if_neg (Nat.not_lt.mpr (hgood.accepted file hfile).1)]
    rfl
  refine Exec.Ensures.bind (P := fun found f' => f' = f ∧ f.now[digest]?.map (·.bytes) = found)
    (ensures_reading hrefl ?_ ?_) ?_
  · intro found hfound
    refine ⟨rfl, ?_⟩
    unfold readIfPresent at hfound
    split at hfound
    next hnone =>
      cases hfound
      rw [hnone, Option.map_none]
    next file hfile =>
      obtain ⟨b, hb, rfl⟩ := Except.map_eq_ok.mp hfound
      rw [hfile, Option.map_some, (bounded_eq_ok.mp hb).2]
  · intro e he _ hgood
    cases hfile : f.now[digest]? with
    | none => simp [readIfPresent, hfile] at he
    | some file =>
      rw [hread file hfile hgood] at he
      cases he
  rintro (_ | existing) f₁ - ⟨rfl, hfound⟩
  · rw [Option.map_eq_none_iff] at hfound
    refine Exec.Ensures.bind (P := fun _ f' => Apart temporary f₁ f' ∧
        f'.now[temporary]? = some ⟨bytes, false⟩ ∧ bytes.length < 2 ^ 63) ?_ ?_
    · refine ((ensures_writeFileDeferred temporary bytes f₁).imp fun _ _ hI h => ?_).mono
        (fun _ h => h.placed) (fun hg => ⟨hg.fresh, hg.fits⟩) fun _ _ _ h => h
      exact ⟨hI, h⟩
    rintro _ f₂ hI₂ ⟨hapart, hwritten, hlength⟩
    have habsent : f₂.now[digest]? = none := by rw [hapart.others digest hne.symm, hfound]
    refine Exec.Ensures.attempt_step hI₂ ?_ ?_
    · intro _ f₃ h
      simp only [hwritten] at h
      cases h
      refine Exec.Ensures.pure ⟨hapart.disk, fun other hother => ?_⟩ ⟨⟨⟨bytes, false⟩, ?_⟩, .inr ?_⟩
      · rw [Folder.getElem?_move]
        by_cases hdigest : digest = other
        · exact .inr ⟨hdigest.symm, hdigest ▸ hfound, hlength, if_pos hdigest⟩
        · rw [if_neg hdigest, if_neg hother.symm]
          exact .inl (hapart.others other hother)
      · rw [Folder.getElem?_move, if_pos rfl]
      · rw [Folder.getElem?_move, if_neg hne.symm, if_pos rfl]
    · rintro e (hfail | hop)
      · -- the blob is still missing, so the error of the step is passed on
        refine Exec.Ensures.bind (P := fun found f' => found = none)
          (ensures_reading hI₂ ?_ ?_) ?_
        · intro found h
          simp only [readIfPresent, habsent] at h
          cases h
          rfl
        · intro e' h
          simp only [readIfPresent, habsent] at h
          cases h
        · rintro found f₃ hI₃ rfl
          exact Exec.Ensures.throw hI₃ fun hno => absurd hfail (hno e)
      · simp only [hwritten] at hop
        cases hop
  · obtain ⟨file, hfile, rfl⟩ := Option.map_eq_some_iff.mp hfound
    refine ensures_checking hrefl ?_ ?_
    · exact fun _ _ => ⟨⟨file, hfile⟩, .inl rfl⟩
    · intro e h _ hgood
      simp [Except.refuseIf, (hgood.accepted file hfile).2] at h

/-- A blob that is there stays as it is, whatever happens. -/
theorem ensures_placeBlob_of_mem {file : File} (hfile : f.now[digest]? = some file) :
    (placeBlob temporary digest bytes accepts).Ensures A f (· = f) False fun _ _ => True := by
  refine Exec.Ensures.bind (P := fun found _ => found.isSome = true) (ensures_reading rfl ?_ ?_) ?_
  · intro found h
    simp only [readIfPresent, hfile] at h
    obtain ⟨b, -, rfl⟩ := Except.map_eq_ok.mp h
    rfl
  · exact fun _ _ _ => id
  rintro (_ | existing) f₁ rfl h
  · cases h
  · exact ensures_checking rfl (fun _ _ => trivial) fun _ _ _ => id

end

/-! ## Snapshots -/

/-- The directory of a snapshot that was staged and flushed. -/
def stagedDirectory (mtime : Nat) (bytes : List UInt8) : SnapshotDirectory :=
  ⟨mtime, some ⟨bytes, true⟩, some ⟨bytes, true⟩⟩

/-- Besides the staging directory at most the snapshot was added. -/
structure Staging (staging digest : String) (mtime : Nat) (bytes : List UInt8)
    (f f' : Folder SnapshotDirectory) : Prop where
  disk : f'.disk = f.disk ∨ f'.disk = f'.now
  others : ∀ other, other ≠ staging → f'.now[other]? = f.now[other]? ∨
    other = digest ∧ f.now[other]? = none ∧ bytes.length < 2 ^ 63 ∧
      f'.now[other]? = some (stagedDirectory mtime bytes)

section
variable {staging digest : String} {mtime : Nat} {bytes : List UInt8}
  {f f' f₀ : Folder SnapshotDirectory} {good : Prop}

theorem Apart.toStaging (h : Apart staging f f') : Staging staging digest mtime bytes f f' :=
  ⟨.inl h.disk, fun other hother => .inl (h.others other hother)⟩

theorem ensures_snapshotExists (hI : Apart staging f₀ f) (hdigest : isLowerDigest digest = true) :
    (snapshotExists digest).Ensures A f (Apart staging f₀) good fun found f' =>
      f' = f ∧ (found = true ↔ digest ∈ f.now) := by
  refine Exec.Ensures.bind (P := fun _ f' => f' = f) (ensures_checking hI (fun _ _ => rfl) ?_) ?_
  · intro e h
    simp [Except.refuseIf, hdigest] at h
  · rintro _ f₁ hI₁ rfl
    refine ensures_reading hI₁ ?_ ?_
    · intro found h
      cases h
      exact ⟨rfl, Std.ExtTreeMap.contains_iff_mem⟩
    · intro e h
      cases h

theorem ensures_createDir (hI : Apart staging f₀ f) (hgood : good → staging ∉ f.now) :
    (createDir staging mtime).Ensures A f (Apart staging f₀) good fun _ f' =>
      f'.now[staging]? = some ⟨mtime, none, none⟩ := by
  refine Exec.Ensures.step hI ?_ ?_
  · intro _ f' h
    split at h
    · cases h
    · cases h
      refine ⟨hI.put _, ?_⟩
      rw [Folder.getElem?_put, if_pos rfl]
  · intro e h _ hg
    rw [if_neg (hgood hg)] at h
    cases h

/-- A change of the staging directory alone. -/
theorem ensures_modify (hI : Apart staging f₀ f) {d : SnapshotDirectory}
    (hd : f.now[staging]? = some d) (g : SnapshotDirectory → SnapshotDirectory) :
    (Exec.change (·.modify staging g) : Action (Folder SnapshotDirectory) Unit).Ensures A f
      (Apart staging f₀) good fun _ f' => f'.now[staging]? = some (g d) := by
  refine Exec.Ensures.change hI (hI.modify _) ?_
  rw [Folder.getElem?_modify, if_pos rfl, hd, Option.map_some]

theorem ensures_writeSnapshotFile (hI : Apart staging f₀ f) {d : SnapshotDirectory}
    (hd : f.now[staging]? = some d) (hgood : good → bytes.length < 2 ^ 63) :
    (writeSnapshotFile staging mtime bytes).Ensures A f (Apart staging f₀) good fun _ f' =>
      f'.now[staging]? = some ⟨mtime, some ⟨bytes, true⟩, d.kept⟩ ∧ bytes.length < 2 ^ 63 := by
  refine Exec.Ensures.bind (ensures_modify hI hd _) fun _ f₁ hI₁ hcreated => ?_
  refine Exec.Ensures.bind (P := fun _ f' => f'.now[staging]? = some
    ⟨mtime, some ⟨bytes, false⟩, d.kept⟩ ∧ bytes.length < 2 ^ 63) (Exec.Ensures.step hI₁ ?_ ?_) ?_
  · intro _ f' h
    split at h
    next hlength =>
      cases h
      refine ⟨hI₁.modify _, ?_, hlength⟩
      rw [Folder.getElem?_modify, if_pos rfl, hcreated, Option.map_some]
    · cases h
  · intro e h _ hg
    rw [if_pos (hgood hg)] at h
    cases h
  rintro _ f₂ hI₂ ⟨hwritten, hlength⟩
  refine Exec.Ensures.bind (ensures_modify hI₂ hwritten _) fun _ f₃ hI₃ hsynced => ?_
  refine Exec.Ensures.bind (P := fun _ f' => f'.now[staging]? = some
    ⟨mtime, some ⟨bytes, true⟩, d.kept⟩) (Exec.Ensures.sync hI₃ hsynced) fun _ f₄ hI₄ hsynced => ?_
  exact (ensures_modify hI₄ hsynced _).imp fun _ f₅ _ h => ⟨h, hlength⟩

/-- What is asked for a snapshot to be placed. -/
structure Stageable (staging digest : String) (bytes : List UInt8) (f : Folder SnapshotDirectory) :
    Prop where
  fresh : staging ∉ f.now
  fits : bytes.length < 2 ^ 63
  same : ∀ d, f.now[digest]? = some d → readSnapshotFile digest f = .ok bytes

/-- Where the snapshot is missing. -/
theorem ensures_stageSnapshot (hdigest : isLowerDigest digest = true) (hne : staging ≠ digest)
    (habsent : f.now[digest]? = none) :
    (stageSnapshot staging digest mtime bytes).Ensures A f (Staging staging digest mtime bytes f)
      (Stageable staging digest bytes f) fun _ f' =>
        f'.now[digest]? = some (stagedDirectory mtime bytes) ∧ f'.disk = f'.now := by
  have hto : ∀ f', Apart staging f f' → Staging staging digest mtime bytes f f' :=
    fun _ h => h.toStaging
  refine Exec.Ensures.bind ((ensures_createDir (.refl staging f) (·.fresh)).keep hto) ?_
  rintro _ f₁ - ⟨hI₁, hmade⟩
  refine Exec.Ensures.bind (P := fun _ f' => f' = f₁) (Exec.Ensures.sync (hto _ hI₁) rfl) ?_
  rintro _ f₂ - rfl
  refine Exec.Ensures.bind ((ensures_writeSnapshotFile hI₁ hmade (·.fits)).keep hto) ?_
  rintro _ f₃ - ⟨hI₃, hwritten, hlength⟩
  refine Exec.Ensures.bind ((ensures_modify hI₃ hwritten _).keep hto) ?_
  rintro _ f₄ hI ⟨hI₄, hsynced⟩
  have hmissing : f₄.now[digest]? = none := by rw [hI₄.others digest hne.symm, habsent]
  refine Exec.Ensures.attempt_step hI ?_ ?_
  · intro _ f₅ h
    simp only [hsynced, hmissing, Option.bind_none, Option.isSome_none, Bool.false_eq_true,
      if_false] at h
    cases h
    have hothers : ∀ other, other ≠ staging →
        (f₄.move staging digest (stagedDirectory mtime bytes)).now[other]? = f.now[other]? ∨
          other = digest ∧ f.now[other]? = none ∧ bytes.length < 2 ^ 63 ∧
            (f₄.move staging digest (stagedDirectory mtime bytes)).now[other]? =
              some (stagedDirectory mtime bytes) := by
      intro other hother
      rw [Folder.getElem?_move]
      by_cases hd : digest = other
      · exact .inr ⟨hd.symm, hd ▸ habsent, hlength, if_pos hd⟩
      · rw [if_neg hd, if_neg hother.symm]
        exact .inl (hI₄.others other hother)
    refine Exec.Ensures.change ⟨.inl hI₄.disk, hothers⟩ ⟨.inr rfl, hothers⟩ ⟨?_, rfl⟩
    rw [Folder.now_flush, Folder.getElem?_move, if_pos rfl]
    rfl
  · rintro e (hfail | hop)
    · -- the snapshot is still missing, so the error of the step is passed on
      refine Exec.Ensures.bind ((ensures_snapshotExists hI₄ hdigest).keep hto) ?_
      rintro found f₅ hI₅ ⟨-, rfl, hfound⟩
      have hno : found = false := by
        rw [Bool.eq_false_iff, ne_eq, hfound, Std.ExtTreeMap.mem_iff_isSome_getElem?, hmissing]
        simp
      rw [hno]
      exact Exec.Ensures.throw hI₅ fun hno => absurd hfail (hno e)
    · simp only [hsynced, hmissing, Option.bind_none, Option.isSome_none, Bool.false_eq_true,
        if_false] at hop
      cases hop

theorem readSnapshotFile_eq_ok :
    readSnapshotFile digest f = .ok bytes ↔ ∃ d file, f.now[digest]? = some d ∧
      d.file = some file ∧ file.bytes.length ≤ maxSnapshotBytes ∧ file.bytes = bytes := by
  unfold readSnapshotFile
  split
  next h => simp [h]
  next d h =>
    split
    next hfile => simp [h, hfile]
    next file hfile => simp [h, hfile, bounded_eq_ok]

theorem ensures_placeSnapshot (hdigest : isLowerDigest digest = true) (hne : staging ≠ digest) :
    (placeSnapshot staging digest mtime bytes).Ensures A f (Staging staging digest mtime bytes f)
      (Stageable staging digest bytes f) fun _ f' =>
        (∃ d file, f'.now[digest]? = some d ∧ d.file = some file ∧ file.bytes = bytes) ∧
          (f' = f ∨ f'.disk = f'.now) := by
  have hrefl := Apart.refl staging f
  refine Exec.Ensures.bind ((ensures_snapshotExists hrefl hdigest).keep fun _ h => h.toStaging) ?_
  rintro (_ | _) f₁ hI₁ ⟨-, rfl, hfound⟩
  · have habsent : f₁.now[digest]? = none := by
      refine Std.ExtTreeMap.getElem?_eq_none fun h => ?_
      exact absurd (hfound.mpr h) (by simp)
    refine (ensures_stageSnapshot hdigest hne habsent).imp fun _ f' _ h => ?_
    exact ⟨⟨_, _, h.1, rfl, rfl⟩, .inr h.2⟩
  · have hmem : digest ∈ f₁.now := hfound.mp rfl
    obtain ⟨d, hd⟩ := Option.isSome_iff_exists.mp (Std.ExtTreeMap.mem_iff_isSome_getElem?.mp hmem)
    refine Exec.Ensures.bind (P := fun existing f' => f' = f₁ ∧
      readSnapshotFile digest f₁ = .ok existing) (ensures_reading hI₁ ?_ ?_) ?_
    · exact fun existing h => ⟨rfl, h⟩
    · intro e h _ hgood
      rw [hgood.same d hd] at h
      cases h
    rintro existing f₂ hI₂ ⟨rfl, hread⟩
    refine ensures_checking hI₂ ?_ ?_
    · intro _ h
      have hsame : existing = bytes := by simpa using h
      obtain ⟨d, file, hd, hfile, -, hbytes⟩ := readSnapshotFile_eq_ok.mp hread
      exact ⟨⟨d, file, hd, hfile, hbytes.trans hsame⟩, .inl rfl⟩
    · intro e h _ hgood
      rw [hgood.same d hd] at hread
      cases hread
      simp [Except.refuseIf] at h

end

/-! ## Collection -/

/-- Entries besides the current snapshot have lost their file, or are gone. -/
structure Collecting (current : String) (f f' : Folder SnapshotDirectory) : Prop where
  disk : f'.disk = f.disk
  others : ∀ name, f'.now[name]? = f.now[name]? ∨
    name ≠ current ∧ isLowerDigest name = true ∧ ∀ d, f'.now[name]? = some d → d.file = none

section
variable {occasion : Occasion} {current name : String} {f f' : Folder SnapshotDirectory}

theorem Collecting.refl (current : String) (f : Folder SnapshotDirectory) : Collecting current f f :=
  ⟨rfl, fun _ => .inl rfl⟩

theorem Collecting.modify (h : Collecting current f f') (hne : name ≠ current)
    (hdigest : isLowerDigest name = true) {g : SnapshotDirectory → SnapshotDirectory}
    (hg : ∀ d, (g d).file = none) : Collecting current f (f'.modify name g) := by
  refine ⟨h.disk, fun other => ?_⟩
  rw [Folder.getElem?_modify]
  by_cases hother : name = other
  · subst hother
    refine .inr ⟨hne, hdigest, fun d hd => ?_⟩
    rw [if_pos rfl] at hd
    obtain ⟨d', -, rfl⟩ := Option.map_eq_some_iff.mp hd
    exact hg d'
  · rw [if_neg hother]
    exact h.others other

theorem Collecting.remove (h : Collecting current f f') (hne : name ≠ current)
    (hdigest : isLowerDigest name = true) : Collecting current f (f'.remove name) := by
  refine ⟨h.disk, fun other => ?_⟩
  rw [Folder.getElem?_remove]
  by_cases hother : name = other
  · subst hother
    refine .inr ⟨hne, hdigest, fun d hd => ?_⟩
    rw [if_pos rfl] at hd
    cases hd
  · rw [if_neg hother]
    exact h.others other

/-- Every snapshot that may be collected can be read. -/
def Readable (current : String) (f : Folder SnapshotDirectory) : Prop :=
  ∀ name, name ≠ current → isLowerDigest name = true → ∀ d, f.now[name]? = some d →
    ∃ bytes, readSnapshotFile name f = .ok bytes

theorem ensures_collectSnapshot {f₀ : Folder SnapshotDirectory} (hI : Collecting current f₀ f)
    (hsame : f.now[name]? = f₀.now[name]?) (hmem : name ∈ f₀.now) :
    (collectSnapshot occasion current name).Ensures A f (Collecting current f₀)
      (Readable current f₀) fun _ f' => ∀ other, f'.now[other]? = f.now[other]? ∨
        other = name ∧ f'.now[other]? = none ∧ ∃ d, f.now[name]? = some d ∧ d.file.isSome = true := by
  unfold collectSnapshot
  split
  · exact Exec.Ensures.pure hI fun _ => .inl rfl
  next hcase =>
    rw [not_or] at hcase
    obtain ⟨hne, hdigest⟩ := hcase
    replace hdigest : isLowerDigest name = true := by simpa using hdigest
    refine Exec.Ensures.bind (P := fun _ f' => f' = f ∧ ∃ d file, f.now[name]? = some d ∧
      d.file = some file) (ensures_reading hI ?_ ?_) ?_
    · intro bytes h
      obtain ⟨d, file, hd, hfile, -⟩ := readSnapshotFile_eq_ok.mp h
      exact ⟨rfl, d, file, hd, hfile⟩
    · intro e h _ hgood
      obtain ⟨d, hd⟩ := Option.isSome_iff_exists.mp (Std.ExtTreeMap.mem_iff_isSome_getElem?.mp hmem)
      obtain ⟨bytes, hread⟩ := hgood name hne hdigest d hd
      simp only [readSnapshotFile, ← hsame] at hread
      simp only [readSnapshotFile] at h
      rw [hread] at h
      cases h
    rintro _ f₁ - ⟨rfl, d, file, hd, hfile⟩
    refine Exec.Ensures.bind (P := fun _ f' => f'.now[name]? =
        some { d with mtime := occasion.collectedAt, file := none } ∧
        ∀ other, other ≠ name → f'.now[other]? = f₁.now[other]?) (Exec.Ensures.step hI ?_ ?_) ?_
    · intro _ f' h
      simp only [hd, hfile, Option.bind_some, Option.isSome_some, if_true] at h
      cases h
      refine ⟨hI.modify hne hdigest fun _ => rfl, ?_, fun other hother => ?_⟩
      · rw [Folder.getElem?_modify, if_pos rfl, hd, Option.map_some]
      · rw [Folder.getElem?_modify, if_neg hother.symm]
    · intro e h
      simp only [hd, hfile, Option.bind_some, Option.isSome_some, if_true] at h
      cases h
    rintro _ f₂ hI₂ ⟨hemptied, hothers⟩
    refine Exec.Ensures.step hI₂ ?_ ?_
    · intro _ f' h
      simp only [hemptied, Option.isSome_none, Bool.false_eq_true, if_false] at h
      cases h
      refine ⟨hI₂.remove hne hdigest, fun other => ?_⟩
      rw [Folder.getElem?_remove]
      by_cases hother : name = other
      · exact .inr ⟨hother.symm, if_pos hother, d, hd, by rw [hfile, Option.isSome_some]⟩
      · rw [if_neg hother]
        exact .inl (hothers other (Ne.symm hother))
    · intro e h
      simp only [hemptied, Option.isSome_none, Bool.false_eq_true, if_false] at h
      cases h

/-- Only snapshots with a file are gone. -/
def Collected (f f' : Folder SnapshotDirectory) : Prop :=
  ∀ name : String, f'.now[name]? = f.now[name]? ∨
    f'.now[name]? = none ∧ ∃ d, f.now[name]? = some d ∧ d.file.isSome = true

/-- Where the loop over the entries has come to. -/
structure CollectingAt (f : Folder SnapshotDirectory) (rest : List String)
    (f' : Folder SnapshotDirectory) : Prop where
  distinct : rest.Nodup
  listed : ∀ name ∈ rest, name ∈ f.now
  ahead : ∀ name ∈ rest, f'.now[name]? = f.now[name]?
  collected : Collected f f'

theorem ensures_collectSnapshots (f : Folder SnapshotDirectory) :
    (do
      let names ← reading fun f => .ok (entries occasion f)
      Exec.forEach (collectSnapshot occasion current) (names.drop maxRetainedSnapshots) :
        Action (Folder SnapshotDirectory) Unit).Ensures A f (Collecting current f)
      (Readable current f) fun _ f' => Collected f f' := by
  refine Exec.Ensures.bind (P := fun names f' => f' = f ∧ names = entries occasion f)
    (ensures_reading (.refl current f) ?_ ?_) ?_
  · intro names h
    cases h
    exact ⟨rfl, rfl⟩
  · intro e h
    cases h
  rintro names f₁ - ⟨rfl, rfl⟩
  have hperm : (entries occasion f₁).Perm f₁.now.keys :=
    (List.perm_insertionSort _ _).trans (occasion.complete _)
  have hstart : CollectingAt f₁ ((entries occasion f₁).drop maxRetainedSnapshots) f₁ := by
    refine ⟨?_, fun name h => ?_, fun _ _ => rfl, fun _ => .inl rfl⟩
    · exact (hperm.nodup_iff.mpr Std.ExtTreeMap.nodup_keys).sublist (List.drop_sublist _ _)
    · exact Std.ExtTreeMap.mem_keys.mp (hperm.mem_iff.mp (List.mem_of_mem_drop h))
  refine (Exec.Ensures.forEach (P := CollectingAt f₁) (.refl current f₁) hstart ?_).imp
    fun _ f' _ h => h.collected
  intro name rest f₂ hI hat
  have hnodup := List.nodup_cons.mp hat.distinct
  refine (ensures_collectSnapshot hI (hat.ahead name List.mem_cons_self)
    (hat.listed name List.mem_cons_self)).imp fun _ f₃ _ h => ?_
  refine ⟨hnodup.2, fun n hn => hat.listed n (List.mem_cons_of_mem _ hn), fun n hn => ?_, fun n => ?_⟩
  · rcases h n with h | ⟨rfl, -⟩
    · rw [h, hat.ahead n (List.mem_cons_of_mem _ hn)]
    · exact absurd hn hnodup.1
  · rcases h n with h | ⟨rfl, h, d, hd, hfile⟩
    · rw [h]
      exact hat.collected n
    · exact .inr ⟨h, d, (hat.ahead n List.mem_cons_self).symm.trans hd, hfile⟩

end

/-! ## Collection of blobs -/

/-- Blobs that are not retained are gone. -/
structure Removing (retained : List String) (f f' : Folder File) : Prop where
  disk : f'.disk = f.disk ∨ f'.disk = f'.now
  others : ∀ name, f'.now[name]? = f.now[name]? ∨
    isLowerDigest name = true ∧ name ∉ retained ∧ f'.now[name]? = none

/-- Where the loop over the blobs has come to. -/
structure RemovingAt (retained : List String) (f : Folder File) (rest : List String)
    (f' : Folder File) : Prop where
  disk : f'.disk = f.disk
  distinct : rest.Nodup
  ahead : ∀ name ∈ rest, name ∈ f'.now
  removed : ∀ name, isLowerDigest name = true → name ∉ retained → name ∉ rest →
    f'.now[name]? = none

section
variable {occasion : Occasion} {retained : List String} {name : String} {rest : List String}
  {f f' : Folder File}

theorem ensures_collectBlob (hI : Removing retained f f')
    (hat : RemovingAt retained f (name :: rest) f') :
    (collectBlob retained name).Ensures A f' (Removing retained f) True fun _ f'' =>
      RemovingAt retained f rest f'' := by
  have hnodup := List.nodup_cons.mp hat.distinct
  have hahead : ∀ n ∈ rest, n ∈ f'.now := fun n hn => hat.ahead n (List.mem_cons_of_mem _ hn)
  unfold collectBlob
  split
  next hcase =>
    refine Exec.Ensures.pure hI ⟨hat.disk, hnodup.2, hahead, fun n hdigest hretained hrest => ?_⟩
    refine hat.removed n hdigest hretained fun hn => ?_
    rcases List.mem_cons.mp hn with rfl | hn
    · rcases hcase with h | h
      · simp [hdigest] at h
      · exact hretained h
    · exact hrest hn
  next hcase =>
    rw [not_or] at hcase
    have hdigest : isLowerDigest name = true := by simpa using hcase.1
    refine Exec.Ensures.step hI ?_ ?_
    · intro _ f'' h
      rw [if_pos (hat.ahead name List.mem_cons_self)] at h
      cases h
      refine ⟨⟨?_, fun n => ?_⟩, hat.disk, hnodup.2, fun n hn => ?_, fun n hn hretained hrest => ?_⟩
      · exact .inl hat.disk
      · rw [Folder.getElem?_remove]
        by_cases hn : name = n
        · subst hn
          exact .inr ⟨hdigest, hcase.2, if_pos rfl⟩
        · rw [if_neg hn]
          exact hI.others n
      · have hne : name ≠ n := by
          rintro rfl
          exact hnodup.1 hn
        rw [Std.ExtTreeMap.mem_iff_isSome_getElem?, Folder.getElem?_remove, if_neg hne,
          ← Std.ExtTreeMap.mem_iff_isSome_getElem?]
        exact hahead n hn
      · rw [Folder.getElem?_remove]
        by_cases hname : name = n
        · exact if_pos hname
        · rw [if_neg hname]
          refine hat.removed n hn hretained fun h => ?_
          rcases List.mem_cons.mp h with h | h
          · exact hname h.symm
          · exact hrest h
    · intro e h
      rw [if_pos (hat.ahead name List.mem_cons_self)] at h
      cases h

theorem ensures_removeBlobs (f : Folder File) :
    (removeBlobs occasion retained).Ensures A f (Removing retained f) True fun _ f' =>
      f'.disk = f'.now ∧
        ∀ name, isLowerDigest name = true → name ∉ retained → f'.now[name]? = none := by
  have hrefl : Removing retained f f := ⟨.inl rfl, fun _ => .inl rfl⟩
  refine Exec.Ensures.bind (P := fun names f' => f' = f ∧ names = occasion.readDir f.now.keys)
    (ensures_reading hrefl ?_ ?_) ?_
  · intro names h
    cases h
    exact ⟨rfl, rfl⟩
  · intro e h
    cases h
  rintro names f₁ - ⟨rfl, rfl⟩
  have hstart : RemovingAt retained f₁ (occasion.readDir f₁.now.keys) f₁ := by
    refine ⟨rfl, ?_, fun name h => ?_, fun name _ _ h => ?_⟩
    · exact (occasion.complete _).nodup_iff.mpr Std.ExtTreeMap.nodup_keys
    · exact Std.ExtTreeMap.mem_keys.mp (mem_readDir.mp h)
    · exact Std.ExtTreeMap.getElem?_eq_none fun hmem =>
        h (mem_readDir.mpr (Std.ExtTreeMap.mem_keys.mpr hmem))
  refine Exec.Ensures.bind (Exec.Ensures.forEach (P := RemovingAt retained f₁) hrefl hstart
    fun name rest f₂ hI hat => ensures_collectBlob hI hat) fun _ f₂ hI hat => ?_
  refine Exec.Ensures.change hI ⟨.inr rfl, hI.others⟩ ⟨rfl, fun name hdigest hretained => ?_⟩
  exact hat.removed name hdigest hretained List.not_mem_nil

end

end Dnfast.Planning
