import Dnfast.State.Journal

/-! # Creating a transaction

`create` makes the directory, publishes the `Prepared` record in it, and removes the directory again
when the publication fails. It is not atomic: a process that dies between these steps leaves a
directory (`Leftover`) in which the record may be missing. -/

namespace Dnfast.State

open Durable Durable.Exec
open Std (ExtTreeMap)
open Dnfast.Core (canonicalEncode)

/-! ## Changes to one child of a root -/

namespace Root

theorem ext {r r' : Root} (hs : r.stat = r'.stat)
    (hc : ∀ n : String, r.children[n]? = r'.children[n]?) : r = r' := by
  cases r
  cases r'
  simp only at hs hc
  simp [hs, ExtTreeMap.ext_getElem? hc]

@[simp] theorem put_stat (name : String) (d : Directory) (r : Root) :
    (r.put name d).stat = r.stat := rfl

@[simp] theorem put_children (name : String) (d : Directory) (r : Root) :
    (r.put name d).children[name]? = some d := by
  simp [put]

theorem put_children_of_ne {name n : String} (h : n ≠ name) (d : Directory) (r : Root) :
    (r.put name d).children[n]? = r.children[n]? := by
  simp [put, ExtTreeMap.getElem?_insert, Ne.symm h]

theorem put_of_getElem? {name : String} {d : Directory} {r : Root}
    (h : r.children[name]? = some d) : r.put name d = r := by
  refine ext rfl fun n => ?_
  by_cases hn : n = name
  · subst hn
    simp [h]
  · exact put_children_of_ne hn d r

theorem mem_children_iff {r : Root} {n : String} : n ∈ r.children ↔ r.children[n]? ≠ none := by
  rw [ExtTreeMap.mem_iff_isSome_getElem?, Option.isSome_iff_ne_none]

/-- `r'` differs from `r` in the child `name` only. -/
structure OnlyAt (name : String) (r r' : Root) : Prop where
  stat : r'.stat = r.stat
  others : ∀ n, n ≠ name → r'.children[n]? = r.children[n]?

theorem OnlyAt.refl (name : String) (r : Root) : OnlyAt name r r := ⟨rfl, fun _ _ => rfl⟩

theorem OnlyAt.trans {name : String} {r r' r'' : Root} (h : OnlyAt name r r')
    (h' : OnlyAt name r' r'') : OnlyAt name r r'' :=
  ⟨h'.stat.trans h.stat, fun n hn => (h'.others n hn).trans (h.others n hn)⟩

theorem onlyAt_put (name : String) (d : Directory) (r : Root) : OnlyAt name r (r.put name d) :=
  ⟨rfl, fun _ hn => put_children_of_ne hn d r⟩

theorem onlyAt_rmdir {name : String} {r r' : Root} (h : r.rmdir name = .ok ((), r')) :
    OnlyAt name r r' ∧ r'.children[name]? = none := by
  unfold rmdir at h
  split at h
  · cases h
  · split at h
    · cases h
    · split at h
      · cases h
      · cases h
        refine ⟨⟨rfl, fun n hn => ?_⟩, by simp⟩
        simp [ExtTreeMap.getElem?_erase, Ne.symm hn]

/-- The attributes of a directory that `mkdirat` made. -/
def freshDirStat (euid : UInt32) : Stat := (freshDirectory euid).stat

@[simp] theorem verify_freshDirStat (euid : UInt32) :
    verify euid (freshDirStat euid) true false = .ok () := by
  have h : (0o040700 : UInt32) &&& 0o170000 = 0o040000 ∧ (0o040700 : UInt32) &&& 0o777 = 0o700 := by
    decide
  simp [verify, freshDirStat, freshDirectory, h]

@[simp] theorem freshDirStat_isDirectory (euid : UInt32) :
    (freshDirStat euid).isDirectory = true :=
  show ((0o040700 : UInt32) &&& 0o170000 == 0o040000) = true by decide

@[simp] theorem freshDirStat_isSymlink (euid : UInt32) :
    (freshDirStat euid).isSymlink = false :=
  show ((0o040700 : UInt32) &&& 0o170000 == 0o120000) = false by decide

theorem openTransaction_of_fresh {euid : UInt32} {name : String} {r : Root} {d : Directory}
    (hd : r.children[name]? = some d) (hs : d.stat = freshDirStat euid) :
    r.openTransaction euid name = .ok d := by
  simp [openTransaction, hd, hs, Except.map]

end Root

open Root

section
variable {A : Fate StateError → Prop} {p : Process} {name : String} {r : Root}

/-- A program on one child of the root, judged on the root. -/
theorem inDirectory_sat {α : Type} {m : Exec Directory StateError α} {d : Directory}
    {Q : Outcome StateError α → Directory → Prop} (hd : r.children[name]? = some d)
    (hm : Sat A m d Q) :
    Sat A (inDirectory name m) r fun o r' => ∃ d', r' = r.put name d' ∧ Q o d' := by
  refine sat_zoom (fun hnone => by simp [hd] at hnone) fun d₁ hd₁ => ?_
  rw [hd] at hd₁
  cases hd₁
  exact hm.mono fun o d' hQ => ⟨d', rfl, hQ⟩

/-! ## Making the directory -/

/-- Where `create_transaction` may end. -/
def CreateTransactionEnd (A : Fate StateError → Prop) (p : Process) (name : String) (r : Root) :
    Outcome StateError Unit → Root → Prop
  | .ok _, r' => name ∉ r.children ∧ r' = r.put name (freshDirectory p.euid)
  | .err _, r' => (r' = r ∧ ((∃ e, A (.fail e)) ∨ name ∈ r.children)) ∨
      ((∃ e, A (.fail e)) ∧ name ∉ r.children ∧ r' = r.put name (freshDirectory p.euid))
  | .crashed, r' => A .die ∧
      (r' = r ∨ (name ∉ r.children ∧ r' = r.put name (freshDirectory p.euid)))

theorem createTransaction_sat :
    Sat A (createTransaction p name) r (CreateTransactionEnd A p name r) := by
  refine sat_bind (sat_sync (fun hA => ⟨hA, .inl rfl⟩)
    (fun e hA => .inl ⟨rfl, .inl ⟨e, hA⟩⟩) ?_)
  refine sat_bind (sat_step (fun hA => ⟨hA, .inl rfl⟩)
    (fun e hA => .inl ⟨rfl, .inl ⟨e, hA⟩⟩) ?_ ?_)
  · rintro ⟨⟩ r₁ hmk
    have hmade : name ∉ r.children ∧ r₁ = r.put name (freshDirectory p.euid) := by
      unfold mkdirat at hmk
      split at hmk
      · cases hmk
      · rename_i hnew
        cases hmk
        exact ⟨hnew, rfl⟩
    refine sat_bind (sat_sync (fun hA => ⟨hA, .inr hmade⟩)
      (fun e hA => .inr ⟨⟨e, hA⟩, hmade⟩) ?_)
    refine sat_bind (sat_observe (fun hA => ⟨hA, .inr hmade⟩)
      (fun e hA => .inr ⟨⟨e, hA⟩, hmade⟩) (fun d _ => sat_pure hmade) ?_)
    intro e he
    rw [hmade.2, openTransaction_of_fresh (put_children ..) rfl] at he
    cases he
  · intro e hmk
    unfold mkdirat at hmk
    split at hmk
    · rename_i hold
      exact .inl ⟨rfl, .inr hold⟩
    · cases hmk

/-! ## Removing it again -/

/-- `d'` has no file that `d` has not. -/
structure Directory.Within (d d' : Directory) : Prop where
  stat : d'.stat = d.stat
  files : ∀ (n : String) f, d'.files[n]? = some f → d.files[n]? = some f

theorem Directory.Within.unlinkat {d d' d'' : Directory} {n : String} (h : d.Within d')
    (hok : d'.unlinkat n = .ok ((), d'')) : d.Within d'' := by
  rw [Directory.unlinkat_eq_ok hok]
  refine ⟨h.stat, fun m f hf => h.files m f ?_⟩
  rw [ExtTreeMap.getElem?_erase] at hf
  split at hf
  · cases hf
  · exact hf

/-- What is left of the directory `d` while it is being removed. -/
def Removing (name : String) (d : Directory) (r r' : Root) : Prop :=
  OnlyAt name r r' ∧
    (r'.children[name]? = none ∨ ∃ d', r'.children[name]? = some d' ∧ d.Within d')

/-- Where a program that removes the directory may end. -/
def RemovingEnd (A : Fate StateError → Prop) (name : String) (d : Directory) (r : Root)
    (o : Outcome StateError Unit) (r' : Root) : Prop :=
  Removing name d r r' ∧ (o = .crashed → A .die)

theorem Removing.unlink_sat {d : Directory} {r₁ : Root} (h : Removing name d r r₁) (n : String) :
    Sat A (inDirectory name (Exec.step (Directory.unlinkat n))) r₁ (RemovingEnd A name d r) := by
  obtain ⟨honly, hgone | ⟨d₁, hd₁, hwithin⟩⟩ := h
  · refine sat_zoom (fun _ => ⟨⟨honly, .inl hgone⟩, by simp⟩) fun d₁ hd₁ => ?_
    rw [hgone] at hd₁
    cases hd₁
  · have hstep : Sat A (Exec.step (Directory.unlinkat n)) d₁ fun o d₂ =>
        d.Within d₂ ∧ (o = .crashed → A .die) :=
      sat_step (fun hA => ⟨hwithin, fun _ => hA⟩) (fun _ _ => ⟨hwithin, by simp⟩)
        (fun _ _ hok => ⟨hwithin.unlinkat hok, by simp⟩) fun _ _ => ⟨hwithin, by simp⟩
    refine (inDirectory_sat hd₁ hstep).mono ?_
    rintro o r₂ ⟨d₂, rfl, hwithin₂, hdie⟩
    exact ⟨⟨honly.trans (onlyAt_put ..), .inr ⟨d₂, put_children .., hwithin₂⟩⟩, hdie⟩

theorem removeFailedTransaction_sat {d : Directory} (hd : r.children[name]? = some d) :
    Sat A (removeFailedTransaction p name) r (RemovingEnd A name d r) := by
  have hwhole : Removing name d r r := ⟨.refl name r, .inr ⟨d, hd, rfl, fun _ _ hf => hf⟩⟩
  refine sat_bind (sat_observe (fun hA => ⟨hwhole, fun _ => hA⟩) (fun _ _ => ⟨hwhole, by simp⟩) ?_
    fun _ _ => ⟨hwhole, by simp⟩)
  intro directory _
  have hloop : Sat A (Exec.forEach (fun n => inDirectory name (Exec.step (Directory.unlinkat n)))
      directory.childNames) r (RemovingEnd A name d r) := by
    refine sat_forEach (I := fun _ r' => Removing name d r r') hwhole (fun _ h => ⟨h, by simp⟩) ?_
    intro n rest r₁ h₁
    refine (h₁.unlink_sat n).mono ?_
    rintro (_ | _ | _) r₂ h₂
    · exact h₂.1
    · exact h₂
    · exact h₂
  simp only [Then]
  refine hloop.bind (fun _ r₁ h₁ => ?_) (fun _ r₁ h₁ => ⟨h₁.1, by simp⟩) fun r₁ h₁ => h₁
  have hkept := h₁.1
  refine sat_bind (sat_sync (fun hA => ⟨hkept, fun _ => hA⟩) (fun _ _ => ⟨hkept, by simp⟩) ?_)
  refine sat_bind (sat_step (fun hA => ⟨hkept, fun _ => hA⟩) (fun _ _ => ⟨hkept, by simp⟩) ?_
    fun _ _ => ⟨hkept, by simp⟩)
  rintro ⟨⟩ r₂ hrm
  obtain ⟨honly, hgone⟩ := onlyAt_rmdir hrm
  have hremoved : Removing name d r r₂ := ⟨h₁.1.1.trans honly, .inl hgone⟩
  exact sat_sync (fun hA => ⟨hremoved, fun _ => hA⟩) (fun _ _ => ⟨hremoved, by simp⟩)
    ⟨hremoved, by simp⟩

end

/-! ## The whole of `create` -/

/-- A directory that `create` left behind: the record, its temporary file, both or neither. -/
structure Leftover (p : Process) (id : TransactionId) (planSha256 : String) (d : Directory) :
    Prop where
  stat : d.stat = freshDirStat p.euid
  files : ∀ (n : String) f, d.files[n]? = some f → f.stat = Directory.freshStat p.euid ∧
    (n = recordTemporary 0 p.pid ∨
      (n = recordName 0 ∧ f.bytes = canonicalEncode (preparedEntry id planSha256)))

section
variable {A : Fate StateError → Prop} {p : Process} {id : TransactionId} {planSha256 : String}
  {r : Root}

theorem Leftover.within {d d' : Directory} (h : Leftover p id planSha256 d) (hw : d.Within d') :
    Leftover p id planSha256 d' :=
  ⟨hw.stat.trans h.stat, fun n f hf => h.files n f (hw.files n f hf)⟩

theorem leftover_fresh (p : Process) (id : TransactionId) (planSha256 : String) :
    Leftover p id planSha256 (freshDirectory p.euid) :=
  ⟨rfl, fun n f hf => by simp [freshDirectory] at hf⟩

theorem Leftover.of_interrupted {d : Directory}
    (h : Directory.Interrupted p.euid (recordTemporary 0 p.pid) (recordName 0)
      (canonicalEncode (preparedEntry id planSha256)) (freshDirectory p.euid) d) :
    Leftover p id planSha256 d := by
  have hempty : ∀ n : String, (freshDirectory p.euid).files[n]? = none := by
    simp [freshDirectory]
  rcases h with hs | hp
  · refine ⟨hs.stat, fun n f hf => ?_⟩
    by_cases hn : n = recordTemporary 0 p.pid
    · subst hn
      rcases hs.scratch with h | h | ⟨bytes, h⟩
      · rw [h, hempty] at hf
        cases hf
      · rw [h] at hf
        cases hf
      · rw [h] at hf
        cases hf
        exact ⟨rfl, .inl rfl⟩
    · rw [hs.others n hn, hempty] at hf
      cases hf
  · refine ⟨hp.stat, fun n f hf => ?_⟩
    by_cases hn : n = recordName 0
    · subst hn
      rw [hp.file] at hf
      cases hf
      exact ⟨rfl, .inr ⟨rfl, rfl⟩⟩
    · by_cases hn' : n = recordTemporary 0 p.pid
      · subst hn'
        rw [hp.temporary] at hf
        cases hf
      · rw [hp.others n hn hn', hempty] at hf
        cases hf

/-- What `create` has done to the root when it did not succeed. -/
def Unfinished (p : Process) (id : TransactionId) (planSha256 : String) (r r' : Root) : Prop :=
  r' = r ∨ (id.asStr ∉ r.children ∧ OnlyAt id.asStr r r' ∧ (r'.children[id.asStr]? = none ∨
    ∃ d, r'.children[id.asStr]? = some d ∧ Leftover p id planSha256 d))

/-- Where `create` may end. -/
def CreateEnd (A : Fate StateError → Prop) (p : Process) (id : TransactionId)
    (planSha256 : String) (r : Root) : Outcome StateError Unit → Root → Prop
  | .ok _, r' => id.asStr ∉ r.children ∧ Publishable (preparedEntry id planSha256) ∧
      ∃ d, r' = r.put id.asStr d ∧ Directory.Published (recordTemporary 0 p.pid) (recordName 0)
        ⟨Directory.freshStat p.euid, canonicalEncode (preparedEntry id planSha256)⟩
        (freshDirectory p.euid) d
  | .err _, r' => Unfinished p id planSha256 r r' ∧
      ((∃ e, A (.fail e)) ∨ id.asStr ∈ r.children ∨ ¬ Publishable (preparedEntry id planSha256))
  | .crashed, r' => A .die ∧ Unfinished p id planSha256 r r'

theorem unfinished_put {d : Directory} (hnew : id.asStr ∉ r.children)
    (h : Leftover p id planSha256 d) : Unfinished p id planSha256 r (r.put id.asStr d) :=
  .inr ⟨hnew, onlyAt_put .., .inr ⟨d, put_children .., h⟩⟩

theorem Unfinished.removing {d : Directory} {r' : Root} (hnew : id.asStr ∉ r.children)
    (h : Leftover p id planSha256 d) (hrem : Removing id.asStr d (r.put id.asStr d) r') :
    Unfinished p id planSha256 r r' := by
  refine .inr ⟨hnew, (onlyAt_put id.asStr d r).trans hrem.1, ?_⟩
  rcases hrem.2 with hgone | ⟨d', hd', hw⟩
  · exact .inl hgone
  · exact .inr ⟨d', hd', h.within hw⟩

/-- The publication of the first record into the new directory. -/
theorem leftover_of_publish {o : Outcome StateError Unit} {d : Directory}
    (h : (¬ Publishable (preparedEntry id planSha256) ∧ d = freshDirectory p.euid ∧
        ∃ err, o = .err err) ∨ (Publishable (preparedEntry id planSha256) ∧
      WriteRecordEnd A p 0 (canonicalEncode (preparedEntry id planSha256))
        (freshDirectory p.euid) o d)) (ho : o ≠ .ok ()) : Leftover p id planSha256 d := by
  rcases h with ⟨-, rfl, -⟩ | ⟨-, hend⟩
  · exact leftover_fresh ..
  · match o, hend with
    | .ok _, _ => exact absurd rfl ho
    | .err _, .inl ⟨heq, _⟩ => exact heq ▸ leftover_fresh ..
    | .err _, .inr ⟨_, hi⟩ => exact .of_interrupted hi
    | .crashed, ⟨_, hi⟩ => exact .of_interrupted hi

/-- The new directory holds no file, so only a fault or the entry itself can stop the record. -/
theorem why_publish_failed {err : StateError} {d : Directory}
    (h : (¬ Publishable (preparedEntry id planSha256) ∧ d = freshDirectory p.euid ∧
        ∃ e, Outcome.err (α := Unit) err = .err e) ∨
      (Publishable (preparedEntry id planSha256) ∧
        WriteRecordEnd A p 0 (canonicalEncode (preparedEntry id planSha256))
          (freshDirectory p.euid) (.err err) d)) :
    (∃ e, A (.fail e)) ∨ ¬ Publishable (preparedEntry id planSha256) := by
  rcases h with ⟨hnot, -⟩ | ⟨-, ⟨-, ⟨f, hf⟩ | ⟨hmem, -⟩⟩ | ⟨hA, -⟩⟩
  · exact .inr hnot
  · simp [Directory.openRead, freshDirectory] at hf
  · simp [freshDirectory] at hmem
  · exact .inl hA

theorem put_put (name : String) (d d' : Directory) (r : Root) :
    (r.put name d).put name d' = r.put name d' := by
  refine Root.ext rfl fun n => ?_
  by_cases hn : n = name
  · subst hn
    simp
  · simp [put_children_of_ne hn]

theorem create_sat (p : Process) (id : TransactionId) (planSha256 : String) (r : Root) :
    Sat A (create p id planSha256) r (CreateEnd A p id planSha256 r) := by
  refine sat_bind (sat_lift ?_ ?_)
  swap
  · intro e he
    refine ⟨.inl rfl, .inr (.inr fun hpub => ?_)⟩
    exact absurd (validateDigest_eq_ok.mpr hpub.valid.digest) (by simp [preparedEntry, he])
  rintro ⟨⟩ -
  refine createTransaction_sat.bind ?_ ?_ ?_
  · rintro ⟨⟩ _ ⟨hnew, rfl⟩
    have hfresh := unfinished_put hnew (leftover_fresh p id planSha256)
    refine sat_bind (sat_sync (fun hA => ⟨hA, hfresh⟩) (fun e hA => ⟨hfresh, .inl ⟨e, hA⟩⟩) ?_)
    refine sat_bind (sat_attempt ((inDirectory_sat (put_children ..) (publish_sat p _)).mono ?_))
    rintro o _ ⟨d, rfl, hend⟩
    rw [put_put]
    cases o with
    | ok _ =>
      rcases hend with ⟨_, _, err, herr⟩ | ⟨hpub, _, hp⟩
      · cases herr
      · exact sat_pure ⟨hnew, hpub, d, rfl, hp⟩
    | err err =>
      have hleft := leftover_of_publish hend (by simp)
      have hwhy := (why_publish_failed hend).imp_right (Or.inr (a := id.asStr ∈ r.children))
      simp only [Caught, Then]
      refine (removeFailedTransaction_sat (put_children ..)).bind ?_ ?_ ?_
      · exact fun _ r' hrem => sat_throw ⟨.removing hnew hleft hrem.1, hwhy⟩
      · exact fun _ r' hrem => ⟨.removing hnew hleft hrem.1, hwhy⟩
      · exact fun r' hrem => ⟨hrem.2 rfl, .removing hnew hleft hrem.1⟩
    | crashed =>
      rcases hend with ⟨_, _, err, herr⟩ | ⟨hpub, hA, hi⟩
      · cases herr
      · exact ⟨hA, unfinished_put hnew (.of_interrupted hi)⟩
  · rintro e r' (⟨rfl, hwhy⟩ | ⟨hA, hnew, rfl⟩)
    · exact ⟨.inl rfl, hwhy.imp_right .inl⟩
    · exact ⟨unfinished_put hnew (leftover_fresh ..), .inl hA⟩
  · rintro r' ⟨hA, rfl | ⟨hnew, rfl⟩⟩
    · exact ⟨hA, .inl rfl⟩
    · exact ⟨hA, unfinished_put hnew (leftover_fresh ..)⟩

end

end Dnfast.State
