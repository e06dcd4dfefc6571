import Dnfast.Durable.Invariant
import Dnfast.Planning.History

/-! # What a publication leaves, however it ends

In any store and whatever fails, a publication has moved the pointer to the snapshot that it stored, or
it has left the pointer and the snapshots that were there. -/

namespace Dnfast.Planning

open Durable
open Core (isLowerDigest)

variable {lib : Library} {occasion : Occasion} {s s' s'' : Store} {current : PlanningSnapshot}

/-! ## Blobs -/

/-- Nothing but blobs has changed. -/
structure OnlyBlobs (s s' : Store) : Prop where
  files : s'.files = s.files
  snapshots : s'.snapshots = s.snapshots

theorem OnlyBlobs.refl : OnlyBlobs s s := ⟨rfl, rfl⟩

theorem keeps_inBlobs {α : Type} (m : Action (Folder File) α) : Exec.Keeps (OnlyBlobs s) (inBlobs m) :=
  .zoom (J := fun _ _ => True) (fun _ _ _ _ => Exec.Sat.mono (fun _ _ => ⟨trivial, fun _ _ => trivial⟩)
    fun _ _ h => h) (fun _ _ _ _ => trivial) fun _ _ _ h _ _ => ⟨h.files, h.snapshots⟩

theorem keeps_makeBlobs : Exec.Keeps (OnlyBlobs s) (Exec.change makeBlobs : Program Unit) :=
  .change fun _ h => ⟨h.files, h.snapshots⟩

theorem keeps_publishBlobDeferred {digest : String} {bytes : List UInt8} :
    Exec.Keeps (OnlyBlobs s) (publishBlobDeferred lib occasion digest bytes) :=
  .bind (.lift _) fun _ => .bind keeps_makeBlobs fun _ => keeps_inBlobs _

theorem keeps_publishVerifiedFileDeferred {payload : VerifiedBytes} :
    Exec.Keeps (OnlyBlobs s) (publishVerifiedFileDeferred lib occasion payload) :=
  .bind (.lift _) fun _ => .bind keeps_makeBlobs fun _ => keeps_inBlobs _

theorem keeps_storeRepository {validAtUnix : UInt64} {r : RepoConfig} :
    Exec.Keeps (OnlyBlobs s) (storeRepository lib occasion validAtUnix r) := by
  refine .bind (.lift _) fun staged => .bind keeps_publishBlobDeferred fun _ => ?_
  refine .bind (.lift _) fun repository => .bind keeps_publishBlobDeferred fun _ => ?_
  refine .bind keeps_publishVerifiedFileDeferred fun _ => .bind keeps_publishVerifiedFileDeferred fun _ => ?_
  exact .bind (.forEach _ fun _ _ => keeps_publishBlobDeferred) fun _ => .pure repository

theorem keeps_storeSnapshotFrom {r : Refresh} {moduleState : ModuleState} :
    Exec.Keeps (OnlyBlobs s) (storeSnapshotFrom lib occasion r moduleState) := by
  refine .bind (.lift _) fun _ => .bind (.lift _) fun _ => ?_
  refine .bind (.mapEach _ fun _ _ => keeps_storeRepository) fun _ => ?_
  exact .bind (keeps_inBlobs _) fun _ => .lift _

theorem keeps_refreshSnapshot {r : Refresh} {current : Option PlanningSnapshot} :
    Exec.Keeps (OnlyBlobs s) (refreshSnapshot lib occasion r current) := by
  refine .bind (.observe _) fun reused => ?_
  cases reused with
  | some reused => exact .pure reused
  | none => exact keeps_storeSnapshotFrom

theorem keeps_garbageCollectBlobs : Exec.Keeps (OnlyBlobs s) (garbageCollectBlobs lib occasion) := by
  refine .bind (.observe _) fun retained => ?_
  cases retained with
  | none => exact .pure ()
  | some retained => exact keeps_inBlobs _

/-! ## The pointer -/

/-- The pointer names a snapshot that is stored. -/
def Stores (lib : Library) (s : Store) : Prop :=
  ∃ new : PlanningSnapshot, Points s (lib.crates.sha256 (lib.toVec new)).asStr ∧
    HasFile s (lib.crates.sha256 (lib.toVec new)).asStr (lib.toVec new)

/-- The pointer stays, or it is moved to a stored snapshot. -/
def Settles (lib : Library) (s s' : Store) : Prop := Unmoved s s' ∨ Stores lib s'

theorem OnlyBlobs.unmoved (h : OnlyBlobs s s') : Unmoved s s' :=
  ⟨by rw [h.files], fun name d _ hd => by rw [h.snapshots, hd]⟩

theorem OnlyBlobs.stores (h : OnlyBlobs s s') (hs : Stores lib s) : Stores lib s' := by
  obtain ⟨new, hpoints, hfile⟩ := hs
  exact ⟨new, by rwa [Points, h.files], by rwa [HasFile, h.snapshots]⟩

/-- The collection keeps the current snapshot. -/
theorem Collects.stores {new : PlanningSnapshot}
    (h : Collects (lib.crates.sha256 (lib.toVec new)).asStr s s')
    (hpoints : Points s (lib.crates.sha256 (lib.toVec new)).asStr)
    (hfile : HasFile s (lib.crates.sha256 (lib.toVec new)).asStr (lib.toVec new)) : Stores lib s' := by
  refine ⟨new, by rwa [Points, h.files], ?_⟩
  have hsame := (h.snapshots.others (lib.crates.sha256 (lib.toVec new)).asStr).resolve_right
    fun hne => hne.1 rfl
  rwa [HasFile, hsame]

theorem sat_storeSnapshot_settles {new : PlanningSnapshot} (h : Unmoved s s') :
    (storeSnapshot lib occasion new).Sat (fun _ => True) s' fun _ s'' => Settles lib s s'' := by
  refine Exec.sat_bind_lift (fun bytes hbytes => ?_) fun _ _ => .inl h
  obtain ⟨hvalid, rfl⟩ := canonicalBytes_eq_ok.mp (Except.mapError_eq_ok.mp hbytes)
  have hbefore : ∀ {s₁ : Store}, Before (lib.crates.sha256 (lib.toVec new)).asStr (lib.toVec new) s' s₁ →
      Settles lib s s₁ := fun hb => .inl (h.trans hb.unmoved)
  have hafter : ∀ {s₁ : Store}, After (lib.crates.sha256 (lib.toVec new)).asStr (lib.toVec new) s' s₁ →
      Stores lib s₁ := fun ha => ⟨new, ha.pointer, ha.stored⟩
  refine (sat_publishSnapshot (lib.crates.sha256 (lib.toVec new)).canonical).bind ?_ ?_ ?_
  · rintro _ s₁ ha
    refine Exec.Sat.bind ensures_garbageCollect ?_ ?_ ?_
    · rintro _ s₂ ⟨hcollects, -⟩
      refine (keeps_garbageCollectBlobs s₂ .refl).bind ?_ ?_ ?_
      · exact fun _ s₃ h₃ => Exec.sat_pure (.inr (h₃.stores (hcollects.stores ha.pointer ha.stored)))
      · exact fun _ s₃ h₃ => .inr (h₃.stores (hcollects.stores ha.pointer ha.stored))
      · exact fun s₃ h₃ => .inr (h₃.stores (hcollects.stores ha.pointer ha.stored))
    · exact fun _ s₂ h₂ => .inr (h₂.1.stores ha.pointer ha.stored)
    · exact fun s₂ h₂ => .inr (h₂.1.stores ha.pointer ha.stored)
  · exact fun _ s₁ h₁ => h₁.1.elim hbefore fun ha => .inr (hafter ha)
  · exact fun s₁ h₁ => h₁.1.elim hbefore fun ha => .inr (hafter ha)

theorem sat_publish_settles {r : Refresh} :
    (publish lib occasion r).Sat (fun _ => True) s fun _ s' => Settles lib s s' := by
  have hrefl : Unmoved s s := OnlyBlobs.refl.unmoved
  refine Exec.sat_bind_lift (fun _ _ => ?_) fun _ _ => .inl hrefl
  refine (Exec.Keeps.observe (I := OnlyBlobs s) _ s .refl).bind ?_ (fun _ _ h => .inl h.unmoved)
    fun _ h => .inl h.unmoved
  intro current s₁ h₁
  refine (keeps_refreshSnapshot s₁ h₁).bind ?_ (fun _ _ h => .inl h.unmoved) fun _ h => .inl h.unmoved
  intro new s₂ h₂
  refine (Exec.Keeps.observe (I := OnlyBlobs s) _ s₂ h₂).bind ?_ (fun _ _ h => .inl h.unmoved)
    fun _ h => .inl h.unmoved
  exact fun _ s₃ h₃ => sat_storeSnapshot_settles h₃.unmoved

/-- The snapshot that was opened before is opened after. -/
theorem Unmoved.openSnapshot (h : Unmoved s s') (hopen : openSnapshot lib s = .ok current) :
    openSnapshot lib s' = .ok current := by
  rw [Planning.openSnapshot_eq_ok] at hopen ⊢
  obtain ⟨name, bytes, hpoints, hread, hrest⟩ := hopen
  refine ⟨name, bytes, by rwa [Points, h.pointer], ?_, hrest⟩
  obtain ⟨d, file, hd, hfile, hlength, hbytes⟩ := readSnapshotFile_eq_ok.mp hread
  exact readSnapshotFile_eq_ok.mpr ⟨d, file, h.snapshots name d hpoints.isLowerDigest hd, hfile, hlength,
    hbytes⟩

end Dnfast.Planning
