import Dnfast.Refresh.Attempt

/-! # A refresh takes nothing away

Whatever the servers answer, a refresh only adds to the cache and moves pointers. -/

namespace Dnfast.Refresh

open Durable
open Cache (CacheStore CacheError Grows)
open Metadata (AuxiliaryRecord RepomdRecords)

/-- What was in the first store stays. -/
def Growing {α : Type} (c : CacheStore) (m : RefreshM α) : Prop :=
  ∀ s, Grows c s.cache → m.Post s fun _ s' => Grows c s'.cache

namespace Growing

variable {α β : Type} {c : CacheStore} {m : RefreshM α} {f : α → RefreshM β}

theorem pure (a : α) : Growing c (Pure.pure a) := fun _ h => h

theorem throw (e : RefreshError) : Growing c (Fallible.throw e : RefreshM α) := fun _ h => h

theorem lift (x : Except RefreshError α) : Growing c (Fallible.lift x) := fun _ h => h

theorem bind (hm : Growing c m) (hf : ∀ a, Growing c (f a)) : Growing c (m >>= f) :=
  fun s h => (hm s h).keeps fun a s' h' => hf a s' h'

theorem attempt (hm : Growing c m) : Growing c (Fallible.attempt m) := fun s h => hm s h

theorem onCache {m : Cache.Program α} (hm : ∀ s : CacheStore, Exec.Sat (fun _ => False) m s fun o s' =>
    Grows s s' ∧ o ≠ .crashed) : Growing c (Refresh.onCache m) := by
  refine fun s h => post_onCache (hm s.cache) ?_ ?_ ?_
  · rintro _ c' ⟨hgrows, -⟩
    exact h.trans hgrows
  · rintro e c' ⟨hgrows, -⟩
    exact h.trans hgrows
  · rintro c' ⟨-, hcrashed⟩
    exact hcrashed rfl

end Growing

section
variable (env : Environment) {c : CacheStore} {repository url origin : String}
  {metadataTrust : Option MetadataTrust} {repomd : List UInt8} {records : RepomdRecords}

theorem growing_get {maximumBytes : UInt64} : Growing c (get env url maximumBytes) := fun _ h => h

theorem growing_authenticate : Growing c (authenticate env metadataTrust url repomd) := by
  cases metadataTrust with
  | none => exact .pure _
  | some trust => exact .bind (growing_get env) fun _ => .lift _

theorem growing_ensureAuxiliary {record : Option AuxiliaryRecord} :
    Growing c (ensureAuxiliary env origin record) :=
  fun s h => (post_ensureAuxiliary (s := s)).mono fun _ _ h' => h.trans h'.1.grows

theorem growing_ensureAuxiliaries : Growing c (ensureAuxiliaries env origin records) :=
  .bind (growing_ensureAuxiliary env) fun _ =>
    .bind (growing_ensureAuxiliary env) fun _ => growing_ensureAuxiliary env

theorem growing_fetchArtifacts {parallel : Bool} :
    Growing c (fetchArtifacts env parallel origin records) :=
  fun s h => (post_fetchArtifacts (s := s)).mono fun _ _ h' => h'.symm ▸ h

theorem growing_finishGeneration {parallel : Bool} :
    Growing c (finishGeneration env repository url parallel repomd metadataTrust) := by
  refine .bind (growing_authenticate env) fun authentication => .bind (.lift _) fun records => ?_
  refine .bind (.lift _) fun origin => .bind (.onCache fun s => ?_) fun reused => ?_
  · exact Cache.clean_reuseCurrentVerifiedComplete.mono fun _ _ h => ⟨h.1.grows, h.2.1⟩
  cases reused with
  | some snapshot => exact .bind (growing_ensureAuxiliaries env) fun _ => .pure _
  | none =>
    refine .bind (growing_fetchArtifacts env) fun artifacts => ?_
    refine .bind (growing_ensureAuxiliaries env) fun _ => .bind (.onCache fun s => ?_) fun _ => .pure _
    exact Cache.clean_publishVerifiedCompleteFast.mono fun _ _ h =>
      ⟨h.1.stored.grows h.1.repoId, h.2.1⟩

theorem growing_tryResources {metalink : Metalink} {resources : List String}
    {lastError lastVerificationError : Option RefreshError} :
    Growing c (tryResources env repository metalink metadataTrust resources lastError
      lastVerificationError) := by
  induction resources generalizing lastError lastVerificationError with
  | nil => exact .throw _
  | cons url rest ih =>
    unfold tryResources
    refine .bind (growing_get env).attempt fun answer => ?_
    cases answer with
    | error e => exact ih
    | ok bytes =>
      simp only
      split
      · refine .bind (growing_finishGeneration env).attempt fun result => ?_
        cases result with
        | ok outcome => exact .pure outcome
        | error e => cases e <;> exact ih
      · exact ih

theorem growing_tryMirrors {mirrors : List String} {lastError : Option RefreshError} :
    Growing c (tryMirrors env repository metadataTrust mirrors lastError) := by
  induction mirrors generalizing lastError with
  | nil => exact .throw _
  | cons base rest ih =>
    unfold tryMirrors tryMirror
    refine .bind (Growing.bind (growing_get env) fun _ => growing_finishGeneration env).attempt
      fun result => ?_
    cases result with
    | ok outcome => exact .pure outcome
    | error e => exact ih

theorem growing_refreshWithMetadataTrust {lock : Except RefreshError Unit} {source : Source} :
    Growing c (refreshWithMetadataTrust env lock repository source metadataTrust) := by
  refine .bind (.lift _) fun _ => ?_
  cases source with
  | baseUrl base =>
    exact .bind (.lift _) fun _ => .bind (growing_get env) fun _ => growing_finishGeneration env
  | metalink url =>
    refine .bind (.lift _) fun _ => .bind (growing_get env) fun _ => ?_
    exact .bind (.lift _) fun _ => growing_tryResources env
  | mirrorlist url =>
    refine .bind (.lift _) fun _ => .bind (growing_get env) fun _ => ?_
    exact .bind (.lift _) fun _ => growing_tryMirrors env

end

end Dnfast.Refresh
