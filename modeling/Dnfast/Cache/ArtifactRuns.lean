import Mathlib.Data.List.Induction
import Dnfast.Cache.ArtifactStore

/-! # Runs of the artifact cache

The bytes that are there and those that the live transaction may still add never exceed the cap: a
transaction begins with this, and each artifact that is added was counted. A fetch that fails leaves its
artifact behind only when a call after the link fails. -/

namespace Dnfast.Cache.ArtifactStore

open Std (ExtTreeMap)
open Except (refuseIf okOr)
open Core (Sha256Digest)

variable {sha256 : Bytes → Sha256Digest} {files files' : Files} {s : Store} {spec : ArtifactSpec}
  {w : FetchWorld} {content : Bytes} {digest : String} {size : UInt64} {ids requested : List Identity}

/-! ## Bytes -/

/-- The bytes of the artifacts that are there. -/
def stored (files : Files) : Nat := files.total fun _ content => content.length

/-- What an identity lacks. -/
def lack (files : Files) (id : Identity) : Nat := if id.1 ∈ files then 0 else id.2.toNat

def lacking (files : Files) (ids : List Identity) : Nat := (ids.map (lack files)).sum

theorem checkedAdd_eq_some {a b c : Nat} (h : checkedAdd a b = some c) : c = a + b := by
  unfold checkedAdd at h
  split at h
  · exact (Option.some.inj h).symm
  · cases h

theorem foldlM_checkedAdd {l : List Nat} {a n : Nat} (h : l.foldlM checkedAdd a = some n) :
    n = a + l.sum := by
  induction l generalizing a with
  | nil => exact (Option.some.inj h).symm
  | cons x l ih =>
    rw [List.foldlM_cons] at h
    obtain ⟨b, hb, h⟩ := Option.bind_eq_some_iff.mp h
    rw [ih h, checkedAdd_eq_some hb, List.sum_cons, Nat.add_assoc]

theorem cachedBytes_eq_ok {b : BeginWorld} {n : Nat} (h : cachedBytes b files = .ok n) :
    n = stored files := by
  obtain ⟨-, h⟩ := Except.check_bind_eq_ok.mp h
  rw [foldlM_checkedAdd (Except.okOr_eq_ok.mp h), Nat.zero_add]
  rfl

theorem notMem_of_getElem? (h : files[digest]? = none) : digest ∉ files := fun hmem => by
  simp [ExtTreeMap.mem_iff_isSome_getElem?, h] at hmem

theorem foldlM_missingStep {b : BeginWorld} {a n : Nat}
    (h : ids.foldlM (missingStep sha256 b files) a = .ok n) : n = a + lacking files ids := by
  induction ids generalizing a with
  | nil =>
    cases Except.pure_eq_ok.mp h
    rfl
  | cons id ids ih =>
    rw [List.foldlM_cons] at h
    obtain ⟨a', hstep, h⟩ := Except.bind_eq_ok.mp h
    obtain ⟨-, hstep⟩ := Except.check_bind_eq_ok.mp hstep
    rw [ih h, lacking, lacking, List.map_cons, List.sum_cons]
    cases hget : files[id.1]? with
    | some content =>
      rw [hget] at hstep
      obtain ⟨_, -, hstep⟩ := Except.bind_eq_ok.mp hstep
      cases Except.pure_eq_ok.mp hstep
      rw [lack, if_pos (ExtTreeMap.mem_iff_isSome_getElem?.mpr (by rw [hget]; rfl)), Nat.zero_add]
    | none =>
      rw [hget] at hstep
      rw [checkedAdd_eq_some (Except.okOr_eq_ok.mp hstep), lack, if_neg (notMem_of_getElem? hget),
        Nat.add_assoc]

/-- A transaction that begins has room for everything that it lacks. -/
theorem beginTransaction_eq_ok {b : BeginWorld} {r : TransactionRequest}
    (h : beginTransaction sha256 b files r = .ok ids) :
    ids = r.identities ∧ stored files + lacking files ids ≤ MAX_CACHE_BYTES := by
  obtain ⟨-, h⟩ := Except.check_bind_eq_ok.mp h
  obtain ⟨-, h⟩ := Except.check_bind_eq_ok.mp h
  obtain ⟨missing, hmissing, h⟩ := Except.bind_eq_ok.mp h
  obtain ⟨request, hrequest, h⟩ := Except.bind_eq_ok.mp h
  obtain ⟨available, -, h⟩ := Except.bind_eq_ok.mp h
  obtain ⟨cached, hcached, h⟩ := Except.bind_eq_ok.mp h
  obtain ⟨hvalid, h⟩ := Except.check_bind_eq_ok.mp h
  cases Except.pure_eq_ok.mp h
  obtain ⟨-, hrequest⟩ := Except.check_bind_eq_ok.mp hrequest
  cases Except.pure_eq_ok.mp hrequest
  obtain ⟨-, hvalid⟩ := Except.check_bind_eq_ok.mp hvalid
  obtain ⟨cacheAfter, hafter, hvalid⟩ := Except.bind_eq_ok.mp hvalid
  obtain ⟨hcap, -⟩ := Except.check_bind_eq_ok.mp hvalid
  rw [Except.refuseIf_eq_ok, not_lt, checkedAdd_eq_some (Except.okOr_eq_ok.mp hafter),
    cachedBytes_eq_ok hcached, foldlM_missingStep hmissing, Nat.zero_add] at hcap
  exact ⟨rfl, hcap⟩

/-! ## Adding -/

theorem stored_insert (h : files[digest]? = none) :
    stored (files.insert digest content) = stored files + content.length := by
  have herase := ExtTreeMap.total_eq_erase_add (fun _ (content : Bytes) => content.length) files digest
  rw [ExtTreeMap.weightAt, h, Nat.add_zero] at herase
  rw [stored, stored, ExtTreeMap.total_insert, herase]

theorem erase_insert (h : files[digest]? = none) : (files.insert digest content).erase digest = files := by
  refine ExtTreeMap.ext_getElem? fun k => ?_
  rw [ExtTreeMap.getElem?_erase]
  split
  next hk => rw [← Std.compare_eq_iff_eq.mp hk, h]
  next hk => rw [ExtTreeMap.getElem?_insert, if_neg hk]

theorem lack_insert_le {id : Identity} : lack (files.insert digest content) id ≤ lack files id := by
  unfold lack
  by_cases hmem : id.1 ∈ files
  · rw [if_pos hmem, if_pos (ExtTreeMap.mem_insert.mpr (.inr hmem))]
  · rw [if_neg hmem]
    split
    · exact Nat.zero_le _
    · exact le_rfl

/-- An identity that is added is lacking no more. -/
theorem lacking_insert (h : files[digest]? = none) (hid : (digest, size) ∈ ids) :
    lacking (files.insert digest content) ids + size.toNat ≤ lacking files ids := by
  unfold lacking
  induction ids with
  | nil => exact absurd hid List.not_mem_nil
  | cons id ids ih =>
    rw [List.map_cons, List.map_cons, List.sum_cons, List.sum_cons]
    rcases List.mem_cons.mp hid with rfl | hid
    · have hrest : (ids.map (lack (files.insert digest content))).sum ≤ (ids.map (lack files)).sum :=
        List.sum_le_sum fun id _ => lack_insert_le
      rw [lack, lack, if_pos ExtTreeMap.mem_insert_self, if_neg (notMem_of_getElem? h)]
      dsimp only
      omega
    · have hone := @lack_insert_le files content digest id
      have hrest := ih hid
      omega

theorem lacking_filter_le {p : Identity → Bool} : lacking files (ids.filter p) ≤ lacking files ids :=
  ((List.filter_sublist).map _).sum_le_sum fun _ _ => Nat.zero_le _

/-! ## One fetch -/

theorem streamVerified_eq_ok {body : List (Except ArtifactError Bytes)}
    (h : streamVerified sha256 spec body = .ok content) :
    content.length = spec.size.toNat ∧ sha256 content = spec.digest := by
  obtain ⟨received, -, h⟩ := Except.bind_eq_ok.mp h
  obtain ⟨hlength, h⟩ := Except.check_bind_eq_ok.mp h
  obtain ⟨hdigest, h⟩ := Except.check_bind_eq_ok.mp h
  cases Except.pure_eq_ok.mp h
  rw [Except.refuseIf_eq_ok, not_not] at hlength hdigest
  exact ⟨hlength, hdigest⟩

theorem transfer_eq_ok (h : transfer sha256 w spec = .ok content) :
    content.length = spec.size.toNat ∧ sha256 content = spec.digest := by
  obtain ⟨response, -, h⟩ := Except.bind_eq_ok.mp h
  obtain ⟨-, h⟩ := Except.check_bind_eq_ok.mp h
  obtain ⟨-, h⟩ := Except.check_bind_eq_ok.mp h
  obtain ⟨-, h⟩ := Except.check_bind_eq_ok.mp h
  obtain ⟨received, hreceived, h⟩ := Except.bind_eq_ok.mp h
  obtain ⟨-, h⟩ := Except.check_bind_eq_ok.mp h
  obtain ⟨-, h⟩ := Except.check_bind_eq_ok.mp h
  cases Except.pure_eq_ok.mp h
  exact streamVerified_eq_ok hreceived

/-- The artifact is new and complete and gets its name, and then a call fails: the directory is not
synchronised, the artifact is not opened or inspected again, or the path has changed and the name is not
removed. -/
structure Leaves (sha256 : Bytes → Sha256Digest) (w : FetchWorld) (files : Files) (spec : ArtifactSpec) :
    Prop where
  fresh : files[spec.digest.asStr]? = none
  transfers : ∃ content, transfer sha256 w spec = .ok content
  links : w.links = .ok ()
  fails : (w.samePathLinked = .ok () ∧
      ¬ (w.syncsDirectory = .ok () ∧ w.reopens = .ok () ∧ w.inspects = .ok ())) ∨
    (w.samePathLinked ≠ .ok () ∧ w.unlinks ≠ .ok ())

/-- The new files and the result of a fetch. -/
inductive Fetched (sha256 : Bytes → Sha256Digest) (w : FetchWorld) (files : Files) (spec : ArtifactSpec) :
    Files → Except ArtifactError Bytes → Prop
  /-- Nothing is added. -/
  | same {result : Except ArtifactError Bytes} (h : ¬ Leaves sha256 w files spec) :
    Fetched sha256 w files spec files result
  | added {content : Bytes} {result : Except ArtifactError Bytes} (fresh : files[spec.digest.asStr]? = none)
    (length : content.length = spec.size.toNat) (digest : sha256 content = spec.digest)
    (h : Leaves sha256 w files spec ↔ ∃ e, result = .error e) :
    Fetched sha256 w files spec (files.insert spec.digest.asStr content) result

theorem exists_verifyIdentity {inspect : Except ArtifactError Unit} (hlength : content.length = size.toNat)
    (hdigest : (sha256 content).asStr = digest) :
    (∃ received, verifyIdentity sha256 inspect content digest size = .ok received) ↔ inspect = .ok () := by
  unfold verifyIdentity
  simp only [Except.check_bind_eq_ok, Except.refuseIf_eq_ok, exists_and_left]
  simp [hlength, hdigest]

theorem not_exists_eq_ok {x : Except ArtifactError Bytes} : (¬ ∃ a, x = .ok a) ↔ ∃ e, x = .error e := by
  cases x <;> simp

theorem fetched_link (htransfer : transfer sha256 w spec = .ok content) :
    Fetched sha256 w files spec (link sha256 w files spec content).1 (link sha256 w files spec content).2 := by
  obtain ⟨hlength, hdigest⟩ := transfer_eq_ok htransfer
  unfold link
  cases hlinks : w.links with
  | error e => exact .same fun h => by cases hlinks.symm.trans h.links
  | ok _ =>
    cases hfresh : files[spec.digest.asStr]? with
    | some existing => exact .same fun h => by cases hfresh.symm.trans h.fresh
    | none =>
      dsimp only
      cases hpath : w.samePathLinked with
      | error e =>
        cases hunlinks : w.unlinks with
        | error e' =>
          refine .added hfresh hlength hdigest ⟨fun _ => ⟨e', rfl⟩, fun _ => ?_⟩
          exact ⟨hfresh, ⟨content, htransfer⟩, hlinks, .inr ⟨by simp [hpath], by simp [hunlinks]⟩⟩
        | ok _ =>
          dsimp only
          rw [erase_insert hfresh]
          refine .same fun h => ?_
          rcases h.fails with ⟨hsame, -⟩ | ⟨-, hunlink⟩
          · cases hpath.symm.trans hsame
          · exact hunlink hunlinks
      | ok _ =>
        refine .added hfresh hlength hdigest ?_
        have hlast : (∃ received, (w.syncsDirectory >>= fun _ => w.reopens >>= fun _ =>
            verifyIdentity sha256 w.inspects content spec.digest.asStr spec.size) = .ok received) ↔
            w.syncsDirectory = .ok () ∧ w.reopens = .ok () ∧ w.inspects = .ok () := by
          simp only [Except.check_bind_eq_ok, exists_and_left,
            exists_verifyIdentity hlength (congrArg Sha256Digest.asStr hdigest)]
        rw [← not_exists_eq_ok, hlast]
        constructor
        · intro h
          rcases h.fails with ⟨-, hfails⟩ | ⟨hpath', -⟩
          · exact hfails
          · exact absurd hpath hpath'
        · exact fun hfails => ⟨hfresh, ⟨content, htransfer⟩, hlinks, .inl ⟨hpath, hfails⟩⟩

theorem fetched_fetchFile :
    Fetched sha256 w files spec (fetchFile sha256 w files spec).1 (fetchFile sha256 w files spec).2 := by
  unfold fetchFile
  cases hexisting : existing w files spec with
  | some content =>
    refine .same fun h => ?_
    unfold existing at hexisting
    split at hexisting
    · cases hexisting
    · cases hexisting.symm.trans h.fresh
  | none =>
    dsimp only
    cases htransfer : transfer sha256 w spec with
    | error e =>
      refine .same fun h => ?_
      obtain ⟨content, hcontent⟩ := h.transfers
      cases htransfer.symm.trans hcontent
    | ok content => exact fetched_link htransfer

/-! ## Runs -/

def Action.identities : Action → List Identity
  | .begin transaction _ => transaction.identities
  | _ => []

/-- The identities of the transactions of a run. -/
def requestedIn (actions : List Action) : List Identity := actions.flatMap Action.identities

/-- Every artifact is named by its digest and has a size that was requested. -/
def Named (sha256 : Bytes → Sha256Digest) (requested : List Identity) (files : Files) : Prop :=
  ∀ (name : String) (content : Bytes), files[name]? = some content →
    (sha256 content).asStr = name ∧ ∃ size, (name, size) ∈ requested ∧ content.length = size.toNat

/-- What the actions keep: there is room for what the live transaction lacks. -/
structure Keeps (sha256 : Bytes → Sha256Digest) (requested : List Identity) (s : Store) : Prop where
  named : Named sha256 requested s.files
  pending : ∀ id ∈ s.remaining, id ∈ requested
  room : stored s.files + lacking s.files s.remaining ≤ MAX_CACHE_BYTES

theorem Keeps.append (h : Keeps sha256 requested s) (more : List Identity) :
    Keeps sha256 (requested ++ more) s where
  named name content hget :=
    let ⟨hdigest, size, hmem, hsize⟩ := h.named name content hget
    ⟨hdigest, size, List.mem_append_left _ hmem, hsize⟩
  pending id hid := List.mem_append_left _ (h.pending id hid)
  room := h.room

theorem keeps_begin {r : TransactionRequest} {b : BeginWorld} (h : Keeps sha256 requested s) :
    Keeps sha256 (requested ++ r.identities) (act sha256 s (.begin r b)).1 := by
  unfold act
  dsimp only
  split
  · exact h.append _
  · split
    · exact h.append _
    next remaining hbegin =>
      obtain ⟨rfl, hroom⟩ := beginTransaction_eq_ok hbegin
      exact ⟨(h.append _).named, fun id hid => List.mem_append_right _ hid, hroom⟩

/-- A fetch adds at most an artifact that was counted when the transaction began. -/
theorem keeps_files (h : Keeps sha256 requested s) (hpending : spec.identity ∈ s.remaining) :
    Keeps sha256 requested { s with files := (fetchFile sha256 w s.files spec).1 } := by
  have hfetched := @fetched_fetchFile sha256 s.files spec w
  generalize fetchFile sha256 w s.files spec = fetched at hfetched ⊢
  obtain ⟨files, result⟩ := fetched
  cases hfetched with
  | same => exact h
  | @added content _ fresh length digest =>
    refine ⟨fun name content' hget => ?_, h.pending, ?_⟩
    · change (s.files.insert spec.digest.asStr content)[name]? = some content' at hget
      rw [ExtTreeMap.getElem?_insert] at hget
      split at hget
      next hname =>
        cases hget
        rw [← Std.compare_eq_iff_eq.mp hname]
        exact ⟨congrArg Sha256Digest.asStr digest, spec.size, h.pending _ hpending, length⟩
      · exact h.named name content' hget
    · have hlacking : lacking (s.files.insert spec.digest.asStr content) s.remaining + spec.size.toNat ≤
          lacking s.files s.remaining := lacking_insert fresh hpending
      have hroom := h.room
      change stored (s.files.insert spec.digest.asStr content) +
        lacking (s.files.insert spec.digest.asStr content) s.remaining ≤ MAX_CACHE_BYTES
      rw [stored_insert fresh, length]
      omega

theorem keeps_done (h : Keeps sha256 requested s) (p : Identity → Bool) :
    Keeps sha256 requested { s with live := s.live.map (·.filter p) } := by
  have hremaining : ({ s with live := s.live.map (·.filter p) } : Store).remaining = s.remaining.filter p := by
    unfold Store.remaining
    cases s.live <;> rfl
  refine ⟨h.named, fun id hid => ?_, ?_⟩
  · rw [hremaining] at hid
    exact h.pending id (List.mem_of_mem_filter hid)
  · rw [hremaining]
    exact (Nat.add_le_add_left lacking_filter_le _).trans h.room

theorem act_of_mem (h : spec.identity ∈ s.remaining) : act sha256 s (.fetch spec w) =
    match (fetchFile sha256 w s.files spec).2 with
    | .error e => ({ s with files := (fetchFile sha256 w s.files spec).1 }, .error e)
    | .ok _ => (⟨(fetchFile sha256 w s.files spec).1, s.live.map (·.filter (· ≠ spec.identity))⟩, .ok ()) := by
  unfold act fetch
  dsimp only
  rw [if_pos h]
  cases (fetchFile sha256 w s.files spec).2 <;> rfl

theorem act_of_notMem (h : spec.identity ∉ s.remaining) : act sha256 s (.fetch spec w) =
    (s, .error (.capacity "artifact is not pending in this transaction")) := by
  unfold act fetch
  dsimp only
  rw [if_neg h]
  rfl

theorem keeps_fetch (h : Keeps sha256 requested s) :
    Keeps sha256 requested (act sha256 s (.fetch spec w)).1 := by
  by_cases hpending : spec.identity ∈ s.remaining
  · have hfiles := keeps_files (w := w) h hpending
    rw [act_of_mem hpending]
    cases (fetchFile sha256 w s.files spec).2 with
    | error e => exact hfiles
    | ok content => exact keeps_done hfiles _
  · rw [act_of_notMem hpending]
    exact h

theorem keeps_act (h : Keeps sha256 requested s) (a : Action) :
    Keeps sha256 (requested ++ a.identities) (act sha256 s a).1 := by
  cases a with
  | begin transaction b => exact keeps_begin h
  | fetch spec w => exact (keeps_fetch h).append []
  | drop =>
    have hdropped : Keeps sha256 requested { s with live := none } :=
      ⟨h.named, fun id hid => absurd hid List.not_mem_nil, (Nat.le_add_right _ _).trans h.room⟩
    exact hdropped.append []

theorem run_append (actions : List Action) (a : Action) :
    run sha256 (actions ++ [a]) = (act sha256 (run sha256 actions) a).1 := by
  rw [run, List.foldl_append]
  rfl

theorem keeps_run (actions : List Action) : Keeps sha256 (requestedIn actions) (run sha256 actions) := by
  induction actions using List.reverseRecOn with
  | nil => exact ⟨fun name content hget => by simp [run] at hget, fun id hid => hid, Nat.zero_le _⟩
  | append_singleton actions a ih =>
    rw [run_append, requestedIn, List.flatMap_append, List.flatMap_singleton]
    exact keeps_act ih a

/-- A pending artifact whose fetch fails is added or not. -/
theorem failed_fetch_iff (hpending : spec.identity ∈ s.remaining) :
    (∀ e, (act sha256 s (.fetch spec w)).2 = .error e → (act sha256 s (.fetch spec w)).1.files = s.files) ↔
      ¬ Leaves sha256 w s.files spec := by
  have hfetched := @fetched_fetchFile sha256 s.files spec w
  rw [act_of_mem hpending]
  generalize fetchFile sha256 w s.files spec = fetched at hfetched ⊢
  obtain ⟨files, result⟩ := fetched
  cases hfetched with
  | same hleaves =>
    refine iff_of_true (fun e _ => ?_) hleaves
    cases result <;> rfl
  | @added content _ fresh length digest hleaves =>
    rw [hleaves]
    cases result with
    | error e =>
      refine iff_of_false (fun h => ?_) (not_not.mpr ⟨e, rfl⟩)
      have hsame : s.files.insert spec.digest.asStr content = s.files := h e rfl
      rw [← hsame, ExtTreeMap.getElem?_insert_self] at fresh
      cases fresh
    | ok _ => exact iff_of_true (fun e he => nomatch he) (by simp)

/-- What holds of a run: in every state the artifacts are named by their digests, have requested sizes and
stay within the cap, a fetch of what is not pending is refused, and a failed fetch adds nothing. -/
structure Upholds (sha256 : Bytes → Sha256Digest) (actions : List Action) : Prop where
  named : ∀ before after, actions = before ++ after →
    Named sha256 (requestedIn before) (run sha256 before).files
  capped : ∀ before after, actions = before ++ after → stored (run sha256 before).files ≤ MAX_CACHE_BYTES
  refused : ∀ before spec w after, actions = before ++ .fetch spec w :: after →
    spec.identity ∉ (run sha256 before).remaining → act sha256 (run sha256 before) (.fetch spec w) =
      (run sha256 before, .error (.capacity "artifact is not pending in this transaction"))
  unchanged : ∀ before spec w after e, actions = before ++ .fetch spec w :: after →
    (act sha256 (run sha256 before) (.fetch spec w)).2 = .error e →
      (act sha256 (run sha256 before) (.fetch spec w)).1.files = (run sha256 before).files

/-- A run does all of this exactly when no fetch of it leaves an artifact behind. -/
theorem upholds_iff (sha256 : Bytes → Sha256Digest) (actions : List Action) :
    Upholds sha256 actions ↔ ∀ before spec w after, actions = before ++ .fetch spec w :: after →
      spec.identity ∈ (run sha256 before).remaining →
        ¬ Leaves sha256 w (run sha256 before).files spec := by
  constructor
  · intro h before spec w after heq hpending
    exact (failed_fetch_iff hpending).mp fun e he => h.unchanged before spec w after e heq he
  · intro h
    refine ⟨fun before after _ => (keeps_run before).named, fun before after _ => ?_,
      fun before spec w after _ hnot => act_of_notMem hnot, fun before spec w after e heq he => ?_⟩
    · exact (Nat.le_add_right _ _).trans (keeps_run before).room
    · by_cases hpending : spec.identity ∈ (run sha256 before).remaining
      · exact (failed_fetch_iff hpending).mpr (h before spec w after heq hpending) e he
      · rw [act_of_notMem hpending]

/-- The digest of the empty artifact. -/
def emptyDigest : Sha256Digest :=
  ⟨"e3b0c44298fc1c149afbf4c8996fb92427ae41e4649b934ca495991b7852b855", Core.isLowerDigest_noBytes⟩

def emptySpec : ArtifactSpec := ⟨"https://repo.example/empty.rpm", emptyDigest, 0⟩

/-- An empty artifact is fetched, and synchronising the directory fails. -/
def unsyncedRun : List Action :=
  [.begin ⟨0, 1, [emptySpec.identity]⟩ ⟨.ok (), fun _ => .ok (), fun _ => .ok (), .ok (), .ok 4096⟩,
    .fetch emptySpec
      { opens := .ok (), inspects := .ok (), responds := .ok ⟨200, []⟩, samePath := .ok (),
        creates := .ok (), syncs := .ok (), samePathAfter := .ok (), links := .ok (),
        samePathLinked := .ok (), unlinks := .ok (), syncsDirectory := .error (.io "I/O error"),
        reopens := .ok () }]

theorem failed_fetch_adds : ¬ Upholds (fun _ => emptyDigest) unsyncedRun := by
  intro h
  have hfiles := h.unchanged [_] emptySpec _ [] (.io "I/O error") rfl rfl
  have hsame : ((act (fun _ => emptyDigest) (run (fun _ => emptyDigest) (unsyncedRun.take 1))
      (unsyncedRun.getD 1 .drop)).1.files == (run (fun _ => emptyDigest) (unsyncedRun.take 1)).files) =
        true := beq_iff_eq.mpr hfiles
  revert hsame
  decide +kernel

end Dnfast.Cache.ArtifactStore
