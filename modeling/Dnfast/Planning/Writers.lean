import Dnfast.Planning.Runs

/-! # The writers of the store

The three kinds of publications each write the whole snapshot. Two of them write the current one again,
with one part of it replaced; a refresh makes its snapshot from the configuration and the cache and takes
only the module state over. Under the publication lock one follows the other, so what a publication does
not replace is what the publication before it has left. -/

namespace Dnfast.Planning

open Durable
open Core (isLowerDigest InstalledInventory)

section
variable {lib : Library} {content : String → List UInt8} {s s' : Store} {e : Event}
  {current new : PlanningSnapshot}

/-! ## What a publication replaces -/

/-- The snapshots differ in their inventories and module states at most. -/
structure SameSources (current new : PlanningSnapshot) : Prop where
  repositories : new.payload.allowedRepositories = current.payload.allowedRepositories
  policy : new.payload.policy = current.payload.policy
  configuration : new.payload.configuration = current.payload.configuration
  publishedAtUnix : new.publishedAtUnix = current.publishedAtUnix
  refreshed : new.refreshedRepositoryIds = current.refreshedRepositoryIds

theorem sameSources_of_inventory {inventory : InstalledInventory}
    (h : withInventory lib current inventory = .ok new) :
    SameSources current new ∧ new.payload.moduleState = current.payload.moduleState := by
  obtain ⟨rfl, -⟩ := renewed_eq_ok.mp (withInventory_eq_ok.mp h).2
  exact ⟨⟨rfl, rfl, rfl, rfl, rfl⟩, rfl⟩

theorem sameSources_of_moduleState {host : Host}
    {reader : PlanningBytes → Except PlanningError (List UInt8)} {expected : String}
    {moduleState : ModuleState}
    (h : withModuleState lib host reader current expected moduleState = .ok new) :
    SameSources current new ∧ new.payload.moduleState = moduleState := by
  obtain ⟨rfl, -⟩ := renewed_eq_ok.mp (withModuleState_eq_ok.mp h).2.2
  exact ⟨⟨rfl, rfl, rfl, rfl, rfl⟩, rfl⟩

/-- Both ways to refresh take the module state over. -/
theorem moduleState_of_refresh {r : Refresh} {host : Host}
    {reader : PlanningBytes → Except PlanningError (List UInt8)}
    (h : (Publication.refresh r).snapshot lib host reader (some current) = .ok new) :
    new.payload.moduleState = current.payload.moduleState := by
  rcases (snapshot_refresh_eq_ok.mp h).2 with hreuse | ⟨-, hrebuilt⟩
  · unfold Refresh.reuse at hreuse
    split at hreuse
    next hcurrent _ =>
      cases hcurrent
      obtain ⟨_, _, _, -, -, -, hnew⟩ := reuse_eq_some hreuse
      obtain ⟨rfl, -⟩ := newSnapshot_eq_ok.mp hnew
      rfl
    · cases hreuse
  · obtain ⟨_, _, _, -, -, -, hnew⟩ := snapshotFrom_eq_ok.mp hrebuilt
    obtain ⟨rfl, -⟩ := newSnapshot_eq_ok.mp hnew
    rfl

/-! ## A store that cannot be opened -/

/-- The pointer names what cannot be opened. -/
structure Stuck (lib : Library) (s : Store) : Prop where
  pointer : ∃ file, s.files.now[currentPointerName]? = some file
  unreadable : ∀ current, openSnapshot lib s ≠ .ok current

/-- The store is left as it was, and the publication has failed. -/
def Refused (s : Store) (o : Outcome (Fault PlanningError) String) (s' : Store) : Prop :=
  s' = s ∧ ∀ d, o ≠ .ok d

variable {A : Fate (Fault PlanningError) → Prop} {occasion : Occasion} {α : Type}

/-- A publication that ends at a step that reads. -/
theorem sat_refused {m : Program α} {f : α → Program String} {P : α → Store → Prop}
    (hm : m.Ensures A s (· = s) False P)
    (hf : ∀ a, P a s → (f a).Sat A s (Refused s)) : (m >>= f).Sat A s (Refused s) := by
  refine Exec.Sat.bind hm ?_ ?_ ?_
  · rintro a s' ⟨rfl, ha⟩
    exact hf a ha
  · rintro e s' ⟨rfl, -⟩
    exact ⟨rfl, nofun⟩
  · rintro s' ⟨rfl, -⟩
    exact ⟨rfl, nofun⟩

theorem Stuck.refused (h : Stuck lib s) (p : Publication) : (p.run lib occasion).Sat A s (Refused s) := by
  have hopen : (reading (openSnapshot lib)).Ensures A s (· = s) False fun _ _ => False :=
    ensures_reading rfl (fun c hc => h.unreadable c hc) fun _ _ _ hfalse => hfalse
  cases p with
  | inventory i => exact sat_refused hopen fun _ hfalse => hfalse.elim
  | moduleState expected m => exact sat_refused hopen fun _ hfalse => hfalse.elim
  | refresh r =>
    refine sat_refused (P := fun _ _ => True)
      (Exec.Ensures.lift rfl (fun _ _ => trivial) fun _ _ _ hfalse => hfalse) fun _ _ => ?_
    refine sat_refused (P := fun _ _ => False)
      (ensures_reading rfl (fun current hcurrent => ?_) fun _ _ _ hfalse => hfalse)
      fun _ hfalse => hfalse.elim
    cases current with
    | none =>
      obtain ⟨file, hfile⟩ := h.pointer
      rw [currentSnapshot_eq_ok_none.mp hcurrent] at hfile
      cases hfile
    | some c => exact h.unreadable c (currentSnapshot_eq_ok_some.mp hcurrent)

/-- A module state that was made for another snapshot than the current one is refused. -/
theorem refused_of_stale (occasion : Occasion) {expected : String} (moduleState : ModuleState)
    (h : ∀ c, openSnapshot lib s = .ok c → c.digest lib ≠ .ok expected) :
    ((Publication.moduleState expected moduleState).run lib occasion).Sat A s (Refused s) := by
  refine sat_refused (P := fun c _ => openSnapshot lib s = .ok c)
    (ensures_reading rfl (fun _ hc => hc) fun _ _ _ hfalse => hfalse) fun c hopen => ?_
  refine sat_refused (P := fun _ _ => False)
    (ensures_reading rfl (fun new hnew => ?_) fun _ _ _ hfalse => hfalse) fun _ hfalse => hfalse.elim
  exact h c hopen (withModuleState_eq_ok.mp hnew).1

/-! ## One publication after the other -/

/-- The publication runs to its end under the lock, under names of its own. -/
structure Event.Serial (lib : Library) (content : String → List UInt8) (s : Store) (e : Event) : Prop
    where
  fair : e.Fair lib content s
  undisturbed : e.fates = []
  fresh : Fresh e.occasion s

/-- What every publication under the lock finds. -/
structure Steady (lib : Library) (content : String → List UInt8) (s : Store) : Prop where
  sound : Sound lib content s
  whole : Whole s
  readable : Fits s ∨ Stuck lib s

theorem stuck_of_large {digest : String} {bytes : List UInt8} (hpoints : Points s digest)
    (hfile : HasFile s digest bytes) (hlarge : maxSnapshotBytes < bytes.length) : Stuck lib s := by
  refine ⟨?_, fun _ => openSnapshot_ne_ok hpoints hfile hlarge⟩
  obtain ⟨file, hpointer, -⟩ := hpoints
  exact ⟨file, hpointer⟩

theorem eq_of_hasFile {digest : String} {bytes : List UInt8} {c : PlanningSnapshot}
    (hpoints : Points s digest) (hfile : HasFile s digest bytes) (hdecodes : Decodes lib bytes new)
    (h : openSnapshot lib s = .ok c) : c = new := by
  obtain ⟨name, bytes', hpoints', hread, hdecodes', -⟩ := openSnapshot_eq_ok.mp h
  cases hpoints.unique hpoints'
  obtain ⟨d, file, hd, hfile, rfl⟩ := hfile
  obtain ⟨d', file', hd', hfile', -, rfl⟩ := readSnapshotFile_eq_ok.mp hread
  cases hd.symm.trans hd'
  cases hfile.symm.trans hfile'
  exact hdecodes'.unique hdecodes

theorem Points.pointer {digest : String} (h : Points s digest) :
    s.files.now[currentPointerName]? ≠ none := by
  obtain ⟨file, hfile, -⟩ := h
  rw [hfile]
  exact Option.some_ne_none file

/-- The snapshot that is current after a publication is the one that was, or the one that the
publication had to store, as its result says. -/
theorem Event.Serial.opens (he : e.Serial lib content s) (hs : Steady lib content s) :
    Steady lib content (e.after lib s) ∧
      (s.files.now[currentPointerName]? ≠ none →
        (e.after lib s).files.now[currentPointerName]? ≠ none) ∧
      ∀ c, openSnapshot lib (e.after lib s) = .ok c →
        (openSnapshot lib s = .ok c ∧ ∀ d, e.outcome lib s ≠ .ok d) ∨
          ∃ d, e.outcome lib s = .ok d ∧ Intends lib content e.occasion.host s e.publication c := by
  have hnone : ∀ f ∈ e.fates, (fun _ : Fate (Fault PlanningError) => False) f := by
    rw [he.undisturbed]
    exact fun _ => List.not_mem_nil
  rcases hs.readable with hfits | hstuck
  · have hend := e.ends hs.sound he.fair hnone
    cases ho : e.outcome lib s with
    | ok d =>
      obtain ⟨new, hintends, hdecodes, rfl, hpoints, hfile, -, hwhole, -⟩ := hend.ok d ho
      refine ⟨⟨hend.sound, hwhole hs.whole, ?_⟩, fun _ => hpoints.pointer, fun c hc => .inr ⟨_, rfl, ?_⟩⟩
      · by_cases hlarge : maxSnapshotBytes < (lib.toVec new).length
        · exact .inr (stuck_of_large hpoints hfile hlarge)
        · refine .inl (hend.fits hfits fun new' hintends' => ?_)
          obtain ⟨current, hcurrent, hnew⟩ := hintends
          obtain ⟨current', hcurrent', hnew'⟩ := hintends'
          cases hcurrent.symm.trans hcurrent'
          cases hnew.symm.trans hnew'
          exact Nat.not_lt.mp hlarge
      · rwa [eq_of_hasFile hpoints hfile hdecodes hc]
    | err error =>
      obtain ⟨hwhole, hcase, -⟩ := hend.err error ho (fun _ h => h) hs.whole hfits
      rcases hcase with ⟨hunmoved, hfits'⟩ | ⟨new, d, -, hlarge, hpoints, hfile⟩
      · refine ⟨⟨hend.sound, hwhole, .inl (hfits' he.fresh)⟩, fun hpointer => ?_,
          fun c hc => .inl ⟨?_, nofun⟩⟩
        · rwa [hunmoved.pointer]
        · exact (hunmoved.openSnapshot_eq_ok hs.sound).mp hc
      · have hstuck : Stuck lib (e.after lib s) := stuck_of_large hpoints hfile hlarge
        exact ⟨⟨hend.sound, hwhole, .inr hstuck⟩, fun _ => hpoints.pointer,
          fun c hc => absurd hc (hstuck.unreadable c)⟩
    | crashed => exact (hend.crashed ho).elim
  · have hrefused : Refused s (e.outcome lib s) (e.after lib s) :=
      (hstuck.refused (A := fun _ => False) e.publication e.fates hnone).1
    rw [hrefused.1]
    exact ⟨hs, fun hpointer => hpointer, fun c hc => absurd hc (hstuck.unreadable c)⟩

theorem steady_of_reaches (hs : Steady lib content s)
    (h : Reaches lib (fun s e => e.Serial lib content s) s s') : Steady lib content s' :=
  h.invariant hs fun _ _ hs he => (he.opens hs).1

/-- The publication stores no module state. -/
def Event.KeepsModuleState (lib : Library) (s : Store) (e : Event) : Prop :=
  ∀ expected moduleState, e.publication = .moduleState expected moduleState →
    ∀ d, e.outcome lib s ≠ .ok d

/-- Only a successful publication of a module state changes the module state. -/
theorem moduleState_step {moduleState : ModuleState} (hs : Steady lib content s)
    (he : e.Serial lib content s) (hkeeps : e.KeepsModuleState lib s)
    (hbefore : ∀ c, openSnapshot lib s = .ok c → c.payload.moduleState = moduleState)
    (hpointer : s.files.now[currentPointerName]? ≠ none) :
    ∀ c, openSnapshot lib (e.after lib s) = .ok c → c.payload.moduleState = moduleState := by
  intro c hc
  rcases (he.opens hs).2.2 c hc with ⟨hsame, -⟩ | ⟨d, hok, current, hcurrent, hnew⟩
  · exact hbefore c hsame
  · cases current with
    | none => exact absurd (currentSnapshot_eq_ok_none.mp hcurrent) hpointer
    | some current =>
      have hopen := currentSnapshot_eq_ok_some.mp hcurrent
      cases hp : e.publication with
      | refresh r =>
        rw [hp] at hnew
        rw [moduleState_of_refresh hnew, hbefore current hopen]
      | inventory i =>
        rw [hp] at hnew
        obtain ⟨_, hsome, hnew⟩ := snapshot_inventory_eq_ok.mp hnew
        cases hsome
        rw [(sameSources_of_inventory hnew).2, hbefore current hopen]
      | moduleState expected m => exact absurd hok (hkeeps expected m hp d)

/-- What a publication of an inventory or of a module state changes. -/
theorem sameSources_step {c c' : PlanningSnapshot} (hs : Steady lib content s)
    (he : e.Serial lib content s) (hkind : ∀ r, e.publication ≠ .refresh r)
    (hbefore : openSnapshot lib s = .ok c) (hafter : openSnapshot lib (e.after lib s) = .ok c') :
    SameSources c c' := by
  rcases (he.opens hs).2.2 c' hafter with ⟨hsame, -⟩ | ⟨d, -, current, hcurrent, hnew⟩
  · cases hbefore.symm.trans hsame
    exact ⟨rfl, rfl, rfl, rfl, rfl⟩
  · cases hcurrent.symm.trans (currentSnapshot_eq_ok_some.mpr hbefore)
    cases hp : e.publication with
    | refresh r => exact absurd hp (hkind r)
    | inventory i =>
      rw [hp] at hnew
      obtain ⟨_, hsome, hnew⟩ := snapshot_inventory_eq_ok.mp hnew
      cases hsome
      exact (sameSources_of_inventory hnew).1
    | moduleState expected m =>
      rw [hp] at hnew
      obtain ⟨_, hsome, hnew⟩ := snapshot_moduleState_eq_ok.mp hnew
      cases hsome
      exact (sameSources_of_moduleState hnew).1

/-- The module state that was stored is the one of every later snapshot. -/
theorem moduleState_of_reaches {moduleState : ModuleState} (hs : Steady lib content s)
    (hbefore : ∀ c, openSnapshot lib s = .ok c → c.payload.moduleState = moduleState)
    (hpointer : s.files.now[currentPointerName]? ≠ none)
    (h : Reaches lib (fun s e => e.Serial lib content s ∧ e.KeepsModuleState lib s) s s') :
    ∀ c, openSnapshot lib s' = .ok c → c.payload.moduleState = moduleState := by
  have hinv : Steady lib content s' ∧ s'.files.now[currentPointerName]? ≠ none ∧
      ∀ c, openSnapshot lib s' = .ok c → c.payload.moduleState = moduleState := by
    refine h.invariant (I := fun s => Steady lib content s ∧
      s.files.now[currentPointerName]? ≠ none ∧
      ∀ c, openSnapshot lib s = .ok c → c.payload.moduleState = moduleState)
      ⟨hs, hpointer, hbefore⟩ ?_
    rintro s e ⟨hs, hpointer, hbefore⟩ ⟨he, hkeeps⟩
    exact ⟨(he.opens hs).1, (he.opens hs).2.1 hpointer,
      moduleState_step hs he hkeeps hbefore hpointer⟩
  exact hinv.2.2

/-- Under the lock, a module state that was stored stays until another one is stored; the publication of
an inventory or of a module state leaves the repositories, the policy, the configuration, the time and
the list of refreshed repositories alone; and a module state that was made for another snapshot than the
current one is refused, and leaves the store as it was. -/
theorem publications_keep_the_rest (hs : Sound lib content s) (hwhole : Whole s) (hfits : Fits s)
    (h : Reaches lib (fun s e => e.Serial lib content s) s s') (he : e.Serial lib content s') :
    (∀ expected moduleState d, e.publication = .moduleState expected moduleState →
      e.outcome lib s' = .ok d → ∀ s'', Reaches lib
        (fun s e => e.Serial lib content s ∧ e.KeepsModuleState lib s) (e.after lib s') s'' →
      ∀ c, openSnapshot lib s'' = .ok c → c.payload.moduleState = moduleState) ∧
    ((∀ r, e.publication ≠ .refresh r) → ∀ c c', openSnapshot lib s' = .ok c →
      openSnapshot lib (e.after lib s') = .ok c' → SameSources c c') ∧
    ∀ expected moduleState, e.publication = .moduleState expected moduleState →
      (∀ c, openSnapshot lib s' = .ok c → c.digest lib ≠ .ok expected) →
      e.after lib s' = s' ∧ ∀ d, e.outcome lib s' ≠ .ok d := by
  have hsteady := steady_of_reaches ⟨hs, hwhole, .inl hfits⟩ h
  refine ⟨fun expected moduleState d hp hok s'' hlater => ?_, fun hkind c c' hc hc' => ?_,
    fun expected moduleState hp hstale => ?_⟩
  · obtain ⟨hsteady', -, hopens⟩ := he.opens hsteady
    have hend := e.ends (A := fun _ => True) hsteady.sound he.fair fun _ _ => trivial
    obtain ⟨_, -, -, -, hpoints, -⟩ := hend.ok d hok
    refine moduleState_of_reaches hsteady' (fun c hc => ?_) hpoints.pointer hlater
    obtain ⟨-, hno⟩ | ⟨_, -, current, -, hnew⟩ := hopens c hc
    · exact absurd hok (hno d)
    · rw [hp] at hnew
      obtain ⟨_, -, hnew⟩ := snapshot_moduleState_eq_ok.mp hnew
      exact (sameSources_of_moduleState hnew).2
  · exact sameSources_step hsteady he hkind hc hc'
  · have hrefused := (refused_of_stale (A := fun _ => True) e.occasion moduleState hstale e.fates
      fun _ _ => trivial).1
    rw [← hp] at hrefused
    exact hrefused

end

/-- The module state that is current already is stored once more. -/
def soloModuleEvent : Event := ⟨.moduleState newDigest.asStr ⟨[]⟩, soloOccasion, []⟩

theorem withModuleState_solo : withModuleState soloLibrary pairHost (contents soloLibrary soloContent)
    (soloSnapshot newInventory) newDigest.asStr ⟨[]⟩ = .ok (soloSnapshot newInventory) := by
  refine withModuleState_eq_ok.mpr ⟨?_, by decide +kernel, renewed_eq_ok.mpr ⟨rfl, validate_new⟩⟩
  rw [decodes_new.digest, sha256_new]

theorem intends_soloModuleEvent {new : PlanningSnapshot}
    (h : Intends soloLibrary soloContent pairHost soloStore soloModuleEvent.publication new) :
    new = soloSnapshot newInventory := by
  obtain ⟨current, hcurrent, hnew⟩ := h
  cases hcurrent.symm.trans (currentSnapshot_eq_ok_some.mpr openSnapshot_soloStore)
  obtain ⟨_, hsome, hnew⟩ := snapshot_moduleState_eq_ok.mp hnew
  cases hsome
  exact Except.ok.inj (hnew.symm.trans withModuleState_solo)

theorem serial_soloModuleEvent : soloModuleEvent.Serial soloLibrary soloContent soloStore := by
  refine ⟨⟨fun new hnew => ?_, fun new hnew => ?_, nofun⟩, rfl, fresh_soloStore⟩
  · rw [intends_soloModuleEvent hnew, toVec_new]
    exact decodes_new.1
  · rw [intends_soloModuleEvent hnew, toVec_new, sha256_new, soloContent_new]

theorem outcome_soloModuleEvent : ∃ d, soloModuleEvent.outcome soloLibrary soloStore = .ok d := by
  have hvalid : soloModuleEvent.publication.Valid soloLibrary soloContent pairHost
      (some (soloSnapshot newInventory)) (soloSnapshot newInventory) := by
    refine ⟨snapshot_moduleState_eq_ok.mpr ⟨_, rfl, withModuleState_solo⟩, ?_, nofun, nofun⟩
    rw [toVec_new]
    exact length_soloDocument_le (by decide)
  obtain ⟨d, s', hrun, -⟩ := (usable_of_whole sound_soloStore whole_soloStore fits_soloStore).publishes
    soloOccasion _ _ _ (currentSnapshot_eq_ok_some.mpr openSnapshot_soloStore) hvalid
    serial_soloModuleEvent.fair fresh_soloStore
  rw [Event.clean_eq] at hrun
  exact ⟨d, (Prod.mk.inj hrun).1⟩

theorem publications_keep_the_rest_solo :
    (∃ d, soloModuleEvent.outcome soloLibrary soloStore = .ok d) ∧
      ∀ c, openSnapshot soloLibrary (soloModuleEvent.after soloLibrary soloStore) = .ok c →
        c.payload.moduleState = ⟨[]⟩ ∧ SameSources (soloSnapshot newInventory) c := by
  refine ⟨outcome_soloModuleEvent, fun c hc => ?_⟩
  obtain ⟨d, hok⟩ := outcome_soloModuleEvent
  obtain ⟨hstays, hsources, -⟩ := publications_keep_the_rest sound_soloStore whole_soloStore
    fits_soloStore .start serial_soloModuleEvent
  exact ⟨hstays _ _ d rfl hok _ .start c hc, hsources nofun _ c openSnapshot_soloStore hc⟩

end Dnfast.Planning
