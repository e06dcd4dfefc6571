import Mathlib.Logic.Relation
import Dnfast.Data.Exchange
import Dnfast.Planning.Modules

/-! # What a mutation changes

A mutation names modules and changes their entries; enabling also completes the dependencies. The order
in which the modules are named does not matter, entries that are there stay as they are, and what is
added is demanded, from the named modules on, by the alternatives that are chosen. -/

namespace Dnfast.Planning

open Std (ExtTreeMap)
open Relation (ReflTransGen)

/-- The specifications name the module. -/
def Named (specs : List String) (name : String) : Prop :=
  ∃ spec ∈ specs, ∃ stream, parseSpec spec = .ok (name, stream)

/-- Every entry stands under its name. -/
def Keyed (entries : Entries) : Prop := ∀ (k : String) (e : ModuleStateEntry), entries[k]? = some e → e.name = k

namespace ModuleCatalog

variable {c : ModuleCatalog} {entries : Entries} {current result : ModuleState}
  {operation : ModuleMutation} {specs : List String} {name k : String} {e : ModuleStateEntry}

/-! ## States and their maps -/

theorem getElem?_foldl_insert {l : List ModuleStateEntry} (h : (l.map (·.name)).Nodup) (m : Entries) :
    (l.foldl (fun m e => m.insert e.name e) m)[k]? = (l.find? (·.name = k)).or m[k]? := by
  induction l generalizing m with
  | nil => rfl
  | cons e l ih =>
    rw [List.map_cons, List.nodup_cons] at h
    rw [List.foldl_cons, ih h.2, List.find?_cons]
    by_cases hk : e.name = k
    · have hnone : l.find? (·.name = k) = none := by
        rw [List.find?_eq_none]
        intro e' he' heq
        refine h.1 (List.mem_map.mpr ⟨e', he', ?_⟩)
        rw [hk, of_decide_eq_true heq]
      simp [hnone, hk]
    · rw [ExtTreeMap.getElem?_insert, if_neg (by simpa using hk)]
      simp [hk]

theorem getElem?_map (h : current.validate = .ok ()) : current.map[k]? = current.entryOf k := by
  obtain ⟨hchain, -⟩ := Except.check_bind_eq_ok.mp h
  rw [Except.refuseIf_eq_ok, not_not] at hchain
  have hnodup : (current.entries.map (·.name)).Nodup := by
    rw [List.Nodup, List.pairwise_map]
    have htrans : IsTrans ModuleStateEntry (·.name < ·.name) := ⟨fun _ _ _ => String.lt_trans⟩
    refine hchain.pairwise.imp ?_
    intro a b h heq
    rw [heq] at h
    exact String.lt_irrefl _ h
  rw [ModuleState.map, getElem?_foldl_insert hnodup, ModuleState.entryOf]
  simp

theorem keyed_map : Keyed current.map := by
  have hfold : ∀ (l : List ModuleStateEntry) (m : Entries), Keyed m →
      Keyed (l.foldl (fun m e => m.insert e.name e) m) := by
    intro l
    induction l with
    | nil => exact fun m h => h
    | cons e l ih =>
      refine fun m h => ih _ fun k e' he' => ?_
      rw [ExtTreeMap.getElem?_insert] at he'
      split at he'
      next hk =>
        cases he'
        simpa using hk
      · exact h k e' he'
  exact hfold _ ∅ fun k e h => by simp at h

/-- The state of a map has its entries. -/
theorem entryOf_toList (h : Keyed entries) :
    (ModuleState.mk (entries.toList.map (·.2))).entryOf k = entries[k]? := by
  unfold ModuleState.entryOf
  cases hfind : (entries.toList.map (·.2)).find? (·.name = k) with
  | none =>
    rw [List.find?_eq_none] at hfind
    cases hk : entries[k]? with
    | none => rfl
    | some e =>
      refine absurd (decide_eq_true (h k e hk)) (hfind e (List.mem_map.mpr ⟨(k, e), ?_, rfl⟩))
      exact ExtTreeMap.mem_toList_iff_getElem?_eq_some.mpr hk
  | some e =>
    obtain ⟨⟨k', e'⟩, hmem, rfl⟩ := List.mem_map.mp (List.mem_of_find?_eq_some hfind)
    have hk' := ExtTreeMap.mem_toList_iff_getElem?_eq_some.mp hmem
    have hname : e'.name = k := by simpa using List.find?_some hfind
    rw [← hname, h k' e' hk', hk']

theorem keyed_setEntry {new : Option ModuleStateEntry} (h : Keyed entries)
    (hnew : ∀ e, new = some e → e.name = name) : Keyed (setEntry entries name new) := by
  intro k e he
  cases new with
  | none =>
    rw [setEntry, ExtTreeMap.getElem?_erase] at he
    split at he
    · cases he
    · exact h k e he
  | some e' =>
    rw [setEntry, ExtTreeMap.getElem?_insert] at he
    split at he
    next hk =>
      cases he
      rw [hnew e rfl]
      simpa using hk
    · exact h k e he

theorem getElem?_setEntry {new : Option ModuleStateEntry} :
    (setEntry entries name new)[k]? = if name = k then new else entries[k]? := by
  cases new with
  | none =>
    rw [setEntry, ExtTreeMap.getElem?_erase]
    simp only [Std.compare_eq_iff_eq]
  | some e =>
    rw [setEntry, ExtTreeMap.getElem?_insert]
    simp only [Std.compare_eq_iff_eq]

/-! ## The specifications -/

/-- The entry that a specification asks for. -/
def SpecEntry (c : ModuleCatalog) (operation : ModuleMutation) (spec name : String)
    (e : Option ModuleStateEntry) : Prop :=
  ∃ stream m, parseSpec spec = .ok (name, stream) ∧ c.modules[name]? = some m ∧
    (∀ s, stream = some s → s ∈ m.streams) ∧ newEntry operation name m stream = .ok e

variable {s s' t : Entries × List String} {spec : String}

theorem mutateSpec_eq_ok : c.mutateSpec operation s spec = .ok s' ↔
    ∃ name e, SpecEntry c operation spec name e ∧ name ∉ s.2 ∧
      s' = (setEntry s.1 name e, name :: s.2) := by
  have hstreams : ∀ (stream : Option String) (m : Module) (name : String),
      (forM stream.toList fun stream => Except.refuseIf (!m.streams.contains stream)
        (PlanningError.input ("module stream not found: " ++ name ++ ":" ++ stream))) = .ok () ↔
        ∀ s, stream = some s → s ∈ m.streams := by
    intro stream m name
    rw [Except.forM_eq_ok]
    simp [Option.mem_toList]
  constructor
  · intro h
    obtain ⟨⟨name, stream⟩, hparse, h⟩ := Except.bind_eq_ok.mp h
    obtain ⟨hfresh, h⟩ := Except.check_bind_eq_ok.mp h
    obtain ⟨m, hm, h⟩ := Except.bind_eq_ok.mp h
    obtain ⟨hhas, h⟩ := Except.check_bind_eq_ok.mp h
    obtain ⟨e, he, h⟩ := Except.bind_eq_ok.mp h
    cases Except.pure_eq_ok.mp h
    exact ⟨name, e, ⟨stream, m, hparse, Except.okOr_eq_ok.mp hm, (hstreams _ _ _).mp hhas, he⟩,
      Except.refuseIf_eq_ok.mp hfresh, rfl⟩
  · rintro ⟨name, e, ⟨stream, m, hparse, hm, hhas, he⟩, hfresh, rfl⟩
    unfold mutateSpec
    rw [hparse, Except.ok_bind]
    refine Except.check_bind_eq_ok.mpr ⟨Except.refuseIf_eq_ok.mpr hfresh, ?_⟩
    refine Except.bind_eq_ok.mpr ⟨m, Except.okOr_eq_ok.mpr hm, ?_⟩
    refine Except.check_bind_eq_ok.mpr ⟨(hstreams _ _ _).mpr hhas, ?_⟩
    exact Except.bind_eq_ok.mpr ⟨e, he, rfl⟩

theorem newEntry_name {m : Module} {stream : Option String}
    (h : newEntry operation name m stream = .ok (some e)) : e.name = name := by
  cases operation with
  | enable =>
    obtain ⟨_, -, h⟩ := Except.bind_eq_ok.mp h
    cases Except.pure_eq_ok.mp h
    rfl
  | reset => cases h
  | disable =>
    cases h
    rfl

theorem newEntry_enable {m : Module} {stream : Option String} {e : Option ModuleStateEntry}
    (h : newEntry .enable name m stream = .ok e) : ∃ stream, e = some ⟨name, some stream, false⟩ := by
  obtain ⟨stream, -, h⟩ := Except.bind_eq_ok.mp h
  cases Except.pure_eq_ok.mp h
  exact ⟨stream, rfl⟩

/-- What the loop over the specifications leaves: the named modules, and the other entries as they
were. -/
structure Mutated (c : ModuleCatalog) (operation : ModuleMutation) (specs : List String)
    (s s' : Entries × List String) : Prop where
  named : ∀ name, name ∈ s'.2 ↔ name ∈ s.2 ∨ Named specs name
  others : ∀ k, ¬ Named specs k → s'.1[k]? = s.1[k]?
  keyed : Keyed s.1 → Keyed s'.1
  enabled : operation = .enable → ∀ name, Named specs name →
    ∃ stream, s'.1[name]? = some ⟨name, some stream, false⟩

theorem named_cons : Named (spec :: specs) name ↔
    (∃ stream, parseSpec spec = .ok (name, stream)) ∨ Named specs name :=
  List.exists_mem_cons_iff _ _ _

theorem mutated_foldlM (h : specs.foldlM (c.mutateSpec operation) s = .ok s') :
    Mutated c operation specs s s' := by
  induction specs generalizing s with
  | nil =>
    cases Except.pure_eq_ok.mp h
    exact ⟨fun name => by simp [Named], fun _ _ => rfl, id, by rintro - name ⟨_, ⟨⟩, -⟩⟩
  | cons spec specs ih =>
    rw [List.foldlM_cons, Except.bind_eq_ok] at h
    obtain ⟨next, hstep, h⟩ := h
    obtain ⟨name, e, hentry, -, rfl⟩ := mutateSpec_eq_ok.mp hstep
    obtain ⟨stream, m, hparse, hm, hhas, he⟩ := hentry
    have hrest := ih h
    have hone : ∀ k, (∃ stream, parseSpec spec = .ok (k, stream)) ↔ k = name := by
      intro k
      rw [hparse]
      constructor
      · rintro ⟨_, heq⟩
        cases heq
        rfl
      · rintro rfl
        exact ⟨stream, rfl⟩
    refine ⟨fun k => ?_, fun k hk => ?_, fun hkeyed => ?_, fun henable k hk => ?_⟩
    · rw [hrest.named, named_cons, hone, List.mem_cons]
      tauto
    · rw [named_cons, hone, not_or] at hk
      rw [hrest.others k hk.2, getElem?_setEntry, if_neg (Ne.symm hk.1)]
    · exact hrest.keyed (keyed_setEntry hkeyed fun e' he' => newEntry_name (he' ▸ he))
    · by_cases hlater : Named specs k
      · exact hrest.enabled henable k hlater
      · have hk := (hone k).mp ((named_cons.mp hk).resolve_right hlater)
        subst hk henable
        obtain ⟨stream, rfl⟩ := newEntry_enable he
        exact ⟨stream, by rw [hrest.others k hlater, getElem?_setEntry, if_pos rfl]⟩

/-! ## Their order -/

/-- The same entries, and the same named modules. -/
def Alike (s t : Entries × List String) : Prop := s.1 = t.1 ∧ s.2.Perm t.2

theorem alike_mutateSpec {t : Entries × List String} (halike : Alike s t)
    (h : c.mutateSpec operation s spec = .ok s') :
    ∃ t', c.mutateSpec operation t spec = .ok t' ∧ Alike s' t' := by
  obtain ⟨name, e, hentry, hfresh, rfl⟩ := mutateSpec_eq_ok.mp h
  refine ⟨_, mutateSpec_eq_ok.mpr ⟨name, e, hentry, mt halike.2.mem_iff.mpr hfresh, rfl⟩, ?_, ?_⟩
  · rw [halike.1]
  · exact halike.2.cons name

/-- Two specifications may change places. -/
theorem alike_swap {a b : String} {mid : Entries × List String}
    (ha : c.mutateSpec operation s a = .ok mid) (hb : c.mutateSpec operation mid b = .ok s') :
    ∃ mid' t', c.mutateSpec operation s b = .ok mid' ∧ c.mutateSpec operation mid' a = .ok t' ∧
      Alike s' t' := by
  obtain ⟨name, e, hentry, hfresh, rfl⟩ := mutateSpec_eq_ok.mp ha
  obtain ⟨name', e', hentry', hfresh', rfl⟩ := mutateSpec_eq_ok.mp hb
  rw [List.mem_cons, not_or] at hfresh'
  have hstep := mutateSpec_eq_ok.mpr ⟨name', e', hentry', hfresh'.2, rfl⟩
  have hlast : name ∉ name' :: s.2 := by
    rw [List.mem_cons, not_or]
    exact ⟨Ne.symm hfresh'.1, hfresh⟩
  refine ⟨_, _, hstep, mutateSpec_eq_ok.mpr ⟨name, e, hentry, hlast, rfl⟩, ?_, .swap ..⟩
  refine ExtTreeMap.ext_getElem? fun k => ?_
  simp only [getElem?_setEntry]
  by_cases hk : name' = k
  · subst hk
    simp [Ne.symm hfresh'.1]
  · simp [hk]

theorem exchange_mutateSpec :
    Except.Exchange (c.mutateSpec operation) Alike (fun _ => True) where
  refl s := ⟨rfl, .refl _⟩
  trans h h' := ⟨h.1.trans h'.1, h.2.trans h'.2⟩
  congr _ halike h := alike_mutateSpec halike h
  swap _ _ h h' := alike_swap h h'

theorem mutate_perm {specs' : List String} (hperm : specs.Perm specs')
    (h : c.mutate current operation specs = .ok result) :
    c.mutate current operation specs' = .ok result := by
  obtain ⟨hvalid, h⟩ := Except.check_bind_eq_ok.mp h
  obtain ⟨hne, h⟩ := Except.check_bind_eq_ok.mp h
  obtain ⟨⟨entries, names⟩, hfold, h⟩ := Except.bind_eq_ok.mp h
  obtain ⟨⟨entries', names'⟩, hfold', hentries, hnames⟩ :=
    exchange_mutateSpec.foldlM_perm hperm (fun _ _ => trivial) ⟨rfl, .refl _⟩ hfold
  obtain rfl : entries = entries' := hentries
  replace hnames : names.Perm names' := hnames
  rw [Except.refuseIf_eq_ok] at hne
  have hne' : specs' ≠ [] := by
    rintro rfl
    exact hne hperm.eq_nil
  unfold mutate
  rw [hvalid, Except.ok_bind]
  refine Except.check_bind_eq_ok.mpr ⟨Except.refuseIf_eq_ok.mpr hne', ?_⟩
  have hsame : c.completeFor operation entries names' = c.completeFor operation entries names := by
    unfold completeFor List.sortDedup
    rw [List.insertionSort_eq_of_perm hnames]
  rw [hfold', Except.ok_bind]
  dsimp only at h ⊢
  rwa [hsame]

/-! ## Completion -/

/-- The turns of the loop. -/
def Reaches (c : ModuleCatalog) : Completion → Completion → Prop :=
  ReflTransGen fun s s' => c.next s = .ok (some s')

/-- The alternative is chosen for the module in the run from the start. -/
def Chosen (c : ModuleCatalog) (start : Completion) (name : String) (a : ModuleDependencies) : Prop :=
  ∃ s, Reaches c start s ∧ (∃ rest, s.queue = name :: rest) ∧ name ∉ s.visited ∧
    c.chooseAlternative s.entries name = .ok (some a)

/-- The chosen alternative of the module requires the other. -/
def Demands (c : ModuleCatalog) (start : Completion) (name name' : String) : Prop :=
  ∃ a, Chosen c start name a ∧ ∃ r ∈ a.requires, r.moduleName = name'

/-- The requirements lead from a root to the module. -/
def Demanded (c : ModuleCatalog) (start : Completion) (k : String) : Prop :=
  ∃ root ∈ start.queue, ReflTransGen (Demands c start) root k

/-- The entry enables a stream that its module has. -/
def Enables (c : ModuleCatalog) (e : ModuleStateEntry) : Prop :=
  ∃ m stream, c.modules[e.name]? = some m ∧ stream ∈ m.streams ∧ e.stream = some stream ∧
    e.disabled = false

/-- What the loop keeps. -/
structure Completes (c : ModuleCatalog) (start s : Completion) : Prop where
  kept : ∀ (k : String) e, start.entries[k]? = some e → s.entries[k]? = some e
  added : ∀ (k : String) e, s.entries[k]? = some e → start.entries[k]? = some e ∨
    (e.name = k ∧ Demanded c start k ∧ Enables c e)
  queued : ∀ k ∈ s.queue, Demanded c start k

variable {start x y : Completion} {stream : String} {r : ModuleRequirement}

theorem mem_allowedStreams {m : Module} : stream ∈ allowedStreams m r ↔
    stream ∈ r.streams ∧ isNegative stream = false ∧ stream ∈ m.streams := by
  rw [allowedStreams, List.mem_sortDedup, List.mem_filter]
  simp

/-- What is selected is a stream of the module. -/
theorem selectRequirement_eq_ok (h : c.selectRequirement entries r = .ok stream) :
    ∃ m, c.modules[r.moduleName]? = some m ∧ stream ∈ m.streams := by
  obtain ⟨m, hm, h⟩ := Except.bind_eq_ok.mp h
  obtain ⟨-, h⟩ := Except.check_bind_eq_ok.mp h
  refine ⟨m, Except.okOr_eq_ok.mp hm, (mem_allowedStreams (r := r).mp ?_).2.2⟩
  split at h
  · obtain ⟨-, hstream⟩ := Option.filter_eq_some_iff.mp (Except.okOr_eq_ok.mp h)
    simp only [Bool.and_eq_true, decide_eq_true_eq] at hstream
    exact hstream.2
  · split at h
    next hdefault =>
      cases h
      exact of_decide_eq_true (Option.filter_eq_some_iff.mp hdefault).2
    next hone =>
      cases h
      rw [hone]
      exact List.mem_singleton_self _
    · cases h

theorem completes_require (hx : Completes c start x) (hr : Demanded c start r.moduleName)
    (h : c.require x r = .ok y) : Completes c start y := by
  obtain ⟨selected, hselected, hqueue, -, hentries⟩ := require_eq_ok h
  have hqueued : ∀ k ∈ y.queue, Demanded c start k := by
    intro k hk
    rw [hqueue, List.mem_append, List.mem_singleton] at hk
    rcases hk with hk | rfl
    · exact hx.queued k hk
    · exact hr
  rcases hentries with ⟨hnone, hentries⟩ | ⟨-, hentries⟩
  · obtain ⟨m, hm, hstream⟩ := selectRequirement_eq_ok hselected
    refine ⟨fun k e he => ?_, fun k e he => ?_, hqueued⟩
    · have hne : r.moduleName ≠ k := by
        rintro rfl
        rw [hx.kept _ e he] at hnone
        cases hnone
      rw [hentries, ExtTreeMap.getElem?_insert, if_neg (by simpa using hne)]
      exact hx.kept k e he
    · rw [hentries, ExtTreeMap.getElem?_insert] at he
      split at he
      next hk =>
        rw [Std.compare_eq_iff_eq] at hk
        cases he
        subst hk
        exact .inr ⟨rfl, hr, m, selected, hm, hstream, rfl, rfl⟩
      · exact hx.added k e he
  · exact ⟨fun k e he => hentries ▸ hx.kept k e he, fun k e he => hx.added k e (hentries ▸ he), hqueued⟩

/-- One turn keeps it: what a chosen alternative requires is demanded. -/
theorem completes_next (hreach : Reaches c start x) (hx : Completes c start x)
    (h : c.next x = .ok (some y)) : Completes c start y := by
  obtain ⟨name, rest, hqueue, ⟨-, rfl⟩ | ⟨hvisited, h⟩⟩ := next_eq_ok h
  · exact ⟨hx.kept, hx.added, fun k hk => hx.queued k (hqueue ▸ List.mem_cons_of_mem _ hk)⟩
  · obtain ⟨-, chosen, hchosen, hfold⟩ := visit_eq_ok h
    have hname : Demanded c start name := hx.queued name (hqueue ▸ List.mem_cons_self)
    refine Except.foldlM_invariant (P := Completes c start) ?_ hfold
      ⟨hx.kept, hx.added, fun k hk => hx.queued k (hqueue ▸ List.mem_cons_of_mem _ hk)⟩
    intro t r hr ht t' hrequire
    refine completes_require ht ?_ hrequire
    cases chosen with
    | none => cases hr
    | some a =>
      obtain ⟨root, hroot, hpath⟩ := hname
      exact ⟨root, hroot, hpath.tail ⟨a, ⟨x, hreach, ⟨rest, hqueue⟩, hvisited, hchosen⟩, r, hr, rfl⟩⟩

theorem completes_reaches (h : Reaches c start x) : Completes c start x := by
  induction h with
  | refl => exact ⟨fun _ _ h => h, fun _ _ h => .inl h, fun k hk => ⟨k, hk, .refl⟩⟩
  | tail hreach hstep ih => exact completes_next hreach ih hstep

theorem complete_of_next (h : c.next x = .ok (some y)) : c.complete x = c.complete y := by
  rw [complete]
  split
  all_goals simp_all

theorem complete_of_none (h : c.next x = .ok none) : c.complete x = .ok x.entries := by
  rw [complete]
  split
  all_goals simp_all

theorem reaches_of_complete (h : c.complete x = .ok entries) : ∃ y, Reaches c x y ∧ y.entries = entries := by
  induction x using complete.induct c with
  | case1 x e hnext =>
    rw [complete] at h
    split at h
    all_goals simp_all
  | case2 x hnext =>
    rw [complete_of_none hnext] at h
    cases h
    exact ⟨x, .refl, rfl⟩
  | case3 x x' hnext ih =>
    obtain ⟨y, hy, hentries⟩ := ih (complete_of_next hnext ▸ h)
    exact ⟨y, hy.head hnext, hentries⟩

/-! ## The whole mutation -/

/-- The completion of the dependencies starts with the named modules enabled. -/
def Starts (c : ModuleCatalog) (current : ModuleState) (specs : List String) (start : Completion) : Prop :=
  ∃ entries requested, specs.foldlM (c.mutateSpec .enable) (current.map, []) = .ok (entries, requested) ∧
    start = ⟨entries, requested.sortDedup, []⟩

theorem validateState_of_mutate (h : c.mutate current operation specs = .ok result) :
    c.validateState result = .ok () := by
  obtain ⟨-, h⟩ := Except.check_bind_eq_ok.mp h
  obtain ⟨-, h⟩ := Except.check_bind_eq_ok.mp h
  obtain ⟨_, -, h⟩ := Except.bind_eq_ok.mp h
  obtain ⟨_, -, h⟩ := Except.bind_eq_ok.mp h
  obtain ⟨hvalid, h⟩ := Except.check_bind_eq_ok.mp h
  cases Except.pure_eq_ok.mp h
  exact hvalid

/-- Reset and disable touch the named modules only. -/
theorem others_of_mutate (h : c.mutate current operation specs = .ok result)
    (hoperation : operation ≠ .enable) (hk : ¬ Named specs k) : result.entryOf k = current.entryOf k := by
  obtain ⟨hvalid, h⟩ := Except.check_bind_eq_ok.mp h
  obtain ⟨-, h⟩ := Except.check_bind_eq_ok.mp h
  obtain ⟨⟨entries, requested⟩, hfold, h⟩ := Except.bind_eq_ok.mp h
  have hmutated := mutated_foldlM hfold
  have hsame : c.completeFor operation entries requested = .ok entries := if_neg hoperation
  dsimp only at h
  rw [hsame, Except.ok_bind] at h
  cases Except.pure_eq_ok.mp (Except.check_bind_eq_ok.mp h).2
  rw [entryOf_toList (hmutated.keyed keyed_map), hmutated.others k hk, getElem?_map hvalid]

/-- Enabling: the named modules are enabled and the dependencies completed from there. -/
theorem enable_eq_ok (h : c.mutate current .enable specs = .ok result) :
    ∃ start last, Starts c current specs start ∧ Reaches c start last ∧
      (∀ root, root ∈ start.queue ↔ Named specs root) ∧
      (∀ k, ¬ Named specs k → start.entries[k]? = current.entryOf k) ∧
      (∀ k, Named specs k → ∃ stream, start.entries[k]? = some ⟨k, some stream, false⟩) ∧
      ∀ k, result.entryOf k = last.entries[k]? := by
  obtain ⟨hvalid, h⟩ := Except.check_bind_eq_ok.mp h
  obtain ⟨-, h⟩ := Except.check_bind_eq_ok.mp h
  obtain ⟨⟨entries, requested⟩, hfold, h⟩ := Except.bind_eq_ok.mp h
  obtain ⟨completed, hcomplete, h⟩ := Except.bind_eq_ok.mp h
  cases Except.pure_eq_ok.mp (Except.check_bind_eq_ok.mp h).2
  have hmutated := mutated_foldlM hfold
  obtain ⟨last, hreaches, rfl⟩ := reaches_of_complete hcomplete
  have hkeyed : Keyed last.entries := by
    intro k e he
    rcases (completes_reaches hreaches).added k e he with he | ⟨hname, -⟩
    · exact hmutated.keyed keyed_map k e he
    · exact hname
  refine ⟨_, last, ⟨entries, requested, hfold, rfl⟩, hreaches, fun root => ?_, fun k hk => ?_,
    hmutated.enabled rfl, fun k => entryOf_toList hkeyed⟩
  · rw [List.mem_sortDedup, hmutated.named]
    exact or_iff_right List.not_mem_nil
  · rw [hmutated.others k hk, getElem?_map hvalid]

/-- A mutation that succeeds leaves a valid state, whatever the order of its specifications. Resetting
and disabling change named modules only. Enabling keeps the entries of the other modules, and each entry
that it adds enables a stream that the module has and is demanded from a named module on. -/
theorem mutate_spec (c : ModuleCatalog) (current result : ModuleState) (operation : ModuleMutation)
    (specs : List String) (h : c.mutate current operation specs = .ok result) :
    c.validateState result = .ok () ∧
    (∀ specs' : List String, specs.Perm specs' → c.mutate current operation specs' = .ok result) ∧
    (operation ≠ .enable → ∀ name, ¬ Named specs name → result.entryOf name = current.entryOf name) ∧
    (operation = .enable →
      (∀ name e, ¬ Named specs name → current.entryOf name = some e → result.entryOf name = some e) ∧
      ∀ name e, result.entryOf name = some e → current.entryOf name = none →
        Enables c e ∧ ∃ start root, Starts c current specs start ∧ Named specs root ∧
          ReflTransGen (Demands c start) root name) := by
  refine ⟨validateState_of_mutate h, fun specs' hperm => mutate_perm hperm h,
    fun hoperation name hname => others_of_mutate h hoperation hname, ?_⟩
  rintro rfl
  obtain ⟨start, last, hstart, hreaches, hroots, hothers, hnamed, hresult⟩ := enable_eq_ok h
  have hcompletes := completes_reaches hreaches
  refine ⟨fun name e hname he => ?_, fun name e he hnone => ?_⟩
  · rw [hresult]
    exact hcompletes.kept name e ((hothers name hname).trans he)
  · rw [hresult] at he
    rcases hcompletes.added name e he with hearly | ⟨-, ⟨root, hroot, hpath⟩, henables⟩
    · have hname : Named specs name := by
        by_contra hname
        rw [hothers name hname, hnone] at hearly
        cases hearly
      obtain ⟨stream, hentry⟩ := hnamed name hname
      rw [hearly] at hentry
      cases hentry
      refine ⟨?_, start, name, hstart, hname, .refl⟩
      -- the stream of a named module is there because the state is valid
      obtain ⟨-, hvalid⟩ := Except.check_bind_eq_ok.mp (validateState_of_mutate h)
      have hmem : (⟨name, some stream, false⟩ : ModuleStateEntry) ∈ result.entries := by
        have hfind : result.entryOf name = some ⟨name, some stream, false⟩ := (hresult name).trans he
        exact List.mem_of_find?_eq_some hfind
      have hentry := Except.forM_eq_ok.mp (Except.check_bind_eq_ok.mp hvalid).1 _ hmem
      obtain ⟨m, hm, hstream⟩ := Except.bind_eq_ok.mp hentry
      have hhas := Except.forM_eq_ok.mp hstream stream (by simp)
      rw [Except.refuseIf_eq_ok, Bool.not_eq_true', Bool.not_eq_false,
        ExtTreeMap.contains_iff_mem] at hhas
      exact ⟨m, stream, Except.okOr_eq_ok.mp hm, hhas, rfl, rfl⟩
    · exact ⟨henables, start, root, hstart, (hroots root).mp hroot, hpath⟩

/-- A module whose stream depends on another. -/
def appCatalog : ModuleCatalog :=
  let appStream : ModuleStream := ⟨"1", "", "", [], [], [⟨[⟨"base", ["2"]⟩]⟩]⟩
  let baseStream : ModuleStream := ⟨"2", "", "", [], [], []⟩
  let app : Module := ⟨"app", some "1", .ofList [("1", appStream)]⟩
  let base : Module := ⟨"base", none, .ofList [("2", baseStream)]⟩
  ⟨.ofList [("app", app), ("base", base)], ∅⟩

def appEntry : ModuleStateEntry := ⟨"app", some "1", false⟩

def baseEntry : ModuleStateEntry := ⟨"base", some "2", false⟩

theorem complete_app : appCatalog.complete ⟨.ofList [("app", appEntry)], ["app"], []⟩ =
    .ok (.ofList [("app", appEntry), ("base", baseEntry)]) := by
  have hfirst : (appCatalog.next ⟨.ofList [("app", appEntry)], ["app"], []⟩).toOption =
      some (some ⟨.ofList [("app", appEntry), ("base", baseEntry)], ["base"], ["app"]⟩) := by
    decide +kernel
  have hsecond : (appCatalog.next
      ⟨.ofList [("app", appEntry), ("base", baseEntry)], ["base"], ["app"]⟩).toOption =
      some (some ⟨.ofList [("app", appEntry), ("base", baseEntry)], [], ["base", "app"]⟩) := by
    decide +kernel
  rw [Except.toOption_eq_some] at hfirst hsecond
  rw [complete_of_next hfirst, complete_of_next hsecond, complete_of_none rfl]

theorem mutate_app : appCatalog.mutate ⟨[]⟩ .enable ["app"] = .ok ⟨[appEntry, baseEntry]⟩ := by
  have hcurrent : (ModuleState.mk []).validate = .ok () := by
    rw [← Except.toOption_eq_some]
    decide +kernel
  have hnamed : (["app"].foldlM (appCatalog.mutateSpec .enable) ((ModuleState.mk []).map, [])).toOption =
      some (.ofList [("app", appEntry)], ["app"]) := by
    decide +kernel
  have hvalid : (appCatalog.validateState ⟨[appEntry, baseEntry]⟩).toOption = some () := by
    decide +kernel
  rw [Except.toOption_eq_some] at hnamed hvalid
  have hcomplete : appCatalog.completeFor .enable (.ofList [("app", appEntry)]) ["app"] =
      .ok (.ofList [("app", appEntry), ("base", baseEntry)]) := complete_app
  have hlist : (ExtTreeMap.ofList [("app", appEntry), ("base", baseEntry)]).toList.map (·.2) =
      [appEntry, baseEntry] := by
    decide +kernel
  rw [mutate, hcurrent, Except.ok_bind, hnamed]
  dsimp only
  refine Except.bind_eq_ok.mpr ⟨_, rfl, ?_⟩
  refine Except.bind_eq_ok.mpr ⟨_, rfl, ?_⟩
  refine Except.bind_eq_ok.mpr ⟨_, hcomplete, ?_⟩
  rw [hlist, hvalid]
  rfl

theorem mutate_spec_app :
    (∀ specs' : List String, ["app"].Perm specs' →
      appCatalog.mutate ⟨[]⟩ .enable specs' = .ok ⟨[appEntry, baseEntry]⟩) ∧
    Enables appCatalog baseEntry ∧ ∃ start root, Starts appCatalog ⟨[]⟩ ["app"] start ∧
      Named ["app"] root ∧ ReflTransGen (Demands appCatalog start) root "base" := by
  have h := mutate_spec appCatalog ⟨[]⟩ ⟨[appEntry, baseEntry]⟩ .enable ["app"] mutate_app
  exact ⟨h.2.1, (h.2.2.2 rfl).2 "base" baseEntry (by decide) rfl⟩

end ModuleCatalog

end Dnfast.Planning
