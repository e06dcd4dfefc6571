import Mathlib.Data.List.Basic
import Std.Data.ExtTreeMap
import Dnfast.Data.SortDedup
import Dnfast.Planning.Model

/-! # Module streams

`dnfast-planning`, `modulemd.rs`: the catalog of the modules and what the module state makes of it. A
module has its default stream unless the state has an entry for it, and the dependencies of a stream are
alternatives, each a list of modules with the streams that will do. -/

namespace Dnfast.Planning

open Std (ExtTreeMap)
open Except (refuseIf okOr)
open Core (Architecture)

/-! ## The catalog -/

structure ModuleRequirement where
  moduleName : String
  streams : List String
  deriving DecidableEq, Repr

structure ModuleDependencies where
  requires : List ModuleRequirement
  deriving DecidableEq, Repr

structure ModuleProfile where
  name : String
  description : String
  rpms : List String
  deriving DecidableEq, Repr

structure ModuleStream where
  name : String
  summary : String
  description : String
  profiles : List ModuleProfile
  artifacts : List String
  dependencies : List ModuleDependencies
  deriving DecidableEq, Repr

structure Module where
  name : String
  defaultStream : Option String
  streams : ExtTreeMap String ModuleStream
  deriving DecidableEq

structure ModuleCatalog where
  modules : ExtTreeMap String Module
  artifactOwners : ExtTreeMap String (String × String)

inductive ModuleMutation where
  | enable
  | reset
  | disable
  deriving DecidableEq, Repr

abbrev Entries := ExtTreeMap String ModuleStateEntry

def ModuleState.map (s : ModuleState) : Entries := s.entries.foldl (fun m e => m.insert e.name e) ∅

def ModuleState.entryOf (s : ModuleState) (name : String) : Option ModuleStateEntry :=
  s.entries.find? (·.name = name)

/-- A stream that must not be active is written with a dash. -/
def isNegative (stream : String) : Bool := stream.toList.head? = some '-'

def parseSpec (spec : String) : Except PlanningError (String × Option String) :=
  match (spec.toList.splitOn ':').map String.ofList with
  | [name] => do
    identifier name "module spec name"
    return (name, none)
  | [name, stream] => do
    identifier name "module spec name"
    identifier stream "module spec stream"
    return (name, some stream)
  | _ => .error (.input "module spec must be NAME or NAME:STREAM")

namespace ModuleCatalog

variable (c : ModuleCatalog)

def activeStream (state : ModuleState) (name : String) : Option String :=
  match state.entryOf name with
  | some e => if e.disabled then none else e.stream
  | none => c.modules[name]?.bind (·.defaultStream)

/-! ## Valid states -/

def requirementSatisfied (state : ModuleState) (r : ModuleRequirement) : Bool :=
  match c.activeStream state r.moduleName with
  | none => false
  | some active => !r.streams.any isNegative && r.streams.any (· = active)

def dependenciesSatisfied (state : ModuleState) (alternatives : List ModuleDependencies) : Bool :=
  alternatives = [] || alternatives.any fun a => a.requires.all (c.requirementSatisfied state)

def checkEntry (e : ModuleStateEntry) : Except PlanningError Unit := do
  let m ← okOr c.modules[e.name]? (.input ("enabled module disappeared: " ++ e.name))
  forM e.stream.toList fun stream => refuseIf (!m.streams.contains stream)
    (.input ("enabled module stream disappeared: " ++ e.name ++ ":" ++ stream))

def checkActive (state : ModuleState) (m : Module) : Except PlanningError Unit :=
  forM (c.activeStream state m.name).toList fun streamName => do
    let stream ← okOr m.streams[streamName]? (.input "active module stream is absent")
    refuseIf (!c.dependenciesSatisfied state stream.dependencies)
      (.input ("module dependencies are not satisfied: " ++ m.name ++ ":" ++ streamName))

def validateState (state : ModuleState) : Except PlanningError Unit := do
  state.validate
  forM state.entries c.checkEntry
  forM (c.modules.toList.map (·.2)) (c.checkActive state)

/-! ## Dependencies -/

/-- The streams of a requirement that the module has. -/
def allowedStreams (m : Module) (r : ModuleRequirement) : List String :=
  (r.streams.filter fun stream => !isNegative stream && m.streams.contains stream).sortDedup

def selectRequirement (entries : Entries) (r : ModuleRequirement) : Except PlanningError String := do
  let m ← okOr c.modules[r.moduleName]? (.input ("required module not found: " ++ r.moduleName))
  refuseIf (allowedStreams m r = [] ∨ r.streams.any isNegative)
    (.input "negative or empty module dependency streams are unsupported")
  match entries[r.moduleName]? with
  | some e =>
    okOr (e.stream.filter fun stream => !e.disabled && stream ∈ allowedStreams m r)
      (.input "explicit module state conflicts with a dependency")
  | none =>
    match m.defaultStream.filter (· ∈ allowedStreams m r), allowedStreams m r with
    | some stream, _ => .ok stream
    | none, [stream] => .ok stream
    | none, _ => .error (.input "module dependency stream is ambiguous")

def alternativeCanResolve (entries : Entries) (a : ModuleDependencies) : Bool :=
  a.requires.all fun r => (c.selectRequirement entries r).isOk

/-- The state of `complete_dependencies`. -/
structure Completion where
  entries : Entries
  queue : List String
  visited : List String
  deriving DecidableEq

/-- One requirement of the alternative that is chosen. -/
def require (s : Completion) (r : ModuleRequirement) : Except PlanningError Completion := do
  let selected ← c.selectRequirement s.entries r
  match s.entries[r.moduleName]? with
  | some existing => do
    refuseIf (existing.disabled ∨ existing.stream ≠ some selected)
      (.input ("module dependency conflicts with explicit state: " ++ r.moduleName))
    return { s with queue := s.queue ++ [r.moduleName] }
  | none =>
    return { s with
      entries := s.entries.insert r.moduleName ⟨r.moduleName, some selected, false⟩
      queue := s.queue ++ [r.moduleName] }

/-- The stream of a module that is being enabled. -/
def enabledStreamName (entries : Entries) (name : String) (m : Module) : Except PlanningError String :=
  match entries[name]? with
  | some e =>
    if e.disabled then .error (.input ("enabled module is disabled: " ++ name))
    else okOr e.stream (.input ("module has no active stream: " ++ name))
  | none => okOr m.defaultStream (.input ("module has no active stream: " ++ name))

/-- The alternative that is taken: none is needed when the stream has no dependencies. -/
def chooseAlternative (entries : Entries) (name : String) :
    Except PlanningError (Option ModuleDependencies) := do
  let m ← okOr c.modules[name]? (.input "module disappeared")
  let streamName ← enabledStreamName entries name m
  let stream ← okOr m.streams[streamName]? (.input "module stream disappeared")
  if stream.dependencies = [] then return none
  else return some (← okOr (stream.dependencies.find? (c.alternativeCanResolve entries))
    (.input ("module dependency conflict: " ++ name ++ ":" ++ streamName)))

/-- A module that is visited for the first time. -/
def visit (s : Completion) (name : String) : Except PlanningError Completion := do
  let chosen ← c.chooseAlternative s.entries name
  (chosen.elim [] (·.requires)).foldlM c.require { s with visited := name :: s.visited }

/-- One turn of the loop, unless the queue is empty. -/
def next (s : Completion) : Except PlanningError (Option Completion) :=
  match s.queue with
  | [] => .ok none
  | name :: rest =>
    if name ∈ s.visited then .ok (some { s with queue := rest })
    else (c.visit { s with queue := rest } name).map some

variable {c}

theorem require_eq_ok {s s' : Completion} {r : ModuleRequirement} (h : c.require s r = .ok s') :
    ∃ selected, c.selectRequirement s.entries r = .ok selected ∧ s'.queue = s.queue ++ [r.moduleName] ∧
      s'.visited = s.visited ∧
      ((s.entries[r.moduleName]? = none ∧
          s'.entries = s.entries.insert r.moduleName ⟨r.moduleName, some selected, false⟩) ∨
        (s.entries[r.moduleName]? ≠ none ∧ s'.entries = s.entries)) := by
  obtain ⟨selected, hselected, h⟩ := Except.bind_eq_ok.mp h
  refine ⟨selected, hselected, ?_⟩
  cases hentry : s.entries[r.moduleName]? with
  | none =>
    rw [hentry] at h
    cases Except.pure_eq_ok.mp h
    exact ⟨rfl, rfl, .inl ⟨rfl, rfl⟩⟩
  | some existing =>
    rw [hentry] at h
    cases Except.pure_eq_ok.mp (Except.check_bind_eq_ok.mp h).2
    exact ⟨rfl, rfl, .inr ⟨nofun, rfl⟩⟩

theorem visited_foldlM_require {s s' : Completion} {rs : List ModuleRequirement}
    (h : rs.foldlM c.require s = .ok s') : s'.visited = s.visited := by
  refine Except.foldlM_invariant (P := fun t : Completion => t.visited = s.visited) ?_ h rfl
  intro t r _ ht t' hrequire
  obtain ⟨_, -, -, hvisited, -⟩ := require_eq_ok hrequire
  rw [hvisited, ht]

/-- A visit takes a module of the catalog and the alternative that is chosen for it. -/
theorem visit_eq_ok {s s' : Completion} {name : String} (h : c.visit s name = .ok s') :
    name ∈ c.modules ∧ ∃ chosen, c.chooseAlternative s.entries name = .ok chosen ∧
      (chosen.elim [] (·.requires)).foldlM c.require { s with visited := name :: s.visited } = .ok s' := by
  obtain ⟨chosen, hchosen, h⟩ := Except.bind_eq_ok.mp h
  obtain ⟨m, hm, -⟩ := Except.bind_eq_ok.mp hchosen
  exact ⟨ExtTreeMap.mem_iff_isSome_getElem?.mpr (by rw [Except.okOr_eq_ok.mp hm]; rfl), chosen, hchosen, h⟩

/-- A turn skips a module that was visited, or visits one. -/
theorem next_eq_ok {s s' : Completion} (h : c.next s = .ok (some s')) :
    ∃ name rest, s.queue = name :: rest ∧
      ((name ∈ s.visited ∧ s' = { s with queue := rest }) ∨
        (name ∉ s.visited ∧ c.visit { s with queue := rest } name = .ok s')) := by
  unfold next at h
  split at h
  · cases h
  next name rest hqueue =>
    refine ⟨name, rest, hqueue, ?_⟩
    split at h
    next hvisited =>
      cases h
      exact .inl ⟨hvisited, rfl⟩
    next hvisited =>
      obtain ⟨t, ht, heq⟩ := Except.map_eq_ok.mp h
      cases heq
      exact .inr ⟨hvisited, ht⟩

/-- The modules that can still be visited. -/
def unvisited (c : ModuleCatalog) (s : Completion) : List String := c.modules.keys.filter (· ∉ s.visited)

theorem next_lt {s s' : Completion} (h : c.next s = .ok (some s')) :
    Prod.Lex (· < ·) (· < ·) ((c.unvisited s').length, s'.queue.length)
      ((c.unvisited s).length, s.queue.length) := by
  obtain ⟨name, rest, hqueue, ⟨-, rfl⟩ | ⟨hvisited, h⟩⟩ := next_eq_ok h
  · refine .right _ ?_
    rw [hqueue]
    exact Nat.lt_succ_self _
  · obtain ⟨hmem, _, -, hfold⟩ := visit_eq_ok h
    refine .left _ _ ?_
    have hkeys : unvisited c s' = (unvisited c s).filter (· ≠ name) := by
      rw [unvisited, unvisited, List.filter_filter, visited_foldlM_require hfold]
      refine List.filter_congr fun k _ => ?_
      simp
    rw [hkeys]
    exact List.length_filter_lt_length_iff_exists.mpr
      ⟨name, List.mem_filter.mpr ⟨ExtTreeMap.mem_keys.mpr hmem, by simpa using hvisited⟩, by simp⟩

variable (c)

/-- The loop of `complete_dependencies`. -/
def complete (s : Completion) : Except PlanningError Entries :=
  match _h : c.next s with
  | .error e => .error e
  | .ok none => .ok s.entries
  | .ok (some s') => complete s'
termination_by ((c.unvisited s).length, s.queue.length)
decreasing_by exact next_lt ‹_›

def completeDependencies (entries : Entries) (roots : List String) : Except PlanningError Entries :=
  c.complete ⟨entries, roots, []⟩

/-! ## Changes of the state -/

/-- The new entry of a module, or none when it is reset. -/
def newEntry (operation : ModuleMutation) (name : String) (m : Module) (requestedStream : Option String) :
    Except PlanningError (Option ModuleStateEntry) :=
  match operation with
  | .enable => do
    let stream ← okOr (requestedStream <|> m.defaultStream)
      (.input ("module stream must be specified: " ++ name ++ ":STREAM"))
    return some ⟨name, some stream, false⟩
  | .reset => .ok none
  | .disable => .ok (some ⟨name, none, true⟩)

def setEntry (entries : Entries) (name : String) : Option ModuleStateEntry → Entries
  | some e => entries.insert name e
  | none => entries.erase name

/-- The loop over the specifications: the entries, and the modules that are named so far. -/
def mutateSpec (operation : ModuleMutation) (s : Entries × List String) (spec : String) :
    Except PlanningError (Entries × List String) := do
  let (name, requestedStream) ← parseSpec spec
  refuseIf (name ∈ s.2) (.input "module mutation specifications are duplicate")
  let m ← okOr c.modules[name]? (.input ("module not found: " ++ name))
  forM requestedStream.toList fun stream => refuseIf (!m.streams.contains stream)
    (.input ("module stream not found: " ++ name ++ ":" ++ stream))
  let e ← newEntry operation name m requestedStream
  return (setEntry s.1 name e, name :: s.2)

def completeFor (operation : ModuleMutation) (entries : Entries) (requested : List String) :
    Except PlanningError Entries :=
  if operation = .enable then c.completeDependencies entries requested.sortDedup else .ok entries

def mutate (current : ModuleState) (operation : ModuleMutation) (specs : List String) :
    Except PlanningError ModuleState := do
  current.validate
  refuseIf (specs = []) (.input "module mutation requires at least one specification")
  let (entries, requested) ← specs.foldlM (c.mutateSpec operation) (current.map, [])
  let entries ← c.completeFor operation entries requested
  let state : ModuleState := ⟨entries.toList.map (·.2)⟩
  c.validateState state
  return state

end ModuleCatalog

end Dnfast.Planning
