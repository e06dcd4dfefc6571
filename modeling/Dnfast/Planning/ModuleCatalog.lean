import Mathlib.Data.List.Lex
import Mathlib.Data.Prod.Lex
import Std.Data.ExtTreeSet
import Dnfast.Data.Split
import Dnfast.Planning.Modules

/-! # The catalog of the modules

`dnfast-planning`, `modulemd.rs`: the raw modules of all repositories are merged into one catalog. The
contexts of a stream must agree in profiles and dependencies, their artifacts are put together, and the
texts are those of the greatest version. Then every artifact gets its owner. -/

namespace Dnfast.Planning

open Std (ExtTreeMap ExtTreeSet)
open Except (refuseIf okOr)
open Core (Architecture)

def MAX_MODULES : Nat := 16384

def MAX_STREAMS : Nat := 131072

def MAX_ARTIFACTS : Nat := 2000000

/-! ## Raw modules -/

structure RawProfile where
  name : String
  description : Option String
  rpms : List String
  deriving DecidableEq, Repr

structure RawStream where
  name : String
  stream : String
  version : UInt64
  context : String
  arch : String
  summary : Option String
  description : Option String
  profiles : List RawProfile
  dependencies : List ModuleDependencies
  artifacts : List String
  deriving DecidableEq, Repr

structure RawModule where
  name : String
  defaultStream : Option String
  streams : List RawStream
  deriving DecidableEq, Repr

def matchesArch (value : String) (architecture : Architecture) : Bool :=
  value = architecture.asRpmArch || value = "noarch"

def normalizeStrings (values : List String) (kind : String) : Except PlanningError (List String) := do
  forM values fun value => identifier (.ofList (value.toList.dropWhile (· = '-'))) kind
  let values := values.insertionSort (· ≤ ·)
  refuseIf (¬ values.IsChain (· ≠ ·)) (.input (kind ++ " values are duplicate"))
  return values

def normalizeRequirement (r : ModuleRequirement) : Except PlanningError ModuleRequirement := do
  identifier r.moduleName "required module"
  let streams ← normalizeStrings r.streams "required module stream"
  return { r with streams }

def normalizeAlternative (a : ModuleDependencies) : Except PlanningError ModuleDependencies := do
  let requires ← a.requires.mapM normalizeRequirement
  let requires := requires.insertionSort (·.moduleName ≤ ·.moduleName)
  refuseIf (¬ requires.IsChain (·.moduleName ≠ ·.moduleName))
    (.input "module dependency requirements are duplicate")
  return ⟨requires⟩

/-- The derived order of the alternatives is the one of these lists. -/
def ModuleDependencies.key (a : ModuleDependencies) : List (String ×ₗ List String) :=
  a.requires.map fun r => toLex (r.moduleName, r.streams)

def normalizeDependencies (values : List ModuleDependencies) :
    Except PlanningError (List ModuleDependencies) := do
  let values ← values.mapM normalizeAlternative
  return (values.insertionSort (·.key ≤ ·.key)).destutter (· ≠ ·)

def normalizeProfile (p : RawProfile) : Except PlanningError ModuleProfile := do
  identifier p.name "module profile"
  let rpms ← normalizeStrings p.rpms "module profile RPM"
  return ⟨p.name, p.description.getD "", rpms⟩

def normalizeProfiles (raw : List RawProfile) : Except PlanningError (List ModuleProfile) := do
  let profiles ← raw.mapM normalizeProfile
  let profiles := profiles.insertionSort (·.name ≤ ·.name)
  refuseIf (¬ profiles.IsChain (·.name ≠ ·.name)) (.input "module profiles are duplicate")
  return profiles

/-! ## Merging -/

structure LogicalStream where
  latestVersion : UInt64
  summary : String
  description : String
  profiles : List ModuleProfile
  artifacts : ExtTreeSet String
  dependencies : List ModuleDependencies

structure LogicalModule where
  defaultStream : Option String
  streams : ExtTreeMap String LogicalStream

/-- The state of the loop over the raw modules. -/
structure Merge where
  modules : ExtTreeMap String LogicalModule
  streamCount : Nat
  artifactCount : Nat

/-- A further context of a stream. -/
def LogicalStream.extend (existing incoming : LogicalStream) : LogicalStream :=
  let existing := { existing with artifacts := existing.artifacts ∪ incoming.artifacts }
  if existing.latestVersion < incoming.latestVersion then
    { existing with
      latestVersion := incoming.latestVersion
      summary := incoming.summary
      description := incoming.description }
  else existing

namespace LogicalModule

def addDefault (name : String) (m : LogicalModule) (default : Option String) :
    Except PlanningError LogicalModule :=
  match m.defaultStream, default with
  | some left, some right =>
    if left ≠ right then .error (.input ("repository module defaults conflict: " ++ name)) else .ok m
  | none, some default => .ok { m with defaultStream := some default }
  | _, none => .ok m

def addStream (name : String) (m : LogicalModule) (stream : String) (incoming : LogicalStream) :
    Except PlanningError LogicalModule :=
  match m.streams[stream]? with
  | none => .ok { m with streams := m.streams.insert stream incoming }
  | some existing =>
    if existing.dependencies ≠ incoming.dependencies ∨ existing.profiles ≠ incoming.profiles then
      .error (.input ("module stream contexts have incompatible policy: " ++ name ++ ":" ++ stream))
    else .ok { m with streams := m.streams.insert stream (existing.extend incoming) }

end LogicalModule

/-- The entry of the module, with the default when it is new. -/
def mergeDefault (s : Merge) (name : String) (default : Option String) : Except PlanningError Merge := do
  identifier name "module name"
  forM default.toList (identifier · "module default stream")
  let m ← (s.modules.getD name ⟨default, ∅⟩).addDefault name default
  return { s with modules := s.modules.insert name m }

/-- One stream of a raw module, whose entry is there. The count of the artifacts does not overflow, as it
stays below its limit. -/
def mergeStream (architecture : Architecture) (name : String) (s : Merge) (raw : RawStream) :
    Except PlanningError Merge := do
  refuseIf (raw.name ≠ name) (.input "module stream name differs from its module")
  identifier raw.stream "module stream"
  identifier raw.context "module context"
  identifier raw.arch "module architecture"
  if matchesArch raw.arch architecture then do
    refuseIf (s.streamCount + 1 > MAX_STREAMS) (.input "module catalog exceeds stream limit")
    let artifacts ← normalizeStrings raw.artifacts "module artifact"
    refuseIf (s.artifactCount + artifacts.length > MAX_ARTIFACTS)
      (.input "module catalog exceeds artifact limit")
    let dependencies ← normalizeDependencies raw.dependencies
    let profiles ← normalizeProfiles raw.profiles
    let m ← (s.modules.getD name ⟨none, ∅⟩).addStream name raw.stream
      { latestVersion := raw.version
        summary := raw.summary.getD ""
        description := raw.description.getD ""
        profiles, artifacts := .ofList artifacts, dependencies }
    return ⟨s.modules.insert name m, s.streamCount + 1, s.artifactCount + artifacts.length⟩
  else return s

def mergeModule (architecture : Architecture) (s : Merge) (raw : RawModule) : Except PlanningError Merge := do
  let s ← mergeDefault s raw.name raw.defaultStream
  raw.streams.foldlM (mergeStream architecture raw.name) s

/-! ## Owners -/

abbrev Owners := ExtTreeMap String (String × String)

def ownArtifact (name stream : String) (owners : Owners) (artifact : String) :
    Except PlanningError Owners := do
  refuseIf (owners[artifact]?.any (· ≠ (name, stream)))
    (.input ("module artifact belongs to multiple streams: " ++ artifact))
  return owners.insert artifact (name, stream)

def ownModule (owners : Owners) (entry : String × LogicalModule) : Except PlanningError Owners := do
  let (name, m) := entry
  forM m.defaultStream.toList fun default => refuseIf (!m.streams.contains default)
    (.input ("module default stream is absent: " ++ name ++ ":" ++ default))
  m.streams.toList.foldlM (fun owners (stream, s) => s.artifacts.toList.foldlM (ownArtifact name stream) owners)
    owners

def LogicalStream.toStream (name : String) (s : LogicalStream) : ModuleStream :=
  ⟨name, s.summary, s.description, s.profiles, s.artifacts.toList, s.dependencies⟩

def LogicalModule.toModule (name : String) (m : LogicalModule) : Module :=
  ⟨name, m.defaultStream, m.streams.map LogicalStream.toStream⟩

def catalogFromRaw (rawModules : List RawModule) (architecture : Architecture) :
    Except PlanningError ModuleCatalog := do
  refuseIf (rawModules.length > MAX_MODULES) (.input "module catalog exceeds module limit")
  let s ← rawModules.foldlM (mergeModule architecture) ⟨∅, 0, 0⟩
  let owners ← s.modules.toList.foldlM ownModule ∅
  return ⟨s.modules.map LogicalModule.toModule, owners⟩

/-! ## Policies -/

def artifactMatchesArchitecture (value : String) (architecture : Architecture) :
    Except PlanningError Bool := do
  let (_, arch) ← okOr (value.toList.rsplitOnce '.') (.input ("module artifact lacks architecture: " ++ value))
  return matchesArch (.ofList arch) architecture

abbrev Policies := ExtTreeMap String Bool

def addPolicy (architecture : Architecture) (excluded : Bool) (policies : Policies) (artifact : String) :
    Except PlanningError Policies := do
  if ← artifactMatchesArchitecture artifact architecture then return policies.insert artifact excluded
  else return policies

namespace ModuleCatalog

def artifactOwner (c : ModuleCatalog) (nevra : String) : Option (String × String) :=
  c.artifactOwners[nevra]?

def artifactPolicies (c : ModuleCatalog) (state : ModuleState) (architecture : Architecture) :
    Except PlanningError Policies := do
  c.validateState state
  (c.modules.toList.map (·.2)).foldlM (fun policies m =>
    m.streams.toList.foldlM (fun policies (streamName, s) =>
      s.artifacts.foldlM (addPolicy architecture (c.activeStream state m.name ≠ some streamName)) policies)
      policies) ∅

def excludedArtifacts (c : ModuleCatalog) (state : ModuleState) (architecture : Architecture) :
    Except PlanningError (List String) := do
  let policies ← c.artifactPolicies state architecture
  return (policies.toList.filter (·.2)).map (·.1)

end ModuleCatalog

end Dnfast.Planning
