import Dnfast.Data.Check
import Dnfast.Data.Split
import Dnfast.Solver.Model

/-! # Relations as text

The relations of rpm-md and the two ways `native_adapter.rs` handles them: `relationText` writes a
relation the way libsolv does, and `parseCompactRelation` reads such a text back. Reading is total on
texts with a name, but writing leaves out an epoch `0`, so a text that spells it out is not written
again (`relationText_of_parse`). -/

namespace Dnfast.Solver

open Except (refuseIf)

inductive RelationFlags where
  | equal
  | less
  | lessEqual
  | greater
  | greaterEqual
  deriving DecidableEq, Repr

structure Relation where
  name : String
  flags : Option RelationFlags
  epoch : Option String
  version : Option String
  release : Option String
  pre : Bool
  deriving DecidableEq, Repr

def RelationFlags.operator : RelationFlags → String
  | equal => "="
  | less => "<"
  | lessEqual => "<="
  | greater => ">"
  | greaterEqual => ">="

/-- The text with a given text for the epoch. -/
def textWith (epoch : String) (flags : RelationFlags) (item : Relation) : String :=
  item.name ++ (" " ++ flags.operator ++ " ") ++ (epoch ++ (item.version.getD "" ++
    (item.release.map ("-" ++ ·)).getD ""))

def relationText (item : Relation) : String :=
  match item.flags with
  | none => item.name
  | some flags => textWith (((item.epoch.filter (· ≠ "0")).map (· ++ ":")).getD "") flags item

/-- `compact_relation` of `model.rs`, whose body is that of `relation_text`. -/
def compactRelation (item : Relation) : String := relationText item

/-! ## Reading a text -/

def operators : List (String × RelationFlags) :=
  [(" <= ", .lessEqual), (" >= ", .greaterEqual), (" = ", .equal), (" < ", .less), (" > ", .greater)]

/-- The first of the operators that occurs in the text, and what stands on both sides. -/
def splitOperator (value : List Char) : Option (List Char × List Char × RelationFlags) :=
  operators.findSome? fun (separator, flags) =>
    (List.splitOnce separator.toList value).map fun (name, evr) => (name, evr, flags)

def splitEpoch (evr : List Char) : Option String × List Char :=
  match List.splitOnce [':'] evr with
  | none => (none, evr)
  | some (epoch, rest) => (some (String.ofList epoch), rest)

def splitRelease (versionRelease : List Char) : String × Option String :=
  match versionRelease.rsplitOnce '-' with
  | none => (String.ofList versionRelease, none)
  | some (version, release) => (String.ofList version, some (String.ofList release))

def parseCompactRelation (value : String) : Except PlanError Relation :=
  match splitOperator value.toList with
  | none => do
    refuseIf (value = "") (.invalid "empty compact rpm-md relation")
    return ⟨value, none, none, none, none, false⟩
  | some (name, evr, flags) => do
    refuseIf (name = []) (.invalid "empty compact rpm-md relation name")
    let epoch := splitEpoch evr
    let release := splitRelease epoch.2
    return ⟨String.ofList name, some flags, epoch.1, some release.1, release.2, false⟩

/-! ## What is written back -/

/-- The text with the epoch spelled out. -/
def explicitText (item : Relation) : String :=
  match item.flags with
  | none => item.name
  | some flags => textWith ((item.epoch.map (· ++ ":")).getD "") flags item

theorem splitOperator_eq_some {value name evr : List Char} {flags : RelationFlags}
    (h : splitOperator value = some (name, evr, flags)) :
    value = name ++ (" " ++ flags.operator ++ " ").toList ++ evr := by
  obtain ⟨⟨separator, flags'⟩, hmem, hsplit⟩ := List.exists_of_findSome?_eq_some h
  obtain ⟨⟨left, right⟩, hlr, heq⟩ := Option.map_eq_some_iff.mp hsplit
  simp only [Prod.mk.injEq] at heq
  obtain ⟨rfl, rfl, rfl⟩ := heq
  have hseparator : separator = " " ++ flags'.operator ++ " " := by
    have hall : ∀ o ∈ operators, o.1 = " " ++ o.2.operator ++ " " := by decide
    exact hall _ hmem
  rw [← hseparator]
  exact List.eq_of_splitOnce hlr

theorem splitEpoch_eq (evr : List Char) :
    evr = (((splitEpoch evr).1.map (· ++ ":")).getD "").toList ++ (splitEpoch evr).2 := by
  unfold splitEpoch
  split
  · rfl
  · next epoch rest h =>
    simpa [String.toList_append] using List.eq_of_splitOnce h

theorem splitRelease_eq (versionRelease : List Char) :
    versionRelease = ((splitRelease versionRelease).1 ++
      ((splitRelease versionRelease).2.map ("-" ++ ·)).getD "").toList := by
  unfold splitRelease
  split
  · simp
  · next version release h =>
    simpa [String.toList_append] using List.eq_of_rsplitOnce h

/-- The text is the explicit text of what is read from it. -/
theorem explicitText_of_parse {value : String} {item : Relation}
    (h : parseCompactRelation value = .ok item) : explicitText item = value := by
  unfold parseCompactRelation at h
  split at h
  · rw [Except.check_bind_eq_ok] at h
    rw [← Except.pure_eq_ok.mp h.2]
    rfl
  · next name evr flags hsplit =>
    rw [Except.check_bind_eq_ok] at h
    obtain rfl := Except.pure_eq_ok.mp h.2
    apply String.toList_injective
    rw [splitOperator_eq_some hsplit]
    conv_rhs => rw [splitEpoch_eq evr, splitRelease_eq (splitEpoch evr).2]
    simp only [explicitText, textWith, String.toList_append, String.toList_ofList,
      Option.getD_some, List.append_assoc]

/-- Different texts are read differently. -/
theorem parseCompactRelation_inj {value value' : String} {item : Relation}
    (h : parseCompactRelation value = .ok item) (h' : parseCompactRelation value' = .ok item) :
    value = value' :=
  (explicitText_of_parse h).symm.trans (explicitText_of_parse h')

theorem epoch_of_parse {value : String} {item : Relation}
    (h : parseCompactRelation value = .ok item) (hflags : item.flags = none) :
    item.epoch = none := by
  unfold parseCompactRelation at h
  split at h <;> rw [Except.check_bind_eq_ok] at h <;> obtain rfl := Except.pure_eq_ok.mp h.2
  · rfl
  · cases hflags

/-- The text is written again exactly when it does not spell out an epoch `0`. -/
theorem relationText_of_parse {value : String} {item : Relation}
    (h : parseCompactRelation value = .ok item) :
    relationText item = value ↔ item.epoch ≠ some "0" := by
  rw [← explicitText_of_parse h]
  cases hflags : item.flags with
  | none => simp [relationText, explicitText, hflags, epoch_of_parse h hflags]
  | some flags =>
    simp only [relationText, explicitText, hflags]
    by_cases hepoch : item.epoch = some "0"
    · have hne : textWith "" flags item ≠ textWith "0:" flags item := by
        intro heq
        have hlength := congrArg (fun s : String => s.toList.length) heq
        simp [textWith, String.toList_append] at hlength
      rw [hepoch]
      exact iff_of_false hne fun h => h rfl
    · have hkept : item.epoch.filter (· ≠ "0") = item.epoch := by
        cases he : item.epoch with
        | none => rfl
        | some e =>
          rw [he, Option.some.injEq] at hepoch
          exact Option.filter_some_pos (decide_eq_true hepoch)
      rw [hkept]
      exact iff_of_true rfl hepoch

end Dnfast.Solver
