import Dnfast.Core.PlanCodec
import Dnfast.Data.SortDedup

/-! # The constructor and the reader of plans

`new` and `fromCanonicalJsonAt` both promise canonical plans, through two validators that do not
check the same things. `new` asks for distinct identities (operation, name and target EVRA); the
reader asks for distinct records, selected repositories, complete installed EVRAs and a document
within the bounds. `new_eq_ok` and `fromCanonicalJsonAt_eq_ok` say exactly what each one asks for. -/

namespace Dnfast.Core

open Json (Value optionValue)

namespace PlanEnvelope

variable {intent : TransactionIntent} {integrity : PlanIntegrity} {expiresAtUnix now : UInt64}
  {actions : List PackageAction} {plan : PlanEnvelope}

/-- The plan that these parts describe. -/
def described (intent : TransactionIntent) (integrity : PlanIntegrity) (expiresAtUnix : UInt64)
    (actions : List PackageAction) : PlanEnvelope :=
  ⟨2, "/", intent, integrity, expiresAtUnix, actions.insertionSort (· ≤ ·)⟩

/-! ## The constructor -/

theorem checkIdentities_eq_ok {seen : List (PackageOperation × String × Evra)}
    {as : List PackageAction} :
    checkIdentities seen as = .ok () ↔ (∀ a ∈ as, a.validate = .ok ()) ∧
      (as.map PackageAction.identity).Nodup ∧ ∀ a ∈ as, a.identity ∉ seen := by
  induction as generalizing seen with
  | nil => simp [checkIdentities]
  | cons a as ih =>
    rw [checkIdentities, Except.check_bind_eq_ok, Except.check_bind_eq_ok, Except.refuseIf_eq_ok,
      ih, List.map_cons, List.nodup_cons, List.forall_mem_cons, List.forall_mem_cons]
    have hfresh : (∀ b ∈ as, b.identity ∉ a.identity :: seen) ↔
        a.identity ∉ as.map PackageAction.identity ∧ ∀ b ∈ as, b.identity ∉ seen := by
      simp only [List.mem_cons, not_or, List.mem_map, not_exists, not_and]
      exact ⟨fun h => ⟨fun b hb => (h b hb).1, fun b hb => (h b hb).2⟩,
        fun h b hb => ⟨h.1 b hb, h.2 b hb⟩⟩
    rw [hfresh]
    tauto

theorem mem_sorted {a : PackageAction} : a ∈ actions.insertionSort (· ≤ ·) ↔ a ∈ actions :=
  (List.perm_insertionSort (· ≤ ·) actions).mem_iff

/-- The checks that both validators make. -/
structure SharedChecks (integrity : PlanIntegrity) (actions : List PackageAction) : Prop where
  integrity : integrity.validate = .ok ()
  count : actions.length ≤ maxPlanActions
  valid : ∀ a ∈ actions, a.validate = .ok ()

theorem canonicalActions_eq_ok {as : List PackageAction} : canonicalActions actions = .ok as ↔
    actions.length ≤ maxPlanActions ∧ (∀ a ∈ actions, a.validate = .ok ()) ∧
      (actions.map PackageAction.identity).Nodup ∧ as = actions.insertionSort (· ≤ ·) := by
  have hnodup : ((actions.insertionSort (· ≤ ·)).map PackageAction.identity).Nodup ↔
      (actions.map PackageAction.identity).Nodup :=
    ((List.perm_insertionSort (· ≤ ·) actions).map _).nodup_iff
  have hvalid : (∀ a ∈ actions.insertionSort (· ≤ ·), a.validate = .ok ()) ↔
      ∀ a ∈ actions, a.validate = .ok () :=
    forall_congr' fun a => by rw [mem_sorted]
  rw [canonicalActions, Except.check_bind_eq_ok, Except.check_bind_eq_ok, Except.refuseIf_eq_ok,
    Except.pure_eq_ok, checkIdentities_eq_ok, hnodup, hvalid, gt_iff_lt, not_lt, eq_comm]
  simp [and_assoc]

theorem new_eq_ok : new intent integrity expiresAtUnix actions = .ok plan ↔
    plan = described intent integrity expiresAtUnix actions ∧ SharedChecks integrity actions ∧
      (actions.map PackageAction.identity).Nodup := by
  rw [new, Except.check_bind_eq_ok, Except.bind_eq_ok]
  simp only [canonicalActions_eq_ok, Except.pure_eq_ok]
  constructor
  · rintro ⟨hintegrity, _, ⟨hcount, hvalid, hnodup, rfl⟩, rfl⟩
    exact ⟨rfl, ⟨hintegrity, hcount, hvalid⟩, hnodup⟩
  · rintro ⟨rfl, ⟨hintegrity, hcount, hvalid⟩, hnodup⟩
    exact ⟨hintegrity, _, ⟨hcount, hvalid, hnodup, rfl⟩, rfl⟩

/-! ## The reader -/

theorem validateNow_described :
    (described intent integrity expiresAtUnix actions).validateNow now = .ok () ↔
      SharedChecks integrity actions ∧ now ≤ expiresAtUnix ∧ actions.Nodup ∧
        ∀ a ∈ actions, (described intent integrity expiresAtUnix actions).selects a = true := by
  simp only [validateNow, Except.check_bind_eq_ok, Except.refuseIf_eq_ok, Except.forM_eq_ok,
    checkAction, gt_iff_lt, not_or, not_not, not_lt]
  have hlen : (described intent integrity expiresAtUnix actions).actions.length =
      actions.length := (List.perm_insertionSort (· ≤ ·) actions).length_eq
  rw [hlen, show (described intent integrity expiresAtUnix actions).actions =
    actions.insertionSort (· ≤ ·) from rfl, List.isChain_lt_insertionSort_iff]
  simp only [mem_sorted, Bool.not_eq_true', Bool.not_eq_false]
  constructor
  · rintro ⟨-, -, hintegrity, hnow, ⟨hcount, hnodup⟩, hactions⟩
    exact ⟨⟨hintegrity, hcount, fun a ha => (hactions a ha).1⟩, UInt64.not_lt.mp hnow, hnodup,
      fun a ha => (hactions a ha).2⟩
  · rintro ⟨⟨hintegrity, hcount, hvalid⟩, hnow, hnodup, hselects⟩
    exact ⟨rfl, rfl, hintegrity, UInt64.not_lt.mpr hnow, ⟨hcount, hnodup⟩,
      fun a ha => ⟨hvalid a ha, hselects a ha⟩⟩

/-- The document and its strings are within the bounds of the canonical boundary. -/
def Fits (plan : PlanEnvelope) : Prop :=
  (canonicalEncode plan).length ≤ maxDocumentBytes ∧ plan.toValue.allStrings fitsString = true

theorem depth_evra (e : Evra) : e.toValue.depth = 1 := rfl

theorem depth_provenance (p : ActionProvenance) : p.toValue.depth = 1 := by
  cases p
  rfl

theorem depth_action_le (a : PackageAction) : a.toValue.depth ≤ 2 := by
  have htext (o : Option String) : (optionValue .str o).depth ≤ 1 :=
    Json.depth_optionValue_le (fun _ => Nat.zero_le 1) o
  simp only [PackageAction.toValue, Value.depth]
  refine Nat.succ_le_succ (Json.Value.depthMembers_le fun m hm => ?_)
  simp only [List.mem_append, List.mem_cons, List.not_mem_nil, or_false] at hm
  rcases hm with (((rfl | rfl) | hm) | hm) | rfl | rfl | rfl | rfl | rfl | rfl | rfl
  · exact htext _
  · exact Json.depth_optionValue_le (fun e => (depth_evra e).le) _
  · cases hheader : a.installedHeaderSha256 <;> simp_all [optionalMember, Sha256Digest.toValue, Value.depth]
  · cases hinstance : a.installedInstance <;> simp_all [optionalMember, Value.depth]
  · exact htext _
  · exact Nat.zero_le 1
  · exact Nat.zero_le 1
  · exact Json.depth_optionValue_le (fun p => (depth_provenance p).le) _
  · exact Nat.zero_le 1
  · exact htext _
  · exact (depth_evra _).le

theorem depth_intent_le (intent : TransactionIntent) : intent.toValue.depth ≤ 2 := by
  simp only [TransactionIntent.toValue, Value.depth]
  refine Nat.succ_le_succ (Json.Value.depthMembers_le fun m hm => ?_)
  simp only [List.mem_cons, List.not_mem_nil, or_false] at hm
  rcases hm with rfl | rfl | rfl
  · exact Nat.zero_le 1
  · refine Nat.succ_le_succ (Json.Value.depthElems_le fun v hv => ?_)
    obtain ⟨spec, -, rfl⟩ := List.mem_map.mp hv
    exact Nat.zero_le 0
  · exact Nat.zero_le 1

/-- No plan nests deeper than the reader admits. -/
theorem depth_toValue_le (plan : PlanEnvelope) : plan.toValue.depth ≤ maxDepth := by
  have hmax : 4 ≤ maxDepth := by decide
  refine le_trans ?_ hmax
  simp only [toValue, Value.depth]
  refine Nat.succ_le_succ (Json.Value.depthMembers_le fun m hm => ?_)
  simp only [List.mem_cons, List.not_mem_nil, or_false] at hm
  rcases hm with rfl | rfl | rfl | rfl | rfl | rfl | rfl | rfl | rfl | rfl | rfl
  · refine Nat.succ_le_succ (Json.Value.depthElems_le fun v hv => ?_)
    obtain ⟨a, -, rfl⟩ := List.mem_map.mp hv
    exact depth_action_le a
  · exact Nat.zero_le 3
  · exact Nat.zero_le 3
  · exact (depth_intent_le plan.intent).trans (by decide)
  · exact Nat.zero_le 3
  · exact Nat.zero_le 3
  · exact Nat.zero_le 3
  · exact Nat.zero_le 3
  · exact Nat.zero_le 3
  · refine Nat.succ_le_succ (Json.Value.depthElems_le fun v hv => ?_)
    obtain ⟨b, -, rfl⟩ := List.mem_map.mp hv
    exact show (1 : Nat) ≤ 2 by decide
  · exact Nat.zero_le 3

/-- A document is read exactly when its plan fits, its actions are readable and it is valid both
at time 0, inside the parser, and at the time of reading. -/
theorem fromCanonicalJsonAt_eq_ok {parse : List UInt8 → Option Value}
    (hparse : ∀ v : Value, parse v.render = some v) :
    fromCanonicalJsonAt parse (canonicalEncode plan) now = .ok plan ↔
      plan.Fits ∧ (∀ a ∈ plan.actions, a.Readable) ∧ plan.validateNow 0 = .ok () ∧
        plan.validateNow now = .ok () := by
  have hslice : fromSlice parse (canonicalEncode plan) = .ok plan ↔
      (∀ a ∈ plan.actions, a.Readable) ∧ plan.validateNow 0 = .ok () := by
    rw [fromSlice, show parse (canonicalEncode plan) = some plan.toValue from hparse _,
      Option.bind_some, ofValue_toValue]
    by_cases h : (∀ a ∈ plan.actions, a.Readable) ∧ plan.validateNow 0 = .ok ()
    · rw [if_pos h]
      exact ⟨fun _ => h, fun _ => rfl⟩
    · rw [if_neg h]
      simp [h]
  have hdecode : canonicalDecode (fromSlice parse) (canonicalEncode plan) = .ok plan ↔
      plan.Fits ∧ (∀ a ∈ plan.actions, a.Readable) ∧ plan.validateNow 0 = .ok () := by
    rw [canonicalDecode_canonicalEncode_iff (depth_toValue_le plan), hslice]
    exact (and_assoc (b := plan.toValue.allStrings fitsString = true)).symm
  rw [fromCanonicalJsonAt, Except.bind_eq_ok]
  simp only [Except.check_bind_eq_ok, Except.pure_eq_ok]
  constructor
  · rintro ⟨_, hok, hnow, rfl⟩
    obtain ⟨hfits, hreadable, hvalid⟩ := hdecode.mp hok
    exact ⟨hfits, hreadable, hvalid, hnow⟩
  · rintro ⟨hfits, hreadable, hvalid, hnow⟩
    exact ⟨plan, hdecode.mpr ⟨hfits, hreadable, hvalid⟩, hnow, rfl⟩

/-! ## Where they agree -/

/-- The checks that only the reader makes, besides the distinctness of the records. -/
structure ReaderChecks (plan : PlanEnvelope) : Prop where
  selected : ∀ a ∈ plan.actions, plan.selects a = true
  installed : ∀ a ∈ plan.actions, ∀ e ∈ a.installedEvra, e.validate = .ok ()
  fits : plan.Fits

/-- What the reader asks for, for the plan that the parts describe. -/
theorem decodes_described {parse : List UInt8 → Option Value}
    (hparse : ∀ v : Value, parse v.render = some v) (hnow : now ≤ expiresAtUnix) :
    fromCanonicalJsonAt parse (canonicalEncode (described intent integrity expiresAtUnix actions))
        now = .ok (described intent integrity expiresAtUnix actions) ↔
      SharedChecks integrity actions ∧ actions.Nodup ∧
        ReaderChecks (described intent integrity expiresAtUnix actions) := by
  rw [fromCanonicalJsonAt_eq_ok hparse, validateNow_described, validateNow_described]
  have hmem {a : PackageAction} :
      a ∈ (described intent integrity expiresAtUnix actions).actions ↔ a ∈ actions := mem_sorted
  constructor
  · rintro ⟨hfits, hreadable, ⟨hshared, -, hnodup, hselects⟩, -⟩
    exact ⟨hshared, hnodup, fun a ha => hselects a (hmem.mp ha), fun a ha => (hreadable a ha).1,
      hfits⟩
  · rintro ⟨hshared, hnodup, hreader⟩
    have hselects := fun a ha => hreader.selected a (hmem.mpr ha)
    exact ⟨hreader.fits, fun a ha => ⟨hreader.installed a ha, hshared.valid a (hmem.mp ha)⟩,
      ⟨hshared, UInt64.zero_le, hnodup, hselects⟩, hshared, hnow, hnodup, hselects⟩

/-- Distinct identities make distinct records. -/
theorem nodup_of_identities (h : (actions.map PackageAction.identity).Nodup) : actions.Nodup :=
  List.Nodup.of_map _ h

/-- **Constructor and reader agree** on a plan exactly when a check that both make fails, or its
identities are distinct and it passes the reader's own checks, or its identities repeat and it fails
one of the reader's. -/
theorem new_iff_decodes {parse : List UInt8 → Option Value}
    (hparse : ∀ v : Value, parse v.render = some v) (hnow : now ≤ expiresAtUnix) :
    (new intent integrity expiresAtUnix actions =
          .ok (described intent integrity expiresAtUnix actions) ↔
        fromCanonicalJsonAt parse
          (canonicalEncode (described intent integrity expiresAtUnix actions)) now =
            .ok (described intent integrity expiresAtUnix actions)) ↔
      ¬ SharedChecks integrity actions ∨
        ((actions.map PackageAction.identity).Nodup ∧
          ReaderChecks (described intent integrity expiresAtUnix actions)) ∨
        (¬ (actions.map PackageAction.identity).Nodup ∧
          ¬ (actions.Nodup ∧ ReaderChecks (described intent integrity expiresAtUnix actions))) := by
  rw [new_eq_ok, decodes_described hparse hnow]
  have hnodup : (actions.map PackageAction.identity).Nodup → actions.Nodup := nodup_of_identities
  tauto

end PlanEnvelope

/-! Plans on which they disagree, and one on which they agree. -/

def bashInstall (repo vendor : String) : PackageAction :=
  ⟨.install, "bash", ⟨0, "5.3", "1.fc44", .x86_64⟩, none, none, none, none, some vendor, some repo,
    .user, none⟩

def bashIntent : TransactionIntent :=
  ⟨.install, [⟨"bash", by decide⟩], by decide, .singleton _⟩

/-- The constructor accepts a package from a repository that is not selected, and the writer refuses
the plan. The reader accepts two actions of one identity, which the constructor refuses. -/
theorem new_decodes_differ :
    (∃ plan, PlanEnvelope.new bashIntent fedoraIntegrity 100 [bashInstall "updates" "Fedora"] =
        .ok plan ∧
      plan.toCanonicalJson = .error (.invalidPlan "action repository is not selected") ∧
      PlanEnvelope.fromCanonicalJsonAt Json.parse (canonicalEncode plan) 0 ≠ .ok plan) ∧
    (∃ plan, PlanEnvelope.fromCanonicalJsonAt Json.parse (canonicalEncode plan) 0 = .ok plan ∧
      plan.actions = [bashInstall "fedora" "Fedora", bashInstall "fedora" "Other"] ∧
      PlanEnvelope.new plan.intent plan.integrity plan.expiresAtUnix plan.actions =
        .error (.duplicate "bash")) := by
  refine ⟨⟨_, PlanEnvelope.new_eq_ok.mpr ⟨rfl, ⟨by decide, by decide, by decide⟩, by decide⟩,
    by decide +kernel, ?_⟩, ?_⟩
  · rw [ne_eq, PlanEnvelope.decodes_described Json.parse_render (by decide)]
    rintro ⟨-, -, hreader⟩
    exact absurd hreader.selected (by decide +kernel)
  · refine ⟨PlanEnvelope.described bashIntent fedoraIntegrity 100
      [bashInstall "fedora" "Fedora", bashInstall "fedora" "Other"],
      (PlanEnvelope.decodes_described Json.parse_render (by decide)).mpr ?_, by decide +kernel,
      by decide +kernel⟩
    exact ⟨⟨by decide, by decide, by decide⟩, by decide,
      ⟨by decide +kernel, by decide +kernel, by decide +kernel, by decide +kernel⟩⟩

/-- A repeated record is refused by both. -/
theorem new_iff_decodes_repeated :
    PlanEnvelope.new bashIntent fedoraIntegrity 100
        [bashInstall "fedora" "Fedora", bashInstall "fedora" "Fedora"] =
        .ok (.described bashIntent fedoraIntegrity 100
          [bashInstall "fedora" "Fedora", bashInstall "fedora" "Fedora"]) ↔
      PlanEnvelope.fromCanonicalJsonAt Json.parse (canonicalEncode
        (PlanEnvelope.described bashIntent fedoraIntegrity 100
          [bashInstall "fedora" "Fedora", bashInstall "fedora" "Fedora"])) 99 =
        .ok (.described bashIntent fedoraIntegrity 100
          [bashInstall "fedora" "Fedora", bashInstall "fedora" "Fedora"]) :=
  (PlanEnvelope.new_iff_decodes Json.parse_render (by decide)).mpr
    (.inr (.inr ⟨by decide, fun h => absurd h.1 (by decide)⟩))

end Dnfast.Core
