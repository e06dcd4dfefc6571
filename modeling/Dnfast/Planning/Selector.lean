import Dnfast.Metadata.FilePath
import Dnfast.Planning.FileProviders

/-! # The selector of a file

`dnfast-planning`, `file_provides.rs`: `PlanningSnapshot::file_providers` checks its selector by the rules
for the paths of primary and filelists. -/

namespace Dnfast.Planning

open Metadata (QuickXml IsFilePath safeFilePath validateFilePath)

variable {path : String}

theorem isCanonicalSelector_iff_validate :
    isCanonicalSelector path = true ↔ validateFilePath path = .ok () := by
  have hdots : (splitSlash path.toList).any (fun part => part == ['.'] || part == ['.', '.']) =
      (path.toList.splitOn '/').any Metadata.isDotSegment := rfl
  rw [validateFilePath, Except.refuseIf_eq_ok, isCanonicalSelector, hdots]
  simp only [Bool.and_eq_true, Bool.not_eq_true', beq_iff_eq, decide_eq_false_iff_not, not_or, ne_eq,
    not_not, Bool.not_eq_true, and_assoc]

theorem isCanonicalSelector_iff : isCanonicalSelector path = true ↔ IsFilePath path :=
  isCanonicalSelector_iff_validate.trans Metadata.validateFilePath_iff

variable {crates : Crates} {q : QuickXml} {jsonProviders : List UInt8 → String → Run (List Nat)}
  {manifestBytes : List UInt8} {primarySha256 filelistsSha256 : String} {chunks : List (List UInt8)}

theorem fileProviders_refused (h : ¬ IsFilePath path) :
    fileProviders crates q jsonProviders manifestBytes primarySha256 filelistsSha256 chunks path =
      .error (.error (.input "file-provides selector is not a canonical absolute path")) := by
  have hrefused : (!isCanonicalSelector path) = true := by
    rw [Bool.not_eq_true', Bool.eq_false_iff]
    exact mt isCanonicalSelector_iff.mp h
  rw [fileProviders, LazyIndex.refuse, Except.refuseIf, if_pos hrefused]
  rfl

/-- A manifest of an older format is looked up once the selector is accepted. -/
theorem fileProviders_accepted (h : IsFilePath path)
    (hmagic : ¬ (lazyBinaryV2Magic <+: manifestBytes ∨ lazyBinaryV3Magic <+: manifestBytes)) :
    fileProviders crates q jsonProviders manifestBytes primarySha256 filelistsSha256 chunks path =
      jsonProviders manifestBytes path := by
  have haccepted : ¬ (!isCanonicalSelector path) = true := by
    rw [isCanonicalSelector_iff.mpr h]
    exact Bool.false_ne_true
  rw [fileProviders, LazyIndex.refuse, Except.refuseIf, if_neg haccepted, Except.ok_bind, if_neg hmagic]

/-- The three checks accept the same paths, those of the grammar. What `file_providers` does not accept
it refuses at once, and with what it accepts it goes on to the lookup. -/
theorem file_path_checks_agree (path : String) :
    (safeFilePath path = true ↔ IsFilePath path) ∧
    (validateFilePath path = .ok () ↔ IsFilePath path) ∧
    (isCanonicalSelector path = true ↔ IsFilePath path) ∧
    ∀ (crates : Crates) (q : QuickXml) (primarySha256 filelistsSha256 : String)
      (chunks : List (List UInt8)),
      (IsFilePath path ↔ ∀ answer, fileProviders crates q (fun _ _ => answer) [] primarySha256
        filelistsSha256 chunks path = answer) ∧
      (¬ IsFilePath path → ∀ jsonProviders manifestBytes, fileProviders crates q jsonProviders
        manifestBytes primarySha256 filelistsSha256 chunks path =
          .error (.error (.input "file-provides selector is not a canonical absolute path"))) := by
  refine ⟨Metadata.safeFilePath_iff, Metadata.validateFilePath_iff, isCanonicalSelector_iff,
    fun crates q primarySha256 filelistsSha256 chunks => ⟨⟨fun h answer => ?_, fun h => ?_⟩,
      fun h jsonProviders manifestBytes => fileProviders_refused h⟩⟩
  · exact fileProviders_accepted h (by decide)
  · by_contra hpath
    have hanswer := h (.ok [])
    rw [fileProviders_refused hpath] at hanswer
    cases hanswer

end Dnfast.Planning
