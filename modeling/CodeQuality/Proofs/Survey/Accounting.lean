import CodeQuality.Proofs.Analysis.Origin

namespace CodeQuality
namespace Survey
namespace Python

/-!
Two accounts of one survey.

A survey of Python files lists its findings, and it reports on each file.  Both are
accounts of the same things: the findings in a file are the ones that its report
leads to, in the same order, and the findings of all files come one after the other
as the files were visited.  Only what is said about missing tests stands in no report.
The summary counts the findings by category.
-/

open Syntax Files List

/-- A finding of a category stands in a file, on a line if it has one. -/
def Stands (category : Category) (file : String) (line : Option Nat) (finding : Finding) : Prop :=
  finding.category = category ∧ finding.file? = some file ∧
    finding.details.bind (·.line) = line

/-- What is known of a survey of a directory. -/
theorem of_surveyAt {tools : Tools} {files : Files} {root : Path} {survey : Survey}
    (done : surveyAt tools files root = .ok survey) :
    survey.files = (sourcePaths files root).map (fun path => (relativeText path,
        (surveyFile tools (relativeText path) (files.readLenient (root ++ path))).1)) ∧
      survey.findings = (sourcePaths files root).flatMap (fun path =>
        (surveyFile tools (relativeText path) (files.readLenient (root ++ path))).2) ++
          testingFindings files root ∧
      survey.summary = summary survey.files.length survey.findings := by
  unfold surveyAt at done
  split at done
  · cases done
    refine ⟨?_, ?_, ?_⟩
    · exact map_map
    · exact congrArg (· ++ testingFindings files root) (flatMap_map _ _ _)
    · exact congrArg (summary · _) (length_map _).symm
  · cases done
  · cases done

end Python
end Survey
end CodeQuality
