import JavaInspect.Document.Value
import JavaInspect.Rule.Finding

/-!
# Reports

The outcome of the analysis of one unit is a report or a failure. A result collects
the outcomes of many units.
-/

namespace JavaInspect

/-- The outcome of an analysis that succeeded. -/
structure UnitReport where
  path : String
  findings : List Finding := []
  suppressed : List SuppressedFinding := []
  /-- The rules that failed on the unit. -/
  faultedRules : List RuleKey := []
  /-- How many semantic look-ups were answered from the cache. -/
  hits : Nat := 0
  /-- How many semantic look-ups made a new facade. -/
  misses : Nat := 0
deriving DecidableEq, Repr, Inhabited

namespace UnitReport

/-- The findings of one rule. -/
def findingsFor (report : UnitReport) (rule : RuleKey) : List Finding :=
  report.findings.filter (·.rule == rule)

/-- The number of findings that were removed. -/
def suppressedCount (report : UnitReport) : Nat := report.suppressed.length

end UnitReport

/-- The outcome of an analysis that failed as a whole. -/
structure UnitFailure where
  path : String
  error : String
deriving DecidableEq, Repr, Inhabited

/-- The outcomes of many analyses. -/
structure AnalysisResult where
  reports : List UnitReport := []
  failures : List UnitFailure := []
deriving DecidableEq, Repr, Inhabited

namespace AnalysisResult

/-- Add the outcomes of another result behind those of the first. -/
def merge (first second : AnalysisResult) : AnalysisResult :=
  { reports := first.reports ++ second.reports
    failures := first.failures ++ second.failures }

/-- The number of findings. -/
def findingCount (result : AnalysisResult) : Nat :=
  result.reports.foldl (fun count report => count + report.findings.length) 0

/-- The number of findings that were removed. -/
def suppressedCount (result : AnalysisResult) : Nat :=
  result.reports.foldl (fun count report => count + report.suppressedCount) 0

/-- Whether an analysis failed. -/
def hasFailures (result : AnalysisResult) : Bool := !result.failures.isEmpty

end AnalysisResult

end JavaInspect
