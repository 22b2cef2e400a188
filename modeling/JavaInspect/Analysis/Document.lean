import JavaInspect.Analysis.Report

/-!
# Reports in documents

Reports as records. A finding has a fix, and a report has a list of failed rules,
only where there is something to say. Whether the counters of the cache are written
is a choice of the writer.
-/

namespace JavaInspect

open Document

/-- A span as a record. -/
def Span.toValue (span : Span) : Value :=
  .ofFields
    [("start_byte", .ofNat span.startByte), ("end_byte", .ofNat span.endByte),
      ("start_line", .ofNat span.startLine), ("start_col", .ofNat span.startColumn),
      ("end_line", .ofNat span.endLine), ("end_col", .ofNat span.endColumn)]

/-- A rule is written by its key. -/
def RuleKey.toValue (rule : RuleKey) : Value := .string rule.name

/-- A replacement as a record. -/
def TextEdit.toValue (edit : TextEdit) : Value :=
  .ofFields [("span", edit.span.toValue), ("replacement", .string edit.replacement)]

/-- A fix as a record. -/
def QuickFix.toValue (fix : QuickFix) : Value :=
  .ofFields
    [("description", .string fix.description), ("edits", .ofList TextEdit.toValue fix.edits)]

/-- A finding as a record. -/
def Finding.toValue (finding : Finding) : Value :=
  let fields :=
    [("rule", finding.rule.toValue), ("message", .string finding.message),
      ("span", finding.span.toValue)]
  .ofFields (fields ++ (finding.fix.map fun fix => ("fix", fix.toValue)).toList)

/-- A removed finding as a record. -/
def SuppressedFinding.toValue (suppressed : SuppressedFinding) : Value :=
  .ofFields
    [("finding", suppressed.finding.toValue), ("filter", .string suppressed.filter)]

/-- A report as a record. -/
def UnitReport.toValue (counters : Bool) (report : UnitReport) : Value :=
  let fields :=
    [("path", .string report.path), ("findings", .ofList Finding.toValue report.findings),
      ("suppressed", .ofList SuppressedFinding.toValue report.suppressed)]
  let faulted :=
    if report.faultedRules.isEmpty then []
    else [("faulted_rules", .ofList RuleKey.toValue report.faultedRules)]
  let cache :=
    if counters then
      [("cache", .ofFields [("hits", .ofNat report.hits), ("misses", .ofNat report.misses)])]
    else []
  .ofFields (fields ++ faulted ++ cache)

/-- A failure as a record. -/
def UnitFailure.toValue (failure : UnitFailure) : Value :=
  .ofFields [("path", .string failure.path), ("error", .string failure.error)]

/-- A result as a record. -/
def AnalysisResult.toValue (counters : Bool) (result : AnalysisResult) : Value :=
  .ofFields
    [("reports", .ofList (UnitReport.toValue counters) result.reports),
      ("failures", .ofList UnitFailure.toValue result.failures)]

end JavaInspect
