import JavaInspect.Rule.Key
import JavaInspect.Span

/-!
# Findings

A finding says which rule is broken where, and may say how to mend it. Filters
look at the line a finding is anchored on.
-/

namespace JavaInspect

/-- A replacement of a stretch of source text. -/
structure TextEdit where
  span : Span
  replacement : String
deriving DecidableEq, Repr, Inhabited

/-- A way to mend a finding. -/
structure QuickFix where
  description : String
  edits : List TextEdit := []
deriving DecidableEq, Repr, Inhabited

/-- One breach of a rule. -/
structure Finding where
  rule : RuleKey
  message : String
  span : Span
  fix : Option QuickFix := none
deriving DecidableEq, Repr, Inhabited

namespace Finding

/-- The line a finding is anchored on. -/
def line (finding : Finding) : Nat := finding.span.startLine

/-- A finding in one line of text. -/
def display (finding : Finding) : String :=
  s!"{finding.span.display} [{finding.rule.name}] {finding.message}"

end Finding

/-- A finding that a filter has removed. -/
structure SuppressedFinding where
  finding : Finding
  /-- The name of the first filter that excludes it. -/
  filter : String
deriving DecidableEq, Repr, Inhabited

end JavaInspect
