import JavaInspect.Filter.Exclusions
import JavaInspect.Semantics.Cache
import JavaInspect.SourceUnit

/-!
# Filters

A filter removes findings of the rules in its scope. It looks at the unit as a
whole and says what it excludes. A finding stays if no filter removes it; one that
goes is put down to the first filter that removes it.
-/

namespace JavaInspect

/-- The rules whose findings a filter may remove. -/
inductive RuleScope where
  | rules (keys : List RuleKey)
  | anyRule
deriving DecidableEq, Repr, Inhabited

namespace RuleScope

/-- Whether a rule is in the scope. -/
def contains (scope : RuleScope) (rule : RuleKey) : Bool :=
  match scope with
  | .rules keys => keys.contains rule
  | .anyRule => true

end RuleScope

/-- A way to remove findings. -/
structure IssueFilter where
  name : String
  scope : RuleScope
  /-- What is excluded from a unit. -/
  scan : SourceUnit → Query Exclusions

/-- What a filter excludes from one unit. -/
structure FilterScan where
  name : String
  scope : RuleScope
  exclusions : Exclusions
deriving DecidableEq, Repr, Inhabited

/-- Findings that stay and findings that go. -/
structure FilterOutcome where
  kept : List Finding := []
  suppressed : List SuppressedFinding := []
deriving DecidableEq, Repr, Inhabited

namespace FilterScan

/-- Whether a finding is in the scope and excluded. -/
def removes (scan : FilterScan) (finding : Finding) : Bool :=
  scan.scope.contains finding.rule && scan.exclusions.excludes finding

/-- The name of the first filter that removes a finding. -/
def remover? (scans : List FilterScan) (finding : Finding) : Option String :=
  (scans.find? (·.removes finding)).map (·.name)

/-- A finding with the name of the filter that removes it. -/
def suppressed? (scans : List FilterScan) (finding : Finding) : Option SuppressedFinding :=
  (remover? scans finding).map fun filter => { finding, filter }

/-- Part findings, keeping their order. -/
def part (scans : List FilterScan) (findings : List Finding) : FilterOutcome :=
  { kept := findings.filter fun finding => (remover? scans finding).isNone
    suppressed := findings.filterMap (suppressed? scans) }

end FilterScan

namespace IssueFilter

/-- Whether one of the findings is in the scope of a filter. -/
def concerns (filter : IssueFilter) (findings : List Finding) : Bool :=
  findings.any fun finding => filter.scope.contains finding.rule

/-- Look at a unit. -/
def scanned (unit : SourceUnit) (filter : IssueFilter) : Query FilterScan := do
  let exclusions ← filter.scan unit
  return { name := filter.name, scope := filter.scope, exclusions }

/-- Apply filters to the findings of a unit. A filter that concerns none of the
findings does not look at the unit. -/
def applyAll (filters : List IssueFilter) (unit : SourceUnit) (findings : List Finding) :
    Query FilterOutcome := do
  let scans ← (filters.filter (·.concerns findings)).mapM (scanned unit)
  return FilterScan.part scans findings

end IssueFilter

end JavaInspect
