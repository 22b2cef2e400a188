import JavaInspect.Filter.Basic
import JavaInspect.Filter.Directive

/-!
# The filter of directives

Directives in comments silence the rule they name, or every rule.
-/

namespace JavaInspect

namespace InlineCommentFilter

/-- The rule of a directive that stands for every rule. -/
def everyRule : String := "*"

/-- Exclude what a directive says. -/
def excludeFor (exclusions : Exclusions) (directive : Directive) : Exclusions :=
  let every := directive.rule = everyRule
  match directive.coveredLine? with
  | none =>
      if every then exclusions.excludeUnitForAnyRule
      else exclusions.excludeUnit directive.rule
  | some number =>
      if every then exclusions.excludeLinesForAnyRule (.ofLines number number)
      else exclusions.excludeLine directive.rule number

/-- What the directives of a source text exclude. -/
def exclusionsIn (source : String) : Exclusions :=
  (Directive.ofSource source).foldl excludeFor {}

end InlineCommentFilter

/-- The filter of directives in comments. -/
def IssueFilter.inlineComments : IssueFilter :=
  { name := "inline-comment"
    scope := .anyRule
    scan := fun unit => pure (InlineCommentFilter.exclusionsIn unit.source) }

end JavaInspect
