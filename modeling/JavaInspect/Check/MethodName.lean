import JavaInspect.Detector
import JavaInspect.Pattern.Basic
import JavaInspect.Rule.Catalogue
import JavaInspect.Semantics.Annotated

/-!
# Names of methods

The name of a method matches a chosen pattern. The name of a method that overrides
another one is not its own choice.
-/

namespace JavaInspect.Check.MethodName

/-- What is said about a name that does not match the pattern. -/
def message (format : String) : String :=
  s!"Rename this method name to match the regular expression '{format}'."

/-- The report at a method, if there is one. -/
def reportsAt (format : String) (pattern : Pattern) (unit : SourceUnit) (method : NodeId) :
    Query (List Report) := do
  match unit.tree.name method with
  | none => return []
  | some name =>
      if pattern.isFoundIn name then return []
      if ← Query.isOverride unit method then return []
      return [{
        message := message format
        span := unit.tree.nameSpan method }]

/-- The detector of methods with bad names. -/
def detector (format : String) (pattern : Pattern) : Detector :=
  .ofQuery .badMethodName [.method] (reportsAt format pattern)

end JavaInspect.Check.MethodName
