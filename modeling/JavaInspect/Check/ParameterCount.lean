import JavaInspect.Detector
import JavaInspect.Rule.Catalogue
import JavaInspect.Semantics.Annotated

/-!
# The number of parameters

Methods and constructors do not take more than a chosen number of parameters. The
parameters of a method that overrides another one are not its own choice.
-/

namespace JavaInspect.Check.ParameterCount

/-- What a node with parameters is called. -/
def noun : NodeKind → String
  | .constructor => "Constructor"
  | _ => "Method"

/-- What is said about too many parameters. -/
def message (kind : NodeKind) (count limit : Nat) : String :=
  s!"{noun kind} has {count} parameters, which is greater than {limit} authorized."

/-- The report at a method or constructor, if there is one. -/
def reportsAt (limit : Nat) (unit : SourceUnit) (method : NodeId) : Query (List Report) := do
  let count := (unit.tree.parameters method).length
  if count ≤ limit then return []
  if ← Query.isOverride unit method then return []
  return [{
    message := message (unit.tree.kind method) count limit
    span := unit.tree.nameSpan method }]

/-- The detector of methods and constructors with too many parameters. -/
def detector (limit : Nat) : Detector :=
  .ofQuery .tooManyParameters [.method, .constructor] (reportsAt limit)

end JavaInspect.Check.ParameterCount
