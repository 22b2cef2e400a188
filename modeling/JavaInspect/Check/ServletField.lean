import JavaInspect.Detector
import JavaInspect.Rule.Catalogue
import JavaInspect.Semantics.Subtype

/-!
# Fields of servlets

One servlet object serves many requests at a time, so it has no fields that can
change.
-/

namespace JavaInspect.Check.ServletField

/-- The qualified names of the types that make a class a servlet. -/
def servletTypes : List String :=
  ["javax.servlet.http.HttpServlet", "javax.servlet.GenericServlet"]

/-- What is said about a field of a servlet that can change. -/
def message : String :=
  "Remove this misleading mutable servlet instance field or make it \"static\" and/or \"final\""

/-- Whether a variable is a field of each object that can change. -/
def isMutableField (tree : Tree) (field : NodeId) : Bool :=
  tree.role field == .member && !tree.hasModifier field .static &&
    !tree.hasModifier field .final

/-- Whether a node stands in a servlet. -/
def isInServlet (unit : SourceUnit) (node : NodeId) : Query Bool := do
  match (unit.tree.enclosingType node).bind unit.tree.binding with
  | none => return false
  | some binding =>
      let _ ← Query.symbolOf unit.table binding
      let type ← Query.typeOf unit.table binding
      servletTypes.anyM (Query.isSubtypeOf unit.table type)

/-- The report at a variable, if there is one. -/
def reportsAt (unit : SourceUnit) (field : NodeId) : Query (List Report) := do
  if !isMutableField unit.tree field then return []
  if ← isInServlet unit field then
    return [{
      message
      span := unit.tree.nameSpan field }]
  else return []

/-- The detector of fields of servlets that can change. -/
def detector : Detector :=
  .ofQuery .servletInstanceField [.variable] reportsAt

end JavaInspect.Check.ServletField
