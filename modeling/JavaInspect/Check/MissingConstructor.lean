import JavaInspect.Detector
import JavaInspect.Rule.Catalogue

/-!
# Classes without constructor

A class with a field of its own that has no initial value declares a constructor.
Abstract classes are left alone, and so are anonymous ones, which cannot declare
one.
-/

namespace JavaInspect.Check.MissingConstructor

/-- What is said about a class without constructor. -/
def message : String := "Add a constructor to the class, or provide default values."

/-- Whether a member is a field of each object that has no initial value. -/
def isUninitialised (tree : Tree) (member : NodeId) : Bool :=
  tree.kind member == .variable && !tree.hasModifier member .static &&
    (tree.initializer member).isNone

/-- Whether a class lacks a constructor that it needs. -/
def lacksConstructor (tree : Tree) (type : NodeId) : Bool :=
  let members := tree.members type
  (tree.name type).isSome && !tree.hasModifier type .abstract &&
    members.any (isUninitialised tree) && !members.any (tree.kind · == .constructor)

/-- The report at a class or enum, if there is one. -/
def reportsAt (unit : SourceUnit) (type : NodeId) : Query (List Report) := do
  if lacksConstructor unit.tree type then
    return [{
      message
      span := unit.tree.nameSpan type }]
  else return []

/-- The detector of classes that lack a constructor. -/
def detector : Detector :=
  .ofQuery .atLeastOneConstructor [.class, .enum] reportsAt

end JavaInspect.Check.MissingConstructor
