import JavaInspect.Detector
import JavaInspect.Rule.Catalogue
import JavaInspect.Semantics.Annotated

/-!
# Overriding methods that only forward

A method whose whole body calls the method of the superclass of the same name with
its own parameters, in order, can be left out. A method with another annotation
than the one of overriding methods is there for that annotation.
-/

namespace JavaInspect.Check.ForwardingOverride

/-- What is said about a method that only forwards. -/
def message : String := "Remove this method to simply inherit it."

/-- Whether an annotation is the one of overriding methods. -/
def isOverrideMark (unit : SourceUnit) (mark : NodeId) : Query Bool := do
  let written := unit.tree.name mark == some "Override"
  match unit.tree.binding mark with
  | none => return written
  | some binding =>
      let type ← Query.typeOf unit.table binding
      if type.isUnknown then return written
      else return (← get).isNamed type overrideName

/-- The only statement of the body of a method. -/
def onlyStatement? (tree : Tree) (method : NodeId) : Option NodeId := do
  let body ← tree.body method
  match tree.statements body with
  | [statement] => some statement
  | _ => none

/-- The call that a statement consists of, its result being returned or
dropped. -/
def calledIn? (tree : Tree) (statement : NodeId) : Option NodeId :=
  match tree.kind statement with
  | .expressionStatement | .return =>
      (tree.expression statement).filter (tree.kind · == .methodInvocation)
  | _ => none

/-- Whether an argument is the name of a parameter. -/
def isPassedOn (tree : Tree) (parameter argument : NodeId) : Bool :=
  tree.kind argument == .identifier && tree.name argument == tree.name parameter

/-- Whether a call passes the parameters of a method on to the method of the
superclass of the same name. -/
def forwards (tree : Tree) (method call : NodeId) : Bool :=
  let parameters := tree.parameters method
  let arguments := tree.arguments call
  tree.name call == tree.name method &&
    (tree.receiver call).map tree.kind == some .super &&
    parameters.length == arguments.length &&
    (parameters.zip arguments).all fun (parameter, argument) => isPassedOn tree parameter argument

/-- Whether a method does nothing but forward. -/
def onlyForwards (tree : Tree) (method : NodeId) : Bool :=
  match (onlyStatement? tree method).bind (calledIn? tree) with
  | some call => forwards tree method call
  | none => false

/-- The report at a method, if there is one. -/
def reportsAt (unit : SourceUnit) (method : NodeId) : Query (List Report) := do
  let onlyOverride ← (unit.tree.annotations method).allM (isOverrideMark unit)
  if onlyOverride && onlyForwards unit.tree method then
    return [{
      message
      span := unit.tree.nameSpan method }]
  else return []

/-- The detector of overriding methods that only forward. -/
def detector : Detector :=
  .ofQuery .methodOnlyCallsSuper [.method] reportsAt

end JavaInspect.Check.ForwardingOverride
