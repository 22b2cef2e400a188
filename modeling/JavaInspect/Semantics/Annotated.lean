import JavaInspect.Semantics.Metadata
import JavaInspect.Semantics.Symbol
import JavaInspect.SourceUnit

/-!
# Annotations of nodes

Whether a declaration in the tree is annotated in a certain way. An annotation
whose type is known is recognised by that type; of an annotation whose type is not
known there is only the name it was written by.
-/

namespace JavaInspect

/-- The qualified name of the annotation of overriding methods. -/
def overrideName : String := "java.lang.Override"

namespace Query

variable (unit : SourceUnit)

/-- Whether a node is bound to a symbol that is annotated with a type of the given
name. -/
def isMarkedBy (node : NodeId) (name : String) : Query Bool := do
  match unit.tree.binding node with
  | none => return false
  | some binding =>
      let symbol ← symbolOf unit.table binding
      let annotations ← metadata unit.table symbol
      return Metadata.isAnnotatedWith (← get) annotations name

/-- Whether an annotation node has no binding or one of unknown type. -/
def isUnresolvedUse (mark : NodeId) : Query Bool := do
  match unit.tree.binding mark with
  | none => return true
  | some binding => return (← typeOf unit.table binding).isUnknown

/-- Whether the written name of a node has an ending. -/
def nameEndsWith (node : NodeId) (tail : String) : Bool :=
  match unit.tree.name node with
  | some name => Text.endsWith tail name
  | none => false

/-- Whether one of the annotations of a node is unresolved and written by a name
with the given ending. -/
def hasUnresolvedUse (node : NodeId) (tail : String) : Query Bool :=
  (unit.tree.annotations node).anyM fun mark => do
    let unresolved ← isUnresolvedUse unit mark
    return unresolved && nameEndsWith unit mark tail

/-- Whether a node carries an annotation, recognised by its type or, where the
type is not known, by the ending of its name. -/
def isAnnotated (node : NodeId) (name tail : String) : Query Bool := do
  if ← isMarkedBy unit node name then return true
  hasUnresolvedUse unit node tail

/-- Whether a method is marked as overriding another one. -/
def isOverride (method : NodeId) : Query Bool :=
  isAnnotated unit method overrideName "Override"

end Query

end JavaInspect
