import JavaInspect.Binding.Listing
import JavaInspect.Document.Value
import JavaInspect.SourceUnit
import JavaInspect.Tree.Walk

/-!
# Outlines

An outline is a document about a source unit: the nodes of its tree in pre-order, and
the bindings that the nodes refer to. Parts that are absent are left out. Bindings are
given by their number in the outline.
-/

namespace JavaInspect

open Document

namespace Outline

/-- A record of the fields that are present. -/
def sparse (fields : List (String × Option Value)) : Value :=
  .ofFields (fields.filterMap fun (name, value) => value.map fun value => (name, value))

/-- A list that is left out when it is empty. -/
def nonempty (encode : α → Value) (items : List α) : Option Value :=
  if items.isEmpty then none else some (.ofList encode items)

/-- A mark that is left out when it is not set. -/
def marked (mark : Bool) : Option Value :=
  if mark then some (.boolean true) else none

/-- The six numbers of a span. -/
def spanNumbers (span : Span) : Value :=
  .ofList .ofNat
    [span.startByte, span.endByte, span.startLine, span.startColumn, span.endLine,
      span.endColumn]

/-- A node, given the numbers of bindings. -/
def node (number : BindingId → Nat) (data : NodeData) : Value :=
  sparse
    [("k", some (.string data.kind.label)),
      ("s", some (spanNumbers data.span)),
      ("p", data.parent.map fun parent => .ofNat parent.index),
      ("r", if data.role = .plain then none else some (.string data.role.label)),
      ("n", data.name.map .string),
      ("ns", data.nameSpan.map spanNumbers),
      ("x", data.text.map .string),
      ("b", data.binding.map fun binding => .ofNat (number binding)),
      ("t", data.typeBinding.map fun binding => .ofNat (number binding)),
      ("m", nonempty (fun modifier => .string modifier.keyword) data.modifiers)]

/-- A node with every part, by its index. -/
def wholeNode (tree : Tree) (node : NodeId) : Value :=
  let number (node : NodeId) : Value := .ofNat node.index
  let binding (binding : BindingId) : Value := .ofNat binding.index
  .ofFields
    [("id", number node), ("kind", .string (tree.kind node).label),
      ("role", .string (tree.role node).label),
      ("span", spanNumbers (tree.span node)),
      ("name", .ofOption .string (tree.name node)),
      ("name_span", spanNumbers (tree.nameSpan node)),
      ("binding", .ofOption binding (tree.binding node)),
      ("type_binding", .ofOption binding (tree.typeBinding node)),
      ("text", .ofOption .string (tree.text node)),
      ("modifiers", .ofList (fun modifier => .string modifier.keyword) (tree.modifiers node)),
      ("parent", .ofOption number (tree.parent node)),
      ("children", .ofList number (tree.children node))]

/-- A binding with every part, by its index. -/
def wholeBinding (table : Table) (binding : BindingId) : Value :=
  let number (binding : BindingId) : Value := .ofNat binding.index
  let entry := table.entry binding
  .ofFields
    [("id", .string binding.display), ("kind", .string entry.kind.label),
      ("name", .string entry.name), ("qname", .string entry.qualifiedName),
      ("type_kind", .ofOption (fun kind => .string kind.label) entry.typeKind),
      ("recovered", .boolean entry.recovered),
      ("superclass", .ofOption number entry.superclass),
      ("interfaces", .ofList number entry.interfaces),
      ("element", .ofOption number entry.element),
      ("owner", .ofOption number entry.owner),
      ("declared", .ofOption number entry.declaredType),
      ("annotations", .ofList number entry.annotations),
      ("members", .ofList number entry.members),
      ("params", .ofList number entry.parameters),
      ("varargs", .boolean entry.varargs), ("ctor", .boolean entry.isConstructor)]

/-- A binding that is shown in full. -/
def fullItem (item : ListedEntry) : Value :=
  let entry := item.entry
  sparse
    [("kind", some (.string entry.kind.label)),
      ("name", some (.string entry.name)),
      ("q", if entry.qualifiedName = entry.name then none
            else some (.string entry.qualifiedName)),
      ("type", entry.typeKind.map fun kind => .string kind.label),
      ("recovered", marked entry.recovered),
      ("varargs", marked entry.varargs),
      ("ctor", marked entry.isConstructor),
      ("owner", item.owner.map .ofNat),
      ("superclass", item.superclass.map .ofNat),
      ("element", item.element.map .ofNat),
      ("declared", item.declaredType.map .ofNat),
      ("interfaces", nonempty .ofNat item.interfaces),
      ("annotations", nonempty .ofNat item.annotations),
      ("params", nonempty .ofNat item.parameters),
      ("members", nonempty .ofNat item.members)]

/-- A binding of a listing. -/
def item : ListedItem → Value
  | .signature text => .string text
  | .full entry => fullItem entry

/-- Some types of a table with everything they refer to, only the types themselves
being shown in full. -/
def types (table : Table) (shown : List BindingId) : Value :=
  .ofList item (table.listing shown.contains shown)

end Outline

namespace SourceUnit

/-- The bindings that the nodes of a unit refer to, in the order of the nodes, each
once. -/
def references (unit : SourceUnit) : List BindingId :=
  let ofNode (node : NodeId) : List BindingId :=
    (unit.tree.binding node).toList ++ (unit.tree.typeBinding node).toList
  (unit.tree.preorder.flatMap ofNode).eraseDups

/-- The bindings of the types that a unit declares. -/
def declaredTypes (unit : SourceUnit) : List BindingId :=
  let types := unit.tree.preorder.filter fun node => (unit.tree.kind node).isTypeDeclaration
  types.filterMap unit.tree.binding

/-- The outline of a unit whose table had `known` bindings before the unit was
read. -/
def outline (unit : SourceUnit) (known : Nat) : List (String × Value) :=
  let references := unit.references
  let items := unit.table.listingFor known unit.declaredTypes references
  let nodes := unit.tree.preorder.map unit.tree.data
  [("nodes", .ofList (Outline.node references.idxOf) nodes),
    ("bindings", .ofList Outline.item items)]

end SourceUnit

end JavaInspect
