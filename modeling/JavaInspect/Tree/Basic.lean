import JavaInspect.Binding.Basic
import JavaInspect.Span
import JavaInspect.Tree.Kind

/-!
# Syntax trees

A tree is an arena of nodes addressed by their index; the root has index zero.
A node knows its parent and its children and carries the bindings that were
attached to it. Every query answers for every index: outside the arena it
reports a blank node.

Recursion over children visits only indices above the node's own, and recursion
over parents only indices below it, which is how the arena is laid out by the
builder. The recursion therefore ends on every arena.
-/

namespace JavaInspect

/-- The index of a node in its tree. -/
structure NodeId where
  index : Nat
deriving DecidableEq, Repr, Inhabited

/-- The root of every tree. -/
def NodeId.root : NodeId := ⟨0⟩

/-- One node of a tree. -/
structure NodeData where
  kind : NodeKind := .other
  span : Span := {}
  role : Role := .plain
  parent : Option NodeId := none
  children : List NodeId := []
  /-- The declared symbol of a declaration, the referenced one of a reference. -/
  binding : Option BindingId := none
  /-- The static type of an expression. -/
  typeBinding : Option BindingId := none
  /-- The declared or referenced name. -/
  name : Option String := none
  nameSpan : Option Span := none
  modifiers : List Modifier := []
  /-- Literal text, operator, or type as written. -/
  text : Option String := none
deriving DecidableEq, Repr, Inhabited

/-- The syntax tree of one compilation unit. -/
structure Tree where
  nodes : Array NodeData
deriving DecidableEq, Repr, Inhabited

namespace Tree

/-- The number of nodes. -/
def size (tree : Tree) : Nat := tree.nodes.size

/-- A tree is empty when it has no node besides its root. -/
def isEmpty (tree : Tree) : Bool := tree.size ≤ 1

/-- The node with the given index, blank outside the arena. -/
def data (tree : Tree) (node : NodeId) : NodeData :=
  tree.nodes[node.index]?.getD {}

/-- The category of a node. -/
def kind (tree : Tree) (node : NodeId) : NodeKind := (tree.data node).kind

/-- The position of a node inside its parent. -/
def role (tree : Tree) (node : NodeId) : Role := (tree.data node).role

/-- The source span of a node. -/
def span (tree : Tree) (node : NodeId) : Span := (tree.data node).span

/-- The declared or referenced name of a node. -/
def name (tree : Tree) (node : NodeId) : Option String := (tree.data node).name

/-- The span of the name, or of the whole node when the name has none. -/
def nameSpan (tree : Tree) (node : NodeId) : Span :=
  (tree.data node).nameSpan.getD (tree.data node).span

/-- The symbol that a node declares or refers to. -/
def binding (tree : Tree) (node : NodeId) : Option BindingId := (tree.data node).binding

/-- The static type of a node. -/
def typeBinding (tree : Tree) (node : NodeId) : Option BindingId :=
  (tree.data node).typeBinding

/-- Literal text, operator, or type as written. -/
def text (tree : Tree) (node : NodeId) : Option String := (tree.data node).text

/-- The keyword modifiers of a node in source order. -/
def modifiers (tree : Tree) (node : NodeId) : List Modifier := (tree.data node).modifiers

/-- Whether a node has a keyword modifier. -/
def hasModifier (tree : Tree) (node : NodeId) (modifier : Modifier) : Bool :=
  (tree.modifiers node).contains modifier

/-- The node around a node. -/
def parent (tree : Tree) (node : NodeId) : Option NodeId := (tree.data node).parent

/-- The nodes directly below a node. -/
def children (tree : Tree) (node : NodeId) : List NodeId := (tree.data node).children

/-- The first child in a role. -/
def childInRole (tree : Tree) (node : NodeId) (role : Role) : Option NodeId :=
  (tree.children node).find? (tree.role · == role)

/-- The first child of a kind. -/
def childOfKind (tree : Tree) (node : NodeId) (kind : NodeKind) : Option NodeId :=
  (tree.children node).find? (tree.kind · == kind)

/-- The annotations of a declaration. -/
def annotations (tree : Tree) (node : NodeId) : List NodeId :=
  (tree.children node).filter (tree.kind · == .annotationUse)

/-- The members of a type declaration. -/
def members (tree : Tree) (node : NodeId) : List NodeId :=
  (tree.children node).filter (tree.role · == .member)

/-- The parameter list with its parentheses. -/
def parameterList (tree : Tree) (node : NodeId) : Option NodeId :=
  tree.childOfKind node .parameters

/-- The formal parameters. -/
def parameters (tree : Tree) (node : NodeId) : List NodeId :=
  match tree.parameterList node with
  | some list => (tree.children list).filter (tree.kind · == .parameter)
  | none => []

/-- The body block of a method, constructor or lambda. -/
def body (tree : Tree) (node : NodeId) : Option NodeId := tree.childInRole node .body

/-- The receiver of an invocation or member select. -/
def receiver (tree : Tree) (node : NodeId) : Option NodeId := tree.childInRole node .receiver

/-- The initializer of a variable. -/
def initializer (tree : Tree) (node : NodeId) : Option NodeId :=
  tree.childInRole node .initializer

/-- The expression of a statement. -/
def expression (tree : Tree) (node : NodeId) : Option NodeId :=
  tree.childInRole node .expression

/-- The operands of a binary or unary expression. -/
def operands (tree : Tree) (node : NodeId) : List NodeId :=
  (tree.children node).filter (tree.role · == .operand)

/-- The argument expressions of an invocation, instance creation, constructor
call or annotation. -/
def arguments (tree : Tree) (node : NodeId) : List NodeId :=
  match tree.childOfKind node .arguments with
  | some list => tree.children list
  | none => []

/-- The statements of a block, or of the body of anything else. -/
def statements (tree : Tree) (node : NodeId) : List NodeId :=
  match tree.kind node with
  | .block => tree.children node
  | _ =>
      match tree.body node with
      | some body =>
          if _inside : node.index < body.index ∧ body.index < tree.size then
            tree.statements body
          else []
      | none => []
termination_by tree.size - node.index

/-- The nodes around a node, innermost first. -/
def ancestors (tree : Tree) (node : NodeId) : List NodeId :=
  match tree.parent node with
  | some parent =>
      if _above : parent.index < node.index then parent :: tree.ancestors parent else []
  | none => []
termination_by node.index

/-- The innermost type declaration around a node. -/
def enclosingType (tree : Tree) (node : NodeId) : Option NodeId :=
  (tree.ancestors node).find? fun ancestor => (tree.kind ancestor).isTypeDeclaration

/-- A node as it is shown in diagnostics. -/
def describe (tree : Tree) (node : NodeId) : String :=
  match tree.name node with
  | some name => s!"{(tree.kind node).label}({name}) @{(tree.span node).display}"
  | none => s!"{(tree.kind node).label} @{(tree.span node).display}"

end Tree

end JavaInspect
