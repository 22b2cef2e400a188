import JavaInspect.Tree.Basic

/-!
# Building a tree

Nodes are opened and closed in source order. A node that is opened becomes a
child of the innermost open node; the root is open from the start and is never
closed. Nodes can be completed at any time, also after they were closed.
-/

namespace JavaInspect

/-- A tree under construction. -/
structure TreeBuilder where
  nodes : Array NodeData
  /-- The open nodes below the root, innermost first. -/
  opened : List NodeId := []
deriving DecidableEq, Repr, Inhabited

namespace TreeBuilder

/-- A tree whose root is a compilation unit with the given span. -/
def new (span : Span) : TreeBuilder :=
  { nodes := #[{ kind := .compilationUnit, span }] }

/-- The innermost open node. -/
def current (builder : TreeBuilder) : NodeId :=
  builder.opened.head?.getD .root

/-- Change one node. -/
def modify (builder : TreeBuilder) (node : NodeId) (change : NodeData → NodeData) :
    TreeBuilder :=
  { builder with nodes := builder.nodes.modify node.index change }

/-- Open a child of the innermost open node. -/
def start (builder : TreeBuilder) (kind : NodeKind) (span : Span) : NodeId × TreeBuilder :=
  let parent := builder.current
  let node : NodeId := ⟨builder.nodes.size⟩
  let nodes := builder.nodes.push { kind, span, parent := some parent }
  (node,
    { nodes := nodes.modify parent.index fun data =>
        { data with children := data.children ++ [node] }
      opened := node :: builder.opened })

/-- Close the innermost open node and say which it was. -/
def finish (builder : TreeBuilder) : NodeId × TreeBuilder :=
  match builder.opened with
  | [] => (.root, builder)
  | node :: rest => (node, { builder with opened := rest })

/-- Add a node without children. -/
def leaf (builder : TreeBuilder) (kind : NodeKind) (span : Span) : NodeId × TreeBuilder :=
  let (node, builder) := builder.start kind span
  (node, builder.finish.2)

/-- The node as built so far. -/
def data (builder : TreeBuilder) (node : NodeId) : NodeData :=
  builder.nodes[node.index]?.getD {}

/-- Give a node its name. -/
def setName (builder : TreeBuilder) (node : NodeId) (name : String) (span : Span) :
    TreeBuilder :=
  builder.modify node fun data => { data with name := some name, nameSpan := some span }

/-- Give a node its role. -/
def setRole (builder : TreeBuilder) (node : NodeId) (role : Role) : TreeBuilder :=
  builder.modify node fun data => { data with role }

/-- Attach the symbol that a node declares or refers to. -/
def setBinding (builder : TreeBuilder) (node : NodeId) (binding : BindingId) : TreeBuilder :=
  builder.modify node fun data => { data with binding := some binding }

/-- Attach the static type of a node. -/
def setTypeBinding (builder : TreeBuilder) (node : NodeId) (binding : BindingId) :
    TreeBuilder :=
  builder.modify node fun data => { data with typeBinding := some binding }

/-- Give a node its text. -/
def setText (builder : TreeBuilder) (node : NodeId) (text : String) : TreeBuilder :=
  builder.modify node fun data => { data with text := some text }

/-- Append a keyword modifier to a node. -/
def addModifier (builder : TreeBuilder) (node : NodeId) (modifier : Modifier) : TreeBuilder :=
  builder.modify node fun data => { data with modifiers := data.modifiers ++ [modifier] }

/-- The finished tree; nodes still open are closed. -/
def build (builder : TreeBuilder) : Tree := ⟨builder.nodes⟩

end TreeBuilder

end JavaInspect
