import JavaInspect.Tree.Basic

/-!
# Traversal

A walk enters a node, walks its children in order and leaves the node again.
Its enter events list the nodes in pre-order.
-/

namespace JavaInspect

/-- A step of a traversal. -/
inductive WalkEvent where
  /-- The node is reached, before its children. -/
  | enter (node : NodeId)
  /-- All children of the node are done. -/
  | exit (node : NodeId)
deriving DecidableEq, Repr, Inhabited

namespace WalkEvent

/-- The node of an enter event. -/
def entered? : WalkEvent → Option NodeId
  | .enter node => some node
  | .exit _ => none

end WalkEvent

namespace Tree

/-- The events of the traversal that starts at a node. -/
def walk (tree : Tree) (node : NodeId) : List WalkEvent :=
  .enter node ::
    ((tree.children node).flatMap fun child =>
      if _inside : node.index < child.index ∧ child.index < tree.size then
        tree.walk child
      else []) ++ [.exit node]
termination_by tree.size - node.index

/-- The nodes below a node in pre-order. -/
def descendants (tree : Tree) (node : NodeId) : List NodeId :=
  ((tree.walk node).filterMap WalkEvent.entered?).drop 1

/-- All nodes in pre-order. -/
def preorder (tree : Tree) : List NodeId :=
  .root :: tree.descendants .root

end Tree

end JavaInspect
