import JavaInspect.Proofs.Tree.Preorder

/-!
# Walks of built trees

A built tree can be read in four ways that agree: by the links of its nodes, by the order in which
the nodes were made, by the stretch of the arena below each node, and by what is around each node.
The walk of a node, which keeps a stack of nodes to come, ends after it has entered and left the
node and all nodes below it.
-/

namespace JavaInspect

/-- Events in which every node that is entered is left, and what lies between is done before. -/
inductive WalkEvent.Bracketed : List WalkEvent → Prop where
  | nil : Bracketed []
  | node {node : NodeId} {inner rest : List WalkEvent} (inside : Bracketed inner)
      (after : Bracketed rest) : Bracketed (.enter node :: inner ++ .exit node :: rest)

namespace Tree

/-! ## The walk with a stack -/

/-- One turn of the loop that walks: the event that it yields, and the stack that it leaves. The
nodes on the stack are marked when they have been entered. -/
def turn (tree : Tree) : List (NodeId × Bool) → Option (WalkEvent × List (NodeId × Bool))
  | [] => none
  | (node, true) :: stack => some (.exit node, stack)
  | (node, false) :: stack =>
      some (.enter node, (tree.children node).map (·, false) ++ (node, true) :: stack)

/-- At most so many turns of the loop: the events that they yield, and the stack that they leave. -/
def turns (tree : Tree) : Nat → List (NodeId × Bool) → List WalkEvent × List (NodeId × Bool)
  | 0, stack => ([], stack)
  | more + 1, stack =>
      match tree.turn stack with
      | none => ([], stack)
      | some (event, stack) => (event :: (tree.turns more stack).1, (tree.turns more stack).2)

variable {tree : Tree} {node child parent other : NodeId} {nodes : List NodeId}
  {events : List WalkEvent} {stack : List (NodeId × Bool)} {first stop : Nat}

theorem turns_nil (more : Nat) : tree.turns more [] = ([], []) := by
  cases more <;> rfl

theorem turns_enter (more : Nat) : tree.turns (more + 1) ((node, false) :: stack) =
    let left := tree.turns more ((tree.children node).map (·, false) ++ (node, true) :: stack)
    (.enter node :: left.1, left.2) := rfl

theorem turns_exit (more : Nat) : tree.turns (more + 1) ((node, true) :: stack) =
    (.exit node :: (tree.turns more stack).1, (tree.turns more stack).2) := rfl

/-- The loop yields the traversal of the nodes on top of the stack, and goes on with the rest. -/
theorem Traverses.turns (traverses : tree.Traverses nodes events) (more : Nat)
    (stack : List (NodeId × Bool)) :
    tree.turns (events.length + more) (nodes.map (·, false) ++ stack) =
      (events ++ (tree.turns more stack).1, (tree.turns more stack).2) := by
  induction traverses generalizing more stack with
  | nil => simp
  | @node node rest inner later below after ihBelow ihAfter =>
      have count : (WalkEvent.enter node :: inner ++ .exit node :: later).length + more =
          (inner.length + (later.length + more + 1)) + 1 := by
        simp only [List.cons_append, List.length_cons, List.length_append]
        omega
      rw [count, List.map_cons, List.cons_append, turns_enter, ihBelow, turns_exit, ihAfter]
      simp

theorem Traverses.bracketed (traverses : tree.Traverses nodes events) :
    WalkEvent.Bracketed events := by
  induction traverses with
  | nil => exact .nil
  | node _ _ ihBelow ihAfter => exact .node ihBelow ihAfter

/-! ## The nodes around a node -/

theorem lt_of_mem_ancestors (isAround : parent ∈ tree.ancestors node) :
    parent.index < node.index := by
  induction index : node.index using Nat.strongRecOn generalizing node with
  | _ index ih =>
      rw [ancestors] at isAround
      split at isAround
      case h_2 => cases isAround
      case h_1 next _ =>
        split at isAround
        case isFalse => cases isAround
        case isTrue below =>
          rcases List.mem_cons.1 isAround with rfl | further
          · exact index ▸ below
          · exact Nat.lt_trans (ih next.index (index ▸ below) further rfl) (index ▸ below)

namespace Arranged

variable (arranged : tree.Arranged)
include arranged

theorem mem_children_of_parent (notRoot : child ≠ .root) (inside : child.index < tree.size)
    (isParent : tree.parent child = some parent) : child ∈ tree.children parent := by
  rcases arranged.oneParent notRoot inside with ⟨found, isFound, once⟩
  obtain rfl := Option.some.inj (isFound.symm.trans isParent)
  rw [← List.count_pos_iff, once, if_pos rfl]
  exact Nat.one_pos

theorem parent_inside (noParent : tree.parent .root = none)
    (isParent : tree.parent child = some parent) :
    parent.index < child.index ∧ child.index < tree.size := by
  have inside : child.index < tree.size := by
    by_contra outside
    rw [Tree.parent, data_of_outside (Nat.not_lt.1 outside)] at isParent
    cases isParent
  refine ⟨arranged.parent_lt ?_ inside isParent, inside⟩
  rintro rfl
  rw [noParent] at isParent
  cases isParent

theorem mem_children_iff (noParent : tree.parent .root = none) :
    child ∈ tree.children parent ↔ tree.parent child = some parent := by
  refine ⟨arranged.parent_of_child, fun isParent => ?_⟩
  have inside := arranged.parent_inside noParent isParent
  refine arranged.mem_children_of_parent ?_ inside.2 isParent
  rintro rfl
  exact Nat.not_lt_zero _ inside.1

/-- What is around a node are its parent and what is around the parent. -/
theorem ancestors_eq (noParent : tree.parent .root = none) (node : NodeId) :
    tree.ancestors node =
      ((tree.parent node).map fun parent => parent :: tree.ancestors parent).getD [] := by
  cases isParent : tree.parent node with
  | none => exact ancestors_of_no_parent isParent
  | some parent => exact ancestors_of_parent isParent (arranged.parent_inside noParent isParent).1

theorem inside_of_mem_ancestors (noParent : tree.parent .root = none)
    (isAround : node ∈ tree.ancestors other) : node.index < tree.size := by
  have below := lt_of_mem_ancestors isAround
  rw [arranged.ancestors_eq noParent] at isAround
  cases isParent : tree.parent other with
  | none => simp [isParent] at isAround
  | some parent => exact Nat.lt_trans below (arranged.parent_inside noParent isParent).2

/-- The root is around every other node. -/
theorem root_mem_ancestors (notRoot : node ≠ .root) (inside : node.index < tree.size) :
    .root ∈ tree.ancestors node := by
  induction index : node.index using Nat.strongRecOn generalizing node with
  | _ index ih =>
      rcases arranged.oneParent notRoot inside with ⟨parent, isParent, -⟩
      have below := arranged.parent_lt notRoot inside isParent
      rw [ancestors_of_parent isParent below]
      by_cases isRoot : parent = .root
      · rw [isRoot]
        exact List.mem_cons_self
      · exact List.mem_cons_of_mem _
          (ih parent.index (index ▸ below) isRoot (Nat.lt_trans below inside) rfl)

/-- A walk enters its node and the nodes that have it around them, once each. -/
theorem count_enter (noParent : tree.parent .root = none) (inside : node.index < tree.size)
    (other : NodeId) :
    (tree.walk node).count (.enter other) =
      if other = node ∨ node ∈ tree.ancestors other then 1 else 0 := by
  have absent : ∀ {other : NodeId}, ¬ node.index ≤ other.index →
      (tree.walk node).count (.enter other) = 0 := fun low =>
    List.count_eq_zero.2 fun isIn => low (arranged.le_of_mem_walk isIn (.inl rfl))
  induction index : other.index using Nat.strongRecOn generalizing other with
  | _ index ih =>
      by_cases outside : tree.size ≤ other.index
      case pos =>
        have noParent : tree.parent other = none := by rw [Tree.parent, data_of_outside outside]
        have never : .enter other ∉ tree.walk node := fun isIn =>
          Nat.not_lt.2 outside (arranged.inside_of_mem_walk inside isIn)
        have apart : other ≠ node := by
          rintro rfl
          exact Nat.not_lt.2 outside inside
        simp [List.count_eq_zero.2 never, apart, ancestors_of_no_parent noParent]
      case neg =>
        by_cases isRoot : other = .root
        case pos =>
          rw [isRoot, ancestors_of_no_parent noParent]
          by_cases same : NodeId.root = node
          · simp [← same, arranged.count_enter_walk_root .root arranged.hasRoot]
          · have high : ¬ node.index ≤ (NodeId.root).index := by
              intro low
              exact same (congrArg NodeId.mk (Nat.le_zero.1 low)).symm
            simp [absent high, same]
        case neg =>
          rcases arranged.oneParent isRoot (Nat.not_le.1 outside) with ⟨parent, isParent, once⟩
          have below := arranged.parent_lt isRoot (Nat.not_le.1 outside) isParent
          rw [arranged.count_enter_child once, ancestors_of_parent isParent below]
          by_cases same : node = other
          · subst same
            simp [absent (Nat.not_le.2 below)]
          · rw [ih parent.index (index ▸ below) parent rfl, if_neg same]
            simp [Ne.symm same, eq_comm]

theorem count_descendants (node other : NodeId) :
    (tree.descendants node).count other =
      ((tree.children node).flatMap tree.walk).count (.enter other) := by
  rw [descendants, arranged.entered_walk, List.drop_one, List.tail_cons]
  induction (tree.children node).flatMap tree.walk with
  | nil => rfl
  | cons event rest ih =>
      cases event with
      | enter entered => simp [List.count_cons, WalkEvent.entered?, ih]
      | exit left => rw [List.filterMap_cons_none rfl, ih, List.count_cons_of_ne (by simp)]

/-- The walk of a node is a part of the walk of the tree. -/
theorem walk_infix (inside : node.index < tree.size) : tree.walk node <:+: tree.walk .root := by
  induction index : node.index using Nat.strongRecOn generalizing node with
  | _ index ih =>
      by_cases isRoot : node = .root
      case pos => exact isRoot ▸ List.infix_rfl
      case neg =>
        rcases arranged.oneParent isRoot inside with ⟨parent, isParent, -⟩
        have below := arranged.parent_lt isRoot inside isParent
        have isChild := arranged.mem_children_of_parent isRoot inside isParent
        have further := ih parent.index (index ▸ below) (Nat.lt_trans below inside) rfl
        refine List.IsInfix.trans ?_ further
        rcases List.append_of_mem isChild with ⟨sooner, later, children⟩
        rw [arranged.walk_eq parent, children]
        refine ⟨.enter parent :: sooner.flatMap tree.walk,
          later.flatMap tree.walk ++ [.exit parent], ?_⟩
        simp

/-- Nodes lie below those that are around them. -/
theorem mem_descendants_iff (noParent : tree.parent .root = none) :
    other ∈ tree.descendants node ↔ node ∈ tree.ancestors other := by
  by_cases inside : node.index < tree.size
  case pos =>
    have whole := arranged.count_enter noParent inside other
    rw [arranged.count_enter_walk, ← arranged.count_descendants] at whole
    rw [← List.count_pos_iff]
    by_cases around : node ∈ tree.ancestors other
    · have apart : node ≠ other := by
        rintro rfl
        exact Nat.lt_irrefl _ (lt_of_mem_ancestors around)
      rw [if_neg apart, if_pos (.inr around)] at whole
      exact iff_of_true (by omega) around
    · have same : (other = node ∨ node ∈ tree.ancestors other) = (node = other) := by
        simp [around, eq_comm]
      rw [if_congr (iff_of_eq same) rfl rfl] at whole
      exact iff_of_false (by omega) around
  case neg =>
    have blank : tree.children node = [] := by
      rw [Tree.children, data_of_outside (Nat.not_lt.1 inside)]
    rw [← List.count_pos_iff, arranged.count_descendants, blank]
    exact iff_of_false (Nat.lt_irrefl 0) fun around =>
      inside (arranged.inside_of_mem_ancestors noParent around)

theorem enter_mem_walk_iff (noParent : tree.parent .root = none) (inside : node.index < tree.size) :
    .enter other ∈ tree.walk node ↔ other = node ∨ other ∈ tree.descendants node := by
  rw [arranged.mem_descendants_iff noParent, ← List.count_pos_iff,
    arranged.count_enter noParent inside]
  split
  case isTrue below => exact iff_of_true Nat.one_pos below
  case isFalse apart => exact iff_of_false (Nat.lt_irrefl 0) apart

end Arranged

/-! ## The order of the nodes -/

namespace Covers

variable (covers : tree.Covers [.root] 0 tree.size)
include covers

/-- What lies below a node are the nodes made right after it. -/
theorem descendants_eq (arranged : tree.Arranged) (inside : node.index < tree.size) :
    tree.descendants node =
      (List.range' (node.index + 1) (tree.descendants node).length).map NodeId.mk := by
  rcases covers.inside (Nat.zero_le _) inside with ⟨next, -, below⟩
  have entered : tree.descendants node =
      (List.range' (node.index + 1) (next - (node.index + 1))).map NodeId.mk := by
    rw [descendants, arranged.entered_walk, List.drop_one, List.tail_cons, below.entered arranged]
  rw [entered, List.length_map, List.length_range']

theorem preorder_eq (arranged : tree.Arranged) :
    tree.preorder = (List.range tree.size).map NodeId.mk := by
  have entered := covers.entered arranged
  rw [List.flatMap_singleton, arranged.entered_walk, Nat.sub_zero,
    ← List.range_eq_range'] at entered
  rw [preorder, descendants, arranged.entered_walk, List.drop_one, List.tail_cons, entered]

/-- The children of a node are listed in the order in which they were made. -/
theorem children_sorted (inside : node.index < tree.size) :
    (tree.children node).Pairwise (·.index < ·.index) := by
  rcases covers.inside (Nat.zero_le _) inside with ⟨next, -, below⟩
  exact below.sorted

end Covers

/-- How the nodes of a tree are linked and walked when they stand in the arena in pre-order. -/
structure Preordered (tree : Tree) : Prop where
  hasRoot : 0 < tree.size
  parent_root : tree.parent .root = none
  hasParent {node : NodeId} (notRoot : node ≠ .root) (inside : node.index < tree.size) :
    ∃ parent, tree.parent node = some parent
  parent_lt {node parent : NodeId} (isParent : tree.parent node = some parent) :
    parent.index < node.index ∧ node.index < tree.size
  mem_children_iff {node child : NodeId} :
    child ∈ tree.children node ↔ tree.parent child = some node
  children_sorted (node : NodeId) : (tree.children node).Pairwise (·.index < ·.index)
  ancestors_eq (node : NodeId) : tree.ancestors node =
    ((tree.parent node).map fun parent => parent :: tree.ancestors parent).getD []
  underRoot {node : NodeId} (notRoot : node ≠ .root) (inside : node.index < tree.size) :
    .root ∈ tree.ancestors node
  preorder_eq : tree.preorder = (List.range tree.size).map NodeId.mk
  /-- The loop that walks with a stack ends, and has then yielded the walk. -/
  walk_ends (node : NodeId) {turns : Nat} (enough : (tree.walk node).length ≤ turns) :
    tree.turns turns [(node, false)] = (tree.walk node, [])
  walk_bracketed (node : NodeId) : WalkEvent.Bracketed (tree.walk node)
  walk_nodup {node : NodeId} (inside : node.index < tree.size) : (tree.walk node).Nodup
  enters_iff {node : NodeId} (inside : node.index < tree.size) (other : NodeId) :
    .enter other ∈ tree.walk node ↔ other = node ∨ other ∈ tree.descendants node
  exits_iff {node : NodeId} (inside : node.index < tree.size) (other : NodeId) :
    .exit other ∈ tree.walk node ↔ other = node ∨ other ∈ tree.descendants node
  walk_infix {node : NodeId} (inside : node.index < tree.size) :
    tree.walk node <:+: tree.walk .root
  descendants_eq {node : NodeId} (inside : node.index < tree.size) : tree.descendants node =
    (List.range' (node.index + 1) (tree.descendants node).length).map NodeId.mk
  mem_descendants_iff {node other : NodeId} :
    other ∈ tree.descendants node ↔ node ∈ tree.ancestors other

end Tree

/-- The nodes of a built tree stand in the arena in pre-order, whatever the calls. -/
theorem TreeBuilder.Built.preordered {builder : TreeBuilder} (built : builder.Built) :
    builder.build.Preordered := by
  have settled := built.settled
  have arranged := settled.arranged
  have noParent := settled.noParent
  have covers := settled.covers
  refine
    { hasRoot := arranged.hasRoot
      parent_root := noParent
      hasParent := fun notRoot inside => (arranged.oneParent notRoot inside).imp fun _ => And.left
      parent_lt := arranged.parent_inside noParent
      mem_children_iff := arranged.mem_children_iff noParent
      children_sorted := fun node => ?_
      ancestors_eq := arranged.ancestors_eq noParent
      underRoot := arranged.root_mem_ancestors
      preorder_eq := covers.preorder_eq arranged
      walk_ends := fun node turns enough => ?_
      walk_bracketed := fun node => (arranged.traverses_walk node).bracketed
      walk_nodup := fun inside =>
        (arranged.walk_infix inside).sublist.nodup arranged.nodup_walk_root
      enters_iff := fun inside other => arranged.enter_mem_walk_iff noParent inside
      exits_iff := fun inside other => ?_
      walk_infix := arranged.walk_infix
      descendants_eq := covers.descendants_eq arranged
      mem_descendants_iff := arranged.mem_descendants_iff noParent }
  case refine_1 =>
    by_cases inside : node.index < builder.build.size
    · exact covers.children_sorted inside
    · rw [Tree.children, Tree.data_of_outside (Nat.not_lt.1 inside)]
      exact .nil
  case refine_2 =>
    rcases Nat.exists_eq_add_of_le enough with ⟨more, rfl⟩
    have ends := (arranged.traverses_walk node).turns more []
    simpa [Tree.turns_nil] using ends
  case refine_3 =>
    rw [← List.count_pos_iff, arranged.count_exit_walk, List.count_pos_iff]
    exact arranged.enter_mem_walk_iff noParent inside

/-- What calls lead to is built. -/
theorem TreeBuilder.Built.calls {builder : TreeBuilder} (built : builder.Built)
    (calls : List TreeCall) : (calls.foldl TreeCall.apply builder).Built := by
  induction calls generalizing builder with
  | nil => exact built
  | cons call calls ih => exact ih (built.call call)

/-- Calls in any order build a tree in pre-order, with nodes closed too often or left open and
completed at any time. -/
theorem TreeBuilder.preordered_build (span : Span) (calls : List TreeCall) :
    (calls.foldl TreeCall.apply (.new span)).build.Preordered :=
  ((Built.new span).calls calls).preordered

example : ([.finish, .start .class {}, .leaf .method {}, .start .method {}, .finish, .finish,
    .finish, .start .class {}].foldl TreeCall.apply (.new {})).build.descendants ⟨1⟩ =
      [⟨2⟩, ⟨3⟩] := by decide +kernel

end JavaInspect
