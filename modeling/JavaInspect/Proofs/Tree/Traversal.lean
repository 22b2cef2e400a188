import JavaInspect.Proofs.Tree.Building
import JavaInspect.Tree.Walk
import Mathlib.Data.List.Nodup
import Mathlib.Data.List.Perm.Basic

/-!
# Traversals of arranged trees

The traversal of a tree is told by its shape alone: a node is entered, its children are
traversed in their order, and it is left. On an arranged tree the walk from the root is
that traversal, and it enters and leaves every node of the arena once.
-/

namespace JavaInspect

namespace Tree

/-- Nodes are traversed one after another, each around its children. -/
inductive Traverses (tree : Tree) : List NodeId → List WalkEvent → Prop where
  | nil : Traverses tree [] []
  | node {node : NodeId} {rest : List NodeId} {inner later : List WalkEvent}
      (below : Traverses tree (tree.children node) inner) (after : Traverses tree rest later) :
      Traverses tree (node :: rest) (.enter node :: inner ++ .exit node :: later)

/-- The events of the traversal of a whole tree: from the root, through every node once. -/
structure IsTraversal (tree : Tree) (events : List WalkEvent) : Prop where
  fromRoot : tree.Traverses [.root] events
  enteredOnce (node : NodeId) (inside : node.index < tree.size) : events.count (.enter node) = 1
  leftOnce (node : NodeId) (inside : node.index < tree.size) : events.count (.exit node) = 1

variable {tree : Tree}

/-- There is one traversal of given nodes. -/
theorem Traverses.unique {nodes : List NodeId} {events events' : List WalkEvent}
    (traverses : tree.Traverses nodes events) (traverses' : tree.Traverses nodes events') :
    events = events' := by
  induction traverses generalizing events' with
  | nil =>
      cases traverses'
      rfl
  | node _ _ ihBelow ihAfter =>
      cases traverses' with
      | node below' after' => rw [ihBelow below', ihAfter after']

theorem Traverses.append {nodes nodes' : List NodeId} {events events' : List WalkEvent}
    (first : tree.Traverses nodes events) (second : tree.Traverses nodes' events') :
    tree.Traverses (nodes ++ nodes') (events ++ events') := by
  induction first with
  | nil => exact second
  | node below _ _ ihAfter => simpa using Traverses.node below ihAfter

theorem mem_entered_iff {events : List WalkEvent} {node : NodeId} :
    node ∈ events.filterMap WalkEvent.entered? ↔ .enter node ∈ events := by
  rw [List.mem_filterMap]
  constructor
  · rintro ⟨event, member, isEntry⟩
    cases event with
    | enter other => exact Option.some.inj isEntry ▸ member
    | exit other => cases isEntry
  · exact fun member => ⟨_, member, rfl⟩

namespace Arranged

variable (arranged : tree.Arranged)
include arranged

/-- On an arranged tree no child is passed over. -/
theorem walk_eq (node : NodeId) :
    tree.walk node = .enter node :: (tree.children node).flatMap tree.walk ++ [.exit node] := by
  rw [Tree.walk]
  congr 2
  refine List.flatMap_congr fun child isChild => ?_
  rw [dif_pos (arranged.childAbove isChild)]

/-- Induction from the children of a node to the node. -/
theorem childrenFirst {motive : NodeId → Prop}
    (step : ∀ node, (∀ child ∈ tree.children node, motive child) → motive node)
    (node : NodeId) : motive node := by
  induction distance : tree.size - node.index using Nat.strongRecOn generalizing node with
  | _ distance ih =>
      refine step node fun child isChild => ih _ ?_ child rfl
      have above := arranged.childAbove isChild
      omega

theorem traverses_walk (node : NodeId) : tree.Traverses [node] (tree.walk node) := by
  induction node using arranged.childrenFirst with
  | step node ih =>
      have below : ∀ nodes : List NodeId,
          (∀ child ∈ nodes, tree.Traverses [child] (tree.walk child)) →
          tree.Traverses nodes (nodes.flatMap tree.walk) := by
        intro nodes
        induction nodes with
        | nil => exact fun _ => .nil
        | cons child rest ihRest =>
            intro each
            exact (each child (by simp)).append
              (ihRest fun other member => each other (by simp [member]))
      rw [arranged.walk_eq]
      exact .node (below _ ih) .nil

/-- A walk stays above the node it starts at. -/
theorem le_of_mem_walk {node other : NodeId} {event : WalkEvent}
    (member : event ∈ tree.walk node) (isOf : event = .enter other ∨ event = .exit other) :
    node.index ≤ other.index := by
  induction node using arranged.childrenFirst with
  | step node ih =>
      rw [arranged.walk_eq] at member
      simp only [List.cons_append, List.mem_cons, List.mem_append, List.mem_flatMap,
        List.not_mem_nil, or_false] at member
      rcases member with rfl | ⟨child, isChild, member⟩ | rfl
      · obtain rfl : node = other := by simpa using isOf
        exact Nat.le_refl _
      · exact Nat.le_trans (Nat.le_of_lt (arranged.childAbove isChild).1) (ih child isChild member)
      · obtain rfl : node = other := by simpa using isOf
        exact Nat.le_refl _

/-- A walk enters a node as often as the walks of the children do, and once more if it
starts there. -/
theorem count_enter_walk (node other : NodeId) :
    (tree.walk node).count (.enter other) =
      ((tree.children node).flatMap tree.walk).count (.enter other) +
        if node = other then 1 else 0 := by
  rw [arranged.walk_eq]
  simp [List.count_cons]

theorem count_exit_walk (node other : NodeId) :
    (tree.walk node).count (.exit other) = (tree.walk node).count (.enter other) := by
  induction node using arranged.childrenFirst with
  | step node ih =>
      have below : ((tree.children node).flatMap tree.walk).count (.exit other) =
          ((tree.children node).flatMap tree.walk).count (.enter other) := by
        rw [List.count_flatMap, List.count_flatMap]
        exact congrArg List.sum (List.map_congr_left ih)
      rw [arranged.count_enter_walk, ← below, arranged.walk_eq]
      simp [List.count_cons]

/-- A walk enters a node as often as it enters its parent, and once more if it starts
there: it comes by no other way. -/
theorem count_enter_child {child parent : NodeId}
    (once : ∀ node, (tree.children node).count child = if node = parent then 1 else 0)
    (node : NodeId) :
    (tree.walk node).count (.enter child) =
      (tree.walk node).count (.enter parent) + if node = child then 1 else 0 := by
  induction node using arranged.childrenFirst with
  | step node ih =>
      have below : ∀ nodes : List NodeId,
          (∀ other ∈ nodes, (tree.walk other).count (.enter child) =
            (tree.walk other).count (.enter parent) + if other = child then 1 else 0) →
          (nodes.flatMap tree.walk).count (.enter child) =
            (nodes.flatMap tree.walk).count (.enter parent) + nodes.count child := by
        intro nodes
        induction nodes with
        | nil => exact fun _ => rfl
        | cons other rest ihRest =>
            intro each
            have here := each other (by simp)
            have later := ihRest fun other member => each other (by simp [member])
            simp only [List.flatMap_cons, List.count_append, List.count_cons, beq_iff_eq, here,
              later]
            omega
      rw [arranged.count_enter_walk, arranged.count_enter_walk, below _ ih, once]

theorem count_enter_walk_root (node : NodeId) (inside : node.index < tree.size) :
    (tree.walk .root).count (.enter node) = 1 := by
  induction index : node.index using Nat.strongRecOn generalizing node with
  | _ index ih =>
      by_cases isRoot : node = .root
      case pos =>
        subst isRoot
        have notBelow : ((tree.children .root).flatMap tree.walk).count (.enter .root) = 0 := by
          rw [List.count_eq_zero, List.mem_flatMap]
          rintro ⟨child, isChild, member⟩
          have le := arranged.le_of_mem_walk member (.inl rfl)
          exact Nat.not_lt.mpr le (arranged.childAbove isChild).1
        rw [arranged.count_enter_walk, notBelow, if_pos rfl]
      case neg =>
        rcases arranged.oneParent isRoot inside with ⟨parent, -, once⟩
        have isChild : node ∈ tree.children parent := by
          rw [← List.count_pos_iff, once]
          simp
        have above := arranged.childAbove isChild
        have parentOnce := ih parent.index (by omega) parent (by omega) rfl
        rw [arranged.count_enter_child once, parentOnce, if_neg (Ne.symm isRoot)]

/-- The walk from the root is the traversal of the whole tree. -/
theorem isTraversal : tree.IsTraversal (tree.walk .root) where
  fromRoot := arranged.traverses_walk .root
  enteredOnce := arranged.count_enter_walk_root
  leftOnce node inside := by
    rw [arranged.count_exit_walk]
    exact arranged.count_enter_walk_root node inside

/-! ### The nodes that are entered -/

/-- A walk does not leave the arena. -/
theorem inside_of_mem_walk {node other : NodeId} (inside : node.index < tree.size)
    (member : .enter other ∈ tree.walk node) : other.index < tree.size := by
  induction node using arranged.childrenFirst with
  | step node ih =>
      rw [arranged.walk_eq] at member
      simp only [List.cons_append, List.mem_cons, List.mem_append, List.mem_flatMap,
        List.not_mem_nil, or_false, reduceCtorEq] at member
      rcases member with same | ⟨child, isChild, member⟩
      · obtain rfl : other = node := WalkEvent.enter.inj same
        exact inside
      · exact ih child isChild (arranged.childAbove isChild).2 member

theorem enter_mem_walk_root_iff (node : NodeId) :
    .enter node ∈ tree.walk .root ↔ node.index < tree.size := by
  constructor
  · exact arranged.inside_of_mem_walk arranged.hasRoot
  · intro inside
    rw [← List.count_pos_iff, arranged.count_enter_walk_root node inside]
    exact Nat.one_pos

theorem nodup_walk_root : (tree.walk .root).Nodup := by
  have enteredOnce (node : NodeId) : (tree.walk .root).count (.enter node) ≤ 1 := by
    by_cases inside : node.index < tree.size
    · exact Nat.le_of_eq (arranged.count_enter_walk_root node inside)
    · have never := (arranged.enter_mem_walk_root_iff node).not.2 inside
      rw [List.count_eq_zero.2 never]
      exact Nat.zero_le 1
  rw [List.nodup_iff_count_le_one]
  intro event
  cases event with
  | enter node => exact enteredOnce node
  | exit node => exact arranged.count_exit_walk .root node ▸ enteredOnce node

/-- The walk from the root enters as many nodes as the arena holds. -/
theorem length_entered_walk_root :
    ((tree.walk .root).filterMap WalkEvent.entered?).length = tree.size := by
  have distinct : ((tree.walk .root).filterMap WalkEvent.entered?).Nodup := by
    refine arranged.nodup_walk_root.filterMap ?_
    intro event event' node entered entered'
    cases event <;> cases event' <;> simp_all [WalkEvent.entered?]
  have listed : ((List.range tree.size).map NodeId.mk).Nodup :=
    List.nodup_range.map fun _ _ => NodeId.mk.inj
  have same : ((tree.walk .root).filterMap WalkEvent.entered?).Perm
      ((List.range tree.size).map NodeId.mk) := by
    rw [List.perm_ext_iff_of_nodup distinct listed]
    intro node
    rw [mem_entered_iff, arranged.enter_mem_walk_root_iff]
    cases node
    simp
  simpa using same.length_eq

end Arranged

end Tree

end JavaInspect
