import JavaInspect.Tree.Builder
import Mathlib.Data.List.Basic

/-!
# Built trees

A tree is built by calls that open, close and complete nodes. Whatever the calls, the
nodes of the tree are arranged under its root: a child lies above its parent in the arena,
and every node but the root is the child of exactly one node, once.
-/

namespace JavaInspect

/-- A call that builds a tree. -/
inductive TreeCall where
  | start (kind : NodeKind) (span : Span)
  | finish
  | leaf (kind : NodeKind) (span : Span)
  | setName (node : NodeId) (name : String) (span : Span)
  | setRole (node : NodeId) (role : Role)
  | setBinding (node : NodeId) (binding : BindingId)
  | setTypeBinding (node : NodeId) (binding : BindingId)
  | setText (node : NodeId) (text : String)
  | addModifier (node : NodeId) (modifier : Modifier)

namespace TreeCall

/-- The builder after a call. -/
def apply (builder : TreeBuilder) : TreeCall → TreeBuilder
  | .start kind span => (builder.start kind span).2
  | .finish => builder.finish.2
  | .leaf kind span => (builder.leaf kind span).2
  | .setName node name span => builder.setName node name span
  | .setRole node role => builder.setRole node role
  | .setBinding node binding => builder.setBinding node binding
  | .setTypeBinding node binding => builder.setTypeBinding node binding
  | .setText node text => builder.setText node text
  | .addModifier node modifier => builder.addModifier node modifier

end TreeCall

/-- The builders that calls lead to. -/
inductive TreeBuilder.Built : TreeBuilder → Prop where
  | new (span : Span) : Built (.new span)
  | call {builder : TreeBuilder} (call : TreeCall) (built : Built builder) :
      Built (call.apply builder)

/-- The nodes of a tree are arranged under its root. -/
structure Tree.Arranged (tree : Tree) : Prop where
  hasRoot : 0 < tree.size
  childAbove {node child : NodeId} (isChild : child ∈ tree.children node) :
    node.index < child.index ∧ child.index < tree.size
  oneParent {child : NodeId} (notRoot : child ≠ .root) (inside : child.index < tree.size) :
    ∃ parent, tree.parent child = some parent ∧
      ∀ node, (tree.children node).count child = if node = parent then 1 else 0

/-- Outside the arena every node is blank. -/
theorem Tree.data_of_outside {tree : Tree} {node : NodeId} (outside : tree.size ≤ node.index) :
    tree.data node = {} := by
  replace outside : tree.nodes.size ≤ node.index := outside
  simp [Tree.data, outside]

/-- Trees with the same links are arranged alike. -/
theorem Tree.Arranged.of_sameLinks {tree tree' : Tree} (arranged : tree.Arranged)
    (sameSize : tree'.size = tree.size)
    (sameChildren : ∀ node, tree'.children node = tree.children node)
    (sameParent : ∀ node, tree'.parent node = tree.parent node) : tree'.Arranged where
  hasRoot := by simpa [sameSize] using arranged.hasRoot
  childAbove isChild := by
    rw [sameChildren] at isChild
    simpa [sameSize] using arranged.childAbove isChild
  oneParent notRoot inside := by
    rw [sameSize] at inside
    simpa [sameChildren, sameParent] using arranged.oneParent notRoot inside

namespace TreeBuilder

variable {builder : TreeBuilder} {node other : NodeId} {kind : NodeKind} {span : Span}

@[simp] theorem size_build_modify {change : NodeData → NodeData} :
    (builder.modify node change).build.size = builder.build.size := by
  simp [modify, build, Tree.size]

@[simp] theorem size_build_start :
    (builder.start kind span).2.build.size = builder.build.size + 1 := by
  simp [start, build, Tree.size]

@[simp] theorem build_finish : builder.finish.2.build = builder.build := by
  unfold finish
  split <;> rfl

/-- A change that leaves alone what a reading of the nodes looks at does not show there. -/
theorem read_build_modify {α : Type} (read : NodeData → α) {change : NodeData → NodeData}
    (same : ∀ data, read (change data) = read data) :
    read ((builder.modify node change).build.data other) = read (builder.build.data other) := by
  simp only [modify, build, Tree.data, Array.getElem?_modify]
  split
  case isTrue => cases builder.nodes[other.index]? <;> simp [same]
  case isFalse => rfl

/-- A node that is opened is blank but for its parent. -/
theorem data_build_start_new (inside : builder.current.index < builder.build.size) :
    (builder.start kind span).2.build.data ⟨builder.build.size⟩ =
      { kind, span, parent := some builder.current } := by
  have distinct : builder.current.index ≠ builder.nodes.size := Nat.ne_of_lt inside
  simp [start, build, Tree.data, Tree.size, Array.getElem_modify, distinct]

/-- Opening a node changes no older node but the one it is opened in. -/
theorem data_build_start_old (old : node.index < builder.build.size) :
    (builder.start kind span).2.build.data node =
      if node = builder.current then
        { builder.build.data node with
          children := (builder.build.data node).children ++ [⟨builder.build.size⟩] }
      else builder.build.data node := by
  replace old : node.index < builder.nodes.size := old
  have stays : node.index < builder.nodes.size + 1 := Nat.lt_succ_of_lt old
  by_cases here : node = builder.current
  case pos =>
    subst here
    simp [start, build, Tree.data, Tree.size, Array.getElem_modify, Array.getElem_push, old, stays]
  case neg =>
    have apart : builder.current.index ≠ node.index :=
      fun equal => here (congrArg NodeId.mk equal).symm
    simp [start, build, Tree.data, Array.getElem_modify, Array.getElem_push, old, stays, here,
      apart]

theorem children_build_start (inside : builder.current.index < builder.build.size) :
    (builder.start kind span).2.build.children node =
      builder.build.children node ++
        if node = builder.current then [⟨builder.build.size⟩] else [] := by
  unfold Tree.children
  rcases Nat.lt_trichotomy node.index builder.build.size with old | new | outside
  · rw [data_build_start_old old]
    split <;> simp
  · obtain rfl : node = ⟨builder.build.size⟩ := congrArg NodeId.mk new
    have notCurrent : (⟨builder.build.size⟩ : NodeId) ≠ builder.current := by
      intro equal
      simp [← equal] at inside
    have blank : builder.build.data ⟨builder.build.size⟩ = {} :=
      Tree.data_of_outside (Nat.le_refl _)
    rw [data_build_start_new inside, blank, if_neg notCurrent]
    rfl
  · have notCurrent : node ≠ builder.current := by
      rintro rfl
      exact Nat.lt_asymm inside outside
    have stillOutside : (builder.start kind span).2.build.size ≤ node.index := by
      rw [size_build_start]
      exact outside
    rw [Tree.data_of_outside stillOutside, Tree.data_of_outside (Nat.le_of_lt outside),
      if_neg notCurrent]
    rfl

theorem parent_build_start (inside : builder.current.index < builder.build.size) :
    (builder.start kind span).2.build.parent node =
      if node = ⟨builder.build.size⟩ then some builder.current
      else builder.build.parent node := by
  unfold Tree.parent
  rcases Nat.lt_trichotomy node.index builder.build.size with old | new | outside
  · have notNew : node ≠ ⟨builder.build.size⟩ := by
      rintro rfl
      exact Nat.lt_irrefl _ old
    rw [data_build_start_old old, if_neg notNew]
    split <;> rfl
  · obtain rfl : node = ⟨builder.build.size⟩ := congrArg NodeId.mk new
    rw [data_build_start_new inside, if_pos rfl]
  · have notNew : node ≠ ⟨builder.build.size⟩ := by
      rintro rfl
      exact Nat.lt_irrefl _ outside
    have stillOutside : (builder.start kind span).2.build.size ≤ node.index := by
      rw [size_build_start]
      exact outside
    rw [Tree.data_of_outside stillOutside, Tree.data_of_outside (Nat.le_of_lt outside),
      if_neg notNew]

/-- What every built builder keeps to: the open nodes are nodes of the tree so far, and the
tree so far is arranged. -/
structure Nested (builder : TreeBuilder) : Prop where
  openedInside : ∀ node ∈ builder.opened, node.index < builder.build.size
  arranged : builder.build.Arranged

namespace Nested

theorem current_inside (nested : builder.Nested) :
    builder.current.index < builder.build.size := by
  unfold current
  cases found : builder.opened with
  | nil => exact nested.arranged.hasRoot
  | cons node rest => exact nested.openedInside node (by simp [found])

theorem new : (TreeBuilder.new span).Nested := by
  have children : ∀ node, (TreeBuilder.new span).build.children node = [] := by
    intro node
    unfold TreeBuilder.new build Tree.children Tree.data
    cases node.index <;> rfl
  constructor
  · simp [TreeBuilder.new]
  · constructor
    · simp [TreeBuilder.new, build, Tree.size]
    · intro node child isChild
      simp [children] at isChild
    · intro child notRoot inside
      have : child.index = 0 := by simpa [TreeBuilder.new, build, Tree.size] using inside
      exact absurd (congrArg NodeId.mk this) notRoot

theorem modify (nested : builder.Nested) {change : NodeData → NodeData}
    (sameChildren : ∀ data, (change data).children = data.children)
    (sameParent : ∀ data, (change data).parent = data.parent) :
    (builder.modify node change).Nested where
  openedInside := by
    rw [size_build_modify]
    exact nested.openedInside
  arranged :=
    nested.arranged.of_sameLinks size_build_modify
      (fun _ => read_build_modify NodeData.children sameChildren)
      (fun _ => read_build_modify NodeData.parent sameParent)

theorem finish (nested : builder.Nested) : builder.finish.2.Nested := by
  refine ⟨?_, by simpa using nested.arranged⟩
  rw [build_finish]
  intro node isOpen
  apply nested.openedInside
  unfold TreeBuilder.finish at isOpen
  split at isOpen
  case h_1 => exact isOpen
  case h_2 found => simp [found, isOpen]

theorem start (nested : builder.Nested) : (builder.start kind span).2.Nested := by
  have inside := nested.current_inside
  constructor
  · intro node isOpen
    rw [size_build_start]
    rcases List.mem_cons.mp isOpen with rfl | isOpen
    · exact Nat.lt_succ_self _
    · exact Nat.lt_succ_of_lt (nested.openedInside node isOpen)
  · constructor
    · simp
    · intro node child isChild
      rw [children_build_start inside] at isChild
      rw [size_build_start]
      rcases List.mem_append.mp isChild with old | new
      · have above := nested.arranged.childAbove old
        exact ⟨above.1, Nat.lt_succ_of_lt above.2⟩
      · split at new
        case isTrue here =>
          obtain rfl := List.mem_singleton.mp new
          subst here
          exact ⟨inside, Nat.lt_succ_self _⟩
        case isFalse => simp at new
    · intro child notRoot stays
      rw [size_build_start] at stays
      simp only [children_build_start inside, parent_build_start inside, List.count_append]
      by_cases isNew : child = ⟨builder.build.size⟩
      case pos =>
        -- The new node has not been a child of any node before.
        subst isNew
        refine ⟨builder.current, by simp, fun node => ?_⟩
        have unlisted : ⟨builder.build.size⟩ ∉ builder.build.children node := fun isChild =>
          Nat.lt_irrefl _ (nested.arranged.childAbove isChild).2
        rw [List.count_eq_zero_of_not_mem unlisted]
        split <;> simp
      case neg =>
        have old : child.index < builder.build.size := by
          have apart : child.index ≠ builder.build.size :=
            fun equal => isNew (congrArg NodeId.mk equal)
          omega
        rcases nested.arranged.oneParent notRoot old with ⟨parent, isParent, once⟩
        refine ⟨parent, by simp [isNew, isParent], fun node => ?_⟩
        have unlisted : (if node = builder.current then [⟨builder.build.size⟩]
            else ([] : List NodeId)).count child = 0 := by
          split <;> simp [Ne.symm isNew]
        rw [unlisted, Nat.add_zero, once node]

end Nested

/-- Every call keeps the builder nested. -/
theorem Nested.call (nested : builder.Nested) (call : TreeCall) :
    (call.apply builder).Nested := by
  cases call with
  | start kind span => exact nested.start
  | finish => exact nested.finish
  | leaf kind span => exact nested.start.finish
  | setName | setRole | setBinding | setTypeBinding | setText | addModifier =>
      exact nested.modify (fun _ => rfl) (fun _ => rfl)

theorem Built.nested (built : builder.Built) : builder.Nested := by
  induction built with
  | new span => exact .new
  | call call _ ih => exact ih.call call

/-- Every built tree is arranged under its root. -/
theorem Built.arranged (built : builder.Built) : builder.build.Arranged :=
  built.nested.arranged

end TreeBuilder

end JavaInspect
