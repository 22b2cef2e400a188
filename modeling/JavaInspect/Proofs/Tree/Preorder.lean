import JavaInspect.Proofs.Tree.Opening
import JavaInspect.Proofs.Tree.Traversal
import Mathlib.Data.List.Infix
import Mathlib.Logic.Relation

/-!
# The order of built trees

Only the current node of a builder gains children, and it is the last one on every level of the
tree so far. So the indices below a node are those that come right after its own, and the nodes of
a built tree stand in the arena in pre-order. The walk of a node is the part of the walk of the
tree between its entry and its exit.
-/

namespace JavaInspect

open Relation

namespace Tree

variable {tree later : Tree} {node child parent other : NodeId} {nodes more : List NodeId}
  {first last next stop : Nat}

/-! ## Nodes that lie in the arena one after another -/

/-- Nodes that take up a stretch of the arena: each is followed by what lies below it, and then by
the next of them. -/
inductive Covers (tree : Tree) : List NodeId → Nat → Nat → Prop where
  | nil {first : Nat} : Covers tree [] first first
  | node {node : NodeId} {rest : List NodeId} {next stop : Nat}
      (inner : Covers tree (tree.children node) (node.index + 1) next)
      (after : Covers tree rest next stop) : Covers tree (node :: rest) node.index stop

namespace Covers

theorem le (covers : tree.Covers nodes first stop) : first ≤ stop := by
  induction covers with
  | nil => exact Nat.le_refl _
  | node _ _ ihBelow ihAfter => omega

theorem append (covers : tree.Covers nodes first next) (further : tree.Covers more next stop) :
    tree.Covers (nodes ++ more) first stop := by
  induction covers with
  | nil => exact further
  | node inner _ _ ihAfter => exact .node inner (ihAfter further)

/-- The last of the nodes takes up the end of the stretch. -/
theorem split (covers : tree.Covers (nodes ++ [node]) first stop) :
    tree.Covers nodes first node.index ∧
      tree.Covers (tree.children node) (node.index + 1) stop := by
  induction nodes generalizing first with
  | nil =>
      cases covers with
      | node inner after =>
          cases after
          exact ⟨.nil, inner⟩
  | cons _ rest ih =>
      cases covers with
      | node inner after => exact ⟨.node inner (ih after).1, (ih after).2⟩

theorem le_of_mem (covers : tree.Covers nodes first stop) (isIn : node ∈ nodes) :
    first ≤ node.index := by
  induction covers with
  | nil => cases isIn
  | node inner _ _ ihAfter =>
      rcases List.mem_cons.1 isIn with rfl | isLater
      · exact Nat.le_refl _
      · exact Nat.le_trans (Nat.le_of_succ_le inner.le) (ihAfter isLater)

theorem sorted (covers : tree.Covers nodes first stop) : nodes.Pairwise (·.index < ·.index) := by
  induction covers with
  | nil => exact .nil
  | node inner after _ ihAfter =>
      exact .cons (fun _ isLater => Nat.lt_of_lt_of_le inner.le (after.le_of_mem isLater)) ihAfter

/-- What lies below any index of the stretch is in the stretch. -/
theorem inside (covers : tree.Covers nodes first stop) (low : first ≤ node.index)
    (high : node.index < stop) :
    ∃ next, next ≤ stop ∧ tree.Covers (tree.children node) (node.index + 1) next := by
  induction covers with
  | nil => exact absurd high (Nat.not_lt.2 low)
  | @node top rest next stop inner after ihInner ihAfter =>
      rcases Nat.lt_or_ge node.index next with sooner | later
      · rcases Nat.eq_or_lt_of_le low with here | under
        · obtain rfl : top = node := congrArg NodeId.mk here
          exact ⟨next, after.le, inner⟩
        · rcases ihInner under sooner with ⟨stop', le, covers⟩
          exact ⟨stop', Nat.le_trans le after.le, covers⟩
      · exact ihAfter later high

/-- A stretch stays as it is while no node of it gets children. -/
theorem congr (covers : tree.Covers nodes first stop)
    (same : ∀ node : NodeId, first ≤ node.index → node.index < stop →
      later.children node = tree.children node) : later.Covers nodes first stop := by
  induction covers with
  | nil => exact .nil
  | @node top rest next stop inner after ihInner ihAfter =>
      have here := inner.le
      have there := after.le
      refine .node ?_ (ihAfter fun node low high => same node (by omega) high)
      rw [same top (Nat.le_refl _) (by omega)]
      exact ihInner fun node low high => same node (by omega) (by omega)

end Covers

/-- A walk enters its node, and then what the walks of the children enter. -/
theorem Arranged.entered_walk (arranged : tree.Arranged) (node : NodeId) :
    (tree.walk node).filterMap WalkEvent.entered? =
      node :: ((tree.children node).flatMap tree.walk).filterMap WalkEvent.entered? := by
  rw [arranged.walk_eq]
  simp [WalkEvent.entered?]

/-- The walks over a stretch enter its indices in order. -/
theorem Covers.entered (covers : tree.Covers nodes first stop) (arranged : tree.Arranged) :
    (nodes.flatMap tree.walk).filterMap WalkEvent.entered? =
      (List.range' first (stop - first)).map NodeId.mk := by
  induction covers with
  | nil => simp
  | @node top rest next stop inner after ihInner ihAfter =>
      have here := inner.le
      have there := after.le
      have whole : stop - top.index = (next - (top.index + 1)) + (stop - next) + 1 := by omega
      have join : top.index + 1 + (next - (top.index + 1)) = next := by omega
      rw [List.flatMap_cons, List.filterMap_append, arranged.entered_walk, ihInner, ihAfter, whole,
        List.range'_succ, ← List.range'_append_1, join]
      simp

/-! ## The last node on every level -/

/-- One node is the last child of another. -/
def LastChild (tree : Tree) (node child : NodeId) : Prop :=
  ∃ before, tree.children node = before ++ [child]

/-- Nodes each of which is the last child of the next one, and the last of them of the root. -/
def Rightmost (tree : Tree) : List NodeId → Prop
  | [] => True
  | node :: rest => tree.LastChild (rest.head?.getD .root) node ∧ tree.Rightmost rest

theorem LastChild.mem (isLast : tree.LastChild node child) : child ∈ tree.children node := by
  rcases isLast with ⟨before, eq⟩
  exact eq ▸ List.mem_append_right before List.mem_cons_self

theorem Rightmost.path (rightmost : tree.Rightmost nodes) :
    ReflTransGen tree.LastChild .root (nodes.head?.getD .root) := by
  induction nodes with
  | nil => exact .refl
  | cons node rest ih => exact (ih rightmost.2).tail rightmost.1

theorem Arranged.le_of_path (arranged : tree.Arranged)
    (path : ReflTransGen tree.LastChild node other) : node.index ≤ other.index := by
  induction path with
  | refl => exact Nat.le_refl _
  | tail _ isLast ih => exact Nat.le_trans ih (Nat.le_of_lt (arranged.childAbove isLast.mem).1)

/-- Of such nodes the first lies deepest. -/
theorem Rightmost.le_head (rightmost : tree.Rightmost nodes) (arranged : tree.Arranged)
    (isIn : node ∈ nodes) : node.index ≤ (nodes.head?.getD .root).index := by
  induction nodes with
  | nil => cases isIn
  | cons top rest ih =>
      rcases List.mem_cons.1 isIn with rfl | isLater
      · exact Nat.le_refl _
      · exact Nat.le_trans (ih rightmost.2 isLater)
          (Nat.le_of_lt (arranged.childAbove rightmost.1.mem).1)

/-- Links that are the same up to the first node keep what is rightmost. -/
theorem Rightmost.congr (rightmost : tree.Rightmost nodes)
    (same : ∀ node child, child ∈ nodes → child ∈ tree.children node →
      later.children node = tree.children node) : later.Rightmost nodes := by
  induction nodes with
  | nil => trivial
  | cons node rest ih =>
      refine ⟨?_, ih rightmost.2 fun node child isIn =>
        same node child (List.mem_cons_of_mem _ isIn)⟩
      rw [LastChild, same _ node List.mem_cons_self rightmost.1.mem]
      exact rightmost.1

end Tree

namespace TreeBuilder

variable {builder : TreeBuilder} {node child top : NodeId} {kind : NodeKind} {span : Span}

theorem children_build_start_of_ne (inside : builder.current.index < builder.build.size)
    (notCurrent : node ≠ builder.current) :
    (builder.start kind span).2.build.children node = builder.build.children node := by
  rw [children_build_start inside, if_neg notCurrent, List.append_nil]

theorem children_build_start_current (inside : builder.current.index < builder.build.size) :
    (builder.start kind span).2.build.children builder.current =
      builder.build.children builder.current ++ [⟨builder.build.size⟩] := by
  rw [children_build_start inside, if_pos rfl]

/-- What every builder keeps to: the arena is one stretch, and its end is where nodes are open. -/
structure Settled (builder : TreeBuilder) : Prop extends Rooted builder where
  covers : builder.build.Covers [.root] 0 builder.build.size
  rightmost : builder.build.Rightmost builder.opened

/-- A new node extends the stretch of each node that it lies in. The induction follows the path of
last children down to the current node, where the new node is added. -/
theorem covers_start (rooted : builder.Rooted)
    (path : ReflTransGen builder.build.LastChild top builder.current) (before : List NodeId)
    {first : Nat} (covers : builder.build.Covers (before ++ [top]) first builder.build.size) :
    (builder.start kind span).2.build.Covers (before ++ [top]) first
      (builder.build.size + 1) := by
  have inside := rooted.current_inside
  have earlier : ∀ {nodes : List NodeId} {first stop : Nat}, stop ≤ builder.current.index →
      builder.build.Covers nodes first stop →
        (builder.start kind span).2.build.Covers nodes first stop := by
    intro nodes first stop low covers
    refine covers.congr fun node _ high => children_build_start_of_ne inside ?_
    rintro rfl
    omega
  induction path using ReflTransGen.head_induction_on generalizing before first with
  | refl =>
      rcases covers.split with ⟨old, below⟩
      have blank : (builder.start kind span).2.build.children ⟨builder.build.size⟩ = [] := by
        rw [Tree.children, data_build_start_new inside]
      have new : (builder.start kind span).2.build.Covers [⟨builder.build.size⟩]
          builder.build.size (builder.build.size + 1) := by
        refine .node ?_ .nil
        rw [blank]
        exact .nil
      -- Nothing below the current node gets children but that node itself.
      have under : (builder.start kind span).2.build.Covers
          (builder.build.children builder.current) (builder.current.index + 1)
            builder.build.size := by
        refine below.congr fun node low _ => children_build_start_of_ne inside ?_
        rintro rfl
        omega
      refine (earlier (Nat.le_refl _) old).append (.node ?_ .nil)
      exact (children_build_start_current inside).symm ▸ under.append new
  | @head top below isLast path ih =>
      rcases covers.split with ⟨old, inner⟩
      have low := (rooted.arranged.childAbove isLast.mem).1
      have high := rooted.arranged.le_of_path path
      have notCurrent : top ≠ builder.current := by
        rintro rfl
        omega
      refine (earlier (by omega) old).append (.node ?_ .nil)
      rcases isLast with ⟨init, isLast⟩
      rw [children_build_start_of_ne inside notCurrent, isLast]
      rw [isLast] at inner
      exact ih init inner

namespace Settled

theorem new : (TreeBuilder.new span).Settled where
  toRooted := .new
  covers := .node .nil .nil
  rightmost := trivial

theorem modify {target : NodeId} {change : NodeData → NodeData} (settled : builder.Settled)
    (sameChildren : ∀ data, (change data).children = data.children)
    (sameParent : ∀ data, (change data).parent = data.parent)
    (sameKind : ∀ data, (change data).kind = data.kind) :
    (builder.modify target change).Settled where
  toRooted := settled.toRooted.modify sameChildren sameParent sameKind
  covers := by
    rw [size_build_modify]
    exact settled.covers.congr fun _ _ _ => read_build_modify NodeData.children sameChildren
  rightmost := settled.rightmost.congr fun _ _ _ _ =>
    read_build_modify NodeData.children sameChildren

theorem finish (settled : builder.Settled) : builder.finish.2.Settled := by
  refine ⟨settled.toRooted.finish, by simpa using settled.covers, ?_⟩
  rw [build_finish]
  have rightmost := settled.rightmost
  unfold TreeBuilder.finish
  split
  case h_1 => exact rightmost
  case h_2 node rest isOpen =>
    rw [isOpen] at rightmost
    exact rightmost.2

theorem start (settled : builder.Settled) : (builder.start kind span).2.Settled := by
  have inside := settled.current_inside
  refine ⟨settled.toRooted.start, ?_, ?_, ?_⟩
  · rw [size_build_start]
    exact covers_start settled.toRooted settled.rightmost.path [] settled.covers
  · exact ⟨builder.build.children builder.current, children_build_start_current inside⟩
  · -- The nodes around the current one keep their children: what is open lies above each of them.
    refine settled.rightmost.congr fun node child isOpen isChild =>
      children_build_start_of_ne inside ?_
    rintro rfl
    have above := (settled.arranged.childAbove isChild).1
    exact Nat.not_lt.2 (settled.rightmost.le_head settled.arranged isOpen) above

end Settled

/-- Every call keeps the order of the nodes. -/
theorem Settled.call (settled : builder.Settled) (call : TreeCall) :
    (call.apply builder).Settled := by
  cases call with
  | start kind span => exact settled.start
  | finish => exact settled.finish
  | leaf kind span => exact settled.start.finish
  | setName | setRole | setBinding | setTypeBinding | setText | addModifier =>
      exact settled.modify (fun _ => rfl) (fun _ => rfl) (fun _ => rfl)

theorem Built.settled (built : builder.Built) : builder.Settled := by
  induction built with
  | new span => exact .new
  | call call _ ih => exact ih.call call

end TreeBuilder

end JavaInspect
