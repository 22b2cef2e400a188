import JavaInspect.Proofs.Tree.Building

/-!
# Trees under construction

The open nodes of a builder lie in each other, the outermost in the root; they are what is
around the innermost of them. While nodes are opened, completed and closed inside the current
one, nothing of the older nodes changes besides the children of the current node.
-/

namespace JavaInspect

namespace Tree

variable {tree : Tree} {node child parent : NodeId} {rest : List NodeId}

/-- Nodes that lie in each other, the innermost first and the last of them in the root. -/
def Chained (tree : Tree) : List NodeId → Prop
  | [] => True
  | node :: rest => tree.parent node = some (rest.head?.getD .root) ∧ tree.Chained rest

theorem Arranged.parent_of_child (arranged : tree.Arranged) (isChild : child ∈ tree.children node) :
    tree.parent child = some node := by
  have above := arranged.childAbove isChild
  have notRoot : child ≠ .root := by
    rintro rfl
    exact Nat.not_lt_zero _ above.1
  rcases arranged.oneParent notRoot above.2 with ⟨parent, isParent, once⟩
  have counted := once node
  split at counted
  case isTrue same => exact same ▸ isParent
  case isFalse =>
    rw [List.count_eq_zero] at counted
    exact absurd isChild counted

theorem Arranged.parent_lt (arranged : tree.Arranged) (notRoot : node ≠ .root)
    (inside : node.index < tree.size) (isParent : tree.parent node = some parent) :
    parent.index < node.index := by
  rcases arranged.oneParent notRoot inside with ⟨found, isFound, once⟩
  obtain rfl := Option.some.inj (isFound.symm.trans isParent)
  have counted := once found
  rw [if_pos rfl] at counted
  exact (arranged.childAbove (List.count_pos_iff.1 (counted ▸ Nat.one_pos))).1

theorem ancestors_of_parent (isParent : tree.parent node = some parent)
    (below : parent.index < node.index) :
    tree.ancestors node = parent :: tree.ancestors parent := by
  rw [ancestors, isParent]
  exact dif_pos below

theorem ancestors_of_no_parent (noParent : tree.parent node = none) : tree.ancestors node = [] := by
  rw [ancestors, noParent]

/-- What is around the innermost of nodes that lie in each other. -/
theorem Chained.ancestors_eq (arranged : tree.Arranged) (noParent : tree.parent .root = none)
    (inside : ∀ inner ∈ node :: rest, inner.index < tree.size)
    (chained : tree.Chained (node :: rest)) : tree.ancestors node = rest ++ [.root] := by
  have step : ∀ {node : NodeId} {rest : List NodeId}, tree.Chained (node :: rest) →
      node.index < tree.size →
        tree.ancestors node = rest.head?.getD .root :: tree.ancestors (rest.head?.getD .root) := by
    intro node rest chained inTree
    have isParent := chained.1
    refine ancestors_of_parent isParent (arranged.parent_lt ?_ inTree isParent)
    rintro rfl
    rw [noParent] at isParent
    cases isParent
  induction rest generalizing node with
  | nil =>
      rw [step chained (inside node List.mem_cons_self)]
      exact congrArg _ (ancestors_of_no_parent noParent)
  | cons next rest ih =>
      rw [step chained (inside node List.mem_cons_self)]
      exact congrArg (next :: ·)
        (ih (fun later isLater => inside later (List.mem_cons_of_mem _ isLater)) chained.2)

/-- The parent of a chained node is the root or chained as well. -/
theorem Chained.parent_mem {chain : List NodeId} (chained : tree.Chained chain)
    (isIn : node ∈ chain) (isParent : tree.parent node = some parent) :
    parent = .root ∨ parent ∈ chain := by
  induction chain with
  | nil => cases isIn
  | cons first rest ih =>
      rcases List.mem_cons.1 isIn with rfl | later
      · obtain rfl := Option.some.inj (chained.1.symm.trans isParent)
        cases rest with
        | nil => exact .inl rfl
        | cons next rest => exact .inr (by simp)
      · exact (ih chained.2 later).imp_right (List.mem_cons_of_mem _)

theorem Chained.congr {later : Tree} {chain : List NodeId} (chained : tree.Chained chain)
    (sameParent : ∀ node ∈ chain, later.parent node = tree.parent node) : later.Chained chain := by
  induction chain with
  | nil => trivial
  | cons node rest ih =>
      refine ⟨?_, ih chained.2 fun node isIn => sameParent node (List.mem_cons_of_mem _ isIn)⟩
      rw [sameParent node List.mem_cons_self]
      exact chained.1

end Tree

namespace TreeBuilder

variable {builder before middle after : TreeBuilder} {node child target : NodeId}
  {news more : List NodeId} {nodeKind : NodeKind} {span : Span} {change : NodeData → NodeData}

/-- What every builder keeps to that is used as intended: its open nodes lie in each other. -/
structure Rooted (builder : TreeBuilder) : Prop extends Nested builder where
  chained : builder.build.Chained builder.opened
  noParent : builder.build.parent .root = none
  isUnit : builder.build.kind .root = .compilationUnit

/-- A node that is neither open nor the root. -/
def Closed (builder : TreeBuilder) (node : NodeId) : Prop :=
  node ≠ .root ∧ node ∉ builder.opened

namespace Rooted

theorem new : (TreeBuilder.new span).Rooted where
  toNested := .new
  chained := trivial
  noParent := rfl
  isUnit := rfl

theorem ancestors_eq {rest : List NodeId} (rooted : builder.Rooted)
    (opened : builder.opened = node :: rest) : builder.build.ancestors node = rest ++ [.root] :=
  Tree.Chained.ancestors_eq rooted.arranged rooted.noParent (opened ▸ rooted.openedInside)
    (opened ▸ rooted.chained)

/-- What is around the nodes inside the current one: the open nodes. -/
theorem ancestors_inside (rooted : builder.Rooted) (below : builder.current.index < node.index)
    (isParent : builder.build.parent node = some builder.current) :
    builder.build.ancestors node = builder.opened ++ [.root] := by
  rw [Tree.ancestors_of_parent isParent below]
  unfold current
  cases opened : builder.opened with
  | nil => exact congrArg _ (Tree.ancestors_of_no_parent rooted.noParent)
  | cons first rest => exact congrArg _ (rooted.ancestors_eq opened)

/-- What is inside a closed node is closed. -/
theorem closed_child (rooted : builder.Rooted) (closed : builder.Closed node)
    (isChild : child ∈ builder.build.children node) : builder.Closed child := by
  have isParent := rooted.arranged.parent_of_child isChild
  constructor
  · rintro rfl
    exact Nat.not_lt_zero _ (rooted.arranged.childAbove isChild).1
  · intro isOpen
    exact (rooted.chained.parent_mem isOpen isParent).elim closed.1 closed.2

theorem modify (rooted : builder.Rooted) (sameChildren : ∀ data, (change data).children = data.children)
    (sameParent : ∀ data, (change data).parent = data.parent)
    (sameKind : ∀ data, (change data).kind = data.kind) : (builder.modify target change).Rooted where
  toNested := rooted.toNested.modify sameChildren sameParent
  chained := rooted.chained.congr fun _ _ => read_build_modify NodeData.parent sameParent
  noParent := (read_build_modify NodeData.parent sameParent).trans rooted.noParent
  isUnit := (read_build_modify NodeData.kind sameKind).trans rooted.isUnit

theorem start (rooted : builder.Rooted) : (builder.start nodeKind span).2.Rooted := by
  have inside := rooted.current_inside
  have isRoot : (NodeId.root).index < builder.build.size := rooted.arranged.hasRoot
  have notNew : ∀ node, node.index < builder.build.size →
      (builder.start nodeKind span).2.build.parent node = builder.build.parent node := by
    intro node old
    rw [parent_build_start inside, if_neg]
    rintro rfl
    exact Nat.lt_irrefl _ old
  refine ⟨rooted.toNested.start, ⟨?_, ?_⟩, ?_, ?_⟩
  · exact (parent_build_start inside).trans (if_pos rfl)
  · exact rooted.chained.congr fun node isOpen => notNew node (rooted.openedInside node isOpen)
  · rw [notNew _ isRoot, rooted.noParent]
  · rw [Tree.kind, data_build_start_old isRoot]
    split
    · exact rooted.isUnit
    · exact rooted.isUnit

theorem finish (rooted : builder.Rooted) : builder.finish.2.Rooted := by
  refine ⟨rooted.toNested.finish, ?_, by simpa using rooted.noParent, by simpa using rooted.isUnit⟩
  rw [build_finish]
  have chained := rooted.chained
  unfold TreeBuilder.finish
  split
  case h_1 => exact chained
  case h_2 node rest isOpen =>
    rw [isOpen] at chained
    exact chained.2

end Rooted

/-- Nodes have been opened, completed and closed inside the current one. -/
structure Extends (before after : TreeBuilder) (news : List NodeId) : Prop where
  size_le : before.build.size ≤ after.build.size
  isNew : ∀ node ∈ news, before.build.size ≤ node.index ∧ node.index < after.build.size
  same : ∀ node, node.index < before.build.size → node ≠ before.current →
    after.build.data node = before.build.data node
  current : after.build.data before.current =
    { before.build.data before.current with
      children := (before.build.data before.current).children ++ news }

namespace Extends

theorem refl : Extends builder builder [] :=
  ⟨Nat.le_refl _, by simp, fun _ _ _ => rfl, by simp⟩

theorem lt (extended : Extends before after news) (old : node.index < before.build.size) :
    node.index < after.build.size :=
  Nat.lt_of_lt_of_le old extended.size_le

theorem trans (first : Extends before middle news) (second : Extends middle after more)
    (sameOpened : middle.opened = before.opened) : Extends before after (news ++ more) := by
  have sameCurrent : middle.current = before.current := by
    rw [TreeBuilder.current, TreeBuilder.current, sameOpened]
  refine ⟨Nat.le_trans first.size_le second.size_le, ?_, ?_, ?_⟩
  · intro node isNew
    rcases List.mem_append.1 isNew with sooner | later
    · exact ⟨(first.isNew node sooner).1, second.lt (first.isNew node sooner).2⟩
    · exact ⟨Nat.le_trans first.size_le (second.isNew node later).1, (second.isNew node later).2⟩
  · intro node old notCurrent
    rw [second.same node (first.lt old) (sameCurrent ▸ notCurrent), first.same node old notCurrent]
  · have next := second.current
    rw [sameCurrent] at next
    rw [next, first.current, List.append_assoc]

/-- What happens inside a new node. -/
theorem inner (first : Extends before middle news) (second : Extends middle after more)
    (isNew : before.build.size ≤ middle.current.index)
    (inside : before.current.index < before.build.size) : Extends before after news := by
  have apart : ∀ node, node.index < before.build.size → node ≠ middle.current := by
    rintro node old rfl
    exact Nat.not_lt.2 isNew old
  refine ⟨Nat.le_trans first.size_le second.size_le, ?_, ?_, ?_⟩
  · exact fun node isIn => ⟨(first.isNew node isIn).1, second.lt (first.isNew node isIn).2⟩
  · intro node old notCurrent
    rw [second.same node (first.lt old) (apart node old), first.same node old notCurrent]
  · rw [second.same _ (first.lt inside) (apart _ inside), first.current]

/-- New nodes may be completed. -/
theorem modify (extended : Extends before after news) (isNew : before.build.size ≤ target.index)
    (inside : before.current.index < before.build.size) :
    Extends before (after.modify target change) news := by
  have apart : ∀ node, node.index < before.build.size →
      (after.modify target change).build.data node = after.build.data node := by
    intro node old
    have differs : target.index ≠ node.index := by omega
    simp [TreeBuilder.modify, build, Tree.data, Array.getElem?_modify, differs]
  refine ⟨by simpa using extended.size_le, by simpa using extended.isNew, ?_, ?_⟩
  · intro node old notCurrent
    rw [apart node old, extended.same node old notCurrent]
  · rw [apart _ inside, extended.current]

theorem start (inside : builder.current.index < builder.build.size) :
    Extends builder (builder.start nodeKind span).2 [⟨builder.build.size⟩] := by
  refine ⟨by simp, by simp, ?_, ?_⟩
  · intro node old notCurrent
    rw [data_build_start_old old, if_neg notCurrent]
  · rw [data_build_start_old inside, if_pos rfl]

/-- A reading of old nodes that does not look at their children. -/
theorem read {α : Type} (read : NodeData → α) (extended : Extends before after news)
    (blind : ∀ data children, read { data with children } = read data)
    (old : node.index < before.build.size) :
    read (after.build.data node) = read (before.build.data node) := by
  by_cases isCurrent : node = before.current
  · rw [isCurrent, extended.current, blind]
  · rw [extended.same node old isCurrent]

theorem kind (extended : Extends before after news) (old : node.index < before.build.size) :
    after.build.kind node = before.build.kind node :=
  extended.read NodeData.kind (fun _ _ => rfl) old

theorem binding (extended : Extends before after news) (old : node.index < before.build.size) :
    after.build.binding node = before.build.binding node :=
  extended.read NodeData.binding (fun _ _ => rfl) old

theorem role (extended : Extends before after news) (old : node.index < before.build.size) :
    after.build.role node = before.build.role node :=
  extended.read NodeData.role (fun _ _ => rfl) old

theorem parent (extended : Extends before after news) (old : node.index < before.build.size) :
    after.build.parent node = before.build.parent node :=
  extended.read NodeData.parent (fun _ _ => rfl) old

/-- What has been added lies in one of the nodes that were added to the current one. -/
theorem within (extended : Extends before after news) (arranged : before.build.Arranged)
    (later : after.build.Arranged) (isNew : before.build.size ≤ node.index)
    (inside : node.index < after.build.size) :
    ∃ new ∈ news, node = new ∨ new ∈ after.build.ancestors node := by
  rcases node with ⟨index⟩
  induction index using Nat.strongRecOn with
  | ind index ih =>
      have notRoot : (⟨index⟩ : NodeId) ≠ .root := by
        intro isRoot
        rw [isRoot] at isNew
        exact Nat.not_lt.2 isNew arranged.hasRoot
      rcases later.oneParent notRoot inside with ⟨parent, isParent, once⟩
      have isChild : ⟨index⟩ ∈ after.build.children parent :=
        List.count_pos_iff.1 (by rw [once, if_pos rfl]; exact Nat.one_pos)
      have below := (later.childAbove isChild).1
      have around := Tree.ancestors_of_parent isParent below
      by_cases old : parent.index < before.build.size
      case neg =>
        rcases ih parent.index below (Nat.not_lt.1 old) (Nat.lt_trans below inside) with
          ⟨new, isIn, same | further⟩
        · exact ⟨new, isIn, .inr (around ▸ same ▸ List.mem_cons_self)⟩
        · exact ⟨new, isIn, .inr (around ▸ List.mem_cons_of_mem _ further)⟩
      case pos =>
        have notOld : ⟨index⟩ ∉ before.build.children parent := fun isOld =>
          Nat.not_lt.2 isNew (arranged.childAbove isOld).2
        by_cases isCurrent : parent = before.current
        case neg =>
          rw [Tree.children, extended.same parent old isCurrent] at isChild
          exact absurd isChild notOld
        case pos =>
          rw [isCurrent, Tree.children, extended.current] at isChild
          exact ⟨_, (List.mem_append.1 isChild).resolve_left (isCurrent ▸ notOld), .inl rfl⟩

end Extends

end TreeBuilder

/-- The nodes around a node stay the same when parents do. -/
theorem Tree.ancestors_congr {tree later : Tree} {node : NodeId}
    (sameParent : ∀ other, other.index ≤ node.index → later.parent other = tree.parent other) :
    later.ancestors node = tree.ancestors node := by
  rcases node with ⟨index⟩
  induction index using Nat.strongRecOn with
  | ind index ih =>
      rw [Tree.ancestors, Tree.ancestors, sameParent _ (Nat.le_refl _)]
      split
      case h_1 parent _ =>
        split
        case isTrue below =>
          have rest := ih parent.index below fun other low =>
            sameParent other (Nat.le_trans low (Nat.le_of_lt below))
          rw [show later.ancestors parent = tree.ancestors parent from rest]
        case isFalse => rfl
      case h_2 => rfl

end JavaInspect
