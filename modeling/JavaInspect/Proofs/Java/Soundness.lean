import JavaInspect.Proofs.Java.Introducing
import JavaInspect.Proofs.Java.NodeBindings
import JavaInspect.Proofs.Tree.Opening
import Mathlib.Data.List.Count

/-!
# Sound states

What holds whenever a phrase is about to be lowered. What is in scope refers to bindings of the
right kind, every class in scope is that of an open node, and nodes carry bindings that go with
their kind. What the bindings of a node mean is settled when the node is closed; the steps after
that leave it as it is.
-/

namespace JavaInspect

/-! ## What stays the same around closed nodes -/

namespace Tree

variable {tree later : Tree} {node around : NodeId} {type : BindingId}

theorem index_lt_of_mem_ancestors (isAround : around ∈ tree.ancestors node) :
    around.index < node.index := by
  rcases node with ⟨index⟩
  induction index using Nat.strongRecOn with
  | ind index ih =>
      rw [ancestors] at isAround
      split at isAround
      case h_2 => cases isAround
      case h_1 parent _ =>
        split at isAround
        case isFalse => cases isAround
        case isTrue below =>
          rcases List.mem_cons.1 isAround with rfl | further
          · exact below
          · exact Nat.lt_trans (ih parent.index below further) below

/-- Whether a node declares the type of a binding. -/
def marks (tree : Tree) (type : BindingId) (node : NodeId) : Bool :=
  (tree.kind node).isTypeDeclaration && tree.binding node == some type

/-- The number of nodes that declare the type of a binding. -/
def typeMarks (tree : Tree) (type : BindingId) : Nat :=
  (List.range tree.size).countP fun index => tree.marks type ⟨index⟩

theorem typeMarks_congr (sameSize : later.size = tree.size)
    (same : ∀ node, node.index < tree.size → later.marks type node = tree.marks type node) :
    later.typeMarks type = tree.typeMarks type := by
  rw [typeMarks, typeMarks, sameSize]
  exact List.countP_congr fun index inside => by
    rw [same ⟨index⟩ (List.mem_range.1 inside)]

theorem typeMarks_succ (sameSize : later.size = tree.size + 1)
    (same : ∀ node, node.index < tree.size → later.marks type node = tree.marks type node) :
    later.typeMarks type =
      tree.typeMarks type + if later.marks type ⟨tree.size⟩ then 1 else 0 := by
  rw [typeMarks, typeMarks, sameSize, List.range_succ, List.countP_append, List.countP_singleton]
  congr 1
  exact List.countP_congr fun index inside => by
    rw [same ⟨index⟩ (List.mem_range.1 inside)]

/-- Whether a node is bound to a type, or what it stands for has that type. -/
def Mentions (tree : Tree) (type : BindingId) (node : NodeId) : Prop :=
  tree.binding node = some type ∨ tree.typeBinding node = some type

/-- A node declares a type, and the nodes that mention the type come after it or lie around it. -/
structure Announces (tree : Tree) (type : BindingId) (node : NodeId) : Prop where
  isDeclaration : (tree.kind node).isTypeDeclaration
  isBinding : tree.binding node = some type
  first : ∀ other, tree.Mentions type other →
    node.index ≤ other.index ∨ other ∈ tree.ancestors node

theorem inside_of_binding {binding : BindingId} (isBinding : tree.binding node = some binding) :
    node.index < tree.size := by
  by_contra outside
  rw [Tree.binding, data_of_outside (Nat.not_lt.1 outside)] at isBinding
  cases isBinding

end Tree

namespace TreeBuilder

variable {builder : TreeBuilder} {node target : NodeId} {nodeKind : NodeKind} {span : Span}
  {change further : NodeData → NodeData} {type : BindingId}

theorem modify_modify : (builder.modify target change).modify target further =
    builder.modify target fun data => further (change data) := by
  simp only [modify, TreeBuilder.mk.injEq, and_true]
  refine Array.ext_getElem? fun index => ?_
  simp only [Array.getElem?_modify]
  split
  case isTrue => cases builder.nodes[index]? <;> rfl
  case isFalse => rfl

theorem data_build_modify (inside : target.index < builder.build.size) :
    (builder.modify target change).build.data node =
      if node = target then change (builder.build.data target) else builder.build.data node := by
  replace inside : target.index < builder.nodes.size := inside
  simp only [modify, build, Tree.data, Array.getElem?_modify]
  by_cases same : node = target
  case pos => simp [same, inside]
  case neg =>
    have apart : target.index ≠ node.index := fun equal => same (congrArg NodeId.mk equal).symm
    simp [same, apart]

/-- A new node with all that is known about it from the start. -/
def place (builder : TreeBuilder) (nodeKind : NodeKind) (span : Span)
    (change : NodeData → NodeData) : TreeBuilder :=
  (builder.start nodeKind span).2.modify ⟨builder.build.size⟩ change

theorem size_place : (builder.place nodeKind span change).build.size = builder.build.size + 1 := by
  rw [place, size_build_modify, size_build_start]

theorem Closed.ne_current (closed : builder.Closed node) : node ≠ builder.current := by
  rintro rfl
  have isOpen := closed.2
  unfold current at closed isOpen
  cases found : builder.opened with
  | nil => exact closed.1 (by rw [found]; rfl)
  | cons first rest => exact isOpen (by simp [found])

namespace Rooted

variable (rooted : builder.Rooted)
include rooted

theorem data_place_new : (builder.place nodeKind span change).build.data ⟨builder.build.size⟩ =
    change { kind := nodeKind, span, parent := some builder.current } := by
  rw [place, data_build_modify (by simp), if_pos rfl, data_build_start_new rooted.current_inside]

theorem extends_place :
    Extends builder (builder.place nodeKind span change) [⟨builder.build.size⟩] :=
  (Extends.start rooted.current_inside).modify (Nat.le_refl _) rooted.current_inside

/-- Opening a node changes nothing about the closed ones. -/
theorem agrees_place (closed : builder.Closed node) (inside : node.index < builder.build.size) :
    builder.build.Agrees (builder.place nodeKind span change).build node := by
  have extended : Extends builder (builder.place nodeKind span change) [⟨builder.build.size⟩] :=
    rooted.extends_place
  have same : ∀ other, builder.Closed other → other.index < builder.build.size →
      (builder.place nodeKind span change).build.data other = builder.build.data other :=
    fun other isClosed old => extended.same other old (isClosed.ne_current)
  have below : ∀ {inner child : NodeId}, builder.Closed inner → child ∈ builder.build.children inner →
      builder.Closed child ∧ child.index < builder.build.size :=
    fun isClosed isChild => ⟨rooted.closed_child isClosed isChild,
      (rooted.arranged.childAbove isChild).2⟩
  have aroundOld : ∀ around ∈ builder.build.ancestors node, around.index < builder.build.size :=
    fun around isAround => Nat.lt_trans (Tree.index_lt_of_mem_ancestors isAround) inside
  constructor
  case here => exact same node closed inside
  case below =>
    intro child isChild
    exact same child (below closed isChild).1 (below closed isChild).2
  case deeper =>
    intro child isChild inner isInner
    have innerClosed := below (below closed isChild).1 isInner
    exact same inner innerClosed.1 innerClosed.2
  case ancestors =>
    exact Tree.ancestors_congr fun other low =>
      extended.parent (Nat.lt_of_le_of_lt low inside)
  case kind => exact fun around isAround => extended.kind (aroundOld around isAround)
  case binding => exact fun around isAround _ => extended.binding (aroundOld around isAround)

/-- Completing a node changes nothing about the closed ones, besides the node itself, when the
node is no child of a closed one. -/
theorem agrees_modify {parent : NodeId} (sameParent : ∀ data, (change data).parent = data.parent)
    (sameKind : ∀ data, (change data).kind = data.kind)
    (sameBinding : (builder.build.kind target).isTypeDeclaration →
      (change (builder.build.data target)).binding = builder.build.binding target)
    (targetInside : target.index < builder.build.size)
    (isParent : builder.build.parent target = some parent) (notClosed : ¬ builder.Closed parent)
    (closed : builder.Closed node) (notTarget : node ≠ target) :
    builder.build.Agrees (builder.modify target change).build node := by
  have apart : ∀ {inner child : NodeId}, builder.Closed inner →
      child ∈ builder.build.children inner → child ≠ target := by
    rintro inner child isClosed isChild rfl
    have found := rooted.arranged.parent_of_child isChild
    exact notClosed (Option.some.inj (found.symm.trans isParent) ▸ isClosed)
  have same : ∀ other, other ≠ target →
      (builder.modify target change).build.data other = builder.build.data other :=
    fun other notTarget => by rw [data_build_modify targetInside, if_neg notTarget]
  constructor
  case here => exact same node notTarget
  case below => exact fun child isChild => same child (apart closed isChild)
  case deeper =>
    exact fun child isChild inner isInner =>
      same inner (apart (rooted.closed_child closed isChild) isInner)
  case ancestors =>
    exact Tree.ancestors_congr fun other _ => read_build_modify NodeData.parent sameParent
  case kind => exact fun around _ => read_build_modify NodeData.kind sameKind
  case binding =>
    intro around _ isType
    by_cases isTarget : around = target
    · subst isTarget
      rw [Tree.binding, data_build_modify targetInside, if_pos rfl, sameBinding isType]
    · rw [Tree.binding, same around isTarget, Tree.binding]

theorem announces_place (announces : builder.build.Announces type node) :
    (builder.place nodeKind span change).build.Announces type node := by
  have extended : Extends builder (builder.place nodeKind span change) [⟨builder.build.size⟩] :=
    rooted.extends_place
  have old := Tree.inside_of_binding announces.isBinding
  refine ⟨(extended.kind old).symm ▸ announces.isDeclaration,
    (extended.binding old).trans announces.isBinding, fun other mentions => ?_⟩
  by_cases isOld : other.index < builder.build.size
  case neg => exact .inl (Nat.le_trans (Nat.le_of_lt old) (Nat.not_lt.1 isOld))
  case pos =>
    have mentioned : builder.build.Mentions type other :=
      mentions.imp (extended.binding isOld).symm.trans
        (extended.read NodeData.typeBinding (fun _ _ => rfl) isOld).symm.trans
    refine (announces.first other mentioned).imp_right fun isAround => ?_
    rwa [Tree.ancestors_congr fun inner low => extended.parent (Nat.lt_of_le_of_lt low old)]

/-- The first node that mentions a type announces it. -/
theorem announces_new (isDeclaration : nodeKind.isTypeDeclaration)
    (sameKind : ∀ data, (change data).kind = data.kind)
    (isBinding : ∀ data, (change data).binding = some type)
    (unmentioned : ∀ other, ¬ builder.build.Mentions type other) :
    (builder.place nodeKind span change).build.Announces type ⟨builder.build.size⟩ := by
  have extended : Extends builder (builder.place nodeKind span change) [⟨builder.build.size⟩] :=
    rooted.extends_place
  refine ⟨?_, ?_, fun other mentions => .inl (Nat.not_lt.1 fun old => unmentioned other ?_)⟩
  · rw [Tree.kind, rooted.data_place_new, sameKind]
    exact isDeclaration
  · rw [Tree.binding, rooted.data_place_new, isBinding]
  · exact mentions.imp (extended.binding old).symm.trans
      (extended.read NodeData.typeBinding (fun _ _ => rfl) old).symm.trans

omit rooted in
/-- A node that all later ones lie in may come to mention any type that has been announced. -/
theorem announces_modify (sameParent : ∀ data, (change data).parent = data.parent)
    (sameKind : ∀ data, (change data).kind = data.kind)
    (sameBinding : (builder.build.kind target).isTypeDeclaration →
      (change (builder.build.data target)).binding = builder.build.binding target)
    (targetInside : target.index < builder.build.size)
    (around : ∀ other, target.index < other.index → other.index < builder.build.size →
      target ∈ builder.build.ancestors other)
    (announces : builder.build.Announces type node) :
    (builder.modify target change).build.Announces type node := by
  have old := Tree.inside_of_binding announces.isBinding
  have ancestors : (builder.modify target change).build.ancestors node =
      builder.build.ancestors node :=
    Tree.ancestors_congr fun _ _ => read_build_modify NodeData.parent sameParent
  refine ⟨?_, ?_, fun other mentions => ?_⟩
  · rw [Tree.kind, read_build_modify NodeData.kind sameKind]
    exact announces.isDeclaration
  · rw [Tree.binding, data_build_modify targetInside]
    split
    case isFalse => exact announces.isBinding
    case isTrue isTarget =>
      subst isTarget
      exact (sameBinding announces.isDeclaration).trans announces.isBinding
  · rw [ancestors]
    by_cases isTarget : other = target
    case pos =>
      subst isTarget
      exact (Nat.lt_or_ge other.index node.index).symm.imp_right fun before => around node before old
    case neg =>
      rw [Tree.Mentions, Tree.binding, Tree.typeBinding, data_build_modify targetInside,
        if_neg isTarget] at mentions
      exact announces.first other mentions

end Rooted

end TreeBuilder

namespace NodeData

/-- Changes that complete a node and leave it where it is. -/
def Completing (change : NodeData → NodeData) : Prop :=
  ∀ data, (change data).kind = data.kind ∧ (change data).span = data.span ∧
    (change data).parent = data.parent ∧ (change data).children = data.children

theorem Fits.withChildren {table : Table} {data : NodeData} (fits : data.Fits table)
    (children : List NodeId) : ({ data with children } : NodeData).Fits table :=
  ⟨fits.name, fits.binding, fits.typeBinding⟩

theorem Fits.grows {before after : Table} {changed : BindingId → Prop} {data : NodeData}
    (fits : data.Fits before) (grows : before.Grows changed after) : data.Fits after where
  name := fits.name
  binding binding found := by
    have holds := fits.binding binding found
    exact ⟨grows.lt holds.1, by rw [grows.kind binding holds.1]; exact holds.2⟩
  typeBinding type found := grows.holds (fits.typeBinding type found)

end NodeData

theorem Tree.Agrees.refl {tree : Tree} {node : NodeId} : tree.Agrees tree node :=
  ⟨rfl, fun _ _ => rfl, fun _ _ _ _ => rfl, rfl, fun _ _ => rfl, fun _ _ _ => rfl⟩

namespace Java

open Phrase

/-- The tree that lowering has built so far. -/
abbrev Lowering.tree (state : Lowering) : Tree := state.builder.build

namespace Lowering

/-- A local name stands for a variable that is no member of a type. Where no types share a binding,
the variable has that name. -/
structure Knows (root : Phrase) (base : Nat) (table : Table) (declared : Declared) (name : String)
    (meaning : Local) : Prop where
  isVariable : table.Holds .variable meaning.binding
  isType : table.Holds .type meaning.type
  unlisted : ∀ type, meaning.binding ∉ (table.entry type).members
  isNamed : Unmixed root base declared → (table.entry meaning.binding).name = name

/-- What holds whenever a phrase is about to be lowered, also where a local type has been declared
and still is without a node. -/
structure Steady (root : Phrase) (base : Nat) (state : Lowering) : Prop where
  consistent : Consistent root base state.table state.declared
  localTypes : ∀ entry ∈ state.localTypes, state.table.Holds .type entry.2
  locals : ∀ scope ∈ state.scopes, ∀ entry ∈ scope,
    Knows root base state.table state.declared entry.1 entry.2
  classes : ∀ scope ∈ state.classes, state.table.Holds .type scope.binding ∧
    ∃ node ∈ state.builder.opened, (state.tree.kind node).isTypeDeclaration ∧
      state.tree.binding node = some scope.binding
  rooted : state.builder.Rooted
  inside : ∀ node parent, state.tree.parent node = some parent →
    covers (state.tree.span parent) (state.tree.span node)
  fits : ∀ node, (state.tree.data node).Fits state.table
  bound : Unmixed root base state.declared → ∀ node, node.index < state.tree.size →
    state.builder.Closed node → state.tree.Bound state.table node
  separated : Separated root state

/-- What holds whenever a phrase is about to be lowered: also, every local type has been announced. -/
structure Sound (root : Phrase) (base : Nat) (state : Lowering) : Prop
    extends Steady root base state where
  announced : ∀ entry ∈ state.localTypes, ∃ node, state.tree.Announces entry.2 node

variable {root : Phrase} {base : Nat} {state before after : Lowering} {nodeKind : NodeKind}
  {span : Span} {change : NodeData → NodeData} {target : NodeId} {scope : ClassScope}
  {members : List Phrase}

/-- What is known about a local name stays the same while the table grows. -/
theorem Knows.grows {table later : Table} {declared further : Declared} {name : String}
    {meaning : Local} (knows : Knows root base table declared name meaning)
    (grows : table.Grows (fun _ => ¬ Unmixed root base further) later)
    (unmixed : Unmixed root base further → Unmixed root base declared) :
    Knows root base later further name meaning where
  isVariable := grows.holds knows.isVariable
  isType := grows.holds knows.isType
  unlisted type isMember := (grows.members type _ isMember).elim (knows.unlisted type)
    (Nat.not_le.2 knows.isVariable.1)
  isNamed isUnmixed := by
    rw [grows.same _ knows.isVariable.1 fun mixed => mixed isUnmixed]
    exact knows.isNamed (unmixed isUnmixed)

namespace Steady

theorem readable (steady : Steady root base state) : state.Readable :=
  ⟨steady.consistent.typed, steady.localTypes⟩

/-- What is newer than the table is not mentioned by any node. -/
theorem not_mentions (steady : Steady root base state) {type : BindingId}
    (isNew : state.table.size ≤ type.index) (node : NodeId) : ¬ state.tree.Mentions type node := by
  rintro (isBinding | isType)
  · exact Nat.not_lt.2 isNew ((steady.fits node).binding type isBinding).1
  · exact Nat.not_lt.2 isNew ((steady.fits node).typeBinding type isType).1

/-! ## Changes of the table -/

/-- Growing the table leaves a state steady. -/
theorem retable (steady : Steady root base before)
    (state : ∃ table declared localTypes, after = { before with table, declared, localTypes })
    (consistent : Consistent root base after.table after.declared)
    (localTypes : ∀ entry ∈ after.localTypes, after.table.Holds .type entry.2)
    (grows : before.table.Grows (fun _ => ¬ Unmixed root base after.declared) after.table)
    (separates : Separates root before after) : Steady root base after := by
  rcases state with ⟨table, newDeclared, newTypes, rfl⟩
  rcases separates.declared with ⟨new, isNew, -⟩
  dsimp only at isNew
  refine ⟨consistent, localTypes, ?_, ?_, steady.rooted, steady.inside, ?_, ?_,
    steady.separated.separatesFrom separates rfl fun node type found =>
      ((steady.fits node).binding type found).1⟩
  · exact fun scope isScope entry isEntry => (steady.locals scope isScope entry isEntry).grows grows
      fun unmixed => .of_append (isNew ▸ unmixed)
  · intro scope isScope
    have holds := steady.classes scope isScope
    exact ⟨grows.holds holds.1, holds.2⟩
  · exact fun node => (steady.fits node).grows grows
  · intro unmixed node inside closed
    refine (steady.bound (.of_append (isNew ▸ unmixed)) node inside closed).congr .refl
      steady.consistent.typed grows fun binding old => ?_
    exact grows.same binding old fun mixed => mixed unmixed

theorem widens (unit : root.Grammatical) (steady : Steady root base before)
    (widens : before.Widens after) : Steady root base after := by
  have readable := widens.readable steady.readable
  rcases widens with ⟨table, rfl, widens⟩
  exact steady.retable ⟨_, _, _, rfl⟩
    (steady.consistent.grows unit widens.typed widens.types widens.grows.none) readable.localTypes
    widens.grows.none (.of_types widens.grows.size_le widens.types rfl ⟨[], rfl, rfl⟩)

theorem introduces (steady : Steady root base before)
    (introduces : Introduces root base members before after) : Steady root base after :=
  steady.retable introduces.state introduces.consistent introduces.localTypes introduces.grows
    introduces.separates

/-! ## Changes of the tree -/

/-- Opening a node inside the current one. -/
theorem place (steady : Steady root base state) (completing : NodeData.Completing change)
    (room : covers (state.tree.span state.builder.current) span)
    (fits : (change { kind := nodeKind, span, parent := some state.builder.current }).Fits
      state.table)
    (stems : nodeKind.isTypeDeclaration → ∀ type,
      (change { kind := nodeKind, span, parent := some state.builder.current }).binding = some type →
        Begins root state span type) :
    Steady root base { state with builder := state.builder.place nodeKind span change } := by
  have rooted := steady.rooted
  have extended : TreeBuilder.Extends state.builder (state.builder.place nodeKind span change)
    [⟨state.tree.size⟩] := rooted.extends_place
  have newData : (state.builder.place nodeKind span change).build.data ⟨state.tree.size⟩ =
    change { kind := nodeKind, span, parent := some state.builder.current } := rooted.data_place_new
  have outside : ∀ node : NodeId, ¬ node.index < state.tree.size → node ≠ ⟨state.tree.size⟩ →
      (state.builder.place nodeKind span change).build.data node = {} := by
    intro node notOld notNew
    refine Tree.data_of_outside ?_
    rw [TreeBuilder.size_place]
    refine Nat.lt_of_le_of_ne (Nat.not_lt.1 notOld) fun same => notNew ?_
    exact congrArg NodeId.mk same.symm
  have sameSpan : ∀ node : NodeId, node.index < state.tree.size →
      (state.builder.place nodeKind span change).build.span node = state.tree.span node :=
    fun node => extended.read NodeData.span fun _ _ => rfl
  refine ⟨steady.consistent, steady.localTypes, steady.locals, ?_, ?_, ?_, ?_, ?_, ?_⟩
  · intro scope isScope
    rcases steady.classes scope isScope with ⟨isType, node, isOpen, isDeclaration, isBinding⟩
    have old := rooted.openedInside node isOpen
    refine ⟨isType, node, List.mem_cons_of_mem _ isOpen, ?_, ?_⟩
    · exact (extended.kind old).symm ▸ isDeclaration
    · exact (extended.binding old).trans isBinding
  · exact rooted.start.modify (fun data => (completing data).2.2.2) (fun data => (completing data).2.2.1)
      fun data => (completing data).1
  · intro node parent isParent
    by_cases old : node.index < state.tree.size
    · have isOld : state.tree.parent node = some parent := (extended.parent old).symm.trans isParent
      have parentOld : parent.index < state.tree.size := by
        by_cases isRoot : node = .root
        · rw [isRoot, rooted.noParent] at isOld
          cases isOld
        · exact Nat.lt_trans (rooted.arranged.parent_lt isRoot old isOld) old
      exact (sameSpan node old).symm ▸ (sameSpan parent parentOld).symm ▸ steady.inside node parent isOld
    · by_cases isNew : node = ⟨state.tree.size⟩
      · subst isNew
        have isCurrent : some state.builder.current = some parent := by
          rw [← isParent, Tree.parent, newData, (completing _).2.2.1]
        obtain rfl := Option.some.inj isCurrent
        have newSpan : (state.builder.place nodeKind span change).build.span ⟨state.tree.size⟩ =
            span := by
          rw [Tree.span, newData, (completing _).2.1]
        exact newSpan.symm ▸ (sameSpan _ rooted.current_inside).symm ▸ room
      · rw [Tree.parent, outside node old isNew] at isParent
        cases isParent
  · intro node
    change ((state.builder.place nodeKind span change).build.data node).Fits state.table
    by_cases old : node.index < state.tree.size
    · by_cases isCurrent : node = state.builder.current
      · rw [isCurrent, extended.current]
        exact (steady.fits _).withChildren _
      · rw [extended.same node old isCurrent]
        exact steady.fits node
    · by_cases isNew : node = ⟨state.tree.size⟩
      · rw [isNew, newData]
        exact fits
      · rw [outside node old isNew]
        exact ⟨nofun, nofun, nofun⟩
  · intro unmixed node inside closed
    have notNew : node ≠ ⟨state.tree.size⟩ := by
      rintro rfl
      exact closed.2 List.mem_cons_self
    have wasClosed : state.builder.Closed node :=
      ⟨closed.1, fun isOpen => closed.2 (List.mem_cons_of_mem _ isOpen)⟩
    have old : node.index < state.tree.size := by
      have stays : node.index < state.tree.size + 1 := by
        rw [← TreeBuilder.size_place]
        exact inside
      refine Nat.lt_of_le_of_ne (Nat.le_of_lt_succ stays) fun same => notNew ?_
      exact congrArg NodeId.mk same
    exact (steady.bound unmixed node old wasClosed).congr (rooted.agrees_place wasClosed old)
      steady.consistent.typed (@Table.Grows.refl _ fun _ => False) fun _ _ => rfl
  · have bindings : ∀ {node : NodeId}, node ≠ ⟨state.tree.size⟩ → ∀ type,
        (state.builder.place nodeKind span change).build.binding node = some type →
          node.index < state.tree.size ∧ state.tree.binding node = some type := by
      intro node notNew type isBinding
      by_cases old : node.index < state.tree.size
      · exact ⟨old, (extended.binding old).symm.trans isBinding⟩
      · rw [Tree.binding, outside node old notNew] at isBinding
        cases isBinding
    refine steady.separated.rebuild fun node isType type isBinding => ?_
    by_cases isNew : node = ⟨state.tree.size⟩
    · subst isNew
      rw [Tree.kind, newData, (completing _).1] at isType
      rw [Tree.binding, newData] at isBinding
      have newSpan : (state.builder.place nodeKind span change).build.span ⟨state.tree.size⟩ = span := by
        rw [Tree.span, newData, (completing _).2.1]
      right
      cases stems isType type isBinding with
      | named phrase inRoot phraseIsType isDeclared isSpan =>
          exact .named phrase inRoot phraseIsType isDeclared (newSpan.trans isSpan)
      | anonymous notDeclared notListed isNew =>
          refine .anonymous notDeclared notListed fun other _ otherIsBinding => ?_
          by_contra notNew
          exact isNew other (bindings notNew type otherIsBinding).2
    · rcases bindings isNew type isBinding with ⟨old, wasBinding⟩
      exact .inl ⟨(extended.kind old) ▸ isType, wasBinding, sameSpan node old⟩

/-- Completing a node. If it is closed, its bindings mean what its kind says. -/
theorem modify {parent : NodeId} (steady : Steady root base state)
    (completing : NodeData.Completing change) (inside : target.index < state.tree.size)
    (isParent : state.tree.parent target = some parent) (notClosed : ¬ state.builder.Closed parent)
    (sameBinding : (state.tree.kind target).isTypeDeclaration →
      (change (state.tree.data target)).binding = state.tree.binding target)
    (bound : state.builder.Closed target → Unmixed root base state.declared →
      (state.builder.modify target change).build.Bound state.table target)
    (fits : (change (state.tree.data target)).Fits state.table) :
    Steady root base { state with builder := state.builder.modify target change } := by
  have rooted := steady.rooted
  have sameKind : ∀ node, (state.builder.modify target change).build.kind node =
      state.tree.kind node := fun node =>
    TreeBuilder.read_build_modify NodeData.kind fun data => (completing data).1
  have sameSpan : ∀ node, (state.builder.modify target change).build.span node =
      state.tree.span node := fun node =>
    TreeBuilder.read_build_modify NodeData.span fun data => (completing data).2.1
  have sameParent : ∀ node, (state.builder.modify target change).build.parent node =
      state.tree.parent node := fun node =>
    TreeBuilder.read_build_modify NodeData.parent fun data => (completing data).2.2.1
  have newData : ∀ node, (state.builder.modify target change).build.data node =
      if node = target then change (state.tree.data target) else state.tree.data node :=
    fun node => TreeBuilder.data_build_modify inside
  refine ⟨steady.consistent, steady.localTypes, steady.locals, ?_, ?_, ?_, ?_, ?_, ?_⟩
  · intro scope isScope
    rcases steady.classes scope isScope with ⟨isType, node, isOpen, isDeclaration, isBinding⟩
    refine ⟨isType, node, isOpen, (sameKind node).symm ▸ isDeclaration, ?_⟩
    change ((state.builder.modify target change).build.data node).binding = _
    rw [newData]
    split
    case isTrue isTarget =>
      subst isTarget
      rw [sameBinding isDeclaration, isBinding]
    case isFalse => exact isBinding
  · exact rooted.modify (fun data => (completing data).2.2.2) (fun data => (completing data).2.2.1)
      fun data => (completing data).1
  · intro node parent isParent
    change covers ((state.builder.modify target change).build.span parent)
      ((state.builder.modify target change).build.span node)
    rw [sameSpan, sameSpan]
    exact steady.inside node parent ((sameParent node).symm.trans isParent)
  · intro node
    change ((state.builder.modify target change).build.data node).Fits state.table
    rw [newData]
    split
    · exact fits
    · exact steady.fits node
  · intro unmixed node nodeInside closed
    have old : node.index < state.tree.size := by
      rw [← @TreeBuilder.size_build_modify state.builder target change]
      exact nodeInside
    by_cases isTarget : node = target
    · subst isTarget
      exact bound closed unmixed
    · exact (steady.bound unmixed node old closed).congr
        (rooted.agrees_modify (fun data => (completing data).2.2.1) (fun data => (completing data).1)
          sameBinding inside isParent notClosed closed isTarget)
        steady.consistent.typed (@Table.Grows.refl _ fun _ => False) fun _ _ => rfl
  · refine steady.separated.rebuild fun node isType type isBinding => .inl ?_
    rw [sameKind] at isType
    refine ⟨isType, ?_, sameSpan node⟩
    rw [Tree.binding, newData] at isBinding
    split at isBinding
    case isTrue isTarget =>
      subst isTarget
      exact (sameBinding isType).symm.trans isBinding
    case isFalse => exact isBinding

/-- Closing the current node. -/
theorem finish {node : NodeId} {rest : List NodeId} (steady : Steady root base state)
    (isOpen : state.builder.opened = node :: rest)
    (classes : ∀ scope ∈ state.classes, ∃ node ∈ rest, (state.tree.kind node).isTypeDeclaration ∧
      state.tree.binding node = some scope.binding)
    (bound : Unmixed root base state.declared → state.tree.Bound state.table node) :
    Steady root base { state with builder := state.builder.finish.2 } := by
  have sameTree : state.builder.finish.2.build = state.tree := TreeBuilder.build_finish
  have opened : state.builder.finish.2.opened = rest := by
    rw [TreeBuilder.finish, isOpen]
  refine ⟨steady.consistent, steady.localTypes, steady.locals, ?_, steady.rooted.finish, ?_, ?_, ?_, ?_⟩
  · intro scope isScope
    refine ⟨(steady.classes scope isScope).1, ?_⟩
    simp only [Lowering.tree, sameTree, opened]
    exact classes scope isScope
  · simp only [Lowering.tree, sameTree]
    exact steady.inside
  · simp only [Lowering.tree, sameTree]
    exact steady.fits
  · simp only [Lowering.tree, sameTree]
    intro unmixed other inside closed
    by_cases isNode : other = node
    · exact isNode ▸ bound unmixed
    · refine steady.bound unmixed other inside ⟨closed.1, fun otherOpen => closed.2 ?_⟩
      rw [isOpen] at otherOpen
      exact opened ▸ (List.mem_cons.1 otherOpen).resolve_left isNode
  · refine steady.separated.rebuild fun node isType type isBinding => .inl ?_
    rw [sameTree] at isType isBinding
    exact ⟨isType, isBinding, by rw [sameTree]⟩

/-! ## Changes of what is in scope -/

theorem pushClass (steady : Steady root base state) (isType : state.table.Holds .type scope.binding)
    (isOpen : ∃ node ∈ state.builder.opened, (state.tree.kind node).isTypeDeclaration ∧
      state.tree.binding node = some scope.binding) :
    Steady root base { state with classes := scope :: state.classes } where
  consistent := steady.consistent
  localTypes := steady.localTypes
  locals := steady.locals
  classes := List.forall_mem_cons.2 ⟨⟨isType, isOpen⟩, steady.classes⟩
  rooted := steady.rooted
  inside := steady.inside
  fits := steady.fits
  bound := steady.bound
  separated := steady.separated.rescope

/-- Fewer names in scope, or other names of the right kinds. -/
theorem rescope (steady : Steady root base state)
    {classes : List ClassScope} {methodTypeParameters : List (List String)}
    {methods : List BindingId} {scopes : List Scope}
    (fewer : ∀ scope ∈ classes, scope ∈ state.classes)
    (locals : ∀ scope ∈ scopes, ∀ entry ∈ scope,
      Knows root base state.table state.declared entry.1 entry.2) :
    Steady root base { state with classes, methodTypeParameters, methods, scopes } where
  consistent := steady.consistent
  localTypes := steady.localTypes
  locals := locals
  classes scope isScope := steady.classes scope (fewer scope isScope)
  rooted := steady.rooted
  inside := steady.inside
  fits := steady.fits
  bound := steady.bound
  separated := steady.separated.rescope

end Steady

/-! ## With all local types announced -/

namespace Sound

/-- No local type has been declared, and those of before are still announced. -/
theorem keeping (sound : Sound root base before) (steady : Steady root base after)
    (sameTypes : after.localTypes = before.localTypes)
    (announces : ∀ type node, before.tree.Announces type node → after.tree.Announces type node) :
    Sound root base after where
  toSteady := steady
  announced := by
    rw [sameTypes]
    intro entry isLocal
    rcases sound.announced entry isLocal with ⟨node, announced⟩
    exact ⟨node, announces entry.2 node announced⟩

theorem widens (unit : root.Grammatical) (sound : Sound root base before)
    (widens : before.Widens after) : Sound root base after := by
  refine sound.keeping (sound.toSteady.widens unit widens) ?_ ?_
  · rcases widens with ⟨_, rfl, _⟩
    rfl
  · rcases widens with ⟨_, rfl, _⟩
    exact fun _ _ => id

/-- All that has been introduced is found by name. -/
theorem introduces (sound : Sound root base before)
    (introduces : Introduces root base members before after)
    (sameTypes : after.localTypes = before.localTypes) : Sound root base after := by
  refine sound.keeping (sound.toSteady.introduces introduces) sameTypes ?_
  rcases introduces.state with ⟨_, _, _, rfl⟩
  exact fun _ _ => id

/-- Completing the current node, or one that was closed last. -/
theorem modify {parent : NodeId} (sound : Sound root base state)
    (completing : NodeData.Completing change) (inside : target.index < state.tree.size)
    (isParent : state.tree.parent target = some parent) (notClosed : ¬ state.builder.Closed parent)
    (sameBinding : (state.tree.kind target).isTypeDeclaration →
      (change (state.tree.data target)).binding = state.tree.binding target)
    (bound : state.builder.Closed target → Unmixed root base state.declared →
      (state.builder.modify target change).build.Bound state.table target)
    (around : ∀ other, target.index < other.index → other.index < state.tree.size →
      target ∈ state.tree.ancestors other)
    (fits : (change (state.tree.data target)).Fits state.table) :
    Sound root base { state with builder := state.builder.modify target change } :=
  sound.keeping
    (sound.toSteady.modify completing inside isParent notClosed sameBinding bound fits) rfl
    fun _ _ => TreeBuilder.Rooted.announces_modify (fun data => (completing data).2.2.1)
      (fun data => (completing data).1) sameBinding inside around

theorem finish {node : NodeId} {rest : List NodeId} (sound : Sound root base state)
    (isOpen : state.builder.opened = node :: rest)
    (classes : ∀ scope ∈ state.classes, ∃ node ∈ rest, (state.tree.kind node).isTypeDeclaration ∧
      state.tree.binding node = some scope.binding)
    (bound : Unmixed root base state.declared → state.tree.Bound state.table node) :
    Sound root base { state with builder := state.builder.finish.2 } := by
  refine sound.keeping (sound.toSteady.finish isOpen classes bound) rfl fun type node announces => ?_
  simp only [Lowering.tree, TreeBuilder.build_finish]
  exact announces

theorem pushClass (sound : Sound root base state) (isType : state.table.Holds .type scope.binding)
    (isOpen : ∃ node ∈ state.builder.opened, (state.tree.kind node).isTypeDeclaration ∧
      state.tree.binding node = some scope.binding) :
    Sound root base { state with classes := scope :: state.classes } :=
  sound.keeping (sound.toSteady.pushClass isType isOpen) rfl fun _ _ => id

theorem rescope (sound : Sound root base state)
    {classes : List ClassScope} {methodTypeParameters : List (List String)}
    {methods : List BindingId} {scopes : List Scope}
    (fewer : ∀ scope ∈ classes, scope ∈ state.classes)
    (locals : ∀ scope ∈ scopes, ∀ entry ∈ scope,
      Knows root base state.table state.declared entry.1 entry.2) :
    Sound root base { state with classes, methodTypeParameters, methods, scopes } :=
  sound.keeping (sound.toSteady.rescope fewer locals) rfl fun _ _ => id

end Sound

end Lowering

end Java

end JavaInspect
