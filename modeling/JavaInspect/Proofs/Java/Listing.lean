import JavaInspect.Proofs.Java.Parameters

/-!
# What the nodes of type declarations list

The node of a type declaration has its annotations as children, then the list of its parameters,
and then its members. What these are bound to is what the declaration declares, so its type lists
the same.
-/

namespace JavaInspect.Java

open Phrase Lowering

variable {root phrase : Phrase} {base : Nat} {scope wider : List Nat} {owed further : List BindingId}
  {opened news more : List NodeId} {node : NodeId} {data : NodeData} {list : Option Phrase}
  {below uses lists views others : List NodeData} {before middle after : Lowering}
  {declared later : Declared} {table : Table} {type : BindingId} {members : List Phrase}

/-! ## Lists of parameters -/

/-- What the nodes of a parameter list are like, if there is one. -/
def Lined (asComponent : Prop) (declared : Declared) (list : Option Phrase) (tree : Tree)
    (views : List NodeData) : Prop :=
  match list with
  | none => views = []
  | some list => ∃ view, views = [view] ∧ view.kind = .parameters ∧ view.role = .plain ∧
      NamesAll asComponent declared list.namedParts (view.children.map tree.data)

theorem NamesAll.kinds {asComponent : Prop} (names : NamesAll asComponent declared members views) :
    ∀ view ∈ views, view.kind = .parameter := by
  unfold NamesAll at names
  generalize members.filter (·.parameterName?.isSome) = named at names
  induction names with
  | nil => simp
  | cons first _ ih => exact List.forall_mem_cons.2 ⟨first.1, ih⟩

theorem NamesAll.bindings (names : NamesAll True declared members views) :
    views.map (·.binding) = (members.filter (·.parameterName?.isSome)).map
      fun parameter => declared.lookup parameter.number := by
  unfold NamesAll at names
  generalize members.filter (·.parameterName?.isSome) = named at names ⊢
  induction names with
  | nil => rfl
  | cons first _ ih => rw [List.map_cons, List.map_cons, first.2 trivial, ih]

/-- The nodes of a parameter list stay as they are when more is added to the current node. -/
theorem Lined.afterwards {asComponent : Prop} (sound : Sound root base before)
    (first : Advances root base scope owed news before middle)
    (second : Progress root base wider further opened more middle after)
    (lined : Lined asComponent declared list middle.tree (news.map middle.tree.data)) :
    Lined asComponent declared list after.tree (news.map after.tree.data) := by
  have inside := sound.rooted.current_inside
  rw [first.views_eq second inside]
  cases list with
  | none => exact lined
  | some list =>
      rcases lined with ⟨view, isView, isKind, isRole, names⟩
      refine ⟨view, isView, isKind, isRole, ?_⟩
      have isNew : view ∈ news.map middle.tree.data := isView ▸ List.mem_singleton_self _
      rcases List.mem_map.1 isNew with ⟨node, isNode, rfl⟩
      have above := first.extended.isNew node isNode
      have sameChildren : (middle.tree.data node).children.map after.tree.data =
          (middle.tree.data node).children.map middle.tree.data := by
        refine List.map_congr_left fun child isChild => ?_
        have isAbove := first.sound.rooted.arranged.childAbove
          (show child ∈ middle.tree.children node from isChild)
        refine second.extended.same child isAbove.2 ?_
        rintro rfl
        rw [show middle.builder.current = before.builder.current by
          rw [TreeBuilder.current, TreeBuilder.current, first.opened, List.nil_append]] at isAbove
        exact Nat.lt_irrefl _ (Nat.lt_trans isAbove.1 (Nat.lt_of_lt_of_le inside above.1))
      rw [sameChildren]
      exact names

theorem Lined.congr {asComponent : Prop} {tree : Tree}
    (lined : Lined asComponent declared list tree views)
    (same : ∀ parameters ∈ list, ∀ parameter ∈ parameters.namedParts,
      parameter.parameterName?.isSome →
        later.lookup parameter.number = declared.lookup parameter.number) :
    Lined asComponent later list tree views := by
  cases list with
  | none => exact lined
  | some list =>
      rcases lined with ⟨view, isView, isKind, isRole, names⟩
      exact ⟨view, isView, isKind, isRole, names.congr (same list rfl)⟩

/-! ## Members of a body -/

theorem Lists.congr (listed : Lists declared members views)
    (shaped : ∀ member ∈ members, member.Shaped)
    (same : ∀ member ∈ members, SameBelow declared later member) : Lists later members views := by
  refine ⟨listed.plain, ?_⟩
  have inside : List.Forall₂ (fun phrase view => phrase ∈ members.flatMap declarations ∧
      Stands declared phrase view) (members.flatMap declarations)
        (views.filter (·.kind.declaresMember)) :=
    (List.forall₂_and_left _ _).2 ⟨fun _ => id, listed.stands⟩
  refine inside.imp fun phrase view ⟨isDeclared, stands⟩ => stands.congr ?_
  rcases List.mem_flatMap.1 isDeclared with ⟨member, isMember, isDeclared⟩
  exact same member isMember _
    (mem_numbers (mem_all_of_declaration (shaped member isMember) isDeclared))

theorem due_flatMap_congr (same : ∀ member ∈ members, SameBelow declared later member) :
    members.flatMap (due later) = members.flatMap (due declared) :=
  List.flatMap_congr fun member isMember => due_congr (same member isMember)

/-! ## What a node lists -/

namespace Lowering.Builds

variable (builds : Builds root base scope owed opened node data below before after)
include builds

/-- What a reading keeps of the children of a node. -/
theorem filter_children (read : NodeData → Bool) :
    ((after.tree.children node).filter fun child => read (after.tree.data child)).map
      after.tree.data = below.filter read := by
  rw [← builds.isBelow, List.filter_map, Tree.children, builds.isData]
  rfl

variable (split : below = others ++ views) (notMember : ∀ view ∈ others, view.role ≠ .member)
  (listed : Lists declared members views)
include split notMember listed

theorem declaredMembers_eq : (after.tree.declaredMembers node).map after.tree.data =
    views.filter (·.kind.declaresMember) := by
  have kept := builds.filter_children fun view => view.kind.declaresMember && view.role == .member
  have absent : others.filter (fun view => view.kind.declaresMember && view.role == .member) = [] := by
    simpa [List.filter_eq_nil_iff] using fun view isView _ => notMember view isView
  have present : views.filter (fun view => view.kind.declaresMember && view.role == .member) =
      views.filter (·.kind.declaresMember) :=
    List.filter_congr fun view isView => by simp [(listed.plain view isView).1]
  rw [split, List.filter_append, absent, present, List.nil_append] at kept
  rw [← kept, Tree.declaredMembers, Tree.members, List.filter_filter]
  rfl

theorem declaredMembers_bindings (allDeclared : AllDeclared declared (members.flatMap declarations)) :
    (after.tree.declaredMembers node).map after.tree.binding =
      (members.flatMap declarations).map fun phrase => declared.lookup phrase.number := by
  rw [← Stands.bindings listed.stands allDeclared,
    ← builds.declaredMembers_eq split notMember listed, List.map_map]
  rfl

theorem declaredConstructors_eq (allDeclared : AllDeclared declared (members.flatMap declarations)) :
    after.tree.declaredConstructors node =
      ((members.flatMap declarations).filter (·.construct.isConstructor)).filterMap
        fun phrase => declared.lookup phrase.number := by
  rw [← Stands.constructors listed.stands allDeclared,
    ← builds.declaredMembers_eq split notMember listed, List.filter_map, List.filterMap_map]
  rfl

end Lowering.Builds

/-- What a type lists has been declared. -/
theorem AllDeclared.of_listed {phrases : List Phrase} {bindings : List BindingId}
    {rest : List (Option BindingId)} (listed : (bindings.map some).Perm
      (phrases.map (fun phrase => declared.lookup phrase.number) ++ rest)) :
    AllDeclared declared phrases := by
  intro phrase isPhrase
  have isListed := listed.symm.subset (List.mem_append_left _ (List.mem_map_of_mem isPhrase))
  rcases List.mem_map.1 isListed with ⟨binding, -, same⟩
  rw [← same]
  rfl

/-- What the children of the node of a declared type are like, in the order in which they stand. -/
structure Lays (declared : Declared) (phrase : Phrase) (tree : Tree)
    (uses lists views : List NodeData) : Prop where
  uses : ∀ view ∈ uses, view.kind = .annotationUse ∧ view.role = .plain
  lists : Lined True declared (phrase.part? .parameters) tree lists
  members : Lists declared phrase.bodyMembers views

namespace Lays

variable (lays : Lays declared phrase after.tree uses lists views)
include lays

theorem notMember : ∀ view ∈ uses ++ lists, view.role ≠ .member := by
  intro view isView
  rcases List.mem_append.1 isView with isUse | isList
  · rw [(lays.uses view isUse).2]
    nofun
  · have lined := lays.lists
    cases found : phrase.part? .parameters with
    | none =>
        rw [found] at lined
        rw [show lists = [] from lined] at isList
        cases isList
    | some list =>
        rw [found] at lined
        rcases lined with ⟨only, rfl, -, isRole, -⟩
        rw [List.mem_singleton.1 isList, isRole]
        nofun

variable (builds : Builds root base scope owed opened node data (uses ++ lists ++ views) before after)
include builds

/-- The components of a record are bound to its fields. -/
theorem parameters_bindings : (after.tree.parameters node).map after.tree.binding =
    (((phrase.part? .parameters).map namedParts).getD [] |>.filter (·.parameterName?.isSome)).map
      fun component => declared.lookup component.number := by
  have isFirst := builds.find_child (·.kind == .parameters)
  have noUse : uses.find? (·.kind == .parameters) = none := by
    simpa [List.find?_eq_none] using fun view isView => by
      rw [(lays.uses view isView).1]
      nofun
  have noMember : views.find? (·.kind == .parameters) = none := by
    simpa [List.find?_eq_none] using fun view isView => (lays.members.plain view isView).2.2
  have lined := lays.lists
  rw [List.find?_append, List.find?_append, noUse, noMember, Option.none_or, Option.or_none] at isFirst
  replace isFirst : (after.tree.parameterList node).map after.tree.data =
    lists.find? (·.kind == .parameters) := isFirst
  unfold Tree.parameters
  cases found : phrase.part? .parameters with
  | none =>
      rw [found] at lined
      rw [show lists = [] from lined] at isFirst
      rw [Option.map_eq_none_iff.1 isFirst]
      rfl
  | some list =>
      rw [found] at lined
      rcases lined with ⟨view, rfl, isKind, -, names⟩
      rw [List.find?_cons_of_pos (by simp [isKind])] at isFirst
      rcases Option.map_eq_some_iff.1 isFirst with ⟨child, isChild, rfl⟩
      rw [isChild]
      have all : (after.tree.children child).filter (after.tree.kind · == .parameter) =
          after.tree.children child := by
        refine List.filter_eq_self.2 fun inner isInner => ?_
        exact beq_iff_eq.2 (names.kinds _ (List.mem_map_of_mem isInner))
      dsimp only
      rw [all]
      refine .trans ?_ names.bindings
      rw [List.map_map]
      rfl

/-- A type declaration is bound to a type that lists what its member nodes declare. -/
theorem listsMembers (filled : Filled table declared phrase)
    (found : declared.lookup phrase.number = some type)
    (isKind : data.kind = .record ↔ phrase.construct = .recordDeclaration) :
    after.tree.ListsMembers table node type := by
  rcases filled type found with ⟨fields, implicit, areFields, listed, rest⟩
  have allDeclared := AllDeclared.of_listed listed
  have bindings := builds.declaredMembers_bindings rfl lays.notMember lays.members allDeclared
  have nodeKind : after.tree.kind node = data.kind := by rw [Tree.kind, builds.isData]
  refine ⟨fields, implicit, ?_, ?_⟩
  · rw [bindings]
    exact listed
  · by_cases isRecord : phrase.construct = .recordDeclaration
    · rw [if_pos isRecord] at rest
      rw [if_pos (nodeKind.trans (isKind.2 isRecord)), lays.parameters_bindings builds,
        builds.declaredConstructors_eq rfl lays.notMember lays.members allDeclared]
      refine ⟨.trans ?_ areFields, rest⟩
      rw [components, if_pos isRecord]
    · rw [if_neg isRecord] at rest
      rw [if_neg fun is => isRecord (isKind.1 (nodeKind.symm.trans is))]
      rw [components, if_neg isRecord] at areFields
      exact ⟨(List.map_eq_nil_iff.1 areFields.symm), rest⟩

end Lays

/-- An anonymous class is bound to a type that lists what its member nodes declare. -/
theorem Lowering.Builds.listsMembers
    (builds : Builds root base scope owed opened node data views before after)
    (lists_ : Lists declared members views)
    (listed : ((table.entry type).members.map some).Perm
      ((members.flatMap declarations).map fun phrase => declared.lookup phrase.number))
    (noRecord : data.kind ≠ .record) : after.tree.ListsMembers table node type := by
  rw [← List.append_nil ((members.flatMap declarations).map _)] at listed
  have allDeclared := AllDeclared.of_listed listed
  refine ⟨[], [], ?_, ?_⟩
  · rw [builds.declaredMembers_bindings (List.nil_append _).symm (by simp) lists_ allDeclared]
    exact listed
  · rw [if_neg (by rwa [Tree.kind, builds.isData])]
    exact ⟨rfl, rfl⟩

end JavaInspect.Java
