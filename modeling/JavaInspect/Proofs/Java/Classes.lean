import JavaInspect.Proofs.Java.Listing

/-!
# Lowering classes

A declared type is in scope while its components and members are lowered, and its node is bound to a
type that lists them. An anonymous class is introduced before its members are lowered.
-/

namespace JavaInspect.Java

open Phrase Lowering

variable {root phrase body : Phrase} {base depth : Nat} {scope wider : List Nat}
  {owed further : List BindingId} {opened news more : List NodeId} {node : NodeId} {data : NodeData}
  {below uses lists views : List NodeData} {before middle after : Lowering} {source : Source}
  {role : Role} {kind : TypeKind} {type : BindingId} {step : Lower.Step} {members : List Phrase}

theorem Construct.isRecord_iff {construct : Construct} (isKind : construct.typeKind? = some kind) :
    declarationKind kind = .record ↔ construct = .recordDeclaration := by
  unfold typeKind? at isKind
  split at isKind
  case h_6 => cases isKind
  all_goals
    obtain rfl := Option.some.inj isKind
    simp [declarationKind]

/-! ## Annotations and what stands beside them -/

namespace Phrase

theorem number_not_mem_annotations {part : Phrase} {number : Nat} (numbered : phrase.numbers.Nodup)
    (isPart : part ∈ phrase.parts) (notModifiers : part.construct ≠ .modifiers)
    (isNumber : number ∈ part.numbers) : number ∉ numbersOf phrase.annotations := by
  intro inUses
  rcases List.mem_map.1 inUses with ⟨inner, inside, rfl⟩
  rcases mem_allOf.1 inside with ⟨use, isUse, inUse⟩
  rcases mem_annotations isUse with ⟨list, isList, isModifiers, inList, -⟩
  have inside := mem_all_trans (mem_all_of_part inList) inUse
  obtain rfl := eq_of_number (numbered_parts numbered) isPart isList isNumber (mem_numbers inside)
  exact notModifiers isModifiers

/-- A parameter with a name is no annotation, wherever it stands. -/
theorem parameter_not_mem_annotations {list parameter : Phrase} (numbered : phrase.numbers.Nodup)
    (isPart : list ∈ phrase.parts) (inList : parameter ∈ list.parts)
    (hasName : parameter.parameterName?.isSome) :
    parameter.number ∉ numbersOf phrase.annotations := by
  intro inUses
  rcases List.mem_map.1 inUses with ⟨inner, inside, same⟩
  rcases mem_allOf.1 inside with ⟨use, isUse, inUse⟩
  rcases mem_annotations isUse with ⟨modifiers, isModifiers, -, inModifiers, isAnnotation⟩
  have inside := mem_all_trans (mem_all_of_part inModifiers) inUse
  obtain rfl := eq_of_number (numbered_parts numbered) isModifiers isPart (mem_numbers inside)
    (same ▸ mem_numbers (mem_all_of_part inList))
  obtain rfl := eq_of_number (numbered_parts (numbered_of_mem numbered (mem_all_of_part isPart)))
    inModifiers inList (mem_numbers inUse) (same ▸ mem_numbers mem_all_self)
  have declares := (declares_of_parameterName hasName).1
  cases is : use.construct <;> simp_all [Construct.isAnnotationUse, Construct.declares?]

end Phrase

/-! ## Inside of a class -/

/-- A class is in scope, with no local names yet. -/
abbrev Lowering.entering (state : Lowering) (inner : ClassScope) : Lowering :=
  { state with classes := inner :: state.classes, scopes := [] :: state.scopes }

/-- Neither the class nor its local names are in scope any more. -/
abbrev Lowering.leaving (state : Lowering) : Lowering :=
  { state with classes := state.classes.tail, scopes := state.scopes.tail }

namespace Lowering

theorem Progress.leave {inner : ClassScope}
    (progress : Progress root base scope owed opened news (before.entering inner) after) :
    Progress root base scope owed opened news before after.leaving :=
  progress.popScope.popClass

namespace Builds

/-- The class of an open type declaration may be brought into scope. -/
theorem enter {inner : ClassScope}
    (opens : Opens root base scope owed node data below before after)
    (isDeclaration : data.kind.isTypeDeclaration) (isBinding : data.binding = some inner.binding)
    (isType : after.table.Holds .type inner.binding) :
    Sound root base (after.entering inner) ∧ (after.entering inner).Homed := by
  have nodeKind : (after.tree.kind node).isTypeDeclaration := by
    rw [Tree.kind, opens.isData, isDeclaration]
  have nodeBinding : after.tree.binding node = some inner.binding := by
    rw [Tree.binding, opens.isData, isBinding]
  have isOpen : node ∈ after.builder.opened := by
    rw [opens.opened]
    exact List.mem_cons_self
  constructor
  · exact (opens.sound.pushClass isType ⟨node, isOpen, nodeKind, nodeBinding⟩).rescope
      (fun _ => id) (List.forall_mem_cons.2 ⟨by simp, opens.sound.locals⟩)
  · refine ⟨node, inner, ?_, rfl, nodeBinding⟩
    change after.builder.opened.find? _ = some node
    rw [opens.opened]
    exact List.find?_cons_of_pos nodeKind

/-- Types have been introduced before a node for them was built. -/
theorem afterIntroduces (sound : Sound root base before)
    (introduces : Introduces root base members before middle)
    (builds : Builds root base scope (owed ++ typesOf middle.declared members) opened node data below
      middle after) (subset : numbersOf members ⊆ scope) :
    Builds root base scope owed opened node data below before after := by
  refine ⟨builds.toProgress.afterIntroduces introduces subset, sound.toSteady, builds.isData, ?_,
    builds.isBelow⟩
  rcases introduces.state with ⟨_, _, _, rfl⟩
  exact builds.isParent

end Builds

end Lowering

namespace Lower

section

variable (unit : root.Grammatical) (handles : Handles root base step depth)
include unit

/-! ## Anonymous classes -/

include handles in
/-- The body of an anonymous class becomes a node that lists its members. -/
theorem becomes_lowerAnonymousClass {supertype : Option BindingId} (inRoot : phrase ∈ root.all)
    (isPart : body ∈ phrase.parts) (low : body.height ≤ depth + 1)
    (isTypeBody : body.construct.isTypeBody) (noType : ¬ phrase.declaresType)
    (sound : Sound root base before)
    (room : covers (before.tree.span before.builder.current) body.span)
    (isType : ∀ above, supertype = some above → before.table.Holds .type above) :
    Ensures (lowerAnonymousClass source step body supertype) before fun _ after => ∃ node,
      Becomes root base body .class .plain before node after := by
  have bodyInRoot := mem_all_trans inRoot (mem_all_of_part isPart)
  have split : lowerAnonymousClass source step body supertype = (do
      let owner ← currentOwner source
      let type ← bind (·.declareLocalType owner "" .class)
      linkAnonymousClass type supertype
      declareTypes source body.height body (some type)
      inClass { binding := type } do
        linkMembers source body type []
        let node ← start .class body .plain
        setBinding node type
        setTypeBinding node type
        inScope (lowerMembers step body)) >>= fun _ => finish := by
    simp only [lowerAnonymousClass, bind_assoc]
  have subset : numbersOf body.members ⊆ body.numbers :=
    ((allOf_members_sublist.trans allOf_parts_sublist).map _).subset
  rw [split]
  refine .via (fun _ after => ∃ node data below,
    Opens root base body.numbers [] node data below before after ∧ data.kind = .class ∧
      data.role = .plain ∧ (Unmixed root base after.declared → after.tree.Bound after.table node))
    (introduces_anonymous unit inRoot isPart isTypeBody noType sound.readable sound.consistent isType
      (fun _ => sound.separated.inTable) ?_) ?_
  · intro type linked introduces isNew isClass sameTypes notListed notDeclared listed
    have linkedSound := sound.introduces introduces sameTypes
    have linkedRoom : covers (linked.tree.span linked.builder.current) body.span := by
      rcases introduces.state with ⟨_, _, _, rfl⟩
      exact room
    -- The class is newer than every node.
    have unbound : ∀ node, linked.tree.binding node ≠ some type := by
      rcases introduces.state with ⟨_, _, _, rfl⟩
      exact fun node isBinding => sound.not_mentions isNew node (.inl isBinding)
    have opens : Opens root base body.numbers [type] _ _ [] linked
      (declaring linked .class body .plain type) :=
        opens_declaring body.numbers linkedSound.toSteady linkedRoom rfl isClass
          (.anonymous notDeclared notListed unbound) linkedSound.awaits
    have entered : Sound root base (entering _ { binding := type }) ∧ _ := opens.enter rfl rfl isClass
    refine ensures_startType (Ensures.inScope ?_)
    refine (advances_lowerMembers unit handles bodyInRoot low isTypeBody entered.1
      (opens.room (covers_refl _)) entered.2).imp ?_
    rintro _ after ⟨news, advances, lists⟩
    have left := advances.leave
    have allDue : ∀ other, ([] ++ typesOf linked.declared body.members).count other ≤
        ([type] ++ body.members.flatMap (due linked.declared)).count other := by
      intro other
      rw [flatMap_due introduces.allDeclared, List.nil_append, List.count_append]
      exact Nat.le_add_left _ _
    have built := (opens.inner (left.imp subset fun _ => Nat.le_refl _)).imp
      (List.Subset.refl _) allDue
    refine ⟨_, _, _, built.afterIntroduces sound introduces subset, rfl, rfl, fun unmixed => ?_⟩
    have keeps := left.keeps unmixed
    have isOpen : after.tree.kind ⟨linked.tree.size⟩ = .class := congrArg NodeData.kind built.isData
    refine .of_members ?_ (congrArg NodeData.binding built.isData) (left.grows.holds isClass) ?_
    · rw [isOpen]
      rfl
    · refine Tree.Bound.listsMembers .refl keeps linkedSound.consistent.typed isClass ?_
      exact built.listsMembers lists (listed (left.of_append unmixed)) nofun
  · rintro _ after ⟨node, data, below, opens, isKind, isRole, bound⟩
    refine (makes_finish opens bound).imp ?_
    rintro _ later ⟨-, makes⟩
    exact ⟨node, data, below, makes, isKind, isRole⟩

/-! ## Declared types -/

/-- A parameter list becomes a node, if there is one. -/
theorem lined_lowerParameterList {lowerOne : Phrase → Lower Unit} {asComponent : Prop}
    (inRoot : phrase ∈ root.all) (sound : Sound root base before)
    (room : covers (before.tree.span before.builder.current) phrase.span)
    (one : ∀ parameter ∈ root.all, parameter.height ≤ phrase.height → ∀ middle,
      Sound root base middle → covers (middle.tree.span middle.builder.current) parameter.span →
        Ensures (lowerOne parameter) middle fun _ after => ∃ news,
          Advances root base parameter.numbers [] news middle after ∧
            NamesAll asComponent middle.declared [parameter] (news.map after.tree.data)) :
    Ensures (lowerParameterList lowerOne (phrase.part? .parameters)) before fun _ after => ∃ news,
      Advances root base (numbersOf (phrase.part? .parameters).toList) [] news before after ∧
        Lined asComponent before.declared (phrase.part? .parameters) after.tree
          (news.map after.tree.data) := by
  cases found : phrase.part? .parameters with
  | none => exact .pure ⟨[], .refl sound, rfl⟩
  | some list =>
      have isPart := mem_parts_of_slot found
      have listInRoot := mem_all_trans inRoot (mem_all_of_part isPart)
      refine (makes_lowerParameterList unit listInRoot sound
        (covers_trans room (unit.nested phrase inRoot list isPart)) fun parameter isNamed =>
          one parameter ?_ ?_).imp ?_
      · exact mem_all_trans listInRoot (mem_all_of_part (mem_parts_of_named isNamed))
      · exact Nat.le_of_lt (Nat.lt_trans (height_lt_of_part (mem_parts_of_named isNamed))
          (height_lt_of_part isPart))
      · rintro _ after ⟨node, data, views, makes, isKind, isRole, names⟩
        refine ⟨[node], makes.toProgress.imp (by simp) fun _ => Nat.le_refl _,
          after.tree.data node, rfl, ?_⟩
        rw [makes.isData, makes.isBelow]
        exact ⟨isKind, isRole, names⟩

include handles

/-- The components and members of a type are lowered where its class is in scope. -/
theorem lays_lowerDeclaration (inRoot : phrase ∈ root.all) (low : phrase.height ≤ depth + 1)
    (isType : phrase.declaresType) (sound : Sound root base before)
    (room : covers (before.tree.span before.builder.current) phrase.span) (homed : before.Homed) :
    Ensures (do
      lowerParameterList (lowerComponent source step) (phrase.part? .parameters)
      (phrase.part? .body).forM (lowerMembers step)) before fun _ after => ∃ news lists views,
        Advances root base phrase.numbers (phrase.bodyMembers.flatMap (due before.declared)) news
          before after ∧ news.map after.tree.data = lists ++ views ∧
        Lays before.declared phrase after.tree [] lists views := by
  refine (lined_lowerParameterList unit inRoot sound room fun parameter isParameter isLow
    middle sound room => names_lowerComponent unit handles isParameter (Nat.le_trans isLow low) sound
      room).bind ?_
  rintro _ middle ⟨listed, first, lined⟩
  have fromList : numbersOf (phrase.part? .parameters).toList ⊆ phrase.numbers :=
    fun _ => numbersOf_subset fun list isList =>
      mem_all_of_part (mem_parts_of_slot (Option.mem_toList.1 isList))
  cases found : phrase.part? .body with
  | none =>
      have noMembers : phrase.bodyMembers = [] := by simp [bodyMembers, found]
      refine .pure ⟨listed, listed.map middle.tree.data, [], ?_, (List.append_nil _).symm, by simp,
        lined, ?_⟩
      · rw [noMembers]
        exact first.imp fromList fun _ => Nat.le_refl _
      · rw [noMembers]
        exact ⟨by simp, .nil⟩
  | some body =>
      have isPart := mem_parts_of_slot found
      have isMembers : phrase.bodyMembers = body.members := by simp [bodyMembers, found]
      have same : ∀ member ∈ body.members, SameBelow before.declared middle.declared member := by
        intro member isMember number isNumber
        refine first.lookup_eq fun inList => ?_
        rcases List.mem_map.1 inList with ⟨inner, inside, rfl⟩
        rcases mem_allOf.1 inside with ⟨list, isList, inside⟩
        have isList := Option.mem_toList.1 isList
        obtain rfl := eq_of_number (numbered_parts (numbered_of_mem unit.numbered inRoot)) isPart
          (mem_parts_of_slot isList) (numbers_subset (mem_all_of_member isMember) isNumber)
          (mem_numbers inside)
        cases (slot_of_part found).symm.trans (slot_of_part isList)
      refine (advances_lowerMembers unit handles (mem_all_trans inRoot (mem_all_of_part isPart))
        (Nat.le_trans (Nat.le_of_lt (height_lt_of_part isPart)) low)
        ((unit.shaped phrase inRoot).body (.inl isType) body found) first.sound
        (first.room sound (covers_trans room (unit.nested phrase inRoot body isPart)))
        (first.homed sound.toSteady (by simp) homed)).imp ?_
      rintro _ after ⟨more, second, lists⟩
      have inBody : numbersOf body.members ⊆ phrase.numbers :=
        fun _ => numbersOf_subset fun member isMember =>
          mem_all_trans (mem_all_of_part isPart) (mem_all_of_member isMember)
      rw [due_flatMap_congr same] at second
      refine ⟨listed ++ more, _, _, ?_, List.map_append, by simp,
        lined.afterwards sound first second, ?_⟩
      · rw [isMembers]
        exact (first.imp fromList fun _ => Nat.le_refl _).andThen
          (second.imp inBody fun _ => Nat.le_refl _)
      · rw [isMembers]
        exact lists.congr (fun member isMember => unit.shaped member (mem_all_trans inRoot
          (mem_all_trans (mem_all_of_part isPart) (mem_all_of_member isMember))))
          fun member isMember number isNumber => (same member isMember number isNumber).symm

/-- A declared type becomes a node that lists its members, and so do the types in it. -/
theorem makes_declaredType (inRoot : phrase ∈ root.all) (low : phrase.height ≤ depth + 1)
    (isKind : phrase.construct.typeKind? = some kind) (steady : Steady root base before)
    (awaited : before.Awaits type)
    (room : covers (before.tree.span before.builder.current) phrase.span)
    (found : before.declared.lookup phrase.number = some type)
    (allDeclared : AllDeclared before.declared phrase.types) :
    Ensures (do
      let node ← start (declarationKind kind) phrase role
      setBinding node type
      setTypeBinding node type
      (phrase.part? .name).forM (setName source node)
      lowerModifiers source step node phrase
      let typeParameters := typeParameterNames source phrase
      inClass { binding := type, typeParameters } do
        inScope do
          lowerParameterList (lowerComponent source step) (phrase.part? .parameters)
          (phrase.part? .body).forM (lowerMembers step)
      finish
      return node) before fun node after => ∃ data views,
        Makes root base phrase.numbers (typesOf before.declared [phrase]) node data views
          before after ∧ data.kind = declarationKind kind ∧ data.role = role ∧
          data.binding = some type := by
  have isType : phrase.declaresType := by rw [declaresType, isKind]; rfl
  have holds := steady.consistent.fit.isType inRoot isType found
  have isDeclaration : (declarationKind kind).isTypeDeclaration := by cases kind <;> rfl
  refine ensures_startType ?_
  have opens : Opens root base phrase.numbers [type] _ _ [] before
    (declaring before (declarationKind kind) phrase role type) :=
      opens_declaring phrase.numbers steady room isDeclaration holds
        (.named phrase inRoot isType (Declared.mem_of_lookup found) rfl) awaited
  refine .via (fun _ after => ∃ builder data, after = { before with builder } ∧
    Opens root base phrase.numbers [type] ⟨before.tree.size⟩ data [] before after ∧
      data.kind = declarationKind kind ∧ data.role = role ∧ data.span = phrase.span ∧
      data.binding = some type)
    (.optionForM (fun name isName => ?_) fun _ => ⟨_, _, rfl, opens, rfl, rfl, rfl, rfl⟩) ?_
  · refine (completes_setName opens (.inl List.mem_cons_self)
      (unit.nested phrase inRoot name (mem_parts_of_slot isName)) (source.textOf name)).imp ?_
    rintro _ _ ⟨⟨builder, rfl⟩, opens⟩
    exact ⟨builder, _, rfl, opens, rfl, rfl, rfl, rfl⟩
  rintro _ _ ⟨builder, data, rfl, opens, isNodeKind, isRole, isSpan, isBinding⟩
  refine (opens_lowerModifiers unit handles inRoot low opens (isSpan ▸ covers_refl _)
    annotations_subset).bind ?_
  rintro _ modified ⟨_, modifiers, uses, useViews, annotated, opens, plain⟩
  rw [List.nil_append] at opens
  -- Only the annotations have been lowered since the type was introduced.
  have sameLookup : ∀ number ∉ numbersOf phrase.annotations,
      modified.declared.lookup number = before.declared.lookup number :=
    fun number => annotated.lookup_eq
  have entered : Sound root base (entering _ ⟨type, typeParameterNames source phrase⟩) ∧ _ :=
    opens.enter (isNodeKind ▸ isDeclaration) isBinding (annotated.grows.holds holds)
  have sameMembers : ∀ member ∈ phrase.bodyMembers,
      SameBelow before.declared modified.declared member := by
    intro member isMember number isNumber
    rcases mem_bodyMembers.1 isMember with ⟨body, isBody, inBody⟩
    have isTypeBody := (unit.shaped phrase inRoot).body (.inl isType) body isBody
    refine sameLookup number (number_not_mem_annotations (numbered_of_mem unit.numbered inRoot)
      (mem_parts_of_slot isBody) (fun is => ?_) (numbers_subset (mem_all_of_member inBody) isNumber))
    rw [is] at isTypeBody
    cases isTypeBody
  have isDue : [type] ++ phrase.bodyMembers.flatMap (due modified.declared) =
      typesOf before.declared [phrase] := by
    have allMembers : AllDeclared before.declared (phrase.bodyMembers.flatMap types) := by
      intro inner isInner
      refine allDeclared inner ?_
      rw [types_eq_cons isType]
      exact List.mem_cons_of_mem _ isInner
    rw [due_flatMap_congr sameMembers, flatMap_due allMembers, typesOf, typesOf,
      List.flatMap_singleton, types_eq_cons isType, List.filterMap_cons, found]
    rfl
  refine .via (fun _ after => ∃ data views,
    Opens root base phrase.numbers (typesOf before.declared [phrase]) ⟨before.tree.size⟩ data views
      before after ∧ data.kind = declarationKind kind ∧ data.role = role ∧
      data.binding = some type ∧
      (Unmixed root base after.declared → after.tree.Bound after.table ⟨before.tree.size⟩))
    (.inClass (.inScope ?_)) ?_
  · refine (lays_lowerDeclaration unit handles inRoot low isType entered.1
      (opens.room (isSpan ▸ covers_refl _)) entered.2).imp ?_
    rintro _ after ⟨news, lists, views, advances, split, lays⟩
    replace split : news.map after.leaving.tree.data = lists ++ views := split
    have left := advances.leave
    have built := opens.inner left
    rw [split, ← List.append_assoc, isDue] at built
    refine ⟨_, _, built, isNodeKind, isRole, isBinding, fun unmixed => ?_⟩
    have filled := steady.consistent.filled (built.of_append unmixed) phrase inRoot isType
    have laid : Lays before.declared phrase after.leaving.tree useViews lists views := by
      refine ⟨plain, lays.lists.congr fun list isList parameter isNamed hasName => ?_,
        lays.members.congr (fun member isMember => unit.shaped member (mem_all_trans inRoot
          (mem_all_of_bodyMember isMember)))
          fun member isMember number isNumber => (sameMembers member isMember number isNumber).symm⟩
      exact (sameLookup _ (parameter_not_mem_annotations (numbered_of_mem unit.numbered inRoot)
        (mem_parts_of_slot isList) (mem_parts_of_named isNamed) hasName)).symm
    have nodeKind : after.leaving.tree.kind ⟨before.tree.size⟩ = declarationKind kind :=
      (congrArg NodeData.kind built.isData).trans isNodeKind
    refine .of_members (nodeKind ▸ isDeclaration)
      ((congrArg NodeData.binding built.isData).trans isBinding) (built.grows.holds holds) ?_
    exact Tree.Bound.listsMembers .refl (built.keeps unmixed) steady.consistent.typed holds
      (laid.listsMembers built filled found (isNodeKind ▸ Construct.isRecord_iff isKind))
  · rintro _ after ⟨data, views, opens, isNodeKind, isRole, isBinding, bound⟩
    refine (makes_finish opens bound).bind ?_
    rintro _ _ ⟨-, makes⟩
    exact .pure ⟨data, views, makes, isNodeKind, isRole, isBinding⟩

/-- The declaration of a type becomes a node, whether the type was declared before or is local. -/
theorem makes_lowerTypeDeclaration (inRoot : phrase ∈ root.all) (low : phrase.height ≤ depth + 1)
    (isKind : phrase.construct.typeKind? = some kind) (sound : Sound root base before)
    (room : covers (before.tree.span before.builder.current) phrase.span) :
    Ensures (lowerTypeDeclaration source step phrase kind role) before fun node after =>
      ∃ data views, Makes root base phrase.numbers (due before.declared phrase) node data views
        before after ∧ data.kind = declarationKind kind ∧ data.role = role ∧
        ∀ type, before.declared.lookup phrase.number = some type → data.binding = some type := by
  have isType : phrase.declaresType := by rw [declaresType, isKind]; rfl
  unfold lowerTypeDeclaration
  refine .step ?_
  rw [show (declared? phrase before).1 = before.declared.lookup phrase.number from rfl]
  unfold due
  cases found : before.declared.lookup phrase.number with
  | some type =>
      refine .step ?_
      refine (makes_declaredType unit handles inRoot low isKind sound.toSteady sound.awaits room found
        (sound.consistent.nested phrase inRoot isType (by rw [found]; rfl))).imp ?_
      rintro node after ⟨data, views, makes, isNodeKind, isRole, isBinding⟩
      refine ⟨data, views, makes, isNodeKind, isRole, ?_⟩
      rintro _ ⟨⟩
      exact isBinding
  | none =>
      refine (introduces_declareLocalType unit inRoot isType sound.readable sound.consistent found
        kind).bind ?_
      rintro type linked ⟨introduces, isDeclared, name, isNew, isLocal⟩
      have linkedRoom : covers (linked.tree.span linked.builder.current) phrase.span := by
        rcases introduces.state with ⟨_, _, _, rfl⟩
        exact room
      have awaited : linked.Awaits type := by
        rw [Awaits, isLocal]
        rcases introduces.state with ⟨_, _, _, rfl⟩
        exact List.forall_mem_cons.2 ⟨.inr ⟨rfl, sound.not_mentions isNew⟩, sound.awaits⟩
      refine (makes_declaredType unit handles inRoot low isKind (sound.toSteady.introduces introduces)
        awaited linkedRoom isDeclared (by simpa using introduces.allDeclared)).imp ?_
      rintro node after ⟨data, views, makes, isNodeKind, isRole, -⟩
      exact ⟨data, views, makes.afterIntroduces sound introduces (by simp), isNodeKind, isRole,
        fun _ isFound => by cases isFound⟩

end

end Lower

end JavaInspect.Java
