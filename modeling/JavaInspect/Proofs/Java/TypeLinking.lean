import JavaInspect.Proofs.Java.Linking

/-!
# Linking a type

A type is linked by giving it its supertypes, annotations and components, then the members of
its body, and at last, if it is a record that lacks one, the constructor for its components.
-/

namespace JavaInspect.Java

open Phrase

variable {root declaration phrase : Phrase} {base : Nat} {type : BindingId}
  {before opened linked after : Lowering} {source : Source} {componentTypes : List BindingId}

/-- The end of linking a record: a constructor for its components is added unless there is one
that accepts as many arguments. -/
def Completed (declaration : Phrase) (type : BindingId) (componentTypes : List BindingId)
    (before after : Lowering) : Prop :=
  if declaration.construct = .recordDeclaration then
    (after = before ∧ ∃ member ∈ (before.table.entry type).members,
      (before.table.entry member).isConstructor ∧
        (before.table.entry member).accepts componentTypes.length) ∨
    ((∀ member ∈ (before.table.entry type).members, (before.table.entry member).isConstructor →
        ¬ (before.table.entry member).accepts componentTypes.length) ∧
      ∃ constructor table, after = { before with table } ∧ table.types = before.table.types ∧
        Table.AddsMember type
          { kind := .method, name := (before.table.entry type).name,
            qualifiedName := (before.table.entry type).name, owner := some type,
            parameters := componentTypes, isConstructor := true } before.table
          (constructor, table))
  else after = before

namespace Completed

theorem declares (completed : Completed declaration type componentTypes before after)
    (typed : before.table.Typed) : Declares [] (· = type) before after := by
  unfold Completed at completed
  split at completed
  case isFalse =>
    obtain rfl := completed
    exact .refl typed
  case isTrue =>
    rcases completed with ⟨rfl, -⟩ | ⟨-, constructor, table, rfl, types, added⟩
    · exact .refl typed
    · exact ⟨⟨_, _, rfl⟩, added.typed, types, added.grows, [], rfl, by simp⟩

theorem declared (completed : Completed declaration type componentTypes before after) :
    after.declared = before.declared := by
  unfold Completed at completed
  split at completed
  case isFalse => rw [completed]
  case isTrue =>
    rcases completed with ⟨rfl, -⟩ | ⟨-, constructor, table, rfl, -⟩ <;> rfl

end Completed

namespace LinksType

/-- What a type lists once the members of its body have been linked. -/
theorem listed (bare : Bare before.table before.declared declaration)
    (found : before.declared.lookup declaration.number = some type)
    (links : LinksMembers root base (some type) declaration.bodyMembers opened linked)
    (unmixed : Unmixed root base opened.declared)
    (aside : Aside opened.declared (some type) declaration.bodyMembers)
    (sameTypes : ∀ phrase ∈ declaration.bodyMembers, phrase.declaresType →
      linked.declared.lookup phrase.number = before.declared.lookup phrase.number)
    {fields accessors : List BindingId}
    (added : (opened.table.entry type).members.Perm
      ((before.table.entry type).members ++ (fields ++ accessors))) :
    ((linked.table.entry type).members.map some).Perm
      ((declaration.bodyMembers.flatMap declarations).map
        (fun phrase => linked.declared.lookup phrase.number) ++ (fields ++ accessors).map some) := by
  have types : (before.table.entry type).members.map some =
      (declaration.bodyMembers.filter (·.declaresType)).map
        fun phrase => linked.declared.lookup phrase.number := by
    rw [bare type found]
    refine List.map_congr_left fun phrase isIn => (sameTypes phrase ?_ ?_).symm
    · exact List.mem_of_mem_filter isIn
    · simpa using (List.mem_filter.1 isIn).2
  rw [links.listed unmixed aside type rfl]
  generalize fields ++ accessors = implicit at added ⊢
  refine ((added.map some).append_right _).trans ?_
  refine .trans ?_ (((perm_declarations declaration.bodyMembers).map _).append_right _).symm
  rw [List.map_append, List.map_append, types, List.append_assoc, List.append_assoc]
  exact List.perm_append_comm.append_left _

/-- Of the members of a type, those that are constructors were declared as such. -/
theorem exists_constructor_iff (fit : AllFit root linked.table linked.declared)
    (inRoot : declaration ∈ root.all) (shaped : ∀ inner ∈ declaration.all, inner.Shaped)
    {implicit : List BindingId}
    (noConstructors : ∀ member ∈ implicit, (linked.table.entry member).isConstructor = false)
    (listed : ((linked.table.entry type).members.map some).Perm
      ((declaration.bodyMembers.flatMap declarations).map
        (fun phrase => linked.declared.lookup phrase.number) ++ implicit.map some))
    (accepts : BindingId → Prop) :
    (∃ member ∈ (linked.table.entry type).members,
      (linked.table.entry member).isConstructor ∧ accepts member) ↔
      ∃ constructor ∈ constructorsOf linked.declared declaration, accepts constructor := by
  have inside : ∀ phrase ∈ declaration.bodyMembers.flatMap declarations, phrase ∈ root.all :=
    fun phrase isDeclared => mem_all_trans inRoot
      (mem_all_of_own shaped (List.mem_append_right _ isDeclared))
  constructor
  · rintro ⟨member, isMember, isConstructor, isAccepted⟩
    have isListed := listed.subset (List.mem_map_of_mem isMember)
    rcases List.mem_append.1 isListed with isDeclared | isImplicit
    · rcases List.mem_map.1 isDeclared with ⟨phrase, isDeclared, found⟩
      have fits := fit phrase (inside phrase isDeclared) member found
      refine ⟨member, mem_constructorsOf.2 ⟨phrase, isDeclared, ?_, found⟩, isAccepted⟩
      rw [← fits.isConstructor]
      exact isConstructor
    · rcases List.mem_map.1 isImplicit with ⟨other, isOther, same⟩
      obtain rfl := Option.some.inj same
      rw [noConstructors other isOther] at isConstructor
      cases isConstructor
  · rintro ⟨constructor, isListed, isAccepted⟩
    rcases mem_constructorsOf.1 isListed with ⟨phrase, isDeclared, isOne, found⟩
    have fits := fit phrase (inside phrase isDeclared) constructor found
    have isMember := listed.symm.subset (List.mem_append_left _
      (List.mem_map.2 ⟨phrase, isDeclared, found⟩))
    rcases List.mem_map.1 isMember with ⟨member, inMembers, same⟩
    obtain rfl := Option.some.inj same
    exact ⟨member, inMembers, by rw [fits.isConstructor]; exact isOne, isAccepted⟩

/-- What a record has at the end besides its declared members. -/
theorem completes (fit : AllFit root linked.table linked.declared)
    (inRoot : declaration ∈ root.all) (shaped : ∀ inner ∈ declaration.all, inner.Shaped)
    (isRecord : declaration.construct = .recordDeclaration)
    (typed : linked.table.Typed)
    (completed : Completed declaration type componentTypes linked after)
    {fields accessors : List BindingId}
    (noTypes : ∀ member ∈ fields ++ accessors, (linked.table.entry member).kind ≠ .type)
    (noConstructors : ∀ member ∈ fields ++ accessors,
      (linked.table.entry member).isConstructor = false)
    (areAccessors : List.Forall₂ (linked.table.IsAccessor type) fields accessors)
    (fieldTypes : fields.map (fun field => (linked.table.entry field).declaredType) =
      componentTypes.map some)
    (isType : (linked.table.entry type).kind = .type)
    (listed : ((linked.table.entry type).members.map some).Perm
      ((declaration.bodyMembers.flatMap declarations).map
        (fun phrase => linked.declared.lookup phrase.number) ++ (fields ++ accessors).map some)) :
    ∃ implicit, ((after.table.entry type).members.map some).Perm
      ((declaration.bodyMembers.flatMap declarations).map
        (fun phrase => after.declared.lookup phrase.number) ++ (fields ++ implicit).map some) ∧
      after.table.Completes type fields (constructorsOf after.declared declaration) implicit := by
  have sameCount : componentTypes.length = fields.length := by
    simpa using (congrArg List.length fieldTypes).symm
  have accepting := exists_constructor_iff fit inRoot shaped noConstructors listed
    fun member => (linked.table.entry member).accepts componentTypes.length
  have declares := completed.declares typed
  have sameDeclared := completed.declared
  unfold Completed at completed
  rw [if_pos isRecord] at completed
  rw [sameDeclared]
  rcases completed with ⟨rfl, isAccepted⟩ | ⟨noneAccepts, constructor, table, rfl, -, added⟩
  · refine ⟨accessors, listed, accessors, [], by simp, areAccessors, .inl ⟨rfl, ?_⟩⟩
    rw [← sameCount]
    exact accepting.1 isAccepted
  · -- Only the entry of the record itself has changed, and it lists one more member.
    have same : ∀ member, (linked.table.entry member).kind ≠ .type →
        table.entry member = linked.table.entry member := by
      intro member noType
      refine declares.entry_eq ?_ ?_
      · by_contra outside
        rw [Table.entry_of_outside outside] at noType
        exact noType rfl
      · rintro rfl
        exact noType isType
    have sameFields : ∀ field ∈ fields, table.entry field = linked.table.entry field :=
      fun field isField => same field (noTypes field (List.mem_append_left _ isField))
    have sameConstructors : ∀ constructor ∈ constructorsOf linked.declared declaration,
        table.entry constructor = linked.table.entry constructor := by
      intro constructor isConstructor
      rcases mem_constructorsOf.1 isConstructor with ⟨phrase, isDeclared, isOne, found⟩
      have inside := mem_all_of_own shaped (List.mem_append_right _ isDeclared)
      have kind := (fit phrase (mem_all_trans inRoot inside) constructor found).kind
      rw [Construct.declares?_of_isConstructor isOne] at kind
      refine same constructor ?_
      rw [← Option.some.inj kind]
      nofun
    have ownerEntry : table.entry type = _ := added.ownerEntry
    refine ⟨accessors ++ [constructor], ?_, accessors, [constructor], rfl, ?_, .inr ⟨?_, ?_⟩⟩
    · change ((table.entry type).members.map some).Perm _
      rw [ownerEntry, List.map_append]
      refine (listed.append_right _).trans (List.Perm.of_eq ?_)
      simp
    · rw [List.forall₂_iff_zip] at areAccessors ⊢
      refine ⟨areAccessors.1, fun {field accessor} isPair => ?_⟩
      have inLists := List.of_mem_zip isPair
      exact (areAccessors.2 isPair).congr (sameFields field inLists.1)
        (same accessor (noTypes accessor (List.mem_append_right _ inLists.2)))
    · refine ⟨constructor, rfl, componentTypes, ?_, ?_⟩
      · rw [← fieldTypes]
        exact (List.map_congr_left fun field isField => by
          exact congrArg Entry.declaredType (sameFields field isField)).symm
      · have newEntry : table.entry constructor = _ := added.entry
        change table.entry constructor = _
        rw [newEntry, ownerEntry]
    · intro other isListed isAccepted
      change (table.entry other).accepts fields.length at isAccepted
      rw [sameConstructors other isListed, ← sameCount] at isAccepted
      rcases accepting.2 ⟨other, isListed, isAccepted⟩ with ⟨member, isMember, isOne, accepts⟩
      exact noneAccepts member isMember isOne accepts

/-- The components of a record do not stand in its body. -/
theorem number_ne_of_component (unit : root.Grammatical) (inRoot : declaration ∈ root.all)
    {inner : Phrase} (isComponent : phrase ∈ declaration.components)
    (inside : inner ∈ allOf declaration.bodyMembers) : phrase.number ≠ inner.number := by
  intro same
  rcases mem_components isComponent with ⟨-, -, list, isList, inList⟩
  rcases mem_allOf.1 inside with ⟨member, isMember, inMember⟩
  rcases mem_bodyMembers.1 isMember with ⟨body, isBody, isMember⟩
  have inBody := mem_all_trans (mem_all_of_member isMember) inMember
  obtain rfl := eq_of_number (numbered_parts (numbered_of_mem unit.numbered inRoot))
    (mem_parts_of_slot isList) (mem_parts_of_slot isBody)
    (mem_numbers (mem_all_of_part inList)) (same ▸ mem_numbers inBody)
  have isParameters := slot_of_part isList
  rw [slot_of_part isBody] at isParameters
  cases isParameters

theorem assemble (unit : root.Grammatical) (inRoot : declaration ∈ root.all)
    (isType : declaration.declaresType) (fit : AllFit root before.table before.declared)
    (found : before.declared.lookup declaration.number = some type)
    (adds : AddsComponents type declaration.components componentTypes before opened)
    (links : LinksMembers root base (some type) declaration.bodyMembers opened linked)
    (completed : Completed declaration type componentTypes linked after) :
    LinksType root base declaration before after := by
  have shaped : ∀ inner ∈ declaration.all, inner.Shaped :=
    fun inner inside => unit.shaped inner (mem_all_trans inRoot inside)
  have membersInRoot : ∀ member ∈ declaration.bodyMembers, member ∈ root.all :=
    fun member isMember => mem_all_trans inRoot (mem_all_of_bodyMember isMember)
  have listedTypes := types_eq_cons isType
  have holds := fit.isType inRoot isType found
  have componentsInRoot : ∀ phrase ∈ declaration.components, phrase ∈ root.all :=
    fun phrase isComponent => mem_all_trans inRoot (mem_all_of_component isComponent)
  have componentsNoTypes : ∀ phrase ∈ declaration.components, ¬ phrase.declaresType := by
    intro phrase isComponent
    exact not_declaresType_of_ownValue shaped (List.mem_append_left _ isComponent)
  have linkedInRoot : ∀ phrase ∈ declaration.bodyMembers.flatMap Phrase.linked, phrase ∈ root.all :=
    fun phrase isLinked => mem_all_of_mem_allOf membersInRoot
      (mem_allOf_of_linked unit membersInRoot isLinked).1
  have linkedNoTypes : ∀ phrase ∈ declaration.bodyMembers.flatMap Phrase.linked,
      ¬ phrase.declaresType :=
    fun phrase isLinked => (mem_allOf_of_linked unit membersInRoot isLinked).2
  have typesInRoot : ∀ phrase ∈ declaration.types, phrase ∈ root.all :=
    fun phrase isIn => mem_all_trans inRoot (mem_all_of_mem_types isIn)
  have sameOpened : ∀ {phrase : Phrase}, phrase ∈ root.all → phrase.declaresType →
      opened.declared.lookup phrase.number = before.declared.lookup phrase.number :=
    adds.lookup_type unit.numbered componentsInRoot componentsNoTypes
  have sameLinked : ∀ {phrase : Phrase}, phrase ∈ root.all → phrase.declaresType →
      linked.declared.lookup phrase.number = before.declared.lookup phrase.number :=
    fun phraseInRoot isType => (links.declares.lookup_type unit.numbered linkedInRoot linkedNoTypes
      phraseInRoot isType).trans (sameOpened phraseInRoot isType)
  have openedFit := adds.allFit unit.numbered componentsInRoot fit
  have linkedFit := links.declares.allFit unit.numbered linkedInRoot openedFit
  have ends := completed.declares links.declares.typed
  have openedHolds := adds.grows.holds holds
  have linkedHolds := links.declares.grows.holds openedHolds
  have nestedIn : ∀ {phrase : Phrase}, phrase ∈ declaration.bodyMembers.flatMap types →
      phrase ∈ declaration.types :=
    fun isIn => listedTypes ▸ List.mem_cons_of_mem _ isIn
  have selfChanges : ∃ phrase ∈ declaration.types,
      before.declared.lookup phrase.number = some type :=
    ⟨declaration, mem_types_self isType, found⟩
  constructor
  case declares =>
    have first : Declares declaration.components (fun binding => ∃ phrase ∈ declaration.types,
        before.declared.lookup phrase.number = some binding) before opened :=
      adds.toDeclares.imp (List.Subset.refl _) fun binding _ same => same ▸ selfChanges
    refine ((first.andThen links.declares ?_).andThen ends fun binding _ same => same ▸ selfChanges).imp
      ?_ fun _ _ => id
    · rintro binding - (same | ⟨phrase, isIn, isFound⟩)
      · exact same ▸ selfChanges
      · exact ⟨phrase, nestedIn isIn,
          sameOpened (typesInRoot phrase (nestedIn isIn)) (declaresType_of_flatMap isIn) ▸ isFound⟩
    · rw [List.append_nil]
      intro phrase isDeclared
      rw [listedTypes, List.flatMap_cons, ownValues, List.append_assoc]
      rcases List.mem_append.1 isDeclared with isComponent | isLinked
      · exact List.mem_append_left _ isComponent
      · refine List.mem_append_right _ ?_
        rcases List.mem_flatMap.1 isLinked with ⟨member, isMember, isLinked⟩
        rcases List.mem_append.1 isLinked with isValue | inTypes
        · exact List.mem_append_left _ (List.mem_flatMap.2 ⟨member, isMember, isValue⟩)
        · refine List.mem_append_right _ ?_
          rcases List.mem_flatMap.1 inTypes with ⟨nested, isNested, isValue⟩
          exact List.mem_flatMap.2
            ⟨nested, List.mem_flatMap.2 ⟨member, isMember, isNested⟩, isValue⟩
  case filled =>
    intro unmixed bare
    have openedUnmixed : Unmixed root base opened.declared :=
      (adds.unmixed_iff unit.numbered componentsInRoot componentsNoTypes).2 unmixed
    -- The type itself shares its binding with none of those in its body.
    have notShared : ∀ phrase ∈ declaration.bodyMembers.flatMap types,
        before.declared.lookup phrase.number ≠ some type := by
      intro phrase isIn isFound
      have same := unmixed.type_unique unit.numbered (typesInRoot phrase (nestedIn isIn))
        (declaresType_of_flatMap isIn) inRoot isType isFound found
      rcases List.mem_flatMap.1 isIn with ⟨member, isMember, inMember⟩
      have low := height_le_of_mem_all (mem_all_of_mem_types inMember)
      exact Nat.not_lt.2 (same ▸ low) (height_lt_of_bodyMember isMember)
    have aside : Aside opened.declared (some type) declaration.bodyMembers := by
      rintro phrase isIn _ isFound ⟨⟩
      rw [sameOpened (typesInRoot phrase (nestedIn isIn)) (declaresType_of_flatMap isIn)] at isFound
      exact notShared phrase isIn isFound
    have openedBare : ∀ phrase ∈ declaration.bodyMembers.flatMap types,
        Bare opened.table opened.declared phrase := by
      intro phrase isIn
      refine adds.toDeclares.bare ?_ ?_ (bare phrase (nestedIn isIn))
      · intro inner isOwn isNumber
        rcases List.mem_map.1 isNumber with ⟨component, isComponent, same⟩
        exact number_ne_of_component unit inRoot isComponent
          (mem_allOf_of_own unit membersInRoot isIn isOwn) same
      · intro other isFound
        refine ⟨(fit phrase (typesInRoot phrase (nestedIn isIn)) other isFound).inTable, ?_⟩
        rintro rfl
        exact notShared phrase isIn isFound
    intro phrase isIn
    rw [listedTypes, List.mem_cons] at isIn
    rcases isIn with rfl | isNested
    case inl =>
      intro other isOther
      rw [completed.declared, sameLinked inRoot isType, found] at isOther
      obtain rfl := Option.some.inj isOther
      rcases adds.added with ⟨fields, accessors, added, areFields, areAccessors, fieldTypes, -⟩
      have fieldKind : ∀ field ∈ fields, (opened.table.entry field).kind = .variable ∧
          (opened.table.entry field).isConstructor = false := by
        intro field isField
        have isDeclared : some field ∈ phrase.components.map
            fun component => opened.declared.lookup component.number :=
          areFields ▸ List.mem_map_of_mem isField
        rcases List.mem_map.1 isDeclared with ⟨component, isComponent, isFieldOf⟩
        have fits := openedFit component (componentsInRoot component isComponent) field isFieldOf
        rcases mem_components isComponent with ⟨-, hasName, -⟩
        rcases declares_of_parameterName hasName with ⟨kind, noConstructor⟩
        have sameKind := fits.kind
        rw [kind] at sameKind
        exact ⟨(Option.some.inj sameKind).symm, by rw [fits.isConstructor, noConstructor]⟩
      have accessorKind : ∀ accessor ∈ accessors, (opened.table.entry accessor).kind = .method ∧
          (opened.table.entry accessor).isConstructor = false := by
        intro accessor isAccessor
        rcases Table.exists_field areAccessors isAccessor with ⟨field, -, isEntry⟩
        rw [isEntry]
        exact ⟨rfl, rfl⟩
      have valueKind : ∀ member ∈ fields ++ accessors,
          (opened.table.entry member).kind ≠ .type ∧
            (opened.table.entry member).isConstructor = false := by
        intro member isMember
        rcases List.mem_append.1 isMember with isField | isAccessor
        · exact ⟨by rw [(fieldKind member isField).1]; nofun, (fieldKind member isField).2⟩
        · exact ⟨by rw [(accessorKind member isAccessor).1]; nofun, (accessorKind member isAccessor).2⟩
      have same : ∀ member ∈ fields ++ accessors,
          linked.table.entry member = opened.table.entry member := by
        intro member isMember
        refine links.declares.entry_eq ?_ ?_
        · by_contra outside
          have kind := (valueKind member isMember).1
          rw [Table.entry_of_outside outside] at kind
          exact kind rfl
        · rintro (same | ⟨nested, isNested, isFound⟩)
          · exact (valueKind _ isMember).1 (Option.some.inj same ▸ openedHolds.2)
          · exact (valueKind _ isMember).1 (openedFit.isType
              (typesInRoot nested (nestedIn isNested)) (declaresType_of_flatMap isNested) isFound).2
      have listed := LinksType.listed (bare phrase (mem_types_self isType)) found links openedUnmixed
        aside (fun member isMember isType => sameLinked (membersInRoot member isMember) isType) added
      have linkedAccessors : List.Forall₂ (linked.table.IsAccessor type) fields accessors := by
        rw [List.forall₂_iff_zip] at areAccessors ⊢
        refine ⟨areAccessors.1, fun {field accessor} isPair => ?_⟩
        have inLists := List.of_mem_zip isPair
        exact (areAccessors.2 isPair).congr (same field (List.mem_append_left _ inLists.1))
          (same accessor (List.mem_append_right _ inLists.2))
      have linkedTypes : fields.map (fun field => (linked.table.entry field).declaredType) =
          componentTypes.map some := by
        rw [← fieldTypes]
        exact List.map_congr_left fun field isField => by
          rw [same field (List.mem_append_left _ isField)]
      have linkedFields : phrase.components.map
          (fun component => after.declared.lookup component.number) = fields.map some := by
        rw [← areFields, completed.declared]
        refine List.map_congr_left fun component isComponent => links.declares.lookup_eq fun isNumber => ?_
        rcases List.mem_map.1 isNumber with ⟨other, isOther, sameNumber⟩
        exact number_ne_of_component unit inRoot isComponent
          (mem_allOf_of_linked unit membersInRoot isOther).1 sameNumber.symm
      by_cases isRecord : phrase.construct = .recordDeclaration
      case pos =>
        rcases completes linkedFit inRoot shaped isRecord links.declares.typed completed
          (fun member isMember => by rw [same member isMember]; exact (valueKind member isMember).1)
          (fun member isMember => by rw [same member isMember]; exact (valueKind member isMember).2)
          linkedAccessors linkedTypes linkedHolds.2 listed with ⟨implicit, listed, completes⟩
        exact ⟨fields, implicit, linkedFields, listed, by rw [if_pos isRecord]; exact completes⟩
      case neg =>
        have noFields : fields = [] := by
          have noComponents : phrase.components = [] := by simp [components, isRecord]
          rw [noComponents] at areFields
          simpa using areFields.symm
        have noAccessors : accessors = [] := by
          rw [noFields] at areAccessors
          exact List.forall₂_nil_left_iff.1 areAccessors
        obtain rfl : after = linked := by simpa [Completed, isRecord] using completed
        refine ⟨fields, [], linkedFields, ?_, by rw [if_neg isRecord]⟩
        simpa [noAccessors] using listed
    case inr =>
      refine ends.filled linkedFit (typesInRoot phrase (nestedIn isNested))
        (fun inner inside => unit.shaped inner
          (mem_all_trans (typesInRoot phrase (nestedIn isNested)) inside)) ?_ (by simp) ?_
        (links.filled openedUnmixed aside openedBare phrase isNested)
      · rintro binding rfl
        exact linkedHolds.2
      · intro other isFound
        have phraseInRoot := typesInRoot phrase (nestedIn isNested)
        refine ⟨(linkedFit phrase phraseInRoot other isFound).inTable, ?_⟩
        rintro rfl
        rw [sameLinked phraseInRoot (declaresType_of_flatMap isNested)] at isFound
        exact notShared phrase isNested isFound

/-- What is linked with a class in scope. -/
theorem dropClass {scope : ClassScope} (links : LinksType root base declaration
    { before with classes := scope :: before.classes } after) :
    LinksType root base declaration before { after with classes := after.classes.tail } where
  declares := {
    state := by
      rcases links.declares.state with ⟨_, _, rfl⟩
      exact ⟨_, _, rfl⟩
    typed := links.declares.typed
    types := links.declares.types
    grows := links.declares.grows
    declared := links.declares.declared }
  filled := links.filled

end LinksType

/-! ## The second pass -/

/-- All of some phrases have been declared. -/
def AllDeclared (declared : Declared) (phrases : List Phrase) : Prop :=
  ∀ phrase ∈ phrases, (declared.lookup phrase.number).isSome

theorem Declares.allDeclared {phrases : List Phrase} {changed : BindingId → Prop}
    (declares : Declares phrases changed before after) {others : List Phrase}
    (all : AllDeclared before.declared others) : AllDeclared after.declared others := by
  intro phrase isOther
  rcases declares.declared with ⟨new, isNew, -⟩
  rw [isNew, List.lookup_append]
  cases new.lookup phrase.number with
  | some binding => rfl
  | none => simpa using all phrase isOther

namespace Lower

theorem linksMembers_linkMembersWith (unit : root.Grammatical) {body : Phrase} {owner : BindingId}
    {linkNested : Phrase → BindingId → Lower Unit} {components : List BindingId}
    (inRoot : ∀ member ∈ body.members, member ∈ root.all)
    (numbered : (numbersOf body.members).Nodup) (readable : before.Readable)
    (fit : AllFit root before.table before.declared) (isType : before.table.Holds .type owner)
    (allDeclared : AllDeclared before.declared (body.members.flatMap types))
    (nested : ∀ member ∈ body.members, member.declaresType → ∀ type (state : Lowering),
      state.Readable → AllFit root state.table state.declared →
        AllDeclared state.declared member.types →
          state.declared.lookup member.number = some type →
            Ensures (linkNested member type) state fun _ => LinksType root base member state) :
    Ensures (linkMembersWith source linkNested body owner components) before fun _ =>
      LinksMembers root base (some owner) body.members before := by
  unfold linkMembersWith
  refine (Ensures.forM (fun rest middle => ∃ done, body.members = done ++ rest ∧
    LinksMembers root base (some owner) done before middle) ?_ ?_).imp ?_
  case refine_1 => exact ⟨[], rfl, .nil readable.typed⟩
  case refine_3 =>
    rintro _ after ⟨done, isAll, links⟩
    rw [List.append_nil] at isAll
    exact isAll ▸ links
  case refine_2 =>
    rintro member rest middle ⟨done, split, links⟩
    have isMember : member ∈ body.members := by
      rw [split]
      simp
    have memberInRoot := inRoot member isMember
    have doneInRoot : ∀ member ∈ done, member ∈ root.all :=
      fun member isDone => inRoot member (by simp [split, isDone])
    have linkedInRoot : ∀ phrase ∈ done.flatMap linked, phrase ∈ root.all :=
      fun phrase isLinked => mem_all_of_mem_allOf doneInRoot
        (mem_allOf_of_linked unit doneInRoot isLinked).1
    have middleReadable := links.declares.readable readable
    have middleFit := links.declares.allFit unit.numbered linkedInRoot fit
    have stays := links.declares.grows.lt isType.1
    -- It is enough to account for the member at hand.
    suffices single : ∀ {action : Lower Unit},
        (Ensures action middle fun _ => LinksMembers root base (some owner) [member] middle) →
          Ensures action middle fun _ after => ∃ done, body.members = done ++ rest ∧
            LinksMembers root base (some owner) done before after by
      have value : ∀ {action : Lower Unit} {values : List Phrase}, member.values = values →
          ¬ member.declaresType → (Ensures action middle fun _ => Fills owner values middle) →
            Ensures action middle fun _ after => ∃ done, body.members = done ++ rest ∧
              LinksMembers root base (some owner) done before after :=
        fun areValues noType fills => single (fills.imp fun _ _ fills =>
          .value noType (areValues ▸ fills))
      have noType : ∀ {construct : Construct}, member.construct = construct →
          construct.declares? ≠ some .type → ¬ member.declaresType := by
        intro construct is noType isType
        exact noType (is ▸ declaresType_iff.1 isType)
      split
      case h_1 is | h_2 is =>
        exact value (by rw [values, is]) (noType is (by decide))
          (fills_linkFields unit memberInRoot middleReadable stays)
      case h_3 is =>
        exact value (by rw [values, is]) (noType is (by decide))
          (fills_linkMethod unit memberInRoot (.inl is) middleReadable stays)
      case h_4 is =>
        exact value (by rw [values, is]) (noType is (by decide))
          (fills_linkMethod unit memberInRoot (.inr is) middleReadable stays)
      case h_5 is =>
        exact value (by rw [values, is]) (noType is (by decide))
          (fills_linkConstructor is middleReadable stays)
      case h_6 is =>
        exact value (by rw [values, is]) (noType is (by decide))
          (fills_linkCompactConstructor is middleReadable stays components)
      case h_7 is =>
        exact value (by rw [values, is]) (noType is (by decide))
          (fills_linkConstant unit memberInRoot is middleReadable
            (links.declares.grows.holds isType))
      case h_8 notFields notConstants notMethod notElement notConstructor notCompact notEnum =>
        split
        case isTrue memberIsType =>
          have isDeclared := links.declares.allDeclared allDeclared
          obtain ⟨type, found⟩ := Option.isSome_iff_exists.1
            (isDeclared member (List.mem_flatMap.2 ⟨member, isMember, mem_types_self memberIsType⟩))
          refine single (.step ?_)
          rw [show (declared? member middle).1 = some type from found]
          refine (nested member isMember memberIsType type middle middleReadable middleFit
            (fun phrase isIn => isDeclared phrase (List.mem_flatMap.2 ⟨member, isMember, isIn⟩))
            found).imp fun _ after => .type memberIsType fun _ isOwner => Option.some.inj isOwner ▸ stays
        case isFalse noType =>
          have noValues : member.values = [] := by
            unfold values
            split <;> first | contradiction | rfl
          exact value noValues noType (Fills.touches (.refl middleReadable.typed))
    intro action ensures
    refine ensures.imp fun _ after single => ⟨done ++ [member], by simp [split], ?_⟩
    refine links.append unit single ?_ ?_ fit fun _ isOwner => Option.some.inj isOwner ▸ isType
    · intro other isOther
      refine inRoot other ?_
      rw [split]
      simp only [List.mem_append, List.mem_cons] at isOther ⊢
      tauto
    · rw [split] at numbered
      refine List.Nodup.sublist (List.Sublist.map _ (allOf_sublist ?_)) numbered
      simp

/-- The end of linking a type, with the components and members it has by then. -/
theorem completed_findConstructor {componentTypes : List BindingId} (typed : before.table.Typed)
    (inTable : type.index < before.table.size)
    (isRecord : declaration.construct = .recordDeclaration) :
    Ensures (do
      if ((← get).table.findConstructor type componentTypes.length).isNone then
        let _ ← bind (·.declareConstructor type componentTypes)) before fun _ after =>
      Completed declaration type componentTypes before after := by
  refine .get ?_
  simp only [Completed, if_pos isRecord]
  split
  case isTrue isNone =>
    refine .inr ⟨fun member isMember isConstructor accepts => ?_, _, _, rfl, rfl,
      typed.addsMember_declareConstructor _ inTable⟩
    rw [Option.isNone_iff_eq_none, Table.findConstructor, List.find?_eq_none] at isNone
    exact isNone member isMember (by simp [isConstructor, accepts])
  case isFalse isSome =>
    rw [Bool.not_eq_true, Option.isNone_eq_false_iff, Option.isSome_iff_exists] at isSome
    rcases isSome with ⟨constructor, found⟩
    have accepts := List.find?_some found
    rw [Bool.and_eq_true] at accepts
    exact .inl ⟨rfl, constructor, List.mem_of_find?_eq_some found, accepts⟩

theorem linksType_inClass {scope : ClassScope} {action : Lower Unit}
    (inside : Ensures action { before with classes := scope :: before.classes } fun _ =>
      LinksType root base declaration { before with classes := scope :: before.classes }) :
    Ensures (inClass scope action) before fun _ => LinksType root base declaration before :=
  .inClass (inside.imp fun _ _ => .dropClass)

/-- The members of a type are linked after its components, and the constructor of a record comes
last. -/
theorem linksType_ends (unit : root.Grammatical) {linkNested : Phrase → BindingId → Lower Unit}
    (inRoot : declaration ∈ root.all) (isType : declaration.declaresType) (readable : before.Readable)
    (fit : AllFit root before.table before.declared) (holds : before.table.Holds .type type)
    (allDeclared : AllDeclared before.declared declaration.types)
    (found : before.declared.lookup declaration.number = some type)
    (adds : AddsComponents type declaration.components componentTypes before opened)
    (nested : ∀ member ∈ declaration.bodyMembers, member.declaresType → ∀ type (state : Lowering),
      state.Readable → AllFit root state.table state.declared →
        AllDeclared state.declared member.types →
          state.declared.lookup member.number = some type →
            Ensures (linkNested member type) state fun _ => LinksType root base member state) :
    Ensures (do
      if let some body := declaration.part? .body then
        linkMembersWith source linkNested body type componentTypes
      if declaration.construct == .recordDeclaration then
        if ((← get).table.findConstructor type componentTypes.length).isNone then
          let _ ← bind (·.declareConstructor type componentTypes)) opened fun _ =>
      LinksType root base declaration before := by
  have openedReadable := adds.readable readable
  have openedHolds := adds.grows.holds holds
  have componentsInRoot : ∀ phrase ∈ declaration.components, phrase ∈ root.all :=
    fun phrase isComponent => mem_all_trans inRoot (mem_all_of_component isComponent)
  have openedFit := adds.allFit unit.numbered componentsInRoot fit
  have below : ∀ member ∈ declaration.bodyMembers, member ∈ root.all :=
    fun member isMember => mem_all_trans inRoot (mem_all_of_bodyMember isMember)
  have numberedBelow : (numbersOf declaration.bodyMembers).Nodup :=
    (allOf_bodyMembers_sublist.map _).nodup
      (numbered_parts (numbered_of_mem unit.numbered inRoot))
  have declaredBelow : AllDeclared opened.declared (declaration.bodyMembers.flatMap types) := by
    refine fun phrase isIn => adds.allDeclared allDeclared phrase ?_
    rw [types_eq_cons isType]
    exact List.mem_cons_of_mem _ isIn
  -- The last constructor comes after the members, if there is a body at all.
  have ends : ∀ linked, LinksMembers root base (some type) declaration.bodyMembers opened linked →
      Ensures (do
        if declaration.construct == .recordDeclaration then
          if ((← get).table.findConstructor type componentTypes.length).isNone then
            let _ ← bind (·.declareConstructor type componentTypes)) linked fun _ =>
        LinksType root base declaration before := by
    intro linked links
    suffices completes : Ensures _ linked fun _ =>
        Completed declaration type componentTypes linked from
      completes.imp fun _ _ => .assemble unit inRoot isType fit found adds links
    split
    case isTrue isRecord =>
      exact completed_findConstructor links.declares.typed
        (links.declares.grows.lt openedHolds.1) (by simpa using isRecord)
    case isFalse noRecord =>
      refine .pure ?_
      rw [Completed, if_neg (by simpa using noRecord)]
  unfold bodyMembers at below numberedBelow declaredBelow nested ends
  dsimp only
  split
  case h_1 body isBody =>
    rw [isBody] at below numberedBelow declaredBelow nested ends
    exact (linksMembers_linkMembersWith unit below numberedBelow openedReadable openedFit
      openedHolds declaredBelow nested).bind fun _ linked links => ends linked links
  case h_2 noBody =>
    have absent : declaration.part? .body = none := by
      cases found : declaration.part? .body with
      | none => rfl
      | some body => exact (noBody body found).elim
    rw [absent] at ends
    exact ends opened (.nil openedReadable.typed)

theorem linksType_linkType (unit : root.Grammatical) {depth : Nat} (inRoot : declaration ∈ root.all)
    (isType : declaration.declaresType) (deep : declaration.height ≤ depth)
    (readable : before.Readable) (fit : AllFit root before.table before.declared)
    (allDeclared : AllDeclared before.declared declaration.types)
    (found : before.declared.lookup declaration.number = some type) :
    Ensures (linkType source depth declaration type) before fun _ =>
      LinksType root base declaration before := by
  induction depth generalizing declaration before type with
  | zero => exact absurd deep (Nat.not_le.2 height_pos)
  | succ depth ih =>
      have holds := fit.isType inRoot isType found
      have kindOfRecord : (declaration.construct.typeKind?.getD .class == .record) =
          (declaration.construct == .recordDeclaration) := by
        cases declaration.construct <;> rfl
      unfold linkType
      refine linksType_inClass ?_
      generalize isInner : { before with classes := _ :: before.classes } = inner
      have innerReadable : inner.Readable := isInner ▸ ⟨readable.typed, readable.localTypes⟩
      replace fit : AllFit root inner.table inner.declared := isInner ▸ fit
      replace holds : inner.table.Holds .type type := isInner ▸ holds
      replace found : inner.declared.lookup declaration.number = some type := isInner ▸ found
      replace allDeclared : AllDeclared inner.declared declaration.types := isInner ▸ allDeclared
      clear isInner readable
      have inTable := holds.1
      refine (touches_linkSuperclass innerReadable inTable).bind fun _ withClass first => ?_
      refine (touches_linkInterfaces (first.readable innerReadable)
        (first.grows.lt inTable)).bind fun _ withInterfaces second => ?_
      replace second := first.trans second
      refine (touches_linkAnnotations (second.readable innerReadable)
        (second.grows.lt inTable)).bind fun _ headed third => ?_
      replace third := second.trans third
      have headedReadable := third.readable innerReadable
      have headedInTable := third.grows.lt inTable
      have nested : ∀ member ∈ declaration.bodyMembers, member.declaresType →
          ∀ type (state : Lowering), state.Readable → AllFit root state.table state.declared →
            AllDeclared state.declared member.types →
              state.declared.lookup member.number = some type →
                Ensures (linkType source depth member type) state fun _ =>
                  LinksType root base member state :=
        fun member isMember memberIsType type state => ih
          (mem_all_trans inRoot (mem_all_of_bodyMember isMember)) memberIsType
          (Nat.le_of_lt_succ (Nat.lt_of_lt_of_le (height_lt_of_bodyMember isMember) deep))
      dsimp only
      rw [kindOfRecord]
      refine .ite (fun isRecord => ?_) fun noRecord => ?_
      · exact (addsComponents_linkComponents (by simpa using isRecord)
          (numbered_of_mem unit.numbered inRoot) headedReadable headedInTable).bind
            fun componentTypes opened adds => linksType_ends unit inRoot isType innerReadable fit holds
              allDeclared found (adds.afterTouches third) nested
      · have noComponents : declaration.components = [] := by
          rw [components, if_neg (by simpa using noRecord)]
        exact linksType_ends unit inRoot isType innerReadable fit holds allDeclared found
          (AddsComponents.afterTouches third
            (noComponents ▸ .nil headedReadable.typed)) nested

/-- The members of a body, linked with their own heights as depth. -/
theorem linksMembers_linkMembers (unit : root.Grammatical) {body : Phrase} {owner : BindingId}
    {components : List BindingId} (inRoot : ∀ member ∈ body.members, member ∈ root.all)
    (numbered : (numbersOf body.members).Nodup) (readable : before.Readable)
    (fit : AllFit root before.table before.declared) (isType : before.table.Holds .type owner)
    (allDeclared : AllDeclared before.declared (body.members.flatMap types)) :
    Ensures (linkMembers source body owner components) before fun _ =>
      LinksMembers root base (some owner) body.members before := by
  refine linksMembers_linkMembersWith unit inRoot numbered readable fit isType allDeclared ?_
  intro member isMember memberIsType type state readable fit allDeclared found
  exact linksType_linkType unit (inRoot member isMember) memberIsType
    (Nat.le_of_lt (height_lt_of_member isMember)) readable fit allDeclared found

theorem linksMembers_linkTypes (unit : root.Grammatical) {container : Phrase}
    (inRoot : ∀ member ∈ container.members, member ∈ root.all)
    (numbered : (numbersOf container.members).Nodup) (readable : before.Readable)
    (fit : AllFit root before.table before.declared)
    (allDeclared : AllDeclared before.declared (container.members.flatMap types))
    (onlyTypes : ∀ member ∈ container.members, (before.declared.lookup member.number).isSome →
      member.declaresType) :
    Ensures (linkTypes source container) before fun _ =>
      LinksMembers root base none container.members before := by
  refine (Ensures.forM (fun rest middle => ∃ done, container.members = done ++ rest ∧
    LinksMembers root base none done before middle) ?_ ?_).imp ?_
  case refine_1 => exact ⟨[], rfl, .nil readable.typed⟩
  case refine_3 =>
    rintro _ after ⟨done, isAll, links⟩
    rw [List.append_nil] at isAll
    exact isAll ▸ links
  case refine_2 =>
    rintro member rest middle ⟨done, split, links⟩
    rw [split] at inRoot numbered allDeclared onlyTypes
    have doneInRoot : ∀ member ∈ done, member ∈ root.all :=
      fun member isDone => inRoot member (List.mem_append_left _ isDone)
    have memberInRoot : member ∈ root.all := inRoot member (by simp)
    have middleReadable := links.declares.readable readable
    have middleFit := links.declares.allFit unit.numbered (fun phrase isLinked =>
      mem_all_of_mem_allOf doneInRoot (mem_allOf_of_linked unit doneInRoot isLinked).1) fit
    have isDeclared := links.declares.allDeclared allDeclared
    have sameLookup : middle.declared.lookup member.number = before.declared.lookup member.number := by
      refine links.declares.lookup_eq fun isNumber => ?_
      rcases List.mem_map.1 isNumber with ⟨other, isOther, same⟩
      exact number_ne_of_append numbered (mem_allOf_of_linked unit doneInRoot isOther).1
        (mem_allOf_of_mem List.mem_cons_self) same
    -- It is enough to account for the member at hand.
    have ends : ∀ after, LinksMembers root base none [member] middle after →
        ∃ done, container.members = done ++ rest ∧ LinksMembers root base none done before after := by
      intro after single
      refine ⟨done ++ [member], by simp [split], ?_⟩
      refine links.append unit single ?_ ?_ fit fun _ isOuter => by cases isOuter
      · intro other isOther
        refine inRoot other ?_
        simp only [List.mem_append, List.mem_cons] at isOther ⊢
        tauto
      · refine List.Nodup.sublist (List.Sublist.map _ (allOf_sublist ?_)) numbered
        simp
    refine .step (Ensures.imp ?_ fun _ => ends)
    split
    case h_1 type found =>
      have isType := onlyTypes member (by simp) (by
        rw [← sameLookup, show middle.declared.lookup member.number = some type from found]
        rfl)
      refine (linksType_linkType unit memberInRoot isType (Nat.le_refl _) middleReadable middleFit
        (fun phrase isIn => isDeclared phrase ?_) found).imp fun _ after =>
          .type isType fun _ isOuter => by cases isOuter
      exact List.mem_flatMap.2 ⟨member, by simp, isIn⟩
    case h_2 notFound =>
      have noType : ¬ member.declaresType := by
        intro isType
        rcases Option.isSome_iff_exists.1 (isDeclared member (List.mem_flatMap.2
          ⟨member, by simp, mem_types_self isType⟩)) with ⟨type, found⟩
        exact notFound type found
      exact .none middleReadable.typed noType fun isOuter => by cases isOuter

end Lower

end JavaInspect.Java
