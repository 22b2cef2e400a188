import JavaInspect.Proofs.Java.TypeLinking

/-!
# Consistent tables

Whenever types have been declared and linked, every declared type of the unit lists what its
declaration says, as long as no two types share a binding. Bodies that are met later, those of
local and anonymous classes, leave the types that were there as they are.
-/

namespace JavaInspect.Java

open Phrase

variable {root declaration phrase member other : Phrase} {base : Nat} {outer : Option BindingId}
  {type : BindingId} {before middle after : Lowering} {members : List Phrase} {new : Declared}
  {table later : Table} {declared : Declared}

namespace Phrase

theorem mem_types_trans (isIn : member ∈ declaration.types) (inMember : other ∈ member.types) :
    other ∈ declaration.types := by
  refine types_induction (motive := fun phrase => ∀ other ∈ phrase.types, other ∈ declaration.types)
    (fun _ _ => id) ?_ isIn other inMember
  intro around inTypes contained nested isNested isType other isOther
  refine contained other ?_
  rw [types_eq_cons (declaresType_of_mem_types inTypes)]
  exact List.mem_cons_of_mem _ (List.mem_flatMap.2 ⟨nested, isNested, isOther⟩)

/-- A member of a body belongs to a type only if the type is around the body. -/
theorem around_unique (unit : root.Grammatical) {around body : Phrase} (inRoot : around ∈ root.all)
    (otherInRoot : other ∈ root.all) (isPart : body ∈ around.parts)
    (isTypeBody : body.construct.isTypeBody) (isType : other.declaresType)
    (first : member ∈ body.members) (second : member ∈ other.bodyMembers) : around = other := by
  rcases mem_bodyMembers.1 second with ⟨body', isBody', second⟩
  have isPart' := mem_parts_of_slot isBody'
  have noRest : ∀ {body : Phrase}, body.construct.isTypeBody →
      body.construct ≠ .enumBodyDeclarations := by
    intro body isTypeBody is
    rw [is] at isTypeBody
    cases isTypeBody
  obtain rfl := member_unique unit (mem_all_trans inRoot (mem_all_of_part isPart))
    (mem_all_trans otherInRoot (mem_all_of_part isPart')) (noRest isTypeBody)
    (noRest ((unit.shaped other otherInRoot).body (.inl isType) body' isBody')) first second
  exact parent_unique unit.numbered inRoot otherInRoot isPart isPart'

/-- A member belongs to the body of one declaration only. -/
theorem bodyMember_unique (unit : root.Grammatical) (inRoot : declaration ∈ root.all)
    (otherInRoot : other ∈ root.all) (isType : declaration.declaresType)
    (otherIsType : other.declaresType) (first : member ∈ declaration.bodyMembers)
    (second : member ∈ other.bodyMembers) : declaration = other := by
  rcases mem_bodyMembers.1 first with ⟨body, isBody, first⟩
  refine (around_unique unit inRoot otherInRoot (mem_parts_of_slot isBody) ?_ otherIsType first second)
  exact (unit.shaped declaration inRoot).body (.inl isType) body isBody

theorem component_ne_declaration (isComponent : phrase ∈ declaration.components)
    (shaped : member.Shaped) : phrase ∉ member.declarations := by
  intro isDeclared
  rcases mem_components isComponent with ⟨-, hasName, -⟩
  unfold parameterName? at hasName
  unfold declarations at isDeclared
  rcases mem_declarations shaped isDeclared with ⟨rfl, -⟩ | ⟨-, isVariable⟩
  · unfold values at isDeclared
    split at hasName <;> simp_all [declaresType, Construct.typeKind?]
  · rw [isVariable] at hasName
    cases hasName

/-- A phrase is declared by one type only. -/
theorem own_unique (unit : root.Grammatical) (inRoot : declaration ∈ root.all)
    (otherInRoot : other ∈ root.all) (isType : declaration.declaresType)
    (otherIsType : other.declaresType) (first : phrase ∈ declaration.own)
    (second : phrase ∈ other.own) : declaration = other := by
  have shapedMember : ∀ {declaration : Phrase}, declaration ∈ root.all →
      ∀ member ∈ declaration.bodyMembers, member ∈ root.all ∧ member.Shaped := by
    intro declaration inRoot member isMember
    have memberInRoot := mem_all_trans inRoot (mem_all_of_bodyMember isMember)
    exact ⟨memberInRoot, unit.shaped member memberInRoot⟩
  rcases List.mem_append.1 first with first | first <;>
    rcases List.mem_append.1 second with second | second
  · rcases mem_components first with ⟨-, -, list, isList, inList⟩
    rcases mem_components second with ⟨-, -, list', isList', inList'⟩
    have isPart := mem_parts_of_slot isList
    have isPart' := mem_parts_of_slot isList'
    obtain rfl := parent_unique unit.numbered (mem_all_trans inRoot (mem_all_of_part isPart))
      (mem_all_trans otherInRoot (mem_all_of_part isPart')) inList inList'
    exact parent_unique unit.numbered inRoot otherInRoot isPart isPart'
  · rcases List.mem_flatMap.1 second with ⟨member, isMember, isDeclared⟩
    exact absurd isDeclared (component_ne_declaration first (shapedMember otherInRoot member isMember).2)
  · rcases List.mem_flatMap.1 first with ⟨member, isMember, isDeclared⟩
    exact absurd isDeclared (component_ne_declaration second (shapedMember inRoot member isMember).2)
  · rcases List.mem_flatMap.1 first with ⟨member, isMember, isDeclared⟩
    rcases List.mem_flatMap.1 second with ⟨member', isMember', isDeclared'⟩
    obtain rfl := declaration_unique unit (shapedMember inRoot member isMember).1
      (shapedMember otherInRoot member' isMember').1 isDeclared isDeclared'
    exact bodyMember_unique unit inRoot otherInRoot isType otherIsType isMember isMember'

/-- The member that a phrase of the body of a type is declared by is a member of this body. -/
theorem bodyMember_of_own (unit : root.Grammatical) (inRoot : declaration ∈ root.all)
    (memberInRoot : member ∈ root.all) (isOwn : phrase ∈ declaration.own)
    (isDeclared : phrase ∈ member.declarations) : member ∈ declaration.bodyMembers := by
  rcases List.mem_append.1 isOwn with isComponent | inBody
  · exact absurd isDeclared (component_ne_declaration isComponent (unit.shaped member memberInRoot))
  · rcases List.mem_flatMap.1 inBody with ⟨member', isMember', isDeclared'⟩
    obtain rfl := declaration_unique unit memberInRoot
      (mem_all_trans inRoot (mem_all_of_bodyMember isMember')) isDeclared isDeclared'
    exact isMember'

/-- What is declared with some members belongs to other types only if the members do. -/
theorem own_of_members (unit : root.Grammatical) (inRoot : declaration ∈ root.all)
    (isType : declaration.declaresType) (membersInRoot : ∀ member ∈ members, member ∈ root.all)
    (isOwn : phrase ∈ declaration.own)
    (isNew : phrase ∈ members.flatMap types ++ members.flatMap linked) :
    declaration ∈ members.flatMap types ∨ ∃ member ∈ members, member ∈ declaration.bodyMembers := by
  have ofInner : ∀ member ∈ members, ∀ inner ∈ member.types, phrase ∈ inner.own →
      declaration ∈ members.flatMap types := by
    intro member isMember inner isInner isInnerOwn
    have innerInRoot := mem_all_trans (membersInRoot member isMember) (mem_all_of_mem_types isInner)
    obtain rfl := own_unique unit inRoot innerInRoot isType (declaresType_of_mem_types isInner)
      isOwn isInnerOwn
    exact List.mem_flatMap.2 ⟨member, isMember, isInner⟩
  rcases List.mem_append.1 isNew with isNew | isNew <;>
    rcases List.mem_flatMap.1 isNew with ⟨member, isMember, isNew⟩
  · -- A type in a member is the member itself, or a member of such a type.
    have around : phrase = member ∨ ∃ inner ∈ member.types, phrase ∈ inner.own :=
      types_induction (motive := fun phrase => phrase = member ∨ ∃ inner ∈ member.types,
        phrase ∈ inner.own) (fun _ => .inl rfl)
        (fun inner isInner _ nested isNested isType =>
          .inr ⟨inner, isInner, own_of_typeMember isNested isType⟩) isNew
    rcases around with rfl | ⟨inner, isInner, isInnerOwn⟩
    · refine .inr ⟨phrase, isMember, bodyMember_of_own unit inRoot (membersInRoot phrase isMember)
        isOwn ?_⟩
      simp [declarations, declaresType_of_mem_types isNew]
    · exact .inl (ofInner member isMember inner isInner isInnerOwn)
  · rcases List.mem_append.1 isNew with isValue | inTypes
    · exact .inr ⟨member, isMember, bodyMember_of_own unit inRoot (membersInRoot member isMember)
        isOwn (declarations_of_values isValue)⟩
    · rcases List.mem_flatMap.1 inTypes with ⟨inner, isInner, isValue⟩
      exact .inl (ofInner member isMember inner isInner (own_of_ownValue isValue))

end Phrase

/-- A table that agrees with what has been declared so far. -/
structure Consistent (root : Phrase) (base : Nat) (table : Table) (declared : Declared) : Prop where
  typed : table.Typed
  fit : AllFit root table declared
  registered : Registered root base table declared
  nested : ∀ phrase ∈ root.all, phrase.declaresType → (declared.lookup phrase.number).isSome →
    AllDeclared declared phrase.types
  filled : Unmixed root base declared → ∀ phrase ∈ root.all, phrase.declaresType →
    Filled table declared phrase

namespace DeclaresTypes

theorem lookup_eq (declares : DeclaresTypes root base outer members new before after) {number : Nat}
    (absent : number ∉ (members.flatMap types).map (·.number)) :
    after.declared.lookup number = before.declared.lookup number := by
  rw [declares.declared, Declared.lookup_append_of_not_mem]
  rwa [declares.numbers, List.mem_reverse]

theorem allDeclared (declares : DeclaresTypes root base outer members new before after) :
    AllDeclared after.declared (members.flatMap types) := by
  intro phrase isIn
  have isNumber : phrase.number ∈ new.map (·.1) := by
    rw [declares.numbers, List.mem_reverse]
    exact List.mem_map_of_mem isIn
  rcases List.mem_map.1 isNumber with ⟨entry, isEntry, same⟩
  rw [Option.isSome_iff_ne_none, ne_eq, List.lookup_eq_none_iff]
  intro notFound
  have differs := notFound entry (declares.declared ▸ List.mem_append_left _ isEntry)
  simp [same] at differs

theorem allFit (declares : DeclaresTypes root base outer members new before after)
    (numbered : root.numbers.Nodup) (inRoot : ∀ member ∈ members, member ∈ root.all)
    (fit : AllFit root before.table before.declared) : AllFit root after.table after.declared := by
  intro phrase phraseInRoot binding found
  rcases Declared.lookup_append_cases (declares.declared ▸ found) with isNew | old
  · have isNumber : phrase.number ∈ new.map (·.1) := List.mem_map_of_mem isNew
    rw [declares.numbers, List.mem_reverse, List.mem_map] at isNumber
    rcases isNumber with ⟨type, isIn, same⟩
    rcases List.mem_flatMap.1 isIn with ⟨member, isMember, inMember⟩
    obtain rfl := eq_of_number_eq numbered (mem_all_trans (inRoot member isMember)
      (mem_all_of_mem_types inMember)) phraseInRoot same
    have holds := declares.isType _ isNew
    refine ⟨holds.1, ?_, ?_⟩
    · rw [declaresType_iff.1 (declaresType_of_mem_types inMember), holds.2]
    · cases isConstructor : (after.table.entry binding).isConstructor with
      | true =>
          have isMethod := declares.typed.constructor binding isConstructor
          rw [holds.2] at isMethod
          cases isMethod
      | false =>
          cases isOne : type.construct.isConstructor with
          | false => rfl
          | true =>
              have noType := Construct.declares?_of_isConstructor isOne
              rw [declaresType_iff.1 (declaresType_of_mem_types inMember)] at noType
              cases noType
  · exact (fit phrase phraseInRoot binding old).grows declares.grows

/-- The owner of a body shares its binding with no type that was declared for the body. -/
theorem aside (declares : DeclaresTypes root base outer members new before after)
    (unmixed : Unmixed root base after.declared)
    (outerInTable : ∀ type, outer = some type → type.index < before.table.size) :
    Aside after.declared outer members := by
  intro phrase isIn type found isOuter
  exact Nat.not_lt.2 (declares.isNew unmixed type (declares.mem_new isIn found))
    (outerInTable type isOuter)

end DeclaresTypes

theorem isSome_lookup_append {number : Nat} (found : (declared.lookup number).isSome) :
    ((new ++ declared).lookup number).isSome := by
  rw [List.lookup_append]
  cases new.lookup number with
  | some binding => rfl
  | none => exact found

theorem AllDeclared.append {phrases : List Phrase} (all : AllDeclared declared phrases) :
    AllDeclared (new ++ declared) phrases :=
  fun phrase isPhrase => isSome_lookup_append (all phrase isPhrase)

/-- Where no types share a binding, declaring and linking some members changes no entry but that
of their owner. -/
theorem grows_linked (unit : root.Grammatical) (inRoot : ∀ member ∈ members, member ∈ root.all)
    (declares : DeclaresTypes root base outer members new before middle)
    (links : LinksMembers root base outer members middle after) :
    before.table.Grows (fun binding => outer = some binding ∨ ¬ Unmixed root base after.declared)
      after.table := by
  have unmixed := links.unmixed_iff unit inRoot
  have notNew : ∀ binding, binding.index < before.table.size → Unmixed root base after.declared →
      binding ∉ new.map (·.2) := fun binding old isUnmixed isNew =>
    Nat.not_lt.2 (declares.isNew (unmixed.1 isUnmixed) binding isNew) old
  have first : before.table.Grows
      (fun binding => outer = some binding ∨ ¬ Unmixed root base after.declared) middle.table := by
    refine declares.grows.imp fun binding old changed => ?_
    exact changed.imp_right fun isNew isUnmixed => notNew binding old isUnmixed isNew
  refine first.andThen links.declares.grows fun binding old changed => ?_
  refine changed.imp_right fun ⟨phrase, isIn, found⟩ isUnmixed => ?_
  exact notNew binding old isUnmixed (declares.mem_new isIn found)

/-- The bindings of the types in some members. -/
def typesOf (declared : Declared) (members : List Phrase) : List BindingId :=
  (members.flatMap types).filterMap fun phrase => declared.lookup phrase.number

/-- Declaring and linking some members logs the types in them, each once. -/
theorem typeLog_linked (unit : root.Grammatical) (inRoot : ∀ member ∈ members, member ∈ root.all)
    (numbered : (numbersOf members).Nodup)
    (declares : DeclaresTypes root base outer members new before middle)
    (links : LinksMembers root base outer members middle after) :
    typeLog root after.declared =
      (typesOf after.declared members).reverse ++ typeLog root before.declared := by
  have linkedInRoot := LinksMembers.linked_inRoot unit inRoot
  have noTypes : ∀ phrase ∈ members.flatMap linked, ¬ phrase.declaresType :=
    fun phrase isLinked => (mem_allOf_of_linked unit inRoot isLinked).2
  have typesNumbered : ((members.flatMap types).map (·.number)).Nodup := by
    refine List.Nodup.sublist (List.Sublist.map _ ?_) numbered
    rw [allOf_eq]
    clear * -
    induction members with
    | nil => exact .slnil
    | cons member members ih => exact types_sublist.append ih
  have lookups : (members.flatMap types).map (fun phrase => after.declared.lookup phrase.number) =
      (new.map (·.2)).reverse.map some := by
    rw [← Declared.lookup_of_numbers typesNumbered declares.numbers, ← declares.declared]
    refine List.map_congr_left fun phrase isIn => ?_
    exact links.lookup_type unit inRoot
      (mem_all_of_mem_allOf inRoot (mem_allOf_of_types isIn mem_all_self)) (declaresType_of_flatMap isIn)
  have isNew : typesOf after.declared members = (new.map (·.2)).reverse := by
    have collected := congrArg (List.filterMap id) lookups
    rw [List.filterMap_map, List.filterMap_map] at collected
    simpa [typesOf, Function.comp_def] using collected
  rw [links.declares.typeLog_eq unit.numbered linkedInRoot noTypes, declares.declared, typeLog_append,
    declares.typeLog_new inRoot, isNew, List.reverse_reverse]

namespace Consistent

/-- A class path with nothing declared. -/
theorem start (typed : table.Typed) : Consistent root table.size table [] where
  typed := typed
  fit := by simp [AllFit]
  registered type isListed := by
    rcases List.mem_map.1 isListed with ⟨entry, isEntry, rfl⟩
    refine .inl (typed.indexed entry.2 ?_).1
    simp only [Table.indexed, List.mem_append]
    exact .inl (.inl (.inl (List.mem_map_of_mem isEntry)))
  nested := by simp
  filled := by simp [Filled]

/-- A table that has been added to, without new named types. -/
theorem grows (unit : root.Grammatical) (consistent : Consistent root base table declared)
    (typed : later.Typed)
    (types : later.types = table.types)
    (grows : table.Grows (fun _ => ¬ Unmixed root base declared) later) :
    Consistent root base later declared where
  typed := typed
  fit phrase inRoot binding found := (consistent.fit phrase inRoot binding found).grows grows
  registered := by
    rw [Registered, types]
    exact consistent.registered
  nested := consistent.nested
  filled := by
    intro unmixed phrase inRoot isType
    have unchanged : ∀ binding, binding.index < table.size →
        later.entry binding = table.entry binding :=
      fun binding old => grows.same binding old fun mixed => mixed unmixed
    refine (consistent.filled unmixed phrase inRoot isType).congr consistent.fit inRoot ?_
      (fun _ _ => rfl) (fun type found => unchanged type (consistent.fit phrase inRoot type found).inTable)
      ?_
    · exact fun inner inside => unit.shaped inner (mem_all_trans inRoot inside)
    · intro binding noType
      refine unchanged binding ?_
      by_contra outside
      rw [Table.entry_of_outside outside] at noType
      exact noType rfl

/-- Members that no declared type holds are declared and linked. -/
theorem linked (unit : root.Grammatical) (inRoot : ∀ member ∈ members, member ∈ root.all)
    (consistent : Consistent root base before.table before.declared)
    (declares : DeclaresTypes root base outer members new before middle)
    (links : LinksMembers root base outer members middle after)
    (isType : ∀ type, outer = some type → before.table.Holds .type type)
    (notOuter : ∀ phrase ∈ root.all, phrase.declaresType → ∀ type,
      before.declared.lookup phrase.number = some type → outer ≠ some type)
    (foreign : ∀ phrase ∈ root.all, phrase.declaresType →
      (before.declared.lookup phrase.number).isSome → ∀ member ∈ members,
        member ∉ phrase.bodyMembers) :
    Consistent root base after.table after.declared := by
  have typesInRoot : ∀ phrase ∈ members.flatMap types, phrase ∈ root.all := fun phrase isIn =>
    mem_all_of_mem_allOf inRoot (mem_allOf_of_types isIn mem_all_self)
  have linkedInRoot := LinksMembers.linked_inRoot unit inRoot
  have noTypes : ∀ phrase ∈ members.flatMap Phrase.linked, ¬ phrase.declaresType :=
    fun phrase isLinked => (mem_allOf_of_linked unit inRoot isLinked).2
  have outerInTable : ∀ type, outer = some type → type.index < before.table.size :=
    fun type isOuter => (isType type isOuter).1
  have middleFit := declares.allFit unit.numbered inRoot consistent.fit
  have sameTypes : ∀ phrase ∈ root.all, phrase.declaresType →
      after.declared.lookup phrase.number = middle.declared.lookup phrase.number :=
    fun _ => links.lookup_type unit inRoot
  have ofOld : ∀ phrase ∈ root.all, phrase.declaresType → phrase ∉ members.flatMap types →
      after.declared.lookup phrase.number = before.declared.lookup phrase.number := by
    intro phrase phraseInRoot isType isForeign
    rw [sameTypes phrase phraseInRoot isType]
    refine declares.lookup_eq fun isNumber => ?_
    rcases List.mem_map.1 isNumber with ⟨inner, isIn, same⟩
    exact isForeign (eq_of_number_eq unit.numbered (typesInRoot inner isIn) phraseInRoot same ▸ isIn)
  have extended : ∃ newer, after.declared = newer ++ before.declared := by
    rcases links.declares.declared with ⟨newer, isNewer, -⟩
    exact ⟨newer ++ new, by rw [isNewer, declares.declared, List.append_assoc]⟩
  rcases extended with ⟨newer, isNewer⟩
  constructor
  case typed => exact links.declares.typed
  case fit => exact links.declares.allFit unit.numbered linkedInRoot middleFit
  case registered =>
    have registered := declares.isRegistered inRoot consistent.registered
    rw [Registered, links.declares.types, links.declares.typeLog_eq unit.numbered linkedInRoot noTypes]
    exact registered
  case nested =>
    intro phrase phraseInRoot phraseIsType isDeclared
    by_cases isIn : phrase ∈ members.flatMap types
    · refine links.declares.allDeclared fun inner isInner => declares.allDeclared inner ?_
      rcases List.mem_flatMap.1 isIn with ⟨member, isMember, inMember⟩
      exact List.mem_flatMap.2 ⟨member, isMember, mem_types_trans inMember isInner⟩
    · rw [ofOld phrase phraseInRoot phraseIsType isIn] at isDeclared
      rw [isNewer]
      exact (consistent.nested phrase phraseInRoot phraseIsType isDeclared).append
  case filled =>
    intro unmixed phrase phraseInRoot phraseIsType
    have middleUnmixed := (links.unmixed_iff unit inRoot).1 unmixed
    by_cases isIn : phrase ∈ members.flatMap types
    · exact links.filled middleUnmixed (declares.aside middleUnmixed outerInTable)
        (declares.bare middleUnmixed) phrase isIn
    · cases found : before.declared.lookup phrase.number with
      | none =>
          intro type isType
          rw [ofOld phrase phraseInRoot phraseIsType isIn, found] at isType
          cases isType
      | some type =>
          have isDeclared : (before.declared.lookup phrase.number).isSome := by rw [found]; rfl
          have beforeUnmixed : Unmixed root base before.declared := .of_append (isNewer ▸ unmixed)
          have same : ∀ binding, binding.index < before.table.size → outer ≠ some binding →
              after.table.entry binding = before.table.entry binding := fun binding old notOuter =>
            (grows_linked unit inRoot declares links).same binding old
              fun changed => changed.elim notOuter fun mixed => mixed unmixed
          refine (consistent.filled beforeUnmixed phrase phraseInRoot phraseIsType).congr consistent.fit
            phraseInRoot (fun inner inside => unit.shaped inner (mem_all_trans phraseInRoot inside))
            ?_ ?_ ?_
          · intro inner isOwn
            rcases List.mem_cons.1 isOwn with rfl | isOwn
            · exact ofOld inner phraseInRoot phraseIsType isIn
            · have innerInRoot := mem_all_trans phraseInRoot (mem_all_of_own
                (fun inner inside => unit.shaped inner (mem_all_trans phraseInRoot inside)) isOwn)
              have notNew : inner ∉ members.flatMap types ++ members.flatMap Phrase.linked := by
                intro isNew
                rcases own_of_members unit phraseInRoot phraseIsType inRoot isOwn isNew with
                  isType | ⟨member, isMember, isBodyMember⟩
                · exact isIn isType
                · exact foreign phrase phraseInRoot phraseIsType isDeclared member isMember isBodyMember
              rw [links.declares.lookup_eq, declares.lookup_eq]
              · intro isNumber
                rcases List.mem_map.1 isNumber with ⟨other, isOther, same⟩
                obtain rfl := eq_of_number_eq unit.numbered (typesInRoot other isOther) innerInRoot same
                exact notNew (List.mem_append_left _ isOther)
              · intro isNumber
                rcases List.mem_map.1 isNumber with ⟨other, isOther, same⟩
                obtain rfl := eq_of_number_eq unit.numbered (linkedInRoot other isOther) innerInRoot same
                exact notNew (List.mem_append_right _ isOther)
          · intro other isOther
            exact same other (consistent.fit phrase phraseInRoot other isOther).inTable
              (notOuter phrase phraseInRoot phraseIsType other isOther)
          · intro binding noType
            refine same binding ?_ fun isOuter => noType (isType binding isOuter).2
            by_contra outside
            rw [Table.entry_of_outside outside] at noType
            exact noType rfl

end Consistent

end JavaInspect.Java
