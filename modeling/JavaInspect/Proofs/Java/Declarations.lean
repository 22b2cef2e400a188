import JavaInspect.Proofs.Java.Phrases

/-!
# Phrases that declare

Which phrases of a unit come to have a binding. A type declares its members and, if it is a
record, its components; a body may hold types in turn. Whatever is declared belongs to one
type only, so linking one type leaves the declarations of all others alone.
-/

namespace JavaInspect.Java

/-- What a construct declares. -/
def Construct.declares? : Construct → Option BindingKind
  | .classDeclaration | .interfaceDeclaration | .enumDeclaration | .recordDeclaration
  | .annotationTypeDeclaration => some .type
  | .methodDeclaration | .annotationElementDeclaration | .constructorDeclaration
  | .compactConstructorDeclaration => some .method
  | .variableDeclarator | .enumConstant | .formalParameter | .spreadParameter => some .variable
  | _ => none

/-- Declarations of constructors, with and without a parameter list. -/
def Construct.isConstructor : Construct → Bool
  | .constructorDeclaration | .compactConstructorDeclaration => true
  | _ => false

theorem Construct.declares?_of_isConstructor {construct : Construct}
    (isConstructor : construct.isConstructor) : construct.declares? = some .method := by
  unfold Construct.isConstructor at isConstructor
  split at isConstructor
  case h_1 | h_2 => rfl
  case h_3 => cases isConstructor

namespace Phrase

/-- What a member of a body declares besides types. -/
def values (member : Phrase) : List Phrase :=
  match member.construct with
  | .fieldDeclaration | .constantDeclaration => member.partsIn .declarator
  | .methodDeclaration | .annotationElementDeclaration | .constructorDeclaration
  | .compactConstructorDeclaration | .enumConstant => [member]
  | _ => []

/-- What a member of a body declares. -/
def declarations (member : Phrase) : List Phrase :=
  if member.declaresType then [member] else member.values

/-- The members of the body of a declaration. -/
def bodyMembers (declaration : Phrase) : List Phrase :=
  ((declaration.part? .body).map members).getD []

/-- The name of a parameter, if it declares one. -/
def parameterName? (parameter : Phrase) : Option Phrase :=
  match parameter.construct with
  | .formalParameter => parameter.part? .name
  | .spreadParameter =>
      (parameter.namedParts.find? (·.construct == .variableDeclarator)).bind (·.part? .name)
  | _ => none

/-- The components of a record. -/
def components (declaration : Phrase) : List Phrase :=
  if declaration.construct = .recordDeclaration then
    (((declaration.part? .parameters).map namedParts).getD []).filter (·.parameterName?.isSome)
  else []

/-- What a type declares besides types: its components and the members of its body. -/
def ownValues (declaration : Phrase) : List Phrase :=
  declaration.components ++ declaration.bodyMembers.flatMap values

/-- What a type declares: its components and the members of its body. -/
def own (declaration : Phrase) : List Phrase :=
  declaration.components ++ declaration.bodyMembers.flatMap declarations

/-- A declared type and the types in its body, down to a depth. -/
def typesWithin : Nat → Phrase → List Phrase
  | 0, _ => []
  | depth + 1, declaration =>
      if declaration.declaresType then
        declaration :: declaration.bodyMembers.flatMap (typesWithin depth)
      else []

/-- A declared type and the types in its body. -/
def types (declaration : Phrase) : List Phrase := declaration.typesWithin declaration.height

/-- What is declared besides types when a member and the types in it are linked. -/
def linked (member : Phrase) : List Phrase := member.values ++ member.types.flatMap ownValues

variable {declaration member inner body root other phrase : Phrase} {depth : Nat}

/-! ## Members and types -/

theorem mem_bodyMembers : member ∈ declaration.bodyMembers ↔
    ∃ body, declaration.part? .body = some body ∧ member ∈ body.members := by
  unfold bodyMembers
  cases declaration.part? .body <;> simp

theorem allOf_bodyMembers_sublist :
    (allOf declaration.bodyMembers).Sublist (allOf declaration.parts) := by
  unfold bodyMembers
  cases found : declaration.part? .body with
  | none => simp
  | some body =>
      exact allOf_members_sublist.trans
        (allOf_parts_sublist.trans (all_sublist_allOf (mem_parts_of_slot found)))

theorem mem_all_of_bodyMember (isMember : member ∈ declaration.bodyMembers) :
    member ∈ declaration.all :=
  mem_all.2 (.inr (allOf_bodyMembers_sublist.subset (mem_allOf_of_mem isMember)))

theorem height_lt_of_bodyMember (isMember : member ∈ declaration.bodyMembers) :
    member.height < declaration.height :=
  height_lt_of_mem_allOf (allOf_bodyMembers_sublist.subset (mem_allOf_of_mem isMember))

theorem declaresType_iff : phrase.declaresType ↔ phrase.construct.declares? = some .type := by
  unfold declaresType Construct.typeKind? Construct.declares?
  cases phrase.construct <;> simp

theorem typesWithin_eq (deep : declaration.height ≤ depth) :
    declaration.typesWithin depth = declaration.types := by
  unfold types
  generalize level : declaration.height = height
  induction height using Nat.strongRecOn generalizing declaration depth with
  | ind height ih =>
      obtain ⟨below, rfl⟩ := Nat.exists_eq_succ_of_ne_zero
        (Nat.pos_iff_ne_zero.1 (level ▸ height_pos : 0 < height))
      obtain ⟨depth, rfl⟩ := Nat.exists_eq_succ_of_ne_zero
        (Nat.pos_iff_ne_zero.1 (Nat.lt_of_lt_of_le height_pos deep))
      rw [typesWithin, typesWithin]
      split
      case isTrue =>
        congr 1
        refine List.flatMap_congr fun member isMember => ?_
        have low := height_lt_of_bodyMember isMember
        have shallow : member.height ≤ below := by omega
        rw [ih member.height (level ▸ low) (by omega) rfl, ih member.height (level ▸ low) shallow rfl]
      case isFalse => rfl

theorem types_eq : declaration.types =
    if declaration.declaresType then declaration :: declaration.bodyMembers.flatMap types
    else [] := by
  obtain ⟨below, level⟩ := Nat.exists_eq_succ_of_ne_zero
    (Nat.pos_iff_ne_zero.1 (@height_pos declaration))
  rw [types, level, typesWithin]
  split
  case isTrue =>
    congr 1
    refine List.flatMap_congr fun member isMember => typesWithin_eq ?_
    have low := height_lt_of_bodyMember isMember
    omega
  case isFalse => rfl

theorem types_eq_cons (isType : declaration.declaresType) :
    declaration.types = declaration :: declaration.bodyMembers.flatMap types := by
  rw [types_eq, if_pos isType]

theorem types_eq_nil (noType : ¬ declaration.declaresType) : declaration.types = [] := by
  rw [types_eq, if_neg noType]

theorem mem_types_self (isType : declaration.declaresType) : declaration ∈ declaration.types := by
  simp [types_eq_cons isType]

/-- Types are listed where they stand in the declaration. -/
theorem types_sublist : declaration.types.Sublist declaration.all := by
  generalize level : declaration.height = height
  induction height using Nat.strongRecOn generalizing declaration with
  | ind height ih =>
      by_cases isType : declaration.declaresType
      case pos =>
        rw [types_eq_cons isType, all_eq]
        refine (List.Sublist.cons_cons _ ?_)
        refine .trans ?_ allOf_bodyMembers_sublist
        have low : ∀ member ∈ declaration.bodyMembers, member.types.Sublist member.all :=
          fun member isMember => ih member.height (level ▸ height_lt_of_bodyMember isMember) rfl
        generalize declaration.bodyMembers = members at low
        induction members with
        | nil => exact .refl _
        | cons member members ihMembers =>
            rw [List.flatMap_cons, allOf_cons]
            exact (low member List.mem_cons_self).append
              (ihMembers fun later isLater => low later (List.mem_cons_of_mem _ isLater))
      case neg => simp [types_eq_nil isType]

theorem mem_all_of_mem_types (isIn : inner ∈ declaration.types) : inner ∈ declaration.all :=
  types_sublist.subset isIn

/-- What holds of a declared type and goes on to the types among its members holds of all
types in it. -/
theorem types_induction {motive : Phrase → Prop}
    (here : declaration.declaresType → motive declaration)
    (goesOn : ∀ around ∈ declaration.types, motive around → ∀ member ∈ around.bodyMembers,
      member.declaresType → motive member)
    (isIn : inner ∈ declaration.types) : motive inner := by
  generalize level : declaration.height = height
  induction height using Nat.strongRecOn generalizing declaration with
  | ind height ih =>
      by_cases isType : declaration.declaresType
      case neg => simp [types_eq_nil isType] at isIn
      case pos =>
        have listed := types_eq_cons isType
        rcases List.mem_cons.1 (listed ▸ isIn) with rfl | below
        · exact here isType
        · rcases List.mem_flatMap.1 below with ⟨member, isMember, inMember⟩
          refine ih member.height (level ▸ height_lt_of_bodyMember isMember) ?_ ?_ inMember rfl
          · exact goesOn declaration (mem_types_self isType) (here isType) member isMember
          · intro around inTypes
            exact goesOn around
              (listed ▸ List.mem_cons_of_mem _ (List.mem_flatMap.2 ⟨member, isMember, inTypes⟩))

theorem declaresType_of_mem_types (isIn : inner ∈ declaration.types) : inner.declaresType :=
  types_induction (motive := fun phrase => phrase.declaresType) id
    (fun _ _ _ _ _ isType => isType) isIn

theorem values_eq_nil (isType : member.declaresType) : member.values = [] := by
  rw [declaresType_iff] at isType
  unfold values
  cases construct : member.construct <;> simp_all [Construct.declares?]

/-- The types of the members of a body come first, or else what its members declare besides
types. -/
theorem perm_declarations (members : List Phrase) :
    (members.flatMap declarations).Perm
      (members.filter (·.declaresType) ++ members.flatMap values) := by
  induction members with
  | nil => exact .refl _
  | cons member members ih =>
      by_cases isType : member.declaresType
      · simpa [declarations, isType, values_eq_nil isType] using ih
      · simp only [List.flatMap_cons, declarations, isType, List.filter_cons, if_false,
          Bool.false_eq_true]
        refine (ih.append_left _).trans ?_
        rw [← List.append_assoc, ← List.append_assoc]
        exact List.perm_append_comm.append_right _

/-! ## What is declared besides types -/

theorem mem_components (isComponent : phrase ∈ declaration.components) :
    declaration.construct = .recordDeclaration ∧ phrase.parameterName?.isSome ∧
      ∃ list, declaration.part? .parameters = some list ∧ phrase ∈ list.parts := by
  unfold components at isComponent
  split at isComponent
  case isFalse => cases isComponent
  case isTrue isRecord =>
    rcases List.mem_filter.1 isComponent with ⟨inList, hasName⟩
    refine ⟨isRecord, hasName, ?_⟩
    cases found : declaration.part? .parameters with
    | none => simp [found] at inList
    | some list => exact ⟨list, rfl, mem_parts_of_named (by simpa [found] using inList)⟩

theorem mem_all_of_component (isComponent : phrase ∈ declaration.components) :
    phrase ∈ declaration.all := by
  rcases mem_components isComponent with ⟨-, -, list, found, inList⟩
  exact mem_all_trans (mem_all_of_part (mem_parts_of_slot found)) (mem_all_of_part inList)

theorem declares_of_parameterName (hasName : phrase.parameterName?.isSome) :
    phrase.construct.declares? = some .variable ∧ phrase.construct.isConstructor = false := by
  unfold parameterName? at hasName
  split at hasName
  case h_1 is | h_2 is => rw [is]; exact ⟨rfl, rfl⟩
  case h_3 => cases hasName

/-! ## To whom a declaration belongs -/

section Unique

variable {around container : Phrase}

theorem mem_members {container : Phrase} (isMember : member ∈ container.members) :
    member ∈ container.parts ∨
      ∃ rest ∈ container.parts, rest.construct = .enumBodyDeclarations ∧ member ∈ rest.parts := by
  rw [members_eq] at isMember
  rcases List.mem_flatMap.1 isMember with ⟨part, isPart, inside⟩
  split at inside
  case isTrue isRest =>
    exact .inr ⟨part, mem_parts_of_named isPart, by simpa using isRest, mem_parts_of_named inside⟩
  case isFalse =>
    obtain rfl := List.mem_singleton.1 inside
    exact .inl (mem_parts_of_named isPart)

theorem mem_values (shaped : member.Shaped) (isValue : phrase ∈ member.values) :
    (phrase = member ∧ phrase.construct ≠ .variableDeclarator) ∨
      (phrase ∈ member.parts ∧ phrase.construct = .variableDeclarator) := by
  unfold values at isValue
  split at isValue
  case h_1 | h_2 =>
    exact .inr ⟨mem_parts_of_partsIn isValue, shaped.declarators phrase isValue⟩
  case h_8 => cases isValue
  all_goals
    obtain rfl := List.mem_singleton.1 isValue
    exact .inl ⟨rfl, by simp_all⟩

theorem mem_declarations (shaped : member.Shaped) (isDeclared : phrase ∈ member.declarations) :
    (phrase = member ∧ phrase.construct ≠ .variableDeclarator) ∨
      (phrase ∈ member.parts ∧ phrase.construct = .variableDeclarator) := by
  unfold declarations at isDeclared
  split at isDeclared
  case isTrue isType =>
    obtain rfl := List.mem_singleton.1 isDeclared
    refine .inl ⟨rfl, fun isDeclarator => ?_⟩
    rw [declaresType_iff, isDeclarator] at isType
    cases isType
  case isFalse => exact mem_values shaped isDeclared

theorem mem_all_of_declaration (shaped : member.Shaped)
    (isDeclared : phrase ∈ member.declarations) : phrase ∈ member.all := by
  rcases mem_declarations shaped isDeclared with ⟨rfl, -⟩ | ⟨isPart, -⟩
  · exact mem_all_self
  · exact mem_all_of_part isPart

theorem not_declaresType_of_value (shaped : member.Shaped) (isValue : phrase ∈ member.values) :
    ¬ phrase.declaresType := by
  rw [declaresType_iff]
  unfold values at isValue
  split at isValue
  case h_1 | h_2 =>
    rw [shaped.declarators phrase isValue]
    nofun
  case h_8 => cases isValue
  all_goals
    obtain rfl := List.mem_singleton.1 isValue
    simp_all [Construct.declares?]

theorem not_declaresType_of_ownValue (shaped : ∀ inner ∈ declaration.all, inner.Shaped)
    (isValue : phrase ∈ declaration.ownValues) : ¬ phrase.declaresType := by
  rcases List.mem_append.1 isValue with isComponent | inBody
  · rcases mem_components isComponent with ⟨-, hasName, -⟩
    rw [declaresType_iff, (declares_of_parameterName hasName).1]
    nofun
  · rcases List.mem_flatMap.1 inBody with ⟨member, isMember, isValue⟩
    exact not_declaresType_of_value (shaped member (mem_all_of_bodyMember isMember)) isValue

theorem declarations_of_values (isValue : phrase ∈ member.values) :
    phrase ∈ member.declarations := by
  unfold declarations
  split
  case isTrue isType => simp [values_eq_nil isType] at isValue
  case isFalse => exact isValue

theorem mem_all_of_own (shaped : ∀ inner ∈ declaration.all, inner.Shaped)
    (isOwn : phrase ∈ declaration.own) : phrase ∈ declaration.all := by
  rcases List.mem_append.1 isOwn with isComponent | inBody
  · exact mem_all_of_component isComponent
  · rcases List.mem_flatMap.1 inBody with ⟨member, isMember, isDeclared⟩
    have inside := mem_all_of_bodyMember isMember
    exact mem_all_trans inside (mem_all_of_declaration (shaped member inside) isDeclared)

theorem own_of_ownValue (isValue : phrase ∈ declaration.ownValues) : phrase ∈ declaration.own := by
  rcases List.mem_append.1 isValue with isComponent | inBody
  · exact List.mem_append_left _ isComponent
  · rcases List.mem_flatMap.1 inBody with ⟨member, isMember, isValue⟩
    exact List.mem_append_right _
      (List.mem_flatMap.2 ⟨member, isMember, declarations_of_values isValue⟩)

theorem own_of_typeMember (isMember : member ∈ declaration.bodyMembers)
    (isType : member.declaresType) : member ∈ declaration.own :=
  List.mem_append_right _ (List.mem_flatMap.2 ⟨member, isMember, by simp [declarations, isType]⟩)

theorem mem_all_of_linked (shaped : ∀ inner ∈ member.all, inner.Shaped)
    (isLinked : phrase ∈ member.linked) : phrase ∈ member.all := by
  rcases List.mem_append.1 isLinked with isValue | inTypes
  · exact mem_all_of_declaration (shaped member mem_all_self) (declarations_of_values isValue)
  · rcases List.mem_flatMap.1 inTypes with ⟨type, isType, isValue⟩
    have inside := mem_all_of_mem_types isType
    exact mem_all_trans inside
      (mem_all_of_own (fun inner inType => shaped inner (mem_all_trans inside inType))
        (own_of_ownValue isValue))

theorem not_declaresType_of_linked (shaped : ∀ inner ∈ member.all, inner.Shaped)
    (isLinked : phrase ∈ member.linked) : ¬ phrase.declaresType := by
  rcases List.mem_append.1 isLinked with isValue | inTypes
  · exact not_declaresType_of_value (shaped member mem_all_self) isValue
  · rcases List.mem_flatMap.1 inTypes with ⟨type, isType, isValue⟩
    have inside := mem_all_of_mem_types isType
    exact not_declaresType_of_ownValue
      (fun inner inType => shaped inner (mem_all_trans inside inType)) isValue

theorem mem_allOf_of_types {members : List Phrase} (isIn : declaration ∈ members.flatMap types)
    (inside : phrase ∈ declaration.all) : phrase ∈ allOf members := by
  rcases List.mem_flatMap.1 isIn with ⟨member, isMember, inMember⟩
  exact mem_allOf.2 ⟨member, isMember, mem_all_trans (mem_all_of_mem_types inMember) inside⟩

theorem declaresType_of_flatMap {members : List Phrase}
    (isIn : declaration ∈ members.flatMap types) : declaration.declaresType := by
  rcases List.mem_flatMap.1 isIn with ⟨member, -, inMember⟩
  exact declaresType_of_mem_types inMember

variable (unit : root.Grammatical)
include unit

/-- What is declared for some members is declared inside them, and is no type. -/
theorem mem_allOf_of_linked {members : List Phrase} (inRoot : ∀ member ∈ members, member ∈ root.all)
    (isLinked : phrase ∈ members.flatMap linked) :
    phrase ∈ allOf members ∧ ¬ phrase.declaresType := by
  rcases List.mem_flatMap.1 isLinked with ⟨member, isMember, isLinked⟩
  have shaped : ∀ inner ∈ member.all, inner.Shaped :=
    fun inner inMember => unit.shaped inner (mem_all_trans (inRoot member isMember) inMember)
  exact ⟨mem_allOf.2 ⟨member, isMember, mem_all_of_linked shaped isLinked⟩,
    not_declaresType_of_linked shaped isLinked⟩

/-- What the types among some members declare is declared inside these members. -/
theorem mem_allOf_of_own {members : List Phrase} (inRoot : ∀ member ∈ members, member ∈ root.all)
    (isIn : declaration ∈ members.flatMap types) (isOwn : phrase ∈ declaration :: declaration.own) :
    phrase ∈ allOf members := by
  refine mem_allOf_of_types isIn ?_
  rcases List.mem_cons.1 isOwn with rfl | isOwn
  · exact mem_all_self
  · exact mem_all_of_own (fun inner inside => unit.shaped inner
      (mem_all_of_mem_allOf inRoot (mem_allOf_of_types isIn inside))) isOwn

/-- A member belongs to one body only. -/
theorem member_unique (inRoot : body ∈ root.all) (otherInRoot : container ∈ root.all)
    (noRest : body.construct ≠ .enumBodyDeclarations)
    (otherNoRest : container.construct ≠ .enumBodyDeclarations)
    (first : member ∈ body.members) (second : member ∈ container.members) : body = container := by
  have inside : ∀ {outer part : Phrase}, outer ∈ root.all → part ∈ outer.parts → part ∈ root.all :=
    fun inRoot isPart => mem_all_trans inRoot (mem_all_of_part isPart)
  rcases mem_members first with first | ⟨rest, isPart, isRest, first⟩ <;>
    rcases mem_members second with second | ⟨rest', isPart', isRest', second⟩
  · exact parent_unique unit.numbered inRoot otherInRoot first second
  · obtain rfl := parent_unique unit.numbered inRoot (inside otherInRoot isPart') first second
    exact absurd isRest' noRest
  · obtain rfl := parent_unique unit.numbered (inside inRoot isPart) otherInRoot first second
    exact absurd isRest otherNoRest
  · obtain rfl := parent_unique unit.numbered (inside inRoot isPart) (inside otherInRoot isPart')
      first second
    exact parent_unique unit.numbered inRoot otherInRoot isPart isPart'

/-- A declaration belongs to one member only. -/
theorem declaration_unique (inRoot : member ∈ root.all) (otherInRoot : other ∈ root.all)
    (first : phrase ∈ member.declarations) (second : phrase ∈ other.declarations) :
    member = other := by
  rcases mem_declarations (unit.shaped _ inRoot) first with ⟨rfl, notVariable⟩ | ⟨isPart, isVariable⟩
    <;> rcases mem_declarations (unit.shaped _ otherInRoot) second with
      ⟨same, notVariable'⟩ | ⟨isPart', isVariable'⟩
  · exact same
  · exact absurd isVariable' notVariable
  · exact absurd isVariable notVariable'
  · exact parent_unique unit.numbered inRoot otherInRoot isPart isPart'

end Unique

end Phrase

end JavaInspect.Java
