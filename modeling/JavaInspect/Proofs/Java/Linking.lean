import JavaInspect.Proofs.Java.Records

/-!
# Linking the types of a body

The second pass completes the types of a body one after the other. A type that shares its
binding with no other ends up with exactly the members of its body, the fields of its
components, and what a record declares by itself.
-/

namespace JavaInspect.Java

open Phrase

variable {root declaration phrase : Phrase} {base : Nat} {owner : Option BindingId}
  {before middle after : Lowering} {source : Source} {members rest phrases : List Phrase}
  {table later : Table} {declared declaredLater : Declared}

/-! ## What is known about declared phrases -/

/-- Whatever a phrase was declared with is of the kind that it declares. -/
def AllFit (root : Phrase) (table : Table) (declared : Declared) : Prop :=
  ∀ phrase ∈ root.all, ∀ binding, declared.lookup phrase.number = some binding →
    Fits table phrase binding

/-- All members of a type so far are the types in its body. -/
def Bare (table : Table) (declared : Declared) (declaration : Phrase) : Prop :=
  ∀ type, declared.lookup declaration.number = some type →
    (table.entry type).members.map some = (declaration.bodyMembers.filter (·.declaresType)).map
      fun member => declared.lookup member.number

/-- The constructors that a type declares. -/
def constructorsOf (declared : Declared) (declaration : Phrase) : List BindingId :=
  ((declaration.bodyMembers.flatMap declarations).filter (·.construct.isConstructor)).filterMap
    fun constructor => declared.lookup constructor.number

/-- The members of a type are those of its body, the fields of its components, and what a
record declares by itself. -/
def Filled (table : Table) (declared : Declared) (declaration : Phrase) : Prop :=
  ∀ type, declared.lookup declaration.number = some type → ∃ fields implicit,
    declaration.components.map (fun component => declared.lookup component.number) =
      fields.map some ∧
    ((table.entry type).members.map some).Perm
      ((declaration.bodyMembers.flatMap declarations).map
        (fun phrase => declared.lookup phrase.number) ++ (fields ++ implicit).map some) ∧
    if declaration.construct = .recordDeclaration then
      table.Completes type fields (constructorsOf declared declaration) implicit
    else implicit = []

theorem AllFit.isType (fit : AllFit root table declared) (inRoot : declaration ∈ root.all)
    (isType : declaration.declaresType)
    (found : declared.lookup declaration.number = some type) : table.Holds .type type := by
  have fits := fit declaration inRoot type found
  refine ⟨fits.inTable, ?_⟩
  have kind := fits.kind
  rw [declaresType_iff.1 isType] at kind
  exact (Option.some.inj kind).symm

/-- Later declarations of other phrases leave a type as bare as it was. -/
theorem Bare.congr (bare : Bare table declared declaration)
    (sameLookup : ∀ phrase ∈ declaration :: declaration.own,
      declaredLater.lookup phrase.number = declared.lookup phrase.number)
    (sameEntry : ∀ type, declared.lookup declaration.number = some type →
      later.entry type = table.entry type) : Bare later declaredLater declaration := by
  intro type found
  rw [sameLookup declaration List.mem_cons_self] at found
  rw [sameEntry type found, bare type found]
  refine List.map_congr_left fun member isMember => (sameLookup member ?_).symm
  rcases List.mem_filter.1 isMember with ⟨isMember, isType⟩
  exact List.mem_cons_of_mem _ (own_of_typeMember isMember isType)

theorem mem_constructorsOf {constructor : BindingId} :
    constructor ∈ constructorsOf declared declaration ↔
      ∃ phrase ∈ declaration.bodyMembers.flatMap declarations,
        phrase.construct.isConstructor ∧ declared.lookup phrase.number = some constructor := by
  simp only [constructorsOf, List.mem_filterMap, List.mem_filter, and_assoc]

theorem constructorsOf_congr (sameLookup : ∀ phrase ∈ declaration.own,
      declaredLater.lookup phrase.number = declared.lookup phrase.number) :
    constructorsOf declaredLater declaration = constructorsOf declared declaration := by
  refine List.filterMap_congr fun constructor isConstructor => sameLookup constructor ?_
  exact List.mem_append_right _ (List.mem_of_mem_filter isConstructor)

/-- Later declarations of other phrases leave a type as filled as it was. -/
theorem Filled.congr (filled : Filled table declared declaration)
    (fit : AllFit root table declared) (inRoot : declaration ∈ root.all)
    (shaped : ∀ inner ∈ declaration.all, inner.Shaped)
    (sameLookup : ∀ phrase ∈ declaration :: declaration.own,
      declaredLater.lookup phrase.number = declared.lookup phrase.number)
    (sameEntry : ∀ type, declared.lookup declaration.number = some type →
      later.entry type = table.entry type)
    (sameValues : ∀ binding, (table.entry binding).kind ≠ .type →
      later.entry binding = table.entry binding) :
    Filled later declaredLater declaration := by
  intro type found
  rw [sameLookup declaration List.mem_cons_self] at found
  have sameOwn : ∀ phrase ∈ declaration.own,
      declaredLater.lookup phrase.number = declared.lookup phrase.number :=
    fun phrase isOwn => sameLookup phrase (List.mem_cons_of_mem _ isOwn)
  rcases filled type found with ⟨fields, implicit, areFields, listed, completes⟩
  refine ⟨fields, implicit, ?_, ?_, ?_⟩
  · rw [← areFields]
    exact List.map_congr_left fun component isComponent =>
      sameOwn component (List.mem_append_left _ isComponent)
  · rw [sameEntry type found]
    refine listed.trans (List.Perm.of_eq ?_)
    congr 1
    exact List.map_congr_left fun phrase isDeclared =>
      (sameOwn phrase (List.mem_append_right _ isDeclared)).symm
  · split
    case isFalse noRecord => simpa [noRecord] using completes
    case isTrue isRecord =>
      rw [if_pos isRecord] at completes
      rw [constructorsOf_congr sameOwn]
      refine completes.congr (congrArg Entry.name (sameEntry type found)) ?_ ?_ ?_
      · intro field isField
        have isDeclared : some field ∈ declaration.components.map
            fun component => declared.lookup component.number :=
          areFields ▸ List.mem_map_of_mem isField
        rcases List.mem_map.1 isDeclared with ⟨component, isComponent, isFieldOf⟩
        have inside := mem_all_of_component isComponent
        have kind := (fit component (mem_all_trans inRoot inside) field isFieldOf).kind
        rcases mem_components isComponent with ⟨-, hasName, -⟩
        rw [(declares_of_parameterName hasName).1] at kind
        refine sameValues field ?_
        rw [← Option.some.inj kind]
        nofun
      · intro member isImplicit
        refine sameValues member ?_
        rw [completes.kind_eq isImplicit]
        nofun
      · intro constructor isConstructor
        refine sameValues constructor ?_
        rcases mem_constructorsOf.1 isConstructor with ⟨phrase, isDeclared, isOne, found⟩
        have inside := mem_all_of_own shaped (List.mem_append_right _ isDeclared)
        have kind := (fit phrase (mem_all_trans inRoot inside) constructor found).kind
        rw [Construct.declares?_of_isConstructor isOne] at kind
        rw [← Option.some.inj kind]
        nofun

namespace Declares

variable {changed : BindingId → Prop}

theorem allFit (declares : Declares phrases changed before after) (numbered : root.numbers.Nodup)
    (inRoot : ∀ phrase ∈ phrases, phrase ∈ root.all)
    (fit : AllFit root before.table before.declared) :
    AllFit root after.table after.declared := by
  intro phrase phraseInRoot binding found
  rcases declares.declared with ⟨new, isNew, fits⟩
  rcases Declared.lookup_append_cases (isNew ▸ found) with isNew | old
  · rcases fits _ isNew with ⟨other, isOther, same, fitsOther⟩
    exact eq_of_number_eq numbered (inRoot other isOther) phraseInRoot same ▸ fitsOther
  · exact (fit phrase phraseInRoot binding old).grows declares.grows

theorem typeLog_eq (declares : Declares phrases changed before after)
    (numbered : root.numbers.Nodup) (inRoot : ∀ phrase ∈ phrases, phrase ∈ root.all)
    (noTypes : ∀ phrase ∈ phrases, ¬ phrase.declaresType) :
    typeLog root after.declared = typeLog root before.declared := by
  rcases declares.declared with ⟨new, isNew, fits⟩
  rw [isNew, typeLog_append, typeLog_of_values, List.nil_append]
  intro entry isEntry isNumber
  rcases fits entry isEntry with ⟨phrase, isPhrase, same, -⟩
  rw [← same] at isNumber
  exact noTypes phrase isPhrase
    (declaresType_of_mem_typeNumbers numbered (inRoot phrase isPhrase) isNumber)

theorem unmixed_iff (declares : Declares phrases changed before after)
    (numbered : root.numbers.Nodup) (inRoot : ∀ phrase ∈ phrases, phrase ∈ root.all)
    (noTypes : ∀ phrase ∈ phrases, ¬ phrase.declaresType) :
    Unmixed root base after.declared ↔ Unmixed root base before.declared := by
  have same := declares.typeLog_eq numbered inRoot noTypes
  constructor
  · exact fun unmixed => ⟨same ▸ unmixed.nodup, same ▸ unmixed.isNew⟩
  · exact fun unmixed => ⟨same ▸ unmixed.nodup, same ▸ unmixed.isNew⟩

/-- No type is declared anew when other phrases are. -/
theorem lookup_type (declares : Declares phrases changed before after)
    (numbered : root.numbers.Nodup) (inRoot : ∀ phrase ∈ phrases, phrase ∈ root.all)
    (noTypes : ∀ phrase ∈ phrases, ¬ phrase.declaresType) (isInRoot : declaration ∈ root.all)
    (isType : declaration.declaresType) :
    after.declared.lookup declaration.number = before.declared.lookup declaration.number := by
  refine declares.lookup_eq fun isNumber => ?_
  rcases List.mem_map.1 isNumber with ⟨phrase, isPhrase, same⟩
  exact noTypes phrase isPhrase
    (eq_of_number_eq numbered (inRoot phrase isPhrase) isInRoot same ▸ isType)

theorem entry_eq (declares : Declares phrases changed before after)
    (inTable : type.index < before.table.size) (unchanged : ¬ changed type) :
    after.table.entry type = before.table.entry type :=
  declares.grows.same type inTable unchanged

theorem bare (declares : Declares phrases changed before after)
    (apart : ∀ phrase ∈ declaration :: declaration.own, phrase.number ∉ phrases.map (·.number))
    (inTable : ∀ type, before.declared.lookup declaration.number = some type →
      type.index < before.table.size ∧ ¬ changed type)
    (bare : Bare before.table before.declared declaration) :
    Bare after.table after.declared declaration :=
  bare.congr (fun phrase isOwn => declares.lookup_eq (apart phrase isOwn))
    fun type found => declares.entry_eq (inTable type found).1 (inTable type found).2

theorem filled (declares : Declares phrases changed before after)
    (fit : AllFit root before.table before.declared) (inRoot : declaration ∈ root.all)
    (shaped : ∀ inner ∈ declaration.all, inner.Shaped)
    (onlyTypes : ∀ binding, changed binding → (before.table.entry binding).kind = .type)
    (apart : ∀ phrase ∈ declaration :: declaration.own, phrase.number ∉ phrases.map (·.number))
    (inTable : ∀ type, before.declared.lookup declaration.number = some type →
      type.index < before.table.size ∧ ¬ changed type)
    (filled : Filled before.table before.declared declaration) :
    Filled after.table after.declared declaration := by
  refine filled.congr fit inRoot shaped (fun phrase isOwn => declares.lookup_eq (apart phrase isOwn))
    (fun type found => declares.entry_eq (inTable type found).1 (inTable type found).2) ?_
  intro binding noType
  refine declares.entry_eq ?_ fun isChanged => noType (onlyTypes binding isChanged)
  by_contra outside
  rw [Table.entry_of_outside outside] at noType
  exact noType rfl

end Declares

/-! ## The members of a body -/

/-- What a type may have changed when members of its body are linked. -/
def MayChange (declared : Declared) (owner : Option BindingId) (members : List Phrase)
    (binding : BindingId) : Prop :=
  owner = some binding ∨ ∃ phrase ∈ members.flatMap types, declared.lookup phrase.number = some binding

/-- The owner of a body shares its binding with no type in the body. -/
def Aside (declared : Declared) (owner : Option BindingId) (members : List Phrase) : Prop :=
  ∀ phrase ∈ members.flatMap types, ∀ type, declared.lookup phrase.number = some type →
    owner ≠ some type

/-- Members of a body have been linked. The owner of the body, if it has one, lists what they
declare besides types, and the types among them are filled, where no two types share a binding. -/
structure LinksMembers (root : Phrase) (base : Nat) (owner : Option BindingId) (members : List Phrase)
    (before after : Lowering) : Prop where
  declares : Declares (members.flatMap linked) (MayChange before.declared owner members) before after
  listed : Unmixed root base before.declared → Aside before.declared owner members →
    ∀ type, owner = some type →
      (after.table.entry type).members.map some = (before.table.entry type).members.map some ++
        (members.flatMap values).map fun phrase => after.declared.lookup phrase.number
  filled : Unmixed root base before.declared → Aside before.declared owner members →
      (∀ phrase ∈ members.flatMap types, Bare before.table before.declared phrase) →
        ∀ phrase ∈ members.flatMap types, Filled after.table after.declared phrase

namespace LinksMembers

theorem nil (typed : before.table.Typed) : LinksMembers root base owner [] before before where
  declares := .refl typed
  listed _ _ := by simp
  filled := by simp

/-- A member that is no type. -/
theorem value {member : Phrase} {type : BindingId} (noType : ¬ member.declaresType)
    (fills : Fills type member.values before after) :
    LinksMembers root base (some type) [member] before after where
  declares := by
    refine fills.imp ?_ fun _ _ same => .inl (congrArg some same.symm)
    simp [linked]
  listed := by
    rintro - - _ ⟨⟩
    simpa using fills.members
  filled := by simp [types_eq_nil noType]

end LinksMembers

/-- A declared type has been linked, and the types in its body. -/
structure LinksType (root : Phrase) (base : Nat) (declaration : Phrase) (before after : Lowering) :
    Prop where
  declares : Declares (declaration.types.flatMap ownValues)
    (fun binding => ∃ phrase ∈ declaration.types,
      before.declared.lookup phrase.number = some binding) before after
  filled : Unmixed root base before.declared →
    (∀ phrase ∈ declaration.types, Bare before.table before.declared phrase) →
      ∀ phrase ∈ declaration.types, Filled after.table after.declared phrase

namespace LinksMembers

/-- What is linked with a class in scope. -/
theorem dropClass {scope : ClassScope} (links : LinksMembers root base owner members
    { before with classes := scope :: before.classes } after) :
    LinksMembers root base owner members before { after with classes := after.classes.tail } where
  declares := {
    state := by
      rcases links.declares.state with ⟨_, _, rfl⟩
      exact ⟨_, _, rfl⟩
    typed := links.declares.typed
    types := links.declares.types
    grows := links.declares.grows
    declared := links.declares.declared }
  listed := links.listed
  filled := links.filled

/-- A member that declares nothing. -/
theorem none {member : Phrase} (typed : before.table.Typed) (noType : ¬ member.declaresType)
    (noValues : owner.isSome → member.values = []) :
    LinksMembers root base owner [member] before before where
  declares := .refl typed
  listed := by
    rintro - - _ rfl
    simp [noValues]
  filled := by simp [types_eq_nil noType]

/-- A member that is a type. -/
theorem type {member : Phrase} (isType : member.declaresType)
    (inTable : ∀ type, owner = some type → type.index < before.table.size)
    (links : LinksType root base member before after) :
    LinksMembers root base owner [member] before after where
  declares := by
    refine links.declares.imp ?_ fun _ _ found => .inr ?_
    · simp [linked]
    · simpa using found
  listed _ aside type isOwner := by
    rw [links.declares.entry_eq (inTable type isOwner), List.flatMap_singleton, values_eq_nil isType]
    · simp
    · rintro ⟨phrase, isIn, found⟩
      exact aside phrase (by simpa using isIn) type found isOwner
  filled unmixed _ bare := by
    simpa using links.filled unmixed (by simpa using bare)

variable (unit : root.Grammatical)
include unit

theorem linked_inRoot (inRoot : ∀ member ∈ members, member ∈ root.all) :
    ∀ phrase ∈ members.flatMap linked, phrase ∈ root.all := fun _ isLinked =>
  mem_all_of_mem_allOf inRoot (mem_allOf_of_linked unit inRoot isLinked).1

theorem unmixed_iff (links : LinksMembers root base owner members before after)
    (inRoot : ∀ member ∈ members, member ∈ root.all) :
    Unmixed root base after.declared ↔ Unmixed root base before.declared :=
  links.declares.unmixed_iff unit.numbered (linked_inRoot unit inRoot)
    fun _ isLinked => (mem_allOf_of_linked unit inRoot isLinked).2

theorem lookup_type (links : LinksMembers root base owner members before after)
    (inRoot : ∀ member ∈ members, member ∈ root.all) (isInRoot : declaration ∈ root.all)
    (isType : declaration.declaresType) :
    after.declared.lookup declaration.number = before.declared.lookup declaration.number :=
  links.declares.lookup_type unit.numbered (linked_inRoot unit inRoot)
    (fun _ isLinked => (mem_allOf_of_linked unit inRoot isLinked).2) isInRoot isType

theorem append (first : LinksMembers root base owner members before middle)
    (second : LinksMembers root base owner rest middle after)
    (inRoot : ∀ member ∈ members ++ rest, member ∈ root.all)
    (numbered : (numbersOf (members ++ rest)).Nodup)
    (fit : AllFit root before.table before.declared)
    (isType : ∀ type, owner = some type → before.table.Holds .type type) :
    LinksMembers root base owner (members ++ rest) before after := by
  have firstInRoot : ∀ member ∈ members, member ∈ root.all :=
    fun member isMember => inRoot member (List.mem_append_left _ isMember)
  have restInRoot : ∀ member ∈ rest, member ∈ root.all :=
    fun member isMember => inRoot member (List.mem_append_right _ isMember)
  have firstLinked := fun phrase isLinked => @mem_allOf_of_linked _ phrase unit _ firstInRoot isLinked
  have linkedInRoot : ∀ phrase ∈ members.flatMap linked, phrase ∈ root.all :=
    fun phrase isLinked => mem_all_of_mem_allOf firstInRoot (firstLinked phrase isLinked).1
  have noTypes : ∀ phrase ∈ members.flatMap linked, ¬ phrase.declaresType :=
    fun phrase isLinked => (firstLinked phrase isLinked).2
  have apartFirst : ∀ {inner : Phrase}, inner ∈ allOf rest →
      inner.number ∉ (members.flatMap linked).map (·.number) := by
    intro inner inRest isNumber
    rcases List.mem_map.1 isNumber with ⟨other, isOther, same⟩
    exact number_ne_of_append numbered (firstLinked other isOther).1 inRest same
  have apartRest : ∀ {inner : Phrase}, inner ∈ allOf members →
      inner.number ∉ (rest.flatMap linked).map (·.number) := by
    intro inner inFirst isNumber
    rcases List.mem_map.1 isNumber with ⟨other, isOther, same⟩
    exact number_ne_of_append numbered inFirst (mem_allOf_of_linked unit restInRoot isOther).1
      same.symm
  -- What the types are bound to does not change, and types of different members share nothing.
  have sameType : ∀ {phrase : Phrase}, phrase ∈ rest.flatMap types ∨ phrase ∈ members.flatMap types →
      middle.declared.lookup phrase.number = before.declared.lookup phrase.number := by
    intro phrase isIn
    refine first.declares.lookup_type unit.numbered linkedInRoot noTypes ?_
      (isIn.elim declaresType_of_flatMap declaresType_of_flatMap)
    exact isIn.elim (fun isIn => mem_all_of_mem_allOf restInRoot (mem_allOf_of_types isIn mem_all_self))
      fun isIn => mem_all_of_mem_allOf firstInRoot (mem_allOf_of_types isIn mem_all_self)
  have notShared : Unmixed root base before.declared → ∀ {sooner later : Phrase},
      sooner ∈ members.flatMap types → later ∈ rest.flatMap types → ∀ {type : BindingId},
        before.declared.lookup sooner.number = some type →
          before.declared.lookup later.number ≠ some type := by
    intro unmixed sooner later isSooner isLater type found foundLater
    have inFirst := mem_allOf_of_types isSooner mem_all_self
    have inRest := mem_allOf_of_types isLater mem_all_self
    have same := unmixed.type_unique unit.numbered (mem_all_of_mem_allOf firstInRoot inFirst)
      (declaresType_of_flatMap isSooner) (mem_all_of_mem_allOf restInRoot inRest)
      (declaresType_of_flatMap isLater) found foundLater
    exact number_ne_of_append numbered inFirst inRest (congrArg number same)
  have middleFit := first.declares.allFit unit.numbered linkedInRoot fit
  have middleUnmixed : Unmixed root base before.declared → Unmixed root base middle.declared :=
    (first.declares.unmixed_iff unit.numbered linkedInRoot noTypes).2
  constructor
  case declares =>
    have sooner : Declares (members.flatMap linked) (MayChange before.declared owner (members ++ rest))
        before middle := by
      refine first.declares.imp (List.Subset.refl _) ?_
      rintro binding - (isOwner | ⟨phrase, isIn, found⟩)
      · exact .inl isOwner
      · exact .inr ⟨phrase, by simp [isIn], found⟩
    have both := sooner.andThen second.declares ?_
    · exact both.imp (by simp) fun _ _ => id
    · rintro binding - (isOwner | ⟨phrase, isIn, found⟩)
      · exact .inl isOwner
      · exact .inr ⟨phrase, by simp [isIn], sameType (.inl isIn) ▸ found⟩
  case listed =>
    intro unmixed aside type isOwner
    have firstListed := first.listed unmixed (fun phrase isIn => aside phrase (by simp [isIn])) type
      isOwner
    have restListed := second.listed (middleUnmixed unmixed) (fun phrase isIn => by
      rw [sameType (.inl isIn)]
      exact aside phrase (by simp [isIn])) type isOwner
    rw [restListed, firstListed, List.flatMap_append, List.map_append, List.append_assoc]
    congr 2
    refine List.map_congr_left fun phrase isValue => (second.declares.lookup_eq (apartRest ?_)).symm
    refine (mem_allOf_of_linked unit firstInRoot ?_).1
    rcases List.mem_flatMap.1 isValue with ⟨member, isMember, isValue⟩
    exact List.mem_flatMap.2 ⟨member, isMember, List.mem_append_left _ isValue⟩
  case filled =>
    intro unmixed aside bare phrase isIn
    rw [List.flatMap_append, List.mem_append] at isIn
    rcases isIn with isSooner | isLater
    · have phraseInRoot := mem_all_of_mem_allOf firstInRoot (mem_allOf_of_types isSooner mem_all_self)
      have phraseIsType := declaresType_of_flatMap isSooner
      refine second.declares.filled middleFit phraseInRoot
        (fun inner inside => unit.shaped inner (mem_all_trans phraseInRoot inside)) ?_
        (fun inner isOwn => apartRest (mem_allOf_of_own unit firstInRoot isSooner isOwn)) ?_
        (first.filled unmixed (fun phrase isIn => aside phrase (by simp [isIn]))
          (fun phrase isIn => bare phrase (by simp [isIn])) phrase isSooner)
      · rintro binding (isOwner | ⟨other, isOther, found⟩)
        · exact (first.declares.grows.holds (isType binding isOwner)).2
        · exact (middleFit.isType (mem_all_of_mem_allOf restInRoot
            (mem_allOf_of_types isOther mem_all_self)) (declaresType_of_flatMap isOther) found).2
      · intro type found
        refine ⟨(middleFit phrase phraseInRoot type found).inTable, ?_⟩
        rw [sameType (.inr isSooner)] at found
        rintro (isOwner | ⟨other, isOther, foundOther⟩)
        · exact aside phrase (by simp [isSooner]) type found isOwner
        · exact notShared unmixed isSooner isOther found (sameType (.inl isOther) ▸ foundOther)
    · refine second.filled (middleUnmixed unmixed) (fun other isOther => ?_)
        (fun other isOther => ?_) phrase isLater
      · rw [sameType (.inl isOther)]
        exact aside other (by simp [isOther])
      · refine first.declares.bare
          (fun inner isOwn => apartFirst (mem_allOf_of_own unit restInRoot isOther isOwn)) ?_
          (bare other (by simp [isOther]))
        intro type found
        have otherInRoot := mem_all_of_mem_allOf restInRoot (mem_allOf_of_types isOther mem_all_self)
        refine ⟨(fit other otherInRoot type found).inTable, ?_⟩
        rintro (isOwner | ⟨sooner, isSooner, foundSooner⟩)
        · exact aside other (by simp [isOther]) type found isOwner
        · exact notShared unmixed isSooner isOther foundSooner found

end LinksMembers

end JavaInspect.Java
