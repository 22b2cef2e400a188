import JavaInspect.Proofs.Java.Filling

/-!
# What a record declares by itself

A record has a field and an accessor for each of its components, and a constructor that takes
them all unless one with as many parameters was declared.
-/

namespace JavaInspect

namespace Table

/-- A method without parameters that has the name of a field and answers its type. -/
def IsAccessor (table : Table) (owner field accessor : BindingId) : Prop :=
  table.entry accessor =
    { kind := .method
      name := (table.entry field).name
      qualifiedName := (table.entry field).name
      owner := some owner
      declaredType := (table.entry field).declaredType }

/-- A constructor that takes the fields of its type. -/
def IsCanonical (table : Table) (owner : BindingId) (fields : List BindingId)
    (constructor : BindingId) : Prop :=
  ∃ parameters : List BindingId,
    parameters.map some = fields.map (fun field => (table.entry field).declaredType) ∧
    table.entry constructor =
      { kind := .method
        name := (table.entry owner).name
        qualifiedName := (table.entry owner).name
        owner := some owner
        parameters
        isConstructor := true }

/-- What a record with the given fields and declared constructors has besides: an accessor for
each field, and a constructor for all of them exactly when no declared one accepts as many
arguments. -/
def Completes (table : Table) (owner : BindingId) (fields constructors implicit : List BindingId) :
    Prop :=
  ∃ accessors canonical, implicit = accessors ++ canonical ∧
    List.Forall₂ (table.IsAccessor owner) fields accessors ∧
    ((canonical = [] ∧ ∃ constructor ∈ constructors,
        (table.entry constructor).accepts fields.length) ∨
      ((∃ constructor, canonical = [constructor] ∧ table.IsCanonical owner fields constructor) ∧
        ∀ constructor ∈ constructors, ¬ (table.entry constructor).accepts fields.length))

variable {table later : Table} {owner : BindingId} {fields constructors implicit : List BindingId}

theorem IsAccessor.congr {field accessor : BindingId} (isAccessor : table.IsAccessor owner field accessor)
    (sameField : later.entry field = table.entry field)
    (sameAccessor : later.entry accessor = table.entry accessor) :
    later.IsAccessor owner field accessor := by
  rw [IsAccessor, sameField, sameAccessor]
  exact isAccessor

theorem exists_field {accessors : List BindingId} {accessor : BindingId}
    (areAccessors : List.Forall₂ (table.IsAccessor owner) fields accessors)
    (isAccessor : accessor ∈ accessors) : ∃ field ∈ fields, table.IsAccessor owner field accessor := by
  induction areAccessors with
  | nil => cases isAccessor
  | cons entryEq _ ih =>
      rcases List.mem_cons.1 isAccessor with rfl | later
      · exact ⟨_, List.mem_cons_self, entryEq⟩
      · rcases ih later with ⟨field, isField, entryEq⟩
        exact ⟨field, List.mem_cons_of_mem _ isField, entryEq⟩

/-- All that a record declares by itself are methods. -/
theorem Completes.kind_eq (completes : table.Completes owner fields constructors implicit)
    {member : BindingId} (isImplicit : member ∈ implicit) : (table.entry member).kind = .method := by
  rcases completes with ⟨accessors, canonical, rfl, areAccessors, rest⟩
  rcases List.mem_append.1 isImplicit with isAccessor | isCanonical
  · rcases exists_field areAccessors isAccessor with ⟨field, -, entryEq⟩
    exact congrArg Entry.kind entryEq
  · rcases rest with ⟨rfl, -⟩ | ⟨⟨constructor, rfl, parameters, -, entryEq⟩, -⟩
    · cases isCanonical
    · obtain rfl := List.mem_singleton.1 isCanonical
      exact congrArg Entry.kind entryEq

theorem Completes.congr (completes : table.Completes owner fields constructors implicit)
    (sameOwner : (later.entry owner).name = (table.entry owner).name)
    (sameFields : ∀ field ∈ fields, later.entry field = table.entry field)
    (sameImplicit : ∀ member ∈ implicit, later.entry member = table.entry member)
    (sameConstructors : ∀ constructor ∈ constructors,
      later.entry constructor = table.entry constructor) :
    later.Completes owner fields constructors implicit := by
  rcases completes with ⟨accessors, canonical, rfl, areAccessors, rest⟩
  have accepts : ∀ constructor ∈ constructors, (later.entry constructor).accepts fields.length =
      (table.entry constructor).accepts fields.length :=
    fun constructor isListed => by rw [sameConstructors constructor isListed]
  refine ⟨accessors, canonical, rfl, ?_, ?_⟩
  · rw [List.forall₂_iff_zip] at areAccessors ⊢
    refine ⟨areAccessors.1, fun {field accessor} isPair => ?_⟩
    have inLists := List.of_mem_zip isPair
    exact (areAccessors.2 isPair).congr (sameFields field inLists.1)
      (sameImplicit accessor (List.mem_append_left _ inLists.2))
  · refine rest.imp ?_ ?_
    · rintro ⟨isEmpty, constructor, isListed, isAccepted⟩
      exact ⟨isEmpty, constructor, isListed, (accepts constructor isListed).trans isAccepted⟩
    · rintro ⟨⟨constructor, rfl, parameters, areFields, isEntry⟩, noneAccepts⟩
      refine ⟨⟨constructor, rfl, parameters, ?_, ?_⟩, ?_⟩
      · rw [areFields]
        exact List.map_congr_left fun field isField => by rw [sameFields field isField]
      · rw [sameImplicit constructor (by simp), isEntry, sameOwner]
      · intro constructor isListed
        rw [accepts constructor isListed]
        exact noneAccepts constructor isListed

end Table

namespace Java

open Phrase

variable {root component : Phrase} {base : Nat} {owner : BindingId} {source : Source}
  {before middle after : Lowering} {components others : List Phrase} {componentTypes : List BindingId}

/-- A record lists a field and an accessor for each of some components. -/
structure AddsComponents (owner : BindingId) (components : List Phrase) (componentTypes : List BindingId)
    (before after : Lowering) : Prop extends Declares components (· = owner) before after where
  added : ∃ fields accessors,
    (after.table.entry owner).members.Perm
      ((before.table.entry owner).members ++ (fields ++ accessors)) ∧
    components.map (fun component => after.declared.lookup component.number) = fields.map some ∧
    List.Forall₂ (after.table.IsAccessor owner) fields accessors ∧
    fields.map (fun field => (after.table.entry field).declaredType) = componentTypes.map some ∧
    ∀ member ∈ fields ++ accessors,
      before.table.size ≤ member.index ∧ member.index < after.table.size

namespace AddsComponents

theorem nil (typed : before.table.Typed) : AddsComponents owner [] [] before before where
  toDeclares := .refl typed
  added := ⟨[], [], by simp, rfl, .nil, rfl, by simp⟩

theorem append {laterTypes : List BindingId}
    (first : AddsComponents owner components componentTypes before middle)
    (second : AddsComponents owner others laterTypes middle after)
    (numbered : ((components ++ others).map (·.number)).Nodup)
    (inTable : owner.index < before.table.size) :
    AddsComponents owner (components ++ others) (componentTypes ++ laterTypes) before after where
  toDeclares := first.andThen second.toDeclares fun _ _ => id
  added := by
    rcases first.added with ⟨fields, accessors, listed, declared, areAccessors, declaredTypes, new⟩
    rcases second.added with
      ⟨fields', accessors', listed', declared', areAccessors', declaredTypes', new'⟩
    -- The members that came first are not looked at again.
    have same : ∀ member ∈ fields ++ accessors,
        after.table.entry member = middle.table.entry member := by
      intro member isMember
      refine second.grows.same member (new member isMember).2 ?_
      rintro rfl
      exact Nat.not_lt.2 (new _ isMember).1 inTable
    refine ⟨fields ++ fields', accessors ++ accessors', ?_, ?_, ?_, ?_, ?_⟩
    · refine listed'.trans ((listed.append_right _).trans ?_)
      rw [List.append_assoc]
      refine List.Perm.append_left _ ?_
      rw [List.append_assoc, List.append_assoc]
      refine List.Perm.append_left _ ?_
      rw [← List.append_assoc, ← List.append_assoc]
      exact List.perm_append_comm.append_right _
    · rw [List.map_append, List.map_append, declared', ← declared]
      congr 1
      refine List.map_congr_left fun component isComponent => second.lookup_eq fun isNumber => ?_
      rw [List.map_append, List.nodup_append] at numbered
      exact numbered.2.2 _ (List.mem_map_of_mem isComponent) _ isNumber rfl
    · refine List.rel_append ?_ areAccessors'
      rw [List.forall₂_iff_zip] at areAccessors ⊢
      refine ⟨areAccessors.1, fun {field accessor} isPair => ?_⟩
      have inLists := List.of_mem_zip isPair
      exact (areAccessors.2 isPair).congr (same field (List.mem_append_left _ inLists.1))
        (same accessor (List.mem_append_right _ inLists.2))
    · rw [List.map_append, List.map_append, declaredTypes', ← declaredTypes]
      congr 1
      exact List.map_congr_left fun field isField => by
        rw [same field (List.mem_append_left _ isField)]
    · intro member isMember
      simp only [List.mem_append] at isMember new new'
      rcases isMember with (isMember | isMember) | (isMember | isMember)
      · exact ⟨(new member (.inl isMember)).1, second.grows.lt (new member (.inl isMember)).2⟩
      · exact ⟨Nat.le_trans first.grows.size_le (new' member (.inl isMember)).1,
          (new' member (.inl isMember)).2⟩
      · exact ⟨(new member (.inr isMember)).1, second.grows.lt (new member (.inr isMember)).2⟩
      · exact ⟨Nat.le_trans first.grows.size_le (new' member (.inr isMember)).1,
          (new' member (.inr isMember)).2⟩

theorem afterTouches (touches : Touches owner before middle)
    (adds : AddsComponents owner components componentTypes middle after) :
    AddsComponents owner components componentTypes before after where
  toDeclares := (touches.declares []).andThen adds.toDeclares fun _ _ => id
  added := by
    rcases adds.added with ⟨fields, accessors, listed, declared, areAccessors, declaredTypes, new⟩
    refine ⟨fields, accessors, touches.members ▸ listed, declared, areAccessors, declaredTypes,
      fun member isMember => ⟨Nat.le_trans touches.grows.size_le (new member isMember).1,
        (new member isMember).2⟩⟩

/-- A component is declared as a field, and its accessor as a method. -/
theorem single {name : String} {type field accessor : BindingId} {table later : Table}
    (isVariable : component.construct.declares? = some .variable)
    (noConstructor : component.construct.isConstructor = false)
    (inTable : owner.index < before.table.size)
    (isField : Table.AddsMember owner
      { kind := .variable, name, qualifiedName := name, owner := some owner,
        declaredType := some type } before.table (field, table))
    (fieldTypes : table.types = before.table.types)
    (isAccessor : Table.AddsMember owner
      { kind := .method, name, qualifiedName := name, owner := some owner, parameters := [],
        declaredType := some type } table (accessor, later))
    (accessorTypes : later.types = table.types) :
    AddsComponents owner [component] [type] before
      { before with table := later, declared := (component.number, field) :: before.declared } := by
  have fieldHolds := isField.holds
  have fieldEntry : later.entry field = _ :=
    (isAccessor.grows.same field fieldHolds.1 <| by
      rintro rfl
      obtain rfl : field = ⟨before.table.size⟩ := isField.isNew
      exact Nat.lt_irrefl _ inTable).trans isField.entry
  have accessorEntry : later.entry accessor = _ := isAccessor.entry
  have listedField : (table.entry owner).members = (before.table.entry owner).members ++ [field] :=
    congrArg Entry.members isField.ownerEntry
  have listedAccessor : (later.entry owner).members = (table.entry owner).members ++ [accessor] :=
    congrArg Entry.members isAccessor.ownerEntry
  refine ⟨⟨⟨_, _, rfl⟩, isAccessor.typed, accessorTypes.trans fieldTypes,
    isField.grows.trans isAccessor.grows, [(component.number, field)], rfl, ?_⟩,
    [field], [accessor], ?_, ?_, ?_, ?_, ?_⟩
  · intro entry isEntry
    obtain rfl := List.mem_singleton.1 isEntry
    refine ⟨component, List.mem_singleton_self _, rfl, isAccessor.grows.lt fieldHolds.1, ?_, ?_⟩
    · rw [fieldEntry, isVariable]
    · rw [fieldEntry, noConstructor]
  · rw [listedAccessor, listedField, List.append_assoc]
  · simp
  · refine .cons ?_ .nil
    rw [Table.IsAccessor, fieldEntry, accessorEntry]
  · rw [List.map_singleton, fieldEntry]
    rfl
  · have sizes : table.size = before.table.size + 1 := isField.size
    have laterSizes : later.size = table.size + 1 := isAccessor.size
    have fieldIndex : field = ⟨before.table.size⟩ := isField.isNew
    have accessorIndex : accessor = ⟨table.size⟩ := isAccessor.isNew
    intro member isMember
    simp only [List.singleton_append, List.mem_cons, List.not_mem_nil, or_false] at isMember
    rcases isMember with rfl | rfl
    · rw [fieldIndex]
      dsimp only
      omega
    · rw [accessorIndex]
      dsimp only
      omega

end AddsComponents

namespace Lower

theorem addsComponents_linkComponents {declaration : Phrase}
    (isRecord : declaration.construct = .recordDeclaration)
    (numbered : declaration.numbers.Nodup) (readable : before.Readable)
    (inTable : owner.index < before.table.size) :
    Ensures (linkComponents source declaration owner) before fun componentTypes =>
      AddsComponents owner declaration.components componentTypes before := by
  have listNumbered : ((((declaration.part? .parameters).map namedParts).getD []).map
      (·.number)).Nodup := by
    cases found : declaration.part? .parameters with
    | none => simp
    | some list =>
        exact ((List.filter_sublist.trans sublist_allOf).map _).nodup
          (numbered_parts (numbered_of_mem numbered (mem_all_of_part (mem_parts_of_slot found))))
  unfold linkComponents components
  rw [if_pos isRecord]
  generalize ((declaration.part? .parameters).map namedParts).getD [] = items at listNumbered
  refine (Ensures.filterMapM (fun rest found middle => ∃ done, items = done ++ rest ∧
    AddsComponents owner (done.filter (·.parameterName?.isSome)) found before middle) ?_ ?_).imp ?_
  case refine_1 => exact ⟨[], rfl, .nil readable.typed⟩
  case refine_3 =>
    rintro found after ⟨done, isAll, adds⟩
    rw [List.append_nil] at isAll
    exact isAll ▸ adds
  case refine_2 =>
    rintro component rest found middle ⟨done, split, adds⟩
    have middleInTable := adds.grows.lt inTable
    refine (isParameter_parameterParts (adds.readable readable) component).bind
      fun parts later ⟨widens, isName, isType⟩ => ?_
    have laterReadable := widens.readable (adds.readable readable)
    have stays : owner.index < later.table.size := by
      rcases widens with ⟨table, rfl, widens⟩
      exact widens.grows.lt middleInTable
    have numbered : ((done ++ [component]).map (·.number)).Nodup := by
      rw [split] at listNumbered
      exact List.Nodup.sublist (List.Sublist.map _ (by simp)) listNumbered
    cases parts with
    | none =>
        have noName : component.parameterName?.isSome = false := by rw [← isName]; rfl
        have numberedDone : ((done.filter (·.parameterName?.isSome)).map (·.number)).Nodup :=
          List.Nodup.sublist (List.Sublist.map _
            (List.filter_sublist.trans (List.sublist_append_left _ _))) numbered
        refine .pure ⟨done ++ [component], by simp [split], ?_⟩
        simpa [noName] using
          adds.append (.afterTouches (.widens middleInTable widens) (.nil laterReadable.typed))
          (by simpa using numberedDone) inTable
    | some parts =>
        rcases parts with ⟨name, type, varargs⟩
        have hasName : component.parameterName?.isSome := by rw [← isName]; rfl
        rcases declares_of_parameterName hasName with ⟨isVariable, noConstructor⟩
        have isField := laterReadable.typed.addsMember_declareField (source.textOf name) stays
          (isType _ _ _ rfl)
        have isAccessor := isField.typed.addsMember_declareMethod (source.textOf name) []
          (some type) (isField.grows.lt stays) <| by
            rintro _ ⟨⟩
            exact isField.grows.holds (isType _ _ _ rfl)
        have kept : (done ++ [component]).filter (·.parameterName?.isSome) =
            done.filter (·.parameterName?.isSome) ++ [component] := by simp [hasName]
        have single := AddsComponents.afterTouches (.widens middleInTable widens)
          (.single isVariable noConstructor stays isField rfl isAccessor rfl)
        have numberedKept : ((done.filter (·.parameterName?.isSome) ++ [component]).map
            (·.number)).Nodup :=
          kept ▸ List.Nodup.sublist (List.Sublist.map _ List.filter_sublist) numbered
        refine .step (.step (.step (.pure ⟨done ++ [component], by simp [split], ?_⟩)))
        rw [kept]
        exact adds.append single numberedKept inTable

end Lower

end Java

end JavaInspect
