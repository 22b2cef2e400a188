import JavaInspect.Proofs.Java.Declaring

/-!
# Declaring the members of a type

The second pass gives a type its supertypes, its annotations and its members. Each member that
is no type gets a new binding, which the type lists last.
-/

namespace JavaInspect.Java

open Phrase

variable {root declaration phrase : Phrase} {base : Nat} {owner target binding type : BindingId}
  {before middle after : Lowering} {source : Source} {phrases others : List Phrase}

/-- A binding of the kind that a phrase declares. -/
structure Fits (table : Table) (phrase : Phrase) (binding : BindingId) : Prop where
  inTable : binding.index < table.size
  kind : phrase.construct.declares? = some (table.entry binding).kind
  isConstructor : (table.entry binding).isConstructor = phrase.construct.isConstructor

theorem Fits.grows {before after : Table} {changed : BindingId → Prop}
    (fits : Fits before phrase binding) (grows : before.Grows changed after) :
    Fits after phrase binding where
  inTable := grows.lt fits.inTable
  kind := by rw [grows.kind binding fits.inTable, fits.kind]
  isConstructor := by rw [grows.isConstructor binding fits.inTable, fits.isConstructor]

/-- Phrases have been declared; of the bindings that were there only some have changed. -/
structure Declares (phrases : List Phrase) (changed : BindingId → Prop)
    (before after : Lowering) : Prop where
  state : ∃ table declared, after = { before with table, declared }
  typed : after.table.Typed
  types : after.table.types = before.table.types
  grows : before.table.Grows changed after.table
  declared : ∃ new : Declared, after.declared = new ++ before.declared ∧
    ∀ entry ∈ new, ∃ phrase ∈ phrases, phrase.number = entry.1 ∧ Fits after.table phrase entry.2

namespace Declares

variable {changed changed' : BindingId → Prop} {number : Nat}

theorem widens (widens : before.Widens after) : Declares phrases changed before after := by
  rcases widens with ⟨table, rfl, widens⟩
  exact ⟨⟨_, _, rfl⟩, widens.typed, widens.types, widens.grows.none, [], rfl, by simp⟩

theorem refl (typed : before.table.Typed) : Declares phrases changed before before :=
  .widens ⟨before.table, rfl, .refl typed⟩

theorem andThen (first : Declares phrases changed before middle)
    (second : Declares others changed' middle after)
    (implies : ∀ binding, binding.index < before.table.size → changed' binding → changed binding) :
    Declares (phrases ++ others) changed before after where
  state := by
    rcases first.state with ⟨_, _, rfl⟩
    rcases second.state with ⟨_, _, rfl⟩
    exact ⟨_, _, rfl⟩
  typed := second.typed
  types := second.types.trans first.types
  grows := first.grows.andThen second.grows implies
  declared := by
    rcases first.declared with ⟨new, isNew, fits⟩
    rcases second.declared with ⟨newer, isNewer, fitsNewer⟩
    refine ⟨newer ++ new, by rw [isNewer, isNew, List.append_assoc], fun entry isEntry => ?_⟩
    rcases List.mem_append.1 isEntry with later | sooner
    · rcases fitsNewer entry later with ⟨phrase, isPhrase, same, fits⟩
      exact ⟨phrase, List.mem_append_right _ isPhrase, same, fits⟩
    · rcases fits entry sooner with ⟨phrase, isPhrase, same, fits⟩
      exact ⟨phrase, List.mem_append_left _ isPhrase, same, fits.grows second.grows⟩

theorem imp (declares : Declares phrases changed before after) (subset : phrases ⊆ others)
    (implies : ∀ binding, binding.index < before.table.size → changed binding → changed' binding) :
    Declares others changed' before after where
  state := declares.state
  typed := declares.typed
  types := declares.types
  grows := declares.grows.imp implies
  declared := by
    rcases declares.declared with ⟨new, isNew, fits⟩
    refine ⟨new, isNew, fun entry isEntry => ?_⟩
    rcases fits entry isEntry with ⟨phrase, isPhrase, rest⟩
    exact ⟨phrase, subset isPhrase, rest⟩

/-- What was declared for other phrases stays declared for them. -/
theorem lookup_eq (declares : Declares phrases changed before after)
    (apart : number ∉ phrases.map (·.number)) :
    after.declared.lookup number = before.declared.lookup number := by
  rcases declares.declared with ⟨new, isNew, fits⟩
  rw [isNew, Declared.lookup_append_of_not_mem]
  intro isNumber
  rcases List.mem_map.1 isNumber with ⟨entry, isEntry, rfl⟩
  rcases fits entry isEntry with ⟨phrase, isPhrase, same, -⟩
  exact apart (same ▸ List.mem_map_of_mem isPhrase)

theorem readable (declares : Declares phrases changed before after) (readable : before.Readable) :
    after.Readable := by
  refine ⟨declares.typed, fun entry isLocal => declares.grows.holds (readable.localTypes entry ?_)⟩
  rcases declares.state with ⟨_, _, rfl⟩
  exact isLocal

end Declares

/-! ## Supertypes and annotations -/

/-- Nothing has been declared, and the entry that may have changed has kept its members. -/
structure Touches (target : BindingId) (before after : Lowering) : Prop where
  state : ∃ table, after = { before with table }
  typed : after.table.Typed
  types : after.table.types = before.table.types
  grows : before.table.Grows (· = target) after.table
  members : (after.table.entry target).members = (before.table.entry target).members

namespace Touches

theorem widens (inTable : target.index < before.table.size) (widens : before.Widens after) :
    Touches target before after := by
  rcases widens with ⟨table, rfl, widens⟩
  exact ⟨⟨_, rfl⟩, widens.typed, widens.types, widens.grows.none,
    congrArg Entry.members (widens.grows.same target inTable id)⟩

theorem refl (typed : before.table.Typed) : Touches target before before :=
  ⟨⟨_, rfl⟩, typed, rfl, .refl, rfl⟩

theorem trans (first : Touches target before middle) (second : Touches target middle after) :
    Touches target before after where
  state := by
    rcases first.state with ⟨_, rfl⟩
    rcases second.state with ⟨_, rfl⟩
    exact ⟨_, rfl⟩
  typed := second.typed
  types := second.types.trans first.types
  grows := first.grows.trans second.grows
  members := second.members.trans first.members

theorem readable (touches : Touches target before after) (readable : before.Readable) :
    after.Readable := by
  refine ⟨touches.typed, fun entry isLocal => touches.grows.holds (readable.localTypes entry ?_)⟩
  rcases touches.state with ⟨_, rfl⟩
  exact isLocal

theorem declares (touches : Touches target before after) (phrases : List Phrase) :
    Declares phrases (· = target) before after where
  state := by
    rcases touches.state with ⟨_, rfl⟩
    exact ⟨_, _, rfl⟩
  typed := touches.typed
  types := touches.types
  grows := touches.grows
  declared := by
    rcases touches.state with ⟨_, rfl⟩
    exact ⟨[], rfl, by simp⟩

/-- Changes of an entry that leave its members alone. -/
theorem modify {change : Entry → Entry} (typed : (before.table.modify target change).Typed)
    (sameSettled : ∀ entry, (change entry).settled = entry.settled)
    (sameMembers : ∀ entry, (change entry).members = entry.members) :
    Touches target before { before with table := before.table.modify target change } where
  state := ⟨_, rfl⟩
  typed := typed
  types := rfl
  grows := Table.grows_modify sameSettled sameMembers
  members := Table.proj_entry_modify Entry.members sameMembers

end Touches

namespace Lower

theorem Ensures.inClass {Answer : Type} {scope : ClassScope} {action : Lower Answer}
    {claim : Answer → Lowering → Prop}
    (inside : Ensures action { before with classes := scope :: before.classes }
      fun answer after => claim answer { after with classes := after.classes.tail }) :
    Ensures (inClass scope action) before claim :=
  inside

theorem Ensures.withTypeParameters {Answer : Type} {names : List String} {action : Lower Answer}
    {claim : Answer → Lowering → Prop}
    (inside : Ensures action
      { before with methodTypeParameters := names :: before.methodTypeParameters }
      fun answer after => claim answer
        { after with methodTypeParameters := after.methodTypeParameters.tail }) :
    Ensures (withTypeParameters names action) before claim :=
  inside

theorem touches_linkSuperclass {kind : TypeKind} (readable : before.Readable)
    (inTable : target.index < before.table.size) :
    Ensures (linkSuperclass source declaration kind target) before fun _ =>
      Touches target before := by
  have linked : ∀ type middle, before.Refers type middle →
      Ensures (updateTable (·.setSuperclass target type)) middle fun _ => Touches target before := by
    intro type middle refers
    have first := Touches.widens inTable refers.1
    exact first.trans (.modify (first.typed.setSuperclass refers.2) (fun _ => rfl) fun _ => rfl)
  unfold linkSuperclass
  split
  case h_1 => exact (refers_resolveType readable _).bind linked
  case h_2 =>
    refine .step ?_
    dsimp only
    split
    case h_1 name _ => exact (refers_bind (readable.typed.refers_typeReference name)).bind linked
    case h_2 => exact .refl readable.typed

theorem touches_linkInterfaces (readable : before.Readable)
    (inTable : target.index < before.table.size) :
    Ensures (linkInterfaces source declaration target) before fun _ => Touches target before := by
  refine .forM (fun _ => Touches target before) (.refl readable.typed) ?_
  intro written rest middle touches
  have stays := touches.grows.lt inTable
  refine (refers_resolveType (touches.readable readable) written).bind fun type later refers => ?_
  have resolved := touches.trans (.widens stays refers.1)
  exact resolved.trans (.modify resolved.typed.addInterface (fun _ => rfl) fun _ => rfl)

theorem touches_linkAnnotations (readable : before.Readable)
    (inTable : target.index < before.table.size) :
    Ensures (linkAnnotations source declaration target) before fun _ => Touches target before := by
  refine .forM (fun _ => Touches target before) (.refl readable.typed) ?_
  intro use rest middle touches
  have stays := touches.grows.lt inTable
  split
  case h_1 =>
    refine (refers_resolveTypeName (touches.readable readable) _).bind fun type later refers => ?_
    have resolved := touches.trans (.widens stays refers.1)
    exact resolved.trans (.modify resolved.typed.annotate (fun _ => rfl) fun _ => rfl)
  case h_2 => exact touches

end Lower

/-! ## Members -/

/-- A type lists what has been declared last among its members. -/
structure Fills (owner : BindingId) (phrases : List Phrase) (before after : Lowering) : Prop
    extends Declares phrases (· = owner) before after where
  members : (after.table.entry owner).members.map some =
    (before.table.entry owner).members.map some ++
      phrases.map fun phrase => after.declared.lookup phrase.number

namespace Fills

theorem touches (touches : Touches owner before after) : Fills owner [] before after where
  toDeclares := touches.declares []
  members := by rw [touches.members]; simp

theorem afterTouches (touches : Touches owner before middle)
    (fills : Fills owner phrases middle after) : Fills owner phrases before after where
  toDeclares := (touches.declares []).andThen fills.toDeclares fun _ _ => id
  members := by rw [fills.members, touches.members]

theorem append (first : Fills owner phrases before middle) (second : Fills owner others middle after)
    (numbered : ((phrases ++ others).map (·.number)).Nodup) :
    Fills owner (phrases ++ others) before after where
  toDeclares := first.andThen second.toDeclares fun _ _ => id
  members := by
    rw [second.members, first.members, List.map_append, List.append_assoc]
    congr 2
    refine List.map_congr_left fun phrase isPhrase => (second.lookup_eq ?_).symm
    rw [List.map_append, List.nodup_append] at numbered
    exact fun isNumber => numbered.2.2 _ (List.mem_map_of_mem isPhrase) _ isNumber rfl

/-- What is declared with type parameters in scope. -/
theorem dropTypeParameters {names : List String} (fills : Fills owner phrases
    { before with methodTypeParameters := names :: before.methodTypeParameters } after) :
    Fills owner phrases before
      { after with methodTypeParameters := after.methodTypeParameters.tail } where
  state := by
    rcases fills.state with ⟨_, _, rfl⟩
    exact ⟨_, _, rfl⟩
  typed := fills.typed
  types := fills.types
  grows := fills.grows
  declared := fills.declared
  members := fills.members

/-- A new member, and what became of its entry before it was declared for its phrase. -/
theorem single {entry : Entry} {table : Table}
    (added : Table.AddsMember owner entry before.table (binding, table))
    (types : table.types = before.table.types)
    (kind : phrase.construct.declares? = some entry.kind)
    (isConstructor : entry.isConstructor = phrase.construct.isConstructor)
    (inTable : owner.index < before.table.size)
    (touches : Touches binding { before with table } middle) :
    Fills owner [phrase] before
      { middle with declared := (phrase.number, binding) :: middle.declared } := by
  obtain rfl : binding = ⟨before.table.size⟩ := added.isNew
  rcases touches.state with ⟨later, rfl⟩
  have newEntry : table.entry ⟨before.table.size⟩ = entry := added.entry
  have holds := added.holds
  have ownerEntry : later.entry owner = table.entry owner := by
    refine touches.grows.same owner (added.grows.lt inTable) ?_
    rintro rfl
    exact Nat.lt_irrefl _ inTable
  have listed : (table.entry owner).members = (before.table.entry owner).members ++
      [⟨before.table.size⟩] := congrArg Entry.members added.ownerEntry
  refine ⟨⟨⟨_, _, rfl⟩, touches.typed, touches.types.trans types, ?_, ?_⟩, ?_⟩
  · refine added.grows.andThen touches.grows fun other old isNew => ?_
    obtain rfl : other = ⟨before.table.size⟩ := isNew
    exact absurd old (Nat.lt_irrefl _)
  · refine ⟨[(phrase.number, ⟨before.table.size⟩)], rfl, ?_⟩
    rintro _ isEntry
    obtain rfl := List.mem_singleton.1 isEntry
    refine ⟨phrase, List.mem_singleton_self _, rfl, ?_⟩
    refine (⟨holds.1, ?_, ?_⟩ : Fits table phrase _).grows touches.grows
    · rw [newEntry, kind]
    · rw [newEntry, isConstructor]
  · change (later.entry owner).members.map some = _
    rw [ownerEntry, listed]
    simp

end Fills

namespace Lower

/-- Annotating a new member and declaring it for its phrase. -/
theorem ends_linkAnnotations (readable : before.Readable)
    (inTable : binding.index < before.table.size) :
    Ensures (do
      linkAnnotations source declaration binding
      declare phrase binding) before fun _ after => ∃ middle, Touches binding before middle ∧
        after = { middle with declared := (phrase.number, binding) :: middle.declared } :=
  (touches_linkAnnotations readable inTable).bind fun _ middle touches => ⟨middle, touches, rfl⟩

/-- Saying of a new method whether it takes any number of arguments, and annotating it. -/
theorem ends_flagged {varargs : Bool} (readable : before.Readable)
    (inTable : binding.index < before.table.size) :
    Ensures (do
      updateTable (·.setVarargs binding varargs)
      linkAnnotations source declaration binding
      declare phrase binding) before fun _ after => ∃ middle, Touches binding before middle ∧
        after = { middle with declared := (phrase.number, binding) :: middle.declared } := by
  have flagged : Touches binding before
      { before with table := before.table.setVarargs binding varargs } :=
    .modify readable.typed.setVarargs (fun _ => rfl) fun _ => rfl
  refine .step ?_
  refine (ends_linkAnnotations (flagged.readable readable) (flagged.grows.lt inTable)).imp
    fun _ after => ?_
  rintro ⟨middle, touches, rfl⟩
  exact ⟨middle, flagged.trans touches, rfl⟩

theorem fills_withTypeParameters {names : List String} {action : Lower Unit}
    (readable : before.Readable) (inTable : owner.index < before.table.size)
    (inside : ∀ inner : Lowering, inner.Readable → owner.index < inner.table.size →
      Ensures action inner fun _ => Fills owner phrases inner) :
    Ensures (withTypeParameters names action) before fun _ => Fills owner phrases before := by
  have inner := inside
    { before with methodTypeParameters := names :: before.methodTypeParameters }
    ⟨readable.typed, readable.localTypes⟩ inTable
  exact .withTypeParameters (inner.imp fun _ _ => Fills.dropTypeParameters)

/-- Declaring a member and completing its entry. -/
theorem fills_declareMember {entry : Entry} {call : Table → BindingId × Table}
    {rest : BindingId → Lower Unit} (readable : before.Readable)
    (inTable : owner.index < before.table.size)
    (added : Table.AddsMember owner entry before.table (call before.table))
    (types : (call before.table).2.types = before.table.types)
    (kind : phrase.construct.declares? = some entry.kind)
    (isConstructor : entry.isConstructor = phrase.construct.isConstructor)
    (ends : ∀ binding middle, middle.Readable → binding.index < middle.table.size →
      Ensures (rest binding) middle fun _ after => ∃ later, Touches binding middle later ∧
        after = { later with declared := (phrase.number, binding) :: later.declared }) :
    Ensures (bind call >>= rest) before fun _ => Fills owner [phrase] before := by
  have stays : { before with table := (call before.table).2 }.Readable :=
    ⟨added.typed, fun entry isLocal => added.grows.holds (readable.localTypes entry isLocal)⟩
  refine .step ?_
  refine (ends _ _ stays added.holds.1).imp fun _ after => ?_
  rintro ⟨later, touches, rfl⟩
  exact .single added types kind isConstructor inTable touches

theorem fills_linkFields (unit : root.Grammatical) (inRoot : declaration ∈ root.all)
    (readable : before.Readable) (inTable : owner.index < before.table.size) :
    Ensures (linkFields source declaration owner) before fun _ =>
      Fills owner (declaration.partsIn .declarator) before := by
  have shaped := unit.shaped declaration inRoot
  have numbered : ((declaration.partsIn .declarator).map (·.number)).Nodup :=
    ((List.filter_sublist.trans sublist_allOf).map _).nodup
      (numbered_parts (numbered_of_mem unit.numbered inRoot))
  refine (refers_resolveTypeOrRoot readable _).bind fun base middle ⟨widens, isType⟩ => ?_
  refine (Ensures.forM (fun rest later => ∃ done,
    declaration.partsIn .declarator = done ++ rest ∧ Fills owner done before later ∧
      later.table.Holds .type base) ?_ ?_).imp ?_
  case refine_1 => exact ⟨[], rfl, .touches (.widens inTable widens), isType⟩
  case refine_3 =>
    rintro _ after ⟨done, isAll, fills, -⟩
    rw [List.append_nil] at isAll
    exact isAll ▸ fills
  case refine_2 =>
    rintro declarator rest later ⟨done, split, fills, isType⟩
    have isListed : declarator ∈ declaration.partsIn .declarator := by
      rw [split]
      simp
    have isDeclarator := shaped.declarators declarator isListed
    have declaratorInRoot := mem_all_trans inRoot (mem_all_of_part (mem_parts_of_partsIn isListed))
    obtain ⟨name, isName⟩ := Option.isSome_iff_exists.1
      ((unit.shaped declarator declaratorInRoot).named (by rw [isDeclarator]; rfl))
    rw [isName]
    have laterReadable := fills.readable readable
    have laterInTable := fills.grows.lt inTable
    refine (refers_declaratorType laterReadable isType declarator).bind
      fun type typedState ⟨widens, isFieldType⟩ => ?_
    have typeReadable := widens.readable laterReadable
    have resolved : Touches owner later typedState := .widens laterInTable widens
    have stays := resolved.grows.lt laterInTable
    refine (fills_declareMember typeReadable stays
      (typeReadable.typed.addsMember_declareField _ stays isFieldType) rfl (by rw [isDeclarator]; rfl)
      (by rw [isDeclarator]; rfl) fun _ _ => ends_linkAnnotations).imp fun _ after single => ?_
    refine ⟨done ++ [declarator], by simp [split], fills.append (single.afterTouches resolved) ?_,
      single.grows.holds (widens.holds isType)⟩
    rw [split] at numbered
    exact List.Nodup.sublist (List.Sublist.map _ (by simp)) numbered

theorem fills_linkMethod (unit : root.Grammatical) (inRoot : declaration ∈ root.all)
    (isMethod : declaration.construct = .methodDeclaration ∨
      declaration.construct = .annotationElementDeclaration)
    (readable : before.Readable) (inTable : owner.index < before.table.size) :
    Ensures (linkMethod source declaration owner) before fun _ =>
      Fills owner [declaration] before := by
  obtain ⟨name, isName⟩ := Option.isSome_iff_exists.1
    ((unit.shaped declaration inRoot).named (by rcases isMethod with is | is <;> rw [is] <;> rfl))
  unfold linkMethod
  rw [isName]
  refine fills_withTypeParameters readable inTable fun inner innerReadable inInner => ?_
  refine (widens_parameterTypes innerReadable _).bind fun parameters middle widens => ?_
  have middleReadable := widens.readable innerReadable
  -- The result type comes after the parameters, whichever way it is given.
  have ends : ∀ {base : Lower BindingId}, Ensures base middle middle.Refers →
      Ensures (base >>= fun base => do
        let result ← declaratorType source declaration base
        let method ← bind (·.declareMethod owner (source.textOf name) parameters.1 (some result))
        updateTable (·.setVarargs method parameters.2)
        linkAnnotations source declaration method
        declare declaration method) middle fun _ => Fills owner [declaration] inner := by
    intro base refers
    refine refers.bind fun base later ⟨laterWidens, isType⟩ => ?_
    refine (refers_declaratorType (laterWidens.readable middleReadable) isType declaration).bind
      fun result last ⟨lastWidens, isResult⟩ => ?_
    have allWidens := (widens.trans laterWidens).trans lastWidens
    have lastReadable := allWidens.readable innerReadable
    have resolved : Touches owner inner last := .widens inInner allWidens
    have stays := resolved.grows.lt inInner
    have added := lastReadable.typed.addsMember_declareMethod (source.textOf name) parameters.1
      (some result) stays <| by
        rintro _ ⟨⟩
        exact isResult
    refine (fills_declareMember lastReadable stays added rfl ?_ ?_ ?_).imp
      fun _ _ => .afterTouches resolved
    · rcases isMethod with is | is <;> rw [is] <;> rfl
    · rcases isMethod with is | is <;> rw [is] <;> rfl
    · exact fun _ _ => ends_flagged
  dsimp only
  split
  case h_1 => exact ends (refers_resolveType middleReadable _)
  case h_2 => exact ends (refers_bind (middleReadable.typed.refers_primitive _))

theorem fills_linkConstructor (isConstructor : declaration.construct = .constructorDeclaration)
    (readable : before.Readable) (inTable : owner.index < before.table.size) :
    Ensures (linkConstructor source declaration owner) before fun _ =>
      Fills owner [declaration] before := by
  refine fills_withTypeParameters readable inTable fun inner innerReadable inInner => ?_
  refine (widens_parameterTypes innerReadable _).bind fun parameters middle widens => ?_
  have middleReadable := widens.readable innerReadable
  have resolved : Touches owner inner middle := .widens inInner widens
  have stays := resolved.grows.lt inInner
  exact (fills_declareMember middleReadable stays
    (middleReadable.typed.addsMember_declareConstructor _ stays) rfl (by rw [isConstructor]; rfl)
    (by rw [isConstructor]; rfl) fun _ _ => ends_flagged).imp fun _ _ => .afterTouches resolved

theorem fills_linkCompactConstructor
    (isConstructor : declaration.construct = .compactConstructorDeclaration)
    (readable : before.Readable) (inTable : owner.index < before.table.size)
    (components : List BindingId) :
    Ensures (linkCompactConstructor source declaration owner components) before fun _ =>
      Fills owner [declaration] before :=
  fills_declareMember readable inTable (readable.typed.addsMember_declareConstructor _ inTable) rfl
    (by rw [isConstructor]; rfl) (by rw [isConstructor]; rfl) fun _ _ => ends_linkAnnotations

theorem fills_linkConstant (unit : root.Grammatical) (inRoot : declaration ∈ root.all)
    (isConstant : declaration.construct = .enumConstant) (readable : before.Readable)
    (isType : before.table.Holds .type owner) :
    Ensures (linkConstant source declaration owner) before fun _ =>
      Fills owner [declaration] before := by
  obtain ⟨name, isName⟩ := Option.isSome_iff_exists.1
    ((unit.shaped declaration inRoot).named (by rw [isConstant]; rfl))
  unfold linkConstant
  rw [isName]
  exact fills_declareMember readable isType.1
    (readable.typed.addsMember_declareField _ isType.1 isType) rfl (by rw [isConstant]; rfl)
    (by rw [isConstant]; rfl) fun _ _ => ends_linkAnnotations

end Lower

end JavaInspect.Java
