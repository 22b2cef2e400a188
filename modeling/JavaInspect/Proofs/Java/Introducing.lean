import JavaInspect.Java.Lowering.Declarations
import JavaInspect.Proofs.Java.Separation

/-!
# Types that are met inside bodies

Local and anonymous classes are declared and linked when they are met, after all types around
them. What the table knew before stays as it was, and the table stays consistent.
-/

namespace JavaInspect.Java

open Phrase

variable {root declaration phrase body : Phrase} {base : Nat} {outer : Option BindingId}
  {type owner : BindingId} {before first middle after : Lowering} {members : List Phrase}
  {new : Declared} {source : Source}

/-- Members have been declared and linked, besides types that were there before. -/
structure Introduces (root : Phrase) (base : Nat) (members : List Phrase)
    (before after : Lowering) : Prop where
  state : ∃ table declared localTypes, after = { before with table, declared, localTypes }
  consistent : Consistent root base after.table after.declared
  localTypes : ∀ entry ∈ after.localTypes, after.table.Holds .type entry.2
  grows : before.table.Grows (fun _ => ¬ Unmixed root base after.declared) after.table
  declared : ∃ new : Declared, after.declared = new ++ before.declared ∧
    ∀ entry ∈ new, entry.1 ∈ numbersOf members
  logged : typeLog root after.declared =
    (typesOf after.declared members).reverse ++ typeLog root before.declared
  allDeclared : AllDeclared after.declared (members.flatMap types)
  separates : Separates root before after

/-- Members that no declared type holds are introduced, below an owner that is new or without
one. -/
theorem Introduces.of_linked (unit : root.Grammatical)
    (inRoot : ∀ member ∈ members, member ∈ root.all) (numbered : (numbersOf members).Nodup)
    (opens : ∃ table localTypes, first = { before with table, localTypes })
    (grows : before.table.Grows (fun _ => False) first.table)
    (consistent : Consistent root base first.table first.declared)
    (readable : before.Readable)
    (localTypes : ∀ entry ∈ first.localTypes, entry ∈ before.localTypes ∨
      after.table.Holds .type entry.2)
    (declares : DeclaresTypes root base outer members new first middle)
    (links : LinksMembers root base outer members middle after)
    (isType : ∀ type, outer = some type → first.table.Holds .type type)
    (isNew : ∀ type, outer = some type → before.table.size ≤ type.index)
    (foreign : ∀ phrase ∈ root.all, phrase.declaresType →
      (before.declared.lookup phrase.number).isSome → ∀ member ∈ members,
        member ∉ phrase.bodyMembers)
    (fit : AllFit root before.table before.declared) (separates : Separates root before middle) :
    Introduces root base members before after := by
  have sameDeclared : first.declared = before.declared := by
    rcases opens with ⟨_, _, rfl⟩
    rfl
  have linkedGrows := grows_linked unit inRoot declares links
  have allGrows : before.table.Grows (fun _ => ¬ Unmixed root base after.declared) after.table := by
    refine grows.none.andThen linkedGrows fun binding old changed => changed.resolve_left ?_
    exact fun isOuter => Nat.not_lt.2 (isNew binding isOuter) old
  have isConsistent : Consistent root base after.table after.declared := by
    refine consistent.linked unit inRoot declares links isType ?_ ?_
    · intro phrase phraseInRoot _ type found isOuter
      rw [sameDeclared] at found
      exact Nat.not_lt.2 (isNew type isOuter) (fit phrase phraseInRoot type found).inTable
    · rw [sameDeclared]
      exact foreign
  have numbers : ∃ new : Declared, after.declared = new ++ before.declared ∧
      ∀ entry ∈ new, entry.1 ∈ numbersOf members := by
    rcases links.declares.declared with ⟨newer, isNewer, fits⟩
    refine ⟨newer ++ new, by rw [isNewer, declares.declared, sameDeclared, List.append_assoc], ?_⟩
    intro entry isEntry
    rcases List.mem_append.1 isEntry with later | sooner
    · rcases fits entry later with ⟨phrase, isPhrase, same, -⟩
      exact same ▸ List.mem_map_of_mem (mem_allOf_of_linked unit inRoot isPhrase).1
    · exact declares.mem_numbersOf (List.mem_map_of_mem sooner)
  have sameLocals : after.localTypes = first.localTypes := by
    rcases links.declares.state with ⟨_, _, rfl⟩
    rcases declares.state with ⟨_, _, rfl⟩
    rfl
  refine ⟨?_, isConsistent, ?_, allGrows, numbers, ?_, links.declares.allDeclared declares.allDeclared,
    separates.trans (.of_links unit inRoot links)⟩
  · rcases opens with ⟨_, _, rfl⟩
    rcases declares.state with ⟨_, _, rfl⟩
    rcases links.declares.state with ⟨_, _, rfl⟩
    exact ⟨_, _, _, rfl⟩
  · rw [sameLocals]
    intro entry isEntry
    exact (localTypes entry isEntry).elim (fun old => allGrows.holds (readable.localTypes entry old)) id
  · rw [← sameDeclared]
    exact typeLog_linked unit inRoot numbered declares links

namespace Lower

theorem widens_currentOwner (readable : before.Readable) :
    Ensures (currentOwner source) before fun _ after => before.Widens after := by
  refine .get ?_
  split
  · exact .refl readable
  · exact .refl readable
  · exact ⟨_, rfl, readable.typed.widens_package _⟩

/-- Linking a type comes after the types in its body were declared, if there is a body. -/
theorem introduces_bound (unit : root.Grammatical) {name : String} {table later : Table}
    (inRoot : declaration ∈ root.all) (isType : declaration.declaresType)
    (readable : before.Readable) (consistent : Consistent root base before.table before.declared)
    (isNew : before.declared.lookup declaration.number = none)
    (widens : before.table.Widens table) (added : Table.AddsType none table (type, later))
    (sameTypes : later.types = table.types) :
    Ensures (do
      if let some body := declaration.part? .body then
        declareTypes source body.height body (some type)
      linkType source declaration.height declaration type
      return type)
      { before with
        table := later
        localTypes := (name, type) :: before.localTypes
        declared := (declaration.number, type) :: before.declared }
      fun type after => Introduces root base [declaration] before after ∧
        after.declared.lookup declaration.number = some type ∧
          before.table.size ≤ type.index ∧
            after.localTypes = (name, type) :: before.localTypes := by
  have numbered := numbered_of_mem unit.numbered inRoot
  have openedConsistent := consistent.grows unit widens.typed widens.types widens.grows.none
  have inBody : ∀ member ∈ [declaration], member ∈ root.all := by simpa using inRoot
  have numberedBody : (numbersOf [declaration]).Nodup := by simpa using numbered
  generalize isFirst : { before with table, localTypes := (name, type) :: before.localTypes } = first
  have ends : ∀ new middle, DeclaresTypes root base (some type) declaration.bodyMembers new
      { first with table := later, declared := (declaration.number, type) :: before.declared } middle →
      (∀ entry ∈ new, entry.2 ∈ middle.table.named) →
      Ensures (do
        linkType source declaration.height declaration type
        return type) middle fun type after => Introduces root base [declaration] before after ∧
          after.declared.lookup declaration.number = some type ∧
            before.table.size ≤ type.index ∧
              after.localTypes = (name, type) :: before.localTypes := by
    intro new middle inner allListed
    subst isFirst
    have declares := DeclaresTypes.single inRoot numbered isType openedConsistent.typed
      openedConsistent.registered (fun _ isOuter => by cases isOuter) (.inr added) inner
    have found : middle.declared.lookup declaration.number = some type := by
      rw [inner.declared, Declared.lookup_append_of_not_mem]
      · simp
      · exact fun isNumber => number_not_mem_parts numbered
          ((allOf_bodyMembers_sublist.map (·.number)).subset (inner.mem_numbersOf isNumber))
    have isLocal : middle.localTypes = (name, type) :: before.localTypes := by
      rcases declares.state with ⟨_, _, rfl⟩
      rfl
    have middleReadable : middle.Readable := by
      refine ⟨declares.typed, fun entry isEntry => ?_⟩
      rw [isLocal] at isEntry
      rcases List.mem_cons.1 isEntry with rfl | old
      · exact declares.isType _ (List.mem_append_right _ (List.mem_singleton_self _))
      · exact declares.grows.holds (widens.grows.holds (readable.localTypes entry old))
    have allDeclared : AllDeclared middle.declared declaration.types := by
      simpa using declares.allDeclared
    have fit := declares.allFit unit.numbered inBody openedConsistent.fit
    have linkedType : Ensures (linkType source declaration.height declaration type) middle
        fun _ => LinksType root base declaration middle :=
      linksType_linkType unit inRoot isType (Nat.le_refl _) middleReadable fit allDeclared found
    refine linkedType.bind fun _ after linksType => .pure ?_
    have links : LinksMembers root base none [declaration] middle after :=
      .type isType (fun _ isOuter => by cases isOuter) linksType
    refine ⟨.of_linked unit inBody numberedBody ⟨_, _, rfl⟩ widens.grows openedConsistent readable ?_
      declares links (fun _ isOuter => by cases isOuter) (fun _ isOuter => by cases isOuter) ?_
      consistent.fit ?_, ?_, Nat.le_trans widens.grows.size_le added.isNew, ?_⟩
    · intro entry isEntry
      rcases List.mem_cons.1 isEntry with rfl | old
      · exact .inr (links.declares.grows.holds
          (declares.isType _ (List.mem_append_right _ (List.mem_singleton_self _))))
      · exact .inl old
    · intro phrase phraseInRoot phraseIsType isDeclared member isMember isBodyMember
      obtain rfl := List.mem_singleton.1 isMember
      have nested := consistent.nested phrase phraseInRoot phraseIsType isDeclared member
      rw [isNew] at nested
      refine absurd (nested ?_) (by simp)
      rw [types_eq_cons phraseIsType]
      exact List.mem_cons_of_mem _ (List.mem_flatMap.2 ⟨member, isBodyMember, mem_types_self isType⟩)
    · refine .trans (.of_local ?_ (sameTypes.trans widens.types) ?_ added.isType.1 _)
        (.of_declares inner allListed)
      · exact Nat.le_trans widens.grows.size_le added.grows.size_le
      · exact Nat.le_trans widens.grows.size_le added.isNew
    · rw [links.lookup_type unit inBody inRoot isType, found]
    · rcases links.declares.state with ⟨_, _, rfl⟩
      exact isLocal
  have registered : Registered root base later ((declaration.number, type) :: before.declared) :=
    openedConsistent.registered.names inRoot isType (.inr added)
  have below : ∀ member ∈ declaration.bodyMembers, member ∈ root.all :=
    fun member isMember => mem_all_trans inRoot (mem_all_of_bodyMember isMember)
  have numberedBelow : (numbersOf declaration.bodyMembers).Nodup :=
    (allOf_bodyMembers_sublist.map _).nodup (numbered_parts numbered)
  unfold bodyMembers at ends below numberedBelow
  dsimp only
  split
  case h_1 body isBody =>
    rw [isBody] at ends below numberedBelow
    refine (declaresTypes_declareTypes unit below numberedBelow
      (fun member isMember => Nat.le_of_lt (height_lt_of_member isMember)) added.typed registered ?_).bind
        ?_
    · rintro _ ⟨⟩
      exact added.isType.1
    · rintro _ middle ⟨new, inner, allListed⟩
      exact ends new middle (isFirst ▸ inner) allListed
  case h_2 noBody =>
    have absent : declaration.part? .body = none := by
      cases found : declaration.part? .body with
      | none => rfl
      | some body => exact (noBody body found).elim
    rw [absent] at ends
    exact ends [] _ (isFirst ▸ .nil added.typed) (by simp)

/-- A type that is met inside a body is declared and linked with all types in it. -/
theorem introduces_declareLocalType (unit : root.Grammatical) (inRoot : declaration ∈ root.all)
    (isType : declaration.declaresType) (readable : before.Readable)
    (consistent : Consistent root base before.table before.declared)
    (isNew : before.declared.lookup declaration.number = none) (kind : TypeKind) :
    Ensures (declareLocalType source declaration kind) before fun type after =>
      Introduces root base [declaration] before after ∧
        after.declared.lookup declaration.number = some type ∧
          ∃ name, before.table.size ≤ type.index ∧
            after.localTypes = (name, type) :: before.localTypes := by
  refine (widens_currentOwner readable).bind fun owner opened widens => ?_
  have openedReadable := widens.readable readable
  rcases widens with ⟨table, rfl, widens⟩
  have adds := openedReadable.typed.adds_declareLocalType owner
    (((declaration.part? .name).map source.textOf).getD "") kind
  exact .step (.step (.step ((introduces_bound unit inRoot isType readable consistent isNew widens
    (adds.addsType rfl rfl) adds.types).imp fun _ _ ⟨introduces, found, above, isLocal⟩ =>
      ⟨introduces, found, _, above, isLocal⟩)))

theorem touches_linkAnonymousClass {supertype : Option BindingId} (readable : before.Readable)
    (inTable : type.index < before.table.size)
    (isType : ∀ above, supertype = some above → before.table.Holds .type above) :
    Ensures (linkAnonymousClass type supertype) before fun _ => Touches type before := by
  unfold linkAnonymousClass
  split
  case h_1 => exact .refl readable.typed
  case h_2 above =>
    refine .step (.ite (fun _ => ?_) fun _ => ?_)
    · refine (refers_rootReference readable).bind fun object middle refers => ?_
      have first := Touches.widens inTable refers.1
      have second := first.trans (.modify (first.typed.setSuperclass refers.2) (fun _ => rfl)
        fun _ => rfl)
      refine .step (second.trans (.modify second.typed.addInterface (fun _ => rfl) fun _ => rfl))
    · exact .modify (readable.typed.setSuperclass (isType above rfl)) (fun _ => rfl) fun _ => rfl

/-- The body of an anonymous class is introduced before anything in it is lowered. -/
theorem introduces_anonymous (unit : root.Grammatical) {around : Phrase} {Answer : Type}
    {supertype : Option BindingId} {rest : BindingId → Lower Answer}
    {claim : Answer → Lowering → Prop} (inRoot : around ∈ root.all) (isPart : body ∈ around.parts)
    (isTypeBody : body.construct.isTypeBody) (noType : ¬ around.declaresType)
    (readable : before.Readable) (consistent : Consistent root base before.table before.declared)
    (isType : ∀ above, supertype = some above → before.table.Holds .type above)
    (logged : ∀ type ∈ typeLog root before.declared, type.index < before.table.size)
    (goesOn : ∀ type linked, Introduces root base body.members before linked →
      before.table.size ≤ type.index → linked.table.Holds .type type →
      linked.localTypes = before.localTypes → type ∉ linked.table.named → type ∉ typeLog root linked.declared →
      (Unmixed root base linked.declared → ((linked.table.entry type).members.map some).Perm
        ((body.members.flatMap declarations).map fun phrase => linked.declared.lookup phrase.number)) →
      Ensures (rest type) { linked with classes := { binding := type } :: linked.classes }
        fun answer after => claim answer { after with classes := after.classes.tail }) :
    Ensures (do
      let owner ← currentOwner source
      let type ← bind (·.declareLocalType owner "" .class)
      linkAnonymousClass type supertype
      declareTypes source body.height body (some type)
      inClass { binding := type } do
        linkMembers source body type []
        rest type) before claim := by
  have bodyInRoot := mem_all_trans inRoot (mem_all_of_part isPart)
  have below : ∀ member ∈ body.members, member ∈ root.all :=
    fun member isMember => mem_all_trans bodyInRoot (mem_all_of_member isMember)
  have numberedBelow : (numbersOf body.members).Nodup :=
    ((allOf_members_sublist.trans allOf_parts_sublist).map _).nodup
      (numbered_of_mem unit.numbered bodyInRoot)
  refine (widens_currentOwner readable).bind fun owner opened widens => ?_
  have openedReadable := widens.readable readable
  rcases widens with ⟨table, rfl, widens⟩
  suffices made : ∀ type later, Table.AddsType none table (type, later) → later.types = table.types →
      Ensures (do
        linkAnonymousClass type supertype
        declareTypes source body.height body (some type)
        inClass { binding := type } do
          linkMembers source body type []
          rest type) { before with table := later } claim from
    .step (made _ _ ((openedReadable.typed.adds_declareLocalType owner "" .class).addsType rfl rfl) rfl)
  intro type later added sameTypes
  have later_grows : before.table.Grows (fun _ => False) later :=
    widens.grows.trans (added.grows.imp fun _ _ => nofun)
  have laterReadable : ({ before with table := later } : Lowering).Readable :=
    ⟨added.typed, fun entry isLocal => later_grows.holds (readable.localTypes entry isLocal)⟩
  refine (touches_linkAnonymousClass laterReadable added.isType.1 fun above isAbove =>
    later_grows.holds (isType above isAbove)).bind fun _ headed touches => ?_
  have isNew : before.table.size ≤ type.index := Nat.le_trans widens.grows.size_le added.isNew
  have headedGrows : before.table.Grows (fun _ => False) headed.table := by
    refine later_grows.andThen touches.grows fun binding old same => ?_
    obtain rfl : binding = type := same
    exact Nat.not_lt.2 isNew old
  have headedTypes : headed.table.types = before.table.types :=
    touches.types.trans (sameTypes.trans widens.types)
  have noMembers : (headed.table.entry type).members = [] := touches.members.trans added.noMembers
  have headedHolds := touches.grows.holds added.isType
  rcases touches.state with ⟨headedTable, rfl⟩
  have headedConsistent : Consistent root base headedTable before.declared :=
    consistent.grows unit touches.typed headedTypes headedGrows.none
  have notOld : type ∉ headedTable.named := fun isListed =>
    Nat.not_lt.2 isNew (readable.typed.indexed type (by
      rw [Table.named, headedTypes] at isListed
      simp only [Table.indexed, List.mem_append]
      exact .inl (.inl (.inl isListed)))).1
  have outerInTable : ∀ other, some type = some other → other.index < headedTable.size := by
    rintro _ ⟨⟩
    exact headedHolds.1
  refine (declaresTypes_declareTypes unit below numberedBelow
    (fun member isMember => Nat.le_of_lt (height_lt_of_member isMember)) touches.typed
    headedConsistent.registered outerInTable).bind ?_
  rintro _ middle ⟨new, declares, allListed⟩
  refine .inClass ?_
  have middleLocals : ∀ entry ∈ middle.localTypes, middle.table.Holds .type entry.2 := by
    rcases declares.state with ⟨_, _, rfl⟩
    exact fun entry isLocal =>
      declares.grows.holds (headedGrows.holds (readable.localTypes entry isLocal))
  have linked : Ensures (linkMembers source body type [])
      { middle with classes := { binding := type } :: middle.classes } fun _ =>
        LinksMembers root base (some type) body.members
          { middle with classes := { binding := type } :: middle.classes } :=
    linksMembers_linkMembers unit below numberedBelow ⟨declares.typed, middleLocals⟩
      (declares.allFit unit.numbered below headedConsistent.fit) (declares.grows.holds headedHolds)
      declares.allDeclared
  refine linked.bind fun _ pushed linksPushed => ?_
  have links := linksPushed.dropClass
  rcases linksPushed.declares.state with ⟨linkedTable, linkedDeclared, rfl⟩
  have sameLocals : middle.localTypes = before.localTypes := by
    rcases declares.state with ⟨_, _, rfl⟩
    rfl
  refine goesOn type _ (.of_linked unit below numberedBelow ⟨headedTable, before.localTypes, rfl⟩
    headedGrows headedConsistent readable (fun _ => .inl) declares links ?_ ?_ ?_ consistent.fit
    (.trans (.of_types headedGrows.size_le headedTypes rfl ⟨[], rfl, rfl⟩)
      (.of_declares declares allListed)))
    isNew (links.declares.grows.holds (declares.grows.holds headedHolds)) sameLocals ?_ ?_ ?_
  · rintro _ ⟨⟩
    exact headedHolds
  · rintro _ ⟨⟩
    exact isNew
  · intro phrase phraseInRoot phraseIsType _ member isMember isBodyMember
    exact noType (around_unique unit inRoot phraseInRoot isPart isTypeBody phraseIsType isMember
      isBodyMember ▸ phraseIsType)
  · intro isListed
    rw [Table.named, links.declares.types] at isListed
    exact (declares.registers type isListed).elim notOld (Nat.not_le.2 headedHolds.1)
  · rw [links.declares.typeLog_eq unit.numbered (LinksMembers.linked_inRoot unit below)
      fun phrase isLinked => (mem_allOf_of_linked unit below isLinked).2, declares.declared,
      typeLog_append, declares.typeLog_new below, List.mem_append]
    rintro (isEntry | isOld)
    · rcases List.mem_map.1 isEntry with ⟨entry, inNew, rfl⟩
      exact (declares.enters entry inNew).elim notOld (Nat.not_le.2 headedHolds.1)
    · exact Nat.not_lt.2 isNew (logged type isOld)
  · intro unmixed
    have middleUnmixed := (links.unmixed_iff unit below).1 unmixed
    rw [links.listed middleUnmixed (declares.aside middleUnmixed outerInTable) type rfl,
      declares.listed middleUnmixed type rfl, noMembers]
    refine .trans ?_ ((perm_declarations body.members).map _).symm
    rw [List.map_append]
    refine List.Perm.append_right _ (List.Perm.of_eq (List.map_congr_left fun member isMember => ?_))
    rcases List.mem_filter.1 isMember with ⟨isMember, isType⟩
    exact (links.lookup_type unit below (below member isMember) isType).symm

end Lower

end JavaInspect.Java
