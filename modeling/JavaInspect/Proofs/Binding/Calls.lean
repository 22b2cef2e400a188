import JavaInspect.Proofs.Binding.Growth

/-!
# Growing a table by calls

What each call does to a table in use. A reference to a type only adds bindings that the table
had not handed out before; a declaration of a member adds the member and lists it last with
its owner.
-/

namespace JavaInspect

namespace Table

variable {table before middle after : Table} {binding type owner outer : BindingId}
  {kind : TypeKind} {entry : Entry} {name qualifiedName token : String}

/-! ## References -/

/-- A table that has only been added to, with the same named types. -/
structure Widens (before after : Table) : Prop where
  grows : before.Grows (fun _ => False) after
  types : after.types = before.types
  typed : after.Typed

/-- A call whose answer is a type of the widened table. -/
structure Refers (before : Table) (answer : BindingId × Table) : Prop extends
    Widens before answer.2 where
  isType : answer.2.Holds .type answer.1

namespace Widens

theorem refl (typed : table.Typed) : table.Widens table := ⟨.refl, rfl, typed⟩

theorem trans (first : before.Widens middle) (second : middle.Widens after) :
    before.Widens after :=
  ⟨first.grows.trans second.grows, second.types.trans first.types, second.typed⟩

end Widens

theorem Refers.trans {answer : BindingId × Table} (first : before.Widens middle)
    (second : middle.Refers answer) : before.Refers answer :=
  ⟨first.trans second.toWidens, second.isType⟩

namespace Typed

/-- What an index of types hands out is a type. -/
theorem lookup (typed : table.Typed) {Key : Type} [BEq Key] [LawfulBEq Key]
    {index : List (Key × BindingId)} {key : Key}
    (isIndex : ∀ binding ∈ index.map (·.2), binding ∈ table.indexed)
    (found : index.lookup key = some binding) : table.Holds .type binding := by
  rcases List.lookup_eq_some_iff.1 found with ⟨_, _, rfl, -⟩
  exact typed.indexed binding (isIndex binding (by simp))

theorem lookupType (typed : table.Typed) (found : table.lookupType name = some type) :
    table.Holds .type type :=
  typed.lookup (by simp +contextual [Table.indexed]) found

/-- Appending an entry that is listed in an index other than that of the named types, or in
none. -/
theorem widens_push (typed : table.Typed) (noSuperclass : entry.superclass = none)
    (noMembers : entry.members = [])
    (declared : ∀ type, entry.declaredType = some type → table.Holds .type type)
    (isMethod : entry.isConstructor → entry.kind = .method)
    (pushed : after.entries = (table.push entry).2.entries) (sameTypes : after.types = table.types)
    (indexed : ∀ binding ∈ after.indexed, binding ∈ table.indexed ∨
      (binding = ⟨table.size⟩ ∧ entry.kind = .type)) : table.Widens after where
  grows := (grows_push noMembers).trans (grows_of_entries pushed)
  types := sameTypes
  typed := by
    refine (typed.push noSuperclass noMembers declared isMethod).reindex pushed ?_
    intro binding isIndexed
    rcases indexed binding isIndexed with old | ⟨rfl, isType⟩
    · have grows : table.Grows (fun _ => False) (table.push entry).2 := grows_push noMembers
      exact grows.holds (typed.indexed binding old)
    · exact ⟨by simp, by rw [entry_push_new]; exact isType⟩

/-- Appending a type that is listed in an index other than that of the named types. -/
theorem refers_push (typed : table.Typed) (isType : entry.kind = .type)
    (noSuperclass : entry.superclass = none) (noMembers : entry.members = [])
    (noType : entry.declaredType = none) (noConstructor : entry.isConstructor = false)
    (pushed : after.entries = (table.push entry).2.entries) (sameTypes : after.types = table.types)
    (indexed : ∀ binding ∈ after.indexed, binding ∈ table.indexed ∨ binding = ⟨table.size⟩) :
    table.Refers (⟨table.size⟩, after) where
  toWidens := typed.widens_push noSuperclass noMembers (by simp [noType]) (by simp [noConstructor])
    pushed sameTypes fun binding isIndexed =>
      (indexed binding isIndexed).imp_right fun isNew => ⟨isNew, isType⟩
  isType := by
    refine .of_entries ⟨by simp, ?_⟩ pushed
    rw [entry_push_new]
    exact isType

theorem widens_package (typed : table.Typed) (name : String) :
    table.Widens (table.package name).2 := by
  rw [package]
  split
  case h_1 => exact .refl typed
  case h_2 => exact typed.widens_push rfl rfl (by simp) (by simp) rfl rfl fun _ => .inl

theorem widens_packageOf (typed : table.Typed) (qualifiedName : String) :
    table.Widens (table.packageOf qualifiedName).2 := by
  rw [packageOf]
  split
  case h_1 => exact typed.widens_package _
  case h_2 => exact .refl typed

theorem refers_unresolvedType (typed : table.Typed) (token : String) :
    table.Refers (table.unresolvedType token) := by
  rw [unresolvedType]
  split
  case h_1 known found =>
    exact ⟨.refl typed, typed.lookup (by simp +contextual [Table.indexed]) found⟩
  case h_2 =>
    refine typed.refers_push rfl rfl rfl rfl rfl rfl rfl fun binding isIndexed => ?_
    simp only [Table.indexed, List.map_cons, List.mem_append, List.mem_cons] at isIndexed ⊢
    tauto

theorem refers_primitive (typed : table.Typed) (name : String) :
    table.Refers (table.primitive name) := by
  rw [primitive]
  split
  case h_1 known found =>
    exact ⟨.refl typed, typed.lookup (by simp +contextual [Table.indexed]) found⟩
  case h_2 =>
    refine typed.refers_push rfl rfl rfl rfl rfl rfl rfl fun binding isIndexed => ?_
    simp only [Table.indexed, List.map_cons, List.mem_append, List.mem_cons] at isIndexed ⊢
    tauto

theorem refers_arrayOf (typed : table.Typed) (element : BindingId) :
    table.Refers (table.arrayOf element) := by
  rw [arrayOf]
  split
  case h_1 known found =>
    exact ⟨.refl typed, typed.lookup (by simp +contextual [Table.indexed]) found⟩
  case h_2 =>
    refine typed.refers_push rfl rfl rfl rfl rfl rfl rfl fun binding isIndexed => ?_
    simp only [Table.indexed, List.map_cons, List.mem_append, List.mem_cons] at isIndexed ⊢
    tauto

theorem refers_arrayOfDepth (typed : table.Typed) (isType : table.Holds .type type) (depth : Nat) :
    table.Refers (table.arrayOfDepth type depth) := by
  induction depth with
  | zero => exact ⟨.refl typed, isType⟩
  | succ depth ih => exact .trans ih.toWidens (ih.typed.refers_arrayOf _)

theorem refers_namedReference (typed : table.Typed) (name : String) :
    table.Refers (table.namedReference name) := by
  rw [namedReference]
  split
  · exact typed.refers_primitive name
  · split
    case h_1 known found => exact ⟨.refl typed, typed.lookupType found⟩
    case h_2 => exact typed.refers_unresolvedType name

theorem refers_typeReference (typed : table.Typed) (name : String) :
    table.Refers (table.typeReference name) := by
  rw [typeReference]
  cases splitDimensions name with
  | mk base depth =>
      have element := typed.refers_namedReference base
      exact .trans element.toWidens (element.typed.refers_arrayOfDepth element.isType depth)

end Typed

/-! ## Declarations -/

/-- A declaration of a binding that lists nothing yet and that nothing lists. -/
structure Adds (entry : Entry) (before : Table) (answer : BindingId × Table) : Prop extends
    Widens before answer.2 where
  isNew : answer.1 = ⟨before.size⟩
  size : answer.2.size = before.size + 1
  entry : answer.2.entry answer.1 = entry

theorem Adds.holds {answer : BindingId × Table} (adds : Adds entry before answer) :
    answer.2.Holds entry.kind answer.1 :=
  ⟨by rw [adds.isNew, adds.size]; exact Nat.lt_succ_self _, by rw [adds.entry]⟩

theorem Adds.unlisted {answer : BindingId × Table} (adds : Adds entry before answer)
    (typed : before.Typed) (noMembers : entry.members = []) (type : BindingId) :
    answer.1 ∉ (answer.2.entry type).members := by
  intro isMember
  by_cases old : type.index < before.size
  · rw [adds.grows.same type old not_false] at isMember
    refine Nat.lt_irrefl before.size ?_
    simpa [adds.isNew] using typed.memberInTable type answer.1 isMember
  · by_cases isNew : type = answer.1
    · rw [isNew, adds.entry, noMembers] at isMember
      cases isMember
    · have outside : answer.2.size ≤ type.index := by
        rw [adds.size]
        refine Nat.lt_of_le_of_ne (Nat.not_lt.1 old) fun same => isNew ?_
        rw [adds.isNew]
        exact congrArg BindingId.mk same.symm
      rw [entry_of_outside (Nat.not_lt.2 outside)] at isMember
      cases isMember

/-- A declaration of a member: it is listed last with its owner. -/
structure AddsMember (owner : BindingId) (entry : Entry) (before : Table)
    (answer : BindingId × Table) : Prop where
  isNew : answer.1 = ⟨before.size⟩
  size : answer.2.size = before.size + 1
  entry : answer.2.entry answer.1 = entry
  ownerEntry : answer.2.entry owner =
    { before.entry owner with members := (before.entry owner).members ++ [answer.1] }
  grows : before.Grows (· = owner) answer.2
  typed : answer.2.Typed

theorem AddsMember.holds {answer : BindingId × Table}
    (adds : AddsMember owner entry before answer) : answer.2.Holds entry.kind answer.1 :=
  ⟨by rw [adds.isNew, adds.size]; exact Nat.lt_succ_self _, by rw [adds.entry]⟩

namespace Typed

theorem adds_push (typed : table.Typed) (noSuperclass : entry.superclass = none)
    (noMembers : entry.members = [])
    (declared : ∀ type, entry.declaredType = some type → table.Holds .type type)
    (isMethod : entry.isConstructor → entry.kind = .method) : Adds entry table (table.push entry) where
  toWidens := typed.widens_push noSuperclass noMembers declared isMethod rfl rfl fun _ => .inl
  isNew := rfl
  size := size_push
  entry := entry_push_new

theorem adds_declareVariable (typed : table.Typed) (owner : BindingId) (name : String)
    (isType : table.Holds .type type) :
    Adds
      { kind := .variable, name, qualifiedName := name, owner := some owner,
        declaredType := some type }
      table (table.declareVariable owner name type) :=
  typed.adds_push rfl rfl (by simp [isType]) (by simp)

theorem adds_declareLocalType (typed : table.Typed) (owner : BindingId) (name : String)
    (kind : TypeKind) :
    Adds
      { kind := .type, name, qualifiedName := name, typeKind := some kind, owner := some owner }
      table (table.declareLocalType owner name kind) :=
  typed.adds_push rfl rfl (by simp) (by simp)

theorem addsMember_push (typed : table.Typed) (inTable : owner.index < table.size)
    (isOwner : entry.owner = some owner) (noSuperclass : entry.superclass = none)
    (noMembers : entry.members = [])
    (declared : ∀ type, entry.declaredType = some type → table.Holds .type type)
    (isMethod : entry.isConstructor → entry.kind = .method) :
    AddsMember owner entry table
      (⟨table.size⟩, (table.push entry).2.addMember owner ⟨table.size⟩) := by
  have pushed := typed.adds_push noSuperclass noMembers declared isMethod
  have change : Change entry.origins (some owner) table
      ((table.push entry).2.addMember owner ⟨table.size⟩) :=
    .pushMember rfl inTable isOwner noMembers fun _ => .inl
  have lists := change.listsOwn typed.listsOwn
  have apart : ⟨table.size⟩ ≠ owner := by
    rintro rfl
    exact Nat.lt_irrefl _ inTable
  have newEntry : ((table.push entry).2.addMember owner ⟨table.size⟩).entry ⟨table.size⟩ = entry :=
    (entry_modify_of_ne apart).trans entry_push_new
  -- Members aside, the entries are those of the table with the appended entry.
  have shows : ∀ {Shown : Type} (shown : Entry → Shown),
      (∀ entry members, shown { entry with members } = shown entry) → ∀ other,
      shown (((table.push entry).2.addMember owner ⟨table.size⟩).entry other) =
        shown ((table.push entry).2.entry other) :=
    fun shown keeps other => proj_entry_modify shown fun entry => keeps entry _
  have added : ∀ {kind : BindingKind} {other : BindingId}, (table.push entry).2.Holds kind other →
      ((table.push entry).2.addMember owner ⟨table.size⟩).Holds kind other := fun held =>
    ⟨by simpa [addMember] using held.1, (shows Entry.kind (fun _ _ => rfl) _).trans held.2⟩
  refine ⟨rfl, by simp, newEntry, entry_pushMember inTable,
    change.grows.imp fun _ _ isOwner => (Option.some.inj isOwner).symm, ?_⟩
  have old := pushed.typed
  constructor
  case indexed => exact fun other isIndexed => added (old.indexed other isIndexed)
  case superclass =>
    intro other type isSuperclass
    rw [shows Entry.superclass fun _ _ => rfl] at isSuperclass
    exact added (old.superclass other type isSuperclass)
  case declaredType =>
    intro other type isType
    rw [shows Entry.declaredType fun _ _ => rfl] at isType
    exact added (old.declaredType other type isType)
  case constructor =>
    intro other isConstructor
    rw [shows Entry.isConstructor fun _ _ => rfl] at isConstructor
    rw [shows Entry.kind fun _ _ => rfl]
    exact old.constructor other isConstructor
  case memberInTable => exact lists.inTable
  case memberOwner => exact lists.owner
  case membersNodup => exact lists.nodup

theorem addsMember_declareField (typed : table.Typed) (name : String) (inTable : owner.index < table.size)
    (isType : table.Holds .type type) :
    AddsMember owner
      { kind := .variable, name, qualifiedName := name, owner := some owner,
        declaredType := some type }
      table (table.declareField owner name type) :=
  typed.addsMember_push inTable rfl rfl rfl (by simp [isType]) (by simp)

theorem addsMember_declareMethod (typed : table.Typed) (name : String)
    (parameters : List BindingId) (result : Option BindingId) (inTable : owner.index < table.size)
    (isType : ∀ type, result = some type → table.Holds .type type) :
    AddsMember owner
      { kind := .method, name, qualifiedName := name, owner := some owner, parameters,
        declaredType := result }
      table (table.declareMethod owner name parameters result) :=
  typed.addsMember_push inTable rfl rfl rfl isType (by simp)

theorem addsMember_declareConstructor (typed : table.Typed) (parameters : List BindingId)
    (inTable : owner.index < table.size) :
    AddsMember owner
      { kind := .method, name := (table.entry owner).name,
        qualifiedName := (table.entry owner).name, owner := some owner, parameters,
        isConstructor := true }
      table (table.declareConstructor owner parameters) :=
  typed.addsMember_push inTable rfl rfl rfl (by simp) (by simp)

end Typed

/-! ## Named types -/

/-- The types that are listed under a name. -/
abbrev named (table : Table) : List BindingId := table.types.map (·.2)

/-- A declaration of a type that the table did not have before, listed with its outer type if
it has one. -/
structure AddsType (outer : Option BindingId) (before : Table) (answer : BindingId × Table) :
    Prop where
  isNew : before.size ≤ answer.1.index
  grows : before.Grows (fun binding => outer = some binding) answer.2
  typed : answer.2.Typed
  isType : answer.2.Holds .type answer.1
  noMembers : (answer.2.entry answer.1).members = []
  listed : ∀ type, outer = some type → (answer.2.entry type).members =
    (before.entry type).members ++ [answer.1]
  registered : ∀ type ∈ answer.2.types.map (·.2),
    type ∈ before.types.map (·.2) ∨ type = answer.1
  kept : ∀ type ∈ before.types.map (·.2), type ∈ answer.2.types.map (·.2)

/-- A new type that is listed under no name. -/
theorem Adds.addsType {answer : BindingId × Table} (adds : Adds entry before answer)
    (isType : entry.kind = .type) (noMembers : entry.members = []) : AddsType none before answer where
  isNew := Nat.le_of_eq (congrArg BindingId.index adds.isNew).symm
  grows := adds.grows.none
  typed := adds.typed
  isType := isType ▸ adds.holds
  noMembers := by rw [adds.entry, noMembers]
  listed := nofun
  registered type isListed := .inl (adds.types ▸ isListed)
  kept type isListed := adds.types.symm ▸ isListed

/-- A call that hands out a named type: one that the table has, or a new one. -/
def Names (outer : Option BindingId) (before : Table) (answer : BindingId × Table) : Prop :=
  (answer.2 = before ∧ answer.1 ∈ before.types.map (·.2)) ∨ AddsType outer before answer

/-- Listing a type under a name. -/
theorem Typed.register (typed : table.Typed) {key : String} (isType : table.Holds .type type) :
    { table with types := (key, type) :: table.types }.Typed := by
  refine typed.reindex rfl fun binding isIndexed => ?_
  simp only [Table.indexed, List.map_cons, List.mem_append, List.mem_cons] at isIndexed
  rcases isIndexed with (((rfl | old) | old) | old) | old
  · exact isType
  all_goals exact typed.indexed binding (by simp [Table.indexed, old])

theorem Typed.names_declareType (typed : table.Typed) (qualifiedName : String) (kind : TypeKind) :
    Names none table (table.declareType qualifiedName kind) := by
  rw [declareType]
  split
  case h_1 known found =>
    rcases List.lookup_eq_some_iff.1 found with ⟨_, _, split, -⟩
    exact .inl ⟨rfl, by simp [split]⟩
  case h_2 =>
    right
    have packaged := typed.widens_packageOf qualifiedName
    generalize table.packageOf qualifiedName = answer at packaged ⊢
    rcases answer with ⟨owner, middle⟩
    have added : Adds
        { kind := .type, name := Text.simpleName qualifiedName, qualifiedName,
          typeKind := some kind, owner } middle (middle.push _) :=
      packaged.typed.adds_push rfl rfl (by simp) (by simp)
    exact {
      isNew := packaged.grows.size_le
      grows := .trans packaged.grows.none (.trans added.grows.none (grows_of_entries rfl))
      typed := added.typed.register added.holds
      isType := added.holds.of_entries rfl
      noMembers := congrArg Entry.members added.entry
      listed := by simp
      registered := by
        intro type isListed
        rw [← packaged.types]
        exact (List.mem_cons.1 isListed).symm
      kept := fun type isListed => List.mem_cons_of_mem _ (packaged.types.symm ▸ isListed) }

/-- A type that was declared under a name is listed under it. -/
theorem listed_declareType :
    (table.declareType qualifiedName kind).1 ∈ (table.declareType qualifiedName kind).2.types.map (·.2) := by
  rw [declareType]
  split
  case h_1 known found =>
    rcases List.lookup_eq_some_iff.1 found with ⟨_, _, split, -⟩
    simp [split]
  case h_2 => exact List.mem_cons_self

theorem Typed.names_declareNestedType (typed : table.Typed) (inTable : outer.index < table.size)
    (name : String) (kind : TypeKind) :
    Names (some outer) table (table.declareNestedType outer name kind) := by
  rw [declareNestedType]
  split
  case h_1 known found =>
    rcases List.lookup_eq_some_iff.1 found with ⟨_, _, split, -⟩
    exact .inl ⟨rfl, by simp [split]⟩
  case h_2 =>
    right
    have added : AddsMember outer
        { kind := .type, name, qualifiedName := (table.entry outer).qualifiedName ++ "." ++ name,
          typeKind := some kind, owner := some outer } table
        (⟨table.size⟩, (table.push _).2.addMember outer ⟨table.size⟩) :=
      typed.addsMember_push inTable rfl rfl rfl (by simp) (by simp)
    exact {
      isNew := Nat.le_refl _
      grows := .trans (added.grows.imp fun _ _ same => congrArg some same.symm)
        (grows_of_entries rfl)
      typed := added.typed.register added.holds
      isType := added.holds.of_entries rfl
      noMembers := congrArg Entry.members added.entry
      listed := by
        rintro _ ⟨⟩
        exact congrArg Entry.members added.ownerEntry
      registered := fun _ isListed => (List.mem_cons.1 isListed).symm
      kept := fun _ isListed => List.mem_cons_of_mem _ isListed }

theorem listed_declareNestedType : (table.declareNestedType outer name kind).1 ∈
    (table.declareNestedType outer name kind).2.types.map (·.2) := by
  rw [declareNestedType]
  split
  case h_1 known found =>
    rcases List.lookup_eq_some_iff.1 found with ⟨_, _, split, -⟩
    simp [split]
  case h_2 => exact List.mem_cons_self

end Table

end JavaInspect
