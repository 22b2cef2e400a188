import JavaInspect.Library.Loading
import JavaInspect.Proofs.Binding.References

/-!
# Linking library types

A type of a class path that has been declared is linked by referring to other types, each time with
a change of its own entry, and by declaring its members. When it has been linked, its entry reads
as the type is described: every reference is that to the described name, in the described order,
and so it stays while other types are linked.
-/

namespace JavaInspect

open List

namespace Entry

/-- Packages, primitive types, arrays and placeholders are made where they are referred to. -/
def IsMade (entry : Entry) : Prop :=
  entry.kind = .package ∨ entry.typeKind = some .array ∨ entry.typeKind = some .primitive ∨
    entry.typeKind = some .unknown

/-- What is made on reference has no supertypes, annotations or members; only placeholders are
recovered. -/
def Plain (entry : Entry) : Prop :=
  entry.IsMade → entry = { entry.settled with recovered := entry.typeKind == some .unknown }

variable {entry other : Entry}

theorem isMade_iff (same : entry.settled = other.settled) : entry.IsMade ↔ other.IsMade :=
  iff_of_eq (eq_of_settled IsMade (fun _ => rfl) same)

theorem plain_of_not_isMade (declared : ¬ entry.IsMade) : entry.Plain :=
  fun isMade => absurd isMade declared

end Entry

namespace Table

variable {table before middle after : Table} {binding owner type : BindingId} {entry : Entry}
  {key : Key} {name : String} {gain further : Entry → Entry}
  {changed changed' : BindingId → Prop}

/-- What is made on reference is left as it was made. -/
def Plain (table : Table) : Prop := ∀ binding, (table.entry binding).Plain

theorem plain_empty : Plain {} := by
  rintro binding (isPackage | isType) <;> simp [Table.entry] at *

theorem Plain.push (plain : table.Plain) (isPlain : entry.Plain) : (table.push entry).2.Plain := by
  intro binding
  rw [entry_push]
  split
  · exact isPlain
  · exact plain binding

theorem Plain.modify (plain : table.Plain) (declared : ¬ (table.entry owner).IsMade)
    (keepsSettled : ∀ entry, (gain entry).settled = entry.settled) :
    (table.modify owner gain).Plain := by
  intro other isMade
  have settled : ((table.modify owner gain).entry other).settled = (table.entry other).settled :=
    proj_entry_modify Entry.settled keepsSettled
  rw [Entry.isMade_iff settled] at isMade
  have apart : other ≠ owner := by
    rintro rfl
    exact declared isMade
  rw [entry_modify_of_ne apart]
  exact plain other isMade

theorem Key.plain_made (made : key.made? table = some entry) : entry.Plain := by
  intro _
  cases key <;> cases made <;> rfl

theorem Plain.findOrPush (plain : table.Plain) (made : key.made? table = some entry) :
    (table.findOrPush key entry).2.Plain := by
  rw [Table.findOrPush]
  split
  case h_1 => exact plain
  case h_2 =>
    intro binding
    rw [entry_keep]
    exact plain.push (Key.plain_made made) binding

theorem Plain.arrayOf (plain : table.Plain) (element : BindingId) :
    (table.arrayOf element).2.Plain := by
  rw [arrayOf_eq]
  exact plain.findOrPush rfl

theorem Plain.namedReference (plain : table.Plain) (name : String) :
    (table.namedReference name).2.Plain := by
  rw [Table.namedReference]
  split
  case isTrue =>
    rw [primitive_eq]
    exact plain.findOrPush rfl
  case isFalse =>
    split
    case h_1 => exact plain
    case h_2 =>
      rw [unresolvedType_eq]
      exact plain.findOrPush rfl

theorem Plain.typeReference (plain : table.Plain) (name : String) :
    (table.typeReference name).2.Plain := by
  induction name using bracketsInduction with
  | bare name bare =>
      rw [typeReference_bare bare]
      exact plain.namedReference name
  | array inner ih =>
      rw [typeReference_array]
      exact ih.arrayOf _

/-- A canonical table in which nothing that is made on reference has been given anything. -/
structure Sound (table : Table) : Prop where
  canonical : table.Canonical
  plain : table.Plain

theorem Sound.empty : Sound {} := ⟨.empty, plain_empty⟩

theorem Sound.typeReference (sound : table.Sound) (name : String) :
    (table.typeReference name).2.Sound :=
  ⟨sound.canonical.typeReference name, sound.plain.typeReference name⟩

/-! ## Amending entries -/

/-- A sound table that came from another without declaring types; only some of the entries there
were have changed. -/
structure Amends (changed : BindingId → Prop) (before after : Table) : Prop where
  extended : before.Extends after
  entry : ∀ binding, binding.index < before.size → ¬ changed binding →
    after.entry binding = before.entry binding
  types : after.types = before.types
  hidden : after.hidden = before.hidden
  sound : after.Sound

theorem Amends.refl (sound : table.Sound) : table.Amends changed table :=
  ⟨refl_of Extends table, fun _ _ _ => rfl, rfl, rfl, sound⟩

/-- Later changes count only where they hit what was in the table from the start. -/
theorem Amends.andThen (first : before.Amends changed middle)
    (second : middle.Amends changed' after)
    (implies : ∀ binding, binding.index < before.size → changed' binding → changed binding) :
    before.Amends changed after where
  extended := trans_of Extends first.extended second.extended
  entry binding old unchanged :=
    (second.entry binding (Nat.lt_of_lt_of_le old first.extended.size_le)
      fun isChanged => unchanged (implies binding old isChanged)).trans
        (first.entry binding old unchanged)
  types := second.types.trans first.types
  hidden := second.hidden.trans first.hidden
  sound := second.sound

theorem Amends.imp (amends : before.Amends changed after)
    (implies : ∀ binding, changed binding → changed' binding) : before.Amends changed' after where
  extended := amends.extended
  entry binding old unchanged :=
    amends.entry binding old fun isChanged => unchanged (implies binding isChanged)
  types := amends.types
  hidden := amends.hidden
  sound := amends.sound

theorem Supplements.amends (supplements : before.Supplements after) (sound : after.Sound) :
    before.Amends changed after :=
  ⟨supplements.extended, fun binding old _ => supplements.entry binding old, supplements.types,
    supplements.hidden, sound⟩

theorem Denotes.amend (denotes : before.Denotes name binding)
    (amends : before.Amends changed after) : after.Denotes name binding :=
  denotes.extend amends.extended amends.types

theorem option_amend {described : Option String} {above : Option BindingId}
    (denotes : Option.Rel before.Denotes described above)
    (amends : before.Amends changed after) : Option.Rel after.Denotes described above := by
  cases denotes with
  | some denotes => exact .some (denotes.amend amends)
  | none => exact .none

/-- A declared binding of a sound table. -/
structure Linkable (table : Table) (owner : BindingId) : Prop where
  sound : table.Sound
  inTable : owner.index < table.size
  declared : ¬ (table.entry owner).IsMade

theorem Linkable.amend (linkable : before.Linkable owner) (amends : before.Amends changed after) :
    after.Linkable owner where
  sound := amends.sound
  inTable := Nat.lt_of_lt_of_le linkable.inTable amends.extended.size_le
  declared := by
    rw [Entry.isMade_iff (amends.extended.settled owner linkable.inTable)]
    exact linkable.declared

/-- The entry of one binding has been changed, and no other. -/
structure Gains (owner : BindingId) (gain : Entry → Entry) (before after : Table) : Prop extends
    Amends (· = owner) before after where
  owned : after.entry owner = gain (before.entry owner)

theorem Gains.refl (sound : table.Sound) : table.Gains owner id table := ⟨.refl sound, rfl⟩

theorem Gains.trans (first : before.Gains owner gain middle)
    (second : middle.Gains owner further after) :
    before.Gains owner (fun entry => further (gain entry)) after where
  toAmends := first.toAmends.andThen second.toAmends fun _ _ => id
  owned := by rw [second.owned, first.owned]

theorem Supplements.gains (supplements : before.Supplements after)
    (linkable : before.Linkable owner) (sound : after.Sound) : before.Gains owner id after where
  toAmends := supplements.amends sound
  owned := supplements.entry owner linkable.inTable

/-- A declared binding is given what is settled later than its declaration. -/
theorem gains_modify (linkable : table.Linkable owner) (gain : Entry → Entry)
    (keepsSettled : ∀ entry, (gain entry).settled = entry.settled)
    (keepsMembers : ∀ entry, (gain entry).members = entry.members) :
    table.Gains owner gain (table.modify owner gain) where
  extended :=
    have change : Change [] (some owner) table (table.modify owner gain) :=
      .revise rfl keepsSettled keepsMembers
    change.extended
  entry _ _ apart := entry_modify_of_ne apart
  types := rfl
  hidden := rfl
  sound := by
    have change : Change [] (some owner) table (table.modify owner gain) :=
      .revise rfl keepsSettled keepsMembers
    exact ⟨linkable.sound.canonical.grown ⟨change.extended, fun _ => find?_modify⟩,
      linkable.sound.plain.modify linkable.declared keepsSettled⟩
  owned := by rw [entry_modify linkable.inTable, if_pos rfl]

/-- A declared binding is given a new member. -/
theorem gains_pushMember (linkable : table.Linkable owner) (isOwner : entry.owner = some owner)
    (noMembers : entry.members = []) (declared : ¬ entry.IsMade) :
    table.Gains owner (fun given => { given with members := given.members ++ [⟨table.size⟩] })
      ((table.push entry).2.addMember owner ⟨table.size⟩) where
  extended := (Grown.pushMember linkable.inTable isOwner noMembers).extended
  entry _ old apart := (entry_modify_of_ne apart).trans (entry_push_old old)
  types := rfl
  hidden := rfl
  sound := by
    refine ⟨linkable.sound.canonical.grown (.pushMember linkable.inTable isOwner noMembers), ?_⟩
    refine (linkable.sound.plain.push (Entry.plain_of_not_isMade declared)).modify ?_ fun _ => rfl
    rw [entry_push_old linkable.inTable]
    exact linkable.declared
  owned := entry_pushMember linkable.inTable

/-- A type is referred to by name and given to a declared binding. -/
theorem gains_refer (linkable : table.Linkable owner) (name : String)
    (gain : BindingId → Entry → Entry)
    (keepsSettled : ∀ given entry, (gain given entry).settled = entry.settled)
    (keepsMembers : ∀ given entry, (gain given entry).members = entry.members) :
    ∃ given, table.Gains owner (gain given)
        ((table.typeReference name).2.modify owner (gain (table.typeReference name).1)) ∧
      ((table.typeReference name).2.modify owner (gain (table.typeReference name).1)).Denotes
        name given := by
  have referred := (supplements_typeReference table name).gains linkable
    (linkable.sound.typeReference name)
  have given := gains_modify (linkable.amend referred.toAmends) (gain (table.typeReference name).1)
    (keepsSettled _) (keepsMembers _)
  exact ⟨_, referred.trans given, (denotes_typeReference table name).amend given.toAmends⟩

/-- Things that are given to a declared binding one after another are all found there in the end,
in order. -/
theorem gains_foldl {Item : Type} {change : Table → Item → Table}
    (means : Table → Item → BindingId → Prop) (gain : List BindingId → Entry → Entry)
    (gain_nil : ∀ entry, gain [] entry = entry)
    (gain_cons : ∀ given others entry,
      gain (given :: others) entry = gain others (gain [given] entry))
    (step : ∀ (table : Table) item, table.Linkable owner → ∃ given,
      table.Gains owner (gain [given]) (change table item) ∧ means (change table item) item given)
    (lasts : ∀ (before after : Table) item given, before.Linkable owner → means before item given →
      before.Amends (· = owner) after → means after item given)
    (items : List Item) (linkable : table.Linkable owner) :
    ∃ given, table.Gains owner (gain given) (items.foldl change table) ∧
      Forall₂ (means (items.foldl change table)) items given := by
  induction items generalizing table with
  | nil => exact ⟨[], ⟨.refl linkable.sound, (gain_nil _).symm⟩, .nil⟩
  | cons item items ih =>
      rcases step table item linkable with ⟨given, first, isMeant⟩
      have still := linkable.amend first.toAmends
      rcases ih still with ⟨others, rest, areMeant⟩
      refine ⟨given :: others, ?_, .cons (lasts _ _ _ _ still isMeant rest.toAmends) areMeant⟩
      have both := first.trans rest
      exact ⟨both.toAmends, by rw [gain_cons]; exact both.owned⟩

/-! ## Members -/

end Table

/-- A member of a library type. -/
inductive LibraryMember where
  | field (field : LibraryField)
  | constructor (constructor : LibraryConstructor)
  | method (method : LibraryMethod)

/-- The members of a library type in the order in which they are declared. -/
def LibraryType.members (type : LibraryType) : List LibraryMember :=
  type.fields.map .field ++ type.constructors.map .constructor ++ type.methods.map .method

namespace Table

variable {table before middle after : Table} {binding owner : BindingId} {entry : Entry}
  {name : String} {member : LibraryMember} {type : LibraryType} {gain : Entry → Entry}
  {changed : BindingId → Prop}

/-- Declare a member of a library type. -/
def loadMember (owner : BindingId) (table : Table) : LibraryMember → Table
  | .field field => loadField owner table field
  | .constructor constructor => loadConstructor owner table constructor
  | .method method => loadMethod owner table method

/-- A binding reads as the member of a type is described. -/
inductive ReadsMember (table : Table) (owner : BindingId) : LibraryMember → BindingId → Prop where
  | field {field : LibraryField} {binding type : BindingId}
      (refers : table.Denotes field.type type)
      (entry : table.entry binding =
        { kind := .variable, name := field.name, qualifiedName := field.name, owner := some owner,
          declaredType := some type }) :
      ReadsMember table owner (.field field) binding
  | constructor {constructor : LibraryConstructor} {binding : BindingId}
      {parameters : List BindingId}
      (refers : Forall₂ table.Denotes constructor.parameters parameters)
      (entry : table.entry binding =
        { kind := .method, name := (table.entry owner).name,
          qualifiedName := (table.entry owner).name, owner := some owner, parameters,
          varargs := constructor.varargs, isConstructor := true }) :
      ReadsMember table owner (.constructor constructor) binding
  | method {method : LibraryMethod} {binding result : BindingId}
      {parameters annotations : List BindingId}
      (refers : Forall₂ table.Denotes method.parameters parameters)
      (returns : table.Denotes (method.returns.getD "void") result)
      (annotated : Forall₂ table.Denotes method.annotations annotations)
      (entry : table.entry binding =
        { kind := .method, name := method.name, qualifiedName := method.name, owner := some owner,
          annotations, declaredType := some result, parameters, varargs := method.varargs }) :
      ReadsMember table owner (.method method) binding

namespace ReadsMember

theorem owner_eq (reads : table.ReadsMember owner member binding) :
    (table.entry binding).owner = some owner := by
  cases reads with
  | field _ entry | constructor _ entry | method _ _ _ entry => rw [entry]

theorem inTable (reads : table.ReadsMember owner member binding) : binding.index < table.size :=
  index_lt_of_entry Entry.owner rfl reads.owner_eq

theorem kind_ne (reads : table.ReadsMember owner member binding) :
    (table.entry binding).kind ≠ .type := by
  cases reads with
  | field _ entry | constructor _ entry | method _ _ _ entry => simp [entry]

theorem amend (reads : before.ReadsMember owner member binding)
    (inTable : owner.index < before.size)
    (amends : before.Amends changed after) (unchanged : ¬ changed binding) :
    after.ReadsMember owner member binding := by
  have sameEntry := amends.entry binding reads.inTable unchanged
  have sameName : (after.entry owner).name = (before.entry owner).name :=
    Entry.eq_of_settled Entry.name (fun _ => rfl) (amends.extended.settled owner inTable)
  cases reads with
  | field refers entry => exact .field (refers.amend amends) (sameEntry.trans entry)
  | constructor refers entry =>
      exact .constructor (refers.imp fun _ _ denotes => denotes.amend amends)
        (by rw [sameEntry, entry, sameName])
  | method refers returns annotated entry =>
      exact .method (refers.imp fun _ _ denotes => denotes.amend amends) (returns.amend amends)
        (annotated.imp fun _ _ denotes => denotes.amend amends) (sameEntry.trans entry)

end ReadsMember

/-! ## Linking steps -/

theorem sound_typeReferences (sound : table.Sound) (names : List String) :
    (table.typeReferences names).2.Sound := by
  induction names generalizing table with
  | nil => exact sound
  | cons name names ih => exact ih (sound.typeReference name)

theorem denotes_typeReferences (table : Table) (names : List String) :
    Forall₂ (table.typeReferences names).2.Denotes names (table.typeReferences names).1 := by
  induction names generalizing table with
  | nil => exact .nil
  | cons name names ih =>
      have denotes := denotes_typeReference table name
      exact .cons (denotes.supplement (supplements_typeReferences _ names)) (ih _)

theorem gains_linkSuperclass (linkable : table.Linkable owner) (name : String) : ∃ superclass,
    table.Gains owner (fun entry => { entry with superclass := some superclass })
        (linkSuperclass owner table name) ∧
      (linkSuperclass owner table name).Denotes name superclass :=
  gains_refer linkable name (fun superclass entry => { entry with superclass := some superclass })
    (fun _ _ => rfl) fun _ _ => rfl

/-- Interfaces of a declared type are linked in order. -/
theorem gains_linkInterfaces (linkable : table.Linkable owner) (names : List String) :
    ∃ interfaces, table.Gains owner
        (fun entry => { entry with interfaces := entry.interfaces ++ interfaces })
        (names.foldl (linkInterface owner) table) ∧
      Forall₂ (names.foldl (linkInterface owner) table).Denotes names interfaces :=
  gains_foldl Denotes
    (fun interfaces entry => { entry with interfaces := entry.interfaces ++ interfaces })
    (by simp) (by simp)
    (fun _ name linkable => gains_refer linkable name
      (fun interface entry => { entry with interfaces := entry.interfaces ++ [interface] })
      (fun _ _ => rfl) fun _ _ => rfl)
    (fun _ _ _ _ _ denotes amends => denotes.amend amends) names linkable

/-- Annotations of a declaration are linked in order. -/
theorem gains_annotations (linkable : table.Linkable owner) (names : List String) :
    ∃ annotations, table.Gains owner
        (fun entry => { entry with annotations := entry.annotations ++ annotations })
        (names.foldl (annotateByName owner) table) ∧
      Forall₂ (names.foldl (annotateByName owner) table).Denotes names annotations :=
  gains_foldl Denotes
    (fun annotations entry => { entry with annotations := entry.annotations ++ annotations })
    (by simp) (by simp)
    (fun _ name linkable => gains_refer linkable name
      (fun type entry => { entry with annotations := entry.annotations ++ [type] })
      (fun _ _ => rfl) fun _ _ => rfl)
    (fun _ _ _ _ _ denotes amends => denotes.amend amends) names linkable

/-- A member that has been declared may be changed further, apart from its owner. -/
theorem Gains.amend_new (first : before.Gains owner gain middle)
    (second : middle.Amends (· = binding) after) (inTable : owner.index < before.size)
    (isNew : before.size ≤ binding.index) : before.Gains owner gain after where
  toAmends := first.toAmends.andThen second fun other old isMember =>
    absurd old (Nat.not_lt.2 (isMember ▸ isNew))
  owned := by
    rw [← first.owned]
    refine second.entry owner (Nat.lt_of_lt_of_le inTable first.extended.size_le) ?_
    rintro rfl
    exact Nat.not_lt.2 isNew inTable

/-- The entry of an owner with a further member. -/
abbrev withMember (member : BindingId) (entry : Entry) : Entry :=
  { entry with members := entry.members ++ [member] }

/-- A member has been declared as described. -/
structure LoadsMember (owner : BindingId) (described : LibraryMember) (before after : Table)
    (member : BindingId) : Prop where
  apart : member ≠ owner
  gains : before.Gains owner (withMember member) after
  reads : after.ReadsMember owner described member

/-- A new member has the entry that it was made with, and can be linked in turn. -/
theorem gains_newMember (linkable : table.Linkable owner) (made : Entry)
    (isOwner : made.owner = some owner) (noMembers : made.members = [])
    (declared : ¬ made.IsMade) :
    ⟨table.size⟩ ≠ owner ∧
      table.Gains owner (withMember ⟨table.size⟩)
        ((table.push made).2.addMember owner ⟨table.size⟩) ∧
      ((table.push made).2.addMember owner ⟨table.size⟩).Linkable ⟨table.size⟩ ∧
      ((table.push made).2.addMember owner ⟨table.size⟩).entry ⟨table.size⟩ = made := by
  have gains := gains_pushMember linkable isOwner noMembers declared
  have apart : ⟨table.size⟩ ≠ owner := by
    rintro rfl
    exact Nat.lt_irrefl _ linkable.inTable
  have newEntry : ((table.push made).2.addMember owner ⟨table.size⟩).entry ⟨table.size⟩ = made :=
    (entry_modify_of_ne apart).trans entry_push_new
  exact ⟨apart, gains, ⟨gains.sound, by simp, by rwa [newEntry]⟩, newEntry⟩

theorem loadsMember_loadField (linkable : table.Linkable owner) (field : LibraryField) :
    ∃ member, LoadsMember owner (.field field) table (loadField owner table field) member := by
  have referred := (supplements_typeReference table field.type).gains linkable
    (linkable.sound.typeReference field.type)
  have denotes := denotes_typeReference table field.type
  rw [loadField]
  generalize table.typeReference field.type = answer at referred denotes ⊢
  rcases answer with ⟨type, middle⟩
  rcases gains_newMember (linkable.amend referred.toAmends)
    { kind := .variable, name := field.name, qualifiedName := field.name, owner := some owner,
      declaredType := some type } rfl rfl (by simp [Entry.IsMade]) with
    ⟨apart, declared, -, entry⟩
  exact ⟨_, apart, referred.trans declared, .field (denotes.amend declared.toAmends) entry⟩

theorem loadsMember_loadConstructor (linkable : table.Linkable owner)
    (constructor : LibraryConstructor) :
    ∃ member, LoadsMember owner (.constructor constructor) table
      (loadConstructor owner table constructor) member := by
  have referred := (supplements_typeReferences table constructor.parameters).gains linkable
    (sound_typeReferences linkable.sound constructor.parameters)
  have refers := denotes_typeReferences table constructor.parameters
  rw [loadConstructor]
  generalize table.typeReferences constructor.parameters = answer at referred refers ⊢
  rcases answer with ⟨parameters, middle⟩
  simp only at referred refers ⊢
  have still := linkable.amend referred.toAmends
  rcases gains_newMember still
    { kind := .method, name := (middle.entry owner).name,
      qualifiedName := (middle.entry owner).name, owner := some owner, parameters,
      isConstructor := true } rfl rfl (by simp [Entry.IsMade]) with
    ⟨apart, declared, linkableMember, entry⟩
  have flagged := gains_modify linkableMember
    (fun entry => { entry with varargs := constructor.varargs }) (fun _ => rfl) fun _ => rfl
  have given := declared.amend_new flagged.toAmends still.inTable (Nat.le_refl _)
  have newEntry := flagged.owned
  rw [entry] at newEntry
  -- The owner is called the same before and after.
  have sameName := congrArg Entry.name given.owned
  refine ⟨_, apart, referred.trans given,
    .constructor (refers.imp fun _ _ denotes => denotes.amend given.toAmends) ?_⟩
  refine newEntry.trans ?_
  simp only [setVarargs, declareConstructor, addMember, fst_push] at sameName ⊢
  rw [sameName]

theorem loadsMember_loadMethod (linkable : table.Linkable owner) (method : LibraryMethod) :
    ∃ member, LoadsMember owner (.method method) table (loadMethod owner table method) member := by
  have referred := (supplements_typeReferences table method.parameters).gains linkable
    (sound_typeReferences linkable.sound method.parameters)
  have refers := denotes_typeReferences table method.parameters
  rw [loadMethod]
  generalize table.typeReferences method.parameters = answer at referred refers ⊢
  rcases answer with ⟨parameters, first⟩
  have afterParameters := linkable.amend referred.toAmends
  have returned := (supplements_typeReference first (method.returns.getD "void")).gains
    afterParameters (afterParameters.sound.typeReference _)
  have returns := denotes_typeReference first (method.returns.getD "void")
  simp only
  generalize first.typeReference (method.returns.getD "void") = answer at returned returns ⊢
  rcases answer with ⟨result, middle⟩
  have still := afterParameters.amend returned.toAmends
  rcases gains_newMember still
    { kind := .method, name := method.name, qualifiedName := method.name, owner := some owner,
      parameters, declaredType := some result } rfl rfl (by simp [Entry.IsMade]) with
    ⟨apart, declared, linkableMember, entry⟩
  have flagged := gains_modify linkableMember
    (fun entry => { entry with varargs := method.varargs }) (fun _ => rfl) fun _ => rfl
  rcases gains_annotations (linkableMember.amend flagged.toAmends) method.annotations with
    ⟨annotations, annotated, areAnnotations⟩
  have completed := flagged.trans annotated
  have given := declared.amend_new completed.toAmends still.inTable (Nat.le_refl _)
  have newEntry := completed.owned
  rw [entry] at newEntry
  have sinceReturn := (returned.trans given).toAmends
  refine ⟨_, apart, referred.trans (returned.trans given), .method ?_ ?_ areAnnotations newEntry⟩
  · exact refers.imp fun _ _ denotes => denotes.amend sinceReturn
  · exact returns.amend given.toAmends

theorem loadsMember_loadMember (table : Table) (member : LibraryMember)
    (linkable : table.Linkable owner) :
    ∃ given, LoadsMember owner member table (loadMember owner table member) given := by
  cases member with
  | field field => exact loadsMember_loadField linkable field
  | constructor constructor => exact loadsMember_loadConstructor linkable constructor
  | method method => exact loadsMember_loadMethod linkable method

/-- The members of a type are declared in order. -/
theorem gains_members (linkable : table.Linkable owner) (described : List LibraryMember) :
    ∃ members, table.Gains owner (fun entry => { entry with members := entry.members ++ members })
        (described.foldl (loadMember owner) table) ∧
      Forall₂ ((described.foldl (loadMember owner) table).ReadsMember owner)
        described members := by
  rcases gains_foldl
    (fun table described member => member ≠ owner ∧ table.ReadsMember owner described member)
    (fun members entry => { entry with members := entry.members ++ members })
    (by simp) (by simp) (fun table member linkable => by
      rcases loadsMember_loadMember table member linkable with ⟨given, loads⟩
      exact ⟨given, loads.gains, loads.apart, loads.reads⟩)
    (fun _ _ _ _ linkable means amends =>
      ⟨means.1, means.2.amend linkable.inTable amends means.1⟩)
    described linkable with ⟨members, gains, areRead⟩
  exact ⟨members, gains, areRead.imp fun _ _ means => means.2⟩

/-! ## Linking a type -/

/-- A type has been linked: it is given what its description names, in order. -/
structure LinksAs (type : LibraryType) (owner : BindingId) (superclass : Option BindingId)
    (interfaces annotations members : List BindingId) (before after : Table) : Prop where
  gains : before.Gains owner
    (fun entry =>
      { entry with
        superclass := superclass.or entry.superclass
        interfaces := entry.interfaces ++ interfaces
        annotations := entry.annotations ++ annotations
        members := entry.members ++ members })
    after
  above : Option.Rel after.Denotes type.superclass? superclass
  implemented : Forall₂ after.Denotes type.interfaces interfaces
  annotated : Forall₂ after.Denotes type.annotations annotations
  declared : Forall₂ (after.ReadsMember owner) type.members members

theorem linkLibraryType_eq (table : Table) (type : LibraryType) (owner : BindingId) :
    table.linkLibraryType type owner =
      type.members.foldl (loadMember owner)
        (type.annotations.foldl (annotateByName owner)
          (type.interfaces.foldl (linkInterface owner)
            (match type.superclass? with
            | some name => linkSuperclass owner table name
            | none => table))) := by
  simp only [linkLibraryType, LibraryType.members, List.foldl_append, List.foldl_map]
  rfl

theorem gains_superclass (linkable : table.Linkable owner) (described : Option String) :
    ∃ superclass, table.Gains owner
        (fun entry => { entry with superclass := superclass.or entry.superclass })
        (match described with
        | some name => linkSuperclass owner table name
        | none => table) ∧
      Option.Rel (Denotes (match described with
        | some name => linkSuperclass owner table name
        | none => table)) described superclass := by
  cases described with
  | none => exact ⟨none, .refl linkable.sound, .none⟩
  | some name =>
      rcases gains_linkSuperclass linkable name with ⟨superclass, gains, denotes⟩
      exact ⟨some superclass, gains, .some denotes⟩

theorem links_linkLibraryType (linkable : table.Linkable owner) (type : LibraryType) :
    ∃ superclass interfaces annotations members,
      LinksAs type owner superclass interfaces annotations members table
        (table.linkLibraryType type owner) := by
  rw [linkLibraryType_eq]
  rcases gains_superclass linkable type.superclass? with ⟨superclass, first, above⟩
  generalize (match type.superclass? with
    | some name => linkSuperclass owner table name
    | none => table) = afterSuperclass at first above ⊢
  have linkable := linkable.amend first.toAmends
  rcases gains_linkInterfaces linkable type.interfaces with ⟨interfaces, second, implemented⟩
  have linkable := linkable.amend second.toAmends
  rcases gains_annotations linkable type.annotations with ⟨annotations, third, annotated⟩
  have linkable := linkable.amend third.toAmends
  rcases gains_members linkable type.members with ⟨members, fourth, declared⟩
  refine ⟨superclass, interfaces, annotations, members, ?_, ?_, ?_, ?_, declared⟩
  · exact ((first.trans second).trans third).trans fourth
  · exact option_amend above ((second.trans third).trans fourth).toAmends
  · exact implemented.imp fun _ _ denotes => denotes.amend (third.trans fourth).toAmends
  · exact annotated.imp fun _ _ denotes => denotes.amend fourth.toAmends

end Table

end JavaInspect
