import JavaInspect.Java.Lowering.Link
import JavaInspect.Proofs.Binding.Loading
import JavaInspect.Proofs.Java.References

/-!
# Declaring the types of a body

The first pass gives every type of a body a binding, the types nested in it included. Types are
told apart by their names, so two of them may be given one binding. Where that does not happen,
every type has a new binding whose members so far are the types in its body.
-/

namespace JavaInspect.Java

open Phrase

variable {root : Phrase} {base : Nat}

/-- The bindings of phrases by the number of the phrase, the latest first. -/
abbrev Declared := List (Nat × BindingId)

namespace Declared

variable {new declared : Declared} {number : Nat}

theorem lookup_append_of_not_mem (absent : number ∉ new.map (·.1)) :
    (new ++ declared).lookup number = declared.lookup number := by
  have notFound : new.lookup number = none := by
    rw [List.lookup_eq_none_iff]
    rintro ⟨other, binding⟩ isEntry
    rw [bne_iff_ne]
    rintro rfl
    exact absent (List.mem_map_of_mem isEntry)
  rw [List.lookup_append, notFound, Option.none_or]

theorem mem_of_lookup {binding : BindingId} (found : declared.lookup number = some binding) :
    (number, binding) ∈ declared := by
  rcases List.lookup_eq_some_iff.1 found with ⟨_, _, rfl, -⟩
  simp

/-- What is found among declarations was declared last or before. -/
theorem lookup_append_cases {binding : BindingId}
    (found : (new ++ declared).lookup number = some binding) :
    (number, binding) ∈ new ∨ declared.lookup number = some binding := by
  rw [List.lookup_append, Option.or_eq_some_iff] at found
  exact found.imp mem_of_lookup fun ⟨_, old⟩ => old

/-- The bindings of phrases that were declared one after the other. -/
theorem lookup_of_numbers {phrases : List Phrase} (numbered : (phrases.map (·.number)).Nodup)
    (numbers : new.map (·.1) = (phrases.map (·.number)).reverse) :
    phrases.map (fun phrase => (new ++ declared).lookup phrase.number) =
      (new.map (·.2)).reverse.map some := by
  induction phrases generalizing new declared with
  | nil =>
      obtain rfl : new = [] := by simpa using numbers
      rfl
  | cons phrase phrases ih =>
      rw [List.map_cons, List.reverse_cons] at numbers
      obtain ⟨later, first, rfl, isLater, isFirst⟩ := List.map_eq_append_iff.1 numbers
      obtain ⟨⟨number, binding⟩, rfl, rfl⟩ := List.map_eq_singleton_iff.1 isFirst
      rw [List.map_cons, List.nodup_cons] at numbered
      have absent : phrase.number ∉ later.map (·.1) := by
        rw [isLater, List.mem_reverse]
        exact numbered.1
      have rest := @ih later ((phrase.number, binding) :: declared) numbered.2 isLater
      rw [List.append_assoc, List.singleton_append, List.map_cons, rest,
        lookup_append_of_not_mem absent]
      simp

end Declared

/-! ## The types that were declared -/

/-- The numbers of the types of a unit. -/
def Phrase.typeNumbers (root : Phrase) : List Nat :=
  (root.all.filter (·.declaresType)).map (·.number)

/-- The bindings that named types were declared with, the latest first. -/
def typeLog (root : Phrase) (declared : Declared) : List BindingId :=
  (declared.filter fun entry => root.typeNumbers.contains entry.1).map (·.2)

/-- Every declaration of a type led to a binding of its own that the class path had not. -/
structure Unmixed (root : Phrase) (base : Nat) (declared : Declared) : Prop where
  nodup : (typeLog root declared).Nodup
  isNew : ∀ type ∈ typeLog root declared, base ≤ type.index

/-- Named types belong to the class path or were declared. -/
def Registered (root : Phrase) (base : Nat) (table : Table) (declared : Declared) : Prop :=
  ∀ type ∈ table.types.map (·.2), type.index < base ∨ type ∈ typeLog root declared

section Log

variable {new declared : Declared} {phrase other : Phrase} {type : BindingId} {table : Table}

@[simp] theorem typeLog_append :
    typeLog root (new ++ declared) = typeLog root new ++ typeLog root declared := by
  simp [typeLog]

theorem mem_typeNumbers (inRoot : phrase ∈ root.all) (isType : phrase.declaresType) :
    phrase.number ∈ root.typeNumbers :=
  List.mem_map_of_mem (List.mem_filter.2 ⟨inRoot, isType⟩)

theorem declaresType_of_mem_typeNumbers (numbered : root.numbers.Nodup)
    (inRoot : phrase ∈ root.all) (isNumber : phrase.number ∈ root.typeNumbers) :
    phrase.declaresType := by
  rcases List.mem_map.1 isNumber with ⟨type, isType, same⟩
  rcases List.mem_filter.1 isType with ⟨typeInRoot, isType⟩
  exact eq_of_number_eq numbered typeInRoot inRoot same ▸ isType

theorem typeLog_of_types (isType : ∀ entry ∈ new, entry.1 ∈ root.typeNumbers) :
    typeLog root new = new.map (·.2) := by
  rw [typeLog, List.filter_eq_self.2]
  simpa using isType

theorem typeLog_of_values (noType : ∀ entry ∈ new, entry.1 ∉ root.typeNumbers) :
    typeLog root new = [] := by
  rw [typeLog, List.filter_eq_nil_iff.2, List.map_nil]
  simpa using noType

theorem Unmixed.of_append (unmixed : Unmixed root base (new ++ declared)) :
    Unmixed root base declared where
  nodup := (List.nodup_append.1 (typeLog_append ▸ unmixed.nodup)).2.1
  isNew type isLogged := unmixed.isNew type (by simp [isLogged])

/-- The last declared types were not declared before. -/
theorem Unmixed.not_mem (unmixed : Unmixed root base (new ++ declared))
    (isNew : type ∈ typeLog root new) : type ∉ typeLog root declared := fun isOld =>
  (List.nodup_append.1 (typeLog_append ▸ unmixed.nodup)).2.2 type isNew type isOld rfl

/-- A binding was declared for one type only. -/
theorem Unmixed.type_unique (unmixed : Unmixed root base declared) (numbered : root.numbers.Nodup)
    (inRoot : phrase ∈ root.all) (isType : phrase.declaresType)
    (otherInRoot : other ∈ root.all) (otherIsType : other.declaresType)
    (found : declared.lookup phrase.number = some type)
    (otherFound : declared.lookup other.number = some type) : phrase = other := by
  have logged : ∀ {phrase : Phrase}, phrase ∈ root.all → phrase.declaresType →
      declared.lookup phrase.number = some type →
        (phrase.number, type) ∈ declared.filter fun entry => root.typeNumbers.contains entry.1 :=
    fun inRoot isType found => List.mem_filter.2
      ⟨Declared.mem_of_lookup found, by simpa using mem_typeNumbers inRoot isType⟩
  have same := List.inj_on_of_nodup_map unmixed.nodup (logged inRoot isType found)
    (logged otherInRoot otherIsType otherFound) rfl
  exact eq_of_number_eq numbered inRoot otherInRoot (congrArg Prod.fst same)

theorem Registered.names {outer : Option BindingId} {later : Table}
    (registered : Registered root base table declared) (inRoot : phrase ∈ root.all)
    (isType : phrase.declaresType) (names : Table.Names outer table (type, later)) :
    Registered root base later ((phrase.number, type) :: declared) := by
  have logged : typeLog root ([(phrase.number, type)] ++ declared) =
      type :: typeLog root declared := by
    rw [typeLog_append, typeLog_of_types (by simpa using mem_typeNumbers inRoot isType)]
    rfl
  have old : ∀ other ∈ table.types.map (·.2),
      other.index < base ∨ other ∈ type :: typeLog root declared :=
    fun other isListed => (registered other isListed).imp_right (List.mem_cons_of_mem _)
  change ∀ other ∈ later.types.map (·.2),
    other.index < base ∨ other ∈ typeLog root ([(phrase.number, type)] ++ declared)
  rw [logged]
  rcases names with ⟨same, -⟩ | added
  · obtain rfl : later = table := same
    exact old
  · intro other isListed
    rcases added.registered other isListed with isOld | same
    · exact old other isOld
    · exact .inr (List.mem_cons.2 (.inl same))

end Log

/-! ## The first pass -/

/-- The types of some members have been declared, nested ones included. What the bindings are
like is known where no two types share one. -/
structure DeclaresTypes (root : Phrase) (base : Nat) (outer : Option BindingId)
    (members : List Phrase) (new : Declared) (before after : Lowering) : Prop where
  state : ∃ table declared, after = { before with table, declared }
  typed : after.table.Typed
  declared : after.declared = new ++ before.declared
  numbers : new.map (·.1) = ((members.flatMap types).map (·.number)).reverse
  isType : ∀ entry ∈ new, after.table.Holds .type entry.2
  registered : ∀ type ∈ after.table.types.map (·.2),
    type ∈ before.table.types.map (·.2) ∨ type ∈ new.map (·.2)
  kept : ∀ type ∈ before.table.types.map (·.2), type ∈ after.table.types.map (·.2)
  enters : ∀ entry ∈ new, entry.2 ∈ before.table.types.map (·.2) ∨
    before.table.size ≤ entry.2.index
  grows : before.table.Grows (fun binding => outer = some binding ∨ binding ∈ new.map (·.2))
    after.table
  isNew : Unmixed root base after.declared → ∀ type ∈ new.map (·.2), before.table.size ≤ type.index
  bare : Unmixed root base after.declared → ∀ phrase ∈ members.flatMap types, ∀ type,
    after.declared.lookup phrase.number = some type →
      (after.table.entry type).members.map some = (phrase.bodyMembers.filter (·.declaresType)).map
        fun member => after.declared.lookup member.number
  listed : Unmixed root base after.declared → ∀ type, outer = some type →
    (after.table.entry type).members.map some = (before.table.entry type).members.map some ++
      (members.filter (·.declaresType)).map fun member => after.declared.lookup member.number

namespace DeclaresTypes

variable {outer : Option BindingId} {members rest : List Phrase} {new newer : Declared}
  {before middle after : Lowering}

theorem nil (typed : before.table.Typed) :
    DeclaresTypes root base outer [] [] before before where
  state := ⟨_, _, rfl⟩
  typed := typed
  declared := rfl
  numbers := rfl
  isType := by simp
  registered _ := .inl
  kept _ := id
  enters := by simp
  grows := .refl
  isNew := by simp
  bare := by simp
  listed := by simp

theorem mem_numbersOf (declares : DeclaresTypes root base outer members new before after) {number : Nat}
    (isNew : number ∈ new.map (·.1)) : number ∈ numbersOf members := by
  rw [declares.numbers, List.mem_reverse, List.mem_map] at isNew
  rcases isNew with ⟨type, isType, rfl⟩
  rcases List.mem_flatMap.1 isType with ⟨member, isMember, inMember⟩
  exact ((all_sublist_allOf isMember).map _).subset (mem_numbers (mem_all_of_mem_types inMember))

theorem typeLog_new (declares : DeclaresTypes root base outer members new before after)
    (inRoot : ∀ member ∈ members, member ∈ root.all) : typeLog root new = new.map (·.2) := by
  apply typeLog_of_types
  intro entry isEntry
  have isNumber : entry.1 ∈ new.map (·.1) := List.mem_map_of_mem isEntry
  rw [declares.numbers, List.mem_reverse, List.mem_map] at isNumber
  rcases isNumber with ⟨type, isType, same⟩
  rcases List.mem_flatMap.1 isType with ⟨member, isMember, inMember⟩
  exact same ▸ mem_typeNumbers (mem_all_trans (inRoot member isMember)
    (mem_all_of_mem_types inMember)) (declaresType_of_mem_types inMember)

/-- A type of the members is found with one of the new bindings. -/
theorem mem_new (declares : DeclaresTypes root base outer members new before after)
    {phrase : Phrase} (isIn : phrase ∈ members.flatMap types) {type : BindingId}
    (found : after.declared.lookup phrase.number = some type) : type ∈ new.map (·.2) := by
  rw [declares.declared, List.lookup_append] at found
  have isNumber : phrase.number ∈ new.map (·.1) := by
    rw [declares.numbers, List.mem_reverse]
    exact List.mem_map_of_mem isIn
  cases inNew : new.lookup phrase.number with
  | some binding =>
      rw [inNew, Option.some_or] at found
      exact Option.some.inj found ▸ List.mem_map_of_mem (Declared.mem_of_lookup inNew)
  | none =>
      rcases List.mem_map.1 isNumber with ⟨entry, isEntry, same⟩
      have differs := List.lookup_eq_none_iff.1 inNew entry isEntry
      simp [same] at differs

/-- Types that have come to be listed under a name are new. -/
theorem registers (declares : DeclaresTypes root base outer members new before after) :
    ∀ type ∈ after.table.types.map (·.2), type ∈ before.table.types.map (·.2) ∨
      before.table.size ≤ type.index := by
  intro type isListed
  rcases declares.registered type isListed with isListed | isNew
  · exact .inl isListed
  · rcases List.mem_map.1 isNew with ⟨entry, isEntry, rfl⟩
    exact declares.enters entry isEntry

theorem append (first : DeclaresTypes root base outer members new before middle)
    (second : DeclaresTypes root base outer rest newer middle after)
    (numbered : (numbersOf (members ++ rest)).Nodup)
    (outerInTable : ∀ type, outer = some type → type.index < before.table.size) :
    DeclaresTypes root base outer (members ++ rest) (newer ++ new) before after := by
  have apart : ∀ {inner : Phrase}, inner ∈ allOf members → inner.number ∉ newer.map (·.1) := by
    intro inner inside isNewer
    rw [numbersOf, allOf_append, List.map_append, List.nodup_append] at numbered
    exact numbered.2.2 _ (List.mem_map_of_mem inside) _ (second.mem_numbersOf isNewer) rfl
  have sameLookup : ∀ {inner : Phrase}, inner ∈ allOf members →
      after.declared.lookup inner.number = middle.declared.lookup inner.number := by
    intro inner inside
    rw [second.declared, Declared.lookup_append_of_not_mem (apart inside)]
  have earlier : Unmixed root base after.declared → Unmixed root base middle.declared :=
    fun unmixed => .of_append (second.declared ▸ unmixed)
  constructor
  case state =>
    rcases first.state with ⟨_, _, rfl⟩
    rcases second.state with ⟨_, _, rfl⟩
    exact ⟨_, _, rfl⟩
  case typed => exact second.typed
  case declared => rw [second.declared, first.declared, List.append_assoc]
  case numbers => simp [first.numbers, second.numbers]
  case isType =>
    intro entry isEntry
    rcases List.mem_append.1 isEntry with later | sooner
    · exact second.isType entry later
    · exact second.grows.holds (first.isType entry sooner)
  case registered =>
    intro type isListed
    simp only [List.map_append, List.mem_append]
    rcases second.registered type isListed with isListed | isNewer
    · exact (first.registered type isListed).imp_right .inr
    · exact .inr (.inl isNewer)
  case kept => exact fun type isListed => second.kept type (first.kept type isListed)
  case enters =>
    intro entry isEntry
    rcases List.mem_append.1 isEntry with later | sooner
    · rcases second.enters entry later with isListed | isNew
      · exact first.registers _ isListed
      · exact .inr (Nat.le_trans first.grows.size_le isNew)
    · exact first.enters entry sooner
  case grows =>
    refine (first.grows.imp fun _ _ => ?_).trans (second.grows.imp fun _ _ => ?_)
    all_goals
      simp only [List.map_append, List.mem_append]
      tauto
  case isNew =>
    intro unmixed type isNew
    rw [List.map_append, List.mem_append] at isNew
    rcases isNew with later | sooner
    · exact Nat.le_trans first.grows.size_le (second.isNew unmixed type later)
    · exact first.isNew (earlier unmixed) type sooner
  case bare =>
    intro unmixed phrase isIn type found
    rw [List.flatMap_append, List.mem_append] at isIn
    rcases isIn with sooner | later
    · have inside : ∀ inner ∈ phrase.all, inner ∈ allOf members := by
        rcases List.mem_flatMap.1 sooner with ⟨member, isMember, inMember⟩
        exact fun inner inPhrase => mem_allOf.2
          ⟨member, isMember, mem_all_trans (mem_all_of_mem_types inMember) inPhrase⟩
      rw [sameLookup (inside phrase mem_all_self)] at found
      -- The types of the other members have newer bindings, the outer type an older one.
      have isNew := first.mem_new sooner found
      have isOld : type.index < middle.table.size := by
        rcases List.mem_map.1 isNew with ⟨entry, isEntry, rfl⟩
        exact (first.isType entry isEntry).1
      have unchanged := second.grows.same type isOld <| by
        rintro (isOuter | isNewer)
        · have above := first.isNew (earlier unmixed) type isNew
          exact Nat.not_lt.2 above (outerInTable type isOuter)
        · exact Nat.not_lt.2 (second.isNew unmixed type isNewer) isOld
      rw [unchanged, first.bare (earlier unmixed) phrase sooner type found]
      refine List.map_congr_left fun member isMember => (sameLookup (inside member ?_)).symm
      exact mem_all_of_bodyMember (List.mem_of_mem_filter isMember)
    · exact second.bare unmixed phrase later type found
  case listed =>
    intro unmixed type isOuter
    rw [second.listed unmixed type isOuter, first.listed (earlier unmixed) type isOuter,
      List.filter_append, List.map_append, List.append_assoc]
    congr 2
    refine List.map_congr_left fun member isMember => (sameLookup ?_).symm
    exact mem_allOf_of_mem (List.mem_of_mem_filter isMember)

theorem isRegistered (declares : DeclaresTypes root base outer members new before after)
    (inRoot : ∀ member ∈ members, member ∈ root.all)
    (registered : Registered root base before.table before.declared) :
    Registered root base after.table after.declared := by
  intro type isListed
  rw [declares.declared, typeLog_append, declares.typeLog_new inRoot, List.mem_append]
  rcases declares.registered type isListed with isListed | isNew
  · exact (registered type isListed).imp_right .inr
  · exact .inr (.inl isNew)

/-- Members that are no types declare none. -/
theorem none {member : Phrase} (typed : before.table.Typed) (noType : ¬ member.declaresType) :
    DeclaresTypes root base outer [member] [] before before where
  state := ⟨_, _, rfl⟩
  typed := typed
  declared := rfl
  numbers := by simp [types_eq_nil noType]
  isType := by simp
  registered _ := .inl
  kept _ := id
  enters := by simp
  grows := .refl
  isNew := by simp
  bare := by simp [types_eq_nil noType]
  listed := by simp [noType]

/-- A type is declared after the types around it and before those in its body. -/
theorem single {member : Phrase} {type : BindingId} {table : Table}
    (inRoot : member ∈ root.all) (numbered : member.numbers.Nodup) (isType : member.declaresType)
    (typed : before.table.Typed) (registered : Registered root base before.table before.declared)
    (outerInTable : ∀ type, outer = some type → type.index < before.table.size)
    (names : Table.Names outer before.table (type, table))
    (inner : DeclaresTypes root base (some type) member.bodyMembers new
      { before with table, declared := (member.number, type) :: before.declared } after) :
    DeclaresTypes root base outer [member] (new ++ [(member.number, type)]) before after := by
  have declared : after.declared = (new ++ [(member.number, type)]) ++ before.declared := by
    rw [inner.declared, List.append_assoc, List.singleton_append]
  have holds : table.Holds .type type := (names.furthers typed).2
  have last : typeLog root [(member.number, type)] = [type] :=
    typeLog_of_types (by simpa using mem_typeNumbers inRoot isType)
  -- A type that is found under its name was declared before, or the class path has it.
  have added : Unmixed root base after.declared → Table.AddsType outer before.table (type, table) := by
    intro unmixed
    have unmixed : Unmixed root base ([(member.number, type)] ++ before.declared) :=
      .of_append (inner.declared ▸ unmixed)
    rcases names with ⟨-, known⟩ | added
    · rcases registered type known with isOld | isLogged
      · have logged : type ∈ typeLog root ([(member.number, type)] ++ before.declared) := by
          rw [typeLog_append, last]
          exact List.mem_append_left _ (List.mem_singleton_self _)
        exact absurd (unmixed.isNew type logged) (Nat.not_le.2 isOld)
      · exact absurd isLogged (unmixed.not_mem (by simp [last]))
    · exact added
  have absent : member.number ∉ new.map (·.1) := by
    intro isNumber
    exact number_not_mem_parts numbered
      ((allOf_bodyMembers_sublist.map (·.number)).subset (inner.mem_numbersOf isNumber))
  have found : after.declared.lookup member.number = some type := by
    rw [inner.declared, Declared.lookup_append_of_not_mem absent]
    simp
  have firstGrows : before.table.Grows (fun binding => outer = some binding) table := by
    rcases names with ⟨same, -⟩ | added
    · exact same ▸ .refl
    · exact added.grows
  have size_le : before.table.size ≤ table.size := firstGrows.size_le
  constructor
  case state =>
    rcases inner.state with ⟨_, _, rfl⟩
    exact ⟨_, _, rfl⟩
  case typed => exact inner.typed
  case declared => exact declared
  case numbers => simp [inner.numbers, types_eq_cons isType]
  case isType =>
    intro entry isEntry
    rcases List.mem_append.1 isEntry with later | here
    · exact inner.isType entry later
    · obtain rfl := List.mem_singleton.1 here
      exact inner.grows.holds holds
  case registered =>
    intro other isListed
    simp only [List.map_append, List.map_cons, List.map_nil, List.mem_append, List.mem_singleton]
    rcases inner.registered other isListed with isListed | isNew
    · rcases names with ⟨same, -⟩ | added
      · exact .inl (same ▸ isListed)
      · exact (added.registered other isListed).imp_right .inr
    · exact .inr (.inl isNew)
  case kept =>
    refine fun other isListed => inner.kept other ?_
    rcases names with ⟨same, -⟩ | added
    · obtain rfl : table = before.table := same
      exact isListed
    · exact added.kept other isListed
  case enters =>
    intro entry isEntry
    rcases List.mem_append.1 isEntry with later | here
    · rcases inner.enters entry later with isListed | isNew
      · rcases names with ⟨same, -⟩ | added
        · exact .inl (same ▸ isListed)
        · refine (added.registered _ isListed).imp_right fun same => ?_
          rw [same]
          exact added.isNew
      · exact .inr (Nat.le_trans size_le isNew)
    · obtain rfl := List.mem_singleton.1 here
      exact names.imp (·.2) (·.isNew)
  case grows =>
    refine (firstGrows.imp fun _ _ => .inl).trans (inner.grows.imp fun other _ => ?_)
    simp only [Option.some.injEq, List.map_append, List.map_cons, List.map_nil, List.mem_append,
      List.mem_singleton]
    rintro (rfl | isNew)
    · exact .inr (.inr rfl)
    · exact .inr (.inl isNew)
  case isNew =>
    intro unmixed other isNew
    rw [List.map_append, List.mem_append] at isNew
    rcases isNew with later | here
    · exact Nat.le_trans size_le (inner.isNew unmixed other later)
    · obtain rfl := List.mem_singleton.1 here
      exact (added unmixed).isNew
  case bare =>
    intro unmixed phrase isIn other isOther
    rw [List.flatMap_singleton, types_eq_cons isType, List.mem_cons] at isIn
    rcases isIn with rfl | below
    · obtain rfl := Option.some.inj (found.symm.trans isOther)
      have noMembers : (table.entry type).members = [] := (added unmixed).noMembers
      rw [inner.listed unmixed type rfl, noMembers]
      rfl
    · exact inner.bare unmixed phrase below other isOther
  case listed =>
    intro unmixed other isOuter
    have isOld := outerInTable other isOuter
    have above : before.table.size ≤ type.index := (added unmixed).isNew
    have unchanged := inner.grows.same other (firstGrows.lt isOld) <| by
      rintro (same | isNew)
      · obtain rfl := Option.some.inj same
        exact Nat.not_lt.2 above isOld
      · exact Nat.not_lt.2 (Nat.le_trans size_le (inner.isNew unmixed other isNew)) isOld
    have listed : (table.entry other).members = (before.table.entry other).members ++ [type] :=
      (added unmixed).listed other isOuter
    rw [unchanged, listed]
    simp [isType, found]

end DeclaresTypes

namespace Lower

variable {source : Source} {container : Phrase} {outer : Option BindingId} {before : Lowering}

/-- A type is declared when its binding has been found, and then the types in its body are. -/
theorem declaresTypes_declare {depth : Nat} {member : Phrase} {type : BindingId} {table : Table}
    (inRoot : member ∈ root.all) (numbered : member.numbers.Nodup) (isType : member.declaresType)
    (typed : before.table.Typed) (registered : Registered root base before.table before.declared)
    (outerInTable : ∀ type, outer = some type → type.index < before.table.size)
    (names : Table.Names outer before.table (type, table)) (isListed : type ∈ table.named)
    (inner : ∀ body, member.part? .body = some body →
      Ensures (declareTypes source depth body (some type))
        { before with table, declared := (member.number, type) :: before.declared } fun _ after =>
          ∃ new, DeclaresTypes root base (some type) body.members new
            { before with table, declared := (member.number, type) :: before.declared } after ∧
              ∀ entry ∈ new, entry.2 ∈ after.table.named) :
    Ensures (do
      declare member type
      if let some body := member.part? .body then
        declareTypes source depth body (some type)) { before with table } fun _ after =>
          ∃ new, DeclaresTypes root base outer [member] new before after ∧
            ∀ entry ∈ new, entry.2 ∈ after.table.named := by
  have ends : ∀ after, (∃ new, DeclaresTypes root base (some type) member.bodyMembers new
      { before with table, declared := (member.number, type) :: before.declared } after ∧
        ∀ entry ∈ new, entry.2 ∈ after.table.named) →
      ∃ new, DeclaresTypes root base outer [member] new before after ∧
        ∀ entry ∈ new, entry.2 ∈ after.table.named := by
    rintro after ⟨new, inner, allListed⟩
    refine ⟨_, .single inRoot numbered isType typed registered outerInTable names inner, ?_⟩
    exact List.forall_mem_append.2 ⟨allListed, List.forall_mem_singleton.2 (inner.kept type isListed)⟩
  refine .step (Ensures.imp ?_ fun _ => ends)
  unfold bodyMembers
  split
  case h_1 body isBody =>
    rw [isBody]
    exact inner body isBody
  case h_2 noBody =>
    have absent : member.part? .body = none := by
      cases found : member.part? .body with
      | none => rfl
      | some body => exact (noBody body found).elim
    rw [absent]
    exact ⟨[], .nil (names.furthers typed).1.typed, by simp⟩

/-- All types of a body are declared, and listed under a name. -/
theorem declaresTypes_declareTypes (unit : root.Grammatical) {depth : Nat}
    (inRoot : ∀ member ∈ container.members, member ∈ root.all)
    (numbered : (numbersOf container.members).Nodup)
    (deep : ∀ member ∈ container.members, member.height ≤ depth)
    (typed : before.table.Typed) (registered : Registered root base before.table before.declared)
    (outerInTable : ∀ type, outer = some type → type.index < before.table.size) :
    Ensures (declareTypes source depth container outer) before fun _ after =>
      ∃ new, DeclaresTypes root base outer container.members new before after ∧
        ∀ entry ∈ new, entry.2 ∈ after.table.named := by
  induction depth generalizing container outer before with
  | zero =>
      have noMembers : container.members = [] := List.eq_nil_iff_forall_not_mem.2
        fun member isMember => Nat.not_lt.2 (deep member isMember) height_pos
      exact ⟨[], noMembers ▸ .nil typed, by simp⟩
  | succ depth ih =>
      unfold declareTypes
      refine (Ensures.forM (fun rest middle => ∃ done new, container.members = done ++ rest ∧
        DeclaresTypes root base outer done new before middle ∧
          ∀ entry ∈ new, entry.2 ∈ middle.table.named) ?_ ?_).imp ?_
      case refine_1 => exact ⟨[], [], rfl, .nil typed, by simp⟩
      case refine_3 =>
        rintro _ after ⟨done, new, isAll, declares⟩
        rw [List.append_nil] at isAll
        exact ⟨new, isAll ▸ declares⟩
      case refine_2 =>
        rintro member rest middle ⟨done, new, split, declares, allListed⟩
        rw [split] at inRoot numbered deep
        have doneInRoot : ∀ member ∈ done, member ∈ root.all :=
          fun member isMember => inRoot member (List.mem_append_left _ isMember)
        have memberInRoot : member ∈ root.all := inRoot member (by simp)
        have memberNumbered := numbered_of_mem unit.numbered memberInRoot
        have stays : ∀ type, outer = some type → type.index < middle.table.size :=
          fun type isOuter => declares.grows.lt (outerInTable type isOuter)
        have isRegistered := declares.isRegistered doneInRoot registered
        -- It is enough to account for the member at hand.
        suffices single : ∀ action : Lower Unit, Ensures action middle (fun _ after => ∃ newer,
            DeclaresTypes root base outer [member] newer middle after ∧
              ∀ entry ∈ newer, entry.2 ∈ after.table.named) →
            Ensures action middle fun _ after => ∃ done new, container.members = done ++ rest ∧
              DeclaresTypes root base outer done new before after ∧
                ∀ entry ∈ new, entry.2 ∈ after.table.named by
          apply single
          dsimp only
          split
          case h_1 kind isKind =>
            have isType : member.declaresType := by simp [declaresType, isKind]
            have hasName : member.construct.hasName := by
              unfold Construct.typeKind? at isKind
              unfold Construct.hasName
              split at isKind <;> simp_all
            obtain ⟨name, isName⟩ := Option.isSome_iff_exists.1
              ((unit.shaped member memberInRoot).named hasName)
            rw [isName]
            -- Whichever way the binding is found, the types of the body come next.
            have inner : ∀ type table, Table.Names outer middle.table (type, table) →
                ∀ body, member.part? .body = some body →
                  Ensures (declareTypes source depth body (some type))
                    { middle with table, declared := (member.number, type) :: middle.declared }
                    fun _ after => ∃ newer, DeclaresTypes root base (some type) body.members newer
                      { middle with table, declared := (member.number, type) :: middle.declared }
                      after ∧ ∀ entry ∈ newer, entry.2 ∈ after.table.named := by
              intro type table names body isBody
              rcases names.furthers declares.typed with ⟨furthers, holds⟩
              have isPart := mem_all_of_part (mem_parts_of_slot isBody)
              refine ih ?_ ?_ ?_ furthers.typed (isRegistered.names memberInRoot isType names) ?_
              · exact fun inner isMember =>
                  mem_all_trans memberInRoot (mem_all_trans isPart (mem_all_of_member isMember))
              · exact ((allOf_members_sublist.trans allOf_parts_sublist).map _).nodup
                  (numbered_of_mem memberNumbered isPart)
              · exact fun inner isMember => Nat.le_of_lt_succ (Nat.lt_of_lt_of_le
                  (Nat.lt_of_lt_of_le (height_lt_of_member isMember) (height_le_of_mem_all isPart))
                  (deep member (by simp)))
              · rintro _ ⟨⟩
                exact holds.1
            have ends := fun type table isListed names => declaresTypes_declare memberInRoot
              memberNumbered isType declares.typed isRegistered stays names isListed
              (inner type table names)
            dsimp only
            split
            case h_1 =>
              exact ends _ _ Table.listed_declareNestedType
                (declares.typed.names_declareNestedType (stays _ rfl) _ kind)
            case h_2 =>
              exact ends _ _ Table.listed_declareType (declares.typed.names_declareType _ kind)
          case h_2 noKind =>
            have noType : ¬ member.declaresType := by
              have absent : member.construct.typeKind? = none := by
                cases found : member.construct.typeKind? with
                | none => rfl
                | some kind => exact (noKind kind found).elim
              simp [declaresType, absent]
            exact ⟨[], .none declares.typed noType, by simp⟩
        intro action ensures
        refine ensures.imp ?_
        rintro _ after ⟨newer, single, newerListed⟩
        refine ⟨done ++ [member], newer ++ new, by simp [split],
          declares.append single ?_ outerInTable, ?_⟩
        · refine List.Nodup.sublist (List.Sublist.map _ (allOf_sublist ?_)) numbered
          simp
        · exact List.forall_mem_append.2
            ⟨newerListed, fun entry isEntry => single.kept _ (allListed entry isEntry)⟩

end Lower

end JavaInspect.Java
