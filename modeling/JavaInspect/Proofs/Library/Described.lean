import JavaInspect.Proofs.Library.Linking

/-!
# Loaded class paths

Every type of a class path is declared before any is linked, so that a reference stands for the
type of its name wherever in the list that is. In the end the table has just the types that are
described, each reads as its description, and a reference is recovered just where it must be.
-/

namespace JavaInspect

open List

/-- The entry of a library type that has been declared and not linked yet. -/
def LibraryType.declaration (type : LibraryType) (package : Option BindingId) : Entry :=
  { kind := .type
    name := Text.simpleName type.name
    qualifiedName := type.name
    typeKind := some type.kind.typeKind
    owner := package }

theorem LibraryType.not_isMade_declaration {type : LibraryType} {package : Option BindingId} :
    ¬ (type.declaration package).IsMade := by
  cases isKind : type.kind <;>
    simp [LibraryType.declaration, Entry.IsMade, LibraryKind.typeKind, isKind]

theorem ClassPath.described_of_get? {path : ClassPath} {name : String} {type : LibraryType}
    (found : path.get? name = some type) : type ∈ path.types ∧ type.name = name :=
  ⟨mem_of_find?_eq_some found, by simpa using find?_some found⟩

namespace Table

variable {table before middle after : Table} {binding other : BindingId} {name base : String}
  {type : LibraryType} {types : List LibraryType} {path : ClassPath} {entry : Entry} {key : Key}
  {package : Option BindingId} {changed : BindingId → Prop}

/-- What is kept for a package, a primitive type, a placeholder or an array is what was made. -/
theorem Sound.entry_eq (sound : table.Sound) (found : key.find? table = some binding)
    (made : key.made? table = some entry) : table.entry binding = entry := by
  have settled := sound.canonical.made key binding entry found made
  have sameKind := Entry.eq_of_settled Entry.typeKind (fun _ => rfl) settled
  have isMade : entry.IsMade := by cases key <;> cases made <;> simp [Entry.IsMade]
  rw [sound.plain binding ((Entry.isMade_iff settled).2 isMade), settled, sameKind,
    ← Key.plain_made made isMade]

/-! ## Declaring -/

/-- The package that a table has for a type of the given name, if the name has one. -/
def PackageFor (table : Table) (name : String) (package : Option BindingId) : Prop :=
  Option.Rel (fun qualifier package => (Key.package qualifier).find? table = some package)
    ((Text.splitQualified? name).map (·.1)) package

theorem PackageFor.extend (packaged : before.PackageFor name package)
    (extended : before.Extends after) : after.PackageFor name package := by
  rw [PackageFor] at packaged ⊢
  generalize (Text.splitQualified? name).map (·.1) = qualifier at packaged ⊢
  cases packaged with
  | some found => exact .some (extended.find? _ _ found)
  | none => exact .none

theorem packageFor_packageOf (table : Table) (name : String) :
    (table.packageOf name).2.PackageFor name (table.packageOf name).1 := by
  rw [PackageFor, packageOf]
  cases Text.splitQualified? name with
  | none => exact .none
  | some parts =>
      rcases parts with ⟨qualifier, simple⟩
      simp only [package_eq]
      exact .some find?_findOrPush

theorem supplements_packageOf (table : Table) (name : String) :
    table.Supplements (table.packageOf name).2 := by
  rw [packageOf]
  split
  case h_1 =>
    rw [package_eq]
    exact supplements_findOrPush rfl
  case h_2 => exact refl_of Supplements table

theorem Plain.packageOf (plain : table.Plain) (name : String) :
    (table.packageOf name).2.Plain := by
  rw [Table.packageOf]
  split
  case h_1 =>
    rw [package_eq]
    exact plain.findOrPush rfl
  case h_2 => exact plain

/-- A described type has been declared. -/
structure Declared (table : Table) (type : LibraryType) (binding : BindingId) : Prop where
  found : table.lookupType type.name = some binding
  declaration : ∃ package, table.PackageFor type.name package ∧
    table.entry binding = type.declaration package

/-- Types of some names have been declared, and nothing else has changed. -/
structure Registers (names : List String) (before after : Table) : Prop where
  extended : before.Extends after
  entry : ∀ binding, binding.index < before.size → after.entry binding = before.entry binding
  hidden : after.hidden = before.hidden
  sound : after.Sound
  undeclared : ∀ name, after.lookupType name = none ↔
    before.lookupType name = none ∧ name ∉ names

theorem Declared.inTable (declared : table.Declared type binding) : binding.index < table.size := by
  rcases declared.declaration with ⟨package, -, entry⟩
  exact index_lt_of_entry Entry.typeKind rfl (congrArg Entry.typeKind entry)

theorem Declared.extend (declared : before.Declared type binding)
    (extended : before.Extends after) (sameEntry : after.entry binding = before.entry binding) :
    after.Declared type binding := by
  rcases declared.declaration with ⟨package, packaged, entry⟩
  exact ⟨extended.find? (.type type.name) binding declared.found, package,
    packaged.extend extended, sameEntry.trans entry⟩

theorem find?_type (table : Table) (name : String) :
    (Key.type name).find? table = table.lookupType name :=
  rfl

theorem declareType_of_absent (type : LibraryType)
    (absent : table.lookupType type.name = none) :
    table.declareType type.name type.kind.typeKind =
      (⟨(table.packageOf type.name).2.size⟩,
        ((table.packageOf type.name).2.push
          (type.declaration (table.packageOf type.name).1)).2.keep
            ⟨(table.packageOf type.name).2.size⟩ (.type type.name)) := by
  rw [lookupType] at absent
  rw [declareType, absent]
  rfl

theorem registers_declareType (sound : table.Sound) (type : LibraryType)
    (absent : table.lookupType type.name = none) :
    Registers [type.name] table (table.declareType type.name type.kind.typeKind).2 ∧
      (table.declareType type.name type.kind.typeKind).2.Declared type
        (table.declareType type.name type.kind.typeKind).1 := by
  have canonical := sound.canonical.declareType type.name type.kind.typeKind
  have packaged := packageFor_packageOf table type.name
  have supplements := supplements_packageOf table type.name
  have plain := sound.plain.packageOf type.name
  rw [declareType_of_absent type absent] at canonical ⊢
  generalize table.packageOf type.name = answer at packaged supplements plain canonical ⊢
  rcases answer with ⟨package, middle⟩
  simp only at packaged supplements plain canonical ⊢
  have absentInMiddle : (Key.type type.name).find? middle = none := by
    rw [Key.find?, supplements.types]
    exact absent
  have kept : Change [] none (middle.push (type.declaration package)).2
      ((middle.push (type.declaration package)).2.keep ⟨middle.size⟩ (.type type.name)) :=
    .keep (find?_push.trans absentInMiddle) (by simp)
      (by simp [Key.Describes, LibraryType.declaration])
  have declared := trans_of Extends (Grown.push rfl).extended kept.extended
  refine ⟨⟨trans_of Extends supplements.extended declared, ?_, ?_, ⟨canonical, ?_⟩, ?_⟩,
    by rw [← find?_type, find?_keep, if_pos rfl], package, packaged.extend declared, ?_⟩
  case refine_1 =>
    intro binding old
    rw [entry_keep, entry_push_old (Nat.lt_of_lt_of_le old supplements.extended.size_le)]
    exact supplements.entry binding old
  case refine_2 => exact supplements.hidden
  case refine_3 =>
    intro binding
    rw [entry_keep]
    exact plain.push (Entry.plain_of_not_isMade LibraryType.not_isMade_declaration) binding
  case refine_4 =>
    intro name
    rw [← find?_type, find?_keep, find?_push, find?_type, lookupType, supplements.types, lookupType]
    by_cases same : name = type.name <;> simp [same]
  case refine_5 => rw [entry_keep, entry_push_new]

theorem Registers.lookupType {names : List String} (registers : Registers names before after)
    (found : before.lookupType name = some binding) : after.lookupType name = some binding :=
  registers.extended.find? (.type name) binding found

theorem Registers.trans {names others : List String} (first : Registers names before middle)
    (second : Registers others middle after) : Registers (names ++ others) before after where
  extended := trans_of Extends first.extended second.extended
  entry binding old :=
    (second.entry binding (Nat.lt_of_lt_of_le old first.extended.size_le)).trans
      (first.entry binding old)
  hidden := second.hidden.trans first.hidden
  sound := second.sound
  undeclared name := by
    rw [second.undeclared, first.undeclared, mem_append, not_or, and_assoc]

theorem registers_declareType_again (sound : table.Sound) (type : LibraryType)
    (found : table.lookupType type.name = some binding) :
    table.declareType type.name type.kind.typeKind = (binding, table) ∧
      Registers [type.name] table table := by
  constructor
  · rw [lookupType] at found
    rw [declareType, found]
  · refine ⟨refl_of Extends table, fun _ _ => rfl, rfl, sound, fun name => ?_⟩
    by_cases same : name = type.name <;> simp [same, found]

/-- Types are declared in order. Every one gets the binding that its name has in the end, and what
is declared is the first type of each name. -/
theorem registers_declareLibraryTypes (sound : table.Sound) (types : List LibraryType) :
    Registers (types.map (·.name)) table (table.declareLibraryTypes types).2 ∧
      Forall₂ (fun type binding =>
        (table.declareLibraryTypes types).2.lookupType type.name = some binding) types
        (table.declareLibraryTypes types).1 ∧
      ∀ name type, table.lookupType name = none → types.find? (·.name == name) = some type →
        ∃ binding, (table.declareLibraryTypes types).2.Declared type binding := by
  induction types generalizing table with
  | nil =>
      have registers : Registers [] table table :=
        ⟨refl_of Extends table, fun _ _ => rfl, rfl, sound, by simp⟩
      exact ⟨registers, .nil, nofun⟩
  | cons type types ih =>
      cases found : table.lookupType type.name with
      | some binding =>
          rcases registers_declareType_again sound type found with ⟨again, first⟩
          rcases ih sound with ⟨rest, others, declared⟩
          simp only [declareLibraryTypes, again]
          refine ⟨first.trans rest, .cons (rest.lookupType found) others, ?_⟩
          intro name other absent isFirst
          have notSame : type.name ≠ name := by
            rintro rfl
            cases absent.symm.trans found
          rw [find?_cons_of_neg (by simpa using notSame)] at isFirst
          exact declared name other absent isFirst
      | none =>
          rcases registers_declareType sound type found with ⟨first, isDeclared⟩
          rcases ih first.sound with ⟨rest, others, declared⟩
          have stays := isDeclared.extend rest.extended (rest.entry _ isDeclared.inTable)
          refine ⟨first.trans rest, .cons stays.found others, ?_⟩
          intro name other absent isFirst
          by_cases same : type.name = name
          · rw [find?_cons_of_pos (by simpa using same)] at isFirst
            cases isFirst
            exact ⟨_, stays⟩
          · rw [find?_cons_of_neg (by simpa using same)] at isFirst
            refine declared name other ?_ isFirst
            rw [first.undeclared]
            exact ⟨absent, by simpa using Ne.symm same⟩

theorem Declared.qualifiedName (declared : table.Declared type binding) :
    (table.entry binding).qualifiedName = type.name := by
  rcases declared.declaration with ⟨package, -, entry⟩
  rw [entry]
  rfl

/-- Types that are called differently are different. -/
theorem nodup_of_declared {items : List (LibraryType × BindingId)}
    (distinct : (items.map (·.1.name)).Nodup)
    (declared : ∀ item ∈ items, table.Declared item.1 item.2) : (items.map (·.2)).Nodup := by
  have names : (items.map (·.2)).map (fun binding => (table.entry binding).qualifiedName) =
      items.map (·.1.name) := by
    rw [map_map]
    exact map_congr_left fun item isItem => (declared item isItem).qualifiedName
  exact .of_map _ (names ▸ distinct)

/-! ## Linking -/

/-- The binding of a described type reads as the description. -/
structure Reads (table : Table) (type : LibraryType) (binding : BindingId) : Prop where
  found : table.lookupType type.name = some binding
  packaged : table.PackageFor type.name (table.entry binding).owner
  entry : table.entry binding =
    { type.declaration (table.entry binding).owner with
      superclass := (table.entry binding).superclass
      interfaces := (table.entry binding).interfaces
      annotations := (table.entry binding).annotations
      members := (table.entry binding).members }
  superclass : Option.Rel table.Denotes type.superclass? (table.entry binding).superclass
  interfaces : Forall₂ table.Denotes type.interfaces (table.entry binding).interfaces
  annotations : Forall₂ table.Denotes type.annotations (table.entry binding).annotations
  members : Forall₂ (table.ReadsMember binding) type.members (table.entry binding).members

theorem Declared.linkable (declared : table.Declared type binding) (sound : table.Sound) :
    table.Linkable binding where
  sound := sound
  inTable := declared.inTable
  declared := by
    rcases declared.declaration with ⟨package, -, entry⟩
    rw [entry]
    exact LibraryType.not_isMade_declaration

/-- Linking a type that has been declared makes it read as it is described. -/
theorem reads_linkLibraryType (declared : table.Declared type binding) (sound : table.Sound) :
    table.Amends (· = binding) (table.linkLibraryType type binding) ∧
      (table.linkLibraryType type binding).Reads type binding := by
  rcases links_linkLibraryType (declared.linkable sound) type with
    ⟨superclass, interfaces, annotations, members, links⟩
  rcases declared.declaration with ⟨package, packaged, entry⟩
  have linked := links.gains.owned
  rw [entry] at linked
  refine ⟨links.gains.toAmends, ?_⟩
  have extended := links.gains.extended
  constructor
  case found => exact extended.find? (.type type.name) binding declared.found
  case packaged =>
    rw [linked]
    exact packaged.extend extended
  case entry => simp only [linked]; rfl
  case superclass =>
    simpa only [linked, LibraryType.declaration, Option.or_none] using links.above
  case interfaces =>
    simpa only [linked, LibraryType.declaration, nil_append] using links.implemented
  case annotations =>
    simpa only [linked, LibraryType.declaration, nil_append] using links.annotated
  case members =>
    simpa only [linked, LibraryType.declaration, nil_append] using links.declared

theorem Reads.inTable (reads : table.Reads type binding) : binding.index < table.size :=
  index_lt_of_entry Entry.typeKind rfl (congrArg Entry.typeKind reads.entry)

/-- A linked type stays as it is while other types are linked. -/
theorem Reads.amend (reads : before.Reads type binding) (amends : before.Amends changed after)
    (unchanged : ¬ changed binding)
    (types : ∀ other, changed other → (before.entry other).kind = .type) :
    after.Reads type binding := by
  have sameEntry := amends.entry binding reads.inTable unchanged
  constructor
  case found => exact amends.extended.find? (.type type.name) binding reads.found
  case packaged =>
    rw [sameEntry]
    exact reads.packaged.extend amends.extended
  case entry =>
    rw [sameEntry]
    exact reads.entry
  case superclass =>
    rw [sameEntry]
    exact option_amend reads.superclass amends
  case interfaces =>
    rw [sameEntry]
    exact reads.interfaces.imp fun _ _ denotes => denotes.amend amends
  case annotations =>
    rw [sameEntry]
    exact reads.annotations.imp fun _ _ denotes => denotes.amend amends
  case members =>
    rw [sameEntry]
    exact reads.members.imp fun _ _ member => member.amend reads.inTable amends fun isChanged =>
      member.kind_ne (types _ isChanged)

/-- Link declared types one after another. -/
def linkAll (table : Table) (items : List (LibraryType × BindingId)) : Table :=
  items.foldl (fun table item => table.linkLibraryType item.1 item.2) table

theorem linkAll_concat (table : Table) (items : List (LibraryType × BindingId))
    (item : LibraryType × BindingId) :
    table.linkAll (items ++ [item]) = (table.linkAll items).linkLibraryType item.1 item.2 := by
  rw [linkAll, foldl_append]
  rfl

/-- Linking changes the linked types only. -/
theorem amends_linkAll {items : List (LibraryType × BindingId)} (sound : table.Sound)
    (linkable : ∀ item ∈ items, table.Linkable item.2) :
    table.Amends (· ∈ items.map (·.2)) (table.linkAll items) := by
  induction items using reverseRecOn with
  | nil => exact .refl sound
  | append_singleton items item ih =>
      have amends := ih fun other isOther => linkable other (mem_append_left _ isOther)
      have stillLinkable := (linkable item (mem_append_right _ mem_cons_self)).amend amends
      rcases links_linkLibraryType stillLinkable item.1 with ⟨_, _, _, _, links⟩
      rw [linkAll_concat, map_append, map_singleton]
      refine (amends.imp fun _ => mem_append_left _).andThen links.gains.toAmends ?_
      rintro _ _ rfl
      exact mem_append_right _ mem_cons_self

/-- Declared types are linked one after another. In the end each reads as it is described. -/
theorem reads_linkAll {items : List (LibraryType × BindingId)} (sound : table.Sound)
    (declared : ∀ item ∈ items, table.Declared item.1 item.2)
    (distinct : (items.map (·.2)).Nodup) :
    ∀ item ∈ items, (table.linkAll items).Reads item.1 item.2 := by
  induction items generalizing table with
  | nil => exact nofun
  | cons item items ih =>
      rw [map_cons, nodup_cons] at distinct
      rcases reads_linkLibraryType (declared item mem_cons_self) sound with ⟨first, isRead⟩
      have others : ∀ other ∈ items,
          (table.linkLibraryType item.1 item.2).Declared other.1 other.2 := by
        intro other isOther
        have stays := declared other (mem_cons_of_mem _ isOther)
        refine stays.extend first.extended (first.entry _ stays.inTable fun same => distinct.1 ?_)
        exact same ▸ mem_map_of_mem isOther
      have onlyTypes : ∀ binding, binding ∈ items.map (·.2) →
          ((table.linkLibraryType item.1 item.2).entry binding).kind = .type := by
        intro binding isOther
        rcases mem_map.1 isOther with ⟨other, isItem, rfl⟩
        rcases (others other isItem).declaration with ⟨package, -, entry⟩
        rw [entry]
        rfl
      have rest := amends_linkAll first.sound fun other isOther =>
        (others other isOther).linkable first.sound
      intro other isItem
      rcases mem_cons.1 isItem with rfl | isOther
      · exact isRead.amend rest distinct.1 onlyTypes
      · exact ih first.sound others distinct.2 other isOther

/-! ## Loading -/

/-- Whatever is declared of a class path is declared as the first type of its name. -/
theorem declared_of_lookupType (path : ClassPath)
    (found : (declareLibraryTypes {} path.types).2.lookupType name = some binding) :
    ∃ first, path.get? name = some first ∧
      (declareLibraryTypes {} path.types).2.Declared first binding := by
  rcases registers_declareLibraryTypes .empty path.types with ⟨registers, -, declared⟩
  cases isFirst : path.get? name with
  | none =>
      have notName : name ∉ path.types.map (·.name) := by
        simpa [ClassPath.get?] using isFirst
      cases ((registers.undeclared name).2 ⟨rfl, notName⟩).symm.trans found
  | some first =>
      rcases declared name first rfl isFirst with ⟨other, isDeclared⟩
      have sameName := (ClassPath.described_of_get? isFirst).2
      obtain rfl := Option.some.inj (isDeclared.found.symm.trans (sameName ▸ found))
      exact ⟨first, rfl, isDeclared⟩

/-- The types of a class path with the bindings that are declared for them. -/
def declaredItems (path : ClassPath) : List (LibraryType × BindingId) :=
  path.types.zip (declareLibraryTypes {} path.types).1

theorem load_eq (path : ClassPath) :
    load {} path = (declareLibraryTypes {} path.types).2.linkAll (declaredItems path) :=
  rfl

theorem lookupType_of_declaredItems {item : LibraryType × BindingId}
    (isItem : item ∈ declaredItems path) :
    (declareLibraryTypes {} path.types).2.lookupType item.1.name = some item.2 :=
  (forall₂_iff_zip.1 (registers_declareLibraryTypes .empty path.types).2.1).2 isItem

theorem map_fst_declaredItems (path : ClassPath) :
    (declaredItems path).map (·.1) = path.types :=
  map_fst_zip (Nat.le_of_eq (registers_declareLibraryTypes .empty path.types).2.1.length_eq)

/-- Without repeated names every type is the first of its name. -/
theorem declared_of_declaredItems (distinct : path.names.Nodup)
    {item : LibraryType × BindingId} (isItem : item ∈ declaredItems path) :
    (declareLibraryTypes {} path.types).2.Declared item.1 item.2 := by
  rcases declared_of_lookupType path (lookupType_of_declaredItems isItem) with
    ⟨first, isFirst, declared⟩
  rcases ClassPath.described_of_get? isFirst with ⟨isType, sameName⟩
  exact inj_on_of_nodup_map distinct isType (of_mem_zip isItem).1 sameName ▸ declared

theorem linkable_of_declaredItems {item : LibraryType × BindingId}
    (isItem : item ∈ declaredItems path) :
    (declareLibraryTypes {} path.types).2.Linkable item.2 := by
  rcases declared_of_lookupType path (lookupType_of_declaredItems isItem) with
    ⟨first, -, declared⟩
  exact declared.linkable (registers_declareLibraryTypes .empty path.types).1.sound

theorem amends_load (path : ClassPath) :
    (declareLibraryTypes {} path.types).2.Amends (· ∈ (declaredItems path).map (·.2))
      (load {} path) := by
  rw [load_eq]
  exact amends_linkAll (registers_declareLibraryTypes .empty path.types).1.sound
    fun _ isItem => linkable_of_declaredItems isItem

/-- A table that has types of the names that a class path describes, and no others. -/
structure LoadedFrom (table : Table) (path : ClassPath) : Prop where
  built : table.Built
  sound : table.Sound
  hidden : table.hidden = []
  undeclared : ∀ name, table.lookupType name = none ↔ name ∉ path.names

theorem loadedFrom_load (path : ClassPath) : (load {} path).LoadedFrom path := by
  have assembled : (load {} path).Assembled := retrieves_empty.later_load path
  have registers := (registers_declareLibraryTypes .empty path.types).1
  have amends := amends_load path
  constructor
  case built => exact assembled.built
  case sound => exact amends.sound
  case hidden => exact amends.hidden.trans registers.hidden
  case undeclared =>
    intro name
    rw [lookupType, amends.types]
    exact (registers.undeclared name).trans (and_iff_right rfl)

theorem LoadedFrom.resolveType_eq (loaded : table.LoadedFrom path) (name : String) :
    table.resolveType name = table.lookupType name := by
  simp [resolveType, loaded.hidden]

/-- A table has the types of a class path and no others, and each reads as it is described. -/
structure DescribedBy (table : Table) (path : ClassPath) : Prop extends
    LoadedFrom table path where
  reads : ∀ type ∈ path.types, ∃ binding, table.Reads type binding

/-- Loading a class path without repeated names gives a table that it describes. -/
theorem describedBy_load (distinct : path.names.Nodup) : (load {} path).DescribedBy path where
  toLoadedFrom := loadedFrom_load path
  reads := by
    have sound := (registers_declareLibraryTypes .empty path.types).1.sound
    have declared : ∀ item ∈ declaredItems path,
        (declareLibraryTypes {} path.types).2.Declared item.1 item.2 :=
      fun item => declared_of_declaredItems distinct
    have names : (declaredItems path).map (·.1.name) = path.names := by
      rw [ClassPath.names, ← map_fst_declaredItems path, map_map]
      rfl
    have areRead := reads_linkAll sound declared (nodup_of_declared (names ▸ distinct) declared)
    intro type isType
    rw [← map_fst_declaredItems path] at isType
    rcases mem_map.1 isType with ⟨item, isItem, rfl⟩
    rw [load_eq]
    exact ⟨item.2, areRead item isItem⟩

namespace DescribedBy

theorem reads_of_lookupType (described : table.DescribedBy path)
    (found : table.lookupType name = some binding) :
    ∃ type ∈ path.types, type.name = name ∧ table.Reads type binding := by
  have isName : name ∈ path.names := by
    by_contra notName
    cases ((described.undeclared name).2 notName).symm.trans found
  rcases mem_map.1 isName with ⟨type, isType, rfl⟩
  rcases described.reads type isType with ⟨_, reads⟩
  obtain rfl := Option.some.inj (reads.found.symm.trans found)
  exact ⟨type, isType, rfl, reads⟩

/-- The innermost type of a reference is recovered just where the reference without its brackets
is that of neither a primitive nor a described type. -/
theorem recovered_iff (described : table.DescribedBy path) (bare : Bare base)
    (denotes : table.Denotes base binding) : (table.entry binding).recovered ↔
      ¬ isPrimitiveName base ∧ base ∉ path.names := by
  have found := (Denotes.bare_iff bare).1 denotes
  rw [namedKey] at found
  split at found
  case isTrue isPrimitive =>
    rw [described.sound.entry_eq found rfl]
    simp [isPrimitive]
  case isFalse notPrimitive =>
    split at found
    case isTrue undeclared =>
      rw [described.sound.entry_eq found rfl]
      simpa [notPrimitive] using (described.undeclared base).1 undeclared
    case isFalse isDeclared =>
      have isName : base ∈ path.names := by simpa [described.undeclared] using isDeclared
      rcases described.reads_of_lookupType found with ⟨type, -, -, reads⟩
      rw [reads.entry]
      simp [LibraryType.declaration, isName]

end DescribedBy

end Table

end JavaInspect
