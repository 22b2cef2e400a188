import JavaInspect.Binding.Lookup
import JavaInspect.Proofs.Library.Described
import JavaInspect.Proofs.Semantics.Circles

/-!
# Class paths in another order

Two tables agree when the same is said of what is called the same in both: of the types and
packages of one name, of the arrays of such types, and of the members that stand at the same place
of such types. Tables of one class path, with its types in whatever order, agree, and so all
lookups find the same in both.
-/

namespace JavaInspect

open List

namespace Table

variable {left right table : Table} {binding other first second : BindingId} {name : String}
  {path changed : ClassPath} {type : LibraryType} {member : LibraryMember}

/-! ## Bindings of two tables that are called the same -/

/-- The key of an array is not a name, as it holds a binding. -/
def Key.IsName (key : Key) : Prop := ∀ element, key ≠ .array element

/-- Bindings of two tables that are called the same. -/
inductive SameAs (left right : Table) : BindingId → BindingId → Prop where
  | kept {key : Key} {first second : BindingId} (isName : key.IsName)
      (inLeft : key.find? left = some first) (inRight : key.find? right = some second) :
      SameAs left right first second
  | array {component element first second : BindingId} (same : SameAs left right component element)
      (inLeft : (Key.array component).find? left = some first)
      (inRight : (Key.array element).find? right = some second) : SameAs left right first second
  | member {type : String} {position : Nat} {lower upper first second : BindingId}
      (typeLeft : left.lookupType type = some lower)
      (typeRight : right.lookupType type = some upper)
      (inLeft : (left.entry lower).members[position]? = some first)
      (inRight : (right.entry upper).members[position]? = some second) :
      SameAs left right first second

theorem SameAs.symm (same : SameAs left right first second) : SameAs right left second first := by
  induction same with
  | kept isName inLeft inRight => exact .kept isName inRight inLeft
  | array _ inLeft inRight ih => exact .array ih inRight inLeft
  | member typeLeft typeRight inLeft inRight => exact .member typeRight typeLeft inRight inLeft

theorem sameAs_of_lookupType (inLeft : left.lookupType name = some first)
    (inRight : right.lookupType name = some second) : SameAs left right first second :=
  have isName : (Key.type name).IsName := nofun
  .kept isName inLeft inRight

/-- Entries that say the same, with bindings of two tables for each other. -/
structure EntriesAgree (same : BindingId → BindingId → Prop) (left right : Entry) : Prop where
  kind : left.kind = right.kind
  name : left.name = right.name
  qualifiedName : left.qualifiedName = right.qualifiedName
  typeKind : left.typeKind = right.typeKind
  recovered : left.recovered = right.recovered
  varargs : left.varargs = right.varargs
  isConstructor : left.isConstructor = right.isConstructor
  owner : Option.Rel same left.owner right.owner
  superclass : Option.Rel same left.superclass right.superclass
  interfaces : Forall₂ same left.interfaces right.interfaces
  element : Option.Rel same left.element right.element
  annotations : Forall₂ same left.annotations right.annotations
  members : Forall₂ same left.members right.members
  declaredType : Option.Rel same left.declaredType right.declaredType
  parameters : Forall₂ same left.parameters right.parameters

/-! ## References to the same -/

/-- Types of the same names are declared in both tables. -/
def DeclareSame (left right : Table) : Prop :=
  ∀ name, left.lookupType name = none ↔ right.lookupType name = none

theorem isName_namedKey : (table.namedKey name).IsName := by
  intro element
  rw [namedKey]
  split
  · simp
  · split <;> simp

theorem namedKey_eq (declareSame : DeclareSame left right) (name : String) :
    right.namedKey name = left.namedKey name := by
  simp only [namedKey, declareSame name]

theorem sameAs_of_denotes (declareSame : DeclareSame left right)
    (inLeft : left.Denotes name first) (inRight : right.Denotes name second) :
    SameAs left right first second := by
  induction inLeft generalizing second with
  | named bare found =>
      have foundRight := (Denotes.bare_iff bare).1 inRight
      rw [namedKey_eq declareSame] at foundRight
      exact .kept isName_namedKey found foundRight
  | array _ found ih =>
      rcases Denotes.array_iff.1 inRight with ⟨element, component, foundRight⟩
      exact .array (ih component) found foundRight

theorem forall₂_sameAs (declareSame : DeclareSame left right) {names : List String}
    {lowers uppers : List BindingId} (inLeft : Forall₂ left.Denotes names lowers)
    (inRight : Forall₂ right.Denotes names uppers) :
    Forall₂ (SameAs left right) lowers uppers := by
  induction inLeft generalizing uppers with
  | nil =>
      cases inRight
      exact .nil
  | cons denotes _ ih =>
      cases inRight with
      | cons denotesRight rest =>
          exact .cons (sameAs_of_denotes declareSame denotes denotesRight) (ih rest)

theorem option_sameAs (declareSame : DeclareSame left right) {described : Option String}
    {lower upper : Option BindingId} (inLeft : Option.Rel left.Denotes described lower)
    (inRight : Option.Rel right.Denotes described upper) :
    Option.Rel (SameAs left right) lower upper := by
  cases inLeft with
  | none =>
      cases inRight
      exact .none
  | some denotes =>
      cases inRight with
      | some denotesRight => exact .some (sameAs_of_denotes declareSame denotes denotesRight)

theorem packageFor_sameAs {lower upper : Option BindingId}
    (inLeft : left.PackageFor name lower) (inRight : right.PackageFor name upper) :
    Option.Rel (SameAs left right) lower upper := by
  rw [PackageFor] at inLeft inRight
  generalize (Text.splitQualified? name).map (·.1) = qualifier at inLeft inRight
  cases inLeft with
  | none =>
      cases inRight
      exact .none
  | some found =>
      cases inRight with
      | some foundRight =>
          have isName (qualifier : String) : (Key.package qualifier).IsName := by simp [Key.IsName]
          exact .some (.kept (isName _) found foundRight)

/-! ## Tables of one class path -/

/-- Members that are described alike say the same in both tables. -/
theorem entriesAgree_of_readsMember (declareSame : DeclareSame left right)
    {lower upper : BindingId} (sameOwner : SameAs left right lower upper)
    (sameName : (left.entry lower).name = (right.entry upper).name)
    (inLeft : left.ReadsMember lower member first)
    (inRight : right.ReadsMember upper member second) :
    EntriesAgree (SameAs left right) (left.entry first) (right.entry second) := by
  cases inLeft with
  | field refers entry =>
      cases inRight with
      | field refersRight entryRight =>
          rw [entry, entryRight]
          constructor
          case owner => exact .some sameOwner
          case declaredType => exact .some (sameAs_of_denotes declareSame refers refersRight)
          all_goals first | rfl | exact .none | exact .nil
  | constructor refers entry =>
      cases inRight with
      | constructor refersRight entryRight =>
          rw [entry, entryRight, sameName]
          constructor
          case owner => exact .some sameOwner
          case parameters => exact forall₂_sameAs declareSame refers refersRight
          all_goals first | rfl | exact .none | exact .nil
  | method refers returns annotated entry =>
      cases inRight with
      | method refersRight returnsRight annotatedRight entryRight =>
          rw [entry, entryRight]
          constructor
          case owner => exact .some sameOwner
          case annotations => exact forall₂_sameAs declareSame annotated annotatedRight
          case declaredType => exact .some (sameAs_of_denotes declareSame returns returnsRight)
          case parameters => exact forall₂_sameAs declareSame refers refersRight
          all_goals first | rfl | exact .none | exact .nil

/-- Types that are described alike say the same in both tables. -/
theorem entriesAgree_of_reads (declareSame : DeclareSame left right)
    (inLeft : left.Reads type first) (inRight : right.Reads type second) :
    EntriesAgree (SameAs left right) (left.entry first) (right.entry second) := by
  have entry := inLeft.entry
  have entryRight := inRight.entry
  constructor
  case superclass => exact option_sameAs declareSame inLeft.superclass inRight.superclass
  case interfaces => exact forall₂_sameAs declareSame inLeft.interfaces inRight.interfaces
  case annotations => exact forall₂_sameAs declareSame inLeft.annotations inRight.annotations
  case owner => exact packageFor_sameAs inLeft.packaged inRight.packaged
  case members =>
    have sameLength := inLeft.members.length_eq.symm.trans inRight.members.length_eq
    refine forall₂_iff_get.2 ⟨sameLength, fun position inLower inUpper => ?_⟩
    exact .member inLeft.found inRight.found (getElem?_eq_getElem inLower)
      (getElem?_eq_getElem inUpper)
  all_goals
    rw [entry, entryRight]
    first | rfl | exact .none | exact .nil

/-- What stands at a place among members reads as what is described at that place. -/
theorem exists_described {Item : Type} {means : Item → BindingId → Prop} {described : List Item}
    {members : List BindingId} {position : Nat} (areMeant : Forall₂ means described members)
    (found : members[position]? = some binding) :
    ∃ item, described[position]? = some item ∧ means item binding := by
  rcases List.getElem?_eq_some_iff.1 found with ⟨inMembers, rfl⟩
  have inDescribed : position < described.length := areMeant.length_eq ▸ inMembers
  exact ⟨described[position], getElem?_eq_getElem inDescribed,
    (forall₂_iff_get.1 areMeant).2 position inDescribed inMembers⟩

/-- Two tables are described by class paths with the same types, of distinct names. -/
structure DescribedAlike (left right : Table) : Prop where
  exists_path : ∃ path other : ClassPath, path.names.Nodup ∧ other.types.Perm path.types ∧
    left.DescribedBy path ∧ right.DescribedBy other

namespace DescribedAlike

theorem symm (alike : DescribedAlike left right) : DescribedAlike right left := by
  rcases alike.exists_path with ⟨path, other, distinct, perm, inLeft, inRight⟩
  exact ⟨other, path, (perm.map LibraryType.name).nodup_iff.2 distinct, perm.symm, inRight, inLeft⟩

theorem declareSame (alike : DescribedAlike left right) : DeclareSame left right := by
  rcases alike.exists_path with ⟨path, other, -, perm, inLeft, inRight⟩
  intro name
  rw [inLeft.undeclared, inRight.undeclared, not_iff_not]
  exact (perm.map LibraryType.name).mem_iff.symm

/-- Types of one name read as the same description. -/
theorem reads (alike : DescribedAlike left right) (inLeft : left.lookupType name = some first)
    (inRight : right.lookupType name = some second) :
    ∃ type, left.Reads type first ∧ right.Reads type second := by
  rcases alike.exists_path with ⟨path, other, distinct, perm, describedLeft, describedRight⟩
  rcases describedLeft.reads_of_lookupType inLeft with ⟨type, isType, isName, reads⟩
  rcases describedRight.reads_of_lookupType inRight with ⟨same, isSame, isNameToo, readsToo⟩
  have sameName := isNameToo.trans isName.symm
  obtain rfl := inj_on_of_nodup_map distinct (perm.subset isSame) isType sameName
  exact ⟨same, reads, readsToo⟩

theorem entriesAgree (alike : DescribedAlike left right) (same : SameAs left right first second) :
    EntriesAgree (SameAs left right) (left.entry first) (right.entry second) := by
  have declareSame := alike.declareSame
  rcases alike.exists_path with ⟨path, other, -, -, describedLeft, describedRight⟩
  have soundLeft := describedLeft.sound
  have soundRight := describedRight.sound
  induction same with
  | @kept key _ _ isName inLeft inRight =>
      cases key with
      | type =>
          rcases alike.reads inLeft inRight with ⟨type, reads, readsToo⟩
          exact entriesAgree_of_reads declareSame reads readsToo
      | array element => exact (isName element rfl).elim
      | package | primitive | unresolved =>
          rw [soundLeft.entry_eq inLeft rfl, soundRight.entry_eq inRight rfl]
          constructor <;> first | rfl | exact .none | exact .nil
  | array same inLeft inRight ih =>
      rw [soundLeft.entry_eq inLeft rfl, soundRight.entry_eq inRight rfl, ih.name, ih.qualifiedName]
      constructor
      case element => exact .some same
      all_goals first | rfl | exact .none | exact .nil
  | member typeLeft typeRight inLeft inRight =>
      rcases alike.reads typeLeft typeRight with ⟨type, reads, readsToo⟩
      rcases exists_described reads.members inLeft with ⟨member, isMember, readsMember⟩
      rcases exists_described readsToo.members inRight with ⟨_, isMemberToo, readsMemberToo⟩
      obtain rfl := Option.some.inj (isMember.symm.trans isMemberToo)
      refine entriesAgree_of_readsMember declareSame (sameAs_of_lookupType typeLeft typeRight) ?_
        readsMember readsMemberToo
      rw [reads.entry, readsToo.entry]
      rfl

theorem resolves (alike : DescribedAlike left right) (name : String) :
    Option.Rel (SameAs left right) (left.resolveType name) (right.resolveType name) := by
  have declareSame := alike.declareSame name
  rcases alike.exists_path with ⟨path, other, -, -, inLeft, inRight⟩
  rw [inLeft.resolveType_eq, inRight.resolveType_eq]
  cases foundLeft : left.lookupType name with
  | none => rw [declareSame.1 foundLeft]; exact .none
  | some first =>
      cases foundRight : right.lookupType name with
      | none => cases (declareSame.2 foundRight).symm.trans foundLeft
      | some second => exact .some (sameAs_of_lookupType foundLeft foundRight)

end DescribedAlike

/-! ## Names of bindings -/

/-- Members are kept in no index. -/
theorem ReadsMember.not_found {owner : BindingId} (reads : table.ReadsMember owner member binding)
    (retrieves : table.Retrieves) (key : Key) : key.find? table ≠ some binding := by
  intro found
  have describes := (retrieves key binding found).2
  cases reads with
  | field _ entry | constructor _ entry | method _ _ _ entry =>
      rw [entry] at describes
      cases key <;> cases describes.1

theorem DescribedBy.readsMember {owner : BindingId} {position : Nat}
    (described : table.DescribedBy path) (found : table.lookupType name = some owner)
    (isMember : (table.entry owner).members[position]? = some binding) :
    ∃ member, table.ReadsMember owner member binding := by
  rcases described.reads_of_lookupType found with ⟨type, -, -, reads⟩
  rcases exists_described reads.members isMember with ⟨member, -, readsMember⟩
  exact ⟨member, readsMember⟩

theorem SameAs.inTable (same : SameAs left right first second) (described : left.DescribedBy path) :
    first.index < left.size := by
  cases same with
  | kept _ inLeft | array _ inLeft =>
      exact (described.sound.canonical.retrieves _ _ inLeft).1
  | member typeLeft _ inLeft =>
      rcases described.readsMember typeLeft inLeft with ⟨member, reads⟩
      exact reads.inTable

/-- A binding is called the same as one binding of the other table only. -/
theorem SameAs.unique (described : left.DescribedBy path)
    (same : SameAs left right first second) (sameToo : SameAs left right first other) :
    second = other := by
  have canonical := described.sound.canonical
  induction same generalizing other with
  | kept isName inLeft inRight =>
      cases sameToo with
      | kept isNameToo inLeftToo inRightToo =>
          obtain rfl := canonical.apart _ _ _ inLeft inLeftToo
          exact Option.some.inj (inRight.symm.trans inRightToo)
      | array _ inLeftToo => exact (isName _ (canonical.apart _ _ _ inLeft inLeftToo)).elim
      | member typeLeft _ inLeftToo =>
          rcases described.readsMember typeLeft inLeftToo with ⟨member, reads⟩
          exact (reads.not_found canonical.retrieves _ inLeft).elim
  | array component inLeft inRight ih =>
      cases sameToo with
      | kept isNameToo inLeftToo =>
          exact (isNameToo _ (canonical.apart _ _ _ inLeftToo inLeft)).elim
      | array componentToo inLeftToo inRightToo =>
          obtain rfl := Key.array.inj (canonical.apart _ _ _ inLeft inLeftToo)
          obtain rfl := ih componentToo
          exact Option.some.inj (inRight.symm.trans inRightToo)
      | member typeLeft _ inLeftToo =>
          rcases described.readsMember typeLeft inLeftToo with ⟨member, reads⟩
          exact (reads.not_found canonical.retrieves _ inLeft).elim
  | @member type position lower upper _ _ typeLeft typeRight inLeft inRight =>
      rcases described.readsMember typeLeft inLeft with ⟨member, reads⟩
      cases sameToo with
      | kept _ inLeftToo | array _ inLeftToo =>
          exact (reads.not_found canonical.retrieves _ inLeftToo).elim
      | @member typeToo positionToo lowerToo upperToo _ _ typeLeftToo typeRightToo inLeftToo
          inRightToo =>
          rcases described.readsMember typeLeftToo inLeftToo with ⟨memberToo, readsToo⟩
          obtain rfl := Option.some.inj (reads.owner_eq.symm.trans readsToo.owner_eq)
          obtain rfl := Key.type.inj
            (canonical.apart (.type type) (.type typeToo) lower typeLeft typeLeftToo)
          obtain rfl := Option.some.inj (typeRight.symm.trans typeRightToo)
          rcases List.getElem?_eq_some_iff.1 inLeft with ⟨inMembers, -⟩
          obtain rfl := (List.getElem?_inj inMembers (described.built.listsOwn.nodup lower)).1
            (inLeft.trans inLeftToo.symm)
          exact Option.some.inj (inRight.symm.trans inRightToo)

theorem DescribedAlike.biUnique (alike : DescribedAlike left right) :
    Relator.BiUnique (SameAs left right) := by
  rcases alike.exists_path with ⟨path, other, -, -, inLeft, inRight⟩
  constructor
  · intro first other second same sameToo
    exact same.symm.unique inRight sameToo.symm
  · intro first second other same sameToo
    exact same.unique inLeft sameToo

/-! ## Lookups -/

section Related

variable {same : BindingId → BindingId → Prop} {lowers uppers : List BindingId}

theorem find?_related {accepts acceptsToo : BindingId → Bool} (related : Forall₂ same lowers uppers)
    (agree : ∀ first second, same first second → accepts first = acceptsToo second) :
    Option.Rel same (lowers.find? accepts) (uppers.find? acceptsToo) := by
  induction related with
  | nil => exact .none
  | @cons first second _ _ isSame _ ih =>
      rw [find?_cons, find?_cons, ← agree first second isSame]
      cases accepts first with
      | true => exact .some isSame
      | false => exact ih

theorem findSome?_related {choose chooseToo : BindingId → Option BindingId}
    (related : Forall₂ same lowers uppers)
    (agree : ∀ first second, same first second →
      Option.Rel same (choose first) (chooseToo second)) :
    Option.Rel same (lowers.findSome? choose) (uppers.findSome? chooseToo) := by
  induction related with
  | nil => exact .none
  | @cons first second _ _ isSame _ ih =>
      rw [findSome?_cons, findSome?_cons]
      have chosen := agree first second isSame
      generalize choose first = answer at chosen ⊢
      generalize chooseToo second = answerToo at chosen ⊢
      cases chosen with
      | some found => exact .some found
      | none => exact ih

variable (unique : Relator.BiUnique same)
  (entries : ∀ first second, same first second →
    EntriesAgree same (left.entry first) (right.entry second))

include entries in
theorem parents_related (isSame : same first second) :
    Forall₂ same (left.parents first) (right.parents second) := by
  have agree := entries first second isSame
  refine rel_append ?_ agree.interfaces
  have superclass := agree.superclass
  generalize (left.entry first).superclass = lower at superclass ⊢
  generalize (right.entry second).superclass = upper at superclass ⊢
  cases superclass with
  | some isSame => exact .cons isSame .nil
  | none => exact .nil

include unique entries in
/-- Searches of both tables visit the same, in the same order. -/
theorem searchFrom_related {unvisited unvisitedToo queue queueToo : List BindingId}
    (queued : Forall₂ same queue queueToo)
    (left_nodup : unvisited.Nodup) (right_nodup : unvisitedToo.Nodup)
    (unvisitedSame : ∀ first second, same first second →
      (first ∈ unvisited ↔ second ∈ unvisitedToo)) :
    Forall₂ same (left.searchFrom unvisited queue) (right.searchFrom unvisitedToo queueToo) := by
  induction unvisited, queue using searchFrom.induct left generalizing unvisitedToo queueToo with
  | case1 =>
      cases queued
      rw [searchFrom, searchFrom]
      exact .nil
  | case2 unvisited current queue fresh ih =>
      cases queued with
      | @cons _ other _ others isSame rest =>
          have freshToo := (unvisitedSame current other isSame).1 fresh
          rw [searchFrom, searchFrom, dif_pos fresh, dif_pos freshToo]
          refine .cons isSame (ih (rel_append rest (parents_related entries isSame))
            (left_nodup.erase current) (right_nodup.erase other) fun first second isSameToo => ?_)
          have sameEq : first = current ↔ second = other := Relator.rel_eq unique isSameToo isSame
          rw [left_nodup.mem_erase_iff, right_nodup.mem_erase_iff,
            unvisitedSame first second isSameToo, ne_eq, sameEq]
  | case3 unvisited current queue visited ih =>
      cases queued with
      | @cons _ other _ others isSame rest =>
          have visitedToo := (unvisitedSame current other isSame).not.1 visited
          rw [searchFrom, searchFrom, dif_neg visited, dif_neg visitedToo]
          exact ih rest left_nodup right_nodup unvisitedSame

end Related

/-- Two tables give the same answers for every name, to every question about what a name leads
to. -/
structure SameAnswers (left right : Table) : Prop where
  resolves : ∀ name, Option.Rel (SameAs left right) (left.resolveType name) (right.resolveType name)
  entries : ∀ first second, SameAs left right first second →
    EntriesAgree (SameAs left right) (left.entry first) (right.entry second)
  /-- Nothing that is called differently is taken for the same. -/
  unique : Relator.BiUnique (SameAs left right)
  methods : ∀ first second name arity, SameAs left right first second →
    Option.Rel (SameAs left right) (left.findMethod first name arity)
      (right.findMethod second name arity)
  constructors : ∀ first second arity, SameAs left right first second →
    Option.Rel (SameAs left right) (left.findConstructor first arity)
      (right.findConstructor second arity)
  fields : ∀ first second name, SameAs left right first second →
    Option.Rel (SameAs left right) (left.findField first name) (right.findField second name)

theorem EntriesAgree.accepts_eq {same : BindingId → BindingId → Prop} {lower upper : Entry}
    (agree : EntriesAgree same lower upper) (arity : Nat) :
    lower.accepts arity = upper.accepts arity := by
  rw [Entry.accepts, Entry.accepts, agree.parameters.length_eq, agree.varargs]

namespace DescribedAlike

theorem sameAs_inTable (alike : DescribedAlike left right) (same : SameAs left right first second) :
    first.index < left.size ∧ second.index < right.size := by
  rcases alike.exists_path with ⟨path, other, -, -, inLeft, inRight⟩
  exact ⟨same.inTable inLeft, same.symm.inTable inRight⟩

theorem hierarchy_related (alike : DescribedAlike left right)
    (same : SameAs left right first second) :
    Forall₂ (SameAs left right) (left.hierarchy first) (right.hierarchy second) := by
  refine searchFrom_related alike.biUnique (fun _ _ => alike.entriesAgree) (.cons same .nil)
    left.nodup_bindings right.nodup_bindings fun lower upper sameToo => ?_
  have inTables := alike.sameAs_inTable sameToo
  simp [inTables]

/-- Members that are chosen by what their entries say. -/
theorem find?_members_related (alike : DescribedAlike left right)
    (same : SameAs left right first second) (accepts : Entry → Bool)
    (onlySaid : ∀ lower upper, EntriesAgree (SameAs left right) lower upper →
      accepts lower = accepts upper) :
    Option.Rel (SameAs left right)
      ((left.entry first).members.find? fun member => accepts (left.entry member))
      ((right.entry second).members.find? fun member => accepts (right.entry member)) :=
  find?_related (alike.entriesAgree same).members fun _ _ sameMember =>
    onlySaid _ _ (alike.entriesAgree sameMember)

theorem sameAnswers (alike : DescribedAlike left right) : SameAnswers left right where
  resolves := alike.resolves
  entries _ _ := alike.entriesAgree
  unique := alike.biUnique
  methods first second name arity same := by
    refine findSome?_related (alike.hierarchy_related same) fun lower upper sameToo => ?_
    refine alike.find?_members_related sameToo
      (fun entry => entry.kind == .method && !entry.isConstructor && entry.name == name &&
        entry.accepts arity) fun _ _ agree => ?_
    rw [agree.kind, agree.isConstructor, agree.name, agree.accepts_eq]
  constructors first second arity same := by
    refine alike.find?_members_related same
      (fun entry => entry.isConstructor && entry.accepts arity) fun _ _ agree => ?_
    rw [agree.isConstructor, agree.accepts_eq]
  fields first second name same := by
    refine findSome?_related (alike.hierarchy_related same) fun lower upper sameToo => ?_
    refine alike.find?_members_related sameToo
      (fun entry => entry.kind == .variable && entry.name == name) fun _ _ agree => ?_
    rw [agree.kind, agree.name]

end DescribedAlike

/-! ## Loaded class paths -/

/-- A table says of the types of a class path what their descriptions say, and knows no others. -/
structure ReadsAsDescribed (table : Table) (path : ClassPath) : Prop where
  described : ∀ type ∈ path.types, ∃ binding,
    table.resolveType type.name = some binding ∧ table.Reads type binding
  undescribed : ∀ name, table.resolveType name = none ↔ name ∉ path.names
  /-- A reference is to a type of that name. Without its brackets it is to the described type, if
  there is one, and to a recovered type only if there is none. -/
  reference : ∀ name binding, table.Denotes name binding → table.Holds .type binding ∧
    (table.entry binding).qualifiedName = name ∧
    ∃ base depth innermost, name = withBrackets base depth ∧ Bare base ∧
      table.componentAt binding depth = some innermost ∧
      ((table.entry innermost).recovered ↔ ¬ isPrimitiveName base ∧ base ∉ path.names) ∧
      (¬ isPrimitiveName base → base ∈ path.names → table.resolveType base = some innermost)

theorem DescribedBy.readsAsDescribed (described : table.DescribedBy path) :
    table.ReadsAsDescribed path := by
  have canonical := described.sound.canonical
  constructor
  case described =>
    intro type isType
    rcases described.reads type isType with ⟨binding, reads⟩
    exact ⟨binding, (described.resolveType_eq _).trans reads.found, reads⟩
  case undescribed => exact fun name => by rw [described.resolveType_eq, described.undeclared]
  case reference =>
    intro name binding denotes
    refine ⟨denotes.holds canonical.retrieves, denotes.qualifiedName canonical, ?_⟩
    rcases exists_withBrackets name with ⟨base, depth, bare, rfl⟩
    rcases denotes.componentAt canonical.retrieves with ⟨innermost, reached, isInnermost⟩
    refine ⟨base, depth, innermost, rfl, bare, reached, described.recovered_iff bare isInnermost,
      fun notPrimitive isDescribed => ?_⟩
    have declared : table.lookupType base ≠ none := by
      simpa [described.undeclared] using isDescribed
    have found := (Denotes.bare_iff bare).1 isInnermost
    rw [namedKey, if_neg notPrimitive, if_neg declared] at found
    exact (described.resolveType_eq base).trans found

/-- Loading a class path without repeated names gives a table in which every type reads as it is
described. In what order the types are listed makes no difference. -/
theorem readsAsDescribed_load (distinct : path.names.Nodup) :
    (load {} path).ReadsAsDescribed path ∧
      ∀ other : ClassPath, other.types.Perm path.types →
        SameAnswers (load {} path) (load {} other) := by
  have described := describedBy_load distinct
  refine ⟨described.readsAsDescribed, fun other perm => ?_⟩
  have otherDistinct : other.names.Nodup := (perm.map LibraryType.name).nodup_iff.2 distinct
  have alike : DescribedAlike (load {} path) (load {} other) :=
    ⟨path, other, distinct, perm, described, describedBy_load otherDistinct⟩
  exact alike.sameAnswers

/-- A class path that refers forward, back, to the type itself, to arrays and to what is missing. -/
def shipping : ClassPath where
  types :=
    [ { name := "sea.Ferry"
        superclass := some "sea.Ship"
        fields := [{ name := "sister", type := "sea.Ferry" }]
        methods :=
          [{ name := "embark", parameters := ["int", "sea.Car[][]"], varargs := true }] },
      { name := "sea.Ship", interfaces := ["sea.Floating"], annotations := ["sea.Registered"] },
      { name := "sea.Registered", kind := .annotationType },
      { name := "sea.Fleet"
        kind := .enum
        methods := [{ name := "ships", returns := some "sea.Ship[]" }] } ]

theorem readsAsDescribed_shipping : shipping.names.Nodup ∧
    (load {} shipping).ReadsAsDescribed shipping ∧
    SameAnswers (load {} shipping) (load {} ⟨shipping.types.reverse⟩) := by
  have distinct : shipping.names.Nodup := by decide
  rcases readsAsDescribed_load distinct with ⟨reads, sameAnswers⟩
  exact ⟨distinct, reads, sameAnswers _ (reverse_perm shipping.types)⟩

end Table

end JavaInspect
