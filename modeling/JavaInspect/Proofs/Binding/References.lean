import JavaInspect.Proofs.Binding.Canonical
import JavaInspect.Proofs.Binding.Growth
import JavaInspect.Proofs.Binding.Links
import JavaInspect.Proofs.Java.Lookups

/-!
# References by name

A reference is the name of a type with any number of array brackets behind it. In a canonical
table each reference denotes one binding at most, which has the reference for its qualified name;
and taking brackets off the reference is the same as going from an array to its component type. A
reference that denotes nothing yet is given new bindings, and all else stays as it is.
-/

namespace JavaInspect

namespace Table

variable {table before middle after : Table} {binding other element : BindingId} {entry : Entry}
  {key : Key} {name inner base : String} {depth : Nat}

/-! ## Brackets -/

/-- A name with a number of pairs of array brackets behind it. -/
def withBrackets (name : String) : Nat → String
  | 0 => name
  | depth + 1 => withBrackets name depth ++ "[]"

/-- No array brackets stand at the end of the name. -/
def Bare (name : String) : Prop := ∀ inner, name ≠ inner ++ "[]"

theorem splitDimensions_append : splitDimensions (name ++ "[]") =
    ((splitDimensions name).1, (splitDimensions name).2 + 1) := by
  have brackets : "[]".toList = ['[', ']'] := rfl
  simp [splitDimensions, brackets, peelBrackets]

theorem splitDimensions_bare (bare : Bare name) : splitDimensions name = (name, 0) := by
  rw [splitDimensions]
  generalize isReversed : name.toList.reverse = reversed
  rw [List.reverse_eq_iff] at isReversed
  cases reversed using peelBrackets.fun_cases with
  | case1 rest =>
      refine (bare (String.ofList rest.reverse) ?_).elim
      rw [← String.toList_inj, isReversed]
      simp
  | case2 _ notBrackets =>
      rw [peelBrackets.eq_2 _ notBrackets]
      simp [← isReversed]

/-- Every name is made from a bare one by adding brackets. -/
@[elab_as_elim]
theorem bracketsInduction {motive : String → Prop} (bare : ∀ name, Bare name → motive name)
    (array : ∀ inner, motive inner → motive (inner ++ "[]")) (name : String) : motive name := by
  induction size : name.length using Nat.strong_induction_on generalizing name with
  | _ size ih =>
      by_cases isBare : Bare name
      · exact bare name isBare
      · rw [Bare, not_forall_not] at isBare
        rcases isBare with ⟨inner, rfl⟩
        have brackets : "[]".length = 2 := rfl
        rw [String.length_append, brackets] at size
        exact array inner (ih inner.length (by omega) inner rfl)

theorem exists_withBrackets (name : String) :
    ∃ base depth, Bare base ∧ name = withBrackets base depth := by
  induction name using bracketsInduction with
  | bare name bare => exact ⟨name, 0, bare, rfl⟩
  | array inner ih =>
      rcases ih with ⟨base, depth, bare, rfl⟩
      exact ⟨base, depth + 1, bare, rfl⟩

theorem typeReference_bare (bare : Bare name) :
    table.typeReference name = table.namedReference name := by
  rw [typeReference, splitDimensions_bare bare]
  rfl

theorem typeReference_array : table.typeReference (inner ++ "[]") =
    (table.typeReference inner).2.arrayOf (table.typeReference inner).1 := by
  rw [typeReference, splitDimensions_append]
  rfl

/-! ## What a reference adds -/

/-- A table that came from another by adding bindings that are not declared: all that was there is
as it was. -/
structure Supplements (before after : Table) : Prop where
  extended : before.Extends after
  entry : ∀ binding, binding.index < before.size → after.entry binding = before.entry binding
  types : after.types = before.types
  hidden : after.hidden = before.hidden

instance : IsPreorder Table Supplements where
  refl table := ⟨refl_of Extends table, fun _ _ => rfl, rfl, rfl⟩
  trans _ _ _ first second :=
    { extended := trans_of Extends first.extended second.extended
      entry := fun binding old =>
        (second.entry binding (Nat.lt_of_lt_of_le old first.extended.size_le)).trans
          (first.entry binding old)
      types := second.types.trans first.types
      hidden := second.hidden.trans first.hidden }

theorem supplements_findOrPush (made : key.made? table = some entry) :
    table.Supplements (table.findOrPush key entry).2 := by
  have changes : Changes entry.origins none table (table.findOrPush key entry).2 :=
    changes_findOrPush (Key.members_made made) (fun _ => .inl) (Key.describes_made made)
  refine ⟨changes.extended, fun binding old => changes.entry_eq old nofun, ?_, ?_⟩
  all_goals
    rw [findOrPush]
    split
    case h_1 => rfl
    case h_2 => cases key <;> cases made <;> rfl

theorem supplements_primitive (table : Table) (name : String) :
    table.Supplements (table.primitive name).2 := by
  rw [primitive_eq]
  exact supplements_findOrPush rfl

theorem supplements_unresolvedType (table : Table) (token : String) :
    table.Supplements (table.unresolvedType token).2 := by
  rw [unresolvedType_eq]
  exact supplements_findOrPush rfl

theorem supplements_arrayOf (table : Table) (element : BindingId) :
    table.Supplements (table.arrayOf element).2 := by
  rw [arrayOf_eq]
  exact supplements_findOrPush rfl

theorem supplements_namedReference (table : Table) (name : String) :
    table.Supplements (table.namedReference name).2 := by
  rw [namedReference]
  split
  case isTrue => exact supplements_primitive table name
  case isFalse =>
    split
    case h_1 => exact refl_of Supplements table
    case h_2 => exact supplements_unresolvedType table name

theorem supplements_typeReference (table : Table) (name : String) :
    table.Supplements (table.typeReference name).2 := by
  induction name using bracketsInduction with
  | bare name bare =>
      rw [typeReference_bare bare]
      exact supplements_namedReference table name
  | array inner ih =>
      rw [typeReference_array]
      exact trans_of Supplements ih (supplements_arrayOf _ _)

theorem supplements_typeReferences (table : Table) (names : List String) :
    table.Supplements (table.typeReferences names).2 := by
  induction names generalizing table with
  | nil => exact refl_of Supplements table
  | cons name names ih => exact trans_of Supplements (supplements_typeReference table name) (ih _)

/-! ## What a reference denotes -/

/-- The key under which the type of a bare name is kept. -/
def namedKey (table : Table) (name : String) : Key :=
  if isPrimitiveName name then .primitive name
  else if table.lookupType name = none then .unresolved name
  else .type name

/-- The binding that a table has for a reference. -/
inductive Denotes (table : Table) : String → BindingId → Prop where
  | named {name : String} {binding : BindingId} (bare : Bare name)
      (found : (table.namedKey name).find? table = some binding) : Denotes table name binding
  | array {inner : String} {element binding : BindingId} (component : Denotes table inner element)
      (found : (Key.array element).find? table = some binding) :
      Denotes table (inner ++ "[]") binding

theorem find?_namedReference : (table.namedKey name).find? (table.namedReference name).2 =
    some (table.namedReference name).1 := by
  rw [namedKey, namedReference]
  split
  case isTrue =>
    rw [primitive_eq]
    exact find?_findOrPush
  case isFalse =>
    cases found : table.lookupType name with
    | some known =>
        rw [if_neg (Option.some_ne_none known)]
        exact found
    | none =>
        rw [if_pos rfl, unresolvedType_eq]
        exact find?_findOrPush

theorem namedReference_of_found (found : (table.namedKey name).find? table = some binding) :
    table.namedReference name = (binding, table) := by
  rw [namedKey] at found
  rw [namedReference]
  split
  case isTrue isPrimitive =>
    rw [if_pos isPrimitive] at found
    rw [primitive_eq, findOrPush_of_found found]
  case isFalse notPrimitive =>
    rw [if_neg notPrimitive] at found
    cases declared : table.lookupType name with
    | some known =>
        rw [declared, if_neg (Option.some_ne_none known)] at found
        rw [Option.some.inj (declared.symm.trans found)]
    | none =>
        rw [declared, if_pos rfl] at found
        rw [unresolvedType_eq, findOrPush_of_found found]

namespace Denotes

theorem array_iff : table.Denotes (inner ++ "[]") binding ↔
    ∃ element, table.Denotes inner element ∧ (Key.array element).find? table = some binding := by
  constructor
  · intro denotes
    generalize isName : inner ++ "[]" = name at denotes
    cases denotes with
    | named bare => exact (bare inner isName.symm).elim
    | array component found =>
        obtain rfl : inner = _ := by simpa using isName
        exact ⟨_, component, found⟩
  · rintro ⟨element, component, found⟩
    exact .array component found

theorem bare_iff (bare : Bare name) : table.Denotes name binding ↔
    (table.namedKey name).find? table = some binding := by
  constructor
  · intro denotes
    cases denotes with
    | named _ found => exact found
    | array => exact (bare _ rfl).elim
  · exact .named bare

/-- What a reference denotes is what it is answered by, and nothing changes. -/
theorem typeReference_eq (denotes : table.Denotes name binding) :
    table.typeReference name = (binding, table) := by
  induction denotes with
  | named bare found => rw [typeReference_bare bare, namedReference_of_found found]
  | array component found ih => rw [typeReference_array, ih, arrayOf_eq, findOrPush_of_found found]

theorem unique (first : table.Denotes name binding) (second : table.Denotes name other) :
    binding = other :=
  congrArg Prod.fst (first.typeReference_eq.symm.trans second.typeReference_eq)

/-- A reference keeps what it denotes as long as no type is declared. -/
theorem extend (denotes : before.Denotes name binding) (extended : before.Extends after)
    (sameTypes : after.types = before.types) : after.Denotes name binding := by
  induction denotes with
  | named bare found =>
      refine .named bare ?_
      rw [namedKey, lookupType, sameTypes]
      exact extended.find? _ _ found
  | array component found ih => exact .array ih (extended.find? _ _ found)

theorem supplement (denotes : before.Denotes name binding)
    (supplements : before.Supplements after) :
    after.Denotes name binding :=
  denotes.extend supplements.extended supplements.types

end Denotes

/-- A reference denotes afterwards what it has been answered by. -/
theorem denotes_typeReference (table : Table) (name : String) :
    (table.typeReference name).2.Denotes name (table.typeReference name).1 := by
  induction name using bracketsInduction with
  | bare name bare =>
      rw [typeReference_bare bare]
      refine .named bare ?_
      rw [namedKey, lookupType, (supplements_namedReference table name).types]
      exact find?_namedReference
  | array inner ih =>
      rw [typeReference_array]
      refine .array (ih.supplement (supplements_arrayOf _ _)) ?_
      rw [arrayOf_eq]
      exact find?_findOrPush

/-! ## What is known about what a reference denotes -/

theorem describes_namedKey (describes : (table.namedKey name).Describes entry) :
    entry.kind = .type ∧ entry.qualifiedName = name := by
  rw [namedKey] at describes
  split at describes
  case isTrue => exact ⟨describes.1, describes.2.2⟩
  case isFalse =>
    split at describes
    case isTrue => exact ⟨describes.1, describes.2.2⟩
    case isFalse => exact describes

/-- The component type of a type, the component type of that, and so on to a depth. -/
def componentAt (table : Table) (binding : BindingId) : Nat → Option BindingId
  | 0 => some binding
  | depth + 1 => (table.entry binding).element.bind fun element => table.componentAt element depth

namespace Denotes

theorem holds (denotes : table.Denotes name binding) (retrieves : table.Retrieves) :
    table.Holds .type binding := by
  cases denotes with
  | named _ found =>
      rcases retrieves _ _ found with ⟨inTable, describes⟩
      exact ⟨inTable, (describes_namedKey describes).1⟩
  | array _ found =>
      rcases retrieves _ _ found with ⟨inTable, describes⟩
      exact ⟨inTable, describes.1⟩

theorem qualifiedName (denotes : table.Denotes name binding) (canonical : table.Canonical) :
    (table.entry binding).qualifiedName = name := by
  induction denotes with
  | named _ found => exact (describes_namedKey (canonical.retrieves _ _ found).2).2
  | array _ found ih =>
      have settled := canonical.made _ _ _ found rfl
      rw [Entry.eq_of_settled Entry.qualifiedName (fun _ => rfl) settled, ih]

/-- Taking brackets off a reference is going from an array to its component type. -/
theorem componentAt (denotes : table.Denotes (withBrackets inner depth) binding)
    (retrieves : table.Retrieves) :
    ∃ element, table.componentAt binding depth = some element ∧ table.Denotes inner element := by
  induction depth generalizing binding with
  | zero => exact ⟨binding, rfl, denotes⟩
  | succ depth ih =>
      rcases Denotes.array_iff.1 denotes with ⟨component, isComponent, found⟩
      rcases ih isComponent with ⟨element, reached, isElement⟩
      refine ⟨element, ?_, isElement⟩
      rw [Table.componentAt, (retrieves _ _ found).2.2.2]
      exact reached

end Denotes

theorem denotes_inner (table : Table) (inner : String) (depth : Nat) :
    (table.typeReference (withBrackets inner depth)).2.Denotes inner
      (table.typeReference inner).1 := by
  induction depth with
  | zero => exact denotes_typeReference table inner
  | succ depth ih =>
      rw [withBrackets, typeReference_array]
      exact ih.supplement (supplements_arrayOf _ _)

/-- A placeholder that was there before or has been made since. -/
def PlaceholderSince (before after : Table) (binding : BindingId) : Prop :=
  ∃ token, before.unresolved.lookup token = some binding ∨
    (before.size ≤ binding.index ∧ after.unresolved.lookup token = some binding)

/-- A bare name is answered by a placeholder just when it is neither that of a primitive type nor
that of a declared one. -/
theorem placeholderSince_iff (canonical : after.Canonical) (supplements : table.Supplements after)
    (bare : Bare base) (denotes : after.Denotes base (table.typeReference base).1) :
    table.PlaceholderSince after (table.typeReference base).1 ↔
      ¬ isPrimitiveName base ∧ table.lookupType base = none := by
  have found := (Denotes.bare_iff bare).1 denotes
  have sameKey : after.namedKey base = table.namedKey base := by
    rw [namedKey, namedKey, lookupType, supplements.types, lookupType]
  rw [sameKey] at found
  constructor
  · rintro ⟨token, isPlaceholder⟩
    have kept : (Key.unresolved token).find? after = some (table.typeReference base).1 :=
      isPlaceholder.elim (supplements.extended.find? (.unresolved token) _) And.right
    have isUnresolved := canonical.apart _ _ _ found kept
    rw [namedKey] at isUnresolved
    grind
  · rintro ⟨notPrimitive, undeclared⟩
    have isUnresolved : table.namedKey base = .unresolved base := by simp [namedKey, *]
    have answered : table.typeReference base = table.unresolvedType base := by
      rw [typeReference_bare bare, namedReference, if_neg notPrimitive, undeclared]
    rw [isUnresolved] at found
    refine ⟨base, ?_⟩
    cases earlier : table.unresolved.lookup base with
    | some known =>
        left
        rw [answered, unresolvedType, earlier]
    | none =>
        right
        refine ⟨?_, found⟩
        rw [answered, unresolvedType, earlier]
        exact Nat.le_refl _

/-! ## Lookups -/

theorem searchFrom_supplement (supplements : before.Supplements after)
    (inside : before.LinksInside) {unvisited added queue : List BindingId}
    (known : ∀ visited ∈ unvisited, visited.index < before.size)
    (queued : ∀ next ∈ queue, next.index < before.size)
    (isAdded : ∀ new ∈ added, before.size ≤ new.index) :
    after.searchFrom (unvisited ++ added) queue = before.searchFrom unvisited queue := by
  induction unvisited, queue using searchFrom.induct before with
  | case1 => rw [searchFrom, searchFrom]
  | case2 unvisited current queue fresh ih =>
      have sameParents : after.parents current = before.parents current := by
        rw [parents, parents, supplements.entry current (known current fresh)]
      rw [searchFrom, searchFrom, dif_pos (List.mem_append_left _ fresh), dif_pos fresh,
        List.erase_append_left _ fresh, sameParents, ih]
      · exact fun visited isLeft => known visited (List.mem_of_mem_erase isLeft)
      · intro next isNext
        rcases List.mem_append.1 isNext with isQueued | isParent
        · exact queued next (List.mem_cons_of_mem _ isQueued)
        · exact inside current next isParent
  | case3 unvisited current queue visited ih =>
      have notAdded : current ∉ added := fun isNew =>
        Nat.not_lt.2 (isAdded current isNew) (queued current List.mem_cons_self)
      rw [searchFrom, searchFrom, dif_neg (by simp [visited, notAdded]), dif_neg visited,
        ih known fun next isNext => queued next (List.mem_cons_of_mem _ isNext)]

theorem bindings_supplement (supplements : before.Supplements after) :
    ∃ added, after.bindings = before.bindings ++ added ∧
      ∀ new ∈ added, before.size ≤ new.index := by
  rcases Nat.exists_eq_add_of_le supplements.extended.size_le with ⟨count, isSum⟩
  refine ⟨((List.range count).map (before.size + ·)).map BindingId.mk, ?_, by simp⟩
  rw [bindings, bindings, isSum, List.range_add, List.map_append]

theorem LinksInside.reached (inside : table.LinksInside) (inTable : binding.index < table.size)
    (reaches : table.Reaches binding other) : other.index < table.size := by
  rcases Relation.ReflTransGen.cases_tail reaches with rfl | ⟨lower, -, isParent⟩
  · exact inTable
  · exact inside lower other isParent

theorem hierarchy_supplement (supplements : before.Supplements after) (inside : before.LinksInside)
    (inTable : binding.index < before.size) :
    after.hierarchy binding = before.hierarchy binding := by
  rcases bindings_supplement supplements with ⟨added, isSum, isAdded⟩
  rw [hierarchy, isSum]
  exact searchFrom_supplement supplements inside (by simp) (by simpa using inTable) isAdded

/-- A choice among the members of a type that looks at their entries. -/
theorem find?_members_supplement (supplements : before.Supplements after)
    (lists : before.ListsOwn) (inTable : binding.index < before.size) (accepts : Entry → Bool) :
    (after.entry binding).members.find? (fun member => accepts (after.entry member)) =
      (before.entry binding).members.find? fun member => accepts (before.entry member) := by
  rw [supplements.entry binding inTable]
  apply List.find?_congr
  intro member isMember
  rw [supplements.entry member (lists.inTable binding member isMember)]

/-- A search of a type and all that is above it for a member that is chosen by its entry. -/
theorem findSome?_hierarchy_supplement (supplements : before.Supplements after)
    (lists : before.ListsOwn) (inside : before.LinksInside)
    (inTable : binding.index < before.size) (accepts : Entry → Bool) :
    (after.hierarchy binding).findSome? (fun upper =>
        (after.entry upper).members.find? fun member => accepts (after.entry member)) =
      (before.hierarchy binding).findSome? fun upper =>
        (before.entry upper).members.find? fun member => accepts (before.entry member) := by
  rw [hierarchy_supplement supplements inside inTable]
  have found : ∀ upper ∈ before.hierarchy binding, upper.index < before.size := fun upper isUpper =>
    inside.reached inTable (reaches_of_mem_hierarchy isUpper)
  generalize before.hierarchy binding = order at found
  induction order with
  | nil => rfl
  | cons upper order ih =>
      rw [List.findSome?_cons, List.findSome?_cons,
        find?_members_supplement supplements lists (found upper List.mem_cons_self),
        ih fun other isOther => found other (List.mem_cons_of_mem _ isOther)]

/-- All lookups of members of a type find afterwards what they found before. -/
structure SameLookups (before after : Table) (type : BindingId) : Prop where
  method : ∀ name arity, after.findMethod type name arity = before.findMethod type name arity
  constructors : ∀ arity, after.findConstructor type arity = before.findConstructor type arity
  field : ∀ name, after.findField type name = before.findField type name

theorem sameLookups_supplement (supplements : before.Supplements after) (lists : before.ListsOwn)
    (inside : before.LinksInside) (inTable : binding.index < before.size) :
    before.SameLookups after binding where
  method name arity := findSome?_hierarchy_supplement supplements lists inside inTable
    fun entry => entry.kind == .method && !entry.isConstructor && entry.name == name &&
      entry.accepts arity
  constructors arity := find?_members_supplement supplements lists inTable
    fun entry => entry.isConstructor && entry.accepts arity
  field name := findSome?_hierarchy_supplement supplements lists inside inTable
    fun entry => entry.kind == .variable && entry.name == name

/-! ## References to built tables -/

/-- What holds of the answer to a reference. -/
structure AnswersReference (table : Table) (name : String) (answer : BindingId × Table) : Prop where
  isType : answer.2.Holds .type answer.1
  qualifiedName : (answer.2.entry answer.1).qualifiedName = name
  entries : ∀ binding, binding.index < table.size →
    answer.2.entry binding = table.entry binding
  resolves : ∀ asked, answer.2.resolveType asked = table.resolveType asked
  lookups : table.LinksInside → ∀ type, type.index < table.size →
    table.SameLookups answer.2 type
  /-- After further references the answer is the same, and it adds nothing. -/
  again : ∀ further, (answer.2.typeReferences further).2.typeReference name =
    (answer.1, (answer.2.typeReferences further).2)
  /-- Component types are what the reference with fewer brackets is answered by. -/
  stripped : ∀ inner depth, name = withBrackets inner depth →
    answer.2.componentAt answer.1 depth = some (table.typeReference inner).1 ∧
    answer.2.typeReference inner = ((table.typeReference inner).1, answer.2)
  /-- The reference without all its brackets is answered by a placeholder only where it must be. -/
  innermost : ∃ base depth innermost, name = withBrackets base depth ∧ Bare base ∧
    answer.2.componentAt answer.1 depth = some innermost ∧
    (table.PlaceholderSince answer.2 innermost ↔
      ¬ isPrimitiveName base ∧ table.lookupType base = none)

theorem Canonical.componentAt_answer (canonical : table.Canonical) :
    (table.typeReference (withBrackets inner depth)).2.componentAt
      (table.typeReference (withBrackets inner depth)).1 depth =
        some (table.typeReference inner).1 := by
  have further := canonical.typeReference (withBrackets inner depth)
  rcases (denotes_typeReference table _).componentAt further.retrieves with
    ⟨element, reached, isElement⟩
  rw [reached, isElement.unique (denotes_inner table inner depth)]

/-- A reference to a built table is answered by a type of that name, always the same. Array types
have the types for components that the reference with fewer brackets stands for, and nothing that
was known before has changed. -/
theorem answersReference_typeReference (built : table.Built) (name : String) :
    table.AnswersReference name (table.typeReference name) := by
  have canonical := built.canonical
  have further := canonical.typeReference name
  have denotes := denotes_typeReference table name
  have supplements := supplements_typeReference table name
  constructor
  case isType => exact denotes.holds further.retrieves
  case qualifiedName => exact denotes.qualifiedName further
  case entries => exact supplements.entry
  case resolves =>
    intro asked
    rw [resolveType, lookupType, supplements.hidden, supplements.types, resolveType, lookupType]
  case lookups =>
    exact fun inside type inTable =>
      sameLookups_supplement supplements built.listsOwn inside inTable
  case again =>
    exact fun names => (denotes.supplement (supplements_typeReferences _ names)).typeReference_eq
  case stripped =>
    rintro inner depth rfl
    exact ⟨canonical.componentAt_answer, (denotes_inner table inner depth).typeReference_eq⟩
  case innermost =>
    rcases exists_withBrackets name with ⟨base, depth, bare, rfl⟩
    exact ⟨base, depth, _, rfl, bare, canonical.componentAt_answer,
      placeholderSince_iff further supplements bare (denotes_inner table base depth)⟩

/-- A table that has a declared type, an array of it, a placeholder and a placeholder that is named
like a primitive type. -/
def quay : Table := build
  [ .declareType "harbour.Quay" .class,
    .typeReference "harbour.Quay[]",
    .unresolvedType "int",
    .unresolvedType "Crane",
    .addInterface ⟨1⟩ ⟨4⟩ ]

theorem answersReference_quay : quay.Built ∧
    quay.AnswersReference "harbour.Quay[][]" (quay.typeReference "harbour.Quay[][]") ∧
    quay.AnswersReference "int[]" (quay.typeReference "int[]") ∧
    quay.AnswersReference "Crane" (quay.typeReference "Crane") := by
  have built : quay.Built := built_iff.2 ⟨_, rfl⟩
  exact ⟨built, answersReference_typeReference built _, answersReference_typeReference built _,
    answersReference_typeReference built _⟩

end Table

end JavaInspect
