import JavaInspect.Proofs.Library.Described
import JavaInspect.Proofs.Semantics.SuperTypes

/-!
# Superclasses by default

A class path may describe a type more than once. The first description settles what kind of type it
is, all of them together what is above it. Where no description names a superclass or an interface,
all that is above a type is above it by default: the root of the reference types, or the common
base of enums or of records. These three may be described as well, as whatever kind, so that a type
can come to be above itself. The supertypes of a described type are found without a fault just when
none of the three that is above it is above itself.
-/

namespace JavaInspect

open List Relation

/-- Whether the supertypes of types of a kind begin with a superclass. -/
def LibraryKind.hasSuperclass : LibraryKind → Bool
  | .class | .enum | .record => true
  | .interface | .annotationType => false

/-- The superclass that the last of the descriptions of a name gives it that gives one. -/
def superclassNamed? (types : List LibraryType) (name : String) : Option String :=
  ((types.filter (·.name == name)).filterMap (·.superclass?)).getLast?

/-- The interfaces that all descriptions of a name give it. -/
def interfacesNamed (types : List LibraryType) (name : String) : List String :=
  (types.filter (·.name == name)).flatMap (·.interfaces)

/-- The types that are above others which do not name them. -/
def defaultBases : List String := [rootTypeName, enumBaseName, recordBaseName]

namespace ClassPath

variable {path : ClassPath} {lower upper name base : String}

/-- No type names a superclass or an interface. -/
def LinksByDefault (path : ClassPath) : Prop :=
  ∀ type ∈ path.types, type.superclass = none ∧ type.interfaces = []

/-- The superclass of a described type that its supertypes begin with. -/
def above? (path : ClassPath) (name : String) : Option String :=
  (path.get? name).bind fun first =>
    if first.kind.hasSuperclass then superclassNamed? path.types name else none

/-- A step from a type to its superclass. -/
def StepsUp (path : ClassPath) (lower upper : String) : Prop :=
  path.above? lower = some upper

instance (path : ClassPath) (lower upper : String) : Decidable (path.StepsUp lower upper) :=
  inferInstanceAs (Decidable (path.above? lower = some upper))

/-- A type of which others are by default is above a type, and above itself. -/
structure CircleAbove (path : ClassPath) (name base : String) : Prop where
  isBase : base ∈ defaultBases
  above : ReflTransGen path.StepsUp name base
  returns : TransGen path.StepsUp base base

theorem StepsUp.described (step : path.StepsUp lower upper) : lower ∈ path.names := by
  rcases Option.bind_eq_some_iff.1 step with ⟨first, isFirst, -⟩
  rcases described_of_get? isFirst with ⟨isType, rfl⟩
  exact mem_map_of_mem isType

theorem StepsUp.superclassNamed (step : path.StepsUp lower upper) :
    superclassNamed? path.types lower = some upper := by
  rcases Option.bind_eq_some_iff.1 step with ⟨first, -, superclass⟩
  split at superclass
  case isTrue => exact superclass
  case isFalse => cases superclass

namespace LinksByDefault

variable (byDefault : path.LinksByDefault)

include byDefault

theorem exists_of_superclassNamed (superclass : superclassNamed? path.types name = some base) :
    ∃ type ∈ path.types, type.name = name ∧ type.defaultSuperclass? = some base := by
  rcases mem_filterMap.1 (mem_of_getLast? superclass) with ⟨type, isNamed, isSuperclass⟩
  rw [mem_filter, beq_iff_eq] at isNamed
  rw [LibraryType.superclass?, (byDefault type isNamed.1).1, Option.none_or] at isSuperclass
  exact ⟨type, isNamed.1, isNamed.2, isSuperclass⟩

theorem mem_defaultBases (superclass : superclassNamed? path.types name = some base) :
    base ∈ defaultBases := by
  rcases byDefault.exists_of_superclassNamed superclass with ⟨type, -, -, isDefault⟩
  grind [defaultBases, LibraryType.defaultSuperclass?]

theorem interfacesNamed_eq_nil (name : String) : interfacesNamed path.types name = [] :=
  flatMap_eq_nil_iff.2 fun type isNamed => (byDefault type (mem_of_mem_filter isNamed)).2

/-- Where the default bases are only described as classes, none of them is above itself. -/
theorem not_circleAbove_of_classes
    (classes : ∀ type ∈ path.types, type.name ∈ defaultBases → type.kind = .class) :
    ¬ path.CircleAbove name base := by
  have toRoot : ∀ lower ∈ defaultBases, ∀ upper, path.StepsUp lower upper →
      lower ≠ rootTypeName ∧ upper = rootTypeName := by
    intro lower isBase upper step
    rcases byDefault.exists_of_superclassNamed step.superclassNamed with
      ⟨type, isType, rfl, isDefault⟩
    rw [LibraryType.defaultSuperclass?, classes type isType isBase] at isDefault
    grind
  intro circle
  rcases TransGen.head'_iff.1 circle.returns with ⟨upper, step, back⟩
  rcases toRoot base circle.isBase upper step with ⟨notRoot, rfl⟩
  rcases back.cases_head with isRoot | ⟨next, further, -⟩
  · exact notRoot isRoot.symm
  · exact (toRoot rootTypeName mem_cons_self next further).1 rfl

end LinksByDefault

end ClassPath

namespace Table

variable {table before after : Table} {binding owner upper : BindingId} {name base : String}
  {first type : LibraryType} {types : List LibraryType} {path : ClassPath}
  {superclass : Option BindingId} {interfaces annotations members : List BindingId}

/-! ## Repeated descriptions -/

/-- A binding is of the kind that one type is described with, and has all supertypes that the
descriptions of a name give. -/
structure Collects (table : Table) (first : LibraryType) (types : List LibraryType) (name : String)
    (binding : BindingId) : Prop where
  entry : ∃ package, table.entry binding =
    { first.declaration package with
      superclass := (table.entry binding).superclass
      interfaces := (table.entry binding).interfaces
      annotations := (table.entry binding).annotations
      members := (table.entry binding).members }
  superclass : Option.Rel table.Denotes (superclassNamed? types name)
    (table.entry binding).superclass
  interfaces : Forall₂ table.Denotes (interfacesNamed types name) (table.entry binding).interfaces

theorem Declared.collects (declared : table.Declared first binding) (name : String) :
    table.Collects first [] name binding := by
  rcases declared.declaration with ⟨package, -, entry⟩
  constructor
  case entry => exact ⟨package, by rw [entry]⟩
  case superclass =>
    rw [entry]
    exact .none
  case interfaces =>
    rw [entry]
    exact .nil

theorem option_or {Item Other : Type} {related : Item → Other → Prop} {first second : Option Item}
    {firstOther secondOther : Option Other} (areFirst : Option.Rel related first firstOther)
    (areSecond : Option.Rel related second secondOther) :
    Option.Rel related (first.or second) (firstOther.or secondOther) := by
  cases areFirst with
  | some isFirst => exact .some isFirst
  | none => simpa using areSecond

/-- Linking one more type adds the supertypes that its description gives to the type of its name. -/
theorem Collects.link (collects : before.Collects first types name binding)
    (canonical : before.Canonical) (inTable : binding.index < before.size)
    (found : before.lookupType name = some binding)
    (foundOwner : before.lookupType type.name = some owner)
    (links : LinksAs type owner superclass interfaces annotations members before after) :
    after.Collects first (types ++ [type]) name binding := by
  have amends := links.gains.toAmends
  rcases collects.entry with ⟨package, entry⟩
  by_cases same : type.name = name
  · obtain rfl : owner = binding := Option.some.inj (foundOwner.symm.trans (same ▸ found))
    have linked := links.gains.owned
    constructor
    case entry => exact ⟨package, by rw [linked, entry]⟩
    case superclass =>
      rw [linked]
      simpa [superclassNamed?, filter_append, filterMap_append, same, getLast?_append]
        using option_or links.above (option_amend collects.superclass amends)
    case interfaces =>
      rw [linked]
      simpa [interfacesNamed, filter_append, same]
        using rel_append (collects.interfaces.imp fun _ _ denotes => denotes.amend amends)
          links.implemented
  · -- Another name has another binding, which is left as it was.
    have apart : binding ≠ owner := by
      rintro rfl
      have sameKey := canonical.apart (.type type.name) (.type name) binding foundOwner found
      exact same (Key.type.inj sameKey)
    have unchanged := amends.entry binding inTable apart
    constructor
    case entry => exact ⟨package, by rw [unchanged]; exact entry⟩
    case superclass =>
      rw [unchanged]
      simpa [superclassNamed?, filter_append, same] using option_amend collects.superclass amends
    case interfaces =>
      rw [unchanged]
      simpa [interfacesNamed, filter_append, same]
        using collects.interfaces.imp fun _ _ denotes => denotes.amend amends

/-- Types that have been declared are linked one after another. In the end each has the supertypes
that all of them give to its name. -/
theorem collects_linkAll {items : List (LibraryType × BindingId)} (sound : table.Sound)
    (found : ∀ item ∈ items, table.lookupType item.1.name = some item.2)
    (linkable : ∀ item ∈ items, table.Linkable item.2)
    (foundName : table.lookupType name = some binding) (declared : table.Declared first binding) :
    (table.linkAll items).Collects first (items.map (·.1)) name binding := by
  -- From the end of the list, since a later superclass takes the place of an earlier one.
  induction items using reverseRecOn with
  | nil => exact declared.collects name
  | append_singleton items item ih =>
      have isEarlier : items ⊆ items ++ [item] := subset_append_left items [item]
      have isLast : item ∈ items ++ [item] := mem_append_right _ mem_cons_self
      have collects := ih (fun other isOther => found other (isEarlier isOther))
        fun other isOther => linkable other (isEarlier isOther)
      have amends := amends_linkAll sound fun other isOther => linkable other (isEarlier isOther)
      rcases links_linkLibraryType ((linkable item isLast).amend amends) item.1 with
        ⟨superclass, interfaces, annotations, members, links⟩
      have extended := amends.extended
      rw [linkAll_concat, map_append, map_singleton]
      exact collects.link amends.sound.canonical
        (Nat.lt_of_lt_of_le declared.inTable extended.size_le)
        (extended.find? (.type name) binding foundName)
        (extended.find? (.type item.1.name) item.2 (found item isLast)) links

/-- A table has the types of a class path and no others, of the kind of the first description of
each and with the supertypes of all of them. -/
structure CollectedFrom (table : Table) (path : ClassPath) : Prop extends
    LoadedFrom table path where
  collects : ∀ name binding, table.lookupType name = some binding →
    ∃ first, path.get? name = some first ∧ table.Collects first path.types name binding

theorem collectedFrom_load (path : ClassPath) : (load {} path).CollectedFrom path where
  toLoadedFrom := loadedFrom_load path
  collects := by
    intro name binding found
    have sound := (registers_declareLibraryTypes .empty path.types).1.sound
    rw [lookupType, (amends_load path).types] at found
    rcases declared_of_lookupType path found with ⟨first, isFirst, declared⟩
    have collects := collects_linkAll sound
      (fun item (isItem : item ∈ declaredItems path) => lookupType_of_declaredItems isItem)
      (fun item isItem => linkable_of_declaredItems isItem) found declared
    rw [map_fst_declaredItems, ← load_eq] at collects
    exact ⟨first, isFirst, collects⟩

/-! ## Default superclasses -/

theorem bare_defaultBase (isBase : base ∈ defaultBases) : Bare base := by
  have noDimensions : ∀ base ∈ defaultBases, (splitDimensions base).2 = 0 := by decide
  rintro inner rfl
  have isZero := noDimensions _ isBase
  rw [splitDimensions_append] at isZero
  cases isZero

theorem not_isPrimitiveName_defaultBase (isBase : base ∈ defaultBases) :
    ¬ isPrimitiveName base := by
  have notPrimitive : ∀ base ∈ defaultBases, ¬ isPrimitiveName base := by decide
  exact notPrimitive base isBase

namespace Collects

variable (collects : table.Collects first types name binding)

include collects

theorem typeKind : (table.entry binding).typeKind = some first.kind.typeKind := by
  rcases collects.entry with ⟨package, entry⟩
  rw [entry]
  rfl

theorem recovered : (table.entry binding).recovered = false := by
  rcases collects.entry with ⟨package, entry⟩
  rw [entry]
  rfl

theorem name_eq : (table.entry binding).name = Text.simpleName first.name := by
  rcases collects.entry with ⟨package, entry⟩
  rw [entry]
  rfl

theorem isKnown : table.isKnown binding := by
  have isKind : table.facadeKind? binding = some first.kind.typeKind := by
    rw [facadeKind?_eq_some_iff]
    refine ⟨collects.typeKind, ?_, collects.recovered⟩
    cases first.kind <;> simp [LibraryKind.typeKind]
  simp [Table.isKnown, isKind]

theorem linearSuperclass?_eq : table.linearSuperclass? binding =
    if first.kind.hasSuperclass then (table.entry binding).superclass else none := by
  rw [linearSuperclass?, collects.typeKind]
  cases first.kind <;> rfl

end Collects

namespace CollectedFrom

variable (collected : table.CollectedFrom path)

include collected

/-- What a default base denotes is known just where the base is described. -/
theorem known_iff {denoted : BindingId} (isBase : base ∈ defaultBases)
    (denotes : table.Denotes base denoted) :
    denoted = upper ∧ table.isKnown upper ↔ table.lookupType base = some upper := by
  have found := (Denotes.bare_iff (bare_defaultBase isBase)).1 denotes
  rw [namedKey, if_neg (not_isPrimitiveName_defaultBase isBase)] at found
  split at found
  case isTrue absent =>
    have placeholder := collected.sound.entry_eq found rfl
    rw [absent]
    simp only [reduceCtorEq, iff_false]
    rintro ⟨rfl, known⟩
    simp [isKnown, facadeKind?, placeholder] at known
  case isFalse =>
    have isFound : table.lookupType base = some denoted := found
    rcases collected.collects base denoted isFound with ⟨first, -, collects⟩
    rw [isFound, Option.some.injEq, and_iff_left_iff_imp]
    rintro rfl
    exact collects.isKnown

/-- What is above the types of a table are the steps up between their names. -/
theorem above_iff (byDefault : path.LinksByDefault) {lower : String}
    (found : table.lookupType lower = some binding) :
    table.Above binding upper ↔
      ∃ name, path.StepsUp lower name ∧ table.lookupType name = some upper := by
  rcases collected.collects lower binding found with ⟨first, isFirst, collects⟩
  have noInterfaces : (table.entry binding).interfaces = [] := by
    have interfaces := collects.interfaces
    rw [byDefault.interfacesNamed_eq_nil] at interfaces
    exact forall₂_nil_left_iff.1 interfaces
  have superclass := collects.superclass
  rw [Table.above_iff, collects.recovered, collects.linearSuperclass?_eq, noInterfaces]
  simp only [ClassPath.StepsUp, ClassPath.above?, isFirst, Option.bind_some]
  cases first.kind.hasSuperclass with
  | false => simp
  | true =>
      cases isNamed : superclassNamed? path.types lower <;>
        cases isLinked : (table.entry binding).superclass <;>
          rw [isNamed, isLinked] at superclass
      case none.none => simp
      case none.some => cases superclass
      case some.none => cases superclass
      case some.some base denoted =>
        cases superclass with
        | some denotes =>
            have isBase := byDefault.mem_defaultBases isNamed
            simpa using collected.known_iff isBase denotes

/-! ## Circles -/

variable (byDefault : path.LinksByDefault)

include byDefault

theorem steps_of_reached {lower cyclic : BindingId} (found : table.lookupType name = some lower)
    (reached : ReflTransGen table.Above lower cyclic) :
    ∃ upper, table.lookupType upper = some cyclic ∧ ReflTransGen path.StepsUp name upper := by
  induction reached with
  | refl => exact ⟨name, found, .refl⟩
  | tail _ above ih =>
      rcases ih with ⟨middle, isMiddle, steps⟩
      rcases (collected.above_iff byDefault isMiddle).1 above with ⟨upper, step, isUpper⟩
      exact ⟨upper, isUpper, steps.tail step⟩

theorem reached_of_steps {base : String} {cyclic : BindingId}
    (isBase : table.lookupType base = some cyclic) (steps : ReflTransGen path.StepsUp name base) :
    ∃ lower, table.lookupType name = some lower ∧ ReflTransGen table.Above lower cyclic := by
  induction steps using ReflTransGen.head_induction_on with
  | refl => exact ⟨cyclic, isBase, .refl⟩
  | @head lower upper step _ ih =>
      rcases ih with ⟨reached, isUpper, above⟩
      cases found : table.lookupType lower with
      | none => exact absurd step.described ((collected.undeclared lower).1 found)
      | some first =>
          have isAbove := (collected.above_iff byDefault found).2 ⟨upper, step, isUpper⟩
          exact ⟨first, rfl, .head isAbove above⟩

theorem returns_iff {base : String} {cyclic : BindingId}
    (isBase : table.lookupType base = some cyclic) :
    TransGen table.Above cyclic cyclic ↔ TransGen path.StepsUp base base := by
  rw [TransGen.head'_iff, TransGen.head'_iff]
  constructor
  · rintro ⟨upper, above, back⟩
    rcases (collected.above_iff byDefault isBase).1 above with ⟨next, step, isNext⟩
    rcases collected.steps_of_reached byDefault isNext back with ⟨last, isLast, steps⟩
    have sameKey := collected.sound.canonical.apart (.type last) (.type base) cyclic isLast isBase
    exact ⟨next, step, Key.type.inj sameKey ▸ steps⟩
  · rintro ⟨next, step, steps⟩
    rcases collected.reached_of_steps byDefault isBase steps with ⟨upper, isUpper, back⟩
    exact ⟨upper, (collected.above_iff byDefault isBase).2 ⟨next, step, isUpper⟩, back⟩

theorem exists_circleAbove {cyclic : BindingId} (found : table.lookupType name = some binding)
    (reached : ReflTransGen table.Above binding cyclic)
    (returns : TransGen table.Above cyclic cyclic) :
    ∃ base, table.lookupType base = some cyclic ∧ path.CircleAbove name base := by
  rcases collected.steps_of_reached byDefault found reached with ⟨base, isBase, above⟩
  have circle := (collected.returns_iff byDefault isBase).1 returns
  rcases TransGen.tail'_iff.1 circle with ⟨_, -, last⟩
  exact ⟨base, isBase, byDefault.mem_defaultBases last.superclassNamed, above, circle⟩

theorem exists_cycle (found : table.lookupType name = some binding)
    (circle : path.CircleAbove name base) :
    ∃ cyclic, ReflTransGen table.Above binding cyclic ∧ TransGen table.Above cyclic cyclic := by
  rcases TransGen.head'_iff.1 circle.returns with ⟨_, step, -⟩
  cases isBase : table.lookupType base with
  | none => exact absurd step.described ((collected.undeclared base).1 isBase)
  | some cyclic =>
      rcases collected.reached_of_steps byDefault isBase circle.above with ⟨lower, isLower, path⟩
      obtain rfl := Option.some.inj (isLower.symm.trans found)
      exact ⟨cyclic, path, (collected.returns_iff byDefault isBase).2 circle.returns⟩

end CollectedFrom

end Table

namespace Query

open Table

variable {table : Table} {path : ClassPath} {name : String} {binding : BindingId}

/-- After any history of requests, a search for the supertypes of a binding ends on its own; what it
reports are the circles that are above the name of the binding in a class path. -/
structure ReportsCircles (table : Table) (path : ClassPath) (name : String) (binding : BindingId)
    (history : List Request) : Prop where
  ends : ∀ beyond depth, table.size < depth →
    (symbolOf table binding >>= superTypesWithin table beyond depth)
        (Request.cacheAfter table history) =
      superTypesAfter table history binding
  faultless : (superTypesAfter table history binding).2.fault = none ↔
    (Request.cacheAfter table history).fault = none ∧ ∀ base, ¬ path.CircleAbove name base
  reported : (Request.cacheAfter table history).fault = none →
    ∀ fault, (superTypesAfter table history binding).2.fault = some fault →
      ∃ base cyclic, path.CircleAbove name base ∧ table.resolveType base = some cyclic ∧
        fault = .supertypeCycle cyclic (Text.simpleName base)

theorem reportsCircles (collected : table.CollectedFrom path) (byDefault : path.LinksByDefault)
    (found : table.lookupType name = some binding) (history : List Request) :
    ReportsCircles table path name binding history := by
  have arraysEnd := collected.built.wellLinked.arraysEnd
  constructor
  case ends =>
    exact fun beyond depth enough => superTypesWithin_cacheAfter arraysEnd history enough beyond
  case faultless =>
    rw [faultless_iff arraysEnd, and_congr_right_iff]
    intro _
    constructor
    · intro noCycle base circle
      rcases collected.exists_cycle byDefault found circle with ⟨cyclic, reached, returns⟩
      exact noCycle cyclic reached returns
    · intro noCircle cyclic reached returns
      rcases collected.exists_circleAbove byDefault found reached returns with ⟨base, -, circle⟩
      exact noCircle base circle
  case reported =>
    intro noFault fault isFault
    rcases cycleAbove_of_newFault arraysEnd history noFault isFault with
      ⟨cyclic, rfl, reached, returns⟩
    rcases collected.exists_circleAbove byDefault found reached returns with
      ⟨base, isBase, circle⟩
    rcases collected.collects base cyclic isBase with ⟨first, isFirst, collects⟩
    obtain rfl := (ClassPath.described_of_get? isFirst).2
    exact ⟨first.name, cyclic, circle, (collected.resolveType_eq first.name).trans isBase,
      by rw [collects.name_eq]⟩

/-- Where no type of a class path names a superclass or an interface, the supertypes of a described
type are found without a fault if no default base above the type is above itself, and otherwise such
a base is reported. -/
theorem reportsCircles_load (byDefault : path.LinksByDefault) (described : name ∈ path.names) :
    ∃ binding, (load {} path).resolveType name = some binding ∧
      ∀ history, ReportsCircles (load {} path) path name binding history := by
  have collected := collectedFrom_load path
  cases found : (load {} path).lookupType name with
  | none => exact absurd described ((collected.undeclared name).1 found)
  | some binding =>
      exact ⟨binding, (collected.resolveType_eq name).trans found,
        reportsCircles collected byDefault found⟩

/-- Enums whose common base is a class below a root that is an enum, and a record whose base is not
described. -/
def moorings : ClassPath where
  types :=
    [ { name := "sea.Mooring", kind := .enum },
      { name := rootTypeName, kind := .enum },
      { name := "sea.Log", kind := .record },
      { name := enumBaseName } ]

theorem reportsCircles_moorings : moorings.LinksByDefault ∧
    (∃ binding, (load {} moorings).resolveType "sea.Mooring" = some binding ∧
      (superTypesAfter (load {} moorings) [] binding).2.fault ≠ none) ∧
    ∃ binding, (load {} moorings).resolveType "sea.Log" = some binding ∧
      (superTypesAfter (load {} moorings) [] binding).2.fault = none := by
  have byDefault : moorings.LinksByDefault := by simp [ClassPath.LinksByDefault, moorings]
  rcases reportsCircles_load byDefault (by decide : "sea.Mooring" ∈ moorings.names) with
    ⟨mooring, isMooring, reported⟩
  rcases reportsCircles_load byDefault (by decide : "sea.Log" ∈ moorings.names) with
    ⟨log, isLog, faultless⟩
  have toBase : moorings.StepsUp "sea.Mooring" enumBaseName := by decide
  have toRoot : moorings.StepsUp enumBaseName rootTypeName := by decide
  have back : moorings.StepsUp rootTypeName enumBaseName := by decide
  have circle : moorings.CircleAbove "sea.Mooring" enumBaseName :=
    ⟨by decide, .single toBase, .tail (.single toRoot) back⟩
  have ends : endsWithin (fun name => (moorings.above? name).toList) 2 "sea.Log" := by decide
  have grounded : Grounded moorings.StepsUp "sea.Log" :=
    .of_endsWithin (fun _ _ step => Option.mem_toList.2 step) ends
  refine ⟨byDefault, ⟨mooring, isMooring, fun noFault => ?_⟩, log, isLog, ?_⟩
  · exact ((reported []).faultless.1 noFault).2 enumBaseName circle
  · rw [(faultless []).faultless]
    exact ⟨rfl, fun base circle => (grounded.reached circle.above).noCycle circle.returns⟩

/-- The base of all enums, itself an enum. -/
def baseEnum : ClassPath where
  types := [{ name := enumBaseName, kind := .enum }]

theorem baseEnum_aboveItself : baseEnum.LinksByDefault ∧
    (load {} baseEnum).resolveType enumBaseName = some ⟨1⟩ ∧
    (superTypesAfter (load {} baseEnum) [] ⟨1⟩).2.fault = some (.supertypeCycle ⟨1⟩ "Enum") := by
  refine ⟨by simp [ClassPath.LinksByDefault, baseEnum], ?_, ?_⟩ <;> decide +kernel

end Query

end JavaInspect
