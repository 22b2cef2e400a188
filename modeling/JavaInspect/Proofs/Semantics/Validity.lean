import JavaInspect.Proofs.Hierarchy.Lineage
import JavaInspect.Semantics.Symbol
import Mathlib.Data.List.Forall2
import Mathlib.Data.Option.Defs

/-!
# Valid caches

A cache is valid for a table when every facade shows what the table says about its
binding, every binding has at most one facade, and every remembered fact is the one
that the table determines. What is remembered about the supertypes of a binding counts
only where no cycle can be reached.

While a cache grows, facades keep their binding. So the facts that compare a facade with
a binding, once true, stay true.
-/

namespace JavaInspect

open Relation

/-! ## What the table determines -/

namespace Table

variable (table : Table)

/-- The binding that a type facade shows; none for the unknown type. -/
def known? (binding : BindingId) : Option BindingId :=
  if table.isKnown binding then some binding else none

/-- The types of the interfaces that a type declares. -/
def interfaceTypes (binding : BindingId) : List (Option BindingId) :=
  if (table.entry binding).recovered then []
  else (table.entry binding).interfaces.map table.known?

/-- The members that a type declares, each once. -/
def distinctMembers (binding : BindingId) : List BindingId :=
  if (table.entry binding).recovered then [] else (table.entry binding).members.eraseDups

/-- The annotations of a declaration; none of a recovered one. -/
def annotationTypes (binding : BindingId) : List BindingId :=
  if (table.entry binding).recovered then [] else (table.entry binding).annotations

/-- The last type among declarations that follow each other outwards up to a package. -/
def outermostAmong (found : Option BindingId) : List BindingId → Option BindingId
  | [] => found
  | binding :: rest =>
      match (table.entry binding).kind with
      | .package => found
      | .type => outermostAmong (some binding) rest
      | .method | .variable => outermostAmong found rest

/-- The outermost type around a declaration below its package. -/
def outermost (binding : BindingId) : Option BindingId :=
  table.outermostAmong none (binding :: table.owners binding)

/-- The second declaration is the one around the first. -/
abbrev Owns : BindingId → BindingId → Prop :=
  Links fun declared => (table.entry declared).owner

end Table

/-! ## Facades and what they show -/

namespace Cache

section Definitions

variable (cache : Cache)

/-- A type facade shows a binding, or is the unknown type. -/
def ShowsType (type : TypeId) (shown : Option BindingId) : Prop :=
  type.index < cache.types.size ∧ (cache.type type).binding = shown

/-- Type facades show bindings one by one. -/
def ShowsTypes (types : List TypeId) (shown : List (Option BindingId)) : Prop :=
  List.Forall₂ cache.ShowsType types shown

/-- A symbol facade shows a binding. -/
def ShowsSymbol (symbol : SymbolId) (shown : BindingId) : Prop :=
  symbol.index < cache.symbols.size ∧ (cache.symbol symbol).binding = shown

/-- Symbol facades show bindings one by one. -/
def ShowsSymbols (symbols : List SymbolId) (shown : List BindingId) : Prop :=
  List.Forall₂ cache.ShowsSymbol symbols shown

/-- An annotation shows its known type, or else the name of the type it stands for. -/
def ShowsAnnotation (table : Table) : AnnotationUse → BindingId → Prop
  | .resolved type, shown => table.isKnown shown ∧ cache.ShowsType type (some shown)
  | .unresolved token, shown => ¬ table.isKnown shown ∧ token = (table.entry shown).qualifiedName

/-- The symbol facade of a binding has a property. -/
def Marked (mark : SymbolFacade → Prop) (shown : BindingId) : Prop :=
  ∃ symbol, cache.ShowsSymbol symbol shown ∧ mark (cache.symbol symbol)

/-- The supertypes of a binding are being computed. -/
def Open : BindingId → Prop :=
  cache.Marked fun facade => facade.linearizing = true

/-- The supertypes of a binding are remembered. -/
def Finished : BindingId → Prop :=
  cache.Marked fun facade => facade.superTypes.isSome

/-- A type facade shows what the table says about a binding. -/
structure DescribesType (table : Table) (shown : BindingId) (facade : TypeFacade) : Prop where
  binding : facade.binding = some shown
  name : facade.name = (table.entry shown).name
  qualifiedName : facade.qualifiedName = (table.entry shown).qualifiedName
  kind : table.facadeKind? shown = some facade.kind
  element : Option.Rel (fun type component => cache.ShowsType type (table.known? component))
    facade.element (table.component? shown)

/-- A symbol facade shows what the table says about a binding, and remembers only what
the table determines. -/
structure DescribesSymbol (table : Table) (shown : BindingId) (facade : SymbolFacade) :
    Prop where
  binding : facade.binding = shown
  kind : facade.kind = (table.entry shown).kind
  name : facade.name = (table.entry shown).name
  recovered : facade.recovered = (table.entry shown).recovered
  superTypes : ∀ types, facade.superTypes = some types → Grounded table.Above shown →
    cache.ShowsTypes types ((table.lineage shown).map some)
  interfaces : ∀ types, facade.interfaces = some types →
    cache.ShowsTypes types (table.interfaceTypes shown)
  members : ∀ members, facade.members = some members →
    cache.ShowsSymbols members (table.distinctMembers shown)
  metadata : ∀ annotations, facade.metadata = some annotations →
    List.Forall₂ (cache.ShowsAnnotation table) annotations (table.annotationTypes shown)
  outermost : ∀ answer, facade.outermost = some answer →
    Option.Rel cache.ShowsSymbol answer (table.outermost shown)

/-- Every type facade shows what the table says, and no binding has two. -/
structure ValidTypes (table : Table) : Prop where
  unknown : 0 < cache.types.size ∧ cache.type .unknown = {}
  type : ∀ type, type.index < cache.types.size → type ≠ .unknown →
    ∃ binding, cache.DescribesType table binding (cache.type type) ∧
      cache.typeIndex.lookup binding = some type
  typeIndex : ∀ binding type, cache.typeIndex.lookup binding = some type →
    cache.ShowsType type (table.known? binding)

/-- Every symbol facade shows what the table says, and no binding has two. -/
structure ValidSymbols (table : Table) : Prop where
  symbol : ∀ symbol, symbol.index < cache.symbols.size →
    ∃ binding, cache.DescribesSymbol table binding (cache.symbol symbol) ∧
      cache.symbolIndex.lookup binding = some symbol
  symbolIndex : ∀ binding symbol, cache.symbolIndex.lookup binding = some symbol →
    cache.ShowsSymbol symbol binding

/-- All facades are valid. As long as no fault is known, no cycle is reached from what is
remembered. -/
structure Valid (table : Table) : Prop
    extends ValidTypes cache table, ValidSymbols cache table where
  reported : cache.fault = none → ∀ binding, cache.Finished binding →
    Grounded table.Above binding

/-- The facades of a cache are kept. -/
structure Keeps (before after : Cache) : Prop where
  type : ∀ type, type.index < before.types.size →
    type.index < after.types.size ∧ after.type type = before.type type
  symbol : ∀ symbol, symbol.index < before.symbols.size →
    symbol.index < after.symbols.size ∧
      (after.symbol symbol).binding = (before.symbol symbol).binding

/-- A cache grows: it keeps its facades, its fault and what is remembered about
supertypes; the same supertypes are being computed. New faults are to be blamed on
something. -/
structure Grows (blame : SemanticFault → Prop) (before after : Cache) : Prop
    extends Keeps before after where
  stillOpen : ∀ binding, after.Open binding ↔ before.Open binding
  finished : ∀ binding, before.Finished binding → after.Finished binding
  fault : ∀ fault, before.fault = some fault → after.fault = some fault
  blamed : ∀ fault, after.fault = some fault → before.fault = some fault ∨ blame fault

end Definitions

variable {table : Table} {cache before middle after : Cache} {blame : SemanticFault → Prop}
  {type : TypeId} {types : List TypeId} {symbol other : SymbolId} {symbols : List SymbolId}
  {shown : Option BindingId} {binding : BindingId} {facade : TypeFacade}

/-! ## Growth -/

/-- Related options are related by every weaker relation. -/
theorem optionRel_imp {Left Right : Type} {strong weak : Left → Right → Prop}
    (weaker : ∀ left right, strong left right → weak left right) {left : Option Left}
    {right : Option Right} (related : Option.Rel strong left right) :
    Option.Rel weak left right := by
  cases related with
  | some related => exact .some (weaker _ _ related)
  | none => exact .none

namespace Keeps

theorem refl : Keeps cache cache where
  type _ inside := ⟨inside, rfl⟩
  symbol _ inside := ⟨inside, rfl⟩

/-- A change that leaves all facades alone. -/
theorem of_same (types : after.types = before.types) (symbols : after.symbols = before.symbols) :
    Keeps before after where
  type type inside := by
    rw [Cache.type, Cache.type, types]
    exact ⟨inside, rfl⟩
  symbol symbol inside := by
    rw [Cache.symbol, Cache.symbol, symbols]
    exact ⟨inside, rfl⟩

theorem trans (first : Keeps before middle) (second : Keeps middle after) :
    Keeps before after where
  type type inside := by
    rcases first.type type inside with ⟨inMiddle, same⟩
    rcases second.type type inMiddle with ⟨inAfter, still⟩
    exact ⟨inAfter, still.trans same⟩
  symbol symbol inside := by
    rcases first.symbol symbol inside with ⟨inMiddle, same⟩
    rcases second.symbol symbol inMiddle with ⟨inAfter, still⟩
    exact ⟨inAfter, still.trans same⟩

theorem showsType (keeps : Keeps before after) (isShown : before.ShowsType type shown) :
    after.ShowsType type shown := by
  rcases keeps.type type isShown.1 with ⟨inAfter, same⟩
  exact ⟨inAfter, same ▸ isShown.2⟩

theorem showsTypes {shown : List (Option BindingId)} (keeps : Keeps before after)
    (isShown : before.ShowsTypes types shown) : after.ShowsTypes types shown :=
  isShown.imp fun _ _ => keeps.showsType

theorem showsSymbol (keeps : Keeps before after) (isShown : before.ShowsSymbol symbol binding) :
    after.ShowsSymbol symbol binding := by
  rcases keeps.symbol symbol isShown.1 with ⟨inAfter, same⟩
  exact ⟨inAfter, same.trans isShown.2⟩

theorem showsSymbols {shown : List BindingId} (keeps : Keeps before after)
    (isShown : before.ShowsSymbols symbols shown) : after.ShowsSymbols symbols shown :=
  isShown.imp fun _ _ => keeps.showsSymbol

theorem showsAnnotation {use : AnnotationUse} (keeps : Keeps before after)
    (isShown : before.ShowsAnnotation table use binding) :
    after.ShowsAnnotation table use binding := by
  cases use with
  | resolved type => exact ⟨isShown.1, keeps.showsType isShown.2⟩
  | unresolved token => exact isShown

theorem describesType (keeps : Keeps before after)
    (describes : before.DescribesType table binding facade) :
    after.DescribesType table binding facade where
  binding := describes.binding
  name := describes.name
  qualifiedName := describes.qualifiedName
  kind := describes.kind
  element := optionRel_imp (fun _ _ => keeps.showsType) describes.element

theorem describesSymbol {facade : SymbolFacade} (keeps : Keeps before after)
    (describes : before.DescribesSymbol table binding facade) :
    after.DescribesSymbol table binding facade where
  binding := describes.binding
  kind := describes.kind
  name := describes.name
  recovered := describes.recovered
  superTypes types remembered grounded :=
    keeps.showsTypes (describes.superTypes types remembered grounded)
  interfaces types remembered := keeps.showsTypes (describes.interfaces types remembered)
  members members remembered := keeps.showsSymbols (describes.members members remembered)
  metadata annotations remembered :=
    (describes.metadata annotations remembered).imp fun _ _ => keeps.showsAnnotation
  outermost answer remembered :=
    optionRel_imp (fun _ _ => keeps.showsSymbol) (describes.outermost answer remembered)

end Keeps

namespace Grows

theorem refl : Grows blame cache cache where
  toKeeps := .refl
  stillOpen _ := Iff.rfl
  finished _ finished := finished
  fault _ isFault := isFault
  blamed _ isFault := .inl isFault

theorem trans (first : Grows blame before middle) (second : Grows blame middle after) :
    Grows blame before after where
  toKeeps := first.toKeeps.trans second.toKeeps
  stillOpen binding := (second.stillOpen binding).trans (first.stillOpen binding)
  finished binding finished := second.finished binding (first.finished binding finished)
  fault fault isFault := second.fault fault (first.fault fault isFault)
  blamed fault isFault := by
    rcases second.blamed fault isFault with inMiddle | isBlamed
    · exact first.blamed fault inMiddle
    · exact .inr isBlamed

theorem imp {strong weak : SemanticFault → Prop} (weaker : ∀ fault, strong fault → weak fault)
    (grows : Grows strong before after) : Grows weak before after where
  toKeeps := grows.toKeeps
  stillOpen := grows.stillOpen
  finished := grows.finished
  fault := grows.fault
  blamed fault isFault := (grows.blamed fault isFault).imp_right (weaker fault)

end Grows

/-! ## Valid caches -/

namespace ValidTypes

/-- The facade that shows a known type describes it and is the indexed one. -/
theorem describesType_and_lookup (valid : cache.ValidTypes table)
    (isShown : cache.ShowsType type (some binding)) :
    cache.DescribesType table binding (cache.type type) ∧
      cache.typeIndex.lookup binding = some type := by
  have different : type ≠ .unknown := by
    intro same
    subst same
    have blank := isShown.2
    rw [valid.unknown.2] at blank
    cases blank
  rcases valid.type type isShown.1 different with ⟨other, describes, indexed⟩
  obtain rfl : other = binding := Option.some.inj (describes.binding.symm.trans isShown.2)
  exact ⟨describes, indexed⟩

theorem describesType (valid : cache.ValidTypes table)
    (isShown : cache.ShowsType type (some binding)) :
    cache.DescribesType table binding (cache.type type) :=
  (valid.describesType_and_lookup isShown).1

theorem lookup_typeIndex (valid : cache.ValidTypes table)
    (isShown : cache.ShowsType type (some binding)) :
    cache.typeIndex.lookup binding = some type :=
  (valid.describesType_and_lookup isShown).2

theorem eq_unknown_iff (valid : cache.ValidTypes table) (isShown : cache.ShowsType type shown) :
    type = .unknown ↔ shown = none := by
  constructor
  · intro same
    subst same
    rw [← isShown.2, valid.unknown.2]
  · intro same
    subst same
    by_contra different
    rcases valid.type type isShown.1 different with ⟨binding, describes, _⟩
    have absent := isShown.2
    rw [describes.binding] at absent
    cases absent

/-- No two type facades show the same. -/
theorem type_eq (valid : cache.ValidTypes table) {other : TypeId}
    (isShown : cache.ShowsType type shown)
    (otherShown : cache.ShowsType other shown) : type = other := by
  cases shown with
  | none =>
      rw [(valid.eq_unknown_iff isShown).2 rfl, (valid.eq_unknown_iff otherShown).2 rfl]
  | some binding =>
      have indexed := valid.lookup_typeIndex isShown
      rw [valid.lookup_typeIndex otherShown] at indexed
      exact (Option.some.inj indexed).symm

theorem biUnique_showsType (valid : cache.ValidTypes table) : Relator.BiUnique cache.ShowsType :=
  ⟨fun _ _ _ => valid.type_eq, fun _ _ _ isShown alsoShown => isShown.2.symm.trans alsoShown.2⟩

end ValidTypes

namespace Valid

/-- The cache of a new context. -/
theorem empty : Valid {} table where
  unknown := ⟨by decide, rfl⟩
  type type inside different := by
    have isFirst : type.index = 0 := by simpa using inside
    cases type
    exact absurd (congrArg TypeId.mk isFirst) different
  typeIndex _ _ found := by simp at found
  symbol _ inside := by simp at inside
  symbolIndex _ _ found := by simp at found
  reported _ binding finished := by
    rcases finished with ⟨symbol, isShown, _⟩
    simp [ShowsSymbol] at isShown

/-- The facade that shows a declaration describes it and is the indexed one. -/
theorem describesSymbol_and_lookup (valid : cache.Valid table)
    (isShown : cache.ShowsSymbol symbol binding) :
    cache.DescribesSymbol table binding (cache.symbol symbol) ∧
      cache.symbolIndex.lookup binding = some symbol := by
  rcases valid.symbol symbol isShown.1 with ⟨other, describes, indexed⟩
  obtain rfl : other = binding := describes.binding.symm.trans isShown.2
  exact ⟨describes, indexed⟩

theorem describesSymbol (valid : cache.Valid table) (isShown : cache.ShowsSymbol symbol binding) :
    cache.DescribesSymbol table binding (cache.symbol symbol) :=
  (valid.describesSymbol_and_lookup isShown).1

theorem lookup_symbolIndex (valid : cache.Valid table)
    (isShown : cache.ShowsSymbol symbol binding) :
    cache.symbolIndex.lookup binding = some symbol :=
  (valid.describesSymbol_and_lookup isShown).2

/-- No two symbol facades show the same. -/
theorem symbol_eq (valid : cache.Valid table) (isShown : cache.ShowsSymbol symbol binding)
    (otherShown : cache.ShowsSymbol other binding) : symbol = other := by
  have indexed := valid.lookup_symbolIndex isShown
  rw [valid.lookup_symbolIndex otherShown] at indexed
  exact (Option.some.inj indexed).symm

theorem biUnique_showsSymbol (valid : cache.Valid table) : Relator.BiUnique cache.ShowsSymbol :=
  ⟨fun _ _ _ => valid.symbol_eq, fun _ _ _ isShown alsoShown => isShown.2.symm.trans alsoShown.2⟩

theorem marked_iff {mark : SymbolFacade → Prop} (valid : cache.Valid table)
    (isShown : cache.ShowsSymbol symbol binding) :
    cache.Marked mark binding ↔ mark (cache.symbol symbol) := by
  constructor
  · intro found
    rcases found with ⟨other, otherShown, marked⟩
    rw [valid.symbol_eq isShown otherShown]
    exact marked
  · intro marked
    exact ⟨symbol, isShown, marked⟩

end Valid

/-- What a query makes of a valid cache. -/
structure Leads (table : Table) (blame : SemanticFault → Prop) (before after : Cache) : Prop
    extends Grows blame before after where
  valid : after.Valid table

namespace Leads

theorem refl (valid : cache.Valid table) : Leads table blame cache cache :=
  ⟨.refl, valid⟩

theorem trans (first : Leads table blame before middle) (second : Leads table blame middle after) :
    Leads table blame before after :=
  ⟨first.toGrows.trans second.toGrows, second.valid⟩

theorem imp {strong weak : SemanticFault → Prop} (weaker : ∀ fault, strong fault → weak fault)
    (leads : Leads table strong before after) : Leads table weak before after :=
  ⟨leads.toGrows.imp weaker, leads.valid⟩

end Leads

end Cache

end JavaInspect
