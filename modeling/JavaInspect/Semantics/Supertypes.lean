import JavaInspect.Semantics.Facade

/-!
# Supertypes

The supertypes of a type are listed in one order: the superclass with all that
is above it, then each interface with all that is above it, every type once,
and the root of the reference types last. The list of a symbol is computed
once; a symbol that is met again while its own list is being computed is its
own supertype, which is a fault.
-/

namespace JavaInspect

/-- An ordered collection of supertypes that holds the root back. -/
structure Linearization where
  types : List TypeId := []
  root : Option TypeId := none
deriving DecidableEq, Repr, Inhabited

namespace Linearization

/-- Add a type: the unknown type is left out, the root is held back, and a type
that is already there keeps its place. -/
def add (cache : Cache) (line : Linearization) (type : TypeId) : Linearization :=
  if type.isUnknown then line
  else if (cache.type type).qualifiedName = rootTypeName then { line with root := some type }
  else if line.types.contains type then line
  else { line with types := line.types ++ [type] }

/-- Add several types in order. -/
def addAll (cache : Cache) (line : Linearization) (types : List TypeId) : Linearization :=
  types.foldl (add cache) line

/-- The types in order, the root last. -/
def finish (line : Linearization) : List TypeId :=
  line.types ++ line.root.toList

end Linearization

namespace Table

/-- The superclass that the supertypes of a type begin with; only classes,
enums and records have one. -/
def linearSuperclass? (table : Table) (binding : BindingId) : Option BindingId :=
  let entry := table.entry binding
  match entry.typeKind with
  | some .class | some .enum | some .record => entry.superclass
  | _ => none

/-- The shape of the type a binding stands for. -/
def kindOf (table : Table) (binding : BindingId) : TypeKind :=
  (table.entry binding).typeKind.getD .unknown

end Table

namespace Query

variable (table : Table)

/-- Add a supertype and all that is above it. -/
def addWithAncestors (ancestorsOf : SymbolId → Query (List TypeId)) (line : Linearization)
    (binding : BindingId) : Query Linearization := do
  let type ← typeOf table binding
  if type.isUnknown then return line
  let symbol ← symbolOf table binding
  let ancestors ← ancestorsOf symbol
  return line.addAll (← get) (type :: ancestors)

/-- Begin with the superclass of a class and all that is above it, or with the root
above an array. -/
def addSuperclass (ancestorsOf : SymbolId → Query (List TypeId)) (binding : BindingId) :
    Query Linearization := do
  match table.linearSuperclass? binding with
  | some superclass => addWithAncestors table ancestorsOf {} superclass
  | none =>
      if table.kindOf binding == .array then
        let root ← rootType table
        return Linearization.add (← get) {} root
      else return {}

/-- Collect the supertypes of a symbol, given those of the types above it. -/
def linearize (ancestorsOf : SymbolId → Query (List TypeId)) (facade : SymbolFacade) :
    Query (List TypeId) := do
  if facade.recovered then return []
  let line ← addSuperclass table ancestorsOf facade.binding
  let line ← (table.entry facade.binding).interfaces.foldlM (addWithAncestors table ancestorsOf) line
  return line.finish

/-- Visit a symbol in search of its supertypes, given the search above it. A symbol
that is visited while its own supertypes are being searched is on a cycle. -/
def visitSuperTypes (ancestorsOf : SymbolId → Query (List TypeId)) (symbol : SymbolId) :
    Query (List TypeId) := do
  let facade ← readSymbol symbol
  match facade.superTypes with
  | some types =>
      noteHit
      return types
  | none =>
      if facade.linearizing then
        recordFault (.supertypeCycle facade.binding facade.name)
        return []
      else
        modifySymbol symbol fun facade => { facade with linearizing := true }
        let types ← linearize table ancestorsOf facade
        modifySymbol symbol fun facade =>
          { facade with linearizing := false, superTypes := some types }
        return types

/-- The search for supertypes down to a depth; `beyond` answers below it. -/
def superTypesWithin (beyond : SymbolId → Query (List TypeId)) : Nat → SymbolId →
    Query (List TypeId)
  | 0 => beyond
  | depth + 1 => visitSuperTypes table (superTypesWithin beyond depth)

/-- The supertypes of a symbol. Every level of the search marks another symbol, so
the level below the last binding is never reached. -/
def superTypes (symbol : SymbolId) : Query (List TypeId) :=
  superTypesWithin table (fun _ => return []) (table.size + 2) symbol

/-- The superclass of a type symbol: none for the root, the root for interfaces
and arrays, unknown for what is unresolved. -/
def superClass (symbol : SymbolId) : Query (Option TypeId) := do
  let facade ← readSymbol symbol
  if facade.recovered then return some .unknown
  match table.kindOf facade.binding with
  | .interface | .annotationType | .array => some <$> rootType table
  | .class | .enum | .record =>
      match (table.entry facade.binding).superclass with
      | some binding => some <$> typeOf table binding
      | none => pure none
  | .primitive | .typeVariable | .unknown => pure (some .unknown)

/-- The directly declared interfaces of a type symbol in declaration order. -/
def interfaces : SymbolId → Query (List TypeId) :=
  memoized (·.interfaces) (fun types facade => { facade with interfaces := some types })
    fun facade =>
      if facade.recovered then pure []
      else typesOf table (table.entry facade.binding).interfaces

/-- The directly declared members of a type symbol, each once. -/
def memberSymbols : SymbolId → Query (List SymbolId) :=
  memoized (·.members) (fun members facade => { facade with members := some members })
    fun facade =>
      if facade.recovered then pure []
      else List.eraseDups <$> (table.entry facade.binding).members.mapM (symbolOf table)

/-- The direct members of the given simple name. -/
def lookupMember (symbol : SymbolId) (name : String) : Query (List SymbolId) := do
  let members ← memberSymbols table symbol
  let cache ← get
  return members.filter fun member => (cache.symbol member).name == name

end Query

end JavaInspect
