import JavaInspect.Binding.Chain
import JavaInspect.Semantics.Cache

/-!
# Facades of bindings

Every binding has one symbol facade. A binding that is a resolved type of known
kind has one type facade; all others share the unknown type.
-/

namespace JavaInspect

namespace Table

/-- The kind under which a binding gets a type facade of its own: that of a
resolved type, unless it is unknown. -/
def facadeKind? (table : Table) (binding : BindingId) : Option TypeKind :=
  let entry := table.entry binding
  match entry.typeKind with
  | some .unknown => none
  | some kind => if entry.recovered then none else some kind
  | none => none

/-- The component type of an array that gets a type facade. -/
def component? (table : Table) (binding : BindingId) : Option BindingId :=
  if table.facadeKind? binding = some .array then (table.entry binding).element else none

/-- The component types of an array from the outside in. -/
def components (table : Table) (binding : BindingId) : List BindingId :=
  table.chain table.component? binding

end Table

namespace Query

variable (table : Table)

/-- The type facade of a binding, given the component types inside it. The facade
of an array is made after that of its component type. -/
def typeAlong (binding : BindingId) (inside : List BindingId) : Query TypeId := do
  match (← get).typeIndex.lookup binding with
  | some type =>
      noteHit
      return type
  | none =>
      noteMiss
      match table.facadeKind? binding with
      | none =>
          modify (·.bindUnknown binding)
          return .unknown
      | some kind =>
          let entry := table.entry binding
          let element ←
            match inside with
            | component :: rest => some <$> typeAlong component rest
            | [] => pure none
          modifyGet (·.pushType binding
            { binding := some binding
              name := entry.name
              qualifiedName := entry.qualifiedName
              kind
              element })

/-- The type facade of a binding. -/
def typeOf (binding : BindingId) : Query TypeId :=
  typeAlong table binding (table.components binding)

/-- The symbol facade of a binding. -/
def symbolOf (binding : BindingId) : Query SymbolId := do
  match (← get).symbolIndex.lookup binding with
  | some symbol =>
      noteHit
      return symbol
  | none =>
      noteMiss
      let entry := table.entry binding
      modifyGet (·.pushSymbol binding
        { binding, kind := entry.kind, name := entry.name, recovered := entry.recovered })

/-- The type of the given qualified name, unknown when it cannot be
resolved. -/
def resolveType (name : String) : Query TypeId :=
  match table.resolveType name with
  | some binding => typeOf table binding
  | none => pure .unknown

/-- The root of the reference types. -/
def rootType : Query TypeId := resolveType table rootTypeName

/-- The type facades of several bindings, in order. -/
def typesOf (bindings : List BindingId) : Query (List TypeId) :=
  bindings.mapM (typeOf table)

end Query

end JavaInspect
