import JavaInspect.Semantics.Supertypes

/-!
# Subtypes

A reference type is a subtype of itself, of its supertypes and of the root. The
unknown type is related to nothing. There are two checks: against a qualified
name and against another type.
-/

namespace JavaInspect

namespace Cache

/-- Declared types and arrays. -/
def isReference (cache : Cache) (type : TypeId) : Bool :=
  match (cache.type type).kind with
  | .primitive | .typeVariable | .unknown => false
  | _ => true

end Cache

namespace Query

variable (table : Table)

/-- The declaration behind a declared type or an array. -/
def typeSymbol (type : TypeId) : Query (Option SymbolId) := do
  let facade := (← get).type type
  match facade.binding with
  | some binding =>
      if facade.kind.isDeclared || facade.kind == .array then some <$> symbolOf table binding
      else pure none
  | none => pure none

/-- The supertypes of a type; none for what has no declaration. -/
def superTypesOf (type : TypeId) : Query (List TypeId) := do
  match ← typeSymbol table type with
  | some symbol => superTypes table symbol
  | none => pure []

/-- Whether a type is, or is below, a type of the given qualified name. -/
def isSubtypeOf (type : TypeId) (name : String) : Query Bool := do
  if type.isUnknown then return false
  if (← get).isNamed type name then return true
  if !(← get).isReference type then return false
  if name == rootTypeName then return true
  let ancestors ← superTypesOf table type
  let cache ← get
  return ancestors.any (cache.isNamed · name)

/-- Whether a type is, or is below, another type. -/
def isSubtypeOfType (type other : TypeId) : Query Bool := do
  if type.isUnknown || other.isUnknown then return false
  if type == other then return true
  if !(← get).isReference type then return false
  if (← get).isNamed other rootTypeName then return true
  let ancestors ← superTypesOf table type
  return ancestors.contains other

end Query

end JavaInspect
