import JavaInspect.Semantics.Facade

/-!
# Symbols

What is asked about a declaration through its symbol facade: the declaration
around it, its type, its annotations, and the classes it is declared in.
-/

namespace JavaInspect

namespace Query

variable (table : Table)

/-- The declaration around a symbol. -/
def owner (symbol : SymbolId) : Query (Option SymbolId) := do
  let facade ← readSymbol symbol
  match (table.entry facade.binding).owner with
  | some binding => some <$> symbolOf table binding
  | none => pure none

/-- The type a type symbol stands for, the type of a variable, or the result
type of a method. -/
def declaredType (symbol : SymbolId) : Query TypeId := do
  let facade ← readSymbol symbol
  match facade.kind with
  | .type => typeOf table facade.binding
  | .method | .variable =>
      match (table.entry facade.binding).declaredType with
      | some binding => typeOf table binding
      | none => pure .unknown
  | .package => pure .unknown

/-- The result type of a method; unknown for anything else. -/
def returnType (symbol : SymbolId) : Query TypeId := do
  let facade ← readSymbol symbol
  if facade.kind == .method then declaredType table symbol else pure .unknown

/-- The parameter types of a method; none for anything else. -/
def parameterTypes (symbol : SymbolId) : Query (List TypeId) := do
  let facade ← readSymbol symbol
  if facade.kind == .method then typesOf table (table.entry facade.binding).parameters
  else pure []

/-- Whether a symbol is a method whose last parameter takes any number of
arguments. -/
def isVarargs (symbol : SymbolId) : Query Bool := do
  let facade ← readSymbol symbol
  return facade.kind == .method && (table.entry facade.binding).varargs

/-- Whether a symbol is a constructor. -/
def isConstructor (symbol : SymbolId) : Query Bool := do
  let facade ← readSymbol symbol
  return facade.kind == .method && (table.entry facade.binding).isConstructor

/-- One annotation of a declaration. -/
def annotationOf (binding : BindingId) : Query AnnotationUse := do
  let type ← typeOf table binding
  if type.isUnknown then return .unresolved (table.entry binding).qualifiedName
  else return .resolved type

/-- The annotations of a symbol in source order; none for a recovered one. -/
def metadata : SymbolId → Query (List AnnotationUse) :=
  memoized (·.metadata) (fun annotations facade => { facade with metadata := some annotations })
    fun facade =>
      if facade.recovered then pure []
      else (table.entry facade.binding).annotations.mapM (annotationOf table)

/-- Report that the owners of a symbol run in a circle. -/
def reportOwnerCycle (symbol : SymbolId) : Query Unit := do
  let facade ← readSymbol symbol
  recordFault (.ownerCycle facade.binding facade.name)

/-- A symbol on the way outwards is the answer when it is a type; otherwise the walk
goes on. Meeting a symbol again is a fault of the one that the walk started from. -/
def enclosingStep (start symbol : SymbolId) (seen : List SymbolId)
    (goOn : Query (Option SymbolId)) : Query (Option SymbolId) := do
  if seen.contains symbol then
    reportOwnerCycle start
    return none
  let facade ← readSymbol symbol
  if facade.kind == .type then return some symbol
  goOn

/-- The first type among a symbol and the owners that follow. -/
def enclosingAlong (start symbol : SymbolId) (seen : List SymbolId) :
    List BindingId → Query (Option SymbolId)
  | [] => enclosingStep start symbol seen (return none)
  | binding :: rest => enclosingStep start symbol seen do
      let next ← symbolOf table binding
      enclosingAlong start next (symbol :: seen) rest

/-- The nearest type around a symbol, itself included. -/
def enclosingClass (symbol : SymbolId) : Query (Option SymbolId) := do
  let facade ← readSymbol symbol
  enclosingAlong table symbol symbol [] (table.owners facade.binding)

/-- A package ends the way outwards, and a type on it replaces the one found before.
There is no answer when a symbol is met again. -/
def outermostStep (symbol : SymbolId) (seen : List SymbolId) (found : Option SymbolId)
    (goOn : Option SymbolId → Query (Option (Option SymbolId))) :
    Query (Option (Option SymbolId)) := do
  let facade ← readSymbol symbol
  if facade.kind == .package then return some found
  if seen.contains symbol then return none
  goOn (if facade.kind == .type then some symbol else found)

/-- The last type among a symbol and the owners that follow up to a package. -/
def outermostAlong (symbol : SymbolId) (seen : List SymbolId) (found : Option SymbolId) :
    List BindingId → Query (Option (Option SymbolId))
  | [] => outermostStep symbol seen found fun found => return some found
  | binding :: rest => outermostStep symbol seen found fun found => do
      let next ← symbolOf table binding
      outermostAlong next (symbol :: seen) found rest

/-- The outermost type around a symbol below its package, itself included. The
answer is remembered unless the owners run in a circle. -/
def outermostClass (symbol : SymbolId) : Query (Option SymbolId) := do
  let facade ← readSymbol symbol
  match facade.outermost with
  | some answer =>
      noteHit
      return answer
  | none =>
      match ← outermostAlong table symbol [] none (table.owners facade.binding) with
      | some answer =>
          modifySymbol symbol fun facade => { facade with outermost := some answer }
          return answer
      | none =>
          reportOwnerCycle symbol
          return none

end Query

end JavaInspect
