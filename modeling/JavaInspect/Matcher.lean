import JavaInspect.Semantics.Subtype
import JavaInspect.Semantics.Symbol
import JavaInspect.Tree.Basic

/-!
# Method matchers

A method matcher describes a group of methods or constructors by the types that
declare them, by their names and by their parameters. What is not known never
matches: neither an unresolved method, nor one of an unresolved type, nor a call
that is not bound to a method.
-/

namespace JavaInspect

/-- How the declaring type is compared with the named owners. -/
inductive OwnerMatch where
  /-- It is one of them. -/
  | strict
  /-- It is one of them or below one of them. -/
  | inherited
deriving DecidableEq, Repr, Inhabited

/-- What a matcher asks of the name. -/
inductive NameMatch where
  /-- Any method that is no constructor. -/
  | any
  /-- A method with one of the names. -/
  | oneOf (names : List String)
  /-- A constructor. -/
  | constructor
deriving DecidableEq, Repr, Inhabited

/-- What a matcher asks of the parameters. -/
inductive ParameterShape where
  | any
  /-- Exactly these declared types in order. -/
  | exact (types : List String)
  /-- Exactly these declared types in order, the last one taking any number of
  arguments. -/
  | variadic (types : List String)
deriving DecidableEq, Repr, Inhabited

/-- The name of a parameter type that stands for every known type. -/
def anyTypeName : String := "*"

/-- A description of methods. -/
structure MethodMatcher where
  /-- The names of the declaring types; none stand for any type. -/
  owners : List String := []
  ownerMatch : OwnerMatch := .strict
  name : NameMatch := .any
  parameters : ParameterShape := .any
deriving DecidableEq, Repr, Inhabited

namespace MethodMatcher

/-- Ask for methods that one of the types declares. -/
def ofTypes (matcher : MethodMatcher) (types : List String) : MethodMatcher :=
  { matcher with owners := types, ownerMatch := .strict }

/-- Ask for methods that one of the types, or a type below one, declares. -/
def ofSubtypes (matcher : MethodMatcher) (types : List String) : MethodMatcher :=
  { matcher with owners := types, ownerMatch := .inherited }

/-- Ask for methods with one of the names. -/
def named (matcher : MethodMatcher) (names : List String) : MethodMatcher :=
  { matcher with name := .oneOf names }

/-- Ask for methods of any name. -/
def withAnyName (matcher : MethodMatcher) : MethodMatcher :=
  { matcher with name := .any }

/-- Ask for constructors. -/
def asConstructor (matcher : MethodMatcher) : MethodMatcher :=
  { matcher with name := .constructor }

/-- Accept any parameters. -/
def withAnyParameters (matcher : MethodMatcher) : MethodMatcher :=
  { matcher with parameters := .any }

/-- Ask for the given declared parameter types. -/
def withParameters (matcher : MethodMatcher) (types : List String) : MethodMatcher :=
  { matcher with parameters := .exact types }

/-- Ask for no parameters. -/
def withoutParameters (matcher : MethodMatcher) : MethodMatcher :=
  matcher.withParameters []

/-- Ask for the given declared parameter types, the last one taking any number of
arguments. -/
def withVarargs (matcher : MethodMatcher) (types : List String) : MethodMatcher :=
  { matcher with parameters := .variadic types }

variable (table : Table) (matcher : MethodMatcher)

/-- Whether the declaring type is among those asked for. -/
def matchesOwner (owner : TypeId) : Query Bool := do
  if matcher.owners.isEmpty then return true
  match matcher.ownerMatch with
  | .strict =>
      let cache ← get
      return matcher.owners.any (cache.isNamed owner)
  | .inherited => matcher.owners.anyM (Query.isSubtypeOf table owner)

/-- Whether the name is the one asked for. -/
def matchesName (symbol : SymbolId) : Query Bool := do
  let isConstructor ← Query.isConstructor table symbol
  match matcher.name with
  | .constructor => return isConstructor
  | .any => return !isConstructor
  | .oneOf names =>
      let facade ← Query.readSymbol symbol
      return !isConstructor && names.contains facade.name

/-- Whether types have the given names one by one. -/
def typesMatch (cache : Cache) (names : List String) (types : List TypeId) : Bool :=
  names.length == types.length &&
    (names.zip types).all fun (name, type) =>
      if name = anyTypeName then !type.isUnknown else cache.isNamed type name

/-- Whether a method declares parameters of the given types. -/
def declaresParameters (names : List String) (symbol : SymbolId) : Query Bool := do
  let types ← Query.parameterTypes table symbol
  return typesMatch (← get) names types

/-- Whether the parameters are those asked for. -/
def matchesParameters (symbol : SymbolId) : Query Bool := do
  match matcher.parameters with
  | .any => return true
  | .exact names => declaresParameters table names symbol
  | .variadic names =>
      if ← Query.isVarargs table symbol then declaresParameters table names symbol
      else return false

/-- Whether a symbol is a method that the matcher describes. -/
def matchesSymbol (symbol : SymbolId) : Query Bool := do
  let facade ← Query.readSymbol symbol
  if facade.kind != .method || facade.recovered then return false
  let some owner ← Query.owner table symbol | return false
  let ownerFacade ← Query.readSymbol owner
  if ownerFacade.kind != .type then return false
  let type ← Query.typeOf table ownerFacade.binding
  if type.isUnknown then return false
  if !(← matcher.matchesOwner table type) then return false
  if !(← matcher.matchesName table symbol) then return false
  matcher.matchesParameters table symbol

/-- Whether a binding is a method that the matcher describes. -/
def matchesBinding (binding : Option BindingId) : Query Bool := do
  match binding with
  | some binding =>
      let symbol ← Query.symbolOf table binding
      matcher.matchesSymbol table symbol
  | none => return false

/-- The kinds of nodes that call a method or constructor. -/
def isInvocation : NodeKind → Bool
  | .methodInvocation | .newClass | .constructorCall => true
  | _ => false

/-- Whether a node calls a method that the matcher describes. -/
def matchesInvocation (tree : Tree) (node : NodeId) : Query Bool :=
  if isInvocation (tree.kind node) then matcher.matchesBinding table (tree.binding node)
  else pure false

/-- Whether a node declares a method that the matcher describes. -/
def matchesDeclaration (tree : Tree) (node : NodeId) : Query Bool :=
  if (tree.kind node).isMethodLike then matcher.matchesBinding table (tree.binding node)
  else pure false

/-- Whether a node declares or calls a method that the matcher describes. -/
def matchesNode (tree : Tree) (node : NodeId) : Query Bool :=
  if (tree.kind node).isMethodLike then matcher.matchesDeclaration table tree node
  else matcher.matchesInvocation table tree node

end MethodMatcher

/-- The union of several matchers. -/
structure MatcherSet where
  matchers : List MethodMatcher := []
deriving DecidableEq, Repr, Inhabited

namespace MatcherSet

/-- Whether there is no matcher. -/
def isEmpty (set : MatcherSet) : Bool := set.matchers.isEmpty

/-- Whether one of the matchers describes a symbol. -/
def matchesSymbol (table : Table) (set : MatcherSet) (symbol : SymbolId) : Query Bool :=
  set.matchers.anyM fun matcher => matcher.matchesSymbol table symbol

/-- Whether one of the matchers describes what a node declares or calls. -/
def matchesNode (table : Table) (set : MatcherSet) (tree : Tree) (node : NodeId) :
    Query Bool :=
  set.matchers.anyM fun matcher => matcher.matchesNode table tree node

end MatcherSet

end JavaInspect
