import JavaInspect.Semantics.Metadata

/-!
# Facades in diagnostics

The short texts by which types, symbols and the cache itself are shown.
-/

namespace JavaInspect

namespace BindingKind

/-- The capitalised name of a binding kind. -/
def title : BindingKind → String
  | .package => "Package"
  | .type => "Type"
  | .method => "Method"
  | .variable => "Variable"

end BindingKind

namespace Cache

/-- A list in square brackets. -/
def bracketed (texts : List String) : String :=
  "[" ++ Text.joinWith ", " texts ++ "]"

/-- A type in diagnostics. -/
def describeType (cache : Cache) (type : TypeId) : String :=
  s!"Type({(cache.type type).qualifiedName})"

/-- A symbol in diagnostics. -/
def describeSymbol (cache : Cache) (symbol : SymbolId) : String :=
  let facade := cache.symbol symbol
  s!"Symbol({facade.kind.title} {facade.name})"

/-- A type symbol in diagnostics. -/
def describeTypeSymbol (cache : Cache) (symbol : SymbolId) : String :=
  s!"TypeSymbol({(cache.symbol symbol).name})"

/-- A list of types in diagnostics. -/
def describeTypes (cache : Cache) (types : List TypeId) : String :=
  bracketed (types.map cache.describeType)

/-- Annotations in diagnostics. -/
def describeMetadata (cache : Cache) (annotations : List AnnotationUse) : String :=
  bracketed (annotations.map (·.describe cache))

/-- The cache in diagnostics: how many facades it holds, and its counters. -/
def describe (cache : Cache) : String :=
  s!"SemanticContext \x7b types: {cache.types.size}, symbols: {cache.symbols.size}, " ++
    s!"stats: CacheStats \x7b hits: {cache.hits}, misses: {cache.misses} \x7d \x7d"

end Cache

end JavaInspect
