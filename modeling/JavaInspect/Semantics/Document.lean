import JavaInspect.Document.Value
import JavaInspect.Semantics.Metadata
import JavaInspect.Semantics.Supertypes

/-!
# Facades in documents

Types, symbols and annotations as values: in short by index, kind and name, or as
records of everything a facade shows.
-/

namespace JavaInspect

open Document

namespace Cache

variable (cache : Cache)

/-- A type in short. -/
def typeValue (type : TypeId) : Value :=
  let facade := cache.type type
  .sequence [.ofNat type.index, .string facade.kind.label, .string facade.qualifiedName]

/-- A symbol in short. -/
def symbolValue (symbol : SymbolId) : Value :=
  let facade := cache.symbol symbol
  .sequence [.ofNat symbol.index, .string facade.kind.label, .string facade.name]

/-- A type that was asked for by a binding, with its declaration. -/
def typeRecord (binding : BindingId) (symbol : Option SymbolId) (type : TypeId) : Value :=
  let facade := cache.type type
  let kind := facade.kind
  .ofFields
    [("type", cache.typeValue type), ("name", .string facade.name),
      ("unknown", .boolean type.isUnknown), ("class", .boolean kind.isClassLike),
      ("interface", .boolean kind.isInterfaceLike), ("array", .boolean (kind == .array)),
      ("primitive", .boolean (kind == .primitive)),
      ("root", .boolean (cache.isNamed type rootTypeName)),
      ("has_binding", .boolean (facade.binding == some binding)),
      ("element", .ofOption cache.typeValue facade.element),
      ("symbol", .ofOption cache.symbolValue symbol),
      ("display", .string facade.qualifiedName)]

/-- The kinds of bindings in the order in which a symbol is asked for them. -/
def bindingKinds : List BindingKind := [.package, .type, .method, .variable]

/-- A symbol that was asked for by a binding. -/
def symbolRecord (table : Table) (binding : BindingId) (symbol : SymbolId) : Value :=
  let facade := cache.symbol symbol
  let entry := table.entry facade.binding
  let isMethod := facade.kind == .method
  .ofFields
    [("symbol", cache.symbolValue symbol), ("unknown", .boolean facade.recovered),
      ("varargs", .boolean (isMethod && entry.varargs)),
      ("ctor", .boolean (isMethod && entry.isConstructor)),
      ("same_binding", .boolean (facade.binding == binding)),
      ("is", .ofList (fun kind => .boolean (facade.kind == kind)) bindingKinds)]

/-- A type symbol that was asked for by a binding. -/
def typeSymbolRecord (table : Table) (binding : BindingId) (symbol : SymbolId) : Value :=
  let facade := cache.symbol symbol
  let kind := table.kindOf facade.binding
  let known (holds : Bool) : Value := .boolean (!facade.recovered && holds)
  .ofFields
    [("kind", .string kind.label), ("unknown", .boolean facade.recovered),
      ("name", .string facade.name), ("annotation", known (kind == .annotationType)),
      ("interface", known kind.isInterfaceLike), ("enum", known (kind == .enum)),
      ("id", .ofNat symbol.index), ("same_binding", .boolean (facade.binding == binding))]

/-- One annotation: whether it is resolved, and its name. -/
def annotationValue (mark : AnnotationUse) : Value :=
  .sequence [.boolean mark.isResolved, .string (mark.name cache)]

/-- The annotations of a symbol. -/
def metadataRecord (annotations : List AnnotationUse) : Value :=
  .ofFields
    [("len", .ofNat annotations.length), ("empty", .boolean annotations.isEmpty),
      ("annotations", .ofList cache.annotationValue annotations),
      ("unresolved", .ofList .string (Metadata.unresolvedNames annotations))]

end Cache

end JavaInspect
