import JavaInspect.Java.Lowering.State
import JavaInspect.Library.Type

/-!
# Resolving type names

A simple name denotes, in this order: a local type, a type nested in one of the
classes around it, an imported type, a type of the same package, a type of the
implicit package, or a type imported on demand. A type parameter denotes the
root. A name that denotes nothing becomes a placeholder.
-/

namespace JavaInspect.Java

/-- The package whose types need no import. -/
def implicitPackage : String := "java.lang"

/-- The type of string literals. -/
def stringTypeName : String := "java.lang.String"

namespace Lowering

/-- Whether a name is a type parameter in scope. -/
def isTypeVariable (state : Lowering) (name : String) : Bool :=
  state.methodTypeParameters.flatten.contains name ||
    state.classes.any (·.typeParameters.contains name)

/-- The type of a simple name that is nested in one of the classes around. -/
def nestedType? (state : Lowering) (name : String) : Option BindingId :=
  state.classes.findSome? fun scope =>
    state.table.lookupType ((state.table.entry scope.binding).qualifiedName ++ "." ++ name)

/-- The type of a simple name that some package of a list declares. -/
def typeInPackages? (state : Lowering) (packages : List String) (name : String) :
    Option BindingId :=
  packages.findSome? fun package => state.table.lookupType (package ++ "." ++ name)

/-- The declared type of a simple name. -/
def lookupSimple (state : Lowering) (header : Header) (name : String) : Option BindingId :=
  match state.localTypes.lookup name with
  | some found => some found
  | none =>
      match state.nestedType? name with
      | some found => some found
      | none =>
          match header.imports.lookup name with
          | some path => state.table.lookupType path
          | none =>
              match state.table.lookupType (header.qualify name) with
              | some found => some found
              | none => state.typeInPackages? (implicitPackage :: header.wildcards) name

/-- The declared type of a dotted name: a qualified name, or a type nested in a
type with a simple name. -/
def lookupQualified (state : Lowering) (header : Header) (name : String) : Option BindingId :=
  match state.table.lookupType name with
  | some found => some found
  | none =>
      let first := name.toList.takeWhile (· != '.')
      let rest := name.toList.drop (first.length + 1)
      (state.lookupSimple header (String.ofList first)).bind fun outer =>
        state.table.lookupType
          ((state.table.entry outer).qualifiedName ++ "." ++ String.ofList rest)

end Lowering

namespace Lower

variable (source : Source)

/-- The type of a simple name. -/
def resolveSimple (name : String) : Lower BindingId := do
  let state ← get
  if state.isTypeVariable name then bind (·.typeReference rootTypeName)
  else
    match state.lookupSimple source.header name with
    | some found => return found
    | none => bind (·.unresolvedType ((source.header.imports.lookup name).getD name))

/-- The type of a dotted name. -/
def resolveQualified (name : String) : Lower BindingId := do
  match (← get).lookupQualified source.header name with
  | some found => return found
  | none => bind (·.unresolvedType name)

/-- The type of a name as written. -/
def resolveTypeName (written : String) : Lower BindingId :=
  let name := eraseArguments written
  if name.toList.contains '.' then resolveQualified source name else resolveSimple source name

/-- The array type with the given component type and number of dimensions. -/
def arrayOfDepth (element : BindingId) (depth : Nat) : Lower BindingId :=
  bind (·.arrayOfDepth element depth)

/-- The root of the reference types. -/
def rootReference : Lower BindingId := bind (·.typeReference rootTypeName)

/-- The type of a phrase, nested up to a depth. -/
def resolveTypeWithin : Nat → Phrase → Lower BindingId
  | 0, _ => rootReference
  | depth + 1, phrase =>
      match phrase.construct with
      | .integralType | .floatingPointType | .booleanType | .voidType =>
          bind (·.primitive (source.textOf phrase))
      | .arrayType => do
          let element ←
            match phrase.part? .element with
            | some element => resolveTypeWithin depth element
            | none => bind (·.unresolvedType (source.textOf phrase))
          let count :=
            match phrase.part? .dimensions with
            | some brackets => dimensionCount (source.textOf brackets)
            | none => 1
          arrayOfDepth element count
      | .genericType =>
          let isRaw (part : Phrase) : Bool :=
            part.construct == .typeIdentifier || part.construct == .scopedTypeIdentifier
          match phrase.namedParts.find? isRaw with
          | some raw => resolveTypeWithin depth raw
          | none => resolveTypeName source (source.textOf phrase)
      | .annotatedType =>
          match phrase.namedParts.reverse.find? (!·.construct.isAnnotationUse) with
          | some type => resolveTypeWithin depth type
          | none => rootReference
      | _ => resolveTypeName source (source.textOf phrase)

/-- The type of a phrase. -/
def resolveType (phrase : Phrase) : Lower BindingId :=
  resolveTypeWithin source phrase.height phrase

/-- The type of a phrase, or the root when there is none. -/
def resolveTypeOrRoot (phrase : Option Phrase) : Lower BindingId :=
  match phrase with
  | some type => resolveType source type
  | none => rootReference

/-- The type of a variable whose name may have array brackets behind it. -/
def declaratorType (declarator : Phrase) (base : BindingId) : Lower BindingId :=
  match declarator.part? .dimensions with
  | some brackets => arrayOfDepth base (dimensionCount (source.textOf brackets))
  | none => pure base

/-- The name and type of a parameter, and whether it takes any number of
arguments. A receiver is no parameter. -/
def parameterParts (parameter : Phrase) : Lower (Option (Phrase × BindingId × Bool)) := do
  match parameter.construct with
  | .formalParameter =>
      match parameter.part? .name with
      | none => return none
      | some name =>
          let base ← resolveTypeOrRoot source (parameter.part? .type)
          let type ← declaratorType source parameter base
          return some (name, type, false)
  | .spreadParameter =>
      let parts := parameter.namedParts
      match (parts.find? (·.construct == .variableDeclarator)).bind (·.part? .name) with
      | none => return none
      | some name =>
          let written := parts.find? fun part =>
            part.construct != .modifiers && part.construct != .variableDeclarator
          let element ← resolveTypeOrRoot source written
          let type ← bind (·.arrayOf element)
          return some (name, type, true)
  | _ => return none

/-- The types of a parameter list, and whether it takes any number of
arguments. -/
def parameterTypes (parameters : Option Phrase) : Lower (List BindingId × Bool) := do
  let parts ← ((parameters.map (·.namedParts)).getD []).filterMapM (parameterParts source)
  return (parts.map (·.2.1), parts.any (·.2.2))

/-- The names of the type parameters of a declaration. -/
def typeParameterNames (declaration : Phrase) : List String :=
  ((declaration.part? .typeParameters).map (·.namedParts)).getD [] |>.filterMap fun parameter =>
    (parameter.namedParts.find? fun part =>
      part.construct == .typeIdentifier || part.construct == .identifier).map source.textOf

end Lower

end JavaInspect.Java
