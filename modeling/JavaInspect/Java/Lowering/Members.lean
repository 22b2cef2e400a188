import JavaInspect.Binding.Basic
import JavaInspect.Java.Phrase
import JavaInspect.Tree.Kind

/-!
# Declarations and their members

How the phrases of a declaration are read: which construct declares which kind
of type, what the members of a body are, and which annotations and keyword
modifiers a declaration carries.
-/

namespace JavaInspect.Java

namespace Construct

/-- The kind of type that a construct declares. -/
def typeKind? : Construct → Option TypeKind
  | .classDeclaration => some .class
  | .interfaceDeclaration => some .interface
  | .enumDeclaration => some .enum
  | .recordDeclaration => some .record
  | .annotationTypeDeclaration => some .annotationType
  | _ => none

end Construct

/-- The kind of node that declares a type of the given kind. -/
def declarationKind : TypeKind → NodeKind
  | .interface => .interface
  | .enum => .enum
  | .record => .record
  | .annotationType => .annotationType
  | _ => .class

namespace Phrase

/-- The members of a body. Those behind the constants of an enum count among
them. -/
def members (body : Phrase) : List Phrase :=
  body.namedParts.flatMap fun part =>
    if part.construct == .enumBodyDeclarations then part.namedParts else [part]

/-- The annotations of a declaration in source order. -/
def annotations (declaration : Phrase) : List Phrase :=
  let lists := declaration.namedParts.filter (·.construct == .modifiers)
  (lists.flatMap (·.namedParts)).filter (·.construct.isAnnotationUse)

/-- The keyword modifiers of a declaration in source order. -/
def modifiers (source : List Char) (declaration : Phrase) : List Modifier :=
  match declaration.namedParts.find? (·.construct == .modifiers) with
  | some list =>
      (list.parts.filter (·.construct == .token)).filterMap fun keyword =>
        Modifier.ofKeyword? (keyword.text source)
  | none => []

/-- The types that a declaration names as its interfaces in source order. -/
def interfaces (declaration : Phrase) : List Phrase :=
  let clauses := declaration.namedParts.filter fun part =>
    part.construct == .superInterfaces || part.construct == .extendsInterfaces
  let lists := (clauses.flatMap (·.namedParts)).filter (·.construct == .typeList)
  lists.flatMap (·.namedParts)

/-- The number of arguments in an argument list. -/
def argumentCount (arguments : Option Phrase) : Nat :=
  match arguments with
  | some list => (list.namedParts.filter (!·.isComment)).length
  | none => 0

end Phrase

end JavaInspect.Java
