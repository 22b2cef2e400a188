import JavaInspect.Text.Affix

/-!
# Bindings

A binding is one declaration or type that the program under inspection refers
to. It is named by its index in a binding table; the entry of the table says
what is known about it.
-/

namespace JavaInspect

/-- The index of a binding in its table. -/
structure BindingId where
  index : Nat
deriving DecidableEq, Repr, Inhabited

namespace BindingId

/-- A binding as error messages show it. -/
def display (binding : BindingId) : String :=
  s!"#{binding.index}"

end BindingId

/-- What a binding declares. -/
inductive BindingKind where
  | package
  | type
  | method
  | variable
deriving DecidableEq, Repr, Inhabited

namespace BindingKind

/-- The name a binding kind is shown by. -/
def label : BindingKind → String
  | .package => "package"
  | .type => "type"
  | .method => "method"
  | .variable => "variable"

end BindingKind

/-- The shape of a type. -/
inductive TypeKind where
  | «class»
  | interface
  | enum
  | record
  | annotationType
  | array
  | primitive
  | typeVariable
  | unknown
deriving DecidableEq, Repr, Inhabited

namespace TypeKind

/-- Every type kind. -/
def all : List TypeKind :=
  [.class, .interface, .enum, .record, .annotationType, .array, .primitive,
    .typeVariable, .unknown]

/-- The name a type kind is shown by. -/
def label : TypeKind → String
  | .class => "class"
  | .interface => "interface"
  | .enum => "enum"
  | .record => "record"
  | .annotationType => "annotation"
  | .array => "array"
  | .primitive => "primitive"
  | .typeVariable => "type-variable"
  | .unknown => "unknown"

/-- The type kind with the given name. -/
def ofLabel? (label : String) : Option TypeKind :=
  all.find? (·.label == label)

/-- Classes, enums and records may have a class above them. -/
def isClassLike : TypeKind → Bool
  | .class | .enum | .record => true
  | _ => false

/-- Interfaces and annotation types have no class above them. -/
def isInterfaceLike : TypeKind → Bool
  | .interface | .annotationType => true
  | _ => false

/-- Declared reference types: the kinds that own members and supertypes. -/
def isDeclared : TypeKind → Bool
  | .class | .interface | .enum | .record | .annotationType => true
  | _ => false

end TypeKind

/-- The names of the primitive types and of the absent result. -/
def primitiveNames : List String :=
  ["boolean", "byte", "char", "short", "int", "long", "float", "double", "void"]

/-- Whether a name is that of a primitive type. -/
def isPrimitiveName (name : String) : Bool :=
  primitiveNames.contains name

/-- What a table knows about one binding. -/
structure Entry where
  kind : BindingKind := .type
  /-- The simple name of the declaration. -/
  name : String := ""
  /-- The qualified name; for methods and variables the simple name. -/
  qualifiedName : String := ""
  /-- The shape of a type; absent for everything else. -/
  typeKind : Option TypeKind := none
  /-- Set when the declaration could not be resolved. -/
  recovered : Bool := false
  /-- The enclosing declaration. -/
  owner : Option BindingId := none
  superclass : Option BindingId := none
  /-- Directly declared interfaces in declaration order. -/
  interfaces : List BindingId := []
  /-- The component type of an array. -/
  element : Option BindingId := none
  /-- The types of the annotations in source order. -/
  annotations : List BindingId := []
  /-- Directly declared members in declaration order. -/
  members : List BindingId := []
  /-- The type of a variable or the result type of a method. -/
  declaredType : Option BindingId := none
  /-- The parameter types of a method in order. -/
  parameters : List BindingId := []
  varargs : Bool := false
  isConstructor : Bool := false
deriving DecidableEq, Repr, Inhabited

namespace Entry

/-- Whether a call with `count` arguments fits: the declared number, or with a
variable last parameter at least all the others. -/
def accepts (entry : Entry) (count : Nat) : Bool :=
  entry.parameters.length == count ||
    (entry.varargs && 0 < entry.parameters.length && entry.parameters.length ≤ count + 1)

end Entry

end JavaInspect
