import JavaInspect.Binding.Basic

/-!
# Library types

Descriptions of types that source files can refer to without declaring them.
Type references are qualified names or primitive names, either with array
brackets behind them.
-/

namespace JavaInspect

/-- The qualified name of the root of the reference types. -/
def rootTypeName : String := "java.lang.Object"

/-- The class above every enum that names none. -/
def enumBaseName : String := "java.lang.Enum"

/-- The class above every record. -/
def recordBaseName : String := "java.lang.Record"

/-- The kind of a library type. -/
inductive LibraryKind where
  | «class»
  | interface
  | enum
  | record
  | annotationType
deriving DecidableEq, Repr, Inhabited

namespace LibraryKind

/-- Every library kind. -/
def all : List LibraryKind := [.class, .interface, .enum, .record, .annotationType]

/-- The name a library kind is written by. -/
def label : LibraryKind → String
  | .class => "class"
  | .interface => "interface"
  | .enum => "enum"
  | .record => "record"
  | .annotationType => "annotation"

/-- The library kind with the given name. -/
def ofLabel? (label : String) : Option LibraryKind :=
  all.find? (·.label == label)

/-- The kind of the bindings made for a library type. -/
def typeKind : LibraryKind → TypeKind
  | .class => .class
  | .interface => .interface
  | .enum => .enum
  | .record => .record
  | .annotationType => .annotationType

end LibraryKind

/-- A field of a library type. -/
structure LibraryField where
  name : String
  type : String
deriving DecidableEq, Repr, Inhabited

/-- A method of a library type. -/
structure LibraryMethod where
  name : String
  parameters : List String := []
  /-- The result type; absent for none. -/
  returns : Option String := none
  varargs : Bool := false
  annotations : List String := []
deriving DecidableEq, Repr, Inhabited

/-- A constructor of a library type. -/
structure LibraryConstructor where
  parameters : List String := []
  varargs : Bool := false
deriving DecidableEq, Repr, Inhabited

/-- The description of one library type. -/
structure LibraryType where
  name : String
  kind : LibraryKind := .class
  /-- The superclass, where it is not the default one of the kind. -/
  superclass : Option String := none
  interfaces : List String := []
  annotations : List String := []
  fields : List LibraryField := []
  constructors : List LibraryConstructor := []
  methods : List LibraryMethod := []
deriving DecidableEq, Repr, Inhabited

namespace LibraryType

/-- The superclass of a type that names none: the root for classes other than
the root itself, and the common base of enums and of records. -/
def defaultSuperclass? (type : LibraryType) : Option String :=
  match type.kind with
  | .class => if type.name = rootTypeName then none else some rootTypeName
  | .enum => some enumBaseName
  | .record => some recordBaseName
  | .interface | .annotationType => none

/-- The named superclass, or else the default one. -/
def superclass? (type : LibraryType) : Option String :=
  type.superclass.or type.defaultSuperclass?

/-! ## Short forms of signatures

Member descriptions as tables of library types write them.
-/

/-- A constructor with the given parameter types. -/
def constructor (parameters : List String) : LibraryConstructor :=
  { parameters }

/-- A method with a result. -/
def method (name : String) (parameters : List String) (returns : String) : LibraryMethod :=
  { name, parameters, returns := some returns }

/-- A method without a result. -/
def procedure (name : String) (parameters : List String) : LibraryMethod :=
  { name, parameters }

/-- A method whose last parameter takes any number of arguments. -/
def variadic (name : String) (parameters : List String) (returns : String) : LibraryMethod :=
  { name, parameters, returns := some returns, varargs := true }

end LibraryType

end JavaInspect
