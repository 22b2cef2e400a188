import JavaInspect.Binding.Table
import JavaInspect.Library.ClassPath

/-!
# Loading a class path

Every type is declared before any is linked, so references between types
resolve in whatever order they are listed. A reference to a type that is not
listed becomes a placeholder.
-/

namespace JavaInspect

namespace Table

/-- Refer to a superclass by name. -/
def linkSuperclass (type : BindingId) (table : Table) (name : String) : Table :=
  let (superclass, table) := table.typeReference name
  table.setSuperclass type superclass

/-- Refer to a further interface by name. -/
def linkInterface (type : BindingId) (table : Table) (name : String) : Table :=
  let (interface, table) := table.typeReference name
  table.addInterface type interface

/-- Refer to a further annotation by name. -/
def annotateByName (target : BindingId) (table : Table) (name : String) : Table :=
  let (type, table) := table.typeReference name
  table.annotate target type

/-- Declare a field of a library type. -/
def loadField (owner : BindingId) (table : Table) (field : LibraryField) : Table :=
  let (type, table) := table.typeReference field.type
  (table.declareField owner field.name type).2

/-- Declare a constructor of a library type. -/
def loadConstructor (owner : BindingId) (table : Table) (constructor : LibraryConstructor) :
    Table :=
  let (parameters, table) := table.typeReferences constructor.parameters
  let (binding, table) := table.declareConstructor owner parameters
  table.setVarargs binding constructor.varargs

/-- Declare a method of a library type; without a result type it returns
nothing. -/
def loadMethod (owner : BindingId) (table : Table) (method : LibraryMethod) : Table :=
  let (parameters, table) := table.typeReferences method.parameters
  let (result, table) := table.typeReference (method.returns.getD "void")
  let (binding, table) := table.declareMethod owner method.name parameters (some result)
  let table := table.setVarargs binding method.varargs
  method.annotations.foldl (annotateByName binding) table

/-- Fill in the supertypes, annotations and members of a declared library
type. -/
def linkLibraryType (table : Table) (type : LibraryType) (binding : BindingId) : Table :=
  let table :=
    match type.superclass? with
    | some name => linkSuperclass binding table name
    | none => table
  let table := type.interfaces.foldl (linkInterface binding) table
  let table := type.annotations.foldl (annotateByName binding) table
  let table := type.fields.foldl (loadField binding) table
  let table := type.constructors.foldl (loadConstructor binding) table
  type.methods.foldl (loadMethod binding) table

/-- Declare library types in order, without linking them. -/
def declareLibraryTypes (table : Table) : List LibraryType → List BindingId × Table
  | [] => ([], table)
  | type :: types =>
      let (binding, table) := table.declareType type.name type.kind.typeKind
      let (bindings, table) := table.declareLibraryTypes types
      (binding :: bindings, table)

/-- Declare and link every type of a class path. -/
def load (table : Table) (path : ClassPath) : Table :=
  let (bindings, table) := table.declareLibraryTypes path.types
  (path.types.zip bindings).foldl
    (fun table (type, binding) => table.linkLibraryType type binding) table

end Table

end JavaInspect
