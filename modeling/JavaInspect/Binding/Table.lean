import JavaInspect.Binding.Basic

/-!
# Binding tables

A table holds one entry per binding, in the order in which they were made, and
indexes that keep packages, named types, primitive types, array types and
placeholders for unresolved types canonical: asking again for the same one
gives the same binding.

Operations that make a binding take a table and return the binding with the
grown table. A binding that the table never handed out reads as a blank entry
and is never changed.
-/

namespace JavaInspect

/-- All bindings of one compilation unit and what is known about them. -/
structure Table where
  entries : Array Entry := #[]
  /-- Top-level and nested types by qualified name. -/
  types : List (String × BindingId) := []
  /-- Names whose resolution fails although they are declared. -/
  hidden : List String := []
  packages : List (String × BindingId) := []
  primitives : List (String × BindingId) := []
  /-- Array types by their component type. -/
  arrays : List (BindingId × BindingId) := []
  /-- Placeholders for unresolved types by their token. -/
  unresolved : List (String × BindingId) := []
deriving DecidableEq, Repr, Inhabited

namespace Table

/-- The number of bindings. -/
def size (table : Table) : Nat := table.entries.size

/-- What is known about a binding; blank when the table does not hold it. -/
def entry (table : Table) (binding : BindingId) : Entry :=
  table.entries[binding.index]?.getD {}

/-- Every binding of the table, oldest first. -/
def bindings (table : Table) : List BindingId :=
  (List.range table.size).map BindingId.mk

@[simp] theorem mem_bindings {table : Table} {binding : BindingId} :
    binding ∈ table.bindings ↔ binding.index < table.size := by
  cases binding
  simp [bindings]

theorem entry_of_outside {table : Table} {binding : BindingId}
    (outside : ¬ binding.index < table.size) : table.entry binding = {} := by
  have absent : table.entries[binding.index]? = none :=
    Array.getElem?_eq_none (Nat.not_lt.1 outside)
  simp [entry, absent]

/-- Append an entry. -/
def push (table : Table) (entry : Entry) : BindingId × Table :=
  (⟨table.size⟩, { table with entries := table.entries.push entry })

/-- Change one entry. -/
def modify (table : Table) (binding : BindingId) (change : Entry → Entry) : Table :=
  { table with entries := table.entries.modify binding.index change }

/-- The package of the given name. -/
def package (table : Table) (name : String) : BindingId × Table :=
  match table.packages.lookup name with
  | some known => (known, table)
  | none =>
      let (binding, table) := table.push { kind := .package, name, qualifiedName := name }
      (binding, { table with packages := (name, binding) :: table.packages })

/-- The package that a qualified type name mentions, if any. -/
def packageOf (table : Table) (qualifiedName : String) : Option BindingId × Table :=
  match Text.splitQualified? qualifiedName with
  | some (qualifier, _) =>
      let (binding, table) := table.package qualifier
      (some binding, table)
  | none => (none, table)

/-- The top-level type of the given name, declared with the given kind when it
is new. -/
def declareType (table : Table) (qualifiedName : String) (kind : TypeKind) :
    BindingId × Table :=
  match table.types.lookup qualifiedName with
  | some known => (known, table)
  | none =>
      let (owner, table) := table.packageOf qualifiedName
      let (binding, table) := table.push
        { kind := .type
          name := Text.simpleName qualifiedName
          qualifiedName
          typeKind := some kind
          owner }
      (binding, { table with types := (qualifiedName, binding) :: table.types })

/-- Make a binding the last member of another. -/
def addMember (table : Table) (owner member : BindingId) : Table :=
  table.modify owner fun entry => { entry with members := entry.members ++ [member] }

/-- The member type of the given name, declared with the given kind when it is
new. -/
def declareNestedType (table : Table) (outer : BindingId) (name : String) (kind : TypeKind) :
    BindingId × Table :=
  let qualifiedName := (table.entry outer).qualifiedName ++ "." ++ name
  match table.types.lookup qualifiedName with
  | some known => (known, table)
  | none =>
      let (binding, table) := table.push
        { kind := .type, name, qualifiedName, typeKind := some kind, owner := some outer }
      let table := table.addMember outer binding
      (binding, { table with types := (qualifiedName, binding) :: table.types })

/-- A new type declared inside a body; it has no qualified name of its own. -/
def declareLocalType (table : Table) (owner : BindingId) (name : String) (kind : TypeKind) :
    BindingId × Table :=
  table.push
    { kind := .type, name, qualifiedName := name, typeKind := some kind, owner := some owner }

/-- The placeholder for a type that cannot be resolved, named by its token. -/
def unresolvedType (table : Table) (token : String) : BindingId × Table :=
  match table.unresolved.lookup token with
  | some known => (known, table)
  | none =>
      let (binding, table) := table.push
        { kind := .type
          name := Text.simpleName token
          qualifiedName := token
          typeKind := some .unknown
          recovered := true }
      (binding, { table with unresolved := (token, binding) :: table.unresolved })

/-- The primitive type of the given name. -/
def primitive (table : Table) (name : String) : BindingId × Table :=
  match table.primitives.lookup name with
  | some known => (known, table)
  | none =>
      let (binding, table) := table.push
        { kind := .type, name, qualifiedName := name, typeKind := some .primitive }
      (binding, { table with primitives := (name, binding) :: table.primitives })

/-- The array type with the given component type. -/
def arrayOf (table : Table) (element : BindingId) : BindingId × Table :=
  match table.arrays.lookup element with
  | some known => (known, table)
  | none =>
      let component := table.entry element
      let (binding, table) := table.push
        { kind := .type
          name := component.name ++ "[]"
          qualifiedName := component.qualifiedName ++ "[]"
          typeKind := some .array
          element := some element }
      (binding, { table with arrays := (element, binding) :: table.arrays })

/-- The array type with the given number of dimensions. -/
def arrayOfDepth (table : Table) (element : BindingId) : Nat → BindingId × Table
  | 0 => (element, table)
  | depth + 1 =>
      let (component, table) := table.arrayOfDepth element depth
      table.arrayOf component

/-- Set the superclass of a type. -/
def setSuperclass (table : Table) (type superclass : BindingId) : Table :=
  table.modify type fun entry => { entry with superclass := some superclass }

/-- Append a directly declared interface to a type. -/
def addInterface (table : Table) (type interface : BindingId) : Table :=
  table.modify type fun entry => { entry with interfaces := entry.interfaces ++ [interface] }

/-- Append an annotation to a declaration. -/
def annotate (table : Table) (target type : BindingId) : Table :=
  table.modify target fun entry => { entry with annotations := entry.annotations ++ [type] }

/-- Declare a method of a type. The result type is absent only when nothing at
all is known about it. -/
def declareMethod (table : Table) (owner : BindingId) (name : String)
    (parameters : List BindingId) (result : Option BindingId) : BindingId × Table :=
  let (binding, table) := table.push
    { kind := .method
      name
      qualifiedName := name
      owner := some owner
      parameters
      declaredType := result }
  (binding, table.addMember owner binding)

/-- Declare a constructor of a type; it takes the type's simple name. -/
def declareConstructor (table : Table) (owner : BindingId) (parameters : List BindingId) :
    BindingId × Table :=
  let name := (table.entry owner).name
  let (binding, table) := table.push
    { kind := .method
      name
      qualifiedName := name
      owner := some owner
      parameters
      isConstructor := true }
  (binding, table.addMember owner binding)

/-- Say whether the last parameter of a method takes any number of arguments. -/
def setVarargs (table : Table) (method : BindingId) (varargs : Bool) : Table :=
  table.modify method fun entry => { entry with varargs }

/-- Declare a parameter or local variable. -/
def declareVariable (table : Table) (owner : BindingId) (name : String) (type : BindingId) :
    BindingId × Table :=
  table.push
    { kind := .variable
      name
      qualifiedName := name
      owner := some owner
      declaredType := some type }

/-- Declare a field of a type. -/
def declareField (table : Table) (owner : BindingId) (name : String) (type : BindingId) :
    BindingId × Table :=
  let (binding, table) := table.declareVariable owner name type
  (binding, table.addMember owner binding)

/-- Flag a binding as one whose declaration could not be resolved. -/
def markRecovered (table : Table) (binding : BindingId) : Table :=
  table.modify binding fun entry => { entry with recovered := true }

/-- Make the resolution of a name fail while its binding stays. -/
def hideType (table : Table) (qualifiedName : String) : Table :=
  { table with hidden := qualifiedName :: table.hidden }

/-- Replace the enclosing declaration of a binding. -/
def setOwner (table : Table) (binding : BindingId) (owner : Option BindingId) : Table :=
  table.modify binding fun entry => { entry with owner }

/-- The type declared under a name, hidden or not. -/
def lookupType (table : Table) (qualifiedName : String) : Option BindingId :=
  table.types.lookup qualifiedName

/-- The type declared under a name that is not hidden. -/
def resolveType (table : Table) (qualifiedName : String) : Option BindingId :=
  if table.hidden.contains qualifiedName then none else table.lookupType qualifiedName

/-- The array brackets at the end of a reversed name: how many pairs there are,
and the reversed name before them. -/
def peelBrackets : List Char → Nat × List Char
  | ']' :: '[' :: rest =>
      let (depth, base) := peelBrackets rest
      (depth + 1, base)
  | base => (0, base)

/-- The name before all trailing array brackets, and their number. -/
def splitDimensions (name : String) : String × Nat :=
  let (depth, base) := peelBrackets name.toList.reverse
  (String.ofList base.reverse, depth)

/-- The type of a name without array brackets: primitive, declared, or a
placeholder. -/
def namedReference (table : Table) (name : String) : BindingId × Table :=
  if isPrimitiveName name then table.primitive name
  else
    match table.lookupType name with
    | some known => (known, table)
    | none => table.unresolvedType name

/-- The type that a class path style reference denotes. -/
def typeReference (table : Table) (name : String) : BindingId × Table :=
  let (base, depth) := splitDimensions name
  let (element, table) := table.namedReference base
  table.arrayOfDepth element depth

/-- The types of several references, in order. -/
def typeReferences (table : Table) : List String → List BindingId × Table
  | [] => ([], table)
  | name :: names =>
      let (binding, table) := table.typeReference name
      let (bindings, table) := table.typeReferences names
      (binding :: bindings, table)

/-- The kind of the type that encloses a binding. -/
def ownerKind (table : Table) (binding : BindingId) : Option TypeKind :=
  (table.entry binding).owner.bind fun owner => (table.entry owner).typeKind

end Table

end JavaInspect
