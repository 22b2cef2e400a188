import JavaInspect.Java.Lowering.Members
import JavaInspect.Java.Lowering.Resolve

/-!
# Declaring and linking types

All types of a body are declared before any of them is linked, so a type may
refer to one that stands behind it. Linking gives a type its superclass, its
interfaces, its annotations and its members. Members are declared in source
order, after the fields and accessors that the components of a record stand for;
a record without a constructor for its components gets one at the end.

Declaring and linking go down a nesting of bodies. They take the depth that is
left, which is at least the height of the phrase at hand.
-/

namespace JavaInspect.Java

namespace Lower

variable (source : Source)

/-- Declare the types of a body, nested ones included. -/
def declareTypes : Nat → Phrase → Option BindingId → Lower Unit
  | 0, _, _ => return
  | depth + 1, container, outer =>
      container.members.forM fun member => do
        if let some kind := member.construct.typeKind? then
          if let some name := member.part? .name then
            let name := source.textOf name
            let type ←
              match outer with
              | some outer => bind (·.declareNestedType outer name kind)
              | none => bind (·.declareType (source.header.qualify name) kind)
            declare member type
            if let some body := member.part? .body then
              declareTypes depth body (some type)

/-- The superclass of a type when its declaration does not name one. -/
def defaultSuperclass? (kind : TypeKind) (qualifiedName : String) : Option String :=
  match kind with
  | .class => if qualifiedName == rootTypeName then none else some rootTypeName
  | .enum => some enumBaseName
  | .record => some recordBaseName
  | _ => none

/-- Give a type its superclass. -/
def linkSuperclass (declaration : Phrase) (kind : TypeKind) (type : BindingId) :
    Lower Unit := do
  match (declaration.part? .superclass).bind (·.namedParts.head?) with
  | some written =>
      let superclass ← resolveType source written
      updateTable (·.setSuperclass type superclass)
  | none =>
      let qualifiedName := (← entry type).qualifiedName
      if let some name := defaultSuperclass? kind qualifiedName then
        let superclass ← bind (·.typeReference name)
        updateTable (·.setSuperclass type superclass)

/-- Give a type its interfaces. -/
def linkInterfaces (declaration : Phrase) (type : BindingId) : Lower Unit :=
  declaration.interfaces.forM fun written => do
    let interface ← resolveType source written
    updateTable (·.addInterface type interface)

/-- Give a declaration its annotations. -/
def linkAnnotations (declaration : Phrase) (target : BindingId) : Lower Unit :=
  declaration.annotations.forM fun use => do
    if let some name := use.part? .name then
      let type ← resolveTypeName source (source.textOf name)
      updateTable (·.annotate target type)

/-- Declare a field and an accessor for every component of a record. The result
is the types of the components. -/
def linkComponents (declaration : Phrase) (type : BindingId) : Lower (List BindingId) :=
  let components := ((declaration.part? .parameters).map (·.namedParts)).getD []
  components.filterMapM fun component => do
    match ← parameterParts source component with
    | some (name, componentType, _) =>
        let name := source.textOf name
        let field ← bind (·.declareField type name componentType)
        declare component field
        let _ ← bind (·.declareMethod type name [] (some componentType))
        return some componentType
    | none => return none

/-- Declare the fields of a field declaration. -/
def linkFields (declaration : Phrase) (owner : BindingId) : Lower Unit := do
  let base ← resolveTypeOrRoot source (declaration.part? .type)
  (declaration.partsIn .declarator).forM fun declarator => do
    if let some name := declarator.part? .name then
      let type ← declaratorType source declarator base
      let field ← bind (·.declareField owner (source.textOf name) type)
      linkAnnotations source declaration field
      declare declarator field

/-- Declare a method or an element of an annotation type. -/
def linkMethod (declaration : Phrase) (owner : BindingId) : Lower Unit := do
  if let some name := declaration.part? .name then
    withTypeParameters (typeParameterNames source declaration) do
      let (parameters, varargs) ← parameterTypes source (declaration.part? .parameters)
      let base ←
        match declaration.part? .type with
        | some type => resolveType source type
        | none => bind (·.primitive "void")
      let result ← declaratorType source declaration base
      let method ← bind (·.declareMethod owner (source.textOf name) parameters (some result))
      updateTable (·.setVarargs method varargs)
      linkAnnotations source declaration method
      declare declaration method

/-- Declare a constructor with a parameter list. -/
def linkConstructor (declaration : Phrase) (owner : BindingId) : Lower Unit :=
  withTypeParameters (typeParameterNames source declaration) do
    let (parameters, varargs) ← parameterTypes source (declaration.part? .parameters)
    let constructor ← bind (·.declareConstructor owner parameters)
    updateTable (·.setVarargs constructor varargs)
    linkAnnotations source declaration constructor
    declare declaration constructor

/-- Declare a constructor that takes the components of its record. -/
def linkCompactConstructor (declaration : Phrase) (owner : BindingId)
    (components : List BindingId) : Lower Unit := do
  let constructor ← bind (·.declareConstructor owner components)
  linkAnnotations source declaration constructor
  declare declaration constructor

/-- Declare a constant of an enum. -/
def linkConstant (declaration : Phrase) (owner : BindingId) : Lower Unit := do
  if let some name := declaration.part? .name then
    let constant ← bind (·.declareField owner (source.textOf name) owner)
    linkAnnotations source declaration constant
    declare declaration constant

/-- Declare the members of a body with a way to link the types among them. -/
def linkMembersWith (linkNested : Phrase → BindingId → Lower Unit) (body : Phrase)
    (owner : BindingId) (components : List BindingId) : Lower Unit :=
  body.members.forM fun member =>
    match member.construct with
    | .fieldDeclaration | .constantDeclaration => linkFields source member owner
    | .methodDeclaration | .annotationElementDeclaration => linkMethod source member owner
    | .constructorDeclaration => linkConstructor source member owner
    | .compactConstructorDeclaration =>
        linkCompactConstructor source member owner components
    | .enumConstant => linkConstant source member owner
    | construct => do
        if construct.typeKind?.isSome then
          if let some nested ← declared? member then
            linkNested member nested

/-- Link a declared type and the types in its body. -/
def linkType : Nat → Phrase → BindingId → Lower Unit
  | 0, _, _ => return
  | depth + 1, declaration, type => do
      let kind := declaration.construct.typeKind?.getD .class
      let typeParameters := typeParameterNames source declaration
      inClass { binding := type, typeParameters } do
        linkSuperclass source declaration kind type
        linkInterfaces source declaration type
        linkAnnotations source declaration type
        let components ←
          if kind == .record then linkComponents source declaration type else pure []
        if let some body := declaration.part? .body then
          linkMembersWith source (linkType depth) body type components
        if kind == .record then
          if ((← get).table.findConstructor type components.length).isNone then
            let _ ← bind (·.declareConstructor type components)

/-- Declare the members of a body. -/
def linkMembers (body : Phrase) (owner : BindingId) (components : List BindingId) :
    Lower Unit :=
  linkMembersWith source (linkType source body.height) body owner components

/-- Link the declared types of a body. -/
def linkTypes (container : Phrase) : Lower Unit :=
  container.members.forM fun member => do
    if let some type ← declared? member then
      linkType source member.height member type

/-- Declare and link a type that is met inside a body of statements. -/
def declareLocalType (declaration : Phrase) (kind : TypeKind) : Lower BindingId := do
  let name := ((declaration.part? .name).map source.textOf).getD ""
  let owner ← currentOwner source
  let type ← bind (·.declareLocalType owner name kind)
  modify fun state => { state with localTypes := (name, type) :: state.localTypes }
  declare declaration type
  if let some body := declaration.part? .body then
    declareTypes source body.height body (some type)
  linkType source declaration.height declaration type
  return type

end Lower

end JavaInspect.Java
