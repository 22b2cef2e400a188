import JavaInspect.Java.Lowering.Expressions

/-!
# Lowering declarations

Types, methods, fields and local variables, enum constants, and the bodies of
anonymous classes. A declaration keeps the class, the method, the type
parameters and the local names it introduces in scope exactly while its parts
are lowered.
-/

namespace JavaInspect.Java

namespace Lower

variable (source : Source)

/-- Lower the members of a body in a scope of their own. -/
def lowerMembers (step : Step) (body : Phrase) : Lower Unit :=
  body.members.forM fun member => do
    let _ ← step member .member

/-- Lower a component of a record. -/
def lowerComponent (step : Step) (component : Phrase) : Lower Unit := do
  if let some (name, type, _) ← parameterParts source component then
    let node ← start .parameter component .plain
    setName source node name
    setTypeBinding node type
    (← declared? component).forM (setBinding node)
    lowerModifiers source step node component
    finish

/-- Lower a parameter of a method. -/
def lowerParameter (step : Step) (parameter : Phrase) : Lower Unit := do
  if let some (name, type, _) ← parameterParts source parameter then
    let _ ← lowerLocal source step .parameter parameter name type .plain

/-- Lower a parameter list, if there is one. -/
def lowerParameterList (lowerOne : Phrase → Lower Unit) (parameters : Option Phrase) :
    Lower Unit := do
  if let some list := parameters then
    let _ ← start .parameters list .plain
    list.namedParts.forM lowerOne
    finish

/-- Lower the declaration of a type of the given kind. -/
def lowerTypeDeclaration (step : Step) (phrase : Phrase) (kind : TypeKind) (role : Role) :
    Lower NodeId := do
  let type ←
    match ← declared? phrase with
    | some type => pure type
    | none => declareLocalType source phrase kind
  let node ← start (declarationKind kind) phrase role
  setBinding node type
  setTypeBinding node type
  (phrase.part? .name).forM (setName source node)
  lowerModifiers source step node phrase
  let typeParameters := typeParameterNames source phrase
  inClass { binding := type, typeParameters } do
    inScope do
      lowerParameterList (lowerComponent source step) (phrase.part? .parameters)
      (phrase.part? .body).forM (lowerMembers step)
  finish
  return node

/-- Place an anonymous class below its supertype. -/
def linkAnonymousClass (type : BindingId) (supertype : Option BindingId) : Lower Unit := do
  match supertype with
  | none => return
  | some above =>
      if ((← entry above).typeKind.map (·.isInterfaceLike)).getD false then
        let root ← rootReference
        updateTable (·.setSuperclass type root)
        updateTable (·.addInterface type above)
      else updateTable (·.setSuperclass type above)

/-- Lower the body of an anonymous class or enum constant to a class without a
name. -/
def lowerAnonymousClass (step : Step) (body : Phrase) (supertype : Option BindingId) :
    Lower Unit := do
  let owner ← currentOwner source
  let type ← bind (·.declareLocalType owner "" .class)
  linkAnonymousClass type supertype
  declareTypes source body.height body (some type)
  inClass { binding := type } do
    linkMembers source body type []
    let node ← start .class body .plain
    setBinding node type
    setTypeBinding node type
    inScope (lowerMembers step body)
  finish

/-- The binding of a declarator: that of the field, or a new variable. -/
def declaratorBinding (declarator name : Phrase) (isField : Bool) (type : BindingId) :
    Lower BindingId := do
  let declareNew : Lower BindingId := do
    let owner ← currentOwner source
    bind (·.declareVariable owner (source.textOf name) type)
  match ← declared? declarator with
  | some field => if isField then return field else declareNew
  | none => declareNew

/-- Lower a declarator of a field or local variable to a node that spans the
whole declaration. -/
def lowerDeclarator (step : Step) (phrase declarator : Phrase) (base : BindingId)
    (isField : Bool) (role : Role) : Lower (Option NodeId) := do
  match declarator.part? .name with
  | none => return none
  | some name =>
      let type ← declaratorType source declarator base
      let binding ← declaratorBinding source declarator name isField type
      let node ← start .variable phrase role
      setName source node name
      setBinding node binding
      setTypeBinding node type
      lowerModifiers source step node phrase
      (declarator.part? .value).forM fun value => do
        let _ ← step value .initializer
      finish
      if !isField then addLocal (source.textOf name) { binding, type }
      return some node

/-- Lower a declaration of fields or local variables. The result is the node of
the last of them. -/
def lowerVariables (step : Step) (phrase : Phrase) (isField : Bool) (role : Role) :
    Lower (Option NodeId) := do
  let base ← resolveTypeOrRoot source (phrase.part? .type)
  let nodes ← (phrase.partsIn .declarator).filterMapM fun declarator =>
    lowerDeclarator source step phrase declarator base isField role
  return nodes.getLast?

/-- Lower a constant of an enum. -/
def lowerConstant (step : Step) (phrase : Phrase) (role : Role) : Lower NodeId := do
  let node ← start .variable phrase role
  (phrase.part? .name).forM (setName source node)
  (← declared? phrase).forM (setBinding node)
  let enum ← currentClass?
  enum.forM fun type => do
    setTypeBinding node type
    updateTree (·.addModifier node .static)
    updateTree (·.addModifier node .final)
  lowerModifiers source step node phrase
  lowerArguments step (phrase.part? .arguments)
  (phrase.part? .body).forM fun body => lowerAnonymousClass source step body enum
  finish
  return node

/-- Lower a method or constructor. -/
def lowerMethod (step : Step) (phrase : Phrase) (kind : NodeKind) (role : Role) :
    Lower NodeId := do
  let node ← start kind phrase role
  (phrase.part? .name).forM (setName source node)
  let method ← declared? phrase
  method.forM (setReference node)
  lowerModifiers source step node phrase
  withTypeParameters (typeParameterNames source phrase) do
    inMethod method do
      inScope do
        lowerParameterList (lowerParameter source step) (phrase.part? .parameters)
        (phrase.part? .body).forM fun body => do
          let _ ← step body .body
  finish
  return node

/-- Lower an instance creation. -/
def lowerNew (step : Step) (phrase : Phrase) (role : Role) : Lower NodeId := do
  let node ← start .newClass phrase role
  let type ←
    match phrase.part? .type with
    | some written => do
        updateTree (·.setName node (eraseArguments (source.textOf written)) written.span)
        pure (some (← resolveType source written))
    | none => pure none
  let arguments := phrase.part? .arguments
  lowerArguments step arguments
  type.forM fun type => do
    setTypeBinding node type
    let table := (← get).table
    (table.findConstructor type (Phrase.argumentCount arguments)).forM (setBinding node)
  (phrase.namedParts.find? (·.construct == .classBody)).forM fun body =>
    lowerAnonymousClass source step body type
  finish
  return node

end Lower

end JavaInspect.Java
