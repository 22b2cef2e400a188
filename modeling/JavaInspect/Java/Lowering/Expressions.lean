import JavaInspect.Java.Lowering.Link

/-!
# Lowering declarations of locals, names and calls

The parts of lowering that need no knowledge of the other phrases: identifiers,
literals, modifiers and annotations, and the calls whose parts are lowered by a
step that is handed in. The step answers the node that a phrase became, if any.
-/

namespace JavaInspect.Java

namespace Lower

variable (source : Source)

/-- Open a node for a phrase. -/
def start (kind : NodeKind) (phrase : Phrase) (role : Role) : Lower NodeId := do
  let node ← grow (·.start kind phrase.span)
  updateTree (·.setRole node role)
  return node

/-- Add a node without children for a phrase. -/
def leaf (kind : NodeKind) (phrase : Phrase) (role : Role) : Lower NodeId := do
  let node ← grow (·.leaf kind phrase.span)
  updateTree (·.setRole node role)
  return node

/-- Name a node by a phrase. -/
def setName (node : NodeId) (name : Phrase) : Lower Unit :=
  updateTree (·.setName node (source.textOf name) name.span)

/-- Attach a symbol to a node. -/
def setBinding (node : NodeId) (binding : BindingId) : Lower Unit :=
  updateTree (·.setBinding node binding)

/-- Attach a static type to a node. -/
def setTypeBinding (node : NodeId) (type : BindingId) : Lower Unit :=
  updateTree (·.setTypeBinding node type)

/-- Attach a method, constructor or field to a node, and its declared type. -/
def setReference (node : NodeId) (binding : BindingId) : Lower Unit := do
  setBinding node binding
  if let some type := (← entry binding).declaredType then
    setTypeBinding node type

/-- The static type of a node that was built. -/
def typeBinding? (node : Option NodeId) : Lower (Option BindingId) := do
  let builder := (← get).builder
  return node.bind fun node => (builder.data node).typeBinding

/-- A step of lowering: the node that a phrase became in a role. -/
abbrev Step := Phrase → Role → Lower (Option NodeId)

/-- Lower a phrase to a node with a child for every part that has one. -/
def lowerParts (step : Step) (kind : NodeKind) (phrase : Phrase) (role : Role) :
    Lower NodeId := do
  let node ← start kind phrase role
  phrase.namedParts.forM fun part => do
    let _ ← step part .plain
  finish
  return node

/-- Lower an argument list, if there is one. -/
def lowerArguments (step : Step) (arguments : Option Phrase) : Lower Unit := do
  if let some list := arguments then
    let _ ← lowerParts step .arguments list .plain

/-- Lower an annotation. -/
def lowerAnnotationUse (step : Step) (phrase : Phrase) : Lower NodeId := do
  let node ← start .annotationUse phrase .plain
  if let some name := phrase.part? .name then
    let written := eraseArguments (source.textOf name)
    let type ← resolveTypeName source written
    updateTree (·.setName node written name.span)
    setBinding node type
    setTypeBinding node type
  lowerArguments step (phrase.part? .arguments)
  finish
  return node

/-- Give an open node the modifiers and annotations of a declaration. -/
def lowerModifiers (step : Step) (node : NodeId) (declaration : Phrase) : Lower Unit := do
  (declaration.modifiers source.text).forM fun modifier =>
    updateTree (·.addModifier node modifier)
  declaration.annotations.forM fun use => do
    let _ ← lowerAnnotationUse source step use

/-- Declare a parameter or a variable whose type is known, and bring it into
scope. -/
def lowerLocal (step : Step) (kind : NodeKind) (phrase name : Phrase) (type : BindingId)
    (role : Role) : Lower NodeId := do
  let owner ← currentOwner source
  let text := source.textOf name
  let binding ← bind (·.declareVariable owner text type)
  let node ← start kind phrase role
  setName source node name
  setBinding node binding
  setTypeBinding node type
  lowerModifiers source step node phrase
  finish
  addLocal text { binding, type }
  return node

/-- The type that a name denotes as a receiver. -/
def receiverType? (role : Role) (name : String) : Lower (Option BindingId) := do
  if role == .receiver then return (← get).lookupSimple source.header name else return none

/-- Lower an identifier. It refers to the innermost local of its name, or else
to a field of one of the classes around it, or else, as a receiver, to a type. -/
def lowerIdentifier (phrase : Phrase) (role : Role) : Lower NodeId := do
  let node ← leaf .identifier phrase role
  let name := source.textOf phrase
  setName source node phrase
  updateTree (·.setText node name)
  let state ← get
  match state.scopes.findSome? (·.lookup name) with
  | some meaning =>
      setBinding node meaning.binding
      setTypeBinding node meaning.type
  | none =>
      match state.classes.findSome? fun scope => state.table.findField scope.binding name with
      | some field => setReference node field
      | none =>
          if let some type ← receiverType? source role name then
            setBinding node type
            setTypeBinding node type
  return node

/-- Whether a literal ends in one of two letters. -/
def hasSuffix (text : String) (lower upper : Char) : Bool :=
  let last := text.toList.getLast?
  last == some lower || last == some upper

/-- The type of a literal; the null literal has none. -/
def literalType? (construct : Construct) (text : String) : Lower (Option BindingId) := do
  match construct with
  | .stringLiteral => return some (← bind (·.typeReference stringTypeName))
  | .characterLiteral => return some (← bind (·.primitive "char"))
  | .booleanLiteral => return some (← bind (·.primitive "boolean"))
  | .floatingPointLiteral =>
      let name := if hasSuffix text 'f' 'F' then "float" else "double"
      return some (← bind (·.primitive name))
  | .nullLiteral => return none
  | _ =>
      let name := if hasSuffix text 'l' 'L' then "long" else "int"
      return some (← bind (·.primitive name))

/-- Lower a literal. -/
def lowerLiteral (phrase : Phrase) (role : Role) : Lower NodeId := do
  let node ← leaf .literal phrase role
  let text := source.textOf phrase
  updateTree (·.setText node text)
  if let some type ← literalType? phrase.construct text then
    setTypeBinding node type
  return node

/-- Lower the receiver of a call or field access. The result is its static
type. -/
def lowerReceiver (step : Step) (object : Option Phrase) : Lower (Option BindingId) := do
  match object with
  | some receiver => typeBinding? (← step receiver .receiver)
  | none => return none

/-- The method that a call denotes: one of the receiver's type when there is a
receiver, and otherwise one of the innermost class around that has it. -/
def calledMethod? (state : Lowering) (hasReceiver : Bool) (receiver : Option BindingId)
    (name : String) (arity : Nat) : Option BindingId :=
  if hasReceiver then receiver.bind fun type => state.table.findMethod type name arity
  else state.classes.findSome? fun scope => state.table.findMethod scope.binding name arity

/-- Lower a method call. -/
def lowerInvocation (step : Step) (phrase : Phrase) (role : Role) : Lower NodeId := do
  let node ← start .methodInvocation phrase role
  let name := phrase.part? .name
  name.forM (setName source node)
  let object := phrase.part? .object
  let receiver ← lowerReceiver step object
  let arguments := phrase.part? .arguments
  lowerArguments step arguments
  let name := (name.map source.textOf).getD ""
  let arity := Phrase.argumentCount arguments
  if let some method := calledMethod? (← get) object.isSome receiver name arity then
    setReference node method
  finish
  return node

/-- The constructor's class that an explicit constructor call names. -/
def calledClass? (keyword : String) : Lower (Option BindingId) := do
  match ← currentClass? with
  | some type => if keyword == "super" then return (← entry type).superclass else return some type
  | none => return none

/-- Lower a call of another constructor of the class or its superclass. -/
def lowerConstructorCall (step : Step) (phrase : Phrase) (role : Role) : Lower NodeId := do
  let node ← start .constructorCall phrase role
  let target ←
    match phrase.part? .constructor with
    | some keyword => do
        setName source node keyword
        calledClass? (source.textOf keyword)
    | none => pure none
  let arguments := phrase.part? .arguments
  lowerArguments step arguments
  let table := (← get).table
  let arity := Phrase.argumentCount arguments
  if let some constructor := target.bind (table.findConstructor · arity) then
    setBinding node constructor
  finish
  return node

/-- Lower a field access. -/
def lowerFieldAccess (step : Step) (phrase : Phrase) (role : Role) : Lower NodeId := do
  let node ← start .memberSelect phrase role
  let field := phrase.part? .field
  field.forM (setName source node)
  let receiver ← lowerReceiver step (phrase.part? .object)
  let table := (← get).table
  if let (some receiver, some field) := (receiver, field) then
    if let some found := table.findField receiver (source.textOf field) then
      setReference node found
  finish
  return node

/-- Whether an operator compares or combines truth values. -/
def isTruthOperator (operator : String) : Bool :=
  ["==", "!=", "<", ">", "<=", ">=", "&&", "||"].contains operator

/-- Lower a binary expression. -/
def lowerBinary (step : Step) (phrase : Phrase) (role : Role) : Lower NodeId := do
  let node ← start .binary phrase role
  if let some operator := phrase.part? .operator then
    let operator := source.textOf operator
    updateTree (·.setText node operator)
    if isTruthOperator operator then
      setTypeBinding node (← bind (·.primitive "boolean"))
  [phrase.part? .left, phrase.part? .right].forM fun operand =>
    operand.forM fun operand => do
      let _ ← step operand .operand
  finish
  return node

/-- Lower a unary expression. -/
def lowerUnary (step : Step) (phrase : Phrase) (role : Role) : Lower NodeId := do
  let node ← start .unary phrase role
  if let some operator := phrase.part? .operator then
    updateTree (·.setText node (source.textOf operator))
  (phrase.part? .operand).forM fun operand => do
    let _ ← step operand .operand
  finish
  return node

/-- Lower a cast, whose static type is the first type it names. -/
def lowerCast (step : Step) (phrase : Phrase) (role : Role) : Lower NodeId := do
  let node ← lowerParts step .other phrase role
  if let some type := phrase.part? .type then
    setTypeBinding node (← resolveType source type)
  return node

/-- Lower `this`. -/
def lowerThis (phrase : Phrase) (role : Role) : Lower NodeId := do
  let node ← leaf .this phrase role
  (← currentClass?).forM (setTypeBinding node)
  return node

/-- Lower `super`. -/
def lowerSuper (phrase : Phrase) (role : Role) : Lower NodeId := do
  let node ← leaf .super phrase role
  if let some type ← currentClass? then
    (← entry type).superclass.forM (setTypeBinding node)
  return node

end Lower

end JavaInspect.Java
