import JavaInspect.Java.Grammar
import JavaInspect.Java.Lowering.Declarations

/-!
# Lowering

Lowering a source text runs in three passes over its phrases: declare every type
that is not local, link supertypes, annotations and members, and build the tree.
The last pass declares parameters and local variables on its way, and binds a
call whose receiver has a declared static type. There is no inference beyond
declared types, and type parameters stand for the root of the reference types.

A phrase without a meaning of its own becomes a node that holds what its parts
became. Comments, types and modifiers become nothing.
-/

namespace JavaInspect.Java

namespace Lower

variable (source : Source)

/-- Lower an enhanced `for` statement. The node of its variable spans the whole
statement. -/
def lowerEnhancedFor (step : Step) (phrase : Phrase) (role : Role) : Lower NodeId :=
  inScope do
    let node ← start .other phrase role
    if let (some type, some name) := (phrase.part? .type, phrase.part? .name) then
      let type ← resolveType source type
      let _ ← lowerLocal source step .variable phrase name type .plain
    [phrase.part? .value, phrase.part? .body].forM fun part =>
      part.forM fun part => do
        let _ ← step part .plain
    finish
    return node

/-- Lower the parameter of a `catch` clause. Its type is the first that the
clause names. -/
def lowerCatchParameter (step : Step) (phrase : Phrase) (role : Role) :
    Lower (Option NodeId) := do
  match phrase.part? .name with
  | none => return none
  | some name =>
      let types := (phrase.namedParts.find? (·.construct == .catchType)).map (·.namedParts)
      let type ← resolveTypeOrRoot source (types.bind (·.head?))
      return some (← lowerLocal source step .variable phrase name type role)

/-- Lower a statement that holds at most one expression. -/
def lowerExpressionStatement (step : Step) (kind : NodeKind) (phrase : Phrase) (role : Role) :
    Lower NodeId := do
  let node ← start kind phrase role
  phrase.content?.forM fun expression => do
    let _ ← step expression .expression
  finish
  return node

/-- Lower one phrase with a way to lower its parts. -/
def lowerWith (step : Step) (phrase : Phrase) (role : Role) : Lower (Option NodeId) := do
  match phrase.construct with
  | .comment | .token | .modifiers => return none
  | .typeIdentifier | .scopedTypeIdentifier | .genericType | .arrayType | .integralType
  | .floatingPointType | .booleanType | .voidType | .typeArguments | .typeParameters
  | .dimensions | .annotatedType => return none
  | .parenthesizedExpression =>
      match phrase.content? with
      | some inner => step inner role
      | none => return none
  | .classDeclaration => some <$> lowerTypeDeclaration source step phrase .class role
  | .interfaceDeclaration => some <$> lowerTypeDeclaration source step phrase .interface role
  | .enumDeclaration => some <$> lowerTypeDeclaration source step phrase .enum role
  | .recordDeclaration => some <$> lowerTypeDeclaration source step phrase .record role
  | .annotationTypeDeclaration =>
      some <$> lowerTypeDeclaration source step phrase .annotationType role
  | .fieldDeclaration | .constantDeclaration => lowerVariables source step phrase true role
  | .localVariableDeclaration => lowerVariables source step phrase false role
  | .methodDeclaration | .annotationElementDeclaration =>
      some <$> lowerMethod source step phrase .method role
  | .constructorDeclaration | .compactConstructorDeclaration =>
      some <$> lowerMethod source step phrase .constructor role
  | .enumConstant => some <$> lowerConstant source step phrase role
  | .block | .constructorBody => some <$> inScope (lowerParts step .block phrase role)
  | .expressionStatement =>
      some <$> lowerExpressionStatement step .expressionStatement phrase role
  | .returnStatement => some <$> lowerExpressionStatement step .return phrase role
  | .methodInvocation => some <$> lowerInvocation source step phrase role
  | .objectCreationExpression => some <$> lowerNew source step phrase role
  | .explicitConstructorInvocation => some <$> lowerConstructorCall source step phrase role
  | .fieldAccess => some <$> lowerFieldAccess source step phrase role
  | .identifier => some <$> lowerIdentifier source phrase role
  | .this => some <$> lowerThis phrase role
  | .super => some <$> lowerSuper phrase role
  | .stringLiteral | .characterLiteral | .integerLiteral | .floatingPointLiteral
  | .booleanLiteral | .nullLiteral => some <$> lowerLiteral source phrase role
  | .binaryExpression => some <$> lowerBinary source step phrase role
  | .unaryExpression => some <$> lowerUnary source step phrase role
  | .castExpression => some <$> lowerCast source step phrase role
  | .annotationMarker | .annotationWithArguments => some <$> lowerAnnotationUse source step phrase
  | .enhancedForStatement => some <$> lowerEnhancedFor source step phrase role
  | .catchFormalParameter => lowerCatchParameter source step phrase role
  | .catchClause | .forStatement | .tryWithResourcesStatement | .lambdaExpression
  | .switchBlockStatementGroup => some <$> inScope (lowerParts step .other phrase role)
  | _ => some <$> lowerParts step .other phrase role

/-- Lower a phrase nested at most to a depth. -/
def lower : Nat → Step
  | 0 => fun _ _ => return none
  | depth + 1 => lowerWith source (lower depth)

/-- Lower a package or import declaration to a node without children. -/
def lowerHeaderPart (kind : NodeKind) (phrase : Phrase) : Lower Unit := do
  let node ← leaf kind phrase .plain
  phrase.names.head?.forM (setName source node)

/-- Lower the parts of a whole source text. -/
def lowerUnit (root : Phrase) : Lower Unit :=
  root.namedParts.forM fun part =>
    match part.construct with
    | .packageDeclaration => lowerHeaderPart source .package part
    | .importDeclaration => lowerHeaderPart source .import part
    | _ => do
        let _ ← lower source part.height part .plain

/-- The three passes over a source text. -/
def lowerAll (root : Phrase) : Lower Unit := do
  declareTypes source root.height root none
  linkTypes source root
  lowerUnit source root

end Lower

namespace Lowering

/-- Lower a source text that was read as a phrase, over the bindings of its class path. -/
def ofPhrase (table : Table) (text : String) (root : Phrase) : Lowering :=
  let text := text.toList
  let source : Source := { text, header := Header.read text root }
  (StateT.run (Lower.lowerAll source root) { table, builder := .new root.span }).2

/-- Lower a source text over the bindings of its class path. -/
def ofText (table : Table) (text : String) : Lowering :=
  ofPhrase table text (parse text.toList)

end Lowering

end JavaInspect.Java
