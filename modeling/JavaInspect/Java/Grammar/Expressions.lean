import JavaInspect.Java.Grammar.Operators
import JavaInspect.Java.Grammar.Types

/-!
# Expressions

An operand is a primary expression with what is selected from it, or a prefix
form; operands are joined by binary operators, loosest last. Where the words
ahead fit two forms, the readers below try them in the order in which the
language prefers them.
-/

namespace JavaInspect.Java.Grammar

open Reader

/-- An expression in parentheses. -/
def parenthesized (inner : Nested) : Reader Phrase :=
  phrase .parenthesizedExpression do
    return [← between "(" ")" inner.anyExpression]

/-- The arguments of a call. -/
def argumentList (inner : Nested) : Reader Phrase :=
  phrase .argumentList (between "(" ")" (listed "," inner.anyExpression))

/-- A switch with a semicolon behind it as a switch with an empty statement behind
it. -/
def splitSwitch (statement : Phrase) : Phrase :=
  match statement.construct, statement.parts with
  | .expressionStatement, [value] =>
      if value.construct == .switchExpression then value else statement
  | _, _ => statement

/-- Statements in a row. A switch with a semicolon behind it is one statement where
it comes first, and two anywhere else. -/
def inSequence : List (List Phrase) → List Phrase
  | [] => []
  | first :: rest => first ++ rest.flatten.map splitSwitch

/-- A block of statements. -/
def block (inner : Nested) : Reader Phrase :=
  phrase .block do
    return inSequence (← between "\x7b" "\x7d" (many inner.statement))

/-- The body of a class, record, enum constant or anonymous class. -/
def classBody (inner : Nested) : Reader Phrase :=
  phrase .classBody do
    return (← between "\x7b" "\x7d" (many (inner.member .class))).flatten

/-- The initial values of an array. -/
def arrayInitializer (inner : Nested) : Reader Phrase :=
  phrase .arrayInitializer do
    symbol "\x7b"
    let values ← listed "," inner.initializer
    let _ ← maybe (symbol ",")
    symbol "\x7d"
    return values

/-- The initial value of a variable. -/
def initializer (inner : Nested) : Reader Phrase := do
  if ← atSymbol "\x7b" then arrayInitializer inner else inner.anyExpression

/-- A literal. -/
def literal : Reader Phrase := do
  match ← peek? with
  | none => failure
  | some token =>
      match token.kind with
      | .integer => leaf .integerLiteral (skip 1)
      | .floating => leaf .floatingPointLiteral (skip 1)
      | .string => leaf .stringLiteral (skip 1)
      | .character => leaf .characterLiteral (skip 1)
      | .word =>
          match token.text with
          | "true" | "false" => leaf .booleanLiteral word
          | "null" => leaf .nullLiteral word
          | _ => failure
      | _ => failure

/-- Whether the parentheses at the front of the tokens are followed by an
arrow. -/
def arrowBehind (depth : Nat) : List Token → Bool
  | [] => false
  | token :: rest =>
      if token.isSymbol "(" then arrowBehind (depth + 1) rest
      else if token.isSymbol ")" then
        if depth ≤ 1 then rest.head?.any (·.isSymbol "->") else arrowBehind (depth - 1) rest
      else if depth = 0 then false
      else arrowBehind depth rest

/-- Whether a lambda begins here. -/
def atLambda : Reader Bool := do
  match (← get).ahead with
  | first :: second :: rest =>
      if first.kind == .word then return second.isSymbol "->"
      else if first.isSymbol "(" then return arrowBehind 0 (first :: second :: rest)
      else return false
  | _ => return false

/-- The parameters of a lambda: a name, names, or full parameters. -/
def lambdaParameters (inner : Nested) : Reader Phrase := do
  if ← nextIs (·.kind == .word) then identifier
  else
    (phrase .inferredParameters (between "(" ")" (separated "," identifier))) <|>
      formalParameters inner

/-- A lambda expression. -/
def lambda (inner : Nested) : Reader Phrase :=
  phrase .lambdaExpression do
    let parameters ← into .parameters (lambdaParameters inner)
    symbol "->"
    let body ← into .body (if ← atSymbol "\x7b" then block inner else inner.anyExpression)
    return [parameters, body]

/-- Whether a token can begin the operand of a cast to a class type. A sign
cannot, because the parentheses before it then hold an operand. -/
def beginsCastOperand (token : Token) : Bool :=
  match token.kind with
  | .symbol => ["(", "!", "~", "++", "--"].contains token.text
  | .word => token.text != "instanceof"
  | .lineComment | .blockComment => false
  | _ => true

/-- Whether a phrase is a type that could be read as an expression when it
stands in parentheses with a sign behind them. -/
def isPlainName (phrase : Phrase) : Bool := phrase.construct == .typeIdentifier

/-- The increments and decrements behind an operand. -/
def extendUpdate : Nat → Phrase → Reader Phrase
  | 0, operand => pure operand
  | count + 1, operand => do
      match ← maybe (symbol "++" <|> symbol "--") with
      | none => return operand
      | some _ => extendUpdate count (← closeFrom operand.span .updateExpression [operand])

/-- An operand with the increments and decrements behind it. -/
def withUpdates (bare : Reader Phrase) : Reader Phrase := do
  let operand ← bare
  extendUpdate (← get).left operand

/-- A cast. -/
def cast (inner : Nested) : Reader Phrase :=
  phrase .castExpression do
    symbol "("
    let types ← separated "&" (into .type inner.type)
    symbol ")"
    let signed ← nextIs fun token => token.isSymbol "+" || token.isSymbol "-"
    let begins ← nextIs beginsCastOperand
    require (begins || (signed && !(types.any isPlainName)))
    let value ← into .value (withUpdates inner.operand)
    return types ++ [value]

/-- The body of an anonymous class, if there is one. -/
def anonymousBody (inner : Nested) : Reader (List Phrase) := do
  if ← atSymbol "\x7b" then return [← classBody inner] else return []

/-- The creation of an object, up to the class body. -/
def objectCreation (inner : Nested) : Reader (List Phrase) := do
  keyword "new"
  let annotations ← many inner.annotationUse
  let typeArguments ← partsOf (typeArguments inner)
  let more ← many inner.annotationUse
  let type ← into .type (simpleType inner)
  let arguments ← into .arguments (argumentList inner)
  let body ← anonymousBody inner
  return annotations ++ typeArguments ++ more ++ type :: arguments :: body

/-- The length of one dimension of a new array. -/
def dimensionsExpression (inner : Nested) : Reader Phrase :=
  phrase .dimensionsExpression do
    let annotations ← many inner.annotationUse
    let length ← between "[" "]" inner.anyExpression
    return annotations ++ [length]

/-- The creation of an array. -/
def arrayCreation (inner : Nested) : Reader Phrase :=
  phrase .arrayCreationExpression do
    keyword "new"
    let annotations ← many inner.annotationUse
    let type ← into .type (simpleType inner)
    let sized := do
      let lengths ← atLeastOnce (dimensionsExpression inner)
      let rest ← partsOf (into .dimensions (dimensions inner))
      return lengths ++ rest
    let listed := do
      let brackets ← into .dimensions (dimensions inner)
      let values ← into .value (arrayInitializer inner)
      return [brackets, values]
    let parts ← listed <|> sized
    return annotations ++ type :: parts

/-- Whether the words ahead create an array: a type with a bracket behind it. -/
def atArrayCreation (inner : Nested) : Reader Bool :=
  wouldRead do
    keyword "new"
    let _ ← many inner.annotationUse
    let _ ← simpleType inner
    let _ ← many inner.annotationUse
    symbol "["

/-- The creation of an object or an array. -/
def creation (inner : Nested) : Reader Phrase := do
  if ← atArrayCreation inner then arrayCreation inner
  else phrase .objectCreationExpression (objectCreation inner)

/-- What follows the two colons of a method reference. -/
def methodReferenceTail (inner : Nested) (target : Phrase) : Reader Phrase := do
  symbol "::"
  let typeArguments ← partsOf (typeArguments inner)
  if ← atWord "new" then
    keyword "new"
    closeFrom target.span .methodReference (target :: typeArguments)
  else
    let name ← identifier
    closeFrom target.span .methodReference (target :: typeArguments ++ [name])

/-- A primary expression that begins with a type: a class literal, or a
reference to a method of a type that no expression could denote. -/
def typeFirst (inner : Nested) : Reader Phrase := do
  let type ← unannotatedType inner
  if ← atSymbol "::" then
    require (type.construct != .typeIdentifier && type.construct != .scopedTypeIdentifier)
    methodReferenceTail inner type
  else
    symbol "."
    keyword "class"
    closeFrom type.span .classLiteral [type]

/-- A call of a method by its name alone. -/
def ownCall (inner : Nested) : Reader Phrase :=
  phrase .methodInvocation do
    let name ← into .name identifier
    let arguments ← into .arguments (argumentList inner)
    return [name, arguments]

/-- A primary expression before anything is selected from it. -/
def primaryStart (inner : Nested) : Reader Phrase := do
  match ← peek? with
  | none => failure
  | some token =>
      if token.isSymbol "(" then parenthesized inner
      else if token.kind != .word then literal
      else
        match token.text with
        | "true" | "false" | "null" => literal
        | "this" => leaf .this word
        | "super" => leaf .super word
        | "new" => creation inner
        | _ => typeFirst inner <|> ownCall inner <|> identifier

/-- The parts behind the dot of a call or a field access on an object. -/
def memberTail (inner : Nested) (object : Phrase) (middle : List Phrase) : Reader Phrase := do
  let typeArguments ← partsOf (typeArguments inner)
  if ← atWord "this" then
    let name ← leaf .this word
    closeFrom object.span .fieldAccess (object.inSlot .object :: middle ++ [name.inSlot .field])
  else
    require !(← atWord "super")
    let name ← identifier
    if ← atSymbol "(" then
      let arguments ← into .arguments (argumentList inner)
      closeFrom object.span .methodInvocation
        (object.inSlot .object :: middle ++ typeArguments ++ [name.inSlot .name, arguments])
    else
      require typeArguments.isEmpty
      closeFrom object.span .fieldAccess (object.inSlot .object :: middle ++ [name.inSlot .field])

/-- What is selected by a dot behind a primary expression. -/
def selection (inner : Nested) (object : Phrase) : Reader Phrase := do
  symbol "."
  if ← nextIs (·.kind == .string) then
    let template ← literal
    closeFrom object.span .templateExpression [object, template]
  else if ← atWord "new" then
    let parts ← objectCreation inner
    closeFrom object.span .objectCreationExpression (object :: parts)
  else if ← atWord "super" then
    let outer ← leaf .super word
    symbol "."
    memberTail inner object [outer]
  else memberTail inner object []

/-- One selection from a primary expression: a member, an element, or a method
reference. -/
def suffix (inner : Nested) (object : Phrase) : Reader Phrase := do
  if ← atSymbol "." then selection inner object
  else if ← atSymbol "[" then
    let index ← between "[" "]" inner.anyExpression
    closeFrom object.span .arrayAccess [object, index]
  else methodReferenceTail inner object

/-- Everything that is selected from a primary expression. -/
def extendPrimary (inner : Nested) : Nat → Phrase → Reader Phrase
  | 0, object => pure object
  | count + 1, object => do
      match ← maybe (suffix inner object) with
      | none => return object
      | some object => extendPrimary inner count object

/-- A primary expression. -/
def primary (inner : Nested) : Reader Phrase := do
  let object ← primaryStart inner
  extendPrimary inner (← get).left object

/-- Whether a phrase can stand to the left of an assignment. -/
def isAssignable (phrase : Phrase) : Bool :=
  match phrase.construct with
  | .identifier | .fieldAccess | .arrayAccess => true
  | _ => false

/-- A primary expression, or an assignment to one. -/
def assignment (inner : Nested) : Reader Phrase := do
  let target ← primary inner
  if isAssignable target then
    match ← maybe (operator assignmentOperators) with
    | none => return target
    | some sign =>
        let value ← into .right inner.anyExpression
        closeFrom target.span .assignmentExpression [target.inSlot .left, sign, value]
  else return target

/-- The label of one or more cases. -/
def switchLabel (inner : Nested) : Reader Phrase :=
  phrase .switchLabel do
    if ← atWord "case" then
      keyword "case"
      let ends : Reader Unit := do
        require (← nextIs fun token =>
          token.isSymbol ":" || token.isSymbol "->" || token.isWord "when")
      let typePattern : Reader Phrase :=
        phrase .typePattern do
          let type ← unannotatedType inner
          let name ← identifier
          return [type, name]
      let pattern : Reader (List Phrase) := do
        let pattern ← phrase .pattern do
          return [← inner.recordPattern <|> typePattern]
        ends
        return [pattern]
      let values ← pattern <|> separated "," (inner.expression false)
      let guard ← partsOf (phrase .guard do
        keyword "when"
        return [← inner.expression false])
      return values ++ guard
    else
      keyword "default"
      return []

/-- A case with an arrow. -/
def switchRule (inner : Nested) : Reader Phrase :=
  phrase .switchRule do
    let label ← switchLabel inner
    symbol "->"
    let body ← inner.statement
    return label :: body

/-- A case with a colon and the statements behind it. A case that follows at once
makes a group of its own. -/
def switchGroup (inner : Nested) : Reader Phrase :=
  phrase .switchBlockStatementGroup do
    let label ← switchLabel inner
    symbol ":"
    let statements ← many do
      require !(← atWord "case")
      require !(← wouldRead (keyword "default" *> (symbol ":" <|> symbol "->")))
      inner.statement
    return label :: inSequence statements

/-- The cases of a switch. -/
def switchBlock (inner : Nested) : Reader Phrase :=
  phrase .switchBlock (between "\x7b" "\x7d" (many (switchRule inner <|> switchGroup inner)))

/-- A switch. -/
def switchExpression (inner : Nested) : Reader Phrase :=
  phrase .switchExpression do
    keyword "switch"
    let condition ← parenthesized inner
    let body ← into .body (switchBlock inner)
    return [condition, body]

/-- A component of a record pattern. -/
def recordComponent (inner : Nested) : Reader Phrase :=
  phrase .recordPatternComponent do
    let unnamed ← wouldRead (keyword "_" *> (symbol "," <|> symbol ")"))
    if unnamed then return [← leaf .underscorePattern word]
    else
      let type ← unannotatedType inner
      let name ← identifier
      return [type, name]

/-- A record pattern. -/
def recordPattern (inner : Nested) : Reader Phrase :=
  phrase .recordPattern do
    let plain ← wouldRead (word *> symbol "(")
    let type ← if plain then identifier else namedType inner
    require (plain || type.construct == .genericType)
    let body ← phrase .recordPatternBody (between "(" ")" (listed ","
      (inner.recordPattern <|> recordComponent inner)))
    return [type, body]

/-- An operand without an increment or decrement behind it. -/
def bareOperand (inner : Nested) (lambdas : Bool) : Reader Phrase := do
  if lambdas && (← atLambda) then lambda inner
  else
    match ← peek? with
    | none => failure
    | some token =>
        if token.isWord "switch" then switchExpression inner
        else if token.isSymbol "(" then cast inner <|> assignment inner
        else if token.isSymbol "++" || token.isSymbol "--" then
          phrase .updateExpression do
            skip 1
            return [← inner.operand]
        else if token.kind == .symbol && ["+", "-", "!", "~"].contains token.text then
          phrase .unaryExpression do
            let sign ← operator ["+", "-", "!", "~"]
            let operand ← into .operand inner.operand
            return [sign, operand]
        else assignment inner

/-- An operand. -/
def operand (inner : Nested) (lambdas : Bool) : Reader Phrase :=
  withUpdates (bareOperand inner lambdas)

/-- What follows a test of a value against a type. -/
def instanceTail (inner : Nested) (value : Phrase) : Reader Phrase := do
  keyword "instanceof"
  let _ ← maybe (keyword "final")
  let record ← maybe inner.recordPattern
  match record with
  | some pattern => closeFrom value.span .instanceofExpression [value, pattern]
  | none =>
      let type ← inner.type
      let name ← partsOf do
        require !((← atWord "instanceof") || (← atWord "when"))
        identifier
      closeFrom value.span .instanceofExpression (value :: type :: name)

/-- A chain of left-associative operators of one precedence. -/
def extendBinary (inner : Nested) (operators : List String) (operand : Reader Phrase) :
    Nat → Phrase → Reader Phrase
  | 0, left => pure left
  | count + 1, left => do
      match ← maybe (operator operators) with
      | some sign =>
          let right ← into .right operand
          let left ← closeFrom left.span .binaryExpression [left.inSlot .left, sign, right]
          extendBinary inner operators operand count left
      | none =>
          if operators.contains "<" && (← atWord "instanceof") then
            extendBinary inner operators operand count (← instanceTail inner left)
          else return left

/-- Operands joined by binary operators of the given precedences. -/
def binary (inner : Nested) (lambdas : Bool) : List (List String) → Reader Phrase
  | [] => operand inner lambdas
  | operators :: tighter => do
      let left ← binary inner lambdas tighter
      extendBinary inner operators (binary inner lambdas tighter) (← get).left left

/-- An expression; the flag says whether it may begin with a lambda. -/
def expression (inner : Nested) (lambdas : Bool) : Reader Phrase := do
  let condition ← binary inner lambdas binaryOperators
  if ← atSymbol "?" then
    symbol "?"
    let consequence ← inner.anyExpression
    symbol ":"
    let alternative ← inner.expression lambdas
    closeFrom condition.span .ternaryExpression [condition, consequence, alternative]
  else return condition

end JavaInspect.Java.Grammar
