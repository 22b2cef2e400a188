import JavaInspect.Java.Grammar.Declarations

/-!
# Statements
-/

namespace JavaInspect.Java.Grammar

open Reader

/-- A word that begins a phrase of the given construct, the parts behind it, and
a semicolon. -/
def keywordStatement (construct : Construct) (introduction : String)
    (parts : Reader (List Phrase)) : Reader Phrase :=
  phrase construct do
    keyword introduction
    let parts ← parts
    symbol ";"
    return parts

/-- The statement under a condition or loop. -/
def nestedStatement (inner : Nested) : Reader (List Phrase) := inner.statement

/-- A conditional. -/
def ifStatement (inner : Nested) : Reader Phrase :=
  phrase .ifStatement do
    keyword "if"
    let condition ← parenthesized inner
    let consequence ← nestedStatement inner
    let alternative ← (keyword "else" *> nestedStatement inner) <|> pure []
    return condition :: consequence ++ alternative

/-- A loop with its condition in front. -/
def whileStatement (inner : Nested) : Reader Phrase :=
  phrase .whileStatement do
    keyword "while"
    let condition ← parenthesized inner
    let body ← nestedStatement inner
    return condition :: body

/-- A loop with its condition at the end. -/
def doStatement (inner : Nested) : Reader Phrase :=
  phrase .doStatement do
    keyword "do"
    let body ← nestedStatement inner
    keyword "while"
    let condition ← parenthesized inner
    symbol ";"
    return body ++ [condition]

/-- A loop over a range or collection. -/
def enhancedForStatement (inner : Nested) : Reader Phrase :=
  phrase .enhancedForStatement do
    keyword "for"
    symbol "("
    let modifiers ← leadingModifiers inner
    let type ← into .type (unannotatedType inner)
    let name ← declaratorName inner
    symbol ":"
    let value ← into .value inner.anyExpression
    symbol ")"
    let body ← nestedStatement inner
    return modifiers ++ type :: name ++ value :: body.map (·.inSlot .body)

/-- A loop with an initialization, a condition and updates. -/
def forStatement (inner : Nested) : Reader Phrase :=
  phrase .forStatement do
    keyword "for"
    symbol "("
    let start ←
      if ← atVariableDeclaration inner then
        List.singleton <$> variableDeclaration inner .localVariableDeclaration
      else listed "," inner.anyExpression <* symbol ";"
    let condition ← if ← atSymbol ";" then pure [] else List.singleton <$> inner.anyExpression
    symbol ";"
    let updates ← if ← atSymbol ")" then pure [] else separated "," inner.anyExpression
    symbol ")"
    let body ← nestedStatement inner
    return start ++ condition ++ updates ++ body

/-- Whether a loop runs over a range or collection. -/
def atEnhancedFor (inner : Nested) : Reader Bool :=
  wouldRead do
    keyword "for"
    symbol "("
    let _ ← maybe (modifiers inner)
    let _ ← unannotatedType inner
    let _ ← declaratorName inner
    symbol ":"

/-- A resource of a try statement. -/
def resource (inner : Nested) : Reader Phrase :=
  phrase .resource do
    let declared := do
      let modifiers ← leadingModifiers inner
      let type ← into .type (unannotatedType inner)
      let name ← declaratorName inner
      symbol "="
      let value ← into .value inner.anyExpression
      return modifiers ++ type :: name ++ [value]
    declared <|> (List.singleton <$> primary inner)

/-- The resources of a try statement. -/
def resourceSpecification (inner : Nested) : Reader Phrase :=
  phrase .resourceSpecification do
    symbol "("
    let resources ← separated ";" (resource inner)
    let _ ← maybe (symbol ";")
    symbol ")"
    return resources

/-- The exceptions and the name of a handler. -/
def catchFormalParameter (inner : Nested) : Reader Phrase :=
  phrase .catchFormalParameter do
    let modifiers ← leadingModifiers inner
    let types ← phrase .catchType (separated "|" (unannotatedType inner))
    let name ← declaratorName inner
    return modifiers ++ types :: name

/-- A handler of a try statement. -/
def catchClause (inner : Nested) : Reader Phrase :=
  phrase .catchClause do
    keyword "catch"
    let parameter ← between "(" ")" (catchFormalParameter inner)
    let body ← into .body (block inner)
    return [parameter, body]

/-- The handlers and the final block of a try statement. -/
def tryTail (inner : Nested) : Reader (List Phrase) := do
  let handlers ← many (catchClause inner)
  let final ← partsOf (phrase .finallyClause do
    keyword "finally"
    return [← block inner])
  return handlers ++ final

/-- A try statement, with or without resources. -/
def tryStatement (inner : Nested) : Reader Phrase := do
  if ← wouldRead (keyword "try" *> symbol "(") then
    phrase .tryWithResourcesStatement do
      keyword "try"
      let resources ← resourceSpecification inner
      let body ← into .body (block inner)
      return resources :: body :: (← tryTail inner)
  else
    phrase .tryStatement do
      keyword "try"
      let body ← into .body (block inner)
      return body :: (← tryTail inner)

/-- A statement that runs under a lock. -/
def synchronizedStatement (inner : Nested) : Reader Phrase :=
  phrase .synchronizedStatement do
    keyword "synchronized"
    let lock ← parenthesized inner
    let body ← into .body (block inner)
    return [lock, body]

/-- An assertion with or without a message. -/
def assertStatement (inner : Nested) : Reader Phrase :=
  keywordStatement .assertStatement "assert" (separated ":" inner.anyExpression)

/-- A labeled statement. -/
def labeledStatement (inner : Nested) : Reader Phrase :=
  phrase .labeledStatement do
    let label ← identifier
    symbol ":"
    let body ← nestedStatement inner
    return label :: body

/-- An expression with a semicolon behind it. -/
def expressionStatement (inner : Nested) : Reader Phrase :=
  phrase .expressionStatement do
    let value ← inner.anyExpression
    symbol ";"
    return [value]

/-- A switch that stands alone, or an expression that begins with one. -/
def switchStatement (inner : Nested) : Reader Phrase :=
  let valued : Reader Phrase := do
    let value ← inner.anyExpression
    if value.construct == .switchExpression && !(← atSymbol ";") then return value
    else
      symbol ";"
      closeFrom value.span .expressionStatement [value]
  valued <|> switchExpression inner

/-- The value of a switch. -/
def yieldStatement (inner : Nested) : Reader Phrase :=
  keywordStatement .yieldStatement "yield" (List.singleton <$> inner.anyExpression)

/-- A statement that begins with no keyword of its own: a declaration, a labeled
statement, or an expression. -/
def openStatement (inner : Nested) : Reader Phrase := do
  match ← typeDeclaration? inner with
  | some declaration => declaration
  | none =>
      if ← wouldRead (word *> symbol ":") then labeledStatement inner
      else if ← atVariableDeclaration inner then
        variableDeclaration inner .localVariableDeclaration
      else if ← atMethod inner then methodDeclaration inner
      else expressionStatement inner

/-- Whether the words ahead declare a module. -/
def atModule (inner : Nested) : Reader Bool :=
  wouldRead do
    let _ ← many inner.annotationUse
    let _ ← maybe (keyword "open")
    keyword "module"
    let _ ← qualifiedName
    symbol "\x7b"

/-- Whether the words ahead declare the package. -/
def atPackage (inner : Nested) : Reader Bool :=
  wouldRead do
    let _ ← many inner.annotationUse
    keyword "package"

/-- A statement; an empty one leaves no phrase. -/
def statement (inner : Nested) : Reader (List Phrase) := do
  match ← peek? with
  | none => failure
  | some token =>
      if token.isSymbol ";" then
        symbol ";"
        return []
      else if token.isSymbol "\x7b" then return [← block inner]
      else if token.isSymbol "@" then
        if ← atPackage inner then return [← packageDeclaration inner]
        else if ← atModule inner then return [← moduleDeclaration inner]
        else return [← openStatement inner]
      else if token.isSymbol "<" then return [← methodDeclaration inner]
      else if token.kind != .word then return [← expressionStatement inner]
      else
        let one ←
          match token.text with
          | "if" => ifStatement inner
          | "while" => whileStatement inner
          | "do" => doStatement inner
          | "for" =>
              if ← atEnhancedFor inner then enhancedForStatement inner else forStatement inner
          | "try" => tryStatement inner
          | "return" => keywordStatement .returnStatement "return" (partsOf inner.anyExpression)
          | "throw" => keywordStatement .throwStatement "throw" (List.singleton <$> inner.anyExpression)
          | "break" => keywordStatement .breakStatement "break" (partsOf identifier)
          | "continue" => keywordStatement .continueStatement "continue" (partsOf identifier)
          | "assert" => assertStatement inner
          | "switch" => switchStatement inner
          | "yield" => yieldStatement inner <|> openStatement inner
          | "import" => importDeclaration
          | "package" => packageDeclaration inner
          | "synchronized" =>
              if ← wouldRead (keyword "synchronized" *> symbol "(") then
                synchronizedStatement inner
              else openStatement inner
          | "open" | "module" =>
              if ← atModule inner then moduleDeclaration inner else openStatement inner
          | _ => openStatement inner
        return [one]

end JavaInspect.Java.Grammar
