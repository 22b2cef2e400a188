import JavaInspect.Java.Grammar.Expressions

/-!
# Declarations

Types, their members, and the headers and modules around them.
-/

namespace JavaInspect.Java.Grammar

open Reader

/-- The modifiers of a declaration, if there are any. -/
def leadingModifiers (inner : Nested) : Reader (List Phrase) := partsOf (modifiers inner)

/-- Type parameters in their slot, if there are any. -/
def leadingTypeParameters (inner : Nested) : Reader (List Phrase) :=
  partsOf (into .typeParameters (typeParameters inner))

/-- A clause of types introduced by a keyword. -/
def typeClause (inner : Nested) (construct : Construct) (introduction : String) :
    Reader (List Phrase) :=
  partsOf (phrase construct do
    keyword introduction
    return [← typeList inner])

/-- The superclass of a class, if it names one. -/
def superclassClause (inner : Nested) : Reader (List Phrase) :=
  partsOf (into .superclass (phrase .superclass do
    keyword "extends"
    return [← inner.type]))

/-- The exceptions that a method declares, if it declares any. -/
def throwsClause (inner : Nested) : Reader (List Phrase) :=
  partsOf (phrase .throws do
    keyword "throws"
    separated "," inner.type)

/-- A body with members between braces. -/
def memberBody (inner : Nested) (construct : Construct) (form : BodyForm) : Reader Phrase :=
  phrase construct do
    return (← between "\x7b" "\x7d" (many (inner.member form))).flatten

/-- A class. -/
def classDeclaration (inner : Nested) : Reader Phrase :=
  phrase .classDeclaration do
    let modifiers ← leadingModifiers inner
    keyword "class"
    let name ← into .name identifier
    let parameters ← leadingTypeParameters inner
    let superclass ← superclassClause inner
    let interfaces ← typeClause inner .superInterfaces "implements"
    let permits ← typeClause inner .permits "permits"
    let body ← into .body (classBody inner)
    return modifiers ++ name :: parameters ++ superclass ++ interfaces ++ permits ++ [body]

/-- An interface. -/
def interfaceDeclaration (inner : Nested) : Reader Phrase :=
  phrase .interfaceDeclaration do
    let modifiers ← leadingModifiers inner
    keyword "interface"
    let name ← into .name identifier
    let parameters ← leadingTypeParameters inner
    let interfaces ← typeClause inner .extendsInterfaces "extends"
    let permits ← typeClause inner .permits "permits"
    let body ← into .body (memberBody inner .interfaceBody .interface)
    return modifiers ++ name :: parameters ++ interfaces ++ permits ++ [body]

/-- A record. -/
def recordDeclaration (inner : Nested) : Reader Phrase :=
  phrase .recordDeclaration do
    let modifiers ← leadingModifiers inner
    keyword "record"
    let name ← into .name identifier
    let parameters ← leadingTypeParameters inner
    let components ← into .parameters (formalParameters inner)
    let interfaces ← typeClause inner .superInterfaces "implements"
    let body ← into .body (classBody inner)
    return modifiers ++ name :: parameters ++ components :: interfaces ++ [body]

/-- An annotation type. -/
def annotationTypeDeclaration (inner : Nested) : Reader Phrase :=
  phrase .annotationTypeDeclaration do
    let modifiers ← leadingModifiers inner
    symbol "@"
    keyword "interface"
    let name ← into .name identifier
    let body ← into .body (memberBody inner .annotationTypeBody .annotationType)
    return modifiers ++ [name, body]

/-- A constant of an enum. -/
def enumConstant (inner : Nested) : Reader Phrase :=
  phrase .enumConstant do
    let modifiers ← leadingModifiers inner
    let name ← into .name identifier
    let arguments ← partsOf (into .arguments (argumentList inner))
    let body ← partsOf (into .body (classBody inner))
    return modifiers ++ name :: arguments ++ body

/-- The members of an enum behind its constants. -/
def enumBodyDeclarations (inner : Nested) : Reader Phrase :=
  phrase .enumBodyDeclarations do
    symbol ";"
    return (← many (inner.member .class)).flatten

/-- The body of an enum. -/
def enumBody (inner : Nested) : Reader Phrase :=
  phrase .enumBody do
    symbol "\x7b"
    let constants ← listed "," (enumConstant inner)
    let _ ← maybe (symbol ",")
    let declarations ← partsOf (enumBodyDeclarations inner)
    symbol "\x7d"
    return constants ++ declarations

/-- An enum. -/
def enumDeclaration (inner : Nested) : Reader Phrase :=
  phrase .enumDeclaration do
    let modifiers ← leadingModifiers inner
    keyword "enum"
    let name ← into .name identifier
    let interfaces ← typeClause inner .superInterfaces "implements"
    let body ← into .body (enumBody inner)
    return modifiers ++ name :: interfaces ++ [body]

/-- The reader of the type declaration that the words behind the modifiers
announce, if they announce one. -/
def typeDeclaration? (inner : Nested) : Reader (Option (Reader Phrase)) :=
  lookAhead do
    let _ ← maybe (modifiers inner)
    if ← atWord "class" then return some (classDeclaration inner)
    else if ← atWord "interface" then return some (interfaceDeclaration inner)
    else if ← atWord "enum" then return some (enumDeclaration inner)
    else if ← atSymbol "@" then return some (annotationTypeDeclaration inner)
    else if ← wouldRead (keyword "record" *> word *> (symbol "(" <|> symbol "<")) then
      return some (recordDeclaration inner)
    else return none

/-- The variables of a declaration, up to the semicolon. -/
def declarators (inner : Nested) : Reader (List Phrase) := do
  let found ← separated "," (into .declarator (variableDeclarator inner))
  symbol ";"
  return found

/-- A declaration of variables as a phrase of the given construct. -/
def variableDeclaration (inner : Nested) (construct : Construct) : Reader Phrase :=
  phrase construct do
    let modifiers ← leadingModifiers inner
    let type ← into .type (unannotatedType inner)
    let found ← declarators inner
    return modifiers ++ type :: found

/-- Whether the words ahead declare variables: a type and a name, with what can
follow the name. -/
def atVariableDeclaration (inner : Nested) : Reader Bool :=
  wouldRead do
    let _ ← maybe (modifiers inner)
    let _ ← unannotatedType inner
    let _ ← declaratorName inner
    symbol "=" <|> symbol ";" <|> symbol ","

/-- A method. -/
def methodDeclaration (inner : Nested) : Reader Phrase :=
  phrase .methodDeclaration do
    let modifiers ← leadingModifiers inner
    let parameters ← leadingTypeParameters inner
    let annotations ← many inner.annotationUse
    let type ← into .type (unannotatedType inner)
    let name ← into .name identifier
    let formals ← into .parameters (formalParameters inner)
    let brackets ← partsOf (into .dimensions (dimensions inner))
    let thrown ← throwsClause inner
    let body ← partsOf (into .body (block inner))
    if body.isEmpty then symbol ";"
    return modifiers ++ parameters ++ annotations ++ type :: name :: formals :: brackets ++
      thrown ++ body

/-- Whether the words ahead declare a method: a type and a name with a
parenthesis behind it. -/
def atMethod (inner : Nested) : Reader Bool :=
  wouldRead do
    let _ ← maybe (modifiers inner)
    let _ ← maybe (typeParameters inner)
    let _ ← many inner.annotationUse
    let _ ← unannotatedType inner
    let _ ← word
    symbol "("

/-- An explicit call of another constructor at the start of a constructor. -/
def explicitConstructorInvocation (inner : Nested) : Reader Phrase := do
  let target : Reader Phrase := leaf .this (keyword "this") <|> leaf .super (keyword "super")
  let own : Reader (List Phrase) := do
    let typeArguments ← partsOf (typeArguments inner)
    let target ← into .constructor target
    let arguments ← into .arguments (argumentList inner)
    return typeArguments ++ [target, arguments]
  let outer : Reader (List Phrase) := do
    let object ← into .object (primary inner)
    symbol "."
    let typeArguments ← partsOf (typeArguments inner)
    let target ← into .constructor (leaf .super (keyword "super"))
    let arguments ← into .arguments (argumentList inner)
    return object :: typeArguments ++ [target, arguments]
  phrase .explicitConstructorInvocation ((own <|> outer) <* symbol ";")

/-- The body of a constructor. -/
def constructorBody (inner : Nested) : Reader Phrase :=
  phrase .constructorBody do
    symbol "\x7b"
    let call ← partsOf (explicitConstructorInvocation inner)
    let statements ← many inner.statement
    symbol "\x7d"
    return call ++ inSequence statements

/-- A constructor. -/
def constructorDeclaration (inner : Nested) : Reader Phrase :=
  phrase .constructorDeclaration do
    let modifiers ← leadingModifiers inner
    let parameters ← leadingTypeParameters inner
    let name ← into .name identifier
    let formals ← into .parameters (formalParameters inner)
    let thrown ← throwsClause inner
    let body ← into .body (constructorBody inner)
    return modifiers ++ parameters ++ name :: formals :: thrown ++ [body]

/-- A constructor of a record without parameters of its own. -/
def compactConstructorDeclaration (inner : Nested) : Reader Phrase :=
  phrase .compactConstructorDeclaration do
    let modifiers ← leadingModifiers inner
    let name ← into .name identifier
    let body ← into .body (block inner)
    return modifiers ++ [name, body]

/-- An element of an annotation type. -/
def annotationElementDeclaration (inner : Nested) : Reader Phrase :=
  phrase .annotationElementDeclaration do
    let modifiers ← leadingModifiers inner
    let type ← into .type (unannotatedType inner)
    let name ← into .name identifier
    symbol "("
    symbol ")"
    let brackets ← partsOf (into .dimensions (dimensions inner))
    let value ← partsOf (keyword "default" *> into .value inner.elementValue)
    symbol ";"
    return modifiers ++ type :: name :: brackets ++ value

/-- A member of a class body that declares no type. -/
def classMember (inner : Nested) : Reader Phrase := do
  if ← atSymbol "\x7b" then block inner
  else if ← wouldRead (keyword "static" *> symbol "\x7b") then
    phrase .staticInitializer do
      keyword "static"
      return [← block inner]
  else
    let afterName (text : String) : Reader Bool := wouldRead do
      let _ ← maybe (modifiers inner)
      let _ ← maybe (typeParameters inner)
      let _ ← word
      symbol text
    if ← afterName "(" then constructorDeclaration inner
    else if ← afterName "\x7b" then compactConstructorDeclaration inner
    else if ← atMethod inner then methodDeclaration inner
    else variableDeclaration inner .fieldDeclaration

/-- A member of a type body. -/
def member (inner : Nested) (form : BodyForm) : Reader (List Phrase) := do
  if ← atSymbol ";" then
    symbol ";"
    return []
  else
    match ← typeDeclaration? inner with
    | some declaration => return [← declaration]
    | none =>
        match form with
        | .class => return [← classMember inner]
        | .interface =>
            if ← atMethod inner then return [← methodDeclaration inner]
            else return [← variableDeclaration inner .constantDeclaration]
        | .annotationType =>
            if ← atMethod inner then return [← annotationElementDeclaration inner]
            else return [← variableDeclaration inner .constantDeclaration]

/-- The package of a source text. -/
def packageDeclaration (inner : Nested) : Reader Phrase :=
  phrase .packageDeclaration do
    let annotations ← many inner.annotationUse
    keyword "package"
    let name ← qualifiedName
    symbol ";"
    return annotations ++ [name]

/-- An import. -/
def importDeclaration : Reader Phrase :=
  phrase .importDeclaration do
    keyword "import"
    let static ← partsOf (tokenPart (·.isWord "static"))
    let name ← qualifiedName
    let asterisk ← partsOf (symbol "." *> leaf .asterisk (symbol "*"))
    symbol ";"
    return static ++ name :: asterisk

/-- Names behind a keyword, separated by commas; none without the keyword. -/
def namesBehind (introduction : String) : Reader (List Phrase) :=
  (keyword introduction *> separated "," qualifiedName) <|> pure []

/-- A modifier of a required module. -/
def requiresModifier : Reader Phrase :=
  leaf .requiresModifier do
    let _ ← satisfy fun token => token.isWord "transitive" || token.isWord "static"
    require !(← atSymbol ";")

/-- The parts of a directive of a module. -/
def directiveParts : Reader (List Phrase) := do
  if ← atWord "requires" then
    keyword "requires"
    let modifiers ← many requiresModifier
    return modifiers ++ [← qualifiedName]
  else if ← atWord "uses" then
    keyword "uses"
    return [← qualifiedName]
  else if ← atWord "provides" then
    keyword "provides"
    let service ← qualifiedName
    return service :: (← namesBehind "with")
  else
    keyword "exports" <|> keyword "opens"
    let package ← qualifiedName
    return package :: (← namesBehind "to")

/-- A directive of a module. -/
def moduleDirective : Reader Phrase :=
  phrase .moduleDirective do
    let parts ← directiveParts
    symbol ";"
    return parts

/-- A module. -/
def moduleDeclaration (inner : Nested) : Reader Phrase :=
  phrase .moduleDeclaration do
    let annotations ← many inner.annotationUse
    let _ ← maybe (keyword "open")
    keyword "module"
    let name ← into .name qualifiedName
    let body ← into .body (phrase .moduleBody (between "\x7b" "\x7d" (many moduleDirective)))
    return annotations ++ [name, body]

end JavaInspect.Java.Grammar
