import JavaInspect.Java.Grammar.Nested

/-!
# Names, annotations, types and parameters
-/

namespace JavaInspect.Java.Grammar

open Reader

/-- Extend a name by further segments. -/
def extendName (start : Span) : Nat → Phrase → Reader Phrase
  | 0, name => pure name
  | count + 1, name => do
      match ← maybe (symbol "." *> identifier) with
      | none => return name
      | some segment =>
          let name ← closeFrom start .scopedIdentifier [name, segment.inSlot .name]
          extendName start count name

/-- A simple or dotted name. -/
def qualifiedName : Reader Phrase := do
  let first ← identifier
  extendName first.span (← get).left first

/-- An element and its value in an annotation. -/
def elementValuePair (inner : Nested) : Reader Phrase :=
  phrase .elementValuePair do
    let key ← identifier
    symbol "="
    let value ← into .value inner.elementValue
    return [key, value]

/-- The arguments of an annotation: pairs, or a single value. -/
def annotationArguments (inner : Nested) : Reader Phrase :=
  phrase .annotationArgumentList do
    symbol "("
    let pairs ← wouldRead (word *> symbol "=")
    let parts ←
      if pairs then separated "," (elementValuePair inner)
      else partsOf inner.elementValue
    symbol ")"
    return parts

/-- An annotation with or without arguments. -/
def annotationUse (inner : Nested) : Reader Phrase := do
  let start ← lookAhead (satisfy (·.isSymbol "@"))
  symbol "@"
  require !(← atWord "interface")
  let name ← into .name qualifiedName
  if ← atSymbol "(" then
    let arguments ← into .arguments (annotationArguments inner)
    closeFrom start.span .annotationWithArguments [name, arguments]
  else closeFrom start.span .annotationMarker [name]

/-- The value of an annotation element. -/
def elementValue (inner : Nested) : Reader Phrase := do
  if ← atSymbol "\x7b" then
    phrase .elementValueArrayInitializer do
      symbol "\x7b"
      let values ← listed "," inner.elementValue
      let _ ← maybe (symbol ",")
      symbol "\x7d"
      return values
  else if ← atSymbol "@" then inner.annotationUse
  else inner.anyExpression

/-- A primitive type or the absent result. -/
def primitiveType : Reader Phrase := do
  match ← peek? with
  | none => failure
  | some token =>
      require (token.kind == .word)
      match token.text with
      | "byte" | "short" | "int" | "long" | "char" => leaf .integralType word
      | "float" | "double" => leaf .floatingPointType word
      | "boolean" => leaf .booleanType word
      | "void" => leaf .voidType word
      | _ => failure

/-- Words that cannot name a type. -/
def nonTypeWords : List String :=
  ["new", "this", "super", "class", "switch", "true", "false", "null", "instanceof", "return",
    "throw", "case", "yield", "record", "open", "module", "with", "sealed"]

/-- One segment of the name of a type. -/
def typeIdentifier : Reader Phrase :=
  leaf .typeIdentifier (satisfy fun token =>
    token.kind == .word && !nonTypeWords.contains token.text)

/-- A wildcard type argument. -/
def wildcard (inner : Nested) : Reader Phrase :=
  phrase .wildcard do
    let annotations ← many inner.annotationUse
    symbol "?"
    let bound ← partsOf ((keyword "extends" <|> keyword "super") *> inner.type)
    return annotations ++ bound

/-- Type arguments in angle brackets; there may be none. -/
def typeArguments (inner : Nested) : Reader Phrase :=
  phrase .typeArguments (between "<" ">" (listed "," (wildcard inner <|> inner.type)))

/-- A type name with the type arguments behind it, if there are any. -/
def withArguments (inner : Nested) (start : Span) (name : Phrase) : Reader Phrase := do
  match ← maybe (typeArguments inner) with
  | none => return name
  | some arguments => closeFrom start .genericType [name, arguments]

/-- Extend a type name by further segments. -/
def extendType (inner : Nested) (start : Span) : Nat → Phrase → Reader Phrase
  | 0, type => pure type
  | count + 1, type => do
      let segment ← maybe do
        symbol "."
        let annotations ← many inner.annotationUse
        let name ← typeIdentifier
        return annotations ++ [name]
      match segment with
      | none => return type
      | some parts =>
          let type ← closeFrom start .scopedTypeIdentifier (type :: parts)
          let type ← withArguments inner start type
          extendType inner start count type

/-- A class or interface type. -/
def namedType (inner : Nested) : Reader Phrase := do
  let first ← typeIdentifier
  let type ← withArguments inner first.span first
  extendType inner first.span (← get).left type

/-- A type without array brackets. -/
def simpleType (inner : Nested) : Reader Phrase :=
  primitiveType <|> namedType inner

/-- One or more pairs of array brackets. -/
def dimensions (inner : Nested) : Reader Phrase :=
  phrase .dimensions do
    let groups ← atLeastOnce do
      let annotations ← many inner.annotationUse
      symbol "["
      symbol "]"
      return annotations
    return groups.flatten

/-- A type without annotations in front. -/
def unannotatedType (inner : Nested) : Reader Phrase := do
  let element ← simpleType inner
  match ← maybe (dimensions inner) with
  | none => return element
  | some brackets =>
      closeFrom element.span .arrayType [element.inSlot .element, brackets.inSlot .dimensions]

/-- A type, with or without annotations in front. -/
def type (inner : Nested) : Reader Phrase := do
  if ← atSymbol "@" then
    phrase .annotatedType do
      let annotations ← atLeastOnce inner.annotationUse
      let type ← unannotatedType inner
      return annotations ++ [type]
  else unannotatedType inner

/-- A list of types. -/
def typeList (inner : Nested) : Reader Phrase :=
  phrase .typeList (separated "," inner.type)

/-- The keywords that can modify a declaration wherever they stand. -/
def modifierWords : List String :=
  ["public", "protected", "private", "abstract", "static", "final", "strictfp", "default",
    "synchronized", "native", "transient", "volatile"]

/-- The words that can follow a modifier that is no keyword. -/
def afterSealedWords : List String :=
  ["class", "interface"] ++ modifierWords

/-- A keyword modifier. A brace or parenthesis behind it makes it something
else. -/
def modifierKeyword : Reader Phrase := do
  let next ← peekSecond?
  require !(next.any fun token =>
    token.isSymbol "\x7b" || token.isSymbol "(" || token.isSymbol ":" || token.isSymbol "->")
  tokenPart fun token => token.kind == .word && modifierWords.contains token.text

/-- A modifier that opens or closes a hierarchy. -/
def sealedModifier : Reader Phrase := do
  let part ←
    phrase .token do
      let _ ← maybe do
        keyword "non"
        symbol "-"
      keyword "sealed"
      return []
  require (← nextIs fun token => token.kind == .word && afterSealedWords.contains token.text)
  return part

/-- The modifiers in front of a declaration. -/
def modifiers (inner : Nested) : Reader Phrase :=
  phrase .modifiers (atLeastOnce (inner.annotationUse <|> modifierKeyword <|> sealedModifier))

/-- A type parameter with its bounds. -/
def typeParameter (inner : Nested) : Reader Phrase :=
  phrase .typeParameter do
    let annotations ← many inner.annotationUse
    let name ← leaf .typeIdentifier word
    let bound ← partsOf (phrase .typeBound do
      keyword "extends"
      separated "&" inner.type)
    return annotations ++ name :: bound

/-- Type parameters in angle brackets. -/
def typeParameters (inner : Nested) : Reader Phrase :=
  phrase .typeParameters (between "<" ">" (separated "," (typeParameter inner)))

/-- The name of a variable with the array brackets behind it. -/
def declaratorName (inner : Nested) : Reader (List Phrase) := do
  let name ← into .name variableName
  let brackets ← partsOf (into .dimensions (dimensions inner))
  return name :: brackets

/-- A variable of a declaration with its initial value. -/
def variableDeclarator (inner : Nested) : Reader Phrase :=
  phrase .variableDeclarator do
    let name ← declaratorName inner
    let value ← partsOf (symbol "=" *> into .value inner.initializer)
    return name ++ value

/-- An ordinary parameter. -/
def formalParameter (inner : Nested) : Reader Phrase :=
  phrase .formalParameter do
    let modifiers ← partsOf (modifiers inner)
    let type ← into .type (unannotatedType inner)
    let name ← declaratorName inner
    return modifiers ++ type :: name

/-- A last parameter that takes any number of arguments. -/
def spreadParameter (inner : Nested) : Reader Phrase :=
  phrase .spreadParameter do
    let modifiers ← partsOf (modifiers inner)
    let type ← unannotatedType inner
    symbol "..."
    let annotations ← many inner.annotationUse
    let declarator ← variableDeclarator inner
    return modifiers ++ type :: annotations ++ [declarator]

/-- A parameter that stands for the receiver of the call. -/
def receiverParameter (inner : Nested) : Reader Phrase :=
  phrase .receiverParameter do
    let annotations ← many inner.annotationUse
    let type ← unannotatedType inner
    let qualifiers ← many do
      let name ← identifier
      symbol "."
      return name
    let receiver ← leaf .this (keyword "this")
    return annotations ++ type :: qualifiers ++ [receiver]

/-- Parameters in parentheses; that of the receiver, if it is there, comes first. -/
def formalParameters (inner : Nested) : Reader Phrase :=
  phrase .formalParameters (between "(" ")" do
    let receiver ← partsOf (receiverParameter inner <* (symbol "," <|> lookAhead (symbol ")")))
    let parameters ← listed "," (spreadParameter inner <|> formalParameter inner)
    return receiver ++ parameters)

end JavaInspect.Java.Grammar
