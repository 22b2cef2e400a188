/-!
# Grammatical constructs

The kinds of phrases of a source text, and the slots in which a phrase holds
some of its parts.
-/

namespace JavaInspect.Java

/-- The kind of a phrase. -/
inductive Construct where
  | program
  -- Headers and modules
  | packageDeclaration
  | importDeclaration
  | asterisk
  | moduleDeclaration
  | moduleBody
  | moduleDirective
  | requiresModifier
  -- Type declarations and their parts
  | classDeclaration
  | interfaceDeclaration
  | enumDeclaration
  | recordDeclaration
  | annotationTypeDeclaration
  | modifiers
  | typeParameters
  | typeParameter
  | typeBound
  | superclass
  | superInterfaces
  | extendsInterfaces
  | permits
  | typeList
  | classBody
  | interfaceBody
  | annotationTypeBody
  | enumBody
  | enumBodyDeclarations
  -- Members
  | fieldDeclaration
  | constantDeclaration
  | variableDeclarator
  | methodDeclaration
  | constructorDeclaration
  | compactConstructorDeclaration
  | annotationElementDeclaration
  | enumConstant
  | staticInitializer
  | formalParameters
  | formalParameter
  | spreadParameter
  | receiverParameter
  | throws
  | constructorBody
  | explicitConstructorInvocation
  -- Annotations
  | annotationMarker
  | annotationWithArguments
  | annotationArgumentList
  | elementValuePair
  | elementValueArrayInitializer
  -- Types
  | typeIdentifier
  | scopedTypeIdentifier
  | genericType
  | arrayType
  | integralType
  | floatingPointType
  | booleanType
  | voidType
  | annotatedType
  | typeArguments
  | wildcard
  | dimensions
  -- Names
  | identifier
  | scopedIdentifier
  | underscorePattern
  -- Statements
  | block
  | expressionStatement
  | labeledStatement
  | localVariableDeclaration
  | ifStatement
  | whileStatement
  | doStatement
  | forStatement
  | enhancedForStatement
  | assertStatement
  | breakStatement
  | continueStatement
  | returnStatement
  | yieldStatement
  | throwStatement
  | synchronizedStatement
  | tryStatement
  | tryWithResourcesStatement
  | resourceSpecification
  | resource
  | catchClause
  | catchFormalParameter
  | catchType
  | finallyClause
  -- Switches and patterns
  | switchExpression
  | switchBlock
  | switchBlockStatementGroup
  | switchRule
  | switchLabel
  | guard
  | pattern
  | typePattern
  | recordPattern
  | recordPatternBody
  | recordPatternComponent
  -- Expressions
  | parenthesizedExpression
  | assignmentExpression
  | binaryExpression
  | instanceofExpression
  | lambdaExpression
  | inferredParameters
  | ternaryExpression
  | updateExpression
  | unaryExpression
  | castExpression
  | methodInvocation
  | argumentList
  | objectCreationExpression
  | fieldAccess
  | arrayAccess
  | methodReference
  | arrayCreationExpression
  | dimensionsExpression
  | arrayInitializer
  | classLiteral
  | templateExpression
  | this
  | super
  -- Literals
  | integerLiteral
  | floatingPointLiteral
  | stringLiteral
  | characterLiteral
  | booleanLiteral
  | nullLiteral
  -- Everything else
  | comment
  /-- A keyword or operator that the grammar does not name. -/
  | token
deriving DecidableEq, Repr, Inhabited

namespace Construct

/-- Whether the construct counts among the named parts of a phrase. -/
def isNamed (construct : Construct) : Bool := construct != .token

/-- Types and the lists around them, which leave no trace in the syntax tree. -/
def isTypePart : Construct → Bool
  | .typeIdentifier | .scopedTypeIdentifier | .genericType | .arrayType | .integralType
  | .floatingPointType | .booleanType | .voidType | .typeArguments | .typeParameters
  | .dimensions | .annotatedType => true
  | _ => false

/-- Annotations with and without arguments. -/
def isAnnotationUse : Construct → Bool
  | .annotationMarker | .annotationWithArguments => true
  | _ => false

end Construct

/-- The place that a part takes in the phrase around it. -/
inductive Slot where
  | name
  | type
  | body
  | value
  | superclass
  | typeParameters
  | parameters
  | arguments
  | dimensions
  | element
  | declarator
  | object
  | constructor
  | field
  | operator
  | operand
  | left
  | right
deriving DecidableEq, Repr, Inhabited

end JavaInspect.Java
