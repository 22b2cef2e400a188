/-!
# Node kinds, modifiers and roles

The vocabulary of the syntax tree. Detectors subscribe to kinds; roles tell
apart the children of a node that their kind does not identify.
-/

namespace JavaInspect

/-- The category of a syntax node. -/
inductive NodeKind where
  | compilationUnit
  | package
  | «import»
  | «class»
  | interface
  | enum
  | record
  | annotationType
  | method
  | constructor
  /-- The parameter list of a method, constructor or record. -/
  | parameters
  | parameter
  /-- A field, enum constant or local variable. -/
  | variable
  | annotationUse
  | block
  | expressionStatement
  | return
  | methodInvocation
  /-- The argument list of an invocation, instance creation or annotation. -/
  | arguments
  | newClass
  | memberSelect
  | identifier
  | this
  | super
  | literal
  | binary
  | unary
  /-- An explicit call of another constructor of the class or its superclass. -/
  | constructorCall
  | other
deriving DecidableEq, Repr, Inhabited

namespace NodeKind

/-- Every kind, in the order of their declaration. -/
def all : List NodeKind :=
  [.compilationUnit, .package, .import, .class, .interface, .enum, .record,
    .annotationType, .method, .constructor, .parameters, .parameter, .variable,
    .annotationUse, .block, .expressionStatement, .return, .methodInvocation,
    .arguments, .newClass, .memberSelect, .identifier, .this, .super, .literal,
    .binary, .unary, .constructorCall, .other]

/-- The name a kind is shown by. -/
def label : NodeKind → String
  | .compilationUnit => "compilation_unit"
  | .package => "package"
  | .import => "import"
  | .class => "class"
  | .interface => "interface"
  | .enum => "enum"
  | .record => "record"
  | .annotationType => "annotation_type"
  | .method => "method"
  | .constructor => "constructor"
  | .parameters => "parameters"
  | .parameter => "parameter"
  | .variable => "variable"
  | .annotationUse => "annotation"
  | .block => "block"
  | .expressionStatement => "expression_statement"
  | .return => "return"
  | .methodInvocation => "method_invocation"
  | .arguments => "arguments"
  | .newClass => "new_class"
  | .memberSelect => "member_select"
  | .identifier => "identifier"
  | .this => "this"
  | .super => "super"
  | .literal => "literal"
  | .binary => "binary"
  | .unary => "unary"
  | .constructorCall => "constructor_call"
  | .other => "other"

/-- The kind with the given name. -/
def ofLabel? (label : String) : Option NodeKind :=
  all.find? (·.label == label)

/-- Class, interface, enum, record and annotation type declarations. -/
def isTypeDeclaration : NodeKind → Bool
  | .class | .interface | .enum | .record | .annotationType => true
  | _ => false

/-- Methods and constructors. -/
def isMethodLike : NodeKind → Bool
  | .method | .constructor => true
  | _ => false

end NodeKind

/-- A keyword modifier of a declaration. -/
inductive Modifier where
  | «public»
  | «protected»
  | «private»
  | static
  | final
  | abstract
  | default
  | synchronized
  | native
  | transient
  | volatile
  | strictfp
deriving DecidableEq, Repr, Inhabited

namespace Modifier

/-- Every modifier. -/
def all : List Modifier :=
  [.«public», .«protected», .«private», .static, .final, .abstract, .default,
    .synchronized, .native, .transient, .volatile, .strictfp]

/-- The keyword of a modifier. -/
def keyword : Modifier → String
  | .«public» => "public"
  | .«protected» => "protected"
  | .«private» => "private"
  | .static => "static"
  | .final => "final"
  | .abstract => "abstract"
  | .default => "default"
  | .synchronized => "synchronized"
  | .native => "native"
  | .transient => "transient"
  | .volatile => "volatile"
  | .strictfp => "strictfp"

/-- The modifier written as the given keyword. -/
def ofKeyword? (keyword : String) : Option Modifier :=
  all.find? (·.keyword == keyword)

end Modifier

/-- The position of a child inside its parent. -/
inductive Role where
  | plain
  /-- Member of a type body. -/
  | member
  /-- Body block of a method, constructor or lambda. -/
  | body
  /-- Receiver of an invocation or member select. -/
  | receiver
  /-- Initializer of a variable. -/
  | initializer
  /-- Operand of a binary or unary expression. -/
  | operand
  /-- Expression of a statement. -/
  | expression
deriving DecidableEq, Repr, Inhabited

namespace Role

/-- Every role. -/
def all : List Role :=
  [.plain, .member, .body, .receiver, .initializer, .operand, .expression]

/-- The name a role is shown by. -/
def label : Role → String
  | .plain => "plain"
  | .member => "member"
  | .body => "body"
  | .receiver => "receiver"
  | .initializer => "initializer"
  | .operand => "operand"
  | .expression => "expression"

/-- The role with the given name. -/
def ofLabel? (label : String) : Option Role :=
  all.find? (·.label == label)

end Role

end JavaInspect
