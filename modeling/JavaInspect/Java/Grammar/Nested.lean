import JavaInspect.Java.Grammar.Cursor

/-!
# Recursion of the grammar

The constructs of the language contain each other. Each reader is written for
given readers of the constructs nested in it; tying them together is left to
the grammar as a whole, which bounds the depth of the nesting.
-/

namespace JavaInspect.Java

/-- The kinds of type bodies, which admit different members. -/
inductive BodyForm where
  | «class»
  | interface
  | annotationType
deriving DecidableEq, Repr, Inhabited

/-- Readers of the constructs that can nest. -/
structure Nested where
  annotationUse : Reader Phrase
  /-- A type, with or without annotations in front. -/
  type : Reader Phrase
  /-- An expression; the flag says whether it may begin with a lambda. -/
  expression : Bool → Reader Phrase
  /-- An operand, without increments and decrements behind it. -/
  operand : Reader Phrase
  /-- The value of an annotation element. -/
  elementValue : Reader Phrase
  /-- The initial value of a variable or array element. -/
  initializer : Reader Phrase
  recordPattern : Reader Phrase
  /-- A statement; an empty one leaves no phrase. -/
  statement : Reader (List Phrase)
  /-- A member of a type body; an empty one leaves no phrase. -/
  member : BodyForm → Reader (List Phrase)

namespace Nested

/-- The readers that fail, where the depth is used up. -/
def exhausted : Nested where
  annotationUse := failure
  type := failure
  expression := fun _ => failure
  operand := failure
  elementValue := failure
  initializer := failure
  recordPattern := failure
  statement := failure
  member := fun _ => failure

/-- An expression of any form. -/
def anyExpression (inner : Nested) : Reader Phrase := inner.expression true

end Nested

end JavaInspect.Java
