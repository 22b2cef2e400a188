import JavaInspect.Java.Grammar.Statements
import JavaInspect.Java.Lexer

/-!
# Reading a source text

The grammar ties its readers together. Between two readers of the same construct
that are nested in each other at least one token is read, and only a few
constructs can begin at the same token, so a multiple of the number of tokens
bounds the depth.
-/

namespace JavaInspect.Java

namespace Grammar

/-- The readers for constructs nested up to a depth. -/
def nested : Nat → Nested
  | 0 => .exhausted
  | depth + 1 =>
      { annotationUse := fun cursor => annotationUse (nested depth) cursor
        type := fun cursor => type (nested depth) cursor
        expression := fun lambdas cursor => expression (nested depth) lambdas cursor
        operand := fun cursor => bareOperand (nested depth) true cursor
        elementValue := fun cursor => elementValue (nested depth) cursor
        initializer := fun cursor => initializer (nested depth) cursor
        recordPattern := fun cursor => recordPattern (nested depth) cursor
        statement := fun cursor => statement (nested depth) cursor
        member := fun form cursor => member (nested depth) form cursor }

/-- The statements of a whole source text. -/
def statements (tokens : List Token) : List Phrase :=
  let inner := nested (4 * tokens.length + 8)
  match (Reader.many inner.statement).run { ahead := tokens } with
  | some (groups, _) => inSequence groups
  | none => []

end Grammar

/-- The phrase of a whole source text. It begins at the first token or comment
and ends at the end of the text. -/
def parse (text : List Char) : Phrase :=
  let tokens := tokenize text
  let stop := endPlace text
  let start := (tokens.head?.map (·.span)).getD (stop.spanTo stop)
  let span := Reader.coverTo start (stop.spanTo stop)
  let statements := Grammar.statements (tokens.filter (!·.isComment))
  let program := Phrase.node 0 .program none span statements
  let comments := (tokens.filter (·.isComment)).map Phrase.ofComment
  (comments.foldl (fun phrase comment => Phrase.insertComment comment phrase) program).numbered

end JavaInspect.Java
