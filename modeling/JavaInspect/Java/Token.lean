import JavaInspect.Span

/-!
# Tokens

The words, literals, symbols and comments of a source text, each with its span.
-/

namespace JavaInspect.Java

/-- The class of a token. -/
inductive TokenKind where
  /-- An identifier or keyword; which of the two depends on where it stands. -/
  | word
  | integer
  | floating
  | string
  | character
  | symbol
  | lineComment
  | blockComment
deriving DecidableEq, Repr, Inhabited

/-- One token of a source text. -/
structure Token where
  kind : TokenKind
  text : String
  span : Span
deriving DecidableEq, Repr, Inhabited

namespace Token

/-- Whether a token is a comment. -/
def isComment (token : Token) : Bool :=
  token.kind == .lineComment || token.kind == .blockComment

/-- Whether a token is the given symbol. -/
def isSymbol (token : Token) (text : String) : Bool :=
  token.kind == .symbol && token.text == text

/-- Whether a token is the given word. -/
def isWord (token : Token) (text : String) : Bool :=
  token.kind == .word && token.text == text

end Token

end JavaInspect.Java
