import JavaInspect.Java.Phrase

/-!
# Reading phrases off a token list

A reader consumes tokens from the front of a list or fails; on failure the
alternative begins where the failed reader began. A cursor also knows the span
of the token read last, which is where the phrase being read ends.
-/

namespace JavaInspect.Java

/-- The tokens ahead with their number, and the span of the last token behind. -/
structure Cursor where
  ahead : List Token
  behind : Span := {}
  /-- The number of tokens ahead. -/
  left : Nat := ahead.length
  left_eq : left = ahead.length := by rfl

/-- A computation that reads tokens or fails. -/
abbrev Reader (α : Type) := StateT Cursor Option α

namespace Reader

/-- The next token. -/
def peek? : Reader (Option Token) := do
  return (← get).ahead.head?

/-- The token after the next one. -/
def peekSecond? : Reader (Option Token) := do
  return (← get).ahead[1]?

/-- Read one token that satisfies a condition. -/
def satisfy (accepts : Token → Bool) : Reader Token := fun cursor =>
  match ahead : cursor.ahead with
  | [] => none
  | token :: rest =>
      if accepts token then
        some (token,
          { ahead := rest
            behind := token.span
            left := cursor.left - 1
            left_eq := by simp [cursor.left_eq, ahead] })
      else none

/-- Whether the next token satisfies a condition. -/
def nextIs (accepts : Token → Bool) : Reader Bool := do
  return (← peek?).any accepts

/-- Whether the next token is the given symbol. -/
def atSymbol (text : String) : Reader Bool := nextIs (·.isSymbol text)

/-- Whether the next token is the given word. -/
def atWord (text : String) : Reader Bool := nextIs (·.isWord text)

/-- Read a symbol. -/
def symbol (text : String) : Reader Unit := do
  let _ ← satisfy (·.isSymbol text)

/-- Read a keyword. -/
def keyword (text : String) : Reader Unit := do
  let _ ← satisfy (·.isWord text)

/-- Read any word. -/
def word : Reader Token := satisfy (·.kind == .word)

/-- Succeed only when a condition holds, reading nothing. -/
def require (condition : Bool) : Reader Unit :=
  if condition then pure () else failure

/-- Succeed only when a reader would, reading nothing. -/
def lookAhead (reader : Reader α) : Reader α := fun cursor =>
  (reader cursor).map fun (value, _) => (value, cursor)

/-- Whether a reader would succeed. -/
def wouldRead (reader : Reader α) : Reader Bool := fun cursor =>
  some ((reader cursor).isSome, cursor)

/-- Read what is there, if anything. -/
def maybe (reader : Reader α) : Reader (Option α) :=
  (some <$> reader) <|> pure none

/-- Read up to a number of times, until the reader fails. -/
def upTo (reader : Reader α) : Nat → Reader (List α)
  | 0 => pure []
  | count + 1 => do
      match ← maybe reader with
      | none => return []
      | some value => return value :: (← upTo reader count)

/-- Read as often as possible. Every success reads a token, so the number of
tokens ahead bounds the number of successes. -/
def many (reader : Reader α) : Reader (List α) := do
  upTo reader (← get).left

/-- Read at least once, and then as often as possible. -/
def atLeastOnce (reader : Reader α) : Reader (List α) := do
  let first ← reader
  return first :: (← many reader)

/-- Read one or more, with a symbol between each two. -/
def separated (separator : String) (reader : Reader α) : Reader (List α) := do
  let first ← reader
  return first :: (← many (symbol separator *> reader))

/-- Read any number, with a symbol between each two. -/
def listed (separator : String) (reader : Reader α) : Reader (List α) :=
  separated separator reader <|> pure []

/-- Read with a symbol on either side. -/
def between (opening closing : String) (reader : Reader α) : Reader α := do
  symbol opening
  let value ← reader
  symbol closing
  return value

/-- What a reader returns, if anything, as a list. -/
def partsOf (reader : Reader α) : Reader (List α) := do
  return (← maybe reader).toList

/-- The span from one span's start to another's end. -/
def coverTo (first last : Span) : Span :=
  { first with endByte := last.endByte, endLine := last.endLine, endColumn := last.endColumn }

/-- A phrase that begins with given parts and ends with the token read last. -/
def closeFrom (start : Span) (construct : Construct) (parts : List Phrase) : Reader Phrase := do
  return .node 0 construct none (coverTo start (← get).behind) parts

/-- The phrase made of the parts that a reader returns, from its first to its
last token. -/
def phrase (construct : Construct) (reader : Reader (List Phrase)) : Reader Phrase := do
  match ← peek? with
  | none => failure
  | some first =>
      let parts ← reader
      closeFrom first.span construct parts

/-- A phrase without parts. -/
def leaf (construct : Construct) (reader : Reader α) : Reader Phrase :=
  phrase construct do
    let _ ← reader
    return []

/-- Read a phrase into a slot. -/
def into (slot : Slot) (reader : Reader Phrase) : Reader Phrase :=
  (·.inSlot slot) <$> reader

/-- An identifier. Keywords are identifiers wherever the grammar has no other
use for them, so any word is one. -/
def identifier : Reader Phrase := leaf .identifier word

/-- The name of a variable: an identifier, or an underscore that names
nothing. -/
def variableName : Reader Phrase := do
  if ← atWord "_" then leaf .underscorePattern word else identifier

/-- A keyword or operator kept as an unnamed part. -/
def tokenPart (accepts : Token → Bool) : Reader Phrase := leaf .token (satisfy accepts)

end Reader

end JavaInspect.Java
