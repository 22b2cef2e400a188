import JavaInspect.Java.Token
import JavaInspect.Text.Blank

/-!
# Splitting a source text into tokens

Each token is the longest one that begins where the one before it ended, blanks
aside. Angle brackets that close are kept apart, because two of them in a row
may close two type argument lists as well as shift a number; the grammar joins
them where it expects an operator.

Every character outside ASCII that is not blank counts as a letter: the texts
that reach this point are free of lexical errors, and no symbol of the language
lies outside ASCII.
-/

namespace JavaInspect.Java

/-- A place in a text while it is being read. -/
structure Place where
  byte : Nat := 0
  line : Nat := 1
  column : Nat := 1
deriving DecidableEq, Repr, Inhabited

namespace Place

/-- The place after one more character. -/
def after (place : Place) (c : Char) : Place :=
  if c = '\n' then { byte := place.byte + 1, line := place.line + 1, column := 1 }
  else
    { place with
      byte := place.byte + c.utf8Size
      column := place.column + c.utf8Size }

/-- The place after several more characters. -/
def afterAll (place : Place) (characters : List Char) : Place :=
  characters.foldl after place

/-- The span between two places. -/
def spanTo (start stop : Place) : Span :=
  { startByte := start.byte
    endByte := stop.byte
    startLine := start.line
    startColumn := start.column
    endLine := stop.line
    endColumn := stop.column }

end Place

namespace Lexer

/-- Blanks between tokens; a byte order mark counts as one. -/
def isSpace (c : Char) : Bool := Text.isBlank c || c.toNat == 0xFEFF

/-- A character that can begin an identifier. -/
def isLetter (c : Char) : Bool :=
  c.isAlpha || c == '_' || c == '$' || (0x7F < c.toNat && !isSpace c)

/-- A character that can continue an identifier. -/
def isLetterOrDigit (c : Char) : Bool := isLetter c || c.isDigit

/-- The symbols of the language, longer ones before their beginnings. -/
def symbols : List String :=
  ["<<=", "...", "->", "::", "++", "--", "&&", "||", "==", "!=", "<=", "+=", "-=", "*=", "/=",
    "&=", "|=", "^=", "%=", "<<"]

/-- The number of characters of a block comment after its opening. -/
def blockCommentLength : List Char → Nat
  | '*' :: '/' :: _ => 2
  | _ :: rest => blockCommentLength rest + 1
  | [] => 0

/-- The number of characters of a quoted literal after its opening. -/
def quotedLength (quote : Char) : List Char → Nat
  | '\\' :: _ :: rest => quotedLength quote rest + 2
  | c :: rest => if c = quote then 1 else quotedLength quote rest + 1
  | [] => 0

/-- The number of characters of a text block after its opening. -/
def textBlockLength : List Char → Nat
  | '"' :: '"' :: '"' :: _ => 3
  | '\\' :: _ :: rest => textBlockLength rest + 2
  | _ :: rest => textBlockLength rest + 1
  | [] => 0

/-- The characters of a digit run, underscores included. -/
def digitRun (isDigit : Char → Bool) (characters : List Char) : List Char :=
  characters.takeWhile fun c => isDigit c || c == '_'

/-- The number of characters of an exponent introduced by one of `marks`; zero
without digits. -/
def exponentLength (marks : List Char) : List Char → Nat
  | mark :: rest =>
      if marks.contains mark then
        let sign :=
          match rest with
          | '+' :: _ | '-' :: _ => 1
          | _ => 0
        match digitRun Char.isDigit (rest.drop sign) with
        | [] => 0
        | digits => 1 + sign + digits.length
      else 0
  | [] => 0

/-- The number of characters of a suffix out of `letters`. -/
def suffixLength (letters : List Char) : List Char → Nat
  | c :: _ => if letters.contains c then 1 else 0
  | [] => 0

/-- The class and length of a number whose digits and exponent are given: a
point, an exponent or a floating suffix make it a floating literal. -/
def numberEnd (isDigit : Char → Bool) (exponents suffixes : List Char) (length : Nat)
    (rest : List Char) : TokenKind × Nat :=
  let fraction :=
    match rest with
    | '.' :: digits => 1 + (digitRun isDigit digits).length
    | _ => 0
  let rest := rest.drop fraction
  let exponent := exponentLength exponents rest
  let rest := rest.drop exponent
  let floating := suffixLength suffixes rest
  if fraction + exponent + floating = 0 then
    (.integer, length + suffixLength ['l', 'L'] rest)
  else (.floating, length + fraction + exponent + floating)

/-- A hexadecimal digit. -/
def isHexDigit (c : Char) : Bool :=
  c.isDigit || ('a' ≤ c && c ≤ 'f') || ('A' ≤ c && c ≤ 'F')

/-- The class and length of the number at the start of a text. -/
def scanNumber (characters : List Char) : TokenKind × Nat :=
  match characters with
  | '0' :: mark :: rest =>
      if mark = 'x' || mark = 'X' then
        let digits := digitRun isHexDigit rest
        numberEnd isHexDigit ['p', 'P'] [] (2 + digits.length) (rest.drop digits.length) |>.map id
          fun length =>
            let after := characters.drop length
            if length > 2 + digits.length then length + suffixLength ['f', 'F', 'd', 'D'] after
            else length
      else if mark = 'b' || mark = 'B' then
        let digits := digitRun Char.isDigit rest
        numberEnd Char.isDigit [] [] (2 + digits.length) (rest.drop digits.length)
      else
        let digits := digitRun Char.isDigit characters
        numberEnd Char.isDigit ['e', 'E'] ['f', 'F', 'd', 'D'] digits.length
          (characters.drop digits.length)
  | _ =>
      let digits := digitRun Char.isDigit characters
      numberEnd Char.isDigit ['e', 'E'] ['f', 'F', 'd', 'D'] digits.length
        (characters.drop digits.length)

/-- The class and length of the token at the start of a text without leading
blanks. -/
def scan (characters : List Char) : TokenKind × Nat :=
  match characters with
  | '/' :: '/' :: rest => (.lineComment, 2 + (rest.takeWhile (· != '\n')).length)
  | '/' :: '*' :: rest => (.blockComment, 2 + blockCommentLength rest)
  | '"' :: '"' :: '"' :: rest => (.string, 3 + textBlockLength rest)
  | '"' :: rest => (.string, 1 + quotedLength '"' rest)
  | '\'' :: rest => (.character, 1 + quotedLength '\'' rest)
  | c :: rest =>
      if isLetter c then (.word, 1 + (rest.takeWhile isLetterOrDigit).length)
      else if c.isDigit || (c == '.' && rest.head?.any Char.isDigit) then scanNumber characters
      else
        match symbols.find? (·.toList.isPrefixOf characters) with
        | some symbol => (.symbol, symbol.length)
        | none => (.symbol, 1)
  | [] => (.symbol, 0)

/-- The tokens of a text that begins at a place. -/
def tokensFrom (place : Place) : List Char → List Token
  | [] => []
  | c :: rest =>
      if isSpace c then tokensFrom (place.after c) rest
      else
        let (kind, length) := scan (c :: rest)
        let text := c :: rest.take (length - 1)
        let stop := place.afterAll text
        { kind, text := String.ofList text, span := place.spanTo stop } ::
          tokensFrom stop (rest.drop (length - 1))
termination_by characters => characters.length
decreasing_by
  · exact Nat.lt_succ_self rest.length
  · rw [List.length_drop]
    exact Nat.lt_succ_of_le (Nat.sub_le _ _)

end Lexer

/-- The tokens of a source text, comments included. -/
def tokenize (text : List Char) : List Token :=
  Lexer.tokensFrom {} text

/-- The place at the end of a source text. -/
def endPlace (text : List Char) : Place :=
  Place.afterAll {} text

end JavaInspect.Java
