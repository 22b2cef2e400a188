/-!
# Reading characters

A reader consumes characters from the front of a text or fails. The cursor knows
the column of the next character, which is what indentation is measured by.
-/

namespace JavaInspect.Document

/-- The characters ahead and the column of the first of them. -/
structure Cursor where
  ahead : List Char
  column : Nat := 0
deriving Repr, Inhabited

/-- A computation that reads characters or fails. -/
abbrev Reader (α : Type) := StateT Cursor Option α

/-- A space or tabulator. -/
def isSpace (c : Char) : Bool := c == ' ' || c == '\t'

/-- A space, a tabulator or a line break. -/
def isSeparator (c : Char) : Bool := isSpace c || c == '\n'

namespace Cursor

/-- Step over one character. -/
def step (cursor : Cursor) (c : Char) (rest : List Char) : Cursor :=
  { ahead := rest, column := if c = '\n' then 0 else cursor.column + 1 }

/-- Whether the text ends here, or goes on with a character of some class. -/
def endsOr (accepts : Char → Bool) (ahead : List Char) : Bool :=
  match ahead with
  | [] => true
  | c :: _ => accepts c

/-- Whether a marker that begins or ends a document stands here. -/
def atMarker (cursor : Cursor) : Bool :=
  cursor.column == 0 &&
    match cursor.ahead with
    | '-' :: '-' :: '-' :: rest | '.' :: '.' :: '.' :: rest => endsOr isSeparator rest
    | _ => false

/-- Whether nothing more of the document is ahead. -/
def atEnd (cursor : Cursor) : Bool :=
  cursor.ahead.isEmpty || cursor.atMarker

/-- Step over the rest of a comment. -/
def skipLine (cursor : Cursor) : Cursor :=
  let comment := cursor.ahead.takeWhile (· != '\n')
  { ahead := cursor.ahead.drop comment.length, column := cursor.column + comment.length }

/-- Step over spaces and tabulators. -/
def skipSpaces (cursor : Cursor) : Cursor :=
  let spaces := cursor.ahead.takeWhile isSpace
  { ahead := cursor.ahead.drop spaces.length, column := cursor.column + spaces.length }

/-- What separates two nodes: spaces, line breaks and comments; `breaks` counts
the line breaks so far, and `inComment` holds inside a comment. A tabulator is a
space where `tabs` holds of the line breaks before it and its column. -/
def gapFrom (tabs : Nat → Nat → Bool) (inComment : Bool) (breaks column : Nat) :
    List Char → Nat × Cursor
  | [] => (breaks, { ahead := [], column })
  | c :: rest =>
      if c = '\n' then gapFrom tabs false (breaks + 1) 0 rest
      else if inComment || c = ' ' || (c = '\t' && tabs breaks column) then
        gapFrom tabs inComment breaks (column + 1) rest
      else if c = '#' then gapFrom tabs true breaks (column + 1) rest
      else (breaks, { ahead := c :: rest, column })

/-- Step over what separates two nodes. The result holds the number of line
breaks. -/
def gap (tabs : Nat → Nat → Bool) (cursor : Cursor) : Nat × Cursor :=
  gapFrom tabs false 0 cursor.column cursor.ahead

end Cursor

namespace Reader

/-- The next character. -/
def peek? : Reader (Option Char) := do
  return (← get).ahead.head?

/-- Whether the next character is the given one. -/
def isNext (c : Char) : Reader Bool := do
  return (← peek?) == some c

/-- Whether the given character stands before a space, a line break or the
end. -/
def isNextIndicator (c : Char) : Reader Bool := do
  match (← get).ahead with
  | first :: rest => return first == c && Cursor.endsOr isSeparator rest
  | [] => return false

/-- Read one character. -/
def next : Reader Char := do
  let cursor ← get
  match cursor.ahead with
  | [] => failure
  | c :: rest =>
      set (cursor.step c rest)
      return c

/-- Read the given character. -/
def expect (c : Char) : Reader Unit := do
  if (← next) != c then failure

/-- Step over spaces and tabulators. -/
def spaces : Reader Unit := modify Cursor.skipSpaces

/-- Step over what separates two nodes in brackets. The result is the number of
line breaks. -/
def flowGap : Reader Nat := modifyGet (Cursor.gap fun _ _ => true)

/-- Step over what separates two nodes that are laid out by indentation. No line
is indented by tabulators; `inLine` says whether they may stand in the rest of this
line. The result is the number of line breaks. -/
def blockGap (inLine : Bool) : Reader Nat :=
  modifyGet (Cursor.gap fun breaks _ => inLine && breaks == 0)

/-- The column of the next character. -/
def column : Reader Nat := do
  return (← get).column

/-- Read what is left of a line that holds no further node. -/
def lineEnd : Reader Unit := do
  spaces
  match (← get).ahead with
  | [] => return
  | '\n' :: _ => return
  | '#' :: _ => modify Cursor.skipLine
  | _ => failure

end Reader

end JavaInspect.Document
