import JavaInspect.Document.Cursor
import JavaInspect.Document.Natural

/-!
# Scalars

A plain scalar ends at a comment, at a colon before a space, and inside brackets
also at the characters that structure them. It may go on in the next line if that
is indented deeper than the node around it. Quoted scalars end at their closing
quote. A single line break inside a scalar stands for a space, and every further
one for a line break.
-/

namespace JavaInspect.Document

/-- The characters that structure collections in brackets. -/
def isFlowIndicator (c : Char) : Bool :=
  [',', '[', ']', '\x7b', '\x7d'].contains c

/-- The characters that no plain scalar begins with. -/
def isIndicator (c : Char) : Bool :=
  isFlowIndicator c || ['#', '&', '*', '!', '|', '>', '\'', '"', '%', '@', '\x60'].contains c

/-- Whether a plain scalar may begin here. -/
def startsPlain (inFlow : Bool) : List Char → Bool
  | [] => false
  | c :: rest =>
      if isIndicator c || isSeparator c then false
      else if c == '-' || c == '?' || c == ':' then
        !Cursor.endsOr (fun next => isSeparator next || (inFlow && isFlowIndicator next)) rest
      else true

/-- Whether a plain scalar ends before these characters, where `spaced` holds
behind a space. -/
def endsPlain (inFlow spaced : Bool) : List Char → Bool
  | [] => true
  | c :: rest =>
      c == '\n' || (spaced && c == '#') || (inFlow && isFlowIndicator c) ||
        (c == ':' &&
          Cursor.endsOr (fun next => isSeparator next || (inFlow && isFlowIndicator next)) rest)

/-- The length of the part of a plain scalar that stands in one line, with the
spaces behind it. -/
def plainLength (inFlow spaced : Bool) : List Char → Nat
  | [] => 0
  | c :: rest =>
      if endsPlain inFlow spaced (c :: rest) then 0
      else plainLength inFlow (isSpace c) rest + 1

/-- The text that a number of line breaks inside a scalar stands for. -/
def foldBreaks (breaks : Nat) : List Char :=
  if breaks = 1 then [' '] else List.replicate (breaks - 1) '\n'

namespace Reader

/-- Read the part of a plain scalar that stands in one line. -/
def plainLine (inFlow : Bool) : Reader (List Char) := do
  let cursor ← get
  let length := plainLength inFlow false cursor.ahead
  let line := cursor.ahead.take length
  let text := (line.reverse.dropWhile isSpace).reverse
  set { ahead := cursor.ahead.drop text.length, column := cursor.column + text.length : Cursor }
  return text

/-- Step to the next line of a plain scalar if there is one. The result is the
number of line breaks before it. -/
def plainBreak (inFlow : Bool) (least : Nat) : Reader (Option Nat) := do
  let behind := (← get).skipSpaces
  if behind.ahead.head? != some '\n' then return none
  let tabs (_ column : Nat) : Bool := inFlow || least ≤ column
  let (breaks, ahead) := Cursor.gapFrom tabs false 0 behind.column behind.ahead
  let skipped := behind.ahead.take (behind.ahead.length - ahead.ahead.length)
  if skipped.contains '#' || ahead.atEnd || (!inFlow && ahead.column < least) then return none
  if endsPlain inFlow true ahead.ahead then return none
  set ahead
  return some breaks

/-- Read the further lines of a plain scalar, at most `count`. -/
def plainRest (inFlow : Bool) (least : Nat) : Nat → Reader (List Char)
  | 0 => return []
  | count + 1 => do
      match ← plainBreak inFlow least with
      | none => return []
      | some breaks =>
          let line ← plainLine inFlow
          return foldBreaks breaks ++ line ++ (← plainRest inFlow least count)

/-- Read the line breaks and spaces inside a quoted scalar. -/
def quotedBreak : Reader (List Char) := do
  let cursor ← get
  let blanks := cursor.ahead.takeWhile isSeparator
  let breaks := blanks.count '\n'
  blanks.forM fun _ => do
    let _ ← next
  return if breaks = 0 then blanks else foldBreaks breaks

/-- Read a number of hexadecimal digits. -/
def hexadecimal : Nat → Nat → Reader Nat
  | 0, known => return known
  | count + 1, known => do
      match digitValue? (← next) with
      | some digit => hexadecimal count (known * 16 + digit)
      | none => failure

/-- Read the character with a given number of hexadecimal digits. -/
def codePoint (digits : Nat) : Reader (List Char) := do
  let code ← hexadecimal digits 0
  if code.isValidChar then return [Char.ofNat code] else failure

/-- Read what stands behind a backslash in double quotes. -/
def escape : Reader (List Char) := do
  match ← next with
  | '0' => return ['\x00']
  | 'a' => return ['\x07']
  | 'b' => return ['\x08']
  | 't' | '\t' => return ['\t']
  | 'n' => return ['\n']
  | 'v' => return ['\x0b']
  | 'f' => return ['\x0c']
  | 'r' => return ['\r']
  | 'e' => return ['\x1b']
  | ' ' => return [' ']
  | '"' => return ['"']
  | '/' => return ['/']
  | '\\' => return ['\\']
  | 'N' => return ['\u0085']
  | '_' => return ['\u00a0']
  | 'L' => return ['\u2028']
  | 'P' => return ['\u2029']
  | 'x' => codePoint 2
  | 'u' => codePoint 4
  | 'U' => codePoint 8
  | '\n' => do
      spaces
      return []
  | _ => failure

/-- Read the rest of a scalar in double quotes, of at most `count` characters. -/
def doubleQuoted : Nat → Reader (List Char)
  | 0 => failure
  | count + 1 => do
      match ← peek? with
      | some '"' => do
          expect '"'
          return []
      | some '\\' => do
          expect '\\'
          return (← escape) ++ (← doubleQuoted count)
      | some c => do
          if (← get).atMarker then failure
          let text ← if isSeparator c then quotedBreak else List.singleton <$> next
          return text ++ (← doubleQuoted count)
      | none => failure

/-- Read the rest of a scalar in single quotes, of at most `count` characters. A
quote inside is written twice. -/
def singleQuoted : Nat → Reader (List Char)
  | 0 => failure
  | count + 1 => do
      match (← get).ahead with
      | '\'' :: '\'' :: _ => do
          expect '\''
          expect '\''
          return '\'' :: (← singleQuoted count)
      | '\'' :: _ => do
          expect '\''
          return []
      | c :: _ => do
          if (← get).atMarker then failure
          let text ← if isSeparator c then quotedBreak else List.singleton <$> next
          return text ++ (← singleQuoted count)
      | [] => failure

/-- Whether a quoted scalar begins here. -/
def atQuote : Reader Bool := do
  return (← isNext '"') || (← isNext '\'')

/-- Read a quoted scalar. -/
def quoted : Reader Value := do
  let count := (← get).ahead.length
  let text ← if (← next) == '"' then doubleQuoted count else singleQuoted count
  return .string (String.ofList text)

/-- Read a plain scalar. Further lines must reach the column `least`. -/
def plain (inFlow : Bool) (least : Nat) : Reader Value := do
  if !startsPlain inFlow (← get).ahead then failure
  let line ← plainLine inFlow
  let rest ← plainRest inFlow least (← get).ahead.length
  return .plain (String.ofList (line ++ rest))

end Reader

end JavaInspect.Document
