import JavaInspect.Pattern.Basic

/-!
# Reading patterns

The written form of patterns. Most characters stand for themselves. A backslash
takes the meaning from a punctuation character and gives one to some letters;
square brackets hold a character class, round brackets a group, and `|` separates
alternatives. `*`, `+`, `?` and a count in curly brackets repeat what stands before
them; a question mark behind one of these changes which match is found but not
whether there is one.

Options such as `(?i)` hold up to the end of the group they stand in. References
to groups and conditions on what surrounds a match are refused, and so are an
unbalanced bracket, a repetition of nothing, an empty range, a reversed count, and a
count that makes the pattern too large.
-/

namespace JavaInspect.Pattern

/-- The options that are switched on. -/
structure Options where
  ignoreCase : Bool := false
  multiLine : Bool := false
  dotAll : Bool := false
deriving DecidableEq, Repr, Inhabited

/-- The characters ahead, the options, and the group names given so far. -/
structure Cursor where
  ahead : List Char
  options : Options := {}
  names : List String := []
deriving Repr, Inhabited

/-- A computation that reads characters or fails. -/
abbrev Reader (α : Type) := StateT Cursor Option α

namespace Reader

/-- The next character. -/
def peek? : Reader (Option Char) := do
  return (← get).ahead.head?

/-- Whether the next character is the given one. -/
def isNext (c : Char) : Reader Bool := do
  return (← peek?) == some c

/-- Whether the given text comes next. -/
def isAhead (text : String) : Reader Bool := do
  return text.toList.isPrefixOf (← get).ahead

/-- Read one character. -/
def next : Reader Char := do
  match (← get).ahead with
  | [] => failure
  | c :: rest =>
      modify fun cursor => { cursor with ahead := rest }
      return c

/-- Read the given character. -/
def expect (c : Char) : Reader Unit := do
  if (← next) != c then failure

/-- Read the given character if it comes next. -/
def accept (c : Char) : Reader Bool := do
  if ← isNext c then
    expect c
    return true
  else return false

/-- Step over a number of characters. -/
def skip (count : Nat) : Reader Unit :=
  modify fun cursor => { cursor with ahead := cursor.ahead.drop count }

/-- Read the longest run of characters of some kind. -/
def takeRun (accepts : Char → Bool) : Reader (List Char) :=
  modifyGet fun cursor =>
    let found := cursor.ahead.takeWhile accepts
    (found, { cursor with ahead := cursor.ahead.drop found.length })

/-- The class of a character under the options in force. -/
def foldCase (charClass : CharClass) : Reader CharClass := do
  return if (← get).options.ignoreCase then .folded charClass else charClass

end Reader

/-- What an escape or a class item stands for: a character or a class. -/
inductive ClassItem where
  | char (c : Char)
  | charClass (charClass : CharClass)
deriving DecidableEq, Repr, Inhabited

/-- The value of a hexadecimal digit. -/
def hexValue? (c : Char) : Option Nat :=
  if c.isDigit then some (c.toNat - '0'.toNat)
  else if 'a' ≤ c && c ≤ 'f' then some (c.toNat - 'a'.toNat + 10)
  else if 'A' ≤ c && c ≤ 'F' then some (c.toNat - 'A'.toNat + 10)
  else none

/-- The number that hexadecimal digits stand for. -/
def hexNumber? (digits : List Char) : Option Nat :=
  digits.foldlM (fun known c => (hexValue? c).map (known * 16 + ·)) 0

/-- The number that decimal digits stand for; there must be one. -/
def decimal? (digits : List Char) : Option Nat :=
  if digits.isEmpty then none
  else some (digits.foldl (fun known c => known * 10 + (c.toNat - '0'.toNat)) 0)

namespace Reader

/-- Read a character written by its code: in curly brackets, or in a fixed number
of digits. -/
def codePoint (width : Nat) : Reader Char := do
  let digits ←
    if ← accept '\x7b' then do
      let digits ← takeRun (· != '\x7d')
      expect '\x7d'
      if digits.isEmpty then failure
      pure digits
    else do
      let digits := (← get).ahead.take width
      if digits.length < width then failure
      skip width
      pure digits
  match hexNumber? digits with
  | some code => if code.isValidChar then return Char.ofNat code else failure
  | none => failure

/-- The classes that a letter behind a backslash stands for. -/
def letterClass? : Char → Option CharClass
  | 'd' => some .digit
  | 'D' => some (.complement .digit)
  | 'w' => some .word
  | 'W' => some (.complement .word)
  | 's' => some .blank
  | 'S' => some (.complement .blank)
  | _ => none

/-- Whether a backslash takes the meaning from a character. -/
def isEscapable (c : Char) : Bool :=
  c.toNat < 0x80 && !c.isAlphanum && c != '<' && c != '>'

/-- Read an escape behind its backslash. -/
def escape : Reader ClassItem := do
  let c ← next
  match letterClass? c with
  | some charClass => return .charClass charClass
  | none =>
      match c with
      | 'a' => return .char '\x07'
      | 'f' => return .char '\x0c'
      | 't' => return .char '\t'
      | 'n' => return .char '\n'
      | 'r' => return .char '\r'
      | 'v' => return .char '\x0b'
      | 'x' => .char <$> codePoint 2
      | 'u' => .char <$> codePoint 4
      | 'U' => .char <$> codePoint 8
      | c => if isEscapable c then return .char c else failure

/-- The classes that have a name inside a character class. -/
def namedClass? : String → Option CharClass
  | "alpha" => some (.union (.range 'a' 'z') (.range 'A' 'Z'))
  | "digit" => some (.range '0' '9')
  | "alnum" => some (.unionOf [.range 'a' 'z', .range 'A' 'Z', .range '0' '9'])
  | "upper" => some (.range 'A' 'Z')
  | "lower" => some (.range 'a' 'z')
  | "word" => some (.unionOf [.range 'a' 'z', .range 'A' 'Z', .range '0' '9', .single '_'])
  | "space" => some (.union (.range '\t' '\r') (.single ' '))
  | "blank" => some (.union (.single '\t') (.single ' '))
  | "punct" => some (.unionOf [.range '!' '/', .range ':' '@', .range '[' '\x60',
      .range '\x7b' '~'])
  | "xdigit" => some (.unionOf [.range '0' '9', .range 'a' 'f', .range 'A' 'F'])
  | "cntrl" => some (.union (.range '\x00' '\x1f') (.single '\x7f'))
  | "graph" => some (.range '!' '~')
  | "print" => some (.range ' ' '~')
  | "ascii" => some (.range '\x00' '\x7f')
  | _ => none

/-- Read a class that has a name, if one stands here. -/
def namedClass : Reader (Option CharClass) := do
  let cursor ← get
  match cursor.ahead with
  | '[' :: ':' :: rest =>
      let negated := rest.head? == some '^'
      let rest := if negated then rest.drop 1 else rest
      let name := rest.takeWhile Char.isAlpha
      match rest.drop name.length, namedClass? (String.ofList name) with
      | ':' :: ']' :: behind, some charClass =>
          set { cursor with ahead := behind }
          let charClass ← foldCase charClass
          return some (if negated then .complement charClass else charClass)
      | _, _ => return none
  | _ => return none

/-- Read a character or an escape inside a class. -/
def classItem : Reader ClassItem := do
  let c ← next
  if c == '\\' then escape else return .char c

/-- Whether a dash that joins the ends of a range stands here. -/
def atRange : Reader Bool := do
  match (← get).ahead with
  | '-' :: c :: _ => return c != ']' && c != '-'
  | _ => return false

/-- Read a character, an escape or a range inside a class. -/
def classRange : Reader CharClass := do
  let first ← classItem
  if ← atRange then
    expect '-'
    let last ← classItem
    match first, last with
    | .char first, .char last =>
        if first ≤ last then foldCase (.range first last) else failure
    | _, _ => failure
  else
    match first with
    | .char c => foldCase (.single c)
    | .charClass charClass => return charClass

/-- Combine two classes. -/
def combine (operator : String) (left right : CharClass) : CharClass :=
  match operator with
  | "&&" => .inter left right
  | "--" => .inter left (.complement right)
  | _ => .union (.inter left (.complement right)) (.inter right (.complement left))

/-- Read the operator that combines two classes, if one stands here. -/
def classOperator : Reader (Option String) := do
  for operator in ["&&", "--", "~~"] do
    if ← isAhead operator then
      skip 2
      return some operator
  return none

/-- Read the items of a class up to the closing bracket, at most `count`. The
items read before are given, and so is what an operator combines them with. -/
def classItems (nested : Reader CharClass) (items : List CharClass)
    (combined : Option (String × CharClass)) : Nat → Reader CharClass
  | 0 => failure
  | count + 1 => do
      let finish (items : List CharClass) : CharClass :=
        match combined with
        | some (operator, left) => combine operator left (.unionOf items)
        | none => .unionOf items
      if ← accept ']' then return finish items
      match ← classOperator with
      | some operator => classItems nested [] (some (operator, finish items)) count
      | none =>
          let item ←
            match ← namedClass with
            | some named => pure named
            | none => if ← isNext '[' then nested else classRange
          classItems nested (items ++ [item]) combined count

/-- Read what may stand first in a class as itself: dashes, and a closing
bracket. -/
def classStart : Reader (List CharClass) := do
  let dashes ← takeRun (· == '-')
  let items := dashes.map CharClass.single
  if items.isEmpty && (← accept ']') then return [.single ']'] else return items

/-- Read a character class. -/
def charClass : Nat → Reader CharClass
  | 0 => failure
  | depth + 1 => do
      expect '['
      let negated ← accept '^'
      let items ← classStart
      let found ← classItems (charClass depth) items none ((← get).ahead.length + 1)
      return if negated then .complement found else found

/-- Read the letters that switch options on, and behind a dash off. -/
def optionLetters (switchOn : Bool) (seen : List Char) : List Char → Options → Option Options
  | [], options => if seen.isEmpty || seen.head? == some '-' then none else some options
  | c :: rest, options =>
      if seen.contains c then none
      else
        match c with
        | '-' => optionLetters false (c :: seen) rest options
        | 'i' => optionLetters switchOn (c :: seen) rest { options with ignoreCase := switchOn }
        | 'm' => optionLetters switchOn (c :: seen) rest { options with multiLine := switchOn }
        | 's' => optionLetters switchOn (c :: seen) rest { options with dotAll := switchOn }
        | 'U' => optionLetters switchOn (c :: seen) rest options
        | 'u' => if switchOn then optionLetters switchOn (c :: seen) rest options else none
        | _ => none

/-- Whether a character may stand in the name of a group, at the start or
behind it. -/
def isNameChar (first : Bool) (c : Char) : Bool :=
  c == '_' || isWord c && !isDigit c || !first && (isDigit c || ['.', '[', ']'].contains c)

/-- Read the name of a group and remember it. -/
def groupName : Reader Unit := do
  let name ← takeRun (· != '>')
  expect '>'
  match name with
  | [] => failure
  | first :: rest =>
      let text := String.ofList name
      if !isNameChar true first || !rest.all (isNameChar false) then failure
      if (← get).names.contains text then failure
      modify fun cursor => { cursor with names := text :: cursor.names }

/-- Read what stands behind the opening of a group: nothing, a name, or options.
The result says whether the options hold beyond the group because it ended right
behind them. -/
def groupHead : Reader Bool := do
  if !(← accept '?') then return false
  if ← isAhead "P<" then
    skip 2
    groupName
    return false
  else if ← isAhead "<" then
    skip 1
    if (← isNext '=') || (← isNext '!') then failure
    groupName
    return false
  else
    let letters ← takeRun fun c => c.isAlpha || c == '-'
    if letters.isEmpty then
      expect ':'
      return false
    match optionLetters true [] letters (← get).options with
    | none => failure
    | some options =>
        modify fun cursor => { cursor with options }
        if ← accept ')' then return true
        expect ':'
        return false

/-- The greatest number of repetitions that can be written. -/
def greatestCount : Nat := 4294967295

/-- Read a number, with spaces around it. -/
def count : Reader Nat := do
  let _ ← takeRun Text.isBlank
  let digits ← takeRun Char.isDigit
  let _ ← takeRun Text.isBlank
  match decimal? digits with
  | some number => if number ≤ greatestCount then return number else failure
  | none => failure

/-- Read a count behind its opening bracket. -/
def counts : Reader (Nat × Option Nat) := do
  let least ← count
  let most ←
    if ← accept ',' then
      if ← isNext '\x7d' then pure none else some <$> count
    else pure (some least)
  expect '\x7d'
  if most.any (· < least) then failure
  return (least, most)

/-- Read the repetitions of a pattern, at most `count`. -/
def repetitions (inner : Pattern) : Nat → Reader Pattern
  | 0 => return inner
  | count + 1 => do
      let repeated ←
        match ← peek? with
        | some '*' => do
            expect '*'
            pure (some (Pattern.star inner))
        | some '+' => do
            expect '+'
            pure (some inner.plus)
        | some '?' => do
            expect '?'
            pure (some inner.optional)
        | some '\x7b' => do
            expect '\x7b'
            let (least, most) ← counts
            if Pattern.greatestWeight < (most.getD least) * inner.weight then failure
            pure (some (inner.repeated least most))
        | _ => pure none
      match repeated with
      | none => return inner
      | some pattern =>
          let _ ← accept '?'
          repetitions pattern count

/-- The condition that a letter behind a backslash stands for. -/
def anchor? : Char → Option Anchor
  | 'A' => some .textStart
  | 'z' => some .textEnd
  | 'b' => some .wordBoundary
  | 'B' => some .noWordBoundary
  | _ => none

/-- Read an escape outside of classes behind its backslash. -/
def escapedPattern : Reader Pattern := do
  match (← peek?).bind anchor? with
  | some condition =>
      skip 1
      return .place condition
  | none =>
      match ← escape with
      | .char c => return .char (← foldCase (.single c))
      | .charClass charClass => return .char charClass

/-- Read a group with a way to read what is inside. The result is missing for
options that hold beyond the group. -/
def group (alternatives : Reader Pattern) : Reader (Option Pattern) := do
  let options := (← get).options
  expect '('
  if ← groupHead then return none
  let inner ← alternatives
  expect ')'
  modify fun cursor => { cursor with options }
  return some inner

/-- Read one pattern without repetition. The result is missing for options. -/
def atom (alternatives : Reader Pattern) : Reader (Option Pattern) := do
  let options := (← get).options
  match ← peek? with
  | none => failure
  | some '(' => group alternatives
  | some '[' => (some ∘ Pattern.char) <$> charClass ((← get).ahead.length + 1)
  | some c => do
      skip 1
      match c with
      | '*' | '+' | '?' | '\x7b' => failure
      | '\\' => some <$> escapedPattern
      | '^' => return some (.place (if options.multiLine then .lineStart else .textStart))
      | '$' => return some (.place (if options.multiLine then .lineEnd else .textEnd))
      | '.' =>
          return some (.char (.complement (if options.dotAll then .nothing else .single '\n')))
      | c => return some (.char (← foldCase (.single c)))

/-- Whether a sequence ends here. -/
def atSequenceEnd : Reader Bool := do
  match ← peek? with
  | some c => return c == '|' || c == ')'
  | none => return true

/-- Read patterns one after the other, at most `count`. -/
def sequenceParts (alternatives : Reader Pattern) : Nat → Reader (List Pattern)
  | 0 => return []
  | count + 1 => do
      if ← atSequenceEnd then return []
      match ← atom alternatives with
      | none =>
          if ["*", "+", "?", "\x7b"].contains (String.ofList (← peek?).toList) then failure
          sequenceParts alternatives count
      | some first =>
          let first ← repetitions first (← get).ahead.length
          return first :: (← sequenceParts alternatives count)

/-- Read alternatives, at most `count` behind the first one. -/
def alternativesFrom (alternatives : Reader Pattern) : Nat → Reader (List Pattern)
  | 0 => return []
  | count + 1 => do
      if ← accept '|' then
        let parts ← sequenceParts alternatives ((← get).ahead.length + 1)
        return .sequence parts :: (← alternativesFrom alternatives count)
      else return []

/-- Read alternatives nested up to a depth. -/
def alternatives : Nat → Reader Pattern
  | 0 => failure
  | depth + 1 => do
      let length := (← get).ahead.length
      let first ← sequenceParts (alternatives depth) (length + 1)
      let others ← alternativesFrom (alternatives depth) (length + 1)
      return Pattern.oneOf (.sequence first) others

end Reader

/-- The pattern that a text stands for. -/
def ofText? (text : String) : Option Pattern :=
  match (Reader.alternatives (text.length + 1)).run { ahead := text.toList } with
  | some (pattern, cursor) => if cursor.ahead.isEmpty then some pattern else none
  | none => none

end JavaInspect.Pattern
