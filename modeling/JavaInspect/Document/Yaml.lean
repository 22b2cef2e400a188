import JavaInspect.Document.Flow

/-!
# Documents laid out by indentation

A block sequence is a column of items behind dashes, a block mapping a column of
keys in front of colons. The content of an item or entry is indented deeper than
its dash or key, except that the dashes of a sequence may stand directly below
the key it belongs to. In the line of a key only a scalar or a collection in
brackets may follow it.

A text holds at most one document, which may stand behind a marker of three
dashes. Anchors, tags, directives and block scalars are refused.
-/

namespace JavaInspect.Document

namespace Reader

/-- Whether the node that should come next is missing, because a line break has
led out of the given indentation. -/
def isMissing (breaks least : Nat) : Reader Bool := do
  let cursor ← get
  return cursor.atEnd || (breaks != 0 && cursor.column < least)

/-- Whether the dash of a block sequence stands here. -/
def atDash : Reader Bool := do
  return (← isNextIndicator '-') && !(← get).atMarker

/-- Read a scalar or a collection in brackets up to the end of its line. -/
def inlineNode (least : Nat) : Reader Value := do
  let node ←
    if ← atBracket then flowNode ((← get).ahead.length + 1)
    else if ← atQuote then quoted
    else plain false least
  lineEnd
  return node

/-- Read a scalar that stands in front of a colon, in one line with it. -/
def blockKey : Reader Value := do
  let key ←
    if ← atQuote then do
      let before := (← get).ahead
      let key ← quoted
      let length := before.length - (← get).ahead.length
      if (before.take length).contains '\n' then failure
      pure key
    else if startsPlain false (← get).ahead then do
      let line ← plainLine false
      pure (.plain (String.ofList line))
    else failure
  spaces
  if ← isNextIndicator ':' then return key else failure

/-- Whether a key stands here. -/
def atBlockKey : Reader Bool := fun cursor =>
  let found :=
    match blockKey cursor with
    | some (_, behind) => cursor.column < behind.column
    | none => false
  some (found, cursor)

/-- Read the content of a sequence item with a way to read a node. -/
def itemContent (node : Nat → Reader Value) (column : Nat) : Reader Value := do
  expect '-'
  let breaks ← blockGap false
  if ← isMissing breaks (column + 1) then return .absent else node (column + 1)

/-- Read the items of a sequence in the given column, at most `count`. -/
def blockItems (node : Nat → Reader Value) (column : Nat) : Nat → Reader (List Value)
  | 0 => return []
  | count + 1 => do
      if (← get).column == column && (← atDash) then
        let item ← itemContent node column
        let _ ← blockGap false
        return item :: (← blockItems node column count)
      else return []

/-- Read the value of an entry with a way to read a node. -/
def entryValue (node : Nat → Reader Value) (column : Nat) : Reader Value := do
  expect ':'
  let breaks ← blockGap true
  if breaks = 0 then
    if (← get).atEnd then return .absent else inlineNode (column + 1)
  else if (← get).column == column && (← atDash) then
    return .sequence (← blockItems node column (← get).ahead.length)
  else if ← isMissing breaks (column + 1) then return .absent
  else node (column + 1)

/-- Read the entries of a mapping in the given column, at most `count`. -/
def blockEntries (node : Nat → Reader Value) (column : Nat) :
    Nat → Reader (List (Value × Value))
  | 0 => return []
  | count + 1 => do
      if (← get).column == column && !(← get).atEnd then
        let key ← blockKey
        let value ← entryValue node column
        let _ ← blockGap false
        return (key, value) :: (← blockEntries node column count)
      else return []

/-- Read a node that begins a line or stands behind a dash. What belongs to it
reaches the column `least`. -/
def blockNode : Nat → Nat → Reader Value
  | 0, _ => failure
  | depth + 1, least => do
      let column ← column
      let count := (← get).ahead.length
      if ← atDash then
        return .sequence (← blockItems (blockNode depth) column count)
      else if ← atBlockKey then
        return .mapping (← blockEntries (blockNode depth) column count)
      else inlineNode least

/-- Read a marker of three characters. -/
def marker : Reader Unit := do
  let _ ← next
  let _ ← next
  let _ ← next

/-- Read the only node of a document. -/
def document : Reader Value := do
  let _ ← blockGap false
  let begins := (← get).atMarker && (← isNext '-')
  let breaks ←
    if begins then do
      marker
      blockGap true
    else pure 1
  let depth := (← get).ahead.length + 1
  let node ←
    if (← get).atEnd then pure .absent
    else if breaks = 0 then inlineNode 0
    else blockNode depth 0
  let _ ← blockGap false
  if (← get).atMarker && (← isNext '.') then marker
  let _ ← blockGap false
  if (← get).ahead.isEmpty then return node else failure

end Reader

/-- The text with line feeds as its only line breaks and without a byte order
mark. -/
def normalize : List Char → List Char
  | [] => []
  | '\r' :: '\n' :: rest => '\n' :: normalize rest
  | '\r' :: rest => '\n' :: normalize rest
  | c :: rest => c :: normalize rest

/-- The value of a document. -/
def Value.ofYaml? (text : String) : Option Value :=
  let characters := text.toList.dropWhile (· == '\ufeff')
  (Reader.document.run { ahead := normalize characters }).map (·.1)

end JavaInspect.Document
