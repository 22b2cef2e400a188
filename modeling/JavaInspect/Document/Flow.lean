import JavaInspect.Document.Scalar

/-!
# Collections in brackets

Square brackets hold the items of a sequence and curly brackets the entries of a
mapping, separated by commas; one more comma may stand at the end. A pair among
the items of a sequence is a mapping of its own, and a key without a value has
no content.

The readers take the depth that is left, which exceeds the number of characters.
-/

namespace JavaInspect.Document

namespace Reader

/-- Whether a colon that begins a value stands here; behind a quoted or bracketed
key anything may follow it. -/
def atFlowValue (key : Value) : Reader Bool := do
  match (← get).ahead with
  | ':' :: rest =>
      match key with
      | .plain _ => return Cursor.endsOr (fun c => isSeparator c || isFlowIndicator c) rest
      | _ => return true
  | _ => return false

/-- Whether an item or entry ends here. -/
def atFlowEnd : Reader Bool := do
  match ← peek? with
  | some c => return c == ',' || c == ']' || c == '\x7d'
  | none => return true

/-- Read a value behind a key with a way to read it, if there is one. -/
def flowValue (node : Reader Value) : Reader Value := do
  expect ':'
  let _ ← flowGap
  let value ← if ← atFlowEnd then pure .absent else node
  let _ ← flowGap
  return value

/-- Read an item of a sequence. -/
def flowItem (node : Reader Value) : Reader Value := do
  let item ← node
  let _ ← flowGap
  if ← atFlowValue item then
    let value ← flowValue node
    return .mapping [(item, value)]
  else return item

/-- Read an entry of a mapping. -/
def flowEntry (node : Reader Value) : Reader (Value × Value) := do
  let key ← node
  let _ ← flowGap
  if ← atFlowValue key then return (key, ← flowValue node) else return (key, .absent)

/-- Read what is separated by commas up to a closing bracket, at most `count`
elements. -/
def flowElements (close : Char) (element : Reader α) : Nat → Reader (List α)
  | 0 => failure
  | count + 1 => do
      let _ ← flowGap
      if ← isNext close then
        expect close
        return []
      let first ← element
      let _ ← flowGap
      if ← isNext close then
        expect close
        return [first]
      expect ','
      return first :: (← flowElements close element count)

/-- Read a node inside brackets. -/
def flowNode : Nat → Reader Value
  | 0 => failure
  | depth + 1 => do
      if (← get).atMarker then failure
      let count := (← get).ahead.length
      match ← peek? with
      | some '[' => do
          expect '['
          return .sequence (← flowElements ']' (flowItem (flowNode depth)) count)
      | some '\x7b' => do
          expect '\x7b'
          return .mapping (← flowElements '\x7d' (flowEntry (flowNode depth)) count)
      | _ => if ← atQuote then quoted else plain true 0

/-- Whether a collection in brackets begins here. -/
def atBracket : Reader Bool := do
  return (← isNext '[') || (← isNext '\x7b')

end Reader

end JavaInspect.Document
