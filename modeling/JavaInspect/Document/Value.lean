/-!
# Document values

The data of a configuration or class path document. Text formats that quote only
some scalars leave the meaning of the others to the reader: a plain scalar reads
as text, as a number, as a truth value or as nothing, whichever is asked for. What
is written leaves nothing open: it has no plain scalars.
-/

namespace JavaInspect.Document

/-- The value of a document node. -/
inductive Value where
  /-- A scalar without quotes; empty where a node has no content. -/
  | plain (text : String)
  /-- A scalar that is text and nothing else. -/
  | string (text : String)
  | null
  | boolean (truth : Bool)
  /-- A number; absent when it is negative or no whole number. -/
  | number (natural : Option Nat)
  | sequence (items : List Value)
  | mapping (entries : List (Value × Value))
deriving Repr, Inhabited

/-- A way to read a value; it fails on a value of another shape. -/
abbrev Decoder (α : Type) := Value → Option α

namespace Value

/-- The node without content. -/
def absent : Value := .plain ""

/-- A text. Plain scalars keep their source text. -/
def asText : Decoder String
  | .plain text | .string text => some text
  | _ => none

/-- The text of a mapping key. -/
def asKey : Decoder String
  | .plain text | .string text => some text
  | _ => none

/-- The plain scalars that stand for a truth value. -/
def truthOf? (text : String) : Option Bool :=
  if ["true", "True", "TRUE"].contains text then some true
  else if ["false", "False", "FALSE"].contains text then some false
  else none

/-- A truth value. -/
def asTruth : Decoder Bool
  | .plain text => truthOf? text
  | .boolean truth => some truth
  | _ => none

/-- The plain scalars that stand for nothing. -/
def isNothing (text : String) : Bool :=
  ["", "~", "null", "Null", "NULL"].contains text

/-- A value that may be missing. -/
def asOption (decode : Decoder α) : Decoder (Option α)
  | .null => some none
  | .plain text => if isNothing text then some none else some <$> decode (.plain text)
  | value => some <$> decode value

/-- A list. A node without content is an empty list. -/
def asList (decode : Decoder α) : Decoder (List α)
  | .sequence items => items.mapM decode
  | .plain text => if text.isEmpty then some [] else none
  | _ => none

/-- A whole number. -/
def ofNat (number : Nat) : Value := .number (some number)

/-- A value that may be missing. -/
def ofOption (encode : α → Value) : Option α → Value
  | some item => encode item
  | none => .null

/-- A list. -/
def ofList (encode : α → Value) (items : List α) : Value :=
  .sequence (items.map encode)

/-- A record. -/
def ofFields (fields : List (String × Value)) : Value :=
  .mapping (fields.map fun (name, value) => (.string name, value))

end Value

end JavaInspect.Document
