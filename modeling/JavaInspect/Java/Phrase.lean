import JavaInspect.Java.Construct
import JavaInspect.Java.Token
import JavaInspect.Text.Bytes

/-!
# Phrases

A phrase is a node of the concrete grammar: a construct, its span, and the
phrases it is made of in source order. Comments are phrases as well. They belong
to the innermost phrase around them, and any code that looks at the parts of a
phrase can meet one.

Phrases are numbered, so that what an earlier pass found out about a phrase can
be looked up when a later one comes back to it.
-/

namespace JavaInspect.Java

/-- A node of the concrete grammar. -/
inductive Phrase where
  | node (number : Nat) (construct : Construct) (slot : Option Slot) (span : Span)
      (parts : List Phrase)
deriving Repr, Inhabited

namespace Phrase

/-- The number of a phrase in its source text. -/
def number : Phrase → Nat
  | .node number _ _ _ _ => number

/-- The kind of a phrase. -/
def construct : Phrase → Construct
  | .node _ construct _ _ _ => construct

/-- The slot that a phrase fills in the one around it. -/
def slot : Phrase → Option Slot
  | .node _ _ slot _ _ => slot

/-- Where a phrase stands. -/
def span : Phrase → Span
  | .node _ _ _ span _ => span

/-- The phrases that a phrase is made of. -/
def parts : Phrase → List Phrase
  | .node _ _ _ _ parts => parts

@[simp] theorem parts_node (number : Nat) (construct : Construct) (slot : Option Slot)
    (span : Span) (parts : List Phrase) :
    (node number construct slot span parts).parts = parts := rfl

/-- The named parts, comments included. -/
def namedParts (phrase : Phrase) : List Phrase :=
  phrase.parts.filter (·.construct.isNamed)

/-- The first part in the given slot. -/
def part? (phrase : Phrase) (slot : Slot) : Option Phrase :=
  phrase.parts.find? (·.slot == some slot)

/-- All parts in the given slot. -/
def partsIn (phrase : Phrase) (slot : Slot) : List Phrase :=
  phrase.parts.filter (·.slot == some slot)

/-- Whether a phrase is a comment. -/
def isComment (phrase : Phrase) : Bool := phrase.construct == .comment

/-- The first named part that is no comment. -/
def content? (phrase : Phrase) : Option Phrase :=
  phrase.namedParts.find? (!·.isComment)

/-- The same phrase in another slot. -/
def inSlot (slot : Slot) : Phrase → Phrase
  | .node number construct _ span parts => .node number construct (some slot) span parts

/-- The source text of a phrase. -/
def text (source : List Char) (phrase : Phrase) : String :=
  Text.slice source phrase.span.startByte phrase.span.endByte

mutual

/-- The height of the grammar tree below a phrase. -/
def height : Phrase → Nat
  | .node _ _ _ _ parts => heightAll parts + 1

/-- The greatest height among phrases. -/
def heightAll : List Phrase → Nat
  | [] => 0
  | part :: parts => max part.height (heightAll parts)

end

mutual

/-- Number a phrase and all below it in pre-order. The result holds the first
number that is left over. -/
def numberFrom (next : Nat) : Phrase → Phrase × Nat
  | .node _ construct slot span parts =>
      let (parts, last) := numberAllFrom (next + 1) parts
      (.node next construct slot span parts, last)

/-- Number phrases one after the other. -/
def numberAllFrom (next : Nat) : List Phrase → List Phrase × Nat
  | [] => ([], next)
  | part :: parts =>
      let (part, next) := numberFrom next part
      let (parts, next) := numberAllFrom next parts
      (part :: parts, next)

end

/-- Number a phrase and all below it in pre-order. -/
def numbered (phrase : Phrase) : Phrase := (phrase.numberFrom 0).1

/-- Whether a span lies inside another. -/
def covers (outer inner : Span) : Bool :=
  outer.startByte ≤ inner.startByte && inner.endByte ≤ outer.endByte

mutual

/-- Put a comment among the parts of the innermost phrase around it. -/
def insertComment (comment : Phrase) : Phrase → Phrase
  | .node number construct slot span parts =>
      .node number construct slot span (insertAmong comment parts)

/-- Put a comment into the part that covers it, or else between the parts. -/
def insertAmong (comment : Phrase) : List Phrase → List Phrase
  | [] => [comment]
  | part :: parts =>
      if covers part.span comment.span then insertComment comment part :: parts
      else if comment.span.startByte < part.span.startByte then comment :: part :: parts
      else part :: insertAmong comment parts

end

/-- The phrase of a comment token. -/
def ofComment (token : Token) : Phrase :=
  .node 0 .comment none token.span []

end Phrase

end JavaInspect.Java
