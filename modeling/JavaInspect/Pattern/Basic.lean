import JavaInspect.Pattern.CharClass

/-!
# Patterns

Patterns describe texts: characters of a class, places between characters,
sequences, alternatives and repetitions. A text is searched by following all
ways to match at once. The state of a search is the list of patterns that the
rest of a match has to satisfy; reading a character replaces each of them by what
is left of it behind that character.

A place is judged by the characters before and after it, so what is left of a
pattern depends on the character read before.
-/

namespace JavaInspect

namespace Pattern

/-- A condition on a place between characters. -/
inductive Anchor where
  | textStart
  | textEnd
  | lineStart
  | lineEnd
  | wordBoundary
  | noWordBoundary
deriving DecidableEq, Repr, Inhabited

/-- Whether there is a character and it belongs to a word. -/
def isWord? (c : Option Char) : Bool := c.any isWord

/-- Whether a condition holds between two characters. -/
def Anchor.holds (before after : Option Char) : Anchor → Bool
  | .textStart => before.isNone
  | .textEnd => after.isNone
  | .lineStart => before.isNone || before == some '\n'
  | .lineEnd => after.isNone || after == some '\n'
  | .wordBoundary => isWord? before != isWord? after
  | .noWordBoundary => isWord? before == isWord? after

end Pattern

/-- A description of texts. -/
inductive Pattern where
  | empty
  | char (charClass : Pattern.CharClass)
  | place (condition : Pattern.Anchor)
  | seq (first second : Pattern)
  | alt (left right : Pattern)
  | star (inner : Pattern)
deriving DecidableEq, Repr, Inhabited

namespace Pattern

/-- Whether a pattern matches the empty text between two characters. -/
def nullable (before after : Option Char) : Pattern → Bool
  | .empty => true
  | .char _ => false
  | .place condition => condition.holds before after
  | .seq first second => first.nullable before after && second.nullable before after
  | .alt left right => left.nullable before after || right.nullable before after
  | .star _ => true

/-- What can be left of a pattern behind a character. -/
def derive (before : Option Char) (c : Char) : Pattern → List Pattern
  | .empty => []
  | .char charClass => if charClass.contains c then [.empty] else []
  | .place _ => []
  | .seq first second =>
      let within := (first.derive before c).map fun rest => .seq rest second
      if first.nullable before (some c) then within ++ second.derive before c else within
  | .alt left right => left.derive before c ++ right.derive before c
  | .star inner => (inner.derive before c).map fun rest => .seq rest (.star inner)

/-- Whether a match ends or begins somewhere from here on, where `states` is what
is left of the matches under way. -/
def searchFrom (pattern : Pattern) (states : List Pattern) (before : Option Char) :
    List Char → Bool
  | [] => (pattern :: states).any (·.nullable before none)
  | c :: rest =>
      let states := pattern :: states
      states.any (·.nullable before (some c)) ||
        searchFrom pattern (states.flatMap (·.derive before c)).eraseDups (some c) rest

/-- Whether a pattern matches some part of a text. -/
def isFoundIn (pattern : Pattern) (text : String) : Bool :=
  pattern.searchFrom [] none text.toList

/-- What a pattern weighs: what the automaton that finds it takes in memory,
roughly. -/
def weight : Pattern → Nat
  | .char charClass => charClass.weight
  | .empty | .place _ => 32
  | .seq first second => first.weight + second.weight
  | .alt left right => left.weight + right.weight + 32
  | .star inner => inner.weight + 32

/-- The weight beyond which counted repetitions are refused. -/
def greatestWeight : Nat := 10485760

/-- A pattern that may be missing. -/
def optional (inner : Pattern) : Pattern := .alt inner .empty

/-- A pattern at least once. -/
def plus (inner : Pattern) : Pattern := .seq inner (.star inner)

/-- A pattern at most a number of times. -/
def atMost (inner : Pattern) : Nat → Pattern
  | 0 => .empty
  | count + 1 => optional (.seq inner (atMost inner count))

/-- A pattern a number of times and then something else. -/
def timesThen (inner : Pattern) (rest : Pattern) : Nat → Pattern
  | 0 => rest
  | count + 1 => .seq inner (timesThen inner rest count)

/-- A pattern a number of times within bounds. -/
def repeated (inner : Pattern) (least : Nat) : Option Nat → Pattern
  | none => timesThen inner (.star inner) least
  | some most => timesThen inner (atMost inner (most - least)) least

/-- Several patterns one after the other. -/
def sequence : List Pattern → Pattern
  | [] => .empty
  | [only] => only
  | first :: rest => .seq first (sequence rest)

/-- One of several patterns. -/
def oneOf : Pattern → List Pattern → Pattern
  | first, [] => first
  | first, second :: rest => .alt first (oneOf second rest)

end Pattern

end JavaInspect
