import JavaInspect.Java.Grammar.Cursor

/-!
# Operators

Operators by precedence, and the joining of closing angle brackets into shift
and comparison operators.
-/

namespace JavaInspect.Java.Grammar

open Reader

/-- The operators that assign. -/
def assignmentOperators : List String :=
  ["=", "+=", "-=", "*=", "/=", "&=", "|=", "^=", "%=", "<<=", ">>=", ">>>="]

/-- The left-associative binary operators, loosest first. -/
def binaryOperators : List (List String) :=
  [["||"], ["&&"], ["|"], ["^"], ["&"], ["==", "!="], ["<", ">", "<=", ">="],
    ["<<", ">>", ">>>"], ["+", "-"], ["*", "/", "%"]]

/-- What a closing angle bracket is continued by: up to a number of further
brackets and an equals sign, each right behind the other. The result holds the
text and the number of tokens. -/
def bracketRun (last : Token) (budget : Nat) : List Token → String × Nat
  | [] => ("", 0)
  | next :: rest =>
      if next.span.startByte ≠ last.span.endByte then ("", 0)
      else if next.isSymbol "=" then ("=", 1)
      else if next.isSymbol ">" && 0 < budget then
        let (text, count) := bracketRun next (budget - 1) rest
        (">" ++ text, count + 1)
      else ("", 0)

/-- The operator at the front of the tokens ahead, and its number of tokens. -/
def operatorAhead : List Token → Option (String × Nat)
  | [] => none
  | token :: rest =>
      if token.kind != .symbol then none
      else if token.text == ">" then
        let (text, count) := bracketRun token 2 rest
        some (">" ++ text, count + 1)
      else some (token.text, 1)

/-- Read a number of tokens. -/
def skip : Nat → Reader Unit
  | 0 => pure ()
  | count + 1 => do
      let _ ← satisfy fun _ => true
      skip count

/-- Read one of several operators. -/
def operator (accepted : List String) : Reader Phrase := do
  match operatorAhead (← get).ahead with
  | none => failure
  | some (text, count) =>
      require (accepted.contains text)
      into .operator (leaf .token (skip count))

end JavaInspect.Java.Grammar
