/-!
# Lines of a text

A line ends at a line feed, which takes one carriage return before it along.
Text after the last line feed is a line of its own unless it is empty, and
keeps a carriage return at its end.
-/

namespace JavaInspect.Text

/-- The lines of a text, without their terminators. -/
def lines : List Char → List (List Char)
  | [] => []
  | '\n' :: rest => [] :: lines rest
  | '\r' :: '\n' :: rest => [] :: lines rest
  | c :: rest =>
      match lines rest with
      | [] => [[c]]
      | line :: others => (c :: line) :: others

@[simp] theorem lines_nil : lines [] = [] := by simp [lines]

/-- The lines of a string. -/
def linesOf (text : String) : List String :=
  (lines text.toList).map String.ofList

/-- The line with the given number, counted from one; empty when there is no
such line. -/
def lineAt (text : String) (number : Nat) : String :=
  match number with
  | 0 => ""
  | index + 1 => (linesOf text)[index]?.getD ""

end JavaInspect.Text
