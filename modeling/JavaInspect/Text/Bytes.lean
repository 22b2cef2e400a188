/-!
# Text by byte offsets

Positions in a source text are offsets into its UTF-8 encoding. A range that is
reversed, leaves the text or cuts a character denotes no text.
-/

namespace JavaInspect.Text

/-- What is left after exactly `count` bytes, when a character ends there. -/
def afterBytes? : Nat → List Char → Option (List Char)
  | 0, characters => some characters
  | _ + 1, [] => none
  | count + 1, c :: rest =>
      if c.utf8Size ≤ count + 1 then afterBytes? (count + 1 - c.utf8Size) rest
      else none

/-- The first `count` bytes, when a character ends there. -/
def firstBytes? : Nat → List Char → Option (List Char)
  | 0, _ => some []
  | _ + 1, [] => none
  | count + 1, c :: rest =>
      if c.utf8Size ≤ count + 1 then
        (firstBytes? (count + 1 - c.utf8Size) rest).map (c :: ·)
      else none

/-- The characters between two byte offsets. -/
def slice? (start stop : Nat) (characters : List Char) : Option (List Char) :=
  if start ≤ stop then (afterBytes? start characters).bind (firstBytes? (stop - start))
  else none

/-- The text between two byte offsets, empty when the range denotes none. -/
def slice (characters : List Char) (start stop : Nat) : String :=
  String.ofList ((slice? start stop characters).getD [])

/-- The number of bytes of the UTF-8 encoding. -/
def byteLength : List Char → Nat
  | [] => 0
  | c :: rest => c.utf8Size + byteLength rest

@[simp] theorem byteLength_nil : byteLength [] = 0 := rfl

@[simp] theorem byteLength_cons (c : Char) (rest : List Char) :
    byteLength (c :: rest) = c.utf8Size + byteLength rest := rfl

end JavaInspect.Text
