/-!
# Blank characters

The white space that trimming, directive parsing and comment recognition look
at: the twenty-five code points with the Unicode property White_Space.
-/

namespace JavaInspect.Text

/-- A character with the Unicode property White_Space. -/
def isBlank (c : Char) : Bool :=
  let code := c.toNat
  (0x09 ≤ code && code ≤ 0x0D) || code == 0x20 || code == 0x85 || code == 0xA0 ||
    code == 0x1680 || (0x2000 ≤ code && code ≤ 0x200A) || code == 0x2028 ||
    code == 0x2029 || code == 0x202F || code == 0x205F || code == 0x3000

/-- The characters without their leading blanks. -/
def trimStart (characters : List Char) : List Char :=
  characters.dropWhile isBlank

/-- The characters without their trailing blanks. -/
def trimEnd (characters : List Char) : List Char :=
  (characters.reverse.dropWhile isBlank).reverse

/-- The characters without blanks at either end. -/
def trim (characters : List Char) : List Char :=
  trimEnd (trimStart characters)

@[simp] theorem trim_nil : trim [] = [] := rfl

/-- The text without blanks at either end. -/
def trimmed (text : String) : String :=
  String.ofList (trim text.toList)

@[simp] theorem toList_trimmed (text : String) :
    (trimmed text).toList = trim text.toList := by
  simp [trimmed]

end JavaInspect.Text
