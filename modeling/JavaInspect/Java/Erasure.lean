import JavaInspect.Text.Blank

/-!
# Erased type names

A type reference is looked up by its name without blanks and without type
arguments: the name of `Map.Entry<K, V>` is `Map.Entry`.
-/

namespace JavaInspect.Java

/-- The characters outside angle brackets that are not blank; `depth` counts
the open brackets. -/
def eraseWithin (depth : Nat) : List Char → List Char
  | [] => []
  | c :: rest =>
      if c = '<' then eraseWithin (depth + 1) rest
      else if c = '>' then eraseWithin (depth - 1) rest
      else if depth = 0 && !Text.isBlank c then c :: eraseWithin depth rest
      else eraseWithin depth rest

/-- A type reference without blanks and type arguments. -/
def eraseArguments (text : String) : String :=
  String.ofList (eraseWithin 0 text.toList)

/-- The number of dimensions that array brackets stand for. -/
def dimensionCount (text : String) : Nat :=
  text.toList.count '['

end JavaInspect.Java
