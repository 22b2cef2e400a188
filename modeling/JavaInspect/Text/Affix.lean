/-!
# Beginnings, endings and separators

Cutting a known beginning or ending off a text, and cutting a text at the last
occurrence of a separator.
-/

namespace JavaInspect.Text

/-- What follows `lead` in a text that begins with it. -/
def afterLead? (lead text : String) : Option String :=
  (lead.toList.isPrefixOf? text.toList).map String.ofList

/-- What precedes `tail` in a text that ends with it. -/
def beforeTail? (tail text : String) : Option String :=
  (tail.toList.isSuffixOf? text.toList).map String.ofList

/-- Whether a text begins with `lead`. -/
def startsWith (lead text : String) : Bool :=
  lead.toList.isPrefixOf text.toList

/-- Whether a text ends with `tail`. -/
def endsWith (tail text : String) : Bool :=
  tail.toList.isSuffixOf text.toList

/-- The parts of a list before and after the last occurrence of a separator. -/
def splitAtLast? (separator : Char) : List Char → Option (List Char × List Char)
  | [] => none
  | c :: rest =>
      match splitAtLast? separator rest with
      | some (before, after) => some (c :: before, after)
      | none => if c = separator then some ([], rest) else none

/-- The parts of a dotted name before and after its last dot. -/
def splitQualified? (name : String) : Option (String × String) :=
  (splitAtLast? '.' name.toList).map fun (qualifier, simple) =>
    (String.ofList qualifier, String.ofList simple)

/-- The last segment of a dotted name. -/
def simpleName (name : String) : String :=
  match splitQualified? name with
  | some (_, simple) => simple
  | none => name

/-- Texts joined by a separator. -/
def joinWith (separator : String) (texts : List String) : String :=
  String.intercalate separator texts

end JavaInspect.Text
