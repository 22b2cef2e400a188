import JavaInspect.Document.Value

/-!
# Records in documents

A record is written as a mapping from field names to values, or as the list of
the values of its first fields in order. Fields that the record does not have are
ignored; one that it has must not be given twice. A node without content is a
record without fields.
-/

namespace JavaInspect.Document

/-- The given fields of a record. -/
abbrev Fields := List (String × Value)

namespace Fields

/-- The entries of a mapping whose keys are among the known names. It fails on a
key that is no scalar and on a known name that is given twice. -/
def ofEntries? (names : List String) : List (Value × Value) → Option Fields
  | [] => some []
  | (key, value) :: entries => do
      let name ← key.asKey
      let others ← ofEntries? names entries
      if !names.contains name then return others
      if (others.lookup name).isSome then none else return (name, value) :: others

/-- The fields of a record with the given field names. -/
def ofValue? (names : List String) : Decoder Fields
  | .mapping entries => ofEntries? names entries
  | .sequence items =>
      if items.length ≤ names.length then some (names.zip items) else none
  | .plain text => if text.isEmpty then some [] else none
  | _ => none

/-- A field that must be given. -/
def required (fields : Fields) (name : String) (decode : Decoder α) : Option α :=
  (fields.lookup name).bind decode

/-- A field with a value for where it is not given. -/
def optional (fields : Fields) (name : String) (decode : Decoder α) (fallback : α) :
    Option α :=
  match fields.lookup name with
  | some value => decode value
  | none => some fallback

end Fields

end JavaInspect.Document
