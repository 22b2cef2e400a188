import JavaInspect.Library.Type

/-!
# Class paths

A class path lists library types. Merging keeps names distinct: a type that is
already listed is replaced where it stands, a new one is appended.
-/

namespace JavaInspect

/-- An ordered list of library types. -/
structure ClassPath where
  types : List LibraryType := []
deriving DecidableEq, Repr, Inhabited

namespace ClassPath

/-- The number of types. -/
def size (path : ClassPath) : Nat := path.types.length

/-- Whether the class path lists no type. -/
def isEmpty (path : ClassPath) : Bool := path.types.isEmpty

/-- The names of the types in order. -/
def names (path : ClassPath) : List String := path.types.map (·.name)

/-- The first description of a type. -/
def get? (path : ClassPath) (name : String) : Option LibraryType :=
  path.types.find? (·.name == name)

/-- Whether a type is described. -/
def contains (path : ClassPath) (name : String) : Bool := (path.get? name).isSome

/-- Replace the first description of the same name, or append a new one. -/
def insertInto (type : LibraryType) : List LibraryType → List LibraryType
  | [] => [type]
  | known :: rest =>
      if known.name = type.name then type :: rest else known :: insertInto type rest

/-- Add one type; a type of the same name is replaced. -/
def insert (path : ClassPath) (type : LibraryType) : ClassPath :=
  ⟨insertInto type path.types⟩

/-- Add every type of another class path in order. -/
def merge (path other : ClassPath) : ClassPath :=
  other.types.foldl insert path

/-- The class path with a type left out, as an incomplete environment is. -/
def without (path : ClassPath) (name : String) : ClassPath :=
  ⟨path.types.filter (·.name != name)⟩

end ClassPath

end JavaInspect
