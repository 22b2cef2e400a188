import JavaInspect.Text.Affix

/-!
# File names

The segments of a path are parted by slashes. Empty segments and those that stand
for the same directory do not count.
-/

namespace JavaInspect.Text

/-- The parts of a list between separators. -/
def splitAt (separator : Char) : List Char → List (List Char)
  | [] => [[]]
  | c :: rest =>
      if c = separator then [] :: splitAt separator rest
      else
        match splitAt separator rest with
        | [] => [[c]]
        | part :: parts => (c :: part) :: parts

/-- The segments of a path that count. -/
def segments (path : String) : List (List Char) :=
  (splitAt '/' path.toList).filter fun segment => segment != [] && segment != ['.']

/-- The last segment of a path, unless it stands for a directory above. -/
def fileName? (path : String) : Option (List Char) :=
  (segments path).getLast?.filter (· != ['.', '.'])

/-- One step of a way through directories, the latest first. Two dots take the step
before them back; there must be one. -/
def stepTo? (way : List (List Char)) (segment : List Char) : Option (List (List Char)) :=
  if segment = ['.', '.'] then
    match way with
    | [] => none
    | _ :: rest => some rest
  else some (segment :: way)

/-- The way from the working directory to the file of a relative path, the name of the
file first. Paths that name the same file have the same way. -/
def wayTo? (path : String) : Option (List (List Char)) :=
  match path.toList.head?, path.toList.getLast? with
  | some first, some last =>
      if first = '/' || last = '/' then none else (segments path).foldlM stepTo? []
  | _, _ => none

/-- What follows the last dot of a file name; nothing if there is no dot or if it is
the first character. -/
def extension (path : String) : String :=
  match (fileName? path).bind (splitAtLast? '.') with
  | some (_ :: _, after) => String.ofList after
  | _ => ""

end JavaInspect.Text
