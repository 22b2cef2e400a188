import JavaInspect.Java.Lowering
import JavaInspect.Library.Loading
import JavaInspect.Library.Jdk
import JavaInspect.SourceUnit

/-!
# The front end

The front end turns a source text into a source unit. Every unit starts from the
bindings of one class path.
-/

namespace JavaInspect.Java

/-- The name of the language. -/
def languageName : String := "java"

/-- The extensions of the files that hold it. -/
def fileExtensions : List String := ["java"]

/-- Whether files with an extension, given without its dot, hold the
language. -/
def handlesExtension (extension : String) : Bool :=
  fileExtensions.contains extension

/-- What is shared by the source texts of one class path. -/
structure Frontend where
  /-- The bindings of the class path. -/
  base : Table := {}
deriving Repr, Inhabited

namespace Frontend

/-- The front end over a class path. -/
def ofClassPath (path : ClassPath) : Frontend :=
  { base := Table.load {} path }

/-- The source unit of a text that was read as a phrase. -/
def unitOf (frontend : Frontend) (path text : String) (root : Phrase) : SourceUnit :=
  let lowering := Lowering.ofPhrase frontend.base text root
  { path, source := text, tree := lowering.builder.build, table := lowering.table }

/-- The source unit of a text. -/
def unit (frontend : Frontend) (path text : String) : SourceUnit :=
  frontend.unitOf path text (parse text.toList)

end Frontend

end JavaInspect.Java
