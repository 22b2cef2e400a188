import JavaInspect.Analysis.Runner
import JavaInspect.Java.Frontend
import JavaInspect.Library.Description
import JavaInspect.Text.FileName

/-!
# Analysis of files

A file is analysed if its extension is one of the language, it can be read as text, and the
front end makes a source unit of it. How files are read is left to the caller.
-/

namespace JavaInspect

/-- Why there is no source unit of a file. -/
inductive FileError where
  /-- The file cannot be read, for a reason that the caller knows. -/
  | unreadable (reason : String)
  /-- The extension of the file is not one of the language. -/
  | otherLanguage (language path : String)
  /-- The front end makes no source unit of the text. -/
  | unparsed (reason : String)
deriving DecidableEq, Repr, Inhabited

namespace FileError

/-- What a file without a source unit is reported as. -/
def message : FileError → String
  | .unreadable reason | .unparsed reason => reason
  | .otherLanguage language path => s!"no {language} front-end for {path}"

end FileError

/-- What makes source units of the files of one language. -/
structure FrontEnd where
  languageName : String
  /-- The extensions of the files that hold the language. -/
  fileExtensions : List String
  /-- The source unit of a file with a path and a text; it fails with a reason. -/
  parse : String → String → Except String SourceUnit

namespace FrontEnd

/-- Whether files with an extension, given without its dot, hold the language. -/
def handlesExtension (frontEnd : FrontEnd) (extension : String) : Bool :=
  frontEnd.fileExtensions.contains extension

end FrontEnd

/-- The front end for Java, which makes a source unit of every text. -/
def Java.Frontend.frontEnd (frontend : Java.Frontend) : FrontEnd :=
  { languageName := Java.languageName
    fileExtensions := Java.fileExtensions
    parse := fun path text => .ok (frontend.unit path text) }

/-- A way to read files; it fails with a reason. -/
abbrev FileReader := String → Except String String

namespace FileReader

/-- The reason for which a file that does not exist cannot be read. -/
def missing : String := "os error"

/-- The reason for which a file that is not text cannot be read. -/
def notText : String := "invalid utf-8"

/-- The reader of files held in memory by their relative paths. Of two files with one
name the later is read. -/
def ofFiles (files : List (String × ByteArray)) : FileReader := fun path =>
  let isAsked (name : String) : Bool :=
    (Text.wayTo? name).isSome && Text.wayTo? name == Text.wayTo? path
  match files.reverse.find? fun (name, _) => isAsked name with
  | none => .error missing
  | some (_, bytes) => (String.fromUTF8? bytes).elim (.error notText) .ok

end FileReader

namespace Configuration

/-- The configuration that a file holds. -/
def load? (read : FileReader) (path : String) : Option Configuration :=
  (read path).toOption.bind ofYaml?

/-- The class path of the library merged with the files of a configuration; absent if
one of them cannot be read. -/
def loadClassPath? (configuration : Configuration) (read : FileReader) : Option ClassPath := do
  let parts ← configuration.classPathFiles.mapM fun path =>
    (read path).toOption.bind ClassPath.ofYaml?
  return parts.foldl .merge .jdk

end Configuration

namespace Runner

/-- The source unit of a file, or why there is none. -/
def loadUnit (frontEnd : FrontEnd) (read : FileReader) (path : String) :
    Except FileError SourceUnit :=
  if frontEnd.handlesExtension (Text.extension path) then do
    let text ← (read path).mapError .unreadable
    (frontEnd.parse path text).mapError .unparsed
  else .error (.otherLanguage frontEnd.languageName path)

/-- The source unit of a file, or the failure it is reported as. -/
def readUnit (frontEnd : FrontEnd) (read : FileReader) (path : String) :
    Except UnitFailure SourceUnit :=
  (loadUnit frontEnd read path).mapError fun error => { path, error := error.message }

/-- The source units among the outcomes of reading files. -/
def unitsOf (outcomes : List (Except UnitFailure SourceUnit)) : List SourceUnit :=
  outcomes.filterMap Except.toOption

/-- The failures among the outcomes of reading files. -/
def failuresOf (outcomes : List (Except UnitFailure SourceUnit)) : List UnitFailure :=
  outcomes.filterMap fun
    | .ok _ => none
    | .error failure => some failure

/-- Read files and analyse them with a front end. The failures of files that have no source
unit come after those of units. -/
def analyzeFilesWith (runner : Runner) (frontEnd : FrontEnd) (read : FileReader)
    (paths : List String) : AnalysisResult :=
  let outcomes := paths.map (readUnit frontEnd read)
  (runner.analyzeAll (unitsOf outcomes)).merge { failures := failuresOf outcomes }

/-- Read files and analyse them with the front end for Java. -/
def analyzeFiles (runner : Runner) (frontend : Java.Frontend) (read : FileReader)
    (paths : List String) : AnalysisResult :=
  runner.analyzeFilesWith frontend.frontEnd read paths

end Runner

end JavaInspect
