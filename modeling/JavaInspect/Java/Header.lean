import JavaInspect.Java.Erasure
import JavaInspect.Java.Phrase
import JavaInspect.Text.Affix

/-!
# Headers

What a source text says about its package and its imports. Package and import
declarations count wherever they stand; the last package wins, and of two
imports of one simple name the later one does. Static imports bring no types.
-/

namespace JavaInspect.Java

/-- The package and the imports of a source text. -/
structure Header where
  package : Option String := none
  /-- Imported types by simple name, the latest first. -/
  imports : List (String × String) := []
  /-- Packages and types whose members are imported on demand. -/
  wildcards : List String := []
deriving DecidableEq, Repr, Inhabited

namespace Phrase

mutual

/-- A phrase and all below it in source order. -/
def all : Phrase → List Phrase
  | .node number construct slot span parts =>
      .node number construct slot span parts :: allOf parts

/-- Phrases and all below them in source order. -/
def allOf : List Phrase → List Phrase
  | [] => []
  | part :: parts => all part ++ allOf parts

end

/-- Whether a phrase is a simple or dotted name. -/
def isName (phrase : Phrase) : Bool :=
  phrase.construct == .identifier || phrase.construct == .scopedIdentifier

/-- The simple and dotted names among the parts of a phrase. -/
def names (phrase : Phrase) : List Phrase := phrase.parts.filter isName

end Phrase

namespace Header

variable (source : List Char)

/-- Add an import of a type or of the members of a package. -/
def addImport (declaration : Phrase) (header : Header) (name : Phrase) : Header :=
  let path := eraseArguments (name.text source)
  if declaration.parts.any (·.construct == .token) then header
  else if declaration.parts.any (·.construct == .asterisk) then
    { header with wildcards := header.wildcards ++ [path] }
  else
    match Text.splitQualified? path with
    | some (_, simple) => { header with imports := (simple, path) :: header.imports }
    | none => header

/-- Add what one phrase says. -/
def addPhrase (header : Header) (phrase : Phrase) : Header :=
  match phrase.construct with
  | .packageDeclaration =>
      phrase.names.foldl
        (fun header name => { header with package := some (eraseArguments (name.text source)) })
        header
  | .importDeclaration => phrase.names.foldl (addImport source phrase) header
  | _ => header

/-- The header of a source text. -/
def read (root : Phrase) : Header :=
  root.all.foldl (addPhrase source) {}

/-- The qualified name of a top-level type in the package of the source text. -/
def qualify (header : Header) (name : String) : String :=
  match header.package with
  | some package => package ++ "." ++ name
  | none => name

end Header

end JavaInspect.Java
