import JavaInspect.Filter.Basic
import JavaInspect.Semantics.Annotated
import JavaInspect.Tree.Walk

/-!
# The filter of suppressed warnings

A declaration can carry an annotation that names rules. Their findings are removed
on every line of the declaration.
-/

namespace JavaInspect

namespace SuppressWarningsFilter

/-- The qualified name of the annotation. -/
def annotationName : String := "java.lang.SuppressWarnings"

/-- The name that stands for every rule. -/
def everyRule : String := "all"

variable (unit : SourceUnit)

/-- Whether an annotation suppresses warnings: by its type or, where the type is not
known, by the ending of its name. -/
def isSuppressing (mark : NodeId) : Query Bool := do
  let written := Query.nameEndsWith unit mark "SuppressWarnings"
  match unit.tree.binding mark with
  | none => return written
  | some binding =>
      if (← Query.typeOf unit.table binding).isUnknown then return written
      let type ← Query.typeOf unit.table binding
      return (← get).isNamed type annotationName

/-- The text between the quotes of a literal. -/
def unquoted? (literal : String) : Option String :=
  (Text.afterLead? "\"" literal).bind (Text.beforeTail? "\"")

/-- The names that an annotation holds. -/
def namesIn (tree : Tree) (mark : NodeId) : List String :=
  let literals := (tree.descendants mark).filter (tree.kind · == .literal)
  literals.filterMap fun literal => (tree.text literal).bind unquoted?

/-- Exclude the lines of a declaration, of which the span is given, for the rules
that a name stands for. -/
def excludeNamed (span : Span) (exclusions : Exclusions) (name : String) : Exclusions :=
  if name = everyRule then exclusions.excludeLinesForAnyRule span
  else exclusions.excludeLines name span

/-- Exclude on account of an annotation. -/
def excludeFor (exclusions : Exclusions) (mark : NodeId) : Query Exclusions := do
  if !(← isSuppressing unit mark) then return exclusions
  match unit.tree.parent mark with
  | none => return exclusions
  | some declaration =>
      let span := unit.tree.span declaration
      return (namesIn unit.tree mark).foldl (excludeNamed span) exclusions

/-- What is excluded from a unit, annotation by annotation. -/
def scan : Query Exclusions :=
  (unit.tree.preorder.filter (unit.tree.kind · == .annotationUse)).foldlM (excludeFor unit) {}

end SuppressWarningsFilter

/-- The filter of the annotations that suppress warnings. -/
def IssueFilter.suppressWarnings : IssueFilter :=
  { name := "suppress-warnings"
    scope := .anyRule
    scan := SuppressWarningsFilter.scan }

end JavaInspect
