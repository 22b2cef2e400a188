import JavaInspect.Binding.Table
import JavaInspect.Text.Bytes
import JavaInspect.Text.Lines
import JavaInspect.Text.Quoted
import JavaInspect.Tree.Basic

/-!
# Source units

A source unit is one source text ready for inspection: its path, its text, its
syntax tree, and the bindings behind the tree.
-/

namespace JavaInspect

/-- One source text with its tree and bindings. -/
structure SourceUnit where
  path : String
  source : String
  tree : Tree
  table : Table
deriving Repr, Inhabited

namespace SourceUnit

/-- The text that a span covers, by its byte range. -/
def text (unit : SourceUnit) (span : Span) : String :=
  Text.slice unit.source.toList span.startByte span.endByte

/-- The line with the given number, counted from one. -/
def line (unit : SourceUnit) (number : Nat) : String :=
  Text.lineAt unit.source number

/-- A unit as it is shown in diagnostics. -/
def describe (unit : SourceUnit) : String :=
  s!"AnalysisUnit \x7b path: {Text.quoted unit.path}, nodes: {unit.tree.size} \x7d"

end SourceUnit

end JavaInspect
