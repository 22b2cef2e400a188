/-!
# Source spans

A span has a byte range and a start and an end position. Lines and columns
count from one; the default span, all zero, stands for "no place". The join of
two spans is the smallest span that covers both.
-/

namespace JavaInspect

/-- A place between two characters: a line and a column in bytes. -/
structure Position where
  line : Nat
  column : Nat
deriving DecidableEq, Repr, Inhabited

namespace Position

/-- Reading order: by line, then by column. -/
def le (first second : Position) : Bool :=
  first.line < second.line || (first.line == second.line && first.column ≤ second.column)

instance : LE Position := ⟨fun first second => first.le second = true⟩

instance : DecidableLE Position := fun first second =>
  inferInstanceAs (Decidable (first.le second = true))

theorem le_def {first second : Position} :
    first ≤ second ↔ first.line < second.line ∨
      (first.line = second.line ∧ first.column ≤ second.column) := by
  change first.le second = true ↔ _
  simp [le]

end Position

/-- A stretch of source text. -/
structure Span where
  /-- Offset of the first byte. -/
  startByte : Nat := 0
  /-- Offset after the last byte. -/
  endByte : Nat := 0
  startLine : Nat := 0
  startColumn : Nat := 0
  endLine : Nat := 0
  endColumn : Nat := 0
deriving DecidableEq, Repr, Inhabited

namespace Span

/-- Whole lines, without byte offsets. -/
def ofLines (first last : Nat) : Span :=
  { startLine := first, startColumn := 1, endLine := last, endColumn := 1 }

/-- Part of one line, without byte offsets. -/
def onLine (line startColumn endColumn : Nat) : Span :=
  { startLine := line, startColumn, endLine := line, endColumn }

/-- Where the span begins. -/
def start (span : Span) : Position := ⟨span.startLine, span.startColumn⟩

/-- Where the span ends. -/
def stop (span : Span) : Position := ⟨span.endLine, span.endColumn⟩

/-- Whether a line lies between the first and the last line of the span. -/
def containsLine (span : Span) (line : Nat) : Bool :=
  span.startLine ≤ line && line ≤ span.endLine

@[simp] theorem containsLine_iff {span : Span} {line : Nat} :
    span.containsLine line = true ↔ span.startLine ≤ line ∧ line ≤ span.endLine := by
  simp [containsLine]

/-- Whether the span covers no line, its end being above its start. -/
def isReversed (span : Span) : Bool :=
  span.endLine < span.startLine

/-- The lines of the span in increasing order. -/
def lineNumbers (span : Span) : List Nat :=
  List.range' span.startLine (span.endLine + 1 - span.startLine)

@[simp] theorem mem_lineNumbers {span : Span} {line : Nat} :
    line ∈ span.lineNumbers ↔ span.startLine ≤ line ∧ line ≤ span.endLine := by
  simp only [lineNumbers, List.mem_range'_1]
  omega

/-- The smallest span that covers both: from the earlier start to the later
end. -/
def join (first second : Span) : Span :=
  let (earlier, later) :=
    if first.start ≤ second.start then (first, second) else (second, first)
  let last := if earlier.stop ≤ later.stop then later else earlier
  { startByte := earlier.startByte
    endByte := last.endByte
    startLine := earlier.startLine
    startColumn := earlier.startColumn
    endLine := last.endLine
    endColumn := last.endColumn }

/-- The start position as findings show it. -/
def display (span : Span) : String :=
  s!"{span.startLine}:{span.startColumn}"

end Span

end JavaInspect
