import JavaInspect.Text.Lines
import Mathlib.Data.List.Basic

/-!
# Texts line by line

A text that ends where a new line begins can be followed by any text without a change to its lines.
What stands in front of a text on one line changes the first line only.
-/

namespace JavaInspect.Text

/-- A text after which a new line begins. -/
def EndsLine (text : List Char) : Prop :=
  text = [] ∨ text.getLast? = some '\n'

/-- The first line of a text, empty when there is none. -/
def firstLine (text : List Char) : List Char :=
  (lines text).headD []

variable {c : Char} {text front back : List Char}

theorem EndsLine.of_cons (ended : EndsLine (c :: text)) : EndsLine text := by
  cases text with
  | nil => exact .inl rfl
  | cons next rest => exact .inr (by simpa [EndsLine] using ended)

@[simp] theorem lines_break : lines ('\n' :: text) = [] :: lines text := by
  rw [lines]

@[simp] theorem lines_return_break : lines ('\r' :: '\n' :: text) = [] :: lines text := by
  rw [lines]

theorem lines_ne_nil : lines (c :: text) ≠ [] := by
  rw [lines.eq_def]
  grind

/-- A character that begins no line end stands at the beginning of the first line. -/
theorem lines_cons (noBreak : c ≠ '\n') (noReturn : c = '\r' → text.head? ≠ some '\n') :
    lines (c :: text) = (c :: firstLine text) :: (lines text).tail := by
  rw [lines.eq_4 c text noBreak (by rintro rest rfl rfl; simp at noReturn), firstLine]
  cases lines text <;> rfl

/-- A text that ends where a line begins keeps its lines, whatever follows. -/
theorem lines_append (ended : EndsLine front) : lines (front ++ back) = lines front ++ lines back := by
  induction front using lines.induct with
  | case1 => simp
  | case2 rest ih => simp [ih ended.of_cons]
  | case3 rest ih => simp [ih ended.of_cons.of_cons]
  | case4 c rest noBreak _ noLines _ =>
      cases rest with
      | nil =>
          have isBreak : c = '\n' := by simpa [EndsLine] using ended
          exact absurd isBreak noBreak
      | cons next rest => exact absurd noLines lines_ne_nil
  | case5 c rest noBreak noReturn line others split ih =>
      have head : c = '\r' → (rest ++ back).head? ≠ some '\n' ∧ rest.head? ≠ some '\n' := by
        rintro rfl
        cases rest with
        | nil => simp at split
        | cons next rest =>
            have noBreak : next ≠ '\n' := by
              rintro rfl
              exact noReturn rest rfl rfl
            simpa using noBreak
      have continues := ih ended.of_cons
      rw [List.cons_append, lines_cons noBreak fun isReturn => (head isReturn).1,
        lines_cons noBreak fun isReturn => (head isReturn).2, firstLine, firstLine, continues, split]
      rfl

/-- A text on one line is its only line. -/
theorem lines_of_noBreak (noBreak : '\n' ∉ text) (nonempty : text ≠ []) : lines text = [text] := by
  induction text with
  | nil => exact absurd rfl nonempty
  | cons c rest ih =>
      rw [List.mem_cons, not_or] at noBreak
      have head : c = '\r' → rest.head? ≠ some '\n' := fun _ isBreak =>
        noBreak.2 (List.mem_of_mem_head? isBreak)
      rw [lines_cons (Ne.symm noBreak.1) head, firstLine]
      cases rest with
      | nil => simp
      | cons next rest => simp [ih noBreak.2]

theorem firstLine_cons (noBreak : c ≠ '\n') (noReturn : c ≠ '\r') :
    firstLine (c :: text) = c :: firstLine text := by
  rw [firstLine, lines_cons noBreak (fun isReturn => absurd isReturn noReturn)]
  rfl

theorem firstLine_eq_nil_of_break : firstLine ('\n' :: text) = [] := by
  simp [firstLine]

/-- On one line only the first line changes. -/
theorem tail_lines_cons (noBreak : c ≠ '\n') : (lines (c :: text)).tail = (lines text).tail := by
  by_cases lineEnd : c = '\r' ∧ text.head? = some '\n'
  · obtain ⟨rfl, isBreak⟩ := lineEnd
    cases text with
    | nil => simp at isBreak
    | cons next rest =>
        obtain rfl : next = '\n' := by simpa using isBreak
        simp
  · rw [lines_cons noBreak fun isReturn isBreak => lineEnd ⟨isReturn, isBreak⟩]
    rfl

theorem noBreak_firstLine (text : List Char) : '\n' ∉ firstLine text := by
  induction text using lines.induct with
  | case1 => simp [firstLine]
  | case2 | case3 => simp [firstLine]
  | case4 c rest noBreak noReturn noLines _ =>
      rw [firstLine, lines.eq_4 c rest noBreak noReturn, noLines]
      simpa using Ne.symm noBreak
  | case5 c rest noBreak noReturn line others split ih =>
      rw [firstLine, split] at ih
      rw [firstLine, lines.eq_4 c rest noBreak noReturn, split]
      simpa using ⟨Ne.symm noBreak, ih⟩

theorem lines_eq_cons (nonempty : text ≠ []) : lines text = firstLine text :: (lines text).tail := by
  cases text with
  | nil => exact absurd rfl nonempty
  | cons c text =>
      rw [firstLine]
      cases split : lines (c :: text) with
      | nil => exact absurd split lines_ne_nil
      | cons line others => rfl

end JavaInspect.Text
