import JavaInspect.Filter.InlineComments
import JavaInspect.Proofs.Filter.Scans
import JavaInspect.Proofs.Text.Lines

/-!
# Directives line by line

The directives of a text are read line by line. What is handed on from one line to the next is the
number of the line and whether the lines so far can be leading comments, and only directives for the
whole file look at either. So when one text is put in front of another, the directives for single
lines stay what they are, some lines further down; of the directives for the whole file the second
text may lose some and gains none.
-/

namespace JavaInspect

namespace Directive

/-- A directive for a single line. -/
def isForLine (directive : Directive) : Bool :=
  directive.scope != .file

/-- A directive for the whole file. -/
def isForFile (directive : Directive) : Bool :=
  directive.scope == .file

/-- The same directive some lines further down. -/
def movedDown (count : Nat) (directive : Directive) : Directive :=
  { directive with line := directive.line + count }

variable {directive : Directive} {header other : Bool} {number count : Nat} {line : List Char}
  {all front back : List (List Char)} {source : String}

/-! ## One line -/

theorem ofLine?_eq_some_iff : ofLine? header number line = some directive ↔
    ∃ text, inLine? line = some text ∧ scopeOf? header number text = some directive.scope ∧
      String.ofList text.rule = directive.rule ∧ String.ofList text.reason = directive.reason ∧
      number = directive.line := by
  cases directive
  simp [ofLine?, Option.bind_eq_some_iff]

@[simp] theorem ofLine?_nil : ofLine? header number [] = none := rfl

theorem scope_eq_file_iff {text : DirectiveText} {scope : DirectiveScope}
    (applies : scopeOf? header number text = some scope) :
    scope = .file ↔ text.word = .ignoreFile := by
  cases word : text.word with
  | ignoreFile => simp_all [scopeOf?]
  | ignoreNextLine => simp [scopeOf?, word] at applies; simp [← applies]
  | ignore =>
      simp only [scopeOf?, word] at applies
      split at applies <;> simp [← Option.some.inj applies]

/-- Where a directive for a single line applies does not depend on what is handed on. -/
theorem scopeOf?_of_word {text : DirectiveText} (isOther : text.word ≠ .ignoreFile)
    (header other : Bool) (number otherNumber : Nat) :
    scopeOf? header number text = scopeOf? other otherNumber text := by
  cases word : text.word <;> simp_all [scopeOf?]

/-- A directive that is honoured is honoured further up and among leading comments as well. -/
theorem scopeOf?_of_later {text : DirectiveText} {scope : DirectiveScope}
    (leading : header = true → other = true)
    (applies : scopeOf? header (number + count) text = some scope) :
    scopeOf? other number text = some scope := by
  cases word : text.word with
  | ignore => simp_all [scopeOf?]
  | ignoreNextLine => simp_all [scopeOf?]
  | ignoreFile =>
      simp only [scopeOf?, word, Option.ite_none_right_eq_some, Bool.or_eq_true,
        decide_eq_true_eq] at applies ⊢
      refine ⟨applies.1.imp leading fun early => ?_, applies.2⟩
      omega

theorem ofLine?_of_later (leading : header = true → other = true)
    (read : ofLine? header (number + count) line = some directive) :
    ∃ own, ofLine? other number line = some own ∧ directive = own.movedDown count := by
  obtain ⟨text, held, applies, isRule, isReason, isNumber⟩ := ofLine?_eq_some_iff.1 read
  refine ⟨{ directive with line := number }, ofLine?_eq_some_iff.2 ?_, ?_⟩
  · exact ⟨text, held, scopeOf?_of_later leading applies, isRule, isReason, rfl⟩
  · simp [movedDown, isNumber]

/-- A directive for a single line depends on the text of its line alone. -/
theorem filter_isForLine_ofLine? (header other : Bool) (number count : Nat) (line : List Char) :
    (ofLine? header (number + count) line).toList.filter isForLine =
      ((ofLine? other number line).toList.filter isForLine).map (movedDown count) := by
  rw [ofLine?, ofLine?]
  cases inLine? line with
  | none => simp
  | some text =>
      by_cases isFile : text.word = .ignoreFile
      · have noLine (header : Bool) (number : Nat) :
            scopeOf? header number text = none ∨ scopeOf? header number text = some .file := by
          cases scope : scopeOf? header number text with
          | none => exact .inl rfl
          | some scope => exact .inr (by rw [(scope_eq_file_iff scope).2 isFile])
        rcases noLine header (number + count) with applies | applies <;>
          rcases noLine other number with appliesOther | appliesOther <;>
          simp [applies, appliesOther, isForLine]
      · have same := scopeOf?_of_word isFile header other (number + count) number
        cases applies : scopeOf? other number text with
        | none => simp [same, applies]
        | some scope =>
            simp only [Option.bind_eq_bind, Option.bind_some, same, applies, Option.pure_def,
              Option.toList_some]
            simp [List.filter_cons, isForLine, (scope_eq_file_iff applies).not.2 isFile, movedDown]

theorem ofLine?_of_isForLine (forLine : directive.isForLine = true)
    (read : ofLine? header number line = some directive) :
    ofLine? other number line = some directive := by
  have both := filter_isForLine_ofLine? other header number 0 line
  have kept : directive ∈ (ofLine? other number line).toList.filter isForLine := by
    rw [← Nat.add_zero number, both]
    simp [read, forLine, movedDown]
  simpa [forLine] using kept

/-! ## Several lines -/

/-- The directives of some lines stay when others follow. -/
theorem ofLines_append : ofLines header number (front ++ back) =
    ofLines header number front ++
      ofLines (header && front.all isCommentOrBlank) (number + front.length) back := by
  induction front generalizing header number with
  | nil => simp [ofLines]
  | cons line rest ih =>
      simp only [List.cons_append, ofLines, ih, List.append_assoc, List.all_cons, Bool.and_assoc,
        List.length_cons, Nat.add_assoc, Nat.add_comm 1]

/-- Further up and among leading comments no directive is lost. -/
theorem sublist_ofLines (leading : header = true → other = true) :
    (ofLines header (number + count) all).Sublist
      ((ofLines other number all).map (movedDown count)) := by
  induction all generalizing header other number with
  | nil => simp [ofLines]
  | cons line rest ih =>
      have still : (header && isCommentOrBlank line) = true →
          (other && isCommentOrBlank line) = true := by
        simp only [Bool.and_eq_true]
        exact fun both => ⟨leading both.1, both.2⟩
      have step : (ofLine? (header && isCommentOrBlank line) (number + count) line).toList.Sublist
          ((ofLine? (other && isCommentOrBlank line) number line).toList.map (movedDown count)) := by
        cases read : ofLine? (header && isCommentOrBlank line) (number + count) line with
        | none => simp
        | some directive =>
            obtain ⟨own, isOwn, rfl⟩ := ofLine?_of_later still read
            simp [isOwn]
      have later : (ofLines (header && isCommentOrBlank line) (number + 1 + count) rest).Sublist
          ((ofLines (other && isCommentOrBlank line) (number + 1) rest).map (movedDown count)) :=
        ih still
      rw [Nat.add_right_comm] at later
      simp only [ofLines, List.map_append]
      exact step.append later

/-- The directives for single lines do not depend on what is handed on. -/
theorem filter_isForLine_ofLines (header other : Bool) (number count : Nat)
    (all : List (List Char)) : (ofLines header (number + count) all).filter isForLine =
      ((ofLines other number all).filter isForLine).map (movedDown count) := by
  induction all generalizing header other number with
  | nil => simp [ofLines]
  | cons line rest ih =>
      have later := ih (header && isCommentOrBlank line) (other && isCommentOrBlank line) (number + 1)
      rw [Nat.add_right_comm] at later
      simp only [ofLines, List.filter_append, List.map_append, later,
        filter_isForLine_ofLine? _ (other && isCommentOrBlank line)]

theorem mem_ofLines_iff : directive ∈ ofLines header number all ↔
    ∃ index line, all[index]? = some line ∧
      ofLine? (header && (all.take (index + 1)).all isCommentOrBlank) (number + index) line =
        some directive := by
  induction all generalizing header number with
  | nil => simp [ofLines]
  | cons first rest ih =>
      rw [ofLines, List.mem_append, Option.mem_toList, ih]
      constructor
      · rintro (read | ⟨index, line, held, read⟩)
        · exact ⟨0, first, rfl, by simpa using read⟩
        · refine ⟨index + 1, line, by simpa using held, ?_⟩
          simpa [Bool.and_assoc, Nat.add_assoc, Nat.add_comm 1] using read
      · rintro ⟨index, line, held, read⟩
        cases index with
        | zero =>
            obtain rfl : first = line := by simpa using held
            exact .inl (by simpa using read)
        | succ index =>
            refine .inr ⟨index, line, by simpa using held, ?_⟩
            simpa [Bool.and_assoc, Nat.add_assoc, Nat.add_comm 1] using read

theorem line_of_mem_ofLines (given : directive ∈ ofLines header number all) :
    number ≤ directive.line ∧ directive.line < number + all.length := by
  obtain ⟨index, line, held, read⟩ := mem_ofLines_iff.1 given
  obtain ⟨-, -, -, -, -, isNumber⟩ := ofLine?_eq_some_iff.1 read
  have inside : index < all.length := (List.getElem?_eq_some_iff.1 held).1
  omega

/-- The directives with the number of a line are those of the line. -/
theorem filter_line_ofLines : (ofLines header number (front ++ line :: back)).filter
      (·.line == number + front.length) =
    (ofLine? (header && front.all isCommentOrBlank && isCommentOrBlank line)
      (number + front.length) line).toList := by
  rw [ofLines_append, ofLines, List.filter_append, List.filter_append]
  have noneAbove : (ofLines header number front).filter (·.line == number + front.length) = [] := by
    rw [List.filter_eq_nil_iff]
    intro directive given
    have := (line_of_mem_ofLines given).2
    simp only [beq_iff_eq]
    omega
  have noneBelow (header : Bool) : (ofLines header (number + front.length + 1) back).filter
      (·.line == number + front.length) = [] := by
    rw [List.filter_eq_nil_iff]
    intro directive given
    have := (line_of_mem_ofLines given).1
    simp only [beq_iff_eq]
    omega
  rw [noneAbove, noneBelow, List.nil_append, List.append_nil, List.filter_eq_self]
  intro directive given
  obtain ⟨-, -, -, -, -, isNumber⟩ := ofLine?_eq_some_iff.1 (Option.mem_toList.1 given)
  simp [isNumber]

/-! ## Whole texts -/

/-- The directives of a text that ends where a line begins stay when another follows; those of the
other are read with what the first hands on. -/
theorem ofSource_append {first : String} (ended : Text.EndsLine first.toList) (second : String) :
    ofSource (first ++ second) =
      ofSource first ++ ofLines ((Text.lines first.toList).all isCommentOrBlank)
        (1 + (Text.lines first.toList).length) (Text.lines second.toList) := by
  rw [ofSource, String.toList_append, Text.lines_append ended, ofLines_append, Bool.true_and,
    ofSource]

theorem filter_line_ofSource (split : Text.lines source.toList = front ++ line :: back) :
    (ofSource source).filter (·.line == front.length + 1) =
      (ofLine? ((front ++ [line]).all isCommentOrBlank) (front.length + 1) line).toList := by
  rw [ofSource, split, Nat.add_comm, filter_line_ofLines]
  simp

theorem lineAt_eq_iff_of_ne_nil (nonempty : line ≠ []) {index : Nat} :
    (Text.lineAt source (index + 1)).toList = line ↔
      (Text.lines source.toList)[index]? = some line := by
  rw [Text.lineAt, Text.linesOf, List.getElem?_map]
  cases (Text.lines source.toList)[index]? with
  | none => simpa using Ne.symm nonempty
  | some held => simp

/-- Whether a directive for a single line belongs to a text is seen from its line alone. -/
theorem mem_ofSource_iff_of_isForLine (forLine : directive.isForLine = true) :
    directive ∈ ofSource source ↔
      ofLine? false directive.line (Text.lineAt source directive.line).toList = some directive := by
  rw [ofSource, mem_ofLines_iff]
  constructor
  · rintro ⟨index, line, held, read⟩
    have nonempty : line ≠ [] := by
      rintro rfl
      simp at read
    obtain ⟨-, -, -, -, -, isNumber⟩ := ofLine?_eq_some_iff.1 read
    rw [← isNumber, Nat.add_comm 1, (lineAt_eq_iff_of_ne_nil nonempty).2 held, Nat.add_comm index]
    exact ofLine?_of_isForLine forLine read
  · intro read
    have nonempty : (Text.lineAt source directive.line).toList ≠ [] := by
      intro isNil
      simp [isNil] at read
    cases number : directive.line with
    | zero => simp [number, Text.lineAt] at nonempty
    | succ index =>
        rw [number] at read nonempty
        refine ⟨index, _, (lineAt_eq_iff_of_ne_nil nonempty).1 rfl, ?_⟩
        rw [Nat.add_comm 1]
        exact ofLine?_of_isForLine forLine read

end Directive

/-! ## What is excluded -/

namespace InlineCommentFilter

open Directive

variable {directive : Directive} {name : String} {line : Nat} {source : String}

theorem coversLine_excludeFor {exclusions : Exclusions} :
    (excludeFor exclusions directive).CoversLine name line ↔
      exclusions.CoversLine name line ∨ directive.coveredLine? = some line ∧
        (directive.rule = everyRule ∨ ruleName directive.rule = name) := by
  rw [excludeFor]
  by_cases isEvery : directive.rule = everyRule
  · cases directive.coveredLine? with
    | none => simp [isEvery, Exclusions.CoversLine, Exclusions.excludeUnitForAnyRule]
    | some number =>
        have same : number ≤ line ∧ line ≤ number ↔ number = line := by omega
        simp [isEvery, Span.ofLines, same]
  · cases directive.coveredLine? with
    | none => simp [isEvery, Exclusions.CoversLine, Exclusions.excludeUnit]
    | some number => simp [isEvery, and_comm, eq_comm (a := line)]

theorem coversLine_exclusionsIn : (exclusionsIn source).CoversLine name line ↔
    ∃ directive ∈ ofSource source, directive.coveredLine? = some line ∧
      (directive.rule = everyRule ∨ ruleName directive.rule = name) := by
  have fold (directives : List Directive) (exclusions : Exclusions) :
      (directives.foldl excludeFor exclusions).CoversLine name line ↔
        exclusions.CoversLine name line ∨ ∃ directive ∈ directives,
          directive.coveredLine? = some line ∧
            (directive.rule = everyRule ∨ ruleName directive.rule = name) := by
    induction directives generalizing exclusions with
    | nil => simp
    | cons directive rest ih => simp [ih, coversLine_excludeFor, or_assoc]
  simp [exclusionsIn, fold]

/-- A line is excluded on account of its own text and that of the line before it. -/
theorem coversLine_of_sameLines {other : String}
    (sameBefore : Text.lineAt other (line - 1) = Text.lineAt source (line - 1))
    (same : Text.lineAt other line = Text.lineAt source line)
    (covers : (exclusionsIn source).CoversLine name line) :
    (exclusionsIn other).CoversLine name line := by
  obtain ⟨directive, given, covered, named⟩ := coversLine_exclusionsIn.1 covers
  have forLine : directive.isForLine = true := by
    rw [coveredLine?] at covered
    cases scope : directive.scope <;> simp_all [isForLine]
  have sameLine : Text.lineAt other directive.line = Text.lineAt source directive.line := by
    rw [coveredLine?] at covered
    cases scope : directive.scope with
    | file => simp [scope] at covered
    | line =>
        obtain rfl : directive.line = line := by simpa [scope] using covered
        exact same
    | nextLine =>
        obtain rfl : directive.line + 1 = line := by simpa [scope] using covered
        exact sameBefore
  refine coversLine_exclusionsIn.2 ⟨directive, ?_, covered, named⟩
  rw [mem_ofSource_iff_of_isForLine forLine] at given ⊢
  rw [sameLine]
  exact given

end InlineCommentFilter

namespace Directive

/-- For every text that ends where a line begins and every text behind it: the directives for single
lines are those of the first text and, as many lines further down as the first text has, those of
the second. The directives of the first text for the whole file are honoured still, and of those of
the second no other than are honoured in it alone. Whether a line is excluded for a rule by a
directive for a single line depends on the text of this line and the one before it. -/
theorem parts_read_apart (first second : String) (ended : Text.EndsLine first.toList) :
    let count := (Text.lines first.toList).length
    (ofSource (first ++ second)).filter isForLine =
        (ofSource first).filter isForLine ++
          ((ofSource second).filter isForLine).map (movedDown count) ∧
      (∃ honoured, (ofSource (first ++ second)).filter isForFile =
          (ofSource first).filter isForFile ++ honoured ∧
        honoured.Sublist (((ofSource second).filter isForFile).map (movedDown count))) ∧
      ∀ (unit other : SourceUnit) (cache : Cache) (line : Nat),
        other.line (line - 1) = unit.line (line - 1) → other.line line = unit.line line →
        ∀ name, (IssueFilter.inlineComments.scan other cache).1.CoversLine name line ↔
          (IssueFilter.inlineComments.scan unit cache).1.CoversLine name line := by
  intro count
  refine ⟨?_, ?_, ?_⟩
  · rw [ofSource_append ended, List.filter_append, filter_isForLine_ofLines _ true 1 count]
    rfl
  · refine ⟨_, by rw [ofSource_append ended, List.filter_append], ?_⟩
    have commutes : isForFile ∘ movedDown count = isForFile := rfl
    have fewer : (ofLines ((Text.lines first.toList).all isCommentOrBlank) (1 + count)
        (Text.lines second.toList)).Sublist ((ofSource second).map (movedDown count)) :=
      sublist_ofLines fun _ => rfl
    have fewerForFile := fewer.filter isForFile
    rw [List.filter_map, commutes] at fewerForFile
    exact fewerForFile
  · intro unit other cache line sameBefore same name
    constructor
    · exact InlineCommentFilter.coversLine_of_sameLines sameBefore.symm same.symm
    · exact InlineCommentFilter.coversLine_of_sameLines sameBefore same

/-- Ten lines of code and blanks with a directive at the end for the line behind them. -/
def upperText : String :=
  "class A \x7b\r\n\n\n\n\n\n\n\n\n// semacheck:ignore-next-line S100\n"

/-- A line of code with a directive and one for the whole file below. -/
def lowerText : String :=
  "int Id; // semacheck:ignore S1 - old\n// semacheck:ignore-file S2"

/-- The two lines where the texts meet, behind blank lines. -/
def seamText : String :=
  "\n\n\n\n\n\n\n\n\n// semacheck:ignore-next-line S100\n" ++
    "int Id; // semacheck:ignore S1 - old"

/-- A unit with a source text and nothing else. -/
def unitOf (source : String) : SourceUnit :=
  { path := "A.java", source, tree := default, table := default }

theorem parts_read_apart_upperText :
    Text.EndsLine upperText.toList ∧
      (ofSource (upperText ++ lowerText)).filter isForLine =
        [{ rule := "S100", reason := "", line := 10, scope := .nextLine },
          { rule := "S1", reason := "old", line := 11, scope := .line }] ∧
      (ofSource lowerText).filter isForFile =
        [{ rule := "S2", reason := "", line := 2, scope := .file }] ∧
      (ofSource (upperText ++ lowerText)).filter isForFile = [] ∧
      (unitOf seamText).line 10 = (unitOf (upperText ++ lowerText)).line 10 ∧
      (unitOf seamText).line 11 = (unitOf (upperText ++ lowerText)).line 11 ∧
      (IssueFilter.inlineComments.scan (unitOf seamText) {}).1.CoversLine "S100" 11 := by
  have ended : Text.EndsLine upperText.toList := .inr (by decide +kernel)
  have sameLines : (unitOf seamText).line 10 = (unitOf (upperText ++ lowerText)).line 10 ∧
      (unitOf seamText).line 11 = (unitOf (upperText ++ lowerText)).line 11 := by decide +kernel
  have forFile : (ofSource lowerText).filter isForFile =
        [{ rule := "S2", reason := "", line := 2, scope := .file }] ∧
      (ofSource (upperText ++ lowerText)).filter isForFile = [] := by decide +kernel
  have covers : (IssueFilter.inlineComments.scan (unitOf (upperText ++ lowerText)) {}).1.CoversLine
      "S100" 11 := .inl ⟨⟨[11], by decide⟩, by decide +kernel, LineSet.mem_def.2 (by decide)⟩
  obtain ⟨forLine, -, alike⟩ := parts_read_apart upperText lowerText ended
  refine ⟨ended, ?_, forFile.1, forFile.2, sameLines.1, sameLines.2, ?_⟩
  · rw [forLine]
    decide +kernel
  · exact (alike _ _ {} 11 sameLines.1 sameLines.2 "S100").2 covers

end Directive

end JavaInspect
