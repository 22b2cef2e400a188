import JavaInspect.Proofs.Filter.DirectiveComments
import Mathlib.Data.List.Infix

/-!
# Directives for the whole file

A directive for the whole file is honoured in the first lines of a file and as long as every line,
the one of the directive included, looks like one of leading comments: blanks aside it is empty or
begins with a star or with the opening of a comment. Comments are not told from code in any other
way. So blanks and complete comments alone do not lead to a directive that is honoured, unless the
lines inside the comments look like this as well.
-/

namespace JavaInspect

open Text

namespace Directive

variable {c : Char} {form : CommentForm} {lead rest text line front back : List Char}

/-! ## Lines of leading comments -/

/-- A line that looks like one of leading comments. -/
inductive LooksLeading : List Char → Prop where
  | blank {line : List Char} : Blank line → LooksLeading line
  | star {lead rest : List Char} : Blank lead → LooksLeading (lead ++ '*' :: rest)
  | opening (form : CommentForm) {lead rest : List Char} :
      Blank lead → LooksLeading (lead ++ (form.opening ++ rest))

theorem isCommentOrBlank_append (blank : Blank lead) :
    isCommentOrBlank (lead ++ rest) = isCommentOrBlank rest := by
  rw [isCommentOrBlank, isCommentOrBlank, trim, trim, trimStart_append blank]

@[simp] theorem isCommentOrBlank_nil : isCommentOrBlank [] = true := rfl

theorem isCommentOrBlank_cons_blank (blank : isBlank c = true) :
    isCommentOrBlank (c :: rest) = isCommentOrBlank rest := by
  have lead : Blank [c] := by simpa [Blank] using blank
  exact isCommentOrBlank_append lead

/-- Behind its blanks a line is judged by two characters. -/
theorem isCommentOrBlank_cons_solid (solid : isBlank c = false) :
    isCommentOrBlank (c :: rest) = true ↔
      c = '*' ∨ c = '/' ∧ (rest.head? = some '/' ∨ rest.head? = some '*') := by
  have slash : (trimEnd rest).head? = some '/' ↔ rest.head? = some '/' :=
    head?_trimEnd_iff (by decide)
  have star : (trimEnd rest).head? = some '*' ↔ rest.head? = some '*' :=
    head?_trimEnd_iff (by decide)
  rw [← slash, ← star, isCommentOrBlank, trim, trimStart_cons_solid solid, trimEnd_cons_solid solid]
  cases trimEnd rest <;> grind

theorem isCommentOrBlank_opening (form : CommentForm) :
    isCommentOrBlank (form.opening ++ rest) = true := by
  cases form with
  | line => exact (isCommentOrBlank_cons_solid (by decide)).2 (.inr ⟨rfl, .inl rfl⟩)
  | block => exact (isCommentOrBlank_cons_solid (by decide)).2 (.inr ⟨rfl, .inr rfl⟩)

theorem isCommentOrBlank_iff : isCommentOrBlank line = true ↔ LooksLeading line := by
  constructor
  · intro looks
    obtain ⟨lead, blank, parts⟩ := exists_trimStart line
    rw [parts, isCommentOrBlank_append blank] at looks
    cases begins : trimStart line with
    | nil => exact .blank (trimStart_eq_nil_iff.1 begins)
    | cons c rest =>
        rw [begins, isCommentOrBlank_cons_solid (solid_of_trimStart begins)] at looks
        rw [parts, begins]
        rcases looks with rfl | ⟨rfl, next | next⟩
        · exact .star blank
        · obtain ⟨tail, rfl⟩ := List.head?_eq_some_iff.1 next
          exact .opening .line blank
        · obtain ⟨tail, rfl⟩ := List.head?_eq_some_iff.1 next
          exact .opening .block blank
  · intro looks
    cases looks with
    | blank blank => rw [← List.append_nil line, isCommentOrBlank_append blank, isCommentOrBlank_nil]
    | star blank =>
        rw [isCommentOrBlank_append blank]
        exact (isCommentOrBlank_cons_solid (by decide)).2 (.inl rfl)
    | opening form blank => rw [isCommentOrBlank_append blank, isCommentOrBlank_opening]

/-! ## Blanks and comments -/

/-- Blanks and complete comments. The lines of comments between delimiters, their first line apart,
are laid out in some way. -/
inductive LeadingText (layout : List Char → Prop) : List Char → Prop where
  | nil : LeadingText layout []
  | blank {c : Char} {rest : List Char} :
      isBlank c = true → LeadingText layout rest → LeadingText layout (c :: rest)
  | line {body rest : List Char} :
      '\n' ∉ body → LeadingText layout rest →
      LeadingText layout (CommentForm.line.opening ++ (body ++ '\n' :: rest))
  | block {body rest : List Char} :
      ¬ ['*', '/'] <:+: body → (∀ line ∈ (lines body).tail, layout line) →
      LeadingText layout rest →
      LeadingText layout (CommentForm.block.opening ++ (body ++ '*' :: '/' :: rest))

/-- Every line of a text looks like one of leading comments. -/
def Leads (text : List Char) : Prop :=
  ∀ line ∈ lines text, isCommentOrBlank line = true

/-- The same of every line but the first. -/
def LeadsOn (text : List Char) : Prop :=
  ∀ line ∈ (lines text).tail, isCommentOrBlank line = true

theorem leads_iff : Leads text ↔ isCommentOrBlank (firstLine text) = true ∧ LeadsOn text := by
  rw [Leads, LeadsOn, firstLine]
  cases lines text <;> simp

theorem leadsOn_break : LeadsOn ('\n' :: text) ↔ Leads text := by
  simp [LeadsOn, Leads]

theorem leadsOn_cons (noBreak : c ≠ '\n') : LeadsOn (c :: text) ↔ LeadsOn text := by
  rw [LeadsOn, LeadsOn, tail_lines_cons noBreak]

theorem leadsOn_append (noBreak : '\n' ∉ front) : LeadsOn (front ++ back) ↔ LeadsOn back := by
  induction front with
  | nil => rfl
  | cons c front ih =>
      rw [List.mem_cons, not_or] at noBreak
      rw [List.cons_append, leadsOn_cons (Ne.symm noBreak.1), ih noBreak.2]

theorem leadsOn_of_noBreak (noBreak : '\n' ∉ text) : LeadsOn text := by
  rw [← List.append_nil text, leadsOn_append noBreak]
  simp [LeadsOn]

/-- A blank in front changes nothing. -/
theorem firstLine_cons_blank (blank : isBlank c = true) (noBreak : c ≠ '\n') :
    isCommentOrBlank (firstLine (c :: text)) = isCommentOrBlank (firstLine text) := by
  by_cases lineEnd : c = '\r' ∧ text.head? = some '\n'
  · obtain ⟨rfl, isBreak⟩ := lineEnd
    obtain ⟨rest, rfl⟩ := List.head?_eq_some_iff.1 isBreak
    simp [firstLine]
  · rw [firstLine, lines_cons noBreak fun isReturn isBreak => lineEnd ⟨isReturn, isBreak⟩]
    exact isCommentOrBlank_cons_blank blank

theorem leads_cons_blank (blank : isBlank c = true) : Leads (c :: text) ↔ Leads text := by
  by_cases isBreak : c = '\n'
  · subst isBreak
    rw [leads_iff, firstLine_eq_nil_of_break, leadsOn_break]
    simp
  · rw [leads_iff, leads_iff, firstLine_cons_blank blank isBreak, leadsOn_cons isBreak]

theorem leads_opening : Leads (form.opening ++ text) ↔ LeadsOn text := by
  have noBreak : '\n' ∉ form.opening := by cases form <;> decide
  have first : isCommentOrBlank (firstLine (form.opening ++ text)) = true := by
    cases form <;>
      simp only [CommentForm.opening, List.cons_append, List.nil_append,
        firstLine_cons (c := '/') (by decide) (by decide),
        firstLine_cons (c := '*') (by decide) (by decide)]
    · exact isCommentOrBlank_opening .line
    · exact isCommentOrBlank_opening .block
  rw [leads_iff, first, leadsOn_append noBreak]
  simp

theorem ne_of_solid {d : Char} (solid : isBlank c = false) (blank : isBlank d = true) : c ≠ d := by
  rintro rfl
  simp [solid] at blank

theorem firstLine_cons_solid (solid : isBlank c = false) :
    firstLine (c :: text) = c :: firstLine text :=
  firstLine_cons (ne_of_solid solid (by decide)) (ne_of_solid solid (by decide))

theorem head?_firstLine_iff (solid : isBlank c = false) :
    (firstLine text).head? = some c ↔ text.head? = some c := by
  cases text with
  | nil => rfl
  | cons d text =>
      cases blank : isBlank d with
      | false => simp [firstLine_cons_solid blank]
      | true =>
          have distinct : d ≠ c := (ne_of_solid solid blank).symm
          rw [firstLine, lines.eq_def]
          grind

/-- A line inside a comment that looks right does so with the end of the comment as well. -/
theorem firstLine_closing (looks : isCommentOrBlank (firstLine front) = true) :
    isCommentOrBlank (firstLine (front ++ '*' :: back)) = true := by
  induction front with
  | nil =>
      rw [List.nil_append, firstLine_cons_solid (by decide),
        isCommentOrBlank_cons_solid (by decide)]
      exact .inl rfl
  | cons c front ih =>
      cases blank : isBlank c with
      | false =>
          rw [firstLine_cons_solid blank, isCommentOrBlank_cons_solid blank,
            head?_firstLine_iff (by decide), head?_firstLine_iff (by decide)] at looks
          rw [List.cons_append, firstLine_cons_solid blank, isCommentOrBlank_cons_solid blank,
            head?_firstLine_iff (by decide), head?_firstLine_iff (by decide)]
          refine looks.imp_right fun ⟨isSlash, next⟩ => ⟨isSlash, next.imp ?_ ?_⟩ <;>
            · intro isNext
              obtain ⟨rest, rfl⟩ := List.head?_eq_some_iff.1 isNext
              rfl
      | true =>
          by_cases isBreak : c = '\n'
          · simp [isBreak, firstLine_eq_nil_of_break]
          · rw [firstLine_cons_blank blank isBreak] at looks
            rw [List.cons_append, firstLine_cons_blank blank isBreak]
            exact ih looks

theorem leadsOn_block (inside : LeadsOn front) (after : LeadsOn back) :
    LeadsOn (front ++ '*' :: '/' :: back) := by
  induction front with
  | nil => simpa [leadsOn_cons] using after
  | cons c front ih =>
      by_cases isBreak : c = '\n'
      · subst isBreak
        rw [leadsOn_break, leads_iff] at inside
        rw [List.cons_append, leadsOn_break, leads_iff]
        exact ⟨firstLine_closing inside.1, ih inside.2⟩
      · rw [List.cons_append, leadsOn_cons isBreak]
        exact ih ((leadsOn_cons isBreak).1 inside)

/-- Blanks and comments in front keep the look of leading comments, if the lines in the comments have
it. -/
theorem leads_of_leadingText (leading : LeadingText LooksLeading front) (leads : Leads back) :
    Leads (front ++ back) := by
  induction leading with
  | nil => exact leads
  | blank blank _ ih => exact (leads_cons_blank blank).2 ih
  | @line body rest noBreak _ ih =>
      rw [List.append_assoc, leads_opening, List.append_assoc, leadsOn_append noBreak]
      exact leadsOn_break.2 ih
  | @block body rest _ inside _ ih =>
      rw [List.append_assoc, leads_opening, List.append_assoc]
      refine leadsOn_block ?_ (leads_iff.1 ih).2
      exact fun line listed => isCommentOrBlank_iff.2 (inside line listed)

/-! ## Directives that are honoured -/

variable {source : String} {above below : List Char} {text : DirectiveText}

/-- A directive for the whole file is honoured. -/
def Honours (source : String) (number : Nat) (rule : List Char) : Prop :=
  ∃ directive ∈ ofSource source,
    directive.line = number ∧ directive.scope = .file ∧ directive.rule = String.ofList rule

theorem honours_iff {earlier later : List (List Char)}
    (split : lines source.toList = earlier ++ line :: later) (read : inLine? line = some text)
    (isFile : text.word = .ignoreFile) :
    Honours source (earlier.length + 1) text.rule ↔
      earlier.length + 1 ≤ headerLines ∨ ∀ other ∈ earlier ++ [line], LooksLeading other := by
  have onLine (directive : Directive) :
      directive ∈ ofSource source ∧ directive.line = earlier.length + 1 ↔
        ofLine? ((earlier ++ [line]).all isCommentOrBlank) (earlier.length + 1) line =
          some directive := by
    rw [← Option.mem_toList, ← filter_line_ofSource split]
    simp
  have leading : (earlier ++ [line]).all isCommentOrBlank = true ↔
      ∀ other ∈ earlier ++ [line], LooksLeading other := by
    simp only [List.all_eq_true, isCommentOrBlank_iff]
  have applies (scope : DirectiveScope) :
      scopeOf? ((earlier ++ [line]).all isCommentOrBlank) (earlier.length + 1) text = some scope ↔
        (earlier.length + 1 ≤ headerLines ∨ ∀ other ∈ earlier ++ [line], LooksLeading other) ∧
          .file = scope := by
    rw [scopeOf?, isFile, ← leading, or_comm]
    simp
  constructor
  · rintro ⟨directive, given, isLine, -⟩
    obtain ⟨other, held, scope, -⟩ := ofLine?_eq_some_iff.1 ((onLine directive).1 ⟨given, isLine⟩)
    obtain rfl : text = other := Option.some.inj (read.symm.trans held)
    exact ((applies _).1 scope).1
  · intro honoured
    let directive : Directive :=
      { rule := String.ofList text.rule, reason := String.ofList text.reason,
        line := earlier.length + 1, scope := .file }
    have given := (onLine directive).2 <|
      ofLine?_eq_some_iff.2 ⟨text, read, (applies .file).2 ⟨honoured, rfl⟩, rfl, rfl, rfl⟩
    exact ⟨directive, given.1, rfl, rfl, rfl⟩

/-- For every directive for the whole file that is read from a line: it is honoured exactly if the
line is one of the first of the file or all lines as far as this one look like leading comments. It
is honoured wherever only blanks and complete comments stand before it, if the lines inside the
comments look like leading comments. -/
theorem file_directive_honoured_iff (parts : source.toList = above ++ below)
    (ended : EndsLine above) (read : inLine? (firstLine below) = some text)
    (isFile : text.word = .ignoreFile) :
    let number := (lines above).length + 1
    (Honours source number text.rule ↔
        number ≤ headerLines ∨ ∀ line ∈ lines above ++ [firstLine below], LooksLeading line) ∧
      (LeadingText LooksLeading (above ++ text.before) → Honours source number text.rule) := by
  intro number
  have nonempty : firstLine below ≠ [] := by
    intro isNil
    simp [isNil, inLine?, findIn?] at read
  have someLine : below ≠ [] := by
    rintro rfl
    exact nonempty rfl
  have split : lines source.toList = lines above ++ firstLine below :: (lines below).tail := by
    rw [parts, lines_append ended, lines_eq_cons someLine]
    rfl
  have honours := honours_iff split read isFile
  refine ⟨honours, fun leading => honours.2 (.inr ?_)⟩
  obtain ⟨form, comment, whole, directs⟩ := exists_comment_of_inLine? read
  have noBreak : '\n' ∉ comment := fun inside =>
    noBreak_firstLine below (whole ▸ List.mem_append_right _ inside)
  have leads : Leads comment := by
    cases directs
    rw [leads_opening]
    rw [List.mem_append, not_or] at noBreak
    exact leadsOn_of_noBreak noBreak.2
  have all := leads_of_leadingText leading leads
  rw [List.append_assoc, ← whole, Leads, lines_append ended,
    lines_of_noBreak (noBreak_firstLine below) nonempty] at all
  exact fun line listed => isCommentOrBlank_iff.1 (all line listed)

/-- A line comment, a blank line and a comment whose lines have stars: ten lines. -/
def starredText : String :=
  "//\n\n/*\n *\n *\n *\n *\n *\n\n */\n"

/-- A directive for the whole file behind a blank. -/
def fileDirective : String :=
  " // semacheck:ignore-file S1\n"

theorem file_directive_honoured_iff_starredText :
    EndsLine starredText.toList ∧
      inLine? (firstLine fileDirective.toList) =
        some { before := [' '], word := .ignoreFile, rule := ['S', '1'], reason := [] } ∧
      LeadingText LooksLeading (starredText.toList ++ [' ']) ∧
      (lines starredText.toList).length = 10 ∧
      Honours (starredText ++ fileDirective) 11 ['S', '1'] := by
  have ended : EndsLine starredText.toList := .inr (by decide +kernel)
  have read : inLine? (firstLine fileDirective.toList) =
      some { before := [' '], word := .ignoreFile, rule := ['S', '1'], reason := [] } := by
    decide +kernel
  have count : (lines starredText.toList).length = 10 := by decide +kernel
  have written : starredText.toList ++ [' '] =
      CommentForm.line.opening ++ ([] ++ '\n' :: '\n' :: (CommentForm.block.opening ++
        ("\n *\n *\n *\n *\n *\n\n ".toList ++ '*' :: '/' :: '\n' :: [' ']))) := by decide +kernel
  have inside : ∀ line ∈ (lines "\n *\n *\n *\n *\n *\n\n ".toList).tail, LooksLeading line := by
    simp only [← isCommentOrBlank_iff]
    decide +kernel
  have leading : LeadingText LooksLeading (starredText.toList ++ [' ']) := by
    rw [written]
    refine .line (by simp) (.blank (by decide) (.block ?_ inside ?_))
    · decide +kernel
    · exact .blank (by decide) (.blank (by decide) .nil)
  have honours := file_directive_honoured_iff String.toList_append ended read rfl
  rw [count] at honours
  exact ⟨ended, read, leading, count, honours.2 leading⟩

/-! ### Comments that do not look right, and code that does -/

/-- Text in front of other text begins with a blank or with the opening of a comment. -/
theorem not_leadingText_code {layout : List Char → Prop} (solid : isBlank c = false)
    (isCode : c ≠ '/') : ¬ LeadingText layout (c :: rest) := by
  intro leading
  generalize whole : c :: rest = text at leading
  cases leading with
  | nil => simp at whole
  | blank blank =>
      obtain ⟨rfl, -⟩ := List.cons.inj whole
      simp [solid] at blank
  | line | block => exact isCode (List.cons.inj whole).1

theorem leadingText_of_blank {layout : List Char → Prop} (blank : isBlank c = true)
    (leading : LeadingText layout (c :: rest)) : LeadingText layout rest := by
  generalize whole : c :: rest = text at leading
  cases leading with
  | nil => simp at whole
  | blank _ after =>
      obtain ⟨-, rfl⟩ := List.cons.inj whole
      exact after
  | line | block =>
      obtain rfl : c = '/' := (List.cons.inj whole).1
      exact absurd blank (by decide)

/-- A comment goes as far as the first place where it is closed. -/
theorem leadingText_after_block {layout : List Char → Prop} {body : List Char}
    (complete : ¬ ['*', '/'] <:+: body)
    (leading : LeadingText layout (CommentForm.block.opening ++ (body ++ '*' :: '/' :: rest))) :
    LeadingText layout rest := by
  generalize whole : CommentForm.block.opening ++ (body ++ '*' :: '/' :: rest) = text at leading
  cases leading with
  | nil => simp [CommentForm.opening] at whole
  | blank blank =>
      obtain ⟨rfl, -⟩ := List.cons.inj whole
      exact absurd blank (by decide)
  | line => simp [CommentForm.opening] at whole
  | @block other later completeOther _ after =>
      have texts := List.append_cancel_left whole
      have bodies : some body = some other := by
        have read : beforeClosing? (body ++ '*' :: '/' :: rest) = some body :=
          beforeClosing?_append complete
        rw [← read, texts, beforeClosing?_append completeOther]
      obtain rfl : body = other := Option.some.inj bodies
      have rests := List.append_cancel_left texts
      simp only [List.cons.injEq, true_and] at rests
      exact rests ▸ after

/-- A comment of ten lines with a line that has no star. -/
def plainText : String :=
  "/*\na\n\n\n\n\n\n\n\n*/\n"

/-- A comment with code behind it, and blank lines up to the tenth. -/
def codeText : String :=
  "/**/ package p;\n\n\n\n\n\n\n\n\n\n"

/-- Behind a complete comment a directive for the whole file is dropped, and behind code it is
honoured, both on the line after the first ten. -/
theorem not_lexed_plainText_codeText :
    (LeadingText (fun _ => True) plainText.toList ∧
        ¬ Honours (plainText ++ fileDirective) 11 ['S', '1']) ∧
      ¬ LeadingText (fun _ => True) codeText.toList ∧
        Honours (codeText ++ fileDirective) 11 ['S', '1'] := by
  have plain : plainText.toList =
      CommentForm.block.opening ++ ("\na\n\n\n\n\n\n\n\n".toList ++ '*' :: '/' :: ['\n']) := by
    decide +kernel
  have code : codeText.toList = CommentForm.block.opening ++
      ([] ++ '*' :: '/' :: ' ' :: ("package p;\n\n\n\n\n\n\n\n\n\n".toList)) := by decide +kernel
  have dropped : ofSource (plainText ++ fileDirective) = [] := by decide +kernel
  have kept : ofSource (codeText ++ fileDirective) =
      [{ rule := "S1", reason := "", line := 11, scope := .file }] := by decide +kernel
  refine ⟨⟨?_, ?_⟩, ?_, ?_⟩
  · rw [plain]
    exact .block (by decide +kernel) (by simp) (.blank (by decide) .nil)
  · simp [Honours, dropped]
  · rw [code]
    intro leading
    have behind := leadingText_of_blank (by decide) (leadingText_after_block (by simp) leading)
    have begins : "package p;\n\n\n\n\n\n\n\n\n\n".toList =
        'p' :: "ackage p;\n\n\n\n\n\n\n\n\n\n".toList := by decide +kernel
    rw [begins] at behind
    exact not_leadingText_code (by decide) (by decide) behind
  · rw [Honours, kept]
    exact ⟨_, List.mem_singleton.2 rfl, rfl, rfl, rfl⟩

end Directive

end JavaInspect
