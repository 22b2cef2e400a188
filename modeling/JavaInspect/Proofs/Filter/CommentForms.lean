import JavaInspect.Proofs.Filter.LeadingComments

/-!
# Directives in comments of either form

A directive can be written in a comment to the end of the line and in one between delimiters. The
first is read as it is written, the second is not always: between delimiters a dash inside a rule
begins a reason, and comments to the end of the line are looked for inside it too. A rule that has no
dash behind its first character and does not end like the beginning of a directive is read alike.
-/

namespace JavaInspect

open Text

namespace Directive

variable {a b c : Char} {form : CommentForm} {word : DirectiveWord}
  {before rule front back text tail : List Char} {reason? : Option (List Char)}

/-! ## Pairs of characters -/

/-- A pair of characters is not cut in two by a third that is in neither place. -/
theorem pair_infix_append (notFirst : a ≠ c) (notSecond : b ≠ c) :
    [a, b] <:+: front ++ c :: back ↔ [a, b] <:+: front ∨ [a, b] <:+: back := by
  induction front with
  | nil => simp [List.infix_cons_iff, notFirst]
  | cons d front ih =>
      rw [List.cons_append, List.infix_cons_iff, ih, List.infix_cons_iff, or_assoc]
      refine or_congr_left ?_
      cases front with
      | nil => simp [notSecond]
      | cons e front => simp

/-- A text without a comment delimiter. -/
structure Undelimited (text : List Char) : Prop where
  noOpening : ∀ form : CommentForm, ¬ form.opening <:+: text
  noClosing : ¬ ['*', '/'] <:+: text

theorem opening_of_atStart? {found : DirectiveText} (read : atStart? form text = some found) :
    form.opening <+: text := by
  obtain ⟨-, directs⟩ := directs_of_atStart? read
  cases directs
  exact List.prefix_append _ _

/-- Where no comment opens before a blank, the search goes on behind it. -/
theorem findIn?_append_blank (noOpening : ¬ form.opening <:+: front) :
    findIn? form (front ++ ' ' :: back) = (findIn? form back).map fun found =>
      { found with before := front ++ ' ' :: found.before } := by
  have nowhere : ∀ first later, front ++ [' '] = first ++ later → later ≠ [] →
      atStart? form (later ++ back) = none := by
    intro first later parts nonempty
    obtain ⟨inner, isInner, rfl⟩ : ∃ inner, inner <:+ front ∧ later = inner ++ [' '] := by
      rcases List.append_eq_append_iff.1 parts with ⟨extra, -, same⟩ | ⟨inner, same, rfl⟩
      · cases extra with
        | nil => exact ⟨[], List.nil_suffix, same.symm⟩
        | cons d extra => simp_all
      · exact ⟨inner, same ▸ List.suffix_append first inner, rfl⟩
    cases read : atStart? form (inner ++ [' '] ++ back) with
    | none => rfl
    | some found =>
        have opens := opening_of_atStart? read
        obtain ⟨next, isOpening, notBlank⟩ : ∃ next, form.opening = ['/', next] ∧ next ≠ ' ' := by
          cases form <;> simp [CommentForm.opening]
        rw [isOpening] at opens noOpening
        have opensInside : ['/', next] <+: inner := by
          cases inner with
          | nil => simp at opens
          | cons d more =>
              cases more with
              | nil => simp [notBlank] at opens
              | cons e more => simpa using opens
        exact absurd (opensInside.isInfix.trans isInner.isInfix) noOpening
  simpa using findIn?_append nowhere

/-! ## The two forms -/

/-- How a comment ends on its line. -/
def closing : CommentForm → List Char
  | .line => []
  | .block => [' ', '*', '/']

/-- A reason behind a rule. -/
def writtenReason : Option (List Char) → List Char
  | none => []
  | some reason => ' ' :: '-' :: ' ' :: reason

/-- A directive written in a comment of a form. -/
def written (form : CommentForm) (word : DirectiveWord) (rule : List Char)
    (reason? : Option (List Char)) : List Char :=
  form.opening ++ ' ' :: (marker.toList ++ (word.written.toList ++
    ' ' :: (rule ++ (writtenReason reason? ++ closing form))))

/-- The beginning of a directive for a line, as the end of a rule. -/
def beginning (word : DirectiveWord) : List Char :=
  CommentForm.line.opening ++ (marker.toList ++ word.written.toList)

/-- Two lines can stand for each other in every source. -/
def ReadAlike (line other : List Char) : Prop :=
  ∀ (source changed : String) (above below : List (List Char)),
    lines source.toList = above ++ line :: below →
    lines changed.toList = above ++ other :: below → ofSource source = ofSource changed

theorem atStart?_written (token : IsToken rule) : atStart? form (written form word rule reason?) =
    (rule? form (rule ++ (writtenReason reason? ++ closing form))).map fun (rule, reason) =>
      { before := [], word, rule, reason } := by
  have blank : Blank [' '] := by simp [Blank, isBlank]
  have parts : written form word rule reason? =
      form.opening ++ ([' '] ++ (marker.toList ++ (word.written.toList ++
        ([' '] ++ (rule ++ (writtenReason reason? ++ closing form)))))) := rfl
  rw [parts, atStart?_append blank blank (by simp) token.solid_head]

/-! ### To the end of the line -/

theorem rule?_line (token : IsToken rule) :
    rule? .line (rule ++ (writtenReason reason? ++ closing .line)) =
      some (rule, trim (reason?.getD [])) := by
  have ends : ∀ c ∈ (writtenReason reason? ++ closing .line).head?, isBlank c = true := by
    cases reason? <;> simp [writtenReason, closing, isBlank]
  rw [rule?, lineRule?_append token ends]
  cases reason? with
  | none => rfl
  | some reason =>
      have trimmed : trimStart (' ' :: '-' :: ' ' :: (reason ++ [])) = '-' :: ' ' :: (reason ++ []) := by
        rw [trimStart_cons_blank (by decide), trimStart_cons_solid (by decide)]
      simp only [writtenReason, closing, List.cons_append, lineReason, trimmed]
      rw [trim_cons_blank (by decide), List.append_nil]
      rfl

/-- A directive in a comment to the end of the line is read as it is written. -/
theorem inLine?_line (noOpening : ¬ CommentForm.line.opening <:+: before) (token : IsToken rule) :
    inLine? (before ++ ' ' :: written .line word rule reason?) =
      some { before := before ++ [' '], word, rule, reason := trim (reason?.getD []) } := by
  have begins : atStart? .line (written .line word rule reason?) =
      some { before := [], word, rule, reason := trim (reason?.getD []) } := by
    rw [atStart?_written token, rule?_line token]
    rfl
  rw [inLine?, findIn?_append_blank noOpening, findIn?_of_atStart? begins]
  rfl

/-! ### Between delimiters -/

theorem endsRule_closing (reason? : Option (List Char)) :
    EndsRule .block (writtenReason reason? ++ closing .block) := by
  have blank : Blank [' '] := by simp [Blank, isBlank]
  cases reason? with
  | none =>
      have ends : EndsRule .block ([' '] ++ '*' :: '/' :: []) := .closed blank
      exact ends
  | some reason =>
      have ends : EndsRule .block ([' '] ++ '-' :: (' ' :: (reason ++ [' ']) ++ '*' :: '/' :: [])) :=
        .reasoned blank
      simpa [writtenReason, closing] using ends

theorem blockReason?_closing (complete : ∀ reason ∈ reason?, ¬ ['*', '/'] <:+: reason) :
    blockReason? (writtenReason reason? ++ closing .block) = some (trim (reason?.getD [])) := by
  cases reason? with
  | none => rfl
  | some reason =>
      have parts : reason ++ closing .block = reason ++ [' '] ++ ['*', '/'] := by simp [closing]
      have complete : ¬ ['*', '/'] <:+: ' ' :: (reason ++ [' ']) := by
        rw [← List.nil_append (' ' :: _), pair_infix_append (by decide) (by decide),
          pair_infix_append (by decide) (by decide)]
        simpa using complete reason rfl
      have trimmed : trimStart (writtenReason (some reason) ++ closing .block) =
          '-' :: (' ' :: (reason ++ [' ']) ++ '*' :: '/' :: []) := by
        simp only [writtenReason, List.cons_append, parts, List.append_assoc]
        rw [trimStart_cons_blank (by decide), trimStart_cons_solid (by decide)]
      rw [blockReason?, trimmed]
      simp only [beforeClosing?_append complete, Option.map_some]
      rw [trim_cons_blank (by decide), trim_append (by simp [Blank, isBlank])]
      rfl

theorem endsRule_of_solid (solid : isBlank c = false) (ends : EndsRule .block (c :: text)) :
    c = '-' ∨ c = '*' ∧ text.head? = some '/' := by
  generalize whole : c :: text = all at ends
  cases ends with
  | closed blank =>
      obtain rfl := eq_nil_of_solid solid blank whole
      simp_all
  | reasoned blank =>
      obtain rfl := eq_nil_of_solid solid blank whole
      simp_all

/-- Between delimiters a rule goes as far as its first dash behind the first character. -/
theorem goesUntil_block_iff (reason? : Option (List Char)) (token : IsToken rule)
    (complete : ¬ ['*', '/'] <:+: rule) :
    GoesUntil .block rule (writtenReason reason? ++ closing .block) ↔ '-' ∉ rule.tail := by
  constructor
  · intro far isDash
    obtain ⟨inside, after, parts⟩ := List.append_of_mem isDash
    cases rule with
    | nil => simp at isDash
    | cons c rule =>
        obtain rfl : rule = inside ++ '-' :: after := parts
        refine far.first (c :: inside) ('-' :: after) rfl (by simp) (by simp) ?_
        have whole : writtenReason reason? ++ closing .block =
            writtenReason reason? ++ [' '] ++ '*' :: '/' :: [] := by simp [closing]
        rw [whole, List.cons_append, ← List.append_assoc]
        exact .reasoned .nil
  · intro noDash
    refine ⟨token, endsRule_closing reason?, ?_⟩
    rintro front back rfl nonempty nonemptyBack ends
    cases back with
    | nil => exact nonemptyBack rfl
    | cons c back =>
        have solid : isBlank c = false := token.solid c (by simp)
        have notDash : c ≠ '-' := by
          rintro rfl
          cases front with
          | nil => exact nonempty rfl
          | cons d front => simp at noDash
        rcases endsRule_of_solid solid ends with isDash | ⟨rfl, next⟩
        · exact notDash isDash
        · cases back with
          | nil => cases reason? <;> simp [writtenReason, closing] at next
          | cons d back =>
              obtain rfl : d = '/' := by simpa using next
              exact complete ⟨front, back, by simp⟩

theorem isSome_blockRule? (token : IsToken rule) (ends : EndsRule .block tail) :
    (blockRule? (rule ++ tail)).isSome = true := by
  obtain ⟨nonempty, solid⟩ := token
  induction rule with
  | nil => exact absurd rfl nonempty
  | cons c rule ih =>
      rw [List.cons_append, blockRule?, if_neg (by simp [solid c])]
      cases goesOn : blockReason? (rule ++ tail) with
      | some reason => rfl
      | none =>
          have more : rule ≠ [] := by
            rintro rfl
            rw [← isSome_blockReason?_iff, ← List.nil_append tail, goesOn] at ends
            simp at ends
          simpa using ih more fun d inside => solid d (List.mem_cons_of_mem c inside)

theorem rule_blockRule?_iff (reason? : Option (List Char)) (token : IsToken rule)
    (complete : ¬ ['*', '/'] <:+: rule) :
    (blockRule? (rule ++ (writtenReason reason? ++ closing .block))).map (·.1) = some rule ↔
      '-' ∉ rule.tail := by
  rw [← goesUntil_block_iff reason? token complete]
  constructor
  · intro read
    obtain ⟨⟨_, reason⟩, read, rfl⟩ := Option.map_eq_some_iff.1 read
    obtain ⟨rest, parts, far⟩ := goesUntil_of_blockRule? read
    rwa [List.append_cancel_left parts]
  · intro far
    obtain ⟨reason, -, read⟩ := exists_blockRule? far
    rw [read]
    rfl

/-! ### Comments to the end of the line inside the others -/

theorem noOpening_closing (undelimited : ∀ reason ∈ reason?, Undelimited reason) :
    ¬ CommentForm.line.opening <:+: writtenReason reason? ++ closing .block := by
  cases reason? with
  | none => decide
  | some reason =>
      have parts : writtenReason (some reason) ++ closing .block =
          [' ', '-'] ++ ' ' :: (reason ++ ' ' :: ['*', '/']) := by simp [writtenReason, closing]
      rw [parts, CommentForm.opening, pair_infix_append (by decide) (by decide),
        pair_infix_append (by decide) (by decide)]
      rintro (isThere | isThere | isThere)
      · exact absurd isThere (by decide)
      · exact (undelimited reason rfl).noOpening .line isThere
      · exact absurd isThere (by decide)

/-- Behind a rule and a blank there is neither another blank nor a marker. -/
theorem exists_behind (reason? : Option (List Char)) :
    ∃ c rest, writtenReason reason? ++ closing .block = ' ' :: c :: rest ∧ isBlank c = false ∧
      c ≠ 's' := by
  cases reason? with
  | none => exact ⟨'*', ['/'], rfl, by decide, by decide⟩
  | some reason => exact ⟨'-', ' ' :: (reason ++ closing .block), rfl, by decide, by decide⟩

theorem solid_opening : ∀ c ∈ CommentForm.line.opening, isBlank c = false :=
  solid_of_all (by decide)

theorem solid_beginning (word : DirectiveWord) : ∀ c ∈ beginning word, isBlank c = false := by
  intro c inside
  simp only [beginning, List.mem_append] at inside
  rcases inside with inside | inside | inside
  · exact solid_opening c inside
  · exact solid_marker c inside
  · exact solid_written word c inside

/-- A comment that opens in a text without blanks and holds a directive has the opening, the marker
and the word at the end of this text. -/
theorem beginning_of_directs {other : List Char} (solidText : ∀ d ∈ text, isBlank d = false)
    (solid : isBlank c = false) (notMarker : c ≠ 's')
    (directs : Directs .line word other (text ++ ' ' :: c :: tail)) :
    text = beginning word ∧ other <:+: ' ' :: c :: tail := by
  have endsText : ∀ d ∈ (' ' :: c :: tail).head?, isBlank d = true := by simp [isBlank]
  generalize whole : text ++ ' ' :: c :: tail = all at directs
  cases directs with
  | @intro lead gap rest blankLead blankGap apart far =>
      cases lead with
      | cons d lead =>
          have endsOpening := (blank_cons.1 blankLead).1
          obtain ⟨-, same⟩ := append_eq_append_of_solid solidText solid_opening endsText
            (by simpa using endsOpening) whole
          -- with the opening alone at the end of the text the marker would stand behind it
          have behind := (List.cons.inj same).2
          have isMarker : marker.toList = 's' :: "emacheck:".toList := by decide +kernel
          obtain rfl := eq_nil_of_solid solid (blank_cons.1 blankLead).2 behind
          rw [isMarker] at behind
          exact absurd (List.cons.inj behind).1 notMarker
      | nil =>
          have parts : CommentForm.line.opening ++ ([] ++ (marker.toList ++
              (word.written.toList ++ (gap ++ (other ++ rest))))) =
                beginning word ++ (gap ++ (other ++ rest)) := by simp [beginning]
          have endsGap : ∀ d ∈ (gap ++ (other ++ rest)).head?, isBlank d = true := by
            cases gap with
            | nil => exact absurd rfl apart
            | cons d gap => simpa using (blank_cons.1 blankGap).1
          obtain ⟨isText, same⟩ := append_eq_append_of_solid solidText (solid_beginning word) endsText
            endsGap (whole.trans parts)
          exact ⟨isText, gap, rest, by rw [same, List.append_assoc]⟩

/-- What is taken for a directive to the end of the line begins at the end of the rule, and then its
rule is not the one that is written. -/
theorem beginning_suffix_of_findIn? (token : IsToken rule)
    (undelimited : ∀ reason ∈ reason?, Undelimited reason) {found : DirectiveText}
    (read : findIn? .line (rule ++ (writtenReason reason? ++ closing .block)) = some found) :
    beginning found.word <:+ rule ∧ found.rule ≠ rule := by
  have noOpening := noOpening_closing undelimited
  obtain ⟨c, rest, behind, solid, notMarker⟩ := exists_behind reason?
  rw [behind] at read noOpening
  obtain ⟨back, parts, begins⟩ := atStart?_of_findIn? read
  obtain ⟨later, isRule, rfl⟩ : ∃ later, rule = found.before ++ later ∧
      back = later ++ ' ' :: c :: rest := by
    rcases List.append_eq_append_iff.1 parts with ⟨inside, -, isTail⟩ | later
    · have opens := (opening_of_atStart? begins).isInfix
      exact absurd (isTail ▸ opens.trans (List.suffix_append inside back).isInfix) noOpening
    · exact later
  have solidLater : ∀ d ∈ later, isBlank d = false := fun d inside =>
    token.solid d (isRule ▸ List.mem_append_right _ inside)
  obtain ⟨isBeginning, ruleBehind⟩ := beginning_of_directs solidLater solid notMarker
    (directs_of_atStart? begins).2
  rw [isBeginning] at isRule
  refine ⟨isRule ▸ List.suffix_append _ _, fun isSame => noOpening ?_⟩
  have opens : CommentForm.line.opening <:+: rule := by
    rw [isRule, beginning]
    exact ⟨found.before, _, by rw [List.append_assoc]⟩
  exact opens.trans (isSame ▸ ruleBehind)

theorem findIn?_ne_none (isEnd : beginning word <:+ rule) :
    findIn? .line (rule ++ (writtenReason reason? ++ closing .block)) ≠ none := by
  intro nothing
  obtain ⟨c, rest, behind, solid, -⟩ := exists_behind reason?
  obtain ⟨front, rfl⟩ := isEnd
  have begins := findIn?_eq_none_iff.1 nothing front
    (CommentForm.line.opening ++ ([] ++ (marker.toList ++ (word.written.toList ++
      ([' '] ++ c :: rest))))) (by simp [behind, beginning])
  rw [atStart?_append .nil (by simp [Blank, isBlank]) (by simp) (by simpa using solid),
    Option.map_eq_none_iff, rule?] at begins
  simp [lineRule?, solid] at begins

/-- No word but one is written without a dash. -/
theorem eq_ignore_of_suffix (noDash : '-' ∉ rule.tail) (isEnd : beginning word <:+ rule) :
    word = .ignore := by
  obtain ⟨front, rfl⟩ := isEnd
  have noDash : '-' ∉ (beginning word).tail := by
    intro inside
    refine noDash ?_
    cases front with
    | nil => exact inside
    | cons c front => exact List.mem_append_right _ (List.mem_of_mem_tail inside)
  revert noDash
  cases word <;> decide +kernel

theorem findIn?_line_written (word : DirectiveWord) (rule : List Char)
    (reason? : Option (List Char)) (noOpening : ¬ CommentForm.line.opening <:+: before) :
    (findIn? .line (before ++ ' ' :: written .block word rule reason?)).map (·.rule) =
      (findIn? .line (rule ++ (writtenReason reason? ++ closing .block))).map (·.rule) := by
  have noneInOpening : ¬ CommentForm.line.opening <:+: CommentForm.block.opening := by decide
  have noneInWord : ¬ CommentForm.line.opening <:+: marker.toList ++ word.written.toList := by
    cases word <;> decide +kernel
  rw [findIn?_append_blank noOpening, written, findIn?_append_blank noneInOpening,
    ← List.append_assoc marker.toList, findIn?_append_blank noneInWord]
  simp [Function.comp_def]

theorem findIn?_block_written (noOpening : ¬ CommentForm.block.opening <:+: before)
    (token : IsToken rule) :
    findIn? .block (before ++ ' ' :: written .block word rule reason?) =
      (blockRule? (rule ++ (writtenReason reason? ++ closing .block))).map fun (rule, reason) =>
        { before := before ++ [' '], word, rule, reason } := by
  obtain ⟨⟨read, reason⟩, isRule⟩ := Option.isSome_iff_exists.1
    (isSome_blockRule? token (endsRule_closing reason?))
  have begins : atStart? .block (written .block word rule reason?) =
      some { before := [], word, rule := read, reason } := by
    rw [atStart?_written token, rule?, isRule]
    rfl
  rw [findIn?_append_blank noOpening, findIn?_of_atStart? begins, isRule]
  rfl

/-- The rule in a comment between delimiters is read as it is written exactly if it has no dash
behind its first character and does not end like the beginning of a directive. -/
theorem rule_inLine?_block_iff (undelimitedBefore : Undelimited before) (token : IsToken rule)
    (complete : ¬ ['*', '/'] <:+: rule) (undelimited : ∀ reason ∈ reason?, Undelimited reason) :
    (inLine? (before ++ ' ' :: written .block word rule reason?)).map (·.rule) = some rule ↔
      '-' ∉ rule.tail ∧ ¬ beginning .ignore <:+ rule := by
  have search := findIn?_line_written word rule reason? (undelimitedBefore.noOpening .line)
  rw [inLine?]
  cases inside : findIn? .line (rule ++ (writtenReason reason? ++ closing .block)) with
  | none =>
      rw [inside, Option.map_none, Option.map_eq_none_iff] at search
      rw [search, Option.none_or, findIn?_block_written (undelimitedBefore.noOpening .block) token,
        Option.map_map, ← rule_blockRule?_iff reason? token complete]
      have noEnd : ¬ beginning .ignore <:+ rule := fun isEnd => findIn?_ne_none isEnd inside
      simp [noEnd, Function.comp_def]
  | some found =>
      obtain ⟨isEnd, differs⟩ := beginning_suffix_of_findIn? token undelimited inside
      rw [inside, Option.map_some] at search
      obtain ⟨read, isRead, same⟩ := Option.map_eq_some_iff.1 search
      rw [isRead, Option.some_or, Option.map_some, same, Option.some.injEq]
      refine iff_of_false differs fun both => both.2 ?_
      exact eq_ignore_of_suffix both.1 isEnd ▸ isEnd

/-- Such a rule is read like the one in a comment to the end of the line. -/
theorem inLine?_block (undelimitedBefore : Undelimited before) (token : IsToken rule)
    (complete : ¬ ['*', '/'] <:+: rule) (undelimited : ∀ reason ∈ reason?, Undelimited reason)
    (noDash : '-' ∉ rule.tail) (noEnd : ¬ beginning .ignore <:+ rule) :
    inLine? (before ++ ' ' :: written .block word rule reason?) =
      some { before := before ++ [' '], word, rule, reason := trim (reason?.getD []) } := by
  have search := findIn?_line_written word rule reason? (undelimitedBefore.noOpening .line)
  have noLine : findIn? .line (rule ++ (writtenReason reason? ++ closing .block)) = none := by
    rw [Option.eq_none_iff_forall_ne_some]
    intro found inside
    obtain ⟨isEnd, -⟩ := beginning_suffix_of_findIn? token undelimited inside
    exact noEnd (eq_ignore_of_suffix noDash isEnd ▸ isEnd)
  rw [noLine, Option.map_none, Option.map_eq_none_iff] at search
  have far := (goesUntil_block_iff reason? token complete).2 noDash
  obtain ⟨reason, isReason, read⟩ := exists_blockRule? far
  rw [blockReason?_closing fun reason given => (undelimited reason given).noClosing,
    Option.some.injEq] at isReason
  rw [inLine?, search, Option.none_or,
    findIn?_block_written (undelimitedBefore.noOpening .block) token, read, isReason]
  rfl

/-! ## Either form -/

/-- The look of a line does not depend on the form of the comment at its end. -/
theorem isCommentOrBlank_forms {other : CommentForm} :
    isCommentOrBlank (before ++ ' ' :: (form.opening ++ text)) =
      isCommentOrBlank (before ++ ' ' :: (other.opening ++ tail)) := by
  induction before with
  | nil =>
      rw [List.nil_append, List.nil_append, isCommentOrBlank_cons_blank (by decide),
        isCommentOrBlank_cons_blank (by decide), isCommentOrBlank_opening, isCommentOrBlank_opening]
  | cons c before ih =>
      rw [List.cons_append, List.cons_append]
      cases blank : isBlank c with
      | true => rw [isCommentOrBlank_cons_blank blank, isCommentOrBlank_cons_blank blank, ih]
      | false =>
          have sameNext : (before ++ ' ' :: (form.opening ++ text)).head? =
              (before ++ ' ' :: (other.opening ++ tail)).head? := by cases before <;> rfl
          rw [Bool.eq_iff_iff, isCommentOrBlank_cons_solid blank, isCommentOrBlank_cons_solid blank,
            sameNext]

theorem readAlike_of_inLine? {line other : List Char} (sameText : inLine? line = inLine? other)
    (sameLook : isCommentOrBlank line = isCommentOrBlank other) : ReadAlike line other := by
  intro source changed above below split splitChanged
  rw [ofSource, ofSource, split, splitChanged, ofLines_append, ofLines_append, ofLines, ofLines,
    ofLine?, ofLine?, sameText, sameLook]

/-- For every word, code in front, rule and reason: a directive in a comment to the end of the line
is read as it is written. Between delimiters its rule is exactly if it has no dash behind its first
character and does not end like the beginning of a directive, and then the lines with the two forms
can stand for each other in every source. -/
theorem forms_read_alike (word : DirectiveWord) (reason? : Option (List Char))
    (undelimitedBefore : Undelimited before) (token : IsToken rule)
    (complete : ¬ ['*', '/'] <:+: rule) (undelimited : ∀ reason ∈ reason?, Undelimited reason) :
    let line := before ++ ' ' :: written .line word rule reason?
    let block := before ++ ' ' :: written .block word rule reason?
    inLine? line =
        some { before := before ++ [' '], word, rule, reason := trim (reason?.getD []) } ∧
      ((inLine? block).map (·.rule) = some rule ↔
        '-' ∉ rule.tail ∧ ¬ beginning .ignore <:+ rule) ∧
      ('-' ∉ rule.tail ∧ ¬ beginning .ignore <:+ rule → ReadAlike line block) := by
  intro line block
  have readLine : inLine? line =
      some { before := before ++ [' '], word, rule, reason := trim (reason?.getD []) } :=
    inLine?_line (undelimitedBefore.noOpening .line) token
  refine ⟨readLine, rule_inLine?_block_iff undelimitedBefore token complete undelimited, ?_⟩
  rintro ⟨noDash, noEnd⟩
  refine readAlike_of_inLine? ?_ isCommentOrBlank_forms
  rw [readLine, inLine?_block undelimitedBefore token complete undelimited noDash noEnd]

/-- A directive behind code for every rule. -/
def everyRuleText : String :=
  "int a; // semacheck:ignore * - old"

/-- The same between delimiters. -/
def everyRuleBlock : String :=
  "int a; /* semacheck:ignore * - old */"

theorem undelimited_of_noSlash (noSlash : '/' ∉ text) : Undelimited text where
  noOpening form opens := by
    refine noSlash (opens.subset ?_)
    cases form <;> decide
  noClosing closes := noSlash (closes.subset (by decide))

theorem forms_read_alike_everyRule :
    Undelimited "int a;".toList ∧ IsToken ['*'] ∧ ¬ ['*', '/'] <:+: ['*'] ∧
      Undelimited "old".toList ∧
      (inLine? everyRuleBlock.toList).map (·.rule) = some ['*'] ∧
      ReadAlike everyRuleText.toList everyRuleBlock.toList := by
  have front : Undelimited "int a;".toList := undelimited_of_noSlash (by decide +kernel)
  have reason : Undelimited "old".toList := undelimited_of_noSlash (by decide +kernel)
  have token : IsToken ['*'] := ⟨by decide, solid_of_all (by decide)⟩
  have texts : everyRuleText.toList = "int a;".toList ++ ' ' ::
        written .line .ignore ['*'] (some "old".toList) ∧
      everyRuleBlock.toList = "int a;".toList ++ ' ' ::
        written .block .ignore ['*'] (some "old".toList) := by decide +kernel
  have plain : '-' ∉ (['*'] : List Char).tail ∧ ¬ beginning .ignore <:+ ['*'] := by decide +kernel
  obtain ⟨-, read, alike⟩ := forms_read_alike .ignore (some "old".toList) front token
    (by decide) (by simpa using reason)
  rw [texts.1, texts.2]
  exact ⟨front, token, by decide, reason, read.2 plain, alike plain⟩

/-- A directive to the end of the line for a rule with a dash. -/
def dashedText : String :=
  "int a; // semacheck:ignore S-1"

/-- The same between delimiters. -/
def dashedBlock : String :=
  "int a; /* semacheck:ignore S-1 */"

/-- Between delimiters the dash ends the rule. -/
theorem not_readAlike_dashedText :
    (dashedText.toList = "int a;".toList ++ ' ' :: written .line .ignore ['S', '-', '1'] none ∧
        dashedBlock.toList = "int a;".toList ++ ' ' :: written .block .ignore ['S', '-', '1'] none ∧
        Undelimited "int a;".toList ∧ IsToken ['S', '-', '1']) ∧
      ofSource dashedText = [{ rule := "S-1", reason := "", line := 1, scope := .line }] ∧
      ofSource dashedBlock = [{ rule := "S", reason := "1", line := 1, scope := .line }] :=
  ⟨⟨by decide +kernel, by decide +kernel, undelimited_of_noSlash (by decide +kernel),
    by decide, solid_of_all (by decide)⟩, by decide +kernel, by decide +kernel⟩

end Directive

end JavaInspect
