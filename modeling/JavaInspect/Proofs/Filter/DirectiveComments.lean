import JavaInspect.Proofs.Filter.Directives
import JavaInspect.Proofs.Text.Cutting

/-!
# Comments that hold directives

How a directive is written in a comment, said without the reading of it: the opening of the comment,
the marker, the word and the rule, with blanks between them, and what must follow the rule. Reading
finds the first place in a line where this is so. Comments to the end of the line have precedence.
-/

namespace JavaInspect

open Text

namespace Directive

variable {form : CommentForm} {word : DirectiveWord} {lead gap rule reason rest text before : List Char}
  {found : DirectiveText}

/-! ## The rule -/

/-- What may follow a rule. Between delimiters this is the end of the comment or a dash with the end
of the comment behind it. -/
inductive EndsRule : CommentForm → List Char → Prop where
  | line {rest : List Char} : (∀ c ∈ rest.head?, isBlank c = true) → EndsRule .line rest
  | closed {gap rest : List Char} : Blank gap → EndsRule .block (gap ++ '*' :: '/' :: rest)
  | reasoned {gap reason rest : List Char} :
      Blank gap → EndsRule .block (gap ++ '-' :: (reason ++ '*' :: '/' :: rest))

/-- A rule that goes as far as the first place where a rule may end. -/
structure GoesUntil (form : CommentForm) (rule rest : List Char) : Prop where
  token : IsToken rule
  ends : EndsRule form rest
  first : ∀ front back, rule = front ++ back → front ≠ [] → back ≠ [] →
    ¬ EndsRule form (back ++ rest)

theorem beforeClosing?_append (complete : ¬ ['*', '/'] <:+: text) :
    beforeClosing? (text ++ '*' :: '/' :: rest) = some text := by
  induction text with
  | nil => simp [beforeClosing?]
  | cons c text ih =>
      have opens : ¬ ['*', '/'] <:+: text := fun closes =>
        complete (closes.trans (List.suffix_cons c text).isInfix)
      have notHere : ∀ later, c = '*' → text ++ '*' :: '/' :: rest = '/' :: later → False := by
        rintro later rfl same
        cases text with
        | nil => simp at same
        | cons next text =>
            obtain rfl : next = '/' := (List.cons.inj same).1
            exact complete ⟨[], text, rfl⟩
      rw [List.cons_append, beforeClosing?.eq_2 _ _ notHere, ih opens]
      rfl

theorem isSome_beforeClosing?_iff :
    (beforeClosing? text).isSome = true ↔ ∃ front rest, text = front ++ '*' :: '/' :: rest := by
  constructor
  · intro closed
    induction text using beforeClosing?.induct with
    | case1 rest => exact ⟨[], rest, rfl⟩
    | case2 c rest notHere ih =>
        rw [beforeClosing?.eq_2 _ _ notHere, Option.isSome_map] at closed
        obtain ⟨front, later, rfl⟩ := ih closed
        exact ⟨c :: front, later, rfl⟩
    | case3 => simp [beforeClosing?] at closed
  · rintro ⟨front, rest, rfl⟩
    induction front with
    | nil => rfl
    | cons c front ih =>
        rw [List.cons_append, beforeClosing?.eq_def]
        split <;> simp_all

theorem isSome_blockReason?_iff : (blockReason? text).isSome = true ↔ EndsRule .block text := by
  constructor
  · intro ends
    obtain ⟨gap, blank, parts⟩ := exists_trimStart text
    rw [blockReason?] at ends
    split at ends
    case h_1 rest begins =>
      rw [parts, begins]
      exact .closed blank
    case h_2 rest begins =>
      rw [Option.isSome_map, isSome_beforeClosing?_iff] at ends
      obtain ⟨reason, after, rfl⟩ := ends
      rw [parts, begins]
      exact .reasoned blank
    case h_3 => simp at ends
  · intro ends
    cases ends with
    | closed blank =>
        rw [blockReason?, trimStart_append blank, trimStart_cons_solid (by decide)]
        rfl
    | reasoned blank =>
        rw [blockReason?, trimStart_append blank, trimStart_cons_solid (by decide)]
        simp only [Option.isSome_map, isSome_beforeClosing?_iff]
        exact ⟨_, _, rfl⟩

theorem not_endsRule_line (solid : ∀ c ∈ text, isBlank c = false) (nonempty : text ≠ []) :
    ¬ EndsRule .line (text ++ rest) := by
  intro ends
  cases text with
  | nil => exact nonempty rfl
  | cons c text =>
      cases ends with
      | line blank => simp [solid c (by simp)] at blank

theorem lineRule?_append (token : IsToken rule) (ends : ∀ c ∈ rest.head?, isBlank c = true) :
    lineRule? (rule ++ rest) = some (rule, lineReason rest) := by
  simp [lineRule?, takeWhile_token token.solid ends, token.nonempty]

theorem goesUntil_of_lineRule? (read : lineRule? text = some (rule, reason)) :
    ∃ rest, text = rule ++ rest ∧ GoesUntil .line rule rest := by
  simp only [lineRule?, List.isEmpty_iff, Option.ite_none_left_eq_some, Option.some.injEq,
    Prod.mk.injEq] at read
  obtain ⟨nonempty, rfl, -⟩ := read
  have token : IsToken (text.takeWhile fun c => !isBlank c) :=
    ⟨nonempty, fun c inside => by simpa using List.mem_takeWhile_imp inside⟩
  refine ⟨text.dropWhile fun c => !isBlank c, List.takeWhile_append_dropWhile.symm, token, ?_, ?_⟩
  · constructor
    intro c first
    have notSolid := List.head?_dropWhile_not (fun c => !isBlank c) text
    rw [Option.mem_def.1 first] at notSolid
    simpa using notSolid
  · intro front back parts _ nonempty
    refine not_endsRule_line (fun c inside => token.solid c ?_) nonempty
    rw [parts]
    exact List.mem_append_right front inside

theorem goesUntil_of_blockRule? (read : blockRule? text = some (rule, reason)) :
    ∃ rest, text = rule ++ rest ∧ GoesUntil .block rule rest := by
  induction text generalizing rule with
  | nil => simp [blockRule?] at read
  | cons c text ih =>
      rw [blockRule?] at read
      split at read
      case isTrue => simp at read
      case isFalse solid =>
        rw [Bool.not_eq_true] at solid
        split at read
        case h_1 ended ends =>
          obtain ⟨rfl, -⟩ : [c] = rule ∧ _ := by simpa using read
          refine ⟨text, rfl, ⟨by simp, by simpa using solid⟩, ?_, ?_⟩
          · exact isSome_blockReason?_iff.1 (by simp [ends])
          · intro front back parts nonempty
            cases front with
            | nil => exact absurd rfl nonempty
            | cons d front => simp_all
        case h_2 goesOn =>
          simp only [Option.map_eq_some_iff, Prod.mk.injEq] at read
          obtain ⟨⟨later, _⟩, read, rfl, rfl⟩ := read
          obtain ⟨rest, rfl, far⟩ := ih read
          refine ⟨rest, rfl, ⟨by simp, ?_⟩, far.ends, ?_⟩
          · simpa [solid] using far.token.solid
          · intro front back parts nonempty nonemptyBack
            cases front with
            | nil => exact absurd rfl nonempty
            | cons d front =>
                obtain ⟨rfl, rfl⟩ : c = d ∧ later = front ++ back := by simpa using parts
                cases front with
                | nil =>
                    rw [← isSome_blockReason?_iff, ← List.nil_append back, goesOn]
                    simp
                | cons e front => exact far.first (e :: front) back rfl (by simp) nonemptyBack

theorem exists_blockRule? (far : GoesUntil .block rule rest) :
    ∃ reason, blockReason? rest = some reason ∧ blockRule? (rule ++ rest) = some (rule, reason) := by
  obtain ⟨reason, ends⟩ := Option.isSome_iff_exists.1 (isSome_blockReason?_iff.2 far.ends)
  refine ⟨reason, ends, ?_⟩
  obtain ⟨⟨nonempty, solid⟩, -, first⟩ := far
  induction rule with
  | nil => exact absurd rfl nonempty
  | cons c rule ih =>
      rw [List.cons_append, blockRule?, if_neg (by simp [solid c])]
      cases rule with
      | nil => simp [ends]
      | cons d rule =>
          have goesOn : blockReason? (d :: rule ++ rest) = none := by
            rw [← Option.not_isSome_iff_eq_none, isSome_blockReason?_iff]
            exact first [c] (d :: rule) rfl (by simp) (by simp)
          have later : blockRule? (d :: rule ++ rest) = some (d :: rule, reason) := by
            refine ih ?_ (by simp) fun e inside => solid e (List.mem_cons_of_mem c inside)
            intro front back parts _
            exact first (c :: front) back (by rw [parts, List.cons_append]) (by simp)
          rw [goesOn, later]
          rfl

/-- Reading a rule finds how far it goes. -/
theorem exists_rule?_eq_some_iff : (∃ reason, rule? form text = some (rule, reason)) ↔
    ∃ rest, text = rule ++ rest ∧ GoesUntil form rule rest := by
  constructor
  · rintro ⟨reason, read⟩
    cases form with
    | line => exact goesUntil_of_lineRule? read
    | block => exact goesUntil_of_blockRule? read
  · rintro ⟨rest, rfl, far⟩
    cases form with
    | line =>
        cases far.ends with
        | line blank => exact ⟨_, lineRule?_append far.token blank⟩
    | block =>
        obtain ⟨reason, -, read⟩ := exists_blockRule? far
        exact ⟨reason, read⟩

/-! ## The comment -/

/-- A text begins with a comment that holds a directive. -/
inductive Directs (form : CommentForm) (word : DirectiveWord) (rule : List Char) :
    List Char → Prop where
  | intro {lead gap rest : List Char} : Blank lead → Blank gap → gap ≠ [] →
      GoesUntil form rule rest →
      Directs form word rule
        (form.opening ++ (lead ++ (marker.toList ++ (word.written.toList ++ (gap ++ (rule ++ rest))))))

theorem afterWord?_eq_some_iff {other : DirectiveWord} :
    afterWord? text other = some (word, rest) ↔
      ∃ c later, text = word.written.toList ++ c :: later ∧ isBlank c = true ∧
        other = word ∧ rest = trimStart later := by
  rw [afterWord?]
  split
  case h_1 c later begins =>
    obtain rfl := List.isPrefixOf?_eq_some_iff_append_eq.1 begins
    constructor
    · intro read
      simp only [Option.ite_none_right_eq_some, Option.some.injEq, Prod.mk.injEq] at read
      obtain ⟨blank, rfl, rfl⟩ := read
      exact ⟨c, later, rfl, blank, rfl, rfl⟩
    · rintro ⟨d, tail, same, blank, rfl, rfl⟩
      obtain ⟨rfl, rfl⟩ := List.cons.inj (List.append_cancel_left same)
      simp [blank]
  case h_2 nothing =>
    simp only [reduceCtorEq, false_iff]
    rintro ⟨c, later, rfl, -, rfl, -⟩
    exact nothing c later (List.isPrefixOf?_eq_some_iff_append_eq.2 rfl)

theorem written_injective {other : DirectiveWord}
    (same : word.written.toList = other.written.toList) : word = other := by
  rw [String.toList_inj] at same
  cases word <;> cases other <;> simp_all [DirectiveWord.written]

theorem solid_written (word : DirectiveWord) : ∀ c ∈ word.written.toList, isBlank c = false :=
  solid_of_all (by cases word <;> decide +kernel)

theorem solid_marker : ∀ c ∈ marker.toList, isBlank c = false :=
  solid_of_all (by decide +kernel)

/-- No word is taken for another, since a blank must follow. -/
theorem findSome?_afterWord?_eq_some_iff :
    DirectiveWord.all.findSome? (afterWord? text) = some (word, rest) ↔
      ∃ c later, text = word.written.toList ++ c :: later ∧ isBlank c = true ∧
        rest = trimStart later := by
  constructor
  · intro read
    obtain ⟨other, -, read⟩ := List.exists_of_findSome?_eq_some read
    obtain ⟨c, later, same, blank, -, trimmed⟩ := afterWord?_eq_some_iff.1 read
    exact ⟨c, later, same, blank, trimmed⟩
  · rintro ⟨c, later, rfl, blank, rfl⟩
    have here : afterWord? (word.written.toList ++ c :: later) word = some (word, trimStart later) :=
      afterWord?_eq_some_iff.2 ⟨c, later, rfl, blank, rfl, rfl⟩
    have onlyHere (other : DirectiveWord) (found : DirectiveWord × List Char)
        (read : afterWord? (word.written.toList ++ c :: later) other = some found) :
        found = (word, trimStart later) := by
      obtain ⟨d, tail, same, blankOther, rfl, trimmed⟩ := afterWord?_eq_some_iff.1 read
      obtain ⟨written, rests⟩ := append_eq_append_of_solid (solid_written word)
        (solid_written found.1) (by simpa using blank) (by simpa using blankOther) same
      obtain ⟨rfl, rfl⟩ := List.cons.inj rests
      rw [written_injective written, ← trimmed]
    cases found : DirectiveWord.all.findSome? (afterWord? (word.written.toList ++ c :: later)) with
    | none =>
        rw [List.findSome?_eq_none_iff] at found
        rw [found word (by cases word <;> decide)] at here
        simp at here
    | some pair =>
        obtain ⟨other, -, read⟩ := List.exists_of_findSome?_eq_some found
        rw [onlyHere other pair read]

/-- Blanks after the opening and after the word are skipped. -/
theorem atStart?_append (blankLead : Blank lead) (blankGap : Blank gap) (apart : gap ≠ [])
    (solid : ∀ c ∈ rest.head?, isBlank c = false) :
    atStart? form
        (form.opening ++ (lead ++ (marker.toList ++ (word.written.toList ++ (gap ++ rest))))) =
      (rule? form rest).map fun (rule, reason) => { before := [], word, rule, reason } := by
  have inside : form.opening.isPrefixOf?
      (form.opening ++ (lead ++ (marker.toList ++ (word.written.toList ++ (gap ++ rest))))) =
        some (lead ++ (marker.toList ++ (word.written.toList ++ (gap ++ rest)))) :=
    List.isPrefixOf?_eq_some_iff_append_eq.2 rfl
  have marked : marker.toList.isPrefixOf?
      (trimStart (lead ++ (marker.toList ++ (word.written.toList ++ (gap ++ rest))))) =
        some (word.written.toList ++ (gap ++ rest)) := by
    rw [List.isPrefixOf?_eq_some_iff_append_eq, trimStart_append blankLead]
    exact (trimStart_cons_solid (by decide)).symm
  have skipped : trimStart rest = rest := by
    cases rest with
    | nil => rfl
    | cons c rest => exact trimStart_cons_solid (solid c rfl)
  have worded : DirectiveWord.all.findSome? (afterWord? (word.written.toList ++ (gap ++ rest))) =
      some (word, rest) := by
    cases gap with
    | nil => exact absurd rfl apart
    | cons c gap =>
        rw [blank_cons] at blankGap
        refine findSome?_afterWord?_eq_some_iff.2 ⟨c, gap ++ rest, rfl, blankGap.1, ?_⟩
        rw [trimStart_append blankGap.2, skipped]
  rw [atStart?, inside]
  simp only [Option.bind_eq_bind, Option.bind_some, marked, worded]
  cases rule? form rest <;> rfl

theorem exists_atStart? (directs : Directs form word rule text) :
    ∃ reason, atStart? form text = some { before := [], word, rule, reason } := by
  cases directs with
  | @intro lead gap rest blankLead blankGap apart far =>
      obtain ⟨reason, read⟩ := exists_rule?_eq_some_iff.2 ⟨rest, rfl, far⟩
      refine ⟨reason, ?_⟩
      rw [atStart?_append blankLead blankGap apart far.token.solid_head, read]
      rfl

theorem directs_of_atStart? (read : atStart? form text = some found) :
    found.before = [] ∧ Directs form found.word found.rule text := by
  simp only [atStart?, Option.bind_eq_bind, Option.bind_eq_some_iff,
    List.isPrefixOf?_eq_some_iff_append_eq, findSome?_afterWord?_eq_some_iff, Prod.exists,
    Option.pure_def, Option.some.injEq] at read
  obtain ⟨inside, rfl, marked, begins, word, rest, ⟨c, later, rfl, blank, rfl⟩, rule, reason, isRule,
    rfl⟩ := read
  obtain ⟨lead, blankLead, parts⟩ := exists_trimStart inside
  obtain ⟨gap, blankGap, partsLater⟩ := exists_trimStart later
  obtain ⟨tail, same, far⟩ := exists_rule?_eq_some_iff.1 ⟨reason, isRule⟩
  refine ⟨rfl, ?_⟩
  have whole : marker.toList ++ (word.written.toList ++ c :: (gap ++ (rule ++ tail))) =
      marker.toList ++ (word.written.toList ++ ((c :: gap) ++ (rule ++ tail))) := rfl
  rw [parts, ← begins, partsLater, same, whole]
  exact .intro blankLead (blank_cons.2 ⟨blank, blankGap⟩) (by simp) far

@[simp] theorem atStart?_nil : atStart? form [] = none := by
  cases form <;> rfl

/-! ## The line -/

theorem findIn?_eq_none_iff : findIn? form text = none ↔
    ∀ front back, text = front ++ back → atStart? form back = none := by
  constructor
  · intro nothing front back parts
    induction text generalizing front with
    | nil => simp_all
    | cons c text ih =>
        rw [findIn?] at nothing
        split at nothing
        case h_1 => simp at nothing
        case h_2 notHere =>
          rw [Option.map_eq_none_iff] at nothing
          cases front with
          | nil =>
              rw [← List.nil_append back, ← parts]
              exact notHere
          | cons d front => exact ih nothing front (List.cons.inj parts).2
  · intro nowhere
    induction text with
    | nil => rfl
    | cons c text ih =>
        rw [findIn?, nowhere [] (c :: text) rfl]
        simpa using ih fun front back parts => nowhere (c :: front) back (by rw [parts]; rfl)

theorem findIn?_of_atStart? (here : atStart? form text = some found) :
    findIn? form text = some found := by
  cases text with
  | nil => simp at here
  | cons c text => simp [findIn?, here]

/-- Where no comment with a directive begins, the search goes on. -/
theorem findIn?_append {front back : List Char}
    (nowhere : ∀ first later, front = first ++ later → later ≠ [] →
      atStart? form (later ++ back) = none) :
    findIn? form (front ++ back) =
      (findIn? form back).map fun found => { found with before := front ++ found.before } := by
  induction front with
  | nil => simp
  | cons c front ih =>
      have notHere : atStart? form (c :: (front ++ back)) = none :=
        nowhere [] (c :: front) rfl (by simp)
      have later := ih fun first later parts => nowhere (c :: first) later (by rw [parts]; rfl)
      rw [List.cons_append, findIn?, notHere, later]
      simp [Function.comp_def]

theorem atStart?_of_findIn? (read : findIn? form text = some found) :
    ∃ back, text = found.before ++ back ∧ atStart? form back = some { found with before := [] } := by
  induction text generalizing found with
  | nil => simp [findIn?] at read
  | cons c text ih =>
      rw [findIn?] at read
      split at read
      case h_1 here begins =>
        obtain rfl : here = found := Option.some.inj read
        obtain ⟨isNil, -⟩ := directs_of_atStart? begins
        refine ⟨c :: text, by rw [isNil, List.nil_append], ?_⟩
        rw [begins, ← isNil]
      case h_2 =>
        obtain ⟨later, isLater, rfl⟩ := Option.map_eq_some_iff.1 read
        obtain ⟨back, parts, begins⟩ := ih isLater
        exact ⟨back, by rw [parts, List.cons_append], begins⟩

/-- The directive of a line is in a comment that begins behind what stands before it. -/
theorem exists_comment_of_inLine? {line : List Char} (read : inLine? line = some found) :
    ∃ form back, line = found.before ++ back ∧ Directs form found.word found.rule back := by
  have inForm (form : CommentForm) (search : findIn? form line = some found) :
      ∃ back, line = found.before ++ back ∧ Directs form found.word found.rule back := by
    obtain ⟨back, parts, begins⟩ := atStart?_of_findIn? search
    exact ⟨back, parts, (directs_of_atStart? begins).2⟩
  rcases Option.or_eq_some_iff.1 read with isLine | ⟨-, isBlock⟩
  · exact ⟨.line, inForm .line isLine⟩
  · exact ⟨.block, inForm .block isBlock⟩

/-- A comment with a directive in a line, what stands before it, and no other in the line. -/
structure HoldsOnly (form : CommentForm) (word : DirectiveWord) (rule before line : List Char) :
    Prop where
  here : ∃ back, line = before ++ back ∧ Directs form word rule back
  only : ∀ otherForm otherWord otherRule front back, line = front ++ back →
    Directs otherForm otherWord otherRule back → front = before

variable {line : List Char}

theorem not_directs_block {other : DirectiveWord} {otherRule : List Char}
    (directs : Directs .block word rule text) : ¬ Directs .line other otherRule text := by
  intro directsLine
  cases directs
  generalize whole : CommentForm.opening .block ++ _ = text at directsLine
  cases directsLine
  simp [CommentForm.opening] at whole

/-- The only directive of a line is read, with what stands before it. -/
theorem inLine?_of_holdsOnly (holds : HoldsOnly form word rule before line) :
    ∃ reason, inLine? line = some { before, word, rule, reason } := by
  obtain ⟨⟨back, rfl, directs⟩, only⟩ := holds
  obtain ⟨reason, begins⟩ := exists_atStart? directs
  have found : findIn? form (before ++ back) = some { before, word, rule, reason } := by
    cases search : findIn? form (before ++ back) with
    | none => simp [findIn?_eq_none_iff.1 search before back rfl] at begins
    | some found =>
        obtain ⟨other, parts, beginsOther⟩ := atStart?_of_findIn? search
        obtain ⟨-, directsOther⟩ := directs_of_atStart? beginsOther
        have sameBefore := only _ _ _ _ _ parts directsOther
        rw [sameBefore, List.append_cancel_left_eq] at parts
        rw [← parts, begins] at beginsOther
        cases found
        simp_all
  refine ⟨reason, ?_⟩
  cases form with
  | line => simp [inLine?, found]
  | block =>
      have noLine : findIn? .line (before ++ back) = none := by
        rw [findIn?_eq_none_iff]
        intro front later parts
        cases read : atStart? .line later with
        | none => rfl
        | some other =>
            obtain ⟨-, directsOther⟩ := directs_of_atStart? read
            obtain rfl := only _ _ _ _ _ parts directsOther
            obtain rfl := List.append_cancel_left parts
            exact absurd directsOther (not_directs_block directs)
      simp [inLine?, noLine, found]

/-- That a line holds one directive only can be seen place by place. -/
theorem holdsOnly_of_atStart? {index : Nat} (reason : List Char)
    (read : atStart? form (line.drop index) = some { before := [], word, rule, reason })
    (only : ∀ form ∈ [CommentForm.line, CommentForm.block], ∀ other ∈ List.range line.length,
      other = index ∨ atStart? form (line.drop other) = none) :
    HoldsOnly form word rule (line.take index) line where
  here := ⟨line.drop index, (List.take_append_drop index line).symm, (directs_of_atStart? read).2⟩
  only := by
    rintro otherForm otherWord otherRule front back rfl directs
    obtain ⟨otherReason, begins⟩ := exists_atStart? directs
    have nonempty : back ≠ [] := by
      rintro rfl
      simp at begins
    have inside : front.length ∈ List.range (front ++ back).length := by
      simpa using List.length_pos_iff.2 nonempty
    have isForm : otherForm ∈ [CommentForm.line, CommentForm.block] := by cases otherForm <;> simp
    cases only otherForm isForm front.length inside with
    | inl same => simp [← same]
    | inr nothing => simp [begins] at nothing

/-! ## Which line is covered -/

variable {source : String} {above below : List (List Char)}

/-- For every line with one directive comment, of whatever form, that says to ignore a rule: the
directive covers the next line if only blanks stand before the comment, and its own line otherwise.
What stands behind the comment does not matter. -/
theorem ignore_covers (split : Text.lines source.toList = above ++ line :: below)
    (holds : HoldsOnly form .ignore rule before line) :
    ∃ directive, (ofSource source).filter (·.line == above.length + 1) = [directive] ∧
      directive.rule = String.ofList rule ∧
      (Blank before → directive.coveredLine? = some (above.length + 2)) ∧
      (¬ Blank before → directive.coveredLine? = some (above.length + 1)) := by
  obtain ⟨reason, read⟩ := inLine?_of_holdsOnly holds
  rw [filter_line_ofSource split, ofLine?, read]
  by_cases blank : Blank before <;> simp [scopeOf?, trim_eq_nil_iff, blank, coveredLine?]

/-- A class with a directive behind code, one alone on its line and one in front of code. -/
def ignoringText : String :=
  "class A \x7b\n int a; // semacheck:ignore S1 - old\n /* semacheck:ignore * */\n int b;\n" ++
    " /* semacheck:ignore S1 */ int c;\n\x7d\n"

theorem lines_ignoringText : Text.lines ignoringText.toList =
    ["class A \x7b".toList, " int a; // semacheck:ignore S1 - old".toList,
      " /* semacheck:ignore * */".toList, " int b;".toList,
      " /* semacheck:ignore S1 */ int c;".toList, "\x7d".toList] := by
  decide +kernel

theorem ignore_covers_ignoringText :
    let behind := " int a; // semacheck:ignore S1 - old".toList
    let alone := " /* semacheck:ignore * */".toList
    (∃ above below, Text.lines ignoringText.toList = above ++ behind :: below ∧ above.length = 1) ∧
      HoldsOnly .line .ignore ['S', '1'] (behind.take 8) behind ∧ ¬ Blank (behind.take 8) ∧
      (∃ directive, (ofSource ignoringText).filter (·.line == 2) = [directive] ∧
        directive.rule = "S1" ∧ directive.coveredLine? = some 2) ∧
      (∃ above below, Text.lines ignoringText.toList = above ++ alone :: below ∧ above.length = 2) ∧
      HoldsOnly .block .ignore ['*'] (alone.take 1) alone ∧ Blank (alone.take 1) ∧
      ∃ directive, (ofSource ignoringText).filter (·.line == 3) = [directive] ∧
        directive.rule = "*" ∧ directive.coveredLine? = some 4 := by
  intro behind alone
  have splitBehind : Text.lines ignoringText.toList = [_] ++ behind :: _ := lines_ignoringText
  have splitAlone : Text.lines ignoringText.toList = [_, _] ++ alone :: _ := lines_ignoringText
  have holdsBehind : HoldsOnly .line .ignore ['S', '1'] (behind.take 8) behind :=
    holdsOnly_of_atStart? ['o', 'l', 'd'] (by decide +kernel) (by decide +kernel)
  have holdsAlone : HoldsOnly .block .ignore ['*'] (alone.take 1) alone :=
    holdsOnly_of_atStart? [] (by decide +kernel) (by decide +kernel)
  have code : ¬ Blank (behind.take 8) := by
    rw [← trim_eq_nil_iff]
    decide +kernel
  have blank : Blank (alone.take 1) := by
    rw [← trim_eq_nil_iff]
    decide +kernel
  obtain ⟨first, isFirst, ruleFirst, -, covers⟩ := ignore_covers splitBehind holdsBehind
  obtain ⟨second, isSecond, ruleSecond, coversNext, -⟩ := ignore_covers splitAlone holdsAlone
  exact ⟨⟨_, _, splitBehind, rfl⟩, holdsBehind, code, ⟨first, isFirst, ruleFirst, covers code⟩,
    ⟨_, _, splitAlone, rfl⟩, holdsAlone, blank, second, isSecond, ruleSecond, coversNext blank⟩

/-- A directive comment in front of code covers the next line, not the one that it shares with the
code. -/
theorem passes_over_ignoringText :
    let comment := "/* semacheck:ignore S1 */".toList
    let line := [' '] ++ comment ++ " int c;".toList
    (Text.lines ignoringText.toList)[4]? = some line ∧
      HoldsOnly .block .ignore ['S', '1'] [' '] line ∧ ¬ Blank " int c;".toList ∧
      ((ofSource ignoringText).filter (·.line == 5)).map coveredLine? = [some 6] := by
  intro comment line
  have holds : HoldsOnly .block .ignore ['S', '1'] (line.take 1) line :=
    holdsOnly_of_atStart? [] (by decide +kernel) (by decide +kernel)
  refine ⟨?_, holds, ?_, ?_⟩
  · rw [lines_ignoringText]
    decide +kernel
  · rw [← trim_eq_nil_iff]
    decide +kernel
  · rw [ofSource, lines_ignoringText]
    decide +kernel

end Directive

end JavaInspect
