import JavaInspect.Text.Affix
import JavaInspect.Text.Blank
import Mathlib.Data.List.Basic
import Mathlib.Data.List.TakeWhile

/-!
# Cutting texts

A beginning or an ending is cut off a text exactly if the text is made of it and the rest. Trimming
takes away the blanks at both ends of a text and nothing else. A text without blanks goes as far as
the first blank after it.
-/

namespace JavaInspect.Text

/-! ## Beginnings and endings -/

section Strings

variable {lead tail text rest : String}

theorem afterLead?_eq_some_iff : afterLead? lead text = some rest ↔ text = lead ++ rest := by
  simp only [afterLead?, Option.map_eq_some_iff, List.isPrefixOf?_eq_some_iff_append_eq]
  constructor
  · rintro ⟨characters, parts, rfl⟩
    rw [← String.toList_inj, ← parts, String.toList_append, String.toList_ofList]
  · rintro rfl
    exact ⟨rest.toList, String.toList_append.symm, String.ofList_toList⟩

theorem beforeTail?_eq_some_iff : beforeTail? tail text = some rest ↔ text = rest ++ tail := by
  simp only [beforeTail?, Option.map_eq_some_iff, List.isSuffixOf?_eq_some_iff_append_eq]
  constructor
  · rintro ⟨characters, parts, rfl⟩
    rw [← String.toList_inj, ← parts, String.toList_append, String.toList_ofList]
  · rintro rfl
    exact ⟨rest.toList, String.toList_append.symm, String.ofList_toList⟩

theorem endsWith_iff : endsWith tail text = true ↔ ∃ before, text = before ++ tail := by
  rw [endsWith, List.isSuffixOf_iff_suffix]
  constructor
  · rintro ⟨before, parts⟩
    refine ⟨String.ofList before, ?_⟩
    rw [← String.toList_inj, ← parts, String.toList_append, String.toList_ofList]
  · rintro ⟨before, rfl⟩
    exact ⟨before.toList, String.toList_append.symm⟩

/-- Trimming a text leaves a part of it. -/
theorem infix_trim (characters : List Char) : trim characters <:+: characters := by
  have atEnd : trim characters <+: trimStart characters := by
    rw [trim, trimEnd, ← List.reverse_suffix, List.reverse_reverse]
    exact List.dropWhile_suffix _
  exact atEnd.isInfix.trans (List.dropWhile_suffix _).isInfix

theorem length_trimmed_le (text : String) : (trimmed text).length ≤ text.length := by
  rw [← String.length_toList, ← String.length_toList, toList_trimmed]
  exact (infix_trim text.toList).length_le

end Strings

/-! ## Blanks and what stands between them -/

/-- Nothing but blanks. -/
def Blank (text : List Char) : Prop :=
  ∀ c ∈ text, isBlank c = true

/-- A text without blanks that is not empty. -/
structure IsToken (text : List Char) : Prop where
  nonempty : text ≠ []
  solid : ∀ c ∈ text, isBlank c = false

variable {c : Char} {text lead rest gap : List Char}

theorem Blank.nil : Blank [] := by simp [Blank]

theorem IsToken.solid_head (token : IsToken text) :
    ∀ c ∈ (text ++ rest).head?, isBlank c = false := by
  obtain ⟨nonempty, solid⟩ := token
  cases text with
  | nil => exact absurd rfl nonempty
  | cons d text => simpa using solid d (by simp)

theorem solid_of_all (all : text.all (fun c => !isBlank c) = true) :
    ∀ c ∈ text, isBlank c = false := by
  simpa using all

theorem blank_cons : Blank (c :: text) ↔ isBlank c = true ∧ Blank text := by
  simp [Blank]

/-- No blanks stand in front of a character that is none. -/
theorem eq_nil_of_solid (solid : isBlank c = false) (blank : Blank lead)
    (whole : c :: text = lead ++ rest) : lead = [] := by
  cases lead with
  | nil => rfl
  | cons d lead =>
      obtain rfl : c = d := (List.cons.inj whole).1
      simp [blank_cons, solid] at blank

theorem trimStart_append (blank : Blank lead) : trimStart (lead ++ rest) = trimStart rest :=
  List.dropWhile_append_of_pos blank

theorem trimStart_cons_blank (blank : isBlank c = true) : trimStart (c :: rest) = trimStart rest :=
  List.dropWhile_cons_of_pos blank

theorem trimStart_cons_solid (solid : isBlank c = false) : trimStart (c :: rest) = c :: rest :=
  List.dropWhile_cons_of_neg (by simp [solid])

theorem exists_trimStart (text : List Char) :
    ∃ lead, Blank lead ∧ text = lead ++ trimStart text := by
  refine ⟨text.takeWhile isBlank, fun c inside => ?_, List.takeWhile_append_dropWhile.symm⟩
  exact List.mem_takeWhile_imp inside

theorem solid_of_trimStart (begins : trimStart text = c :: rest) : isBlank c = false := by
  have first := List.head?_dropWhile_not isBlank text
  rw [trimStart] at begins
  simpa [begins] using first

theorem trimEnd_append (blank : Blank gap) : trimEnd (text ++ gap) = trimEnd text := by
  have reversed : ∀ c ∈ gap.reverse, isBlank c = true := fun c inside =>
    blank c (List.mem_reverse.1 inside)
  rw [trimEnd, List.reverse_append, List.dropWhile_append_of_pos reversed, trimEnd]

theorem trimEnd_cons_solid (solid : isBlank c = false) : trimEnd (c :: rest) = c :: trimEnd rest := by
  rw [trimEnd, trimEnd, List.reverse_cons, List.dropWhile_append]
  split
  case isTrue nothing => simp [solid, List.isEmpty_iff.1 nothing]
  case isFalse => simp

/-- A character that is no blank stays in front. -/
theorem head?_trimEnd_iff (solid : isBlank c = false) :
    (trimEnd text).head? = some c ↔ text.head? = some c := by
  cases text with
  | nil => rfl
  | cons d text =>
      cases blank : isBlank d with
      | false => rw [trimEnd_cons_solid blank]; rfl
      | true =>
          have distinct : d ≠ c := by
            rintro rfl
            simp [blank] at solid
          have leads : trimEnd (d :: text) <+: d :: text := by
            rw [trimEnd, ← List.reverse_suffix, List.reverse_reverse]
            exact List.dropWhile_suffix _
          cases trimmed : trimEnd (d :: text) with
          | nil => simp [distinct]
          | cons e rest =>
              rw [trimmed, List.cons_prefix_cons] at leads
              simp [leads.1]

theorem trimStart_eq_nil_iff : trimStart text = [] ↔ Blank text :=
  List.dropWhile_eq_nil_iff

theorem trim_eq_nil_iff : trim text = [] ↔ Blank text := by
  rw [← trimStart_eq_nil_iff, trim, trimEnd, List.reverse_eq_nil_iff, List.dropWhile_eq_nil_iff]
  constructor
  · intro blankRest
    have blank : Blank (trimStart text) := fun c inside => blankRest c (List.mem_reverse.2 inside)
    cases begins : trimStart text with
    | nil => rfl
    | cons c rest =>
        rw [begins, blank_cons] at blank
        simp [solid_of_trimStart begins] at blank
  · intro nothing
    simp [nothing]

theorem trim_cons_blank (blank : isBlank c = true) : trim (c :: text) = trim text := by
  rw [trim, trimStart_cons_blank blank, trim]

/-- Blanks at the end of a text do not matter for what trimming leaves. -/
theorem trim_append (blank : Blank gap) : trim (text ++ gap) = trim text := by
  by_cases allBlank : Blank text
  · have both : Blank (text ++ gap) := by
      intro c inside
      exact (List.mem_append.1 inside).elim (allBlank c) (blank c)
    rw [trim_eq_nil_iff.2 both, trim_eq_nil_iff.2 allBlank]
  · have left : trimStart text ≠ [] := fun nothing => allBlank (trimStart_eq_nil_iff.1 nothing)
    have start : trimStart (text ++ gap) = trimStart text ++ gap := by
      rw [trimStart, List.dropWhile_append, if_neg (by simpa [trimStart] using left)]
      rfl
    rw [trim, start, trimEnd_append blank, trim]

theorem takeWhile_token (token : ∀ c ∈ text, isBlank c = false)
    (ends : ∀ c ∈ rest.head?, isBlank c = true) :
    (text ++ rest).takeWhile (fun c => !isBlank c) = text := by
  have inside : ∀ c ∈ text, (!isBlank c) = true := by simpa using token
  rw [List.takeWhile_append_of_pos inside]
  cases rest with
  | nil => simp
  | cons c rest => simp [ends c rfl]

/-- A text is parted in one way only into a beginning without blanks and a rest that begins with a
blank. -/
theorem append_eq_append_of_solid {front other back : List Char}
    (solidFront : ∀ c ∈ front, isBlank c = false) (solidOther : ∀ c ∈ other, isBlank c = false)
    (endsFront : ∀ c ∈ back.head?, isBlank c = true)
    (endsOther : ∀ c ∈ rest.head?, isBlank c = true) (same : front ++ back = other ++ rest) :
    front = other ∧ back = rest := by
  have firsts : front = other := by
    rw [← takeWhile_token solidFront endsFront, same, takeWhile_token solidOther endsOther]
  subst firsts
  exact ⟨rfl, List.append_cancel_left same⟩

end JavaInspect.Text
