import JavaInspect.Filter.Exclusions
import Mathlib.Data.List.Sort

/-!
# What calls exclude

Exclusions are filled by calls. A finding is excluded exactly if one of the calls covers it, and
the lines of a rule are exactly those that one of the calls covers, whatever spans the calls were
given, reversed ones included. So neither the order of the calls nor their number matters, and
exclusions count as empty exactly if no finding at all is excluded.

The lines of a rule lie in a set of lines under its name, which a call makes or adds to. So each call
adds what it covers and takes nothing away. What a sequence of calls covers follows from this by
induction on the sequence.
-/

namespace JavaInspect

/-! ## Calls -/

/-- A call that fills exclusions. -/
inductive ExclusionCall where
  | line (written : String) (line : Nat)
  | lines (written : String) (span : Span)
  | linesIf (condition : Bool) (rule : RuleKey) (span : Span)
  | linesForAnyRule (span : Span)
  | unit (written : String)
  | unitForAnyRule
deriving DecidableEq, Repr

namespace ExclusionCall

/-- The exclusions after a call. -/
def apply (exclusions : Exclusions) : ExclusionCall → Exclusions
  | .line written only => exclusions.excludeLine written only
  | .lines written span => exclusions.excludeLines written span
  | .linesIf condition rule span => exclusions.excludeLinesIf condition rule span
  | .linesForAnyRule span => exclusions.excludeLinesForAnyRule span
  | .unit written => exclusions.excludeUnit written
  | .unitForAnyRule => exclusions.excludeUnitForAnyRule

/-- A call is meant for a line of the rule of a name. -/
def CoversLine (name : String) (line : Nat) : ExclusionCall → Prop
  | .line written only => ruleName written = name ∧ line = only
  | .lines written span =>
      ruleName written = name ∧ span.startLine ≤ line ∧ line ≤ span.endLine
  | .linesIf condition rule span =>
      condition = true ∧ ruleName rule.name = name ∧ span.startLine ≤ line ∧ line ≤ span.endLine
  | .linesForAnyRule span => span.startLine ≤ line ∧ line ≤ span.endLine
  | .unit _ | .unitForAnyRule => False

/-- A call is meant for the whole unit and the rule of a name. -/
def CoversUnit (name : String) : ExclusionCall → Prop
  | .unit written => ruleName written = name
  | .unitForAnyRule => True
  | _ => False

/-- A call is meant for a finding. -/
def Covers (finding : Finding) (call : ExclusionCall) : Prop :=
  call.CoversUnit finding.rule.name ∨ call.CoversLine finding.rule.name finding.line

end ExclusionCall

/-! ## Sets of lines by rule -/

namespace RuleLines

variable {sets : RuleLines} {name other : String} {lines : List Nat} {set : LineSet} {line : Nat}

/-- A line is in the set of a name. -/
def Holds (sets : RuleLines) (name : String) (line : Nat) : Prop :=
  ∃ set, sets.get? name = some set ∧ line ∈ set

theorem lookup_addTo {entries : List (String × LineSet)} :
    (addTo name lines entries).lookup other =
      if other = name then some (((entries.lookup name).getD ∅).insertAll lines)
      else entries.lookup other := by
  induction entries with
  | nil => by_cases same : other = name <;> simp [addTo, List.lookup_cons, beq_eq_decide, same]
  | cons entry rest ih =>
      obtain ⟨first, set⟩ := entry
      by_cases isFirst : first = name
      · by_cases same : other = name <;>
          simp [addTo, List.lookup_cons, beq_eq_decide, isFirst, same]
      · have missed : ¬ name = first := Ne.symm isFirst
        by_cases same : other = first
        · simp [addTo, isFirst, same]
        · simp [addTo, List.lookup_cons, beq_eq_decide, isFirst, missed, same, ih]

/-- Lines that are put into the set of a name come to those that it holds; the sets of other names
stay as they are. -/
theorem holds_add : (sets.add name lines).Holds other line ↔
    sets.Holds other line ∨ name = other ∧ line ∈ lines := by
  simp only [Holds, get?, add, lookup_addTo]
  by_cases same : other = name
  · cases isSet : sets.entries.lookup name <;> simp [same, isSet, or_comm]
  · simp [same, Ne.symm same]

@[simp] theorem not_holds_empty : ¬ (∅ : RuleLines).Holds name line := by
  simp [Holds]

/-- Since names are distinct, no entry is hidden behind another one. -/
theorem mem_entries_iff : (name, set) ∈ sets.entries ↔ sets.get? name = some set := by
  rw [get?, List.lookup_eq_some_iff]
  constructor
  · intro listed
    obtain ⟨before, behind, isSplit⟩ := List.append_of_mem listed
    refine ⟨before, behind, isSplit, fun entry earlier => ?_⟩
    have distinct := sets.distinct
    rw [isSplit, List.map_append, List.map_cons, List.nodup_append] at distinct
    have differs : entry.1 ≠ name :=
      distinct.2.2 _ (List.mem_map_of_mem earlier) _ List.mem_cons_self
    simpa using differs.symm
  · rintro ⟨before, behind, isSplit, -⟩
    simp [isSplit]

theorem isEmpty_iff : sets.isEmpty = true ↔ ∀ name line, ¬ sets.Holds name line := by
  simp only [isEmpty, List.all_eq_true, Prod.forall, mem_entries_iff, LineSet.isEmpty_iff, Holds,
    not_exists, not_and]
  exact ⟨fun none name line set isSet => none name set isSet line,
    fun none name set isSet line => none name line set isSet⟩

end RuleLines

namespace Exclusions

/-- The exclusions that calls fill from none. -/
def build (calls : List ExclusionCall) : Exclusions := calls.foldl ExclusionCall.apply {}

/-! ## What is covered -/

/-- A line is excluded for the rule of a name or for any rule. -/
def CoversLine (exclusions : Exclusions) (name : String) (line : Nat) : Prop :=
  exclusions.ruleLines.Holds name line ∨ line ∈ exclusions.anyRuleLines

/-- The rule of a name or every rule is excluded from the whole unit. -/
def CoversUnit (exclusions : Exclusions) (name : String) : Prop :=
  exclusions.wholeUnit = true ∨ name ∈ exclusions.unitRules

variable {exclusions : Exclusions} {name written : String} {line : Nat} {finding : Finding}

theorem excludes_eq_true_iff : exclusions.excludes finding = true ↔
    exclusions.CoversUnit finding.rule.name ∨
      exclusions.CoversLine finding.rule.name finding.line := by
  simp [excludes, CoversUnit, CoversLine, RuleLines.Holds, or_assoc, Option.any_eq_true,
    or_comm (a := finding.line ∈ exclusions.anyRuleLines)]

@[simp] theorem not_coversLine_empty : ¬ ({} : Exclusions).CoversLine name line := by
  simp [CoversLine]

@[simp] theorem not_coversUnit_empty : ¬ ({} : Exclusions).CoversUnit name := by
  simp [CoversUnit]

theorem mem_linesFor :
    line ∈ exclusions.linesFor written ↔ exclusions.CoversLine (ruleName written) line := by
  rw [linesFor, CoversLine, RuleLines.Holds]
  cases isSet : exclusions.ruleLines.get? (ruleName written) with
  | none => simp [LineSet.mem_def]
  | some lines =>
      rw [← LineSet.mem_def, LineSet.mem_insertAll]
      simp [LineSet.mem_def]

theorem pairwise_linesFor (exclusions : Exclusions) (written : String) :
    (exclusions.linesFor written).Pairwise (· < ·) := by
  rw [linesFor]
  split <;> exact LineSet.increasing _

/-! ## Emptiness -/

/-- Exclusions are empty exactly if they exclude no finding, of whatever rule and at whatever
line. -/
theorem isEmpty_eq_true_iff (exclusions : Exclusions) :
    exclusions.isEmpty = true ↔ ∀ finding, exclusions.excludes finding = false := by
  simp only [isEmpty, Bool.and_eq_true, Bool.not_eq_true', RuleLines.isEmpty_iff,
    LineSet.isEmpty_iff, List.isEmpty_iff]
  constructor
  · rintro ⟨⟨⟨ruleLines, anyRuleLines⟩, unitRules⟩, wholeUnit⟩ finding
    rw [Bool.eq_false_iff, ne_eq, excludes_eq_true_iff]
    intro covered
    cases covered with
    | inl unit => simp [CoversUnit, unitRules, wholeUnit] at unit
    | inr lines =>
        cases lines with
        | inl forRule => exact ruleLines _ _ forRule
        | inr forAny => exact anyRuleLines _ forAny
  · intro nothing
    have uncovered (name : String) (line : Nat) :
        ¬ exclusions.CoversUnit name ∧ ¬ exclusions.CoversLine name line := by
      have excluded := nothing { rule := ⟨name⟩, message := "", span := .ofLines line line }
      rw [Bool.eq_false_iff, ne_eq, excludes_eq_true_iff, not_or] at excluded
      exact excluded
    have unitRules : exclusions.unitRules = [] := by
      rw [List.eq_nil_iff_forall_not_mem]
      exact fun name listed => (uncovered name 0).1 (.inr listed)
    have wholeUnit : exclusions.wholeUnit = false := by
      rw [Bool.eq_false_iff]
      exact fun whole => (uncovered "" 0).1 (.inl whole)
    exact ⟨⟨⟨fun name line held => (uncovered name line).2 (.inl held),
      fun line held => (uncovered "" line).2 (.inr held)⟩, unitRules⟩, wholeUnit⟩

/-! ## What calls add -/

@[simp] theorem coversLine_excludeLine {only : Nat} :
    (exclusions.excludeLine written only).CoversLine name line ↔
      exclusions.CoversLine name line ∨ ruleName written = name ∧ line = only := by
  simp [CoversLine, excludeLine, RuleLines.holds_add, or_right_comm]

@[simp] theorem coversLine_excludeLines {span : Span} :
    (exclusions.excludeLines written span).CoversLine name line ↔
      exclusions.CoversLine name line ∨
        ruleName written = name ∧ span.startLine ≤ line ∧ line ≤ span.endLine := by
  simp [CoversLine, excludeLines, RuleLines.holds_add, or_right_comm]

@[simp] theorem coversLine_excludeLinesForAnyRule {span : Span} :
    (exclusions.excludeLinesForAnyRule span).CoversLine name line ↔
      exclusions.CoversLine name line ∨ span.startLine ≤ line ∧ line ≤ span.endLine := by
  simp only [CoversLine, excludeLinesForAnyRule, LineSet.mem_insertAll, Span.mem_lineNumbers]
  rw [or_assoc, or_comm (b := line ∈ exclusions.anyRuleLines)]

/-- A call adds the lines that it covers. -/
theorem coversLine_apply {call : ExclusionCall} : (call.apply exclusions).CoversLine name line ↔
    exclusions.CoversLine name line ∨ call.CoversLine name line := by
  cases call with
  | line | lines | linesForAnyRule => simp [ExclusionCall.apply, ExclusionCall.CoversLine]
  | linesIf condition rule span =>
      cases condition <;> simp [ExclusionCall.apply, ExclusionCall.CoversLine, excludeLinesIf]
  | unit | unitForAnyRule => simp [ExclusionCall.apply, ExclusionCall.CoversLine, CoversLine,
      excludeUnit, excludeUnitForAnyRule]

/-- A call adds the rules that it covers for the whole unit. -/
theorem coversUnit_apply {call : ExclusionCall} : (call.apply exclusions).CoversUnit name ↔
    exclusions.CoversUnit name ∨ call.CoversUnit name := by
  cases call with
  | linesIf condition rule span => cases condition <;> simp [ExclusionCall.apply,
      ExclusionCall.CoversUnit, excludeLinesIf, excludeLines, CoversUnit]
  | unit written => simp [ExclusionCall.apply, ExclusionCall.CoversUnit, excludeUnit, CoversUnit,
      or_assoc, or_comm (a := ruleName written = name), eq_comm (a := name)]
  | line | lines | linesForAnyRule | unitForAnyRule => simp [ExclusionCall.apply,
      ExclusionCall.CoversUnit, CoversUnit, excludeLine, excludeLines, excludeLinesForAnyRule,
      excludeUnitForAnyRule]

/-- What each call adds to exclusions, a sequence of calls adds. -/
theorem build_iff (holds : Exclusions → Prop) (adds : ExclusionCall → Prop)
    (step : ∀ exclusions call, holds (call.apply exclusions) ↔ holds exclusions ∨ adds call)
    (none : ¬ holds {}) (calls : List ExclusionCall) :
    holds (build calls) ↔ ∃ call ∈ calls, adds call := by
  have fold (exclusions : Exclusions) : holds (calls.foldl ExclusionCall.apply exclusions) ↔
      holds exclusions ∨ ∃ call ∈ calls, adds call := by
    induction calls generalizing exclusions with
    | nil => simp
    | cons call rest ih => simp [ih, step, or_assoc]
  simp [build, fold, none]

theorem coversLine_build {calls : List ExclusionCall} :
    (build calls).CoversLine name line ↔ ∃ call ∈ calls, call.CoversLine name line :=
  build_iff (·.CoversLine name line) (·.CoversLine name line) (fun _ _ => coversLine_apply)
    not_coversLine_empty calls

theorem coversUnit_build {calls : List ExclusionCall} :
    (build calls).CoversUnit name ↔ ∃ call ∈ calls, call.CoversUnit name :=
  build_iff (·.CoversUnit name) (·.CoversUnit name) (fun _ _ => coversUnit_apply)
    not_coversUnit_empty calls

variable {calls : List ExclusionCall}

theorem excludes_build :
    (build calls).excludes finding = true ↔ ∃ call ∈ calls, call.Covers finding := by
  simp only [excludes_eq_true_iff, coversUnit_build, coversLine_build, ExclusionCall.Covers,
    and_or_left, exists_or]

theorem mem_linesFor_build : line ∈ (build calls).linesFor written ↔
    ∃ call ∈ calls, call.CoversLine (ruleName written) line :=
  mem_linesFor.trans coversLine_build

/-- For every sequence of calls: a finding is excluded exactly if a call covers it. The lines of a
rule are exactly those that a call covers, each once and in increasing order. Other calls that are
the same up to order and repetition come to the same. Exclusions are empty exactly if no finding
whatsoever is excluded. -/
theorem excluded_by_calls (calls : List ExclusionCall) :
    (∀ finding, (build calls).excludes finding = true ↔ ∃ call ∈ calls, call.Covers finding) ∧
      (∀ rule : RuleKey, ruleName rule.name = rule.name →
        ((build calls).linesFor rule.name).Pairwise (· < ·) ∧
          ∀ line, line ∈ (build calls).linesFor rule.name ↔
            ∃ call ∈ calls, call.CoversLine rule.name line) ∧
      (∀ others : List ExclusionCall, (∀ call, call ∈ others ↔ call ∈ calls) →
        (∀ finding, (build others).excludes finding = (build calls).excludes finding) ∧
          (∀ written, (build others).linesFor written = (build calls).linesFor written) ∧
          (build others).isEmpty = (build calls).isEmpty) ∧
      ((build calls).isEmpty = true ↔ ∀ finding, (build calls).excludes finding = false) := by
  refine ⟨fun finding => excludes_build, ?_, ?_, isEmpty_eq_true_iff _⟩
  · intro rule bare
    refine ⟨pairwise_linesFor _ _, fun line => ?_⟩
    rw [mem_linesFor_build, bare]
  · intro others same
    have excludes (finding : Finding) :
        (build others).excludes finding = (build calls).excludes finding := by
      rw [Bool.eq_iff_iff, excludes_build, excludes_build]
      simp only [same]
    refine ⟨excludes, fun written => ?_, ?_⟩
    · apply (pairwise_linesFor _ _).eq_of_mem_iff (pairwise_linesFor _ _)
      intro line
      rw [mem_linesFor_build, mem_linesFor_build]
      simp only [same]
    · rw [Bool.eq_iff_iff, isEmpty_eq_true_iff, isEmpty_eq_true_iff]
      simp only [excludes]

/-- Calls with a written name that has a lead, a reversed span, a condition that fails, and lines
that are excluded twice. -/
def layeredCalls : List ExclusionCall :=
  [ .lines " java:S1" (.ofLines 4 6), .line "S1" 5, .lines "S2" (.ofLines 9 7),
    .linesIf false ⟨"S2"⟩ (.ofLines 1 9), .linesForAnyRule (.ofLines 2 2), .unit "java:S3" ]

theorem excluded_by_calls_layered :
    let others := layeredCalls.reverse ++ layeredCalls
    ruleName "S1" = "S1" ∧ (∀ call, call ∈ others ↔ call ∈ layeredCalls) ∧
      ((build layeredCalls).linesFor "S1").Pairwise (· < ·) ∧
      (∀ line, line ∈ (build layeredCalls).linesFor "S1" ↔
        ∃ call ∈ layeredCalls, call.CoversLine "S1" line) ∧
      (build layeredCalls).linesFor "S1" = [2, 4, 5, 6] ∧
      (build layeredCalls).ruleLines.get? "S2" = some ∅ ∧
      (build others).linesFor "S1" = (build layeredCalls).linesFor "S1" ∧
      (build others).isEmpty = (build layeredCalls).isEmpty ∧
      ¬ ∀ finding, (build layeredCalls).excludes finding = false := by
  have bare : ruleName "S1" = "S1" := by decide +kernel
  have same : ∀ call, call ∈ layeredCalls.reverse ++ layeredCalls ↔ call ∈ layeredCalls := by
    simp
  obtain ⟨-, lines, unordered, empty⟩ := excluded_by_calls layeredCalls
  obtain ⟨increasing, covered⟩ := lines ⟨"S1"⟩ bare
  obtain ⟨-, sameLines, sameEmpty⟩ := unordered _ same
  have notEmpty : (build layeredCalls).isEmpty = false := by decide +kernel
  exact ⟨bare, same, increasing, covered, by decide +kernel, by decide +kernel, sameLines _,
    sameEmpty,
    fun nothing => Bool.eq_false_iff.1 notEmpty (empty.2 nothing)⟩

end Exclusions

end JavaInspect
