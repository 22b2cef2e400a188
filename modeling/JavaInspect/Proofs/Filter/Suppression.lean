import JavaInspect.Filter.SuppressWarnings
import JavaInspect.Proofs.Filter.Scans
import JavaInspect.Proofs.Semantics.Annotations
import JavaInspect.Proofs.Semantics.Consultations
import JavaInspect.Proofs.Semantics.SubtypeOrder
import JavaInspect.Proofs.Tree.Building

/-!
# Which findings annotations suppress

An annotation suppresses a finding if it is recognised as one that suppresses warnings, holds the
name of the rule or the one that stands for every rule, and belongs to a declaration that covers
the line of the finding. A finding is excluded exactly if one annotation suppresses it. So no
annotation reaches beyond its declaration, and several annotations suppress together what each of
them suppresses alone.
-/

namespace JavaInspect

open Cache Query

namespace SuppressWarningsFilter

section Definitions

variable (unit : SourceUnit) (mark : NodeId)

/-- An annotation suppresses warnings: its type is the known one of this name or, where the type
is not known, its written name has the right ending. -/
def IsSuppressing : Prop :=
  (∃ type, unit.tree.binding mark = some type ∧ unit.table.isKnown type ∧
    (unit.table.entry type).qualifiedName = annotationName) ∨
  unit.IsUnresolvedUse mark ∧ unit.IsWrittenBy mark "SuppressWarnings"

/-- A literal somewhere in an annotation is a written name in quotes. -/
def Holds (written : String) : Prop :=
  ∃ literal ∈ unit.tree.descendants mark, unit.tree.kind literal = .literal ∧
    unit.tree.text literal = some ("\"" ++ written ++ "\"")

/-- An annotation suppresses the findings of a rule on a line, by a name that it holds and the
declaration that it belongs to. -/
structure Suppresses (name : String) (line : Nat) : Prop where
  recognised : IsSuppressing unit mark
  named : ∃ written, Holds unit mark written ∧ (written = everyRule ∨ ruleName written = name)
  covered : ∃ declaration, unit.tree.parent mark = some declaration ∧
    (unit.tree.span declaration).startLine ≤ line ∧ line ≤ (unit.tree.span declaration).endLine

end Definitions

/-! ## One annotation -/

section Annotation

variable {unit : SourceUnit} {mark : NodeId} {written : String} {blame : SemanticFault → Prop}
  {before : Cache} {rules : String → Prop}

theorem unquoted?_eq_some_iff {literal : String} :
    unquoted? literal = some written ↔ literal = "\"" ++ written ++ "\"" := by
  simp only [unquoted?, Option.bind_eq_some_iff, Text.afterLead?_eq_some_iff,
    Text.beforeTail?_eq_some_iff]
  constructor
  · rintro ⟨rest, rfl, rfl⟩
    rw [String.append_assoc]
  · rintro rfl
    exact ⟨written ++ "\"", by rw [String.append_assoc], rfl⟩

theorem mem_namesIn : written ∈ namesIn unit.tree mark ↔ Holds unit mark written := by
  simp only [namesIn, List.mem_filterMap, List.mem_filter, beq_iff_eq, Option.bind_eq_some_iff,
    unquoted?_eq_some_iff, Holds]
  constructor
  · rintro ⟨literal, ⟨below, isLiteral⟩, text, isText, rfl⟩
    exact ⟨literal, below, isLiteral, isText⟩
  · rintro ⟨literal, below, isLiteral, isText⟩
    exact ⟨literal, ⟨below, isLiteral⟩, _, isText, rfl⟩

/-- A name excludes the lines of the span for the rules that it stands for. -/
theorem coversExactly_excludeNamed {exclusions : Exclusions} {covered : String → Nat → Prop}
    (span : Span) (written : String) (covers : exclusions.CoversExactly rules covered) :
    (excludeNamed span exclusions written).CoversExactly rules fun name line =>
      covered name line ∨ (written = everyRule ∨ ruleName written = name) ∧
        span.startLine ≤ line ∧ line ≤ span.endLine := by
  rw [excludeNamed]
  split
  case isTrue isEvery =>
    have oneCall : (ExclusionCall.apply exclusions (.linesForAnyRule span)).CoversExactly rules _ :=
      covers.apply (by simp [ExclusionCall.CoversUnit])
    exact oneCall.congr fun _ _ _ => by simp [ExclusionCall.CoversLine, isEvery]
  case isFalse notEvery =>
    have oneCall : (ExclusionCall.apply exclusions (.lines written span)).CoversExactly rules _ :=
      covers.apply (by simp [ExclusionCall.CoversUnit])
    exact oneCall.congr fun _ _ _ => by simp [ExclusionCall.CoversLine, notEvery]

theorem decides_isSuppressing (arraysEnd : unit.table.ArraysEnd)
    (valid : before.Valid unit.table) :
    Decides unit.table blame (isSuppressing unit mark) before (IsSuppressing unit mark) := by
  rw [isSuppressing, IsSuppressing, SourceUnit.IsUnresolvedUse]
  cases unit.tree.binding mark with
  | none =>
      apply Yields.pure valid
      rw [nameEndsWith_iff]
      simp
  | some type =>
      apply (yields_typeOf arraysEnd valid).bind
      intro facade middle leads isShown
      rw [isUnknown_eq leads.valid isShown]
      by_cases known : unit.table.isKnown type
      · rw [Table.known?_of_isKnown known]
        apply (yields_typeOf arraysEnd leads.valid).bind
        intro facade after leadsOn isShown
        apply Yields.get
        apply Yields.pure leadsOn.valid
        rw [isNamed_eq leadsOn.valid isShown, Table.known?_of_isKnown known]
        simp [Table.isNamed, known]
      · rw [Table.known?_of_not_isKnown known]
        apply Yields.pure leads.valid
        rw [nameEndsWith_iff]
        simp [known]

/-- What an annotation suppresses is added to what is excluded already. -/
theorem yields_excludeFor {exclusions : Exclusions} {covered : String → Nat → Prop}
    (arraysEnd : unit.table.ArraysEnd) (valid : before.Valid unit.table)
    (covers : exclusions.CoversExactly rules covered) :
    Yields unit.table blame (excludeFor unit exclusions mark) before fun more _ =>
      more.CoversExactly rules fun name line =>
        covered name line ∨ Suppresses unit mark name line := by
  rw [excludeFor]
  apply (decides_isSuppressing arraysEnd valid).bind
  intro recognised after leads decided
  cases recognised with
  | false =>
      have unrecognised : ¬ IsSuppressing unit mark := by simp [← decided]
      apply Yields.pure leads.valid
      exact covers.addNothing fun _ _ suppresses => unrecognised suppresses.recognised
  | true =>
      have recognised : IsSuppressing unit mark := decided.1 rfl
      cases isParent : unit.tree.parent mark with
      | none =>
          apply Yields.pure leads.valid
          apply covers.addNothing
          intro _ _ suppresses
          obtain ⟨declaration, isDeclared, -⟩ := suppresses.covered
          simp [isParent] at isDeclared
      | some declaration =>
          apply Yields.pure leads.valid
          have named := Exclusions.CoversExactly.foldl
            (coversExactly_excludeNamed (unit.tree.span declaration)) covers
            (namesIn unit.tree mark)
          refine named.congr fun name _ line => or_congr_right ?_
          simp only [mem_namesIn]
          constructor
          · rintro ⟨written, held, isName, inside⟩
            exact ⟨recognised, ⟨written, held, isName⟩, declaration, isParent, inside⟩
          · rintro ⟨-, ⟨written, held, isName⟩, other, isDeclared, inside⟩
            obtain rfl : declaration = other := Option.some.inj (isParent.symm.trans isDeclared)
            exact ⟨written, held, isName, inside⟩

end Annotation

/-! ## All annotations -/

variable {unit : SourceUnit} {cache : Cache}

/-- For every unit, whatever was asked before, and every finding: it is excluded exactly if some
annotation in the tree suppresses it. -/
theorem suppressed_iff (built : unit.table.Built) (requested : cache.Requested unit.table)
    (finding : Finding) :
    (scan unit cache).1.excludes finding = true ↔
      ∃ mark ∈ unit.tree.preorder, unit.tree.kind mark = .annotationUse ∧
        Suppresses unit mark finding.rule.name finding.line := by
  have arraysEnd := built.wellLinked.arraysEnd
  have scanned : Yields unit.table (fun _ => True) (scan unit) cache fun exclusions _ =>
      exclusions.CoversExactly (fun _ => True) fun name line =>
        ∃ mark ∈ unit.tree.preorder.filter (unit.tree.kind · == .annotationUse),
          Suppresses unit mark name line :=
    yields_scan (requested.valid arraysEnd) fun mark _ middle leads _ _ covers =>
      yields_excludeFor arraysEnd leads.valid covers
  rw [scanned.2.excludes_iff trivial]
  simp [and_assoc]

/-! ### A class and a method with annotations of their own -/

/-- A class with an annotation of known type that holds two names, and a method in it with one of
unknown type that holds the name for every rule. -/
def nestedNodes : List TreeCall :=
  [ .start .class (.ofLines 1 9),
    .start .annotationUse (.ofLines 1 1),
    .setBinding ⟨2⟩ ⟨1⟩,
    .start .arguments (.ofLines 1 1),
    .leaf .literal (.ofLines 1 1),
    .setText ⟨4⟩ "\"S100\"",
    .leaf .literal (.ofLines 1 1),
    .setText ⟨5⟩ "\"java:S107\"",
    .finish,
    .finish,
    .start .method (.ofLines 3 5),
    .start .annotationUse (.ofLines 3 3),
    .setName ⟨7⟩ "SuppressWarnings" (.ofLines 3 3),
    .leaf .literal (.ofLines 3 3),
    .setText ⟨8⟩ "\"all\"" ]

/-- The unit of the class. -/
def nestedUnit : SourceUnit :=
  { path := "Outer.java"
    source := ""
    tree := (nestedNodes.foldl TreeCall.apply (.new (.ofLines 1 9))).build
    table := Table.build [.declareType annotationName .annotationType] }

theorem suppressed_iff_nested :
    (∃ mark ∈ nestedUnit.tree.preorder, nestedUnit.tree.kind mark = .annotationUse ∧
      Suppresses nestedUnit mark "S107" 9) ∧
    (∃ mark ∈ nestedUnit.tree.preorder, nestedUnit.tree.kind mark = .annotationUse ∧
      Suppresses nestedUnit mark "S2226" 5) ∧
    ¬ ∃ mark ∈ nestedUnit.tree.preorder, nestedUnit.tree.kind mark = .annotationUse ∧
      Suppresses nestedUnit mark "S2226" 6 := by
  have built : nestedUnit.table.Built := Table.built_iff.2 ⟨_, rfl⟩
  have suppressed (rule : String) (line : Nat) :=
    suppressed_iff built .empty (.onLine ⟨rule⟩ line)
  refine ⟨?_, ?_, ?_⟩
  · exact (suppressed "S107" 9).1 (by decide +kernel)
  · exact (suppressed "S2226" 5).1 (by decide +kernel)
  · intro suppresses
    exact absurd ((suppressed "S2226" 6).2 suppresses) (by decide +kernel)

end SuppressWarningsFilter

end JavaInspect
