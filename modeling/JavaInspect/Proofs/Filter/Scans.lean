import JavaInspect.Proofs.Filter.Coverage
import JavaInspect.Proofs.Semantics.Outcome

/-!
# Scans node by node

A filter that looks at one node after the other adds whatever a node gives reason for to what is
excluded already, and takes nothing away. What a single node gives reason for is said by a relation
of names and lines, and the scan is described by the union of these relations.
-/

namespace JavaInspect

open Cache Query

/-- A finding of a rule on one line. -/
def Finding.onLine (rule : RuleKey) (line : Nat) : Finding :=
  { rule, message := "", span := .ofLines line line }

namespace Exclusions

variable {rules : String → Prop}

/-! ## What is excluded without more -/

/-- Nothing is excluded from the whole unit, and for the rules in question exactly the lines that
a relation gives. -/
structure CoversExactly (exclusions : Exclusions) (rules : String → Prop)
    (covered : String → Nat → Prop) : Prop where
  noUnit : ∀ name, ¬ exclusions.CoversUnit name
  lines : ∀ name, rules name → ∀ line, exclusions.CoversLine name line ↔ covered name line

namespace CoversExactly

variable {exclusions : Exclusions} {covered other : String → Nat → Prop}

theorem empty : CoversExactly {} rules fun _ _ => False where
  noUnit _ := not_coversUnit_empty
  lines _ _ _ := iff_of_false not_coversLine_empty id

theorem congr (covers : exclusions.CoversExactly rules covered)
    (same : ∀ name, rules name → ∀ line, covered name line ↔ other name line) :
    exclusions.CoversExactly rules other where
  noUnit := covers.noUnit
  lines name inQuestion line :=
    (covers.lines name inQuestion line).trans (same name inQuestion line)

/-- What gives no reason adds nothing. -/
theorem addNothing (covers : exclusions.CoversExactly rules covered)
    (noReason : ∀ name line, ¬ other name line) :
    exclusions.CoversExactly rules fun name line => covered name line ∨ other name line :=
  covers.congr fun name _ line => (or_iff_left (noReason name line)).symm

/-- A call that excludes no whole unit adds what it is meant for. -/
theorem apply {call : ExclusionCall} (covers : exclusions.CoversExactly rules covered)
    (noUnit : ∀ name, ¬ call.CoversUnit name) :
    (call.apply exclusions).CoversExactly rules fun name line =>
      covered name line ∨ call.CoversLine name line where
  noUnit name := by
    rw [coversUnit_apply, not_or]
    exact ⟨covers.noUnit name, noUnit name⟩
  lines name inQuestion line := by rw [coversLine_apply, covers.lines name inQuestion]

/-- What is excluded under a condition comes on top, if the condition is decided right for the
rules in question. -/
theorem excludeLinesIf {condition : Bool} {holds : Prop} {rule : RuleKey} {span : Span}
    (covers : exclusions.CoversExactly rules covered) (bare : ruleName rule.name = rule.name)
    (decided : rules rule.name → (condition = true ↔ holds)) :
    (exclusions.excludeLinesIf condition rule span).CoversExactly rules fun name line =>
      covered name line ∨
        rule.name = name ∧ holds ∧ span.startLine ≤ line ∧ line ≤ span.endLine := by
  have oneCall : (ExclusionCall.apply exclusions (.linesIf condition rule span)).CoversExactly
      rules _ := covers.apply (by simp [ExclusionCall.CoversUnit])
  refine oneCall.congr fun name inQuestion line => or_congr_right ?_
  rw [ExclusionCall.CoversLine, bare]
  constructor
  · rintro ⟨met, rfl, inside⟩
    exact ⟨rfl, (decided inQuestion).1 met, inside⟩
  · rintro ⟨rfl, met, inside⟩
    exact ⟨(decided inQuestion).2 met, rfl, inside⟩

/-- What several items give reason for comes on top, one after the other. -/
theorem foldl {Item : Type} {exclude : Exclusions → Item → Exclusions}
    {reasons : Item → String → Nat → Prop}
    (step : ∀ {exclusions covered} (item : Item), exclusions.CoversExactly rules covered →
      (exclude exclusions item).CoversExactly rules fun name line =>
        covered name line ∨ reasons item name line)
    (covers : exclusions.CoversExactly rules covered) (items : List Item) :
    (items.foldl exclude exclusions).CoversExactly rules fun name line =>
      covered name line ∨ ∃ item ∈ items, reasons item name line := by
  induction items generalizing exclusions covered with
  | nil => exact covers.congr fun _ _ _ => by simp
  | cons item rest ih => exact (ih (step item covers)).congr fun _ _ _ => by simp [or_assoc]

theorem excludes_iff {finding : Finding} (covers : exclusions.CoversExactly rules covered)
    (inQuestion : rules finding.rule.name) :
    exclusions.excludes finding = true ↔ covered finding.rule.name finding.line := by
  rw [excludes_eq_true_iff, or_iff_right (covers.noUnit _), covers.lines _ inQuestion]

end CoversExactly

end Exclusions

namespace Query

variable {Item : Type} {table : Table} {blame : SemanticFault → Prop} {before : Cache}
  {rules : String → Prop} {reasons : Item → String → Nat → Prop}

/-- A scan adds what the items that it looks at give reason for. -/
theorem yields_foldlM {exclude : Exclusions → Item → Query Exclusions} {items : List Item}
    {exclusions : Exclusions} {covered : String → Nat → Prop} (valid : before.Valid table)
    (asked : ∀ item ∈ items, ∀ middle, Leads table blame before middle → ∀ {exclusions covered},
      exclusions.CoversExactly rules covered →
      Yields table blame (exclude exclusions item) middle fun more _ =>
        more.CoversExactly rules fun name line => covered name line ∨ reasons item name line)
    (covers : exclusions.CoversExactly rules covered) :
    Yields table blame (items.foldlM exclude exclusions) before fun more _ =>
      more.CoversExactly rules fun name line =>
        covered name line ∨ ∃ item ∈ items, reasons item name line := by
  induction items generalizing before exclusions covered with
  | nil => exact .pure valid (covers.congr fun _ _ _ => by simp)
  | cons item rest ih =>
      rw [List.foldlM_cons]
      apply (asked item List.mem_cons_self before (.refl valid) covers).bind
      intro more middle leads coversMore
      refine (ih leads.valid ?_ coversMore).imp ?_
      · intro item member later leadsOn
        exact asked item (List.mem_cons_of_mem _ member) later (leads.trans leadsOn)
      · intro all _ _ coversAll
        exact coversAll.congr fun _ _ _ => by simp [or_assoc]

/-- What a scan excludes that starts from nothing. -/
theorem yields_scan {exclude : Exclusions → Item → Query Exclusions} {items : List Item}
    (valid : before.Valid table)
    (asked : ∀ item ∈ items, ∀ middle, Leads table blame before middle → ∀ {exclusions covered},
      exclusions.CoversExactly rules covered →
      Yields table blame (exclude exclusions item) middle fun more _ =>
        more.CoversExactly rules fun name line => covered name line ∨ reasons item name line) :
    Yields table blame (items.foldlM exclude {}) before fun exclusions _ =>
      exclusions.CoversExactly rules fun name line => ∃ item ∈ items, reasons item name line :=
  (yields_foldlM valid asked .empty).imp fun _ _ _ covers =>
    covers.congr fun _ _ _ => by rw [false_or]

end Query

end JavaInspect
