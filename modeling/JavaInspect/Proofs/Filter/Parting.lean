import JavaInspect.Filter.Basic
import JavaInspect.Proofs.Semantics.Consultations
import Mathlib.Data.List.Find

/-!
# How filters part findings

Filters part the findings of a unit into those that stay and those that go. Nothing is lost,
doubled, changed or moved. A finding goes exactly if a filter removes it, and is put down to
the first one that does. Which filters look at the unit does not matter, since those that
need not remove nothing; and what stays depends neither on the order of the filters nor on
whether they are applied together or in turn.
-/

namespace JavaInspect

open Cache

/-! ## What removes a finding -/

/-- A rule is one whose findings a filter may remove. -/
def RuleScope.Covers (scope : RuleScope) (rule : RuleKey) : Prop :=
  match scope with
  | .rules keys => rule ∈ keys
  | .anyRule => True

theorem RuleScope.contains_iff {scope : RuleScope} {rule : RuleKey} :
    scope.contains rule = true ↔ scope.Covers rule := by
  cases scope with
  | rules keys => exact List.contains_iff_mem
  | anyRule => exact iff_of_true rfl trivial

/-- Why a finding is excluded. -/
inductive Exclusions.Covers (exclusions : Exclusions) (finding : Finding) : Prop where
  | unit (whole : exclusions.wholeUnit = true)
  | unitForRule (listed : finding.rule.name ∈ exclusions.unitRules)
  | line (held : finding.line ∈ exclusions.anyRuleLines)
  | lineForRule (lines : LineSet) (isSet : exclusions.ruleLines.get? finding.rule.name = some lines)
      (held : finding.line ∈ lines)

theorem Exclusions.excludes_iff {exclusions : Exclusions} {finding : Finding} :
    exclusions.excludes finding = true ↔ exclusions.Covers finding := by
  simp only [excludes, Bool.or_eq_true, List.contains_iff_mem, Option.any_eq_true,
    LineSet.contains_iff]
  constructor
  · rintro (((whole | listed) | held) | ⟨lines, isSet, held⟩)
    · exact .unit whole
    · exact .unitForRule listed
    · exact .line held
    · exact .lineForRule lines isSet held
  · rintro (whole | listed | held | ⟨lines, isSet, held⟩)
    · exact .inl (.inl (.inl whole))
    · exact .inl (.inl (.inr listed))
    · exact .inl (.inr held)
    · exact .inr ⟨lines, isSet, held⟩

namespace IssueFilter

variable (unit : SourceUnit) (filter : IssueFilter)

/-- What a filter excludes from a unit of which nothing was asked before. -/
def excluded : Exclusions := (filter.scan unit {}).1

/-- What a filter excludes depends only on the unit. -/
structure DependsOnUnit : Prop where
  scan : ∀ cache : Cache, cache.Requested unit.table →
    (filter.scan unit cache).1 = filter.excluded unit
  requested : ∀ cache : Cache, cache.Requested unit.table →
    (filter.scan unit cache).2.Requested unit.table

/-- A filter has the rule of a finding in its scope, and excludes the finding. -/
def Removes (finding : Finding) : Prop :=
  filter.scope.Covers finding.rule ∧ (filter.excluded unit).Covers finding

/-- What a filter comes to on a unit. -/
def fullScan : FilterScan :=
  { name := filter.name, scope := filter.scope, exclusions := filter.excluded unit }

theorem removes_fullScan_iff {finding : Finding} :
    (filter.fullScan unit).removes finding = true ↔ filter.Removes unit finding := by
  rw [FilterScan.removes, Bool.and_eq_true, RuleScope.contains_iff, Exclusions.excludes_iff]
  rfl

end IssueFilter

/-! ## Parted findings -/

/-- Two lists make up a third one, in which both keep their order. -/
inductive Interleaves {Item : Type} : List Item → List Item → List Item → Prop where
  | nil : Interleaves [] [] []
  | left {first second whole : List Item} (item : Item) (rest : Interleaves first second whole) :
      Interleaves (item :: first) second (item :: whole)
  | right {first second whole : List Item} (item : Item) (rest : Interleaves first second whole) :
      Interleaves first (item :: second) (item :: whole)

namespace Interleaves

variable {Item : Type} {first second whole : List Item}

/-- The parts are told apart by what holds of one and not of the other. -/
theorem left_eq_filter {holds : Item → Bool} (interleaves : Interleaves first second whole)
    (stays : ∀ item ∈ first, holds item = true) (goes : ∀ item ∈ second, holds item = false) :
    first = whole.filter holds := by
  induction interleaves with
  | nil => rfl
  | left item _ ih =>
      have later := ih (fun other member => stays other (List.mem_cons_of_mem _ member)) goes
      rw [List.filter_cons_of_pos (stays item List.mem_cons_self), ← later]
  | right item _ ih =>
      have later := ih stays fun other member => goes other (List.mem_cons_of_mem _ member)
      rw [List.filter_cons_of_neg (by simp [goes item List.mem_cons_self]), ← later]

theorem mem_iff {item : Item} (interleaves : Interleaves first second whole) :
    item ∈ whole ↔ item ∈ first ++ second := by
  induction interleaves with
  | nil => simp
  | left other _ ih => simp [ih]
  | right other _ ih => simp [ih, or_left_comm]

end Interleaves

/-- Findings are parted by filters: each either stays and no filter removes it, or goes and is
put down to the first filter that does. -/
structure Parts (filters : List IssueFilter) (unit : SourceUnit) (findings : List Finding)
    (outcome : FilterOutcome) : Prop where
  interleaves : Interleaves outcome.kept (outcome.suppressed.map (·.finding)) findings
  kept : ∀ finding ∈ outcome.kept, ∀ filter ∈ filters, ¬ filter.Removes unit finding
  suppressed : ∀ suppressed ∈ outcome.suppressed, ∃ earlier filter later,
    filters = earlier ++ filter :: later ∧ filter.Removes unit suppressed.finding ∧
      (∀ other ∈ earlier, ¬ other.Removes unit suppressed.finding) ∧
      suppressed.filter = filter.name

/-- What stays is what no filter removes. -/
theorem Parts.kept_eq {filters : List IssueFilter} {unit : SourceUnit} {findings : List Finding}
    {outcome : FilterOutcome} (parts : Parts filters unit findings outcome) :
    outcome.kept = findings.filter fun finding => !filters.any fun filter =>
      (filter.fullScan unit).removes finding := by
  apply parts.interleaves.left_eq_filter
  · intro finding stays
    simpa [IssueFilter.removes_fullScan_iff] using parts.kept finding stays
  · intro finding goes
    obtain ⟨suppressed, member, rfl⟩ := List.mem_map.1 goes
    obtain ⟨earlier, filter, later, split, removes, -, -⟩ := parts.suppressed suppressed member
    rw [Bool.not_eq_false', List.any_eq_true]
    exact ⟨filter, by simp [split], (filter.removes_fullScan_iff unit).2 removes⟩

namespace FilterScan

/-- Whatever the scans are, the findings are parted without loss and in order. -/
theorem interleaves_part (scans : List FilterScan) (findings : List Finding) :
    Interleaves (part scans findings).kept ((part scans findings).suppressed.map (·.finding))
      findings := by
  induction findings with
  | nil => exact .nil
  | cons finding rest ih =>
      cases removed : remover? scans finding with
      | none => simpa [part, suppressed?, removed] using ih.left finding
      | some name => simpa [part, suppressed?, removed] using ih.right finding

end FilterScan

namespace IssueFilter

variable {filters : List IssueFilter} {unit : SourceUnit} {findings : List Finding} {cache : Cache}

/-- The first filter that removes a finding. -/
theorem remover?_fullScans {finding : Finding} :
    FilterScan.remover? (filters.map (fullScan unit)) finding =
      (filters.find? fun filter => (filter.fullScan unit).removes finding).map (·.name) := by
  rw [FilterScan.remover?, List.find?_map, Option.map_map]
  rfl

theorem parts_fullScans :
    Parts filters unit findings (FilterScan.part (filters.map (fullScan unit)) findings) where
  interleaves := FilterScan.interleaves_part _ _
  kept finding stays filter member removes := by
    rw [FilterScan.part, List.mem_filter, remover?_fullScans, Option.isNone_map,
      Option.isNone_iff_eq_none, List.find?_eq_none] at stays
    exact stays.2 filter member ((filter.removes_fullScan_iff unit).2 removes)
  suppressed suppressed goes := by
    rw [FilterScan.part, List.mem_filterMap] at goes
    obtain ⟨finding, -, isSuppressed⟩ := goes
    rw [FilterScan.suppressed?, remover?_fullScans, Option.map_map] at isSuppressed
    obtain ⟨filter, found, rfl⟩ := Option.map_eq_some_iff.1 isSuppressed
    obtain ⟨removes, earlier, later, split, sooner⟩ := List.find?_eq_some_iff_append.1 found
    refine ⟨earlier, filter, later, split, (filter.removes_fullScan_iff unit).1 removes, ?_, rfl⟩
    intro other member removes
    have isRemoved : (other.fullScan unit).removes finding = true :=
      (other.removes_fullScan_iff unit).2 removes
    simpa [isRemoved] using sooner other member

/-- A filter that concerns none of the findings removes none. -/
theorem part_concerned :
    FilterScan.part ((filters.filter (·.concerns findings)).map (fullScan unit)) findings =
      FilterScan.part (filters.map (fullScan unit)) findings := by
  have same : ∀ finding ∈ findings,
      FilterScan.remover? ((filters.filter (·.concerns findings)).map (fullScan unit)) finding =
        FilterScan.remover? (filters.map (fullScan unit)) finding := by
    intro finding member
    rw [remover?_fullScans, remover?_fullScans, List.find?_filter]
    congr 1
    apply List.find?_congr
    intro filter _
    rw [Bool.eq_iff_iff, decide_eq_true_iff, and_iff_right_iff_imp]
    intro removes
    have covers := ((filter.removes_fullScan_iff unit).1 removes).1
    exact List.any_eq_true.2 ⟨finding, member, RuleScope.contains_iff.2 covers⟩
  rw [FilterScan.part, FilterScan.part]
  congr 1
  · exact List.filter_congr fun finding member => by rw [same finding member]
  · apply List.filterMap_congr
    intro finding member
    rw [FilterScan.suppressed?, FilterScan.suppressed?, same finding member]

/-- Apply filters that all look at the unit, also those that concern none of the findings. -/
def applyEvery (filters : List IssueFilter) (unit : SourceUnit) (findings : List Finding) :
    Query FilterOutcome := do
  let scans ← filters.mapM (scanned unit)
  return FilterScan.part scans findings

/-- Apply filters to what others keep. -/
def applyInTurn (first second : List IssueFilter) (unit : SourceUnit) (findings : List Finding) :
    Query FilterOutcome := do
  let outcome ← applyAll first unit findings
  applyAll second unit outcome.kept

section Depending

variable (depend : ∀ filter ∈ filters, filter.DependsOnUnit unit)
  (requested : cache.Requested unit.table)

include depend requested

theorem mapM_scanned :
    (filters.mapM (scanned unit) cache).1 = filters.map (fullScan unit) ∧
      (filters.mapM (scanned unit) cache).2.Requested unit.table := by
  induction filters generalizing cache with
  | nil => exact ⟨rfl, requested⟩
  | cons filter rest ih =>
      have here := depend filter List.mem_cons_self
      have later := ih (fun other member => depend other (List.mem_cons_of_mem _ member))
        (here.requested cache requested)
      have scan : (scanned unit filter cache).1 = filter.fullScan unit := by
        rw [fullScan, ← here.scan cache requested]
        rfl
      rw [List.mapM_cons, List.map_cons, ← scan, ← later.1]
      exact ⟨rfl, later.2⟩

theorem applyEvery_eq : (applyEvery filters unit findings cache).1 =
    FilterScan.part (filters.map (fullScan unit)) findings := by
  rw [← (mapM_scanned depend requested).1]
  rfl

theorem applyAll_eq (findings : List Finding) :
    (applyAll filters unit findings cache).1 =
        FilterScan.part (filters.map (fullScan unit)) findings ∧
      (applyAll filters unit findings cache).2.Requested unit.table := by
  have dependConcerned : ∀ filter ∈ filters.filter (·.concerns findings),
      filter.DependsOnUnit unit :=
    fun filter member => depend filter (List.mem_of_mem_filter member)
  obtain ⟨scans, later⟩ := mapM_scanned dependConcerned requested
  rw [← part_concerned, ← scans]
  exact ⟨rfl, later⟩

end Depending

/-- For every list of filters that depend only on the unit, and every list of findings: the
findings are parted, each that goes being put down to the first filter that removes it. To
skip the filters that concern no finding changes nothing. What stays does not depend on the
order of the filters, and is the same if they are applied in turn. -/
theorem findings_parted (depend : ∀ filter ∈ filters, filter.DependsOnUnit unit)
    (requested : cache.Requested unit.table) (findings : List Finding) :
    Parts filters unit findings (applyAll filters unit findings cache).1 ∧
      (applyEvery filters unit findings cache).1 = (applyAll filters unit findings cache).1 ∧
      (∀ reordered : List IssueFilter, reordered.Perm filters →
        (applyAll reordered unit findings cache).1.kept =
          (applyAll filters unit findings cache).1.kept) ∧
      ∀ first second : List IssueFilter, first ++ second = filters →
        (applyInTurn first second unit findings cache).1.kept =
          (applyAll filters unit findings cache).1.kept := by
  have together := applyAll_eq depend requested findings
  refine ⟨?_, ?_, ?_, ?_⟩
  · rw [together.1]
    exact parts_fullScans
  · rw [together.1, applyEvery_eq depend requested]
  · intro reordered perm
    have dependReordered : ∀ filter ∈ reordered, filter.DependsOnUnit unit :=
      fun filter member => depend filter (perm.mem_iff.1 member)
    rw [together.1, (applyAll_eq dependReordered requested _).1, parts_fullScans.kept_eq,
      parts_fullScans.kept_eq]
    exact List.filter_congr fun finding _ => by rw [perm.any_eq]
  · rintro first second rfl
    have dependFirst : ∀ filter ∈ first, filter.DependsOnUnit unit :=
      fun filter member => depend filter (List.mem_append_left _ member)
    have dependSecond : ∀ filter ∈ second, filter.DependsOnUnit unit :=
      fun filter member => depend filter (List.mem_append_right _ member)
    obtain ⟨firstApplied, later⟩ := applyAll_eq dependFirst requested findings
    show (applyAll second unit (applyAll first unit findings cache).1.kept
      (applyAll first unit findings cache).2).1.kept = _
    rw [together.1, (applyAll_eq dependSecond later _).1, firstApplied, parts_fullScans.kept_eq,
      parts_fullScans.kept_eq, parts_fullScans.kept_eq, List.filter_filter]
    apply List.filter_congr
    intro finding _
    rw [List.any_append, Bool.not_or, Bool.and_comm]

/-! ### Filters of several scopes -/

/-- A filter whose exclusions are concluded from answers of the semantic model. -/
def ofInquiry (name : String) (scope : RuleScope) (inquiry : SourceUnit → Inquiry Exclusions) :
    IssueFilter :=
  { name
    scope
    scan := fun unit => (inquiry unit).run unit.table }

theorem dependsOnUnit_ofInquiry {name : String} {scope : RuleScope}
    {inquiry : SourceUnit → Inquiry Exclusions} (arraysEnd : unit.table.ArraysEnd)
    (orderly : unit.table.Orderly) : (ofInquiry name scope inquiry).DependsOnUnit unit where
  scan cache requested := by
    have now := (inquiry unit).run_eq_conclusion arraysEnd orderly requested
    have afresh := (inquiry unit).run_eq_conclusion arraysEnd orderly .empty
    exact now.trans afresh.symm
  requested cache requested := by
    rcases (inquiry unit).consulted_run with ⟨made, consulted⟩
    exact requested.later consulted

/-- A filter for the whole unit, one that asks for a type, and one that concerns nothing. -/
def layered : List IssueFilter :=
  [ .ofInquiry "generated" (.rules [⟨"S1"⟩]) fun _ => .conclude { wholeUnit := true },
    .ofInquiry "resolved" .anyRule fun _ => .ask (.typeOf ⟨6⟩) fun answer =>
      .conclude <|
        match answer with
        | .type ⟨some _, _, _, _, _⟩ =>
            Exclusions.excludeUnit {} "S1" |>.excludeLines "S2" (.ofLines 1 3)
        | _ => {},
    .ofInquiry "idle" (.rules [⟨"S9"⟩]) fun _ => .conclude { wholeUnit := true } ]

/-- A unit with the channels behind it. -/
def channelUnit : SourceUnit := { (default : SourceUnit) with table := Table.channels }

/-- Findings of three rules. -/
def sampleFindings : List Finding :=
  [ { rule := ⟨"S1"⟩, message := "first", span := .ofLines 1 1 },
    { rule := ⟨"S2"⟩, message := "second", span := .ofLines 2 2 },
    { rule := ⟨"S2"⟩, message := "third", span := .ofLines 5 5 },
    { rule := ⟨"S3"⟩, message := "fourth", span := .ofLines 2 2 } ]

theorem findings_parted_layered :
    let outcome := (applyAll layered channelUnit sampleFindings {}).1
    Parts layered channelUnit sampleFindings outcome ∧
      (applyEvery layered channelUnit sampleFindings {}).1 = outcome ∧
      (applyAll layered.reverse channelUnit sampleFindings {}).1.kept = outcome.kept ∧
      (applyInTurn (layered.take 1) (layered.drop 1) channelUnit sampleFindings {}).1.kept =
        outcome.kept ∧
      outcome.kept.map (·.message) = ["third", "fourth"] ∧
      outcome.suppressed.map (·.filter) = ["generated", "resolved"] := by
  intro outcome
  have ofUnit : channelUnit.table = Table.channels := by rw [channelUnit]
  have arraysEnd : Table.channels.ArraysEnd :=
    (Table.built_iff.2 ⟨Table.channelCalls, rfl⟩).wellLinked.arraysEnd
  have orderly :=
    Table.orderly_of_acyclic Table.acyclic_owns_channels Table.acyclic_above_channels
  rw [← ofUnit] at arraysEnd orderly
  have depend : ∀ filter ∈ layered, filter.DependsOnUnit channelUnit := by
    simp [layered, dependsOnUnit_ofInquiry arraysEnd orderly]
  rcases findings_parted depend .empty sampleFindings with ⟨parts, every, reordered, inTurn⟩
  exact ⟨parts, every, reordered _ layered.reverse_perm, inTurn _ _ (layered.take_append_drop 1),
    by decide +kernel, by decide +kernel⟩

end IssueFilter

end JavaInspect
