import JavaInspect.Proofs.Analysis.Faults

/-!
# Findings and rules that failed

Several detectors may report under one key. They fail each on its own: when a dispatch is
completed, the findings of a detector that has failed are gone, and those of all others stay.
So a finding may carry the key of a rule that is listed as failed, but only if another detector
with that key has never failed. Filters change nothing about this.
-/

namespace JavaInspect

namespace FilterOutcome

/-- The findings of both parts, whether they stay or go. -/
def all (outcome : FilterOutcome) : List Finding :=
  outcome.kept ++ outcome.suppressed.map (·.finding)

end FilterOutcome

namespace UnitReport

/-- The findings that stay and those that were removed. -/
def all (report : UnitReport) : List Finding :=
  report.findings ++ report.suppressed.map (·.finding)

end UnitReport

theorem IssueFilter.mem_all_applyAll {filters : List IssueFilter} {unit : SourceUnit}
    {findings : List Finding} {cache : Cache} {finding : Finding} :
    finding ∈ (applyAll filters unit findings cache).1.all ↔ finding ∈ findings :=
  (FilterScan.interleaves_part _ _).mem_iff.symm

namespace Registration

variable {registrations : List Registration} {unit : SourceUnit} {before after : Session}
  {finished : Dispatcher} {finding : Finding}

/-! ## Survivors -/

/-- Whether a call of a detector fails in the dispatch of a unit. -/
def Fails (registrations : List Registration) (unit : SourceUnit) (before : Session)
    (slot : Fin registrations.length) : Bool :=
  Turn.anyFails (performance registrations unit before (unit.tree.walk .root)).1 slot

/-- A finding outlives the failures of a dispatch: it was reported by a detector with its key
that never fails. If its rule is nevertheless listed as failed, that is for another detector with
the same key; if no key is shared, its rule is not listed. -/
structure Survives (registrations : List Registration) (unit : SourceUnit) (before : Session)
    (faultedRules : List RuleKey) (finding : Finding) : Prop where
  reported : ∃ turn ∈ (performance registrations unit before (unit.tree.walk .root)).1,
    finding ∈ turn.reports ∧ (detectorAt registrations turn.slot).key = finding.rule ∧
      Fails registrations unit before turn.slot = false
  shared : finding.rule ∈ faultedRules →
    ∃ failing sound, (detectorAt registrations failing).key = finding.rule ∧
      Fails registrations unit before failing = true ∧
      (detectorAt registrations sound).key = finding.rule ∧
      Fails registrations unit before sound = false
  apart : (registrations.map (·.detector.key)).Nodup → finding.rule ∉ faultedRules

/-- The rules listed as failed are the keys of the detectors that fail. -/
theorem mem_faultedRules_iff_exists {key : RuleKey}
    (conducted :
      Conducted registrations unit before (unit.tree.walk .root) finished after) :
    key ∈ finished.faultedRules ↔ ∃ slot, (detectorAt registrations slot).key = key ∧
      Fails registrations unit before slot = true := by
  simp only [Dispatcher.faultedRules, List.mem_eraseDups, conducted.slots, List.mem_map,
    List.mem_filter, List.mem_ofFn]
  constructor
  · intro listed
    obtain ⟨_, ⟨⟨slot, rfl⟩, failed⟩, sameKey⟩ := listed
    exact ⟨slot, sameKey, failed⟩
  · intro failing
    obtain ⟨slot, sameKey, failed⟩ := failing
    exact ⟨_, ⟨⟨slot, rfl⟩, failed⟩, sameKey⟩

theorem eq_of_key_eq (distinct : (registrations.map (·.detector.key)).Nodup)
    {first second : Fin registrations.length}
    (sameKey : (detectorAt registrations first).key = (detectorAt registrations second).key) :
    first = second := by
  have sameKeys : (registrations.map (·.detector.key))[first.val]? =
      (registrations.map (·.detector.key))[second.val]? := by
    simpa [detectorAt] using sameKey
  have inside : first.val < (registrations.map (·.detector.key)).length := by simp
  exact Fin.ext ((List.getElem?_inj inside distinct).1 sameKeys)

theorem survives_of_mem_findings
    (conducted : Conducted registrations unit before (unit.tree.walk .root) finished after)
    (found : finding ∈
      Turn.findings (performance registrations unit before (unit.tree.walk .root)).1) :
    Survives registrations unit before finished.faultedRules finding := by
  obtain ⟨turn, taken, reported⟩ := List.mem_flatMap.1 found
  obtain ⟨taken, goesOn⟩ := List.mem_filter.1 taken
  have sound : Fails registrations unit before turn.slot = false := by simpa [Fails] using goesOn
  have sameKey : (detectorAt registrations turn.slot).key = finding.rule :=
    (Stage.rule_of_reported taken reported).symm
  constructor
  case reported => exact ⟨turn, taken, reported, sameKey, sound⟩
  case shared =>
    intro listed
    obtain ⟨failing, failingKey, fails⟩ := (mem_faultedRules_iff_exists conducted).1 listed
    exact ⟨failing, turn.slot, failingKey, fails, sameKey, sound⟩
  case apart =>
    intro distinct listed
    obtain ⟨failing, failingKey, fails⟩ := (mem_faultedRules_iff_exists conducted).1 listed
    rw [eq_of_key_eq distinct (failingKey.trans sameKey.symm), sound] at fails
    cases fails

end Registration

namespace Runner

variable {runner : Runner} {unit : SourceUnit} {findings : List Finding}
  {faultedRules : List RuleKey} {cache : Cache} {report : UnitReport}

/-- A report lists the rules that failed, and its findings are those of the dispatch. -/
theorem of_report_eq_ok (isReport : runner.report unit findings faultedRules cache = .ok report) :
    report.faultedRules = faultedRules ∧ ∀ finding, finding ∈ report.all ↔ finding ∈ findings := by
  cases beforeScans : cache.fault with
  | some fault =>
      rw [report_of_fault beforeScans] at isReport
      cases isReport
  | none =>
      cases afterScans : (IssueFilter.applyAll runner.filters unit findings cache).2.fault with
      | some fault =>
          rw [report_of_faultInScans beforeScans afterScans] at isReport
          cases isReport
      | none =>
          rw [Runner.report, checkFault, beforeScans] at isReport
          change (checkFault unit (IssueFilter.applyAll runner.filters unit findings cache).2 >>=
            _) = _ at isReport
          rw [checkFault, afterScans] at isReport
          obtain rfl := Except.ok.inj isReport
          exact ⟨rfl, fun finding => IssueFilter.mem_all_applyAll⟩

/-- A report comes from a dispatch that is completed. -/
theorem conducted_of_analyze (isReport : runner.analyze unit = .ok report) :
    ∃ finished after,
      Registration.Conducted runner.registrations unit runner.opening (unit.tree.walk .root)
        finished after ∧
      runner.report unit (runner.found unit) finished.faultedRules
        (runner.dispatched unit).2.session.cache = .ok report := by
  have cases := @Registration.run_cases runner.registrations true unit runner.opening
  rcases run : (Registration.dispatcher runner.registrations true).run unit runner.opening with
    ⟨error, finished, after⟩
  rw [run] at cases
  rcases cases with ⟨_, _, _, isCancelled, _⟩ | ⟨_, completed, _, conducted⟩
  · obtain rfl : error = some (.cancelled unit.path) := isCancelled
    rw [analyze_eq, run] at isReport
    cases isReport
  · obtain rfl : error = none := completed
    exact ⟨finished, after, conducted, (analyze_of_conducted run conducted).symm.trans isReport⟩

end Runner

namespace Registration

/-- For every unit, whatever detectors and callbacks are registered and however they share
their keys: when a dispatch is completed, all that any filters keep or suppress outlives the
failures of the dispatch, and so does all that is in the report of an analysis. -/
theorem failures_clear_findings (unit : SourceUnit) :
    (∀ (registrations : List Registration) (cancellable : Bool), ∃ dispatcher,
      applyAll { cancellable } registrations = (none, dispatcher) ∧
        ∀ before, (dispatcher.run unit before).1 = none →
          ∃ found, (dispatcher.run unit before).2.1.findings = .ok found ∧
            ∀ filters cache,
              ∀ finding ∈ (IssueFilter.applyAll filters unit found cache).1.all,
                Survives registrations unit before (dispatcher.run unit before).2.1.faultedRules
                  finding) ∧
    ∀ (runner : Runner) report, runner.analyze unit = .ok report →
      ∀ finding ∈ report.all,
        Survives runner.registrations unit runner.opening report.faultedRules finding := by
  constructor
  · intro registrations cancellable
    refine ⟨_, applyAll_fresh registrations cancellable, ?_⟩
    intro before completed
    have conducted := conducted_of_completed completed
    refine ⟨_, conducted.findings, ?_⟩
    intro filters cache finding parted
    exact survives_of_mem_findings conducted (IssueFilter.mem_all_applyAll.1 parted)
  · intro runner report isReport finding inReport
    obtain ⟨finished, after, conducted, reports⟩ := Runner.conducted_of_analyze isReport
    obtain ⟨sameRules, sameFindings⟩ := Runner.of_report_eq_ok reports
    rw [sameRules]
    exact survives_of_mem_findings conducted ((sameFindings finding).1 inReport)

end Registration

/-! ### Two detectors with one key, of which one fails -/

namespace Registration

/-- A rule that reports classes and fails at methods, and one that reports methods. -/
def split : List Registration :=
  [.forEntry (.recorder "K" []) .class, .forEntry (.failing "K" []) .method,
    .forKinds (.recorder "R" [.method])]

/-- The first of these rules as two detectors. -/
def splitRunner : Runner :=
  { registry := ⟨[Registry.entryOf (.recorder "K" [.class]),
      Registry.entryOf (.failing "K" [.method])]⟩ }

theorem completed_split : ((dispatcher split true).run classUnit {}).1 = none := by
  decide +kernel

theorem findings_split : ((dispatcher split true).run classUnit {}).2.1.findings =
    .ok (Turn.findings (performance split classUnit {} (classUnit.tree.walk .root)).1) :=
  (conducted_of_completed completed_split).findings

theorem failures_clear_findings_split :
    (∃ dispatcher, applyAll { cancellable := true } split = (none, dispatcher) ∧
      (dispatcher.run classUnit {}).1 = none ∧
      ∃ found, (dispatcher.run classUnit {}).2.1.findings = .ok found ∧
        found.map (·.rule.name) = ["K", "R"] ∧
        ∀ finding ∈ (IssueFilter.applyAll IssueFilter.layered classUnit found {}).1.all,
          Survives split classUnit {} (dispatcher.run classUnit {}).2.1.faultedRules finding) ∧
    ∃ report, splitRunner.analyze classUnit = .ok report ∧
      ∀ finding ∈ report.all,
        Survives splitRunner.registrations classUnit splitRunner.opening report.faultedRules
          finding := by
  obtain ⟨ofDispatch, ofAnalysis⟩ := failures_clear_findings classUnit
  constructor
  · obtain ⟨dispatcher, registered, outlive⟩ := ofDispatch split true
    obtain rfl := (Prod.mk.inj ((applyAll_fresh _ _).symm.trans registered)).2
    obtain ⟨found, isFound, survive⟩ := outlive {} completed_split
    refine ⟨_, registered, completed_split, found, isFound, ?_, survive IssueFilter.layered {}⟩
    obtain rfl := Except.ok.inj (findings_split.symm.trans isFound)
    decide +kernel
  · cases analyzed : splitRunner.analyze classUnit with
    | error error =>
        have succeeds : (splitRunner.analyze classUnit).isOk = true := by decide +kernel
        rw [analyzed] at succeeds
        cases succeeds
    | ok report => exact ⟨report, rfl, ofAnalysis splitRunner report analyzed⟩

/-- A finding of a rule that has failed may be kept. -/
theorem finding_of_faulted_rule : ∃ dispatcher,
    applyAll { cancellable := true } split = (none, dispatcher) ∧
      (dispatcher.run classUnit {}).1 = none ∧
      ∃ found, (dispatcher.run classUnit {}).2.1.findings = .ok found ∧
        ∃ finding ∈ (IssueFilter.applyAll [] classUnit found {}).1.kept,
          finding.rule ∈ (dispatcher.run classUnit {}).2.1.faultedRules := by
  refine ⟨_, applyAll_fresh split true, completed_split, _, findings_split, ?_⟩
  decide +kernel

end Registration

end JavaInspect
