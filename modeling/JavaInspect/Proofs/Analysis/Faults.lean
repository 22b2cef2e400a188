import JavaInspect.Analysis.Runner
import JavaInspect.Proofs.Dispatch.Isolation
import JavaInspect.Proofs.Filter.Parting
import JavaInspect.Proofs.Semantics.SuperTypes

/-!
# Faults and the analysis of units

The analysis of a unit consults the semantic model in two phases: in the calls of the
detectors, and in the scans of those filters that concern a finding. Wherever a request comes
upon a structural fault, also in a call that fails, the unit fails with the first such fault.
A fault that no request comes upon does no harm.
-/

namespace JavaInspect

open Cache

/-! ## Consultations of filters -/

namespace IssueFilter

/-- What a scan changes in the cache, it changes by consultations. -/
def OnlyConsults (filter : IssueFilter) (unit : SourceUnit) : Prop :=
  ∀ cache : Cache, cache.Requested unit.table →
    ∃ made, cache.Consulted unit.table made (filter.scan unit cache).2

/-- The consultations of the scans of filters, in their order. -/
inductive Consult (unit : SourceUnit) : List IssueFilter → Cache → List Consultation → Prop where
  | nil (cache : Cache) : Consult unit [] cache []
  | cons {filter : IssueFilter} {rest : List IssueFilter} {cache : Cache}
      {made more : List Consultation}
      (here : cache.Consulted unit.table made (filter.scan unit cache).2)
      (later : Consult unit rest (filter.scan unit cache).2 more) :
      Consult unit (filter :: rest) cache (made ++ more)

variable {unit : SourceUnit} {filters : List IssueFilter} {cache : Cache}
  {made : List Consultation}

theorem Consult.consulted (consult : Consult unit filters cache made) :
    cache.Consulted unit.table made (filters.mapM (scanned unit) cache).2 := by
  induction consult with
  | nil cache => exact .refl
  | cons here _ ih =>
      rw [List.mapM_cons]
      exact here.trans ih

theorem exists_consult (only : ∀ filter ∈ filters, filter.OnlyConsults unit)
    (requested : cache.Requested unit.table) : ∃ made, Consult unit filters cache made := by
  induction filters generalizing cache with
  | nil => exact ⟨[], .nil cache⟩
  | cons filter rest ih =>
      rcases only filter List.mem_cons_self cache requested with ⟨made, here⟩
      have onlyRest : ∀ other ∈ rest, other.OnlyConsults unit :=
        fun other member => only other (List.mem_cons_of_mem _ member)
      rcases ih onlyRest (requested.later here) with ⟨more, later⟩
      exact ⟨made ++ more, .cons here later⟩

end IssueFilter

namespace Runner

open Registration

variable (runner : Runner) (unit : SourceUnit)

/-! ## Definitions -/

/-- The registrations of the detectors. -/
def registrations : List Registration := runner.registry.detectors.map .forKinds

/-- What the detectors of one unit share before the first call. -/
def opening : Session := { cancelled := runner.cancelled }

/-- The turns of the detectors on a unit, if the dispatch is completed, and where they lead. -/
def dispatched :
    List (Turn runner.registrations.length) × Stage (detectorAt runner.registrations) :=
  performance runner.registrations unit runner.opening (unit.tree.walk .root)

/-- The findings of the detectors that never fail. -/
def found : List Finding := Turn.findings (runner.dispatched unit).1

/-- All consultations of an analysis whose dispatch is completed: those of the calls, and, if
these came upon no fault, those of the filters that concern a finding. -/
structure Consults (calls scans : List Consultation) : Prop where
  inCalls : (Stage.opening runner.opening : Stage (detectorAt runner.registrations)).Consults unit
    (schedule runner.registrations unit.tree (unit.tree.walk .root)) calls
  inScans : Consultation.firstFault calls = none →
    IssueFilter.Consult unit (runner.filters.filter (·.concerns (runner.found unit)))
      (runner.dispatched unit).2.session.cache scans
  noScans : Consultation.firstFault calls ≠ none → scans = []

/-- The report of an analysis parts the findings of the detectors that never fail. -/
def Reports (report : UnitReport) : Prop :=
  runner.analyze unit = .ok report ∧
    Interleaves report.findings (report.suppressed.map (·.finding)) (runner.found unit)

variable {runner unit} {calls scans : List Consultation} {findings : List Finding}
  {faultedRules : List RuleKey} {cache : Cache} {fault : SemanticFault}

theorem dispatcher_eq :
    runner.dispatcher = (none, Registration.dispatcher runner.registrations true) := by
  rw [dispatcher, ← applyAll_fresh, applyAll, registrations, Dispatcher.untilError_map]
  rfl

theorem analyzeThen_eq : runner.analyzeThen unit =
    match (Registration.dispatcher runner.registrations true).run unit runner.opening with
    | (some error, _, session) => (.error error, session.cancelled)
    | (none, finished, session) =>
        (finished.findings >>= fun findings =>
          runner.report unit findings finished.faultedRules session.cache, session.cancelled) := by
  rw [analyzeThen, dispatcher_eq]
  rfl

theorem analyze_eq : runner.analyze unit =
    match (Registration.dispatcher runner.registrations true).run unit runner.opening with
    | (some error, _, _) => .error error
    | (none, finished, session) => finished.findings >>= fun findings =>
        runner.report unit findings finished.faultedRules session.cache := by
  rw [analyze, analyzeThen_eq]
  rcases (Registration.dispatcher runner.registrations true).run unit runner.opening with
    ⟨error?, finished, session⟩
  cases error? <;> rfl

/-! ## The two phases -/

theorem report_of_fault (isFault : cache.fault = some fault) :
    runner.report unit findings faultedRules cache = .error (.unsound unit.path fault) := by
  rw [report, checkFault, isFault]
  rfl

theorem report_of_faultInScans (noFault : cache.fault = none)
    (isFault : (IssueFilter.applyAll runner.filters unit findings cache).2.fault = some fault) :
    runner.report unit findings faultedRules cache = .error (.unsound unit.path fault) := by
  rw [report, checkFault, noFault]
  show (checkFault unit (IssueFilter.applyAll runner.filters unit findings cache).2 >>= _) = _
  rw [checkFault, isFault]
  rfl

theorem report_of_sound (noFault : cache.fault = none)
    (stillNone : (IssueFilter.applyAll runner.filters unit findings cache).2.fault = none) :
    ∃ report, runner.report unit findings faultedRules cache = .ok report ∧
      Interleaves report.findings (report.suppressed.map (·.finding)) findings := by
  rw [report, checkFault, noFault]
  show ∃ report, (checkFault unit
    (IssueFilter.applyAll runner.filters unit findings cache).2 >>= _) = .ok report ∧ _
  rw [checkFault, stillNone]
  exact ⟨_, rfl, FilterScan.interleaves_part _ _⟩

/-- An analysis whose dispatch is completed goes on with what the turns have come to. -/
theorem analyze_of_conducted {finished : Dispatcher} {session : Session}
    (run : (Registration.dispatcher runner.registrations true).run unit runner.opening =
      (none, finished, session))
    (conducted : Conducted runner.registrations unit runner.opening (unit.tree.walk .root) finished
      session) :
    runner.analyze unit = runner.report unit (runner.found unit) finished.faultedRules
      (runner.dispatched unit).2.session.cache := by
  have findings : finished.findings = .ok (runner.found unit) := conducted.findings
  have shared : session = (runner.dispatched unit).2.session := conducted.session
  rw [analyze_eq, run]
  dsimp only
  rw [findings, shared]
  rfl

namespace Consults

variable (consults : runner.Consults unit calls scans)

include consults

theorem requested_dispatched : (runner.dispatched unit).2.session.cache.Requested unit.table :=
  ⟨calls, consults.inCalls.consulted⟩

variable (arraysEnd : unit.table.ArraysEnd)

include arraysEnd

/-- The fault that is kept after the dispatch is the first that the calls came upon. -/
theorem fault_dispatched :
    (runner.dispatched unit).2.session.cache.fault = Consultation.firstFault calls :=
  (consults.inCalls.consulted.fault_eq arraysEnd .empty .empty).trans Option.none_or

/-- If the calls came upon no fault, the one that is kept after the scans is the first that the
scans came upon. -/
theorem fault_scanned (noFault : Consultation.firstFault calls = none) :
    (IssueFilter.applyAll runner.filters unit (runner.found unit)
        (runner.dispatched unit).2.session.cache).2.fault = Consultation.firstFault scans := by
  have requested := consults.requested_dispatched
  have scanned := (consults.inScans noFault).consulted.fault_eq arraysEnd
    (requested.valid arraysEnd) (requested.idle arraysEnd)
  rw [consults.fault_dispatched arraysEnd, noFault, Option.none_or] at scanned
  exact scanned

/-- Where no request touches a cycle, none comes upon a fault. -/
theorem firstFault_eq_none
    (untouched : ∀ fault, ¬ Consultation.Touch unit.table (calls ++ scans) fault) :
    Consultation.firstFault (calls ++ scans) = none := by
  have inCalls : Consultation.firstFault calls = none := by
    rw [← consults.fault_dispatched arraysEnd]
    exact consults.inCalls.consulted.fault_of_untouched arraysEnd .empty .empty rfl
      fun fault touch => untouched fault touch.append_right
  have requested := consults.requested_dispatched
  have afterCalls := consults.fault_dispatched arraysEnd
  rw [inCalls] at afterCalls
  have inScans : Consultation.firstFault scans = none := by
    rw [← consults.fault_scanned arraysEnd inCalls]
    exact (consults.inScans inCalls).consulted.fault_of_untouched arraysEnd
      (requested.valid arraysEnd) (requested.idle arraysEnd) afterCalls
      fun fault touch => untouched fault touch.append_left
  rw [Consultation.firstFault_append, inCalls, inScans, Option.none_or]

theorem report_of_firstFault (faultedRules : List RuleKey)
    (isFirst : Consultation.firstFault (calls ++ scans) = some fault) :
    runner.report unit (runner.found unit) faultedRules
      (runner.dispatched unit).2.session.cache = .error (.unsound unit.path fault) := by
  have afterCalls := consults.fault_dispatched arraysEnd
  rw [Consultation.firstFault_append] at isFirst
  cases inCalls : Consultation.firstFault calls with
  | some earlier =>
      rw [inCalls, Option.some_or] at isFirst
      exact report_of_fault (afterCalls.trans (inCalls.trans isFirst))
  | none =>
      rw [inCalls, Option.none_or] at isFirst
      exact report_of_faultInScans (afterCalls.trans inCalls)
        ((consults.fault_scanned arraysEnd inCalls).trans isFirst)

theorem report_of_noFault (faultedRules : List RuleKey)
    (noFault : Consultation.firstFault (calls ++ scans) = none) :
    ∃ report, runner.report unit (runner.found unit) faultedRules
        (runner.dispatched unit).2.session.cache = .ok report ∧
      Interleaves report.findings (report.suppressed.map (·.finding)) (runner.found unit) := by
  rw [Consultation.firstFault_append, Option.or_eq_none_iff] at noFault
  obtain ⟨inCalls, inScans⟩ := noFault
  exact report_of_sound ((consults.fault_dispatched arraysEnd).trans inCalls)
    ((consults.fault_scanned arraysEnd inCalls).trans inScans)

end Consults

theorem exists_consults (only : ∀ detector ∈ runner.registry.detectors, detector.OnlyConsults unit)
    (onlyFilters : ∀ filter ∈ runner.filters, filter.OnlyConsults unit) :
    ∃ calls scans, runner.Consults unit calls scans := by
  have onlySlots : ∀ slot, (detectorAt runner.registrations slot).OnlyConsults unit := by
    intro slot
    obtain ⟨detector, member, isDetector⟩ :=
      List.mem_map.1 (List.get_mem runner.registrations slot)
    rw [detectorAt, ← isDetector]
    exact only detector member
  have opened : runner.opening.cache.Requested unit.table := .empty
  obtain ⟨calls, inCalls⟩ := Stage.exists_consults onlySlots (Stage.requested_opening opened)
    (schedule runner.registrations unit.tree (unit.tree.walk .root))
  by_cases noFault : Consultation.firstFault calls = none
  · have onlyConcerned : ∀ filter ∈ runner.filters.filter (·.concerns (runner.found unit)),
        filter.OnlyConsults unit :=
      fun filter member => onlyFilters filter (List.mem_of_mem_filter member)
    obtain ⟨scans, inScans⟩ := IssueFilter.exists_consult onlyConcerned
      (Requested.empty.later inCalls.consulted)
    exact ⟨calls, scans, inCalls, fun _ => inScans, fun fault => absurd noFault fault⟩
  · exact ⟨calls, [], inCalls, fun noneFound => absurd noneFound noFault, fun _ => rfl⟩

/-- For every unit, every registry and every list of filters, if detectors and filters change the
cache only by consultations: an analysis whose dispatch is given up fails as cancelled. Any
other fails with the first fault that a call or a scan came upon; if there is none, it reports
the findings of the detectors that never fail, parted in order. A unit of whose cycles none is
touched is reported on. -/
theorem faults_fail_unit (tableBuilt : unit.table.Built) (runner : Runner)
    (only : ∀ detector ∈ runner.registry.detectors, detector.OnlyConsults unit)
    (onlyFilters : ∀ filter ∈ runner.filters, filter.OnlyConsults unit) :
    ∃ dispatcher, runner.dispatcher = (none, dispatcher) ∧
      ((dispatcher.run unit runner.opening).1 = some (.cancelled unit.path) →
        runner.analyze unit = .error (.cancelled unit.path)) ∧
      ((dispatcher.run unit runner.opening).1 ≠ some (.cancelled unit.path) →
        Conducted runner.registrations unit runner.opening (unit.tree.walk .root)
          (dispatcher.run unit runner.opening).2.1 (dispatcher.run unit runner.opening).2.2 ∧
        (∃ calls scans, runner.Consults unit calls scans) ∧
        ∀ calls scans, runner.Consults unit calls scans →
          (∀ fault, Consultation.firstFault (calls ++ scans) = some fault →
            runner.analyze unit = .error (.unsound unit.path fault)) ∧
          (Consultation.firstFault (calls ++ scans) = none →
            ∃ report, runner.Reports unit report) ∧
          ((∀ fault, ¬ Consultation.Touch unit.table (calls ++ scans) fault) →
            ∃ report, runner.Reports unit report)) := by
  have arraysEnd := tableBuilt.wellLinked.arraysEnd
  refine ⟨_, dispatcher_eq, ?_⟩
  have cases := @run_cases runner.registrations true unit runner.opening
  rcases run : (Registration.dispatcher runner.registrations true).run unit runner.opening with
    ⟨error, finished, session⟩
  rw [run] at cases
  rcases cases with ⟨_, _, _, isCancelled, _⟩ | ⟨_, completed, _, conducted⟩
  · obtain rfl : error = some (.cancelled unit.path) := isCancelled
    refine ⟨fun _ => ?_, fun goes => absurd rfl goes⟩
    rw [analyze_eq, run]
  · obtain rfl : error = none := completed
    refine ⟨fun isCancelled => absurd isCancelled (by simp), fun _ => ?_⟩
    refine ⟨conducted, exists_consults only onlyFilters, ?_⟩
    intro calls scans consults
    have analyzed := analyze_of_conducted run conducted
    have sound (noFault : Consultation.firstFault (calls ++ scans) = none) :
        ∃ report, runner.Reports unit report := by
      obtain ⟨report, isReport, parted⟩ :=
        consults.report_of_noFault arraysEnd finished.faultedRules noFault
      exact ⟨report, analyzed.trans isReport, parted⟩
    refine ⟨?_, sound, fun untouched => sound (consults.firstFault_eq_none arraysEnd untouched)⟩
    intro fault isFirst
    rw [analyzed]
    exact consults.report_of_firstFault arraysEnd finished.faultedRules isFirst

end Runner

/-! ### A filter that comes upon a cycle -/

theorem IssueFilter.onlyConsults_ofInquiry {name : String} {scope : RuleScope}
    {inquiry : SourceUnit → Inquiry Exclusions} (unit : SourceUnit) :
    (ofInquiry name scope inquiry).OnlyConsults unit :=
  fun _ _ => (inquiry unit).consulted_run

namespace Runner

/-- The class with one method, and a table with circles of supertypes. -/
def tangledUnit : SourceUnit := { Registration.classUnit with table := Query.tangled }

/-- One detector that asks for supertypes below which there is no circle, and a filter for one
rule that asks for those of a type on a circle. -/
def probing (rule : RuleKey) : Runner :=
  { registry := ⟨[Registry.entryOf (.census "C" [.class] ⟨6⟩)]⟩
    filters := [.ofInquiry "probe" (.rules [rule]) fun _ =>
      .ask (.superTypes ⟨14⟩) fun _ => .conclude {}] }

theorem faults_fail_unit_probing :
    (∃ calls scans, (probing ⟨"C"⟩).Consults tangledUnit calls scans ∧
      Consultation.firstFault calls = none ∧
      Consultation.firstFault scans = some (.supertypeCycle ⟨14⟩ "Knot") ∧
      (probing ⟨"C"⟩).analyze tangledUnit =
        .error (.unsound "Outer.java" (.supertypeCycle ⟨14⟩ "Knot"))) ∧
    ∃ report, (probing ⟨"S9"⟩).Reports tangledUnit report := by
  have ofUnit : tangledUnit.table = Query.tangled := by rw [tangledUnit]
  have tableBuilt := Query.built_tangled
  rw [← ofUnit] at tableBuilt
  have arraysEnd := tableBuilt.wellLinked.arraysEnd
  have only : ∀ rule, ∀ detector ∈ (probing rule).registry.detectors,
      detector.OnlyConsults tangledUnit := by
    simp [probing, Registry.detectors, Registry.entryOf,
      (Detector.contained_census tangledUnit).onlyConsults]
  have onlyFilters : ∀ rule, ∀ filter ∈ (probing rule).filters,
      filter.OnlyConsults tangledUnit := by
    simp [probing, IssueFilter.onlyConsults_ofInquiry]
  constructor
  · obtain ⟨made, isMade, -, goesOn⟩ :=
      faults_fail_unit tableBuilt (probing ⟨"C"⟩) (only _) (onlyFilters _)
    obtain rfl := (Prod.mk.inj (dispatcher_eq.symm.trans isMade)).2
    obtain ⟨-, ⟨calls, scans, consults⟩, cases⟩ := goesOn (by decide +kernel)
    have inCalls : Consultation.firstFault calls = none := by
      rw [← consults.fault_dispatched arraysEnd]
      decide +kernel
    have inScans : Consultation.firstFault scans = some (.supertypeCycle ⟨14⟩ "Knot") := by
      rw [← consults.fault_scanned arraysEnd inCalls]
      decide +kernel
    have first : Consultation.firstFault (calls ++ scans) =
        some (.supertypeCycle ⟨14⟩ "Knot") := by
      rw [Consultation.firstFault_append, inCalls, inScans, Option.none_or]
    obtain ⟨fails, -, -⟩ := cases calls scans consults
    exact ⟨calls, scans, consults, inCalls, inScans, fails _ first⟩
  · obtain ⟨made, isMade, -, goesOn⟩ :=
      faults_fail_unit tableBuilt (probing ⟨"S9"⟩) (only _) (onlyFilters _)
    obtain rfl := (Prod.mk.inj (dispatcher_eq.symm.trans isMade)).2
    obtain ⟨-, ⟨calls, scans, consults⟩, cases⟩ := goesOn (by decide +kernel)
    have inCalls : Consultation.firstFault calls = none := by
      rw [← consults.fault_dispatched arraysEnd]
      decide +kernel
    have inScans : Consultation.firstFault scans = none := by
      rw [← consults.fault_scanned arraysEnd inCalls]
      decide +kernel
    obtain ⟨-, sound, -⟩ := cases calls scans consults
    apply sound
    rw [Consultation.firstFault_append, inCalls, inScans, Option.none_or]

end Runner

end JavaInspect
