import JavaInspect.Analysis.Report
import JavaInspect.Dispatcher
import JavaInspect.Filter.Framework
import JavaInspect.Filter.InlineComments
import JavaInspect.Filter.SuppressWarnings
import JavaInspect.Registry

/-!
# Analysis of units

A unit is analysed in two steps: its tree is dispatched to fresh detectors, and the
findings go through the filters. A fault of the semantic model in either step fails
the analysis. Every unit is analysed on its own, but a wish for the end that comes up
in one analysis is a wish for the end of all later ones.
-/

namespace JavaInspect

/-- What units are analysed with. -/
structure Runner where
  registry : Registry := {}
  filters : List IssueFilter := []
  /-- Whether the end of all analyses is wished for. -/
  cancelled : Bool := false

namespace Runner

/-- The filters that a configuration leaves on. -/
def filtersOf (settings : FilterSettings) : List IssueFilter :=
  (if settings.framework.isEnabled then [.framework settings.framework] else []) ++
    (if settings.suppressWarningsEnabled then [.suppressWarnings] else []) ++
    (if settings.inlineCommentsEnabled then [.inlineComments] else [])

/-- The rules and filters of the library that a configuration leaves on. -/
def ofConfiguration (configuration : Configuration) : Except ConfigurationError Runner :=
  match configuration.validate, Registry.ofConfiguration configuration with
  | .error error, _ => .error error
  | .ok (), .error error => .error error
  | .ok (), .ok registry => .ok { registry, filters := filtersOf configuration.filters }

/-- The keys of the rules. -/
def rules (runner : Runner) : List RuleKey := runner.registry.keys

/-- The names of the filters. -/
def filterNames (runner : Runner) : List String := runner.filters.map (·.name)

/-- A dispatcher with one detector of each entry, up to an error in registering
them. -/
def dispatcher (runner : Runner) : Option AnalysisError × Dispatcher :=
  Dispatcher.untilError Dispatcher.register { cancellable := true } runner.registry.detectors

/-- Fail if the semantic model is broken. -/
def checkFault (unit : SourceUnit) (cache : Cache) : Except AnalysisError Unit :=
  match cache.fault with
  | some fault => .error (.unsound unit.path fault)
  | none => .ok ()

/-- Filter the findings of a dispatch that is over. -/
def report (runner : Runner) (unit : SourceUnit) (findings : List Finding)
    (faultedRules : List RuleKey) (cache : Cache) : Except AnalysisError UnitReport := do
  checkFault unit cache
  let (outcome, cache) := (IssueFilter.applyAll runner.filters unit findings).run cache
  checkFault unit cache
  return {
    path := unit.path
    findings := outcome.kept
    suppressed := outcome.suppressed
    faultedRules
    hits := cache.hits
    misses := cache.misses }

/-- Analyse a unit, and say whether the end of all analyses is wished for by then. -/
def analyzeThen (runner : Runner) (unit : SourceUnit) :
    Except AnalysisError UnitReport × Bool :=
  match runner.dispatcher with
  | (some error, _) => (.error error, runner.cancelled)
  | (none, dispatcher) =>
      match dispatcher.run unit { cancelled := runner.cancelled } with
      | (some error, _, session) => (.error error, session.cancelled)
      | (none, dispatcher, session) =>
          let outcome := do
            let findings ← dispatcher.findings
            runner.report unit findings dispatcher.faultedRules session.cache
          (outcome, session.cancelled)

/-- Analyse a unit. -/
def analyze (runner : Runner) (unit : SourceUnit) : Except AnalysisError UnitReport :=
  (runner.analyzeThen unit).1

/-- The outcome of one analysis as a result. -/
def outcomeOf (path : String) : Except AnalysisError UnitReport → AnalysisResult
  | .ok report => { reports := [report] }
  | .error error => { failures := [{ path, error := error.message }] }

/-- What has come of the analyses of units; reports and failures keep the order of the units. -/
def collect (units : List SourceUnit)
    (outcomes : List (Except AnalysisError UnitReport)) : AnalysisResult :=
  (List.zipWith (fun unit outcome => outcomeOf unit.path outcome) units outcomes).foldl .merge {}

/-- The outcomes of the analyses of units, one after another. -/
def outcomes (runner : Runner) : List SourceUnit → List (Except AnalysisError UnitReport)
  | [] => []
  | unit :: rest =>
      let (outcome, cancelled) := runner.analyzeThen unit
      outcome :: outcomes { runner with cancelled } rest

/-- Analyse units one after another. -/
def analyzeAll (runner : Runner) (units : List SourceUnit) : AnalysisResult :=
  collect units (runner.outcomes units)

end Runner

end JavaInspect
