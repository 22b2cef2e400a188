import JavaInspect.Semantics.Fault

/-!
# Failures of an analysis

Why a whole source unit could not be analysed, as opposed to a failure of a
single rule.
-/

namespace JavaInspect

/-- Where a dispatcher stands. -/
inductive DispatchState where
  /-- Detectors can be registered, and a traversal can be run. -/
  | idle
  /-- The one traversal of the dispatcher is over. -/
  | done
deriving DecidableEq, Repr, Inhabited

namespace DispatchState

/-- The name a state is shown by. -/
def label : DispatchState → String
  | .idle => "idle"
  | .done => "done"

end DispatchState

/-- The failure of a whole analysis. -/
inductive AnalysisError where
  /-- A dispatcher was asked for something that another state allows. -/
  | invalidState (expected found : DispatchState)
  /-- The analysis of the unit with the given path was cancelled. -/
  | cancelled (path : String)
  /-- The semantic model of the unit with the given path breaks an invariant. -/
  | unsound (path : String) (fault : SemanticFault)
deriving DecidableEq, Repr, Inhabited

namespace AnalysisError

/-- The name of the kind of failure. -/
def label : AnalysisError → String
  | .invalidState .. => "InvalidState"
  | .cancelled .. => "Cancelled"
  | .unsound .. => "Semantic"

/-- What a failure is reported as. -/
def message : AnalysisError → String
  | .invalidState expected found =>
      s!"dispatcher is {found.label}, expected {expected.label}"
  | .cancelled path => s!"analysis of {path} was cancelled"
  | .unsound path fault => s!"semantic model of {path} is unsound: {fault.message}"

end AnalysisError

end JavaInspect
