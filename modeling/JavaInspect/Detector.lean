import JavaInspect.Rule.Finding
import JavaInspect.Semantics.Cache
import JavaInspect.SourceUnit
import JavaInspect.Tree.Walk

/-!
# Detectors

A detector looks for breaches of one rule. While a tree is traversed it is called
at certain moments. At each call it may query the semantic model, change what it
remembers, and report findings; a call may also fail. What it queried, and what
it wrote to the log, stays also when the call fails.
-/

namespace JavaInspect

/-- A moment of a traversal. -/
inductive Moment where
  /-- Before the root is entered. -/
  | start
  | enter (node : NodeId)
  | exit (node : NodeId)
  /-- After the root has been left. -/
  | stop
deriving DecidableEq, Repr, Inhabited

namespace Moment

/-- The node that is entered or left. -/
def node? : Moment → Option NodeId
  | .enter node | .exit node => some node
  | .start | .stop => none

/-- The name a moment is shown by. -/
def label : Moment → String
  | .start => "start"
  | .enter _ => "enter"
  | .exit _ => "exit"
  | .stop => "end"

/-- The moment of a step of a traversal. -/
def ofEvent : WalkEvent → Moment
  | .enter node => .enter node
  | .exit node => .exit node

end Moment

/-- What all detectors of a traversal share. -/
structure Session where
  cache : Cache := {}
  /-- Set by a wish to end the traversal early. -/
  cancelled : Bool := false
  log : List String := []
deriving Repr, Inhabited

/-- What a call reports at a place. It does not name the rule, which is that of the
detector. -/
structure Report where
  span : Span
  message : String
  fix : Option QuickFix := none
deriving DecidableEq, Repr, Inhabited

/-- The finding of a rule. -/
def Report.finding (report : Report) (rule : RuleKey) : Finding :=
  { rule, message := report.message, span := report.span, fix := report.fix }

/-- The state of a call: what the detector remembers, what is shared, and what
the call has reported. -/
structure Call (Memory : Type) where
  memory : Memory
  session : Session
  reports : List Report := []

/-- The findings of a call under the key of a rule. -/
def Call.findings {Memory : Type} (call : Call Memory) (rule : RuleKey) : List Finding :=
  call.reports.map (·.finding rule)

/-- A call of a detector; it fails with a reason. -/
abbrev Visit (Memory : Type) := ExceptT String (StateM (Call Memory))

namespace Visit

variable {Memory : Type}

/-- Ask the semantic model. -/
def query (question : Query α) : Visit Memory α :=
  modifyGet fun call =>
    let (answer, cache) := question.run call.session.cache
    (answer, { call with session := { call.session with cache } })

/-- Report at a place. -/
def report (span : Span) (message : String) (fix : Option QuickFix := none) :
    Visit Memory Unit :=
  modify fun call => { call with reports := call.reports ++ [{ span, message, fix }] }

/-- Append a line to the log. -/
def writeLog (line : String) : Visit Memory Unit :=
  modify fun call =>
    { call with session := { call.session with log := call.session.log ++ [line] } }

/-- Wish to end the traversal. -/
def cancel : Visit Memory Unit :=
  modify fun call => { call with session := { call.session with cancelled := true } }

end Visit

/-- The logic of one rule. -/
structure Detector where
  key : RuleKey
  /-- The kinds of nodes it is called for. -/
  kinds : List NodeKind
  /-- What it remembers from call to call. -/
  Memory : Type
  /-- What it remembers before the first call. -/
  blank : Memory
  call : SourceUnit → Moment → Visit Memory Unit

namespace Detector

/-- A detector that remembers nothing, never fails, and reports what a query tells
it to at each node that is entered. -/
def ofQuery (key : RuleKey) (kinds : List NodeKind)
    (reportsAt : SourceUnit → NodeId → Query (List Report)) : Detector :=
  { key
    kinds
    Memory := Unit
    blank := ()
    call := fun unit moment =>
      match moment with
      | .enter node => do
          let reports ← Visit.query (reportsAt unit node)
          reports.forM fun report => Visit.report report.span report.message report.fix
      | _ => pure () }

end Detector

end JavaInspect
