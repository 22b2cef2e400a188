import JavaInspect.Analysis.Error
import JavaInspect.Detector

/-!
# Dispatch

A dispatcher walks a tree once and calls every detector at the moments it has
subscribed to, in the order of registration: all of them at the start, for every
node its subscribers on entry and again on exit, and all of them at the end. A
detector that fails is not called again, and its findings are dropped; the others
carry on.

Every detector has a slot that keeps its own findings, each numbered by its place
among all reports of the traversal. Once the traversal is over, the numbers bring
the findings of all slots into one order.

Whether the traversal should end early is looked at before each node is entered.
A traversal that ends early has no findings.
-/

namespace JavaInspect

/-- A registered detector and what is kept for it during the traversal. -/
structure Slot where
  detector : Detector
  memory : detector.Memory
  /-- Whether it is called at the start and at the end. -/
  atBounds : Bool
  /-- What it has reported, with the numbers of the reports. -/
  findings : List (Finding × Nat) := []
  faulted : Bool := false

namespace Slot

/-- The slot of a detector that has not been called. -/
def fresh (detector : Detector) (atBounds : Bool) : Slot :=
  { detector, memory := detector.blank, atBounds }

/-- What the detector does at a moment. -/
def respond (slot : Slot) (unit : SourceUnit) : Moment → Visit slot.detector.Memory Unit
  | .start => if slot.atBounds then slot.detector.call unit .start else pure ()
  | .stop => if slot.atBounds then slot.detector.call unit .stop else pure ()
  | .enter node => slot.detector.call unit (.enter node)
  | .exit node => slot.detector.call unit (.exit node)

/-- What a call of the detector comes to, and what it leaves. -/
def call (slot : Slot) (unit : SourceUnit) (moment : Moment) (session : Session) :
    Except String Unit × Call slot.detector.Memory :=
  (slot.respond unit moment).run.run { memory := slot.memory, session }

end Slot

/-- The progress of a traversal. -/
structure Progress where
  slots : List Slot
  session : Session
  /-- The number of the next report. -/
  next : Nat := 0
  /-- The number of nodes entered so far. -/
  visited : Nat := 0

namespace Progress

/-- Call the detector of one slot, unless it has failed before. -/
def invoke (unit : SourceUnit) (moment : Moment) (progress : Progress) (index : Nat) :
    Progress :=
  match progress.slots[index]? with
  | none => progress
  | some slot =>
      if slot.faulted then progress
      else
        let (outcome, call) := slot.call unit moment progress.session
        match outcome with
        | .ok () =>
            let found := call.findings slot.detector.key
            let reported :=
              { slot with
                memory := call.memory
                findings := slot.findings ++ found.zipIdx progress.next }
            { progress with
              slots := progress.slots.set index reported
              session := call.session
              next := progress.next + found.length }
        | .error _ =>
            let failed := { slot with memory := call.memory, findings := [], faulted := true }
            { progress with
              slots := progress.slots.set index failed
              session := call.session }

/-- Call the detectors of slots one after another. -/
def invokeAll (unit : SourceUnit) (moment : Moment) (progress : Progress)
    (indices : List Nat) : Progress :=
  indices.foldl (invoke unit moment) progress

/-- Count the node that is entered at a moment. -/
def countVisit (progress : Progress) : Moment → Progress
  | .enter _ => { progress with visited := progress.visited + 1 }
  | _ => progress

/-- What the slots that did not fail have kept, in the order of the reports. -/
def collected (progress : Progress) : List Finding :=
  let kept := (progress.slots.filter fun slot => !slot.faulted).flatMap (·.findings)
  (kept.mergeSort fun first second => first.2 ≤ second.2).map (·.1)

end Progress

/-- The slots that are called for a kind of nodes, in the order they were added. -/
abbrev Subscribers := List (NodeKind × Nat)

namespace Subscribers

/-- The slots called for one kind. -/
def of (subscribers : Subscribers) (kind : NodeKind) : List Nat :=
  (subscribers.filter (·.1 == kind)).map (·.2)

end Subscribers

/-- The moments of a traversal with the given events. -/
def Moment.ofEvents (events : List WalkEvent) : List Moment :=
  .start :: events.map Moment.ofEvent ++ [.stop]

/-- The moments of the traversal of a whole tree. -/
def Tree.moments (tree : Tree) : List Moment := Moment.ofEvents (tree.walk .root)

/-- Detectors and the outcome of their one traversal. -/
structure Dispatcher where
  state : DispatchState := .idle
  slots : List Slot := []
  /-- The slots called when a node is entered. -/
  entering : Subscribers := []
  /-- The slots called when a node is left. -/
  leaving : Subscribers := []
  /-- Whether a traversal can be ended early. -/
  cancellable : Bool := false
  found : List Finding := []
  visited : Nat := 0

namespace Dispatcher

/-- Succeed only in the given state. -/
def expect (dispatcher : Dispatcher) (expected : DispatchState) : Except AnalysisError Unit :=
  if dispatcher.state = expected then .ok ()
  else .error (.invalidState expected dispatcher.state)

/-- Add a slot at the end and subscribe it to kinds of nodes. The result holds the
error of the call, if there is one, and the dispatcher afterwards. -/
def subscribe (dispatcher : Dispatcher) (slot : Slot) (entering leaving : List NodeKind) :
    Option AnalysisError × Dispatcher :=
  match dispatcher.expect .idle with
  | .error error => (some error, dispatcher)
  | .ok () =>
      let index := dispatcher.slots.length
      let subscribed :=
        { dispatcher with
          slots := dispatcher.slots ++ [slot]
          entering := dispatcher.entering ++ entering.map (·, index)
          leaving := dispatcher.leaving ++ leaving.map (·, index) }
      (none, subscribed)

/-- Register a detector for its kinds of nodes, on entry and on exit. -/
def register (dispatcher : Dispatcher) (detector : Detector) :
    Option AnalysisError × Dispatcher :=
  dispatcher.subscribe (.fresh detector true) detector.kinds detector.kinds

/-- Register a detector for the entry of one kind of nodes alone. -/
def registerEntry (dispatcher : Dispatcher) (detector : Detector) (kind : NodeKind) :
    Option AnalysisError × Dispatcher :=
  dispatcher.subscribe (.fresh detector false) [kind] []

/-- Register a detector for the exit of one kind of nodes alone. -/
def registerExit (dispatcher : Dispatcher) (detector : Detector) (kind : NodeKind) :
    Option AnalysisError × Dispatcher :=
  dispatcher.subscribe (.fresh detector false) [] [kind]

/-- Make one call after another, up to the first that fails. -/
def untilError {Item : Type _} (call : Dispatcher → Item → Option AnalysisError × Dispatcher)
    (dispatcher : Dispatcher) : List Item → Option AnalysisError × Dispatcher
  | [] => (none, dispatcher)
  | item :: rest =>
      match call dispatcher item with
      | (some error, left) => (some error, left)
      | (none, left) => left.untilError call rest

/-- The slots called at a moment. -/
def calledAt (dispatcher : Dispatcher) (tree : Tree) : Moment → List Nat
  | .start | .stop => List.range dispatcher.slots.length
  | .enter node => dispatcher.entering.of (tree.kind node)
  | .exit node => dispatcher.leaving.of (tree.kind node)

/-- Whether the traversal ends before a moment. -/
def endsBefore (dispatcher : Dispatcher) (session : Session) : Moment → Bool
  | .enter _ => dispatcher.cancellable && session.cancelled
  | _ => false

/-- Go through the moments of a traversal, and say whether it ended early. -/
def traverse (dispatcher : Dispatcher) (unit : SourceUnit) :
    List Moment → Progress → Bool × Progress
  | [], progress => (false, progress)
  | moment :: rest, progress =>
      if dispatcher.endsBefore progress.session moment then (true, progress)
      else
        dispatcher.traverse unit rest
          ((progress.countVisit moment).invokeAll unit moment
            (dispatcher.calledAt unit.tree moment))

/-- Traverse the tree of a unit. The result holds the error of the traversal, if
there is one, the dispatcher afterwards, and what the detectors share. -/
def run (dispatcher : Dispatcher) (unit : SourceUnit) (session : Session) :
    Option AnalysisError × Dispatcher × Session :=
  match dispatcher.expect .idle with
  | .error error => (some error, dispatcher, session)
  | .ok () =>
      let (aborted, progress) :=
        dispatcher.traverse unit unit.tree.moments { slots := dispatcher.slots, session }
      let finished :=
        { dispatcher with
          state := .done
          slots := progress.slots.map fun slot => { slot with findings := [] }
          found := if aborted then [] else progress.collected
          visited := progress.visited }
      (if aborted then some (.cancelled unit.path) else none, finished, progress.session)

/-- The findings of the traversal, once it is over. -/
def findings (dispatcher : Dispatcher) : Except AnalysisError (List Finding) :=
  match dispatcher.expect .done with
  | .error error => .error error
  | .ok () => .ok dispatcher.found

/-- The number of slots. -/
def ruleCount (dispatcher : Dispatcher) : Nat := dispatcher.slots.length

/-- The rules of which a detector failed, each once, in the order of
registration. -/
def faultedRules (dispatcher : Dispatcher) : List RuleKey :=
  ((dispatcher.slots.filter (·.faulted)).map (·.detector.key)).eraseDups

end Dispatcher

end JavaInspect
