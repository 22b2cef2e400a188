import JavaInspect.Dispatcher
import Mathlib.Data.List.FinRange

/-!
# Registrations

A dispatcher is filled by calls that register a detector, for its kinds of nodes or for
the entry or the exit of one kind alone. The calls on a fresh dispatcher succeed, and the
slots and the subscriptions they leave behind tell who is called at a moment: the
detectors in the order of their registration, each once per time it has listed the kind.
-/

namespace JavaInspect

theorem Dispatcher.untilError_map {Item Source : Type _} {dispatcher : Dispatcher}
    {call : Dispatcher → Item → Option AnalysisError × Dispatcher} {change : Source → Item}
    {items : List Source} : dispatcher.untilError call (items.map change) =
      dispatcher.untilError (fun dispatcher item => call dispatcher (change item)) items := by
  induction items generalizing dispatcher with
  | nil => rfl
  | cons item rest ih =>
      rw [List.map_cons, untilError, untilError]
      split
      · rfl
      · exact ih

/-- A call that registers a detector. -/
inductive Registration where
  | forKinds (detector : Detector)
  | forEntry (detector : Detector) (kind : NodeKind)
  | forExit (detector : Detector) (kind : NodeKind)

namespace Registration

/-- The error of a call, if there is one, and the dispatcher afterwards. -/
def apply (dispatcher : Dispatcher) : Registration → Option AnalysisError × Dispatcher
  | .forKinds detector => dispatcher.register detector
  | .forEntry detector kind => dispatcher.registerEntry detector kind
  | .forExit detector kind => dispatcher.registerExit detector kind

/-- The error of the first call that fails, if there is one, and the dispatcher afterwards. -/
def applyAll (dispatcher : Dispatcher) (registrations : List Registration) :
    Option AnalysisError × Dispatcher :=
  dispatcher.untilError apply registrations

/-- The registered detector. -/
def detector : Registration → Detector
  | .forKinds detector | .forEntry detector _ | .forExit detector _ => detector

/-- Whether the detector is called at the start and at the end. -/
def atBounds : Registration → Bool
  | .forKinds _ => true
  | .forEntry .. | .forExit .. => false

/-- The kinds of nodes the detector is called for on entry, as often as it lists them. -/
def entering : Registration → List NodeKind
  | .forKinds detector => detector.kinds
  | .forEntry _ kind => [kind]
  | .forExit .. => []

/-- The kinds of nodes the detector is called for on exit, as often as it lists them. -/
def leaving : Registration → List NodeKind
  | .forKinds detector => detector.kinds
  | .forEntry .. => []
  | .forExit _ kind => [kind]

/-- How often the detector is to be called at a moment. -/
def timesAt (tree : Tree) (registration : Registration) : Moment → Nat
  | .start | .stop => if registration.atBounds then 1 else 0
  | .enter node => registration.entering.count (tree.kind node)
  | .exit node => registration.leaving.count (tree.kind node)

theorem apply_eq (dispatcher : Dispatcher) (registration : Registration) :
    registration.apply dispatcher =
      dispatcher.subscribe (.fresh registration.detector registration.atBounds)
        registration.entering registration.leaving := by
  cases registration <;> rfl

variable (registrations : List Registration)

/-- The subscriptions that registrations leave behind, the first of them in slot
`first`. -/
def subscribers (kinds : Registration → List NodeKind) (first : Nat) : Subscribers :=
  (registrations.zipIdx first).flatMap fun (registration, slot) =>
    (kinds registration).map (·, slot)

/-- The dispatcher that registrations make of a fresh one. -/
def dispatcher (cancellable : Bool) : Dispatcher :=
  { slots := registrations.map fun registration =>
      .fresh registration.detector registration.atBounds
    entering := subscribers registrations entering 0
    leaving := subscribers registrations leaving 0
    cancellable }

theorem applyAll_eq (dispatcher : Dispatcher) (idle : dispatcher.state = .idle) :
    applyAll dispatcher registrations =
      (none, { dispatcher with
        slots := dispatcher.slots ++ registrations.map fun registration =>
          .fresh registration.detector registration.atBounds
        entering := dispatcher.entering ++
          subscribers registrations entering dispatcher.slots.length
        leaving := dispatcher.leaving ++
          subscribers registrations leaving dispatcher.slots.length }) := by
  induction registrations generalizing dispatcher with
  | nil => simp [applyAll, Dispatcher.untilError, subscribers]
  | cons registration rest ih =>
      let grown : Dispatcher :=
        { dispatcher with
          slots := dispatcher.slots ++ [.fresh registration.detector registration.atBounds]
          entering := dispatcher.entering ++
            registration.entering.map (·, dispatcher.slots.length)
          leaving := dispatcher.leaving ++
            registration.leaving.map (·, dispatcher.slots.length) }
      have first : registration.apply dispatcher = (none, grown) := by
        rw [apply_eq, Dispatcher.subscribe, Dispatcher.expect, if_pos idle]
      rw [applyAll, Dispatcher.untilError, first]
      refine (ih grown idle).trans ?_
      simp [grown, subscribers, List.zipIdx_cons]

/-- Registering on a fresh dispatcher succeeds. -/
theorem applyAll_fresh (cancellable : Bool) :
    applyAll { cancellable } registrations = (none, dispatcher registrations cancellable) := by
  rw [applyAll_eq registrations _ rfl]
  rfl

/-- Those of some slots that are called at a moment, as often as they are called. -/
def calledAmong (tree : Tree) (moment : Moment) (slots : List (Fin registrations.length)) :
    List (Fin registrations.length) :=
  slots.flatMap fun slot => List.replicate ((registrations.get slot).timesAt tree moment) slot

/-- The slots called at a moment, in order. -/
def calledAt (tree : Tree) (moment : Moment) : List (Fin registrations.length) :=
  calledAmong registrations tree moment (List.finRange registrations.length)

/-- All calls of a traversal with the given events, if no detector fails: who is called at
the start, at each event, and at the end. -/
def schedule (tree : Tree) (events : List WalkEvent) :
    List (Moment × Fin registrations.length) :=
  (Moment.ofEvents events).flatMap fun moment =>
    (calledAt registrations tree moment).map (moment, ·)

theorem timesAt_pos_of_mem_calledAt {tree : Tree} {moment : Moment}
    {slot : Fin registrations.length} (called : slot ∈ calledAt registrations tree moment) :
    0 < (registrations.get slot).timesAt tree moment := by
  simp only [calledAt, calledAmong, List.mem_flatMap, List.mem_replicate] at called
  rcases called with ⟨_, _, listed, rfl⟩
  exact Nat.pos_of_ne_zero listed

theorem zipIdx_eq_map : registrations.zipIdx =
    (List.finRange registrations.length).map fun slot => (registrations.get slot, slot.val) := by
  apply List.ext_getElem
  · simp
  · intro index _ _
    simp

/-- The slots subscribed to a kind of nodes are in the order of registration, each as often
as it lists the kind. -/
theorem of_subscribers (kinds : Registration → List NodeKind) (kind : NodeKind) :
    (subscribers registrations kinds 0).of kind =
      (List.finRange registrations.length).flatMap fun slot =>
        List.replicate ((kinds (registrations.get slot)).count kind) slot.val := by
  have ofOne : ∀ (listed : List NodeKind) (slot : Nat),
      Subscribers.of (listed.map (·, slot)) kind = List.replicate (listed.count kind) slot := by
    intro listed slot
    simp [Subscribers.of, List.filter_map, Function.comp_def, ← List.count_eq_length_filter]
  have ofAll : ∀ parts : List Subscribers,
      Subscribers.of parts.flatten kind = parts.flatMap fun part => Subscribers.of part kind := by
    intro parts
    simp [Subscribers.of, List.filter_flatten, List.map_flatten, List.flatMap_def,
      Function.comp_def]
  rw [subscribers, zipIdx_eq_map, List.flatMap_def, ofAll]
  simp [List.flatMap_map, ofOne]

/-- On entry and exit the dispatcher calls exactly the slots that are to be called. -/
theorem calledAt_dispatcher_node (cancellable : Bool) (tree : Tree) {moment : Moment}
    (atNode : moment.node?.isSome) :
    (dispatcher registrations cancellable).calledAt tree moment =
      (calledAt registrations tree moment).map Fin.val := by
  cases moment with
  | start | stop => simp [Moment.node?] at atNode
  | enter node | exit node =>
      simp [Dispatcher.calledAt, dispatcher, of_subscribers, calledAt, calledAmong, timesAt,
        List.map_flatMap]

/-- At the start and at the end it goes through all slots. -/
theorem calledAt_dispatcher_bound (cancellable : Bool) (tree : Tree) {moment : Moment}
    (atBound : moment.node? = none) :
    (dispatcher registrations cancellable).calledAt tree moment =
      (List.finRange registrations.length).map Fin.val := by
  cases moment with
  | start | stop => simp [Dispatcher.calledAt, dispatcher]
  | enter | exit => simp [Moment.node?] at atBound

end Registration

end JavaInspect
