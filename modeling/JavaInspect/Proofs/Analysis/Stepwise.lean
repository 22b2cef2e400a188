import JavaInspect.Proofs.Analysis.Faults
import JavaInspect.Proofs.Analysis.Workers

/-!
# Analyses in steps

The analysis of a unit makes its own dispatcher and its own cache, and goes on in steps: in each
of them one detector is called, or the traversal goes on to its next moment. Before a step it is
looked up whether somebody wishes for the end; that is all that a step learns about other
analyses. If nobody ever wishes so, the steps come to what the analysis of the unit comes to.
-/

namespace JavaInspect

/-- Where the analysis of a unit stands. -/
inductive UnitAnalysis where
  | waiting
  /-- At a moment, some slots are still due, and other moments are ahead. -/
  | traversing (dispatcher : Dispatcher) (moment : Moment) (due : List Nat)
      (ahead : List Moment) (progress : Progress)
  | ended (outcome : Except AnalysisError UnitReport)

namespace Progress

/-- What the detectors share, as they find it when the wish for the end is looked up. -/
def heeding (progress : Progress) (wished : Bool) : Progress :=
  { progress with session := { progress.session with cancelled := wished } }

/-- The rules of which a detector failed. -/
def faultedRules (progress : Progress) : List RuleKey :=
  ((progress.slots.filter (·.faulted)).map (·.detector.key)).eraseDups

variable {progress : Progress}

theorem heeding_eq {wished : Bool} (same : progress.session.cancelled = wished) :
    progress.heeding wished = progress := by
  subst same
  rfl

theorem countVisit_heeding {wished : Bool} (moment : Moment) :
    (progress.heeding wished).countVisit moment =
      (progress.countVisit moment).heeding wished := by
  cases moment <;> rfl

theorem heeding_heeding {wished later : Bool} :
    (progress.heeding wished).heeding later = progress.heeding later := rfl

end Progress

namespace Runner

variable (runner : Runner)

/-- What an analysis comes to when its traversal has ended, early or not. -/
def conclude (unit : SourceUnit) : Bool × Progress → Except AnalysisError UnitReport
  | (true, _) => .error (.cancelled unit.path)
  | (false, progress) =>
      runner.report unit progress.collected progress.faultedRules progress.session.cache

/-- One call of a detector, or what comes between two calls. The wish for the end is looked up
before and handed on behind. -/
def stepOf (unit : SourceUnit) (wished : Bool) : UnitAnalysis → UnitAnalysis × Bool
  | .waiting =>
      match runner.dispatcher with
      | (some error, _) => (.ended (.error error), false)
      | (none, dispatcher) =>
          match dispatcher.expect .idle with
          | .error error => (.ended (.error error), false)
          | .ok () =>
              (.traversing dispatcher .start [] unit.tree.moments
                { slots := dispatcher.slots, session := {} }, false)
  | .traversing dispatcher moment (index :: due) ahead progress =>
      let progress := (progress.heeding wished).invoke unit moment index
      (.traversing dispatcher moment due ahead progress, progress.session.cancelled)
  | .traversing dispatcher _ [] (moment :: ahead) progress =>
      let progress := progress.heeding wished
      if dispatcher.endsBefore progress.session moment then
        (.ended (runner.conclude unit (true, progress)), false)
      else
        (.traversing dispatcher moment (dispatcher.calledAt unit.tree moment) ahead
          (progress.countVisit moment), false)
  | .traversing _ _ [] [] progress => (.ended (runner.conclude unit (false, progress)), false)
  | .ended outcome => (.ended outcome, false)

/-- The number of calls at some moments, and of the moments themselves. -/
def callsAhead (dispatcher : Dispatcher) (tree : Tree) (moments : List Moment) : Nat :=
  (moments.map fun moment => (dispatcher.calledAt tree moment).length + 1).sum

/-- No more steps than this are left of an analysis. -/
def stepsLeft (unit : SourceUnit) : UnitAnalysis → Nat
  | .waiting =>
      match runner.dispatcher with
      | (some _, _) => 1
      | (none, dispatcher) => 2 + callsAhead dispatcher unit.tree unit.tree.moments
  | .traversing dispatcher _ due ahead _ =>
      1 + due.length + callsAhead dispatcher unit.tree ahead
  | .ended _ => 0

/-- Analyses of units as work in steps. -/
def analyses : Work SourceUnit (Except AnalysisError UnitReport) where
  State := UnitAnalysis
  opening := .waiting
  step := runner.stepOf
  outcome?
    | .ended outcome => some outcome
    | _ => none
  left := runner.stepsLeft
  left_step := by
    intro unit wished state goesOn
    match state with
    | .waiting =>
        rcases made : runner.dispatcher with ⟨error?, dispatcher⟩
        cases error? with
        | some error => simp [stepOf, stepsLeft, made]
        | none =>
            cases expected : dispatcher.expect .idle <;>
              simp [stepOf, stepsLeft, made, expected]
    | .traversing dispatcher moment (index :: due) ahead progress =>
        simp [stepOf, stepsLeft]
    | .traversing dispatcher _ [] (moment :: ahead) progress =>
        simp only [stepOf]
        split
        · simp [stepsLeft]
        · simp [stepsLeft, callsAhead]
          omega
    | .traversing _ _ [] [] progress => simp [stepOf, stepsLeft]

/-! ## What an analysis comes to alone -/

/-- What an analysis comes to when its traversal has ended, and whether the end is wished for by
then. -/
def concludeThen (unit : SourceUnit) (traversed : Bool × Progress) :
    Except AnalysisError UnitReport × Bool :=
  (runner.conclude unit traversed, traversed.2.session.cancelled)

/-- What an analysis comes to if nobody wishes for its end any more, and whether the end is wished
for by then. -/
def comingTo (unit : SourceUnit) : UnitAnalysis → Except AnalysisError UnitReport × Bool
  | .waiting => runner.analyzeThen unit
  | .traversing dispatcher moment due ahead progress =>
      runner.concludeThen unit
        (dispatcher.traverse unit ahead ((progress.heeding false).invokeAll unit moment due))
  | .ended outcome => (outcome, false)

variable {runner} {unit : SourceUnit}

theorem analyzeThen_eq_concludeThen {dispatcher : Dispatcher}
    (made : runner.dispatcher = (none, dispatcher)) (idle : dispatcher.expect .idle = .ok ()) :
    runner.analyzeThen unit = runner.concludeThen unit (dispatcher.traverse unit unit.tree.moments
      { slots := dispatcher.slots, session := { cancelled := runner.cancelled } }) := by
  rcases traversed : dispatcher.traverse unit unit.tree.moments
    { slots := dispatcher.slots, session := { cancelled := runner.cancelled } } with
    ⟨aborted, progress⟩
  cases aborted with
  | true => simp [analyzeThen, made, Dispatcher.run, idle, traversed, concludeThen, conclude]
  | false =>
      have rules : ((progress.slots.map fun slot => { slot with findings := [] }).filter
          (·.faulted)).map (·.detector.key) =
          (progress.slots.filter (·.faulted)).map (·.detector.key) := by
        simp [List.filter_map, Function.comp_def]
      rw [analyzeThen, made]
      simp only [Dispatcher.run, idle, traversed]
      rw [concludeThen, conclude, Progress.faultedRules, ← rules]
      rfl

theorem comingTo_stepOf {state next : UnitAnalysis} (uncancelled : runner.cancelled = false)
    (step : runner.stepOf unit false state = (next, false)) :
    runner.comingTo unit next = runner.comingTo unit state := by
  match state with
  | .waiting =>
      rcases made : runner.dispatcher with ⟨error?, dispatcher⟩
      cases error? with
      | some error =>
          simp only [stepOf, made] at step
          cases step
          simp [comingTo, analyzeThen, made, uncancelled]
      | none =>
          cases idle : dispatcher.expect .idle with
          | error error =>
              simp only [stepOf, made, idle] at step
              cases step
              simp [comingTo, analyzeThen, made, Dispatcher.run, idle, uncancelled]
          | ok _ =>
              simp only [stepOf, made, idle] at step
              cases step
              rw [comingTo, comingTo, analyzeThen_eq_concludeThen made idle, uncancelled]
              rfl
  | .traversing dispatcher moment (index :: due) ahead progress =>
      obtain ⟨rfl, silent⟩ := Prod.mk.inj step
      rw [comingTo, comingTo, Progress.heeding_eq silent]
      rfl
  | .traversing dispatcher _ [] (moment :: ahead) progress =>
      simp only [stepOf] at step
      split at step
      case isTrue ends =>
        cases step
        rw [comingTo, comingTo, Progress.invokeAll, List.foldl_nil, Dispatcher.traverse, if_pos ends]
        rfl
      case isFalse goesOn =>
        cases step
        rw [comingTo, comingTo, ← Progress.countVisit_heeding, Progress.heeding_heeding]
        simp [Progress.invokeAll, Dispatcher.traverse, goesOn]
  | .traversing _ _ [] [] progress =>
      cases step
      rfl
  | .ended outcome =>
      cases step
      rfl

/-- An analysis that is done alone, and that nobody wishes to give up, is the analysis of the
unit. -/
theorem analyzeThen_of_comesTo {outcome : Except AnalysisError UnitReport}
    (uncancelled : runner.cancelled = false) (comes : runner.analyses.ComesTo unit outcome) :
    runner.analyzeThen unit = (outcome, false) := by
  obtain ⟨state, advances, ended⟩ := comes
  have kept : runner.comingTo unit state = runner.analyzeThen unit :=
    Work.eq_of_advances (fun _ _ advance => comingTo_stepOf uncancelled advance.2) advances
  cases state with
  | ended _ =>
      cases ended
      exact kept.symm
  | waiting | traversing _ _ _ _ _ => cases ended

end Runner

/-! ## Detectors that never wish for the end -/

/-- No call of a detector brings up the wish to end the traversal. -/
def Detector.NeverWishes (detector : Detector) (unit : SourceUnit) : Prop :=
  ∀ (moment : Moment) (before : Call detector.Memory), before.session.cancelled = false →
    ((detector.call unit moment).run.run before).2.session.cancelled = false

theorem Slot.cancelled_call {slot : Slot} {unit : SourceUnit} {session : Session}
    (never : slot.detector.NeverWishes unit) (moment : Moment)
    (unwished : session.cancelled = false) :
    (slot.call unit moment session).2.session.cancelled = false := by
  cases moment with
  | enter node | exit node => exact never _ _ unwished
  | start | stop =>
      simp only [Slot.call, Slot.respond]
      split
      · exact never _ _ unwished
      · exact unwished

namespace Progress

/-- The detectors of all slots never wish for the end, and it is not wished for. -/
structure Unwished (progress : Progress) (unit : SourceUnit) : Prop where
  detectors : ∀ slot ∈ progress.slots, slot.detector.NeverWishes unit
  session : progress.session.cancelled = false

namespace Unwished

variable {progress : Progress} {unit : SourceUnit} (unwished : progress.Unwished unit)

include unwished

theorem countVisit (moment : Moment) : (progress.countVisit moment).Unwished unit := by
  cases moment <;> exact ⟨unwished.detectors, unwished.session⟩

/-- A slot that has been called has its detector still. -/
theorem set {slot : Slot} {index : Nat} (never : slot.detector.NeverWishes unit) :
    ∀ other ∈ progress.slots.set index slot, other.detector.NeverWishes unit := by
  intro other isSlot
  cases List.mem_or_eq_of_mem_set isSlot with
  | inl before => exact unwished.detectors other before
  | inr same => exact same ▸ never

theorem invoke (moment : Moment) (index : Nat) :
    (progress.invoke unit moment index).Unwished unit := by
  unfold Progress.invoke
  split
  case h_1 => exact unwished
  case h_2 slot found =>
    have never := unwished.detectors slot (List.mem_of_getElem? found)
    have silent := Slot.cancelled_call never moment unwished.session
    split
    case isTrue => exact unwished
    case isFalse =>
      dsimp only
      split
      · exact ⟨unwished.set never, silent⟩
      · exact ⟨unwished.set never, silent⟩

end Unwished

end Progress

namespace Runner

variable {runner : Runner} {unit : SourceUnit}

/-- Nobody wishes for the end in the analysis of a unit, up to where it stands. -/
def Unwished (unit : SourceUnit) : UnitAnalysis → Prop
  | .traversing _ _ _ _ progress => progress.Unwished unit
  | .waiting | .ended _ => True

theorem unwished_opening
    (never : ∀ detector ∈ runner.registry.detectors, detector.NeverWishes unit) :
    ({ slots := (Registration.dispatcher runner.registrations true).slots
       session := {} } : Progress).Unwished unit where
  detectors := by
    intro slot isSlot
    obtain ⟨registration, member, rfl⟩ := List.mem_map.1 isSlot
    obtain ⟨detector, isDetector, rfl⟩ := List.mem_map.1 member
    exact never detector isDetector
  session := rfl

theorem quiet_analyses
    (never : ∀ detector ∈ runner.registry.detectors, detector.NeverWishes unit) :
    runner.analyses.Quiet unit (Unwished unit) where
  opening := trivial
  step := by
    intro state goesOn unwished
    match state with
    | .waiting =>
        simp only [analyses, stepOf, dispatcher_eq]
        exact ⟨unwished_opening never, rfl⟩
    | .traversing dispatcher moment (index :: due) ahead progress =>
        have heeding : progress.heeding false = progress :=
          Progress.heeding_eq unwished.session
        have invoked := Progress.Unwished.invoke unwished moment index
        simp only [analyses, stepOf, heeding]
        exact ⟨invoked, invoked.session⟩
    | .traversing dispatcher _ [] (moment :: ahead) progress =>
        simp only [analyses, stepOf]
        split
        · exact ⟨trivial, rfl⟩
        · rw [Progress.heeding_eq unwished.session]
          exact ⟨unwished.countVisit moment, rfl⟩
    | .traversing _ _ [] [] progress => exact ⟨trivial, rfl⟩

end Runner

end JavaInspect
