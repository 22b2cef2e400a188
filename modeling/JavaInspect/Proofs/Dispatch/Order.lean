import JavaInspect.Proofs.Dispatch.Numbering
import JavaInspect.Proofs.Dispatch.Registration
import JavaInspect.Proofs.Tree.Traversal

/-!
# The order of a dispatch

A dispatch that is not ended early is a sequence of turns: its detectors take their turns by
the schedule of the registrations, and what they have reported that never fail is found, in
the order of the turns. The detectors may be any; one that logs its calls shows them all.

The progress of a dispatch mirrors the turns made so far: each call of a slot is one turn,
and a call that is not scheduled changes nothing. The slots keep their numbered findings
apart from each other and drop them at the first failure.
-/

namespace JavaInspect

namespace Registration

variable (registrations : List Registration)

/-- The registered detectors. -/
abbrev detectorAt (slot : Fin registrations.length) : Detector :=
  (registrations.get slot).detector

/-- What a slot holds after turns that have led to a stage. -/
def slotAfter (turns : List (Turn registrations.length)) (stage : Stage (detectorAt registrations))
    (slot : Fin registrations.length) : Slot :=
  { detector := detectorAt registrations slot
    memory := stage.memory slot
    atBounds := (registrations.get slot).atBounds
    findings := if stage.failed slot then [] else Turn.numbered turns slot
    faulted := stage.failed slot }

variable {registrations} {turns turns' : List (Turn registrations.length)}
  {stage stage' : Stage (detectorAt registrations)} {slot : Fin registrations.length}

theorem slotAfter_congr (memory : stage'.memory slot = stage.memory slot)
    (failed : stage'.failed slot = stage.failed slot)
    (numbered : Turn.numbered turns' slot = Turn.numbered turns slot) :
    slotAfter registrations turns' stage' slot = slotAfter registrations turns stage slot := by
  simp only [slotAfter, memory, failed, numbered]

end Registration

namespace Progress

open Registration

variable {unit : SourceUnit} {moment : Moment} {progress : Progress} {slot : Slot} {index : Nat}

theorem invoke_of_faulted (found : progress.slots[index]? = some slot)
    (faulted : slot.faulted = true) : progress.invoke unit moment index = progress := by
  simp [invoke, found, faulted]

theorem invoke_of_reported {call : Call slot.detector.Memory}
    (found : progress.slots[index]? = some slot) (sound : slot.faulted = false)
    (called : slot.call unit moment progress.session = (.ok (), call)) :
    progress.invoke unit moment index =
      { progress with
        slots := progress.slots.set index
          { slot with
            memory := call.memory
            findings := slot.findings ++
              (call.findings slot.detector.key).zipIdx progress.next }
        session := call.session
        next := progress.next + (call.findings slot.detector.key).length } := by
  simp [invoke, found, sound, called]

theorem invoke_of_error {call : Call slot.detector.Memory} {reason : String}
    (found : progress.slots[index]? = some slot) (sound : slot.faulted = false)
    (called : slot.call unit moment progress.session = (.error reason, call)) :
    progress.invoke unit moment index =
      { progress with
        slots := progress.slots.set index
          { slot with memory := call.memory, findings := [], faulted := true }
        session := call.session } := by
  simp [invoke, found, sound, called]

/-- Calling a detector that does not respond to a moment changes nothing. -/
theorem invoke_of_ignored (found : progress.slots[index]? = some slot)
    (ignored : slot.respond unit moment = pure ()) :
    progress.invoke unit moment index = progress := by
  have unchanged : progress.slots.set index slot = progress.slots := by
    rw [List.getElem?_eq_some_iff] at found
    rcases found with ⟨inside, rfl⟩
    exact List.set_getElem_self inside
  have nothing : slot.call unit moment progress.session =
      (.ok (), { memory := slot.memory, session := progress.session }) := by
    rw [Slot.call, ignored]
    rfl
  cases faulted : slot.faulted with
  | true => exact invoke_of_faulted found faulted
  | false =>
      rw [invoke_of_reported found faulted nothing]
      simp [unchanged, Call.findings]

/-- The progress of a dispatch after the turns that have led to a stage. -/
structure Mirrors {registrations : List Registration} (progress : Progress)
    (turns : List (Turn registrations.length)) (stage : Stage (detectorAt registrations)) :
    Prop where
  slots : progress.slots = List.ofFn (slotAfter registrations turns stage)
  session : progress.session = stage.session
  next : progress.next = (Turn.emitted turns).length

/-- The progress of a dispatch after turns that have led to a stage and then further calls. -/
def Follows {registrations : List Registration} (progress : Progress) (unit : SourceUnit)
    (turns : List (Turn registrations.length)) (stage : Stage (detectorAt registrations))
    (calls : List (Moment × Fin registrations.length)) : Prop :=
  progress.Mirrors (turns ++ (stage.play unit calls).1) (stage.play unit calls).2

namespace Mirrors

variable {registrations : List Registration} {turns : List (Turn registrations.length)}
  {stage : Stage (detectorAt registrations)} {slot : Fin registrations.length}

theorem followsNothing (mirrors : Mirrors progress turns stage) :
    progress.Follows unit turns stage [] := by
  simpa [Follows, Stage.play] using mirrors

theorem opening (session : Session) (cancellable : Bool) :
    Mirrors { slots := (dispatcher registrations cancellable).slots, session } []
      (Stage.opening session : Stage (detectorAt registrations)) := by
  refine ⟨?_, rfl, rfl⟩
  apply List.ext_getElem
  · simp [dispatcher]
  · intro index _ _
    simp [dispatcher, Slot.fresh, slotAfter, Stage.opening, Turn.numbered, Turn.emitted,
      detectorAt]

theorem slot_eq (mirrors : Mirrors progress turns stage) (slot : Fin registrations.length) :
    progress.slots[slot.val]? = some (slotAfter registrations turns stage slot) := by
  simp [mirrors.slots]

/-- What the dispatcher calls in a slot is the call of the turn. -/
theorem call_eq (mirrors : Mirrors progress turns stage)
    (called : 0 < (registrations.get slot).timesAt unit.tree moment) :
    (slotAfter registrations turns stage slot).call unit moment progress.session =
      stage.call unit moment slot := by
  have responds : (slotAfter registrations turns stage slot).respond unit moment =
      (detectorAt registrations slot).call unit moment := by
    cases moment with
    | enter | exit => rfl
    | start | stop =>
        have atBounds : (registrations.get slot).atBounds = true := by
          cases atBounds : (registrations.get slot).atBounds with
          | true => rfl
          | false => exact absurd called (by rw [timesAt, atBounds]; exact Nat.lt_irrefl 0)
        exact if_pos atBounds
  rw [Slot.call, responds, mirrors.session]
  rfl

/-- A change of one slot is mirrored if the turn and the stage show it there and nowhere
else. -/
theorem change (mirrors : Mirrors progress turns stage) {turn : Turn registrations.length}
    {stage' : Stage (detectorAt registrations)} {changed : Slot} (ofSlot : turn.slot = slot)
    (here : changed = slotAfter registrations (turns ++ [turn]) stage' slot)
    (memory : ∀ other, other ≠ slot → stage'.memory other = stage.memory other)
    (failed : ∀ other, other ≠ slot → stage'.failed other = stage.failed other) :
    progress.slots.set slot.val changed =
      List.ofFn (slotAfter registrations (turns ++ [turn]) stage') := by
  subst ofSlot
  rw [mirrors.slots]
  apply List.ext_getElem
  · simp
  · intro index inside inside'
    rw [List.getElem_set, List.getElem_ofFn, List.getElem_ofFn]
    split
    case isTrue same =>
      subst same
      exact here
    case isFalse apart =>
      have distinct : (⟨index, by simpa using inside'⟩ : Fin registrations.length) ≠ turn.slot :=
        fun equal => apart (congrArg Fin.val equal).symm
      exact (slotAfter_congr (memory _ distinct) (failed _ distinct)
        (Turn.numbered_concat_of_ne (Ne.symm distinct))).symm

/-- A turn is mirrored by the progress after the call of its slot. -/
theorem invoke (mirrors : Mirrors progress turns stage)
    (called : 0 < (registrations.get slot).timesAt unit.tree moment) :
    Mirrors (progress.invoke unit moment slot.val)
      (turns ++ [(stage.take unit moment slot).1]) (stage.take unit moment slot).2 := by
  have found := mirrors.slot_eq slot
  have same := mirrors.call_eq called
  cases failed : stage.failed slot with
  | true =>
      rw [Stage.take_of_failed failed, invoke_of_faulted found failed]
      constructor
      · rw [mirrors.slots]
        congr 1
        funext other
        exact (slotAfter_congr rfl rfl (Turn.numbered_concat_of_reports_nil rfl)).symm
      · exact mirrors.session
      · simp [mirrors.next, Turn.length_emitted_concat, Turn.reports]
  | false =>
      rcases result : stage.call unit moment slot with ⟨outcome, call⟩
      cases outcome with
      | ok done =>
          let reported := call.findings (detectorAt registrations slot).key
          rw [Stage.take_of_reported failed result,
            invoke_of_reported found failed (same.trans result)]
          constructor
          · refine mirrors.change rfl ?_ ?_ ?_
            · simp only [slotAfter, failed, mirrors.next, Function.update_self, Bool.false_eq_true,
                if_false]
              congr 1
              exact (Turn.numbered_concat_self turns
                { moment, slot, outcome := .reported reported }).symm
            · exact fun other distinct => Function.update_of_ne distinct _ _
            · exact fun _ _ => rfl
          · rfl
          · show progress.next + reported.length = _
            simp [mirrors.next, Turn.length_emitted_concat, Turn.reports, reported]
      | error reason =>
          rw [Stage.take_of_error failed result, invoke_of_error found failed (same.trans result)]
          constructor
          · refine mirrors.change rfl ?_ ?_ ?_
            · simp [slotAfter]
            · exact fun other distinct => Function.update_of_ne distinct _ _
            · exact fun other distinct => Function.update_of_ne distinct _ _
          · rfl
          · simp [mirrors.next, Turn.length_emitted_concat, Turn.reports]

theorem countVisit (mirrors : Mirrors progress turns stage) :
    Mirrors (progress.countVisit moment) turns stage := by
  cases moment <;> exact ⟨mirrors.slots, mirrors.session, mirrors.next⟩

/-- Slots that are called one after another take their turns. -/
theorem invokeAll (mirrors : Mirrors progress turns stage)
    {called : List (Fin registrations.length)}
    (each : ∀ slot ∈ called, 0 < (registrations.get slot).timesAt unit.tree moment) :
    (progress.invokeAll unit moment (called.map Fin.val)).Follows unit turns stage
      (called.map (moment, ·)) := by
  induction called generalizing progress turns stage with
  | nil => exact mirrors.followsNothing
  | cons slot rest ih =>
      have first := mirrors.invoke (each slot (by simp))
      have later := ih first fun other member => each other (by simp [member])
      simpa [Progress.invokeAll, Follows, Stage.play_cons] using later

/-- At the start and at the end every slot is gone through, and those take their turns that
are to be called. -/
theorem invokeAll_bound (mirrors : Mirrors progress turns stage) (atBound : moment.node? = none)
    (slots : List (Fin registrations.length)) :
    (progress.invokeAll unit moment (slots.map Fin.val)).Follows unit turns stage
      ((calledAmong registrations unit.tree moment slots).map (moment, ·)) := by
  induction slots generalizing progress turns stage with
  | nil => exact mirrors.followsNothing
  | cons slot rest ih =>
      have times : (registrations.get slot).timesAt unit.tree moment =
          if (registrations.get slot).atBounds then 1 else 0 := by
        cases moment with
        | start | stop => rfl
        | enter | exit => simp [Moment.node?] at atBound
      cases atBounds : (registrations.get slot).atBounds with
      | true =>
          rw [atBounds, if_pos rfl] at times
          have later := ih (mirrors.invoke (times ▸ Nat.one_pos))
          simpa only [Progress.invokeAll, calledAmong, Follows, List.map_cons, List.foldl_cons,
            List.flatMap_cons, times, List.replicate_one, List.singleton_append, Stage.play_cons,
            List.append_assoc] using later
      | false =>
          rw [atBounds, if_neg Bool.false_ne_true] at times
          have ignored : (slotAfter registrations turns stage slot).respond unit moment =
              pure () := by
            cases moment with
            | start | stop => exact if_neg (Bool.eq_false_iff.mp atBounds)
            | enter | exit => simp [Moment.node?] at atBound
          have same := invoke_of_ignored (mirrors.slot_eq slot) ignored
          simpa only [Progress.invokeAll, calledAmong, List.map_cons, List.foldl_cons,
            List.flatMap_cons, times, List.replicate_zero, List.nil_append, same] using ih mirrors

/-- A moment of the dispatch is mirrored by the turns of those who are called. -/
theorem atMoment (mirrors : Mirrors progress turns stage) (cancellable : Bool)
    (moment : Moment) :
    ((progress.countVisit moment).invokeAll unit moment
        ((dispatcher registrations cancellable).calledAt unit.tree moment)).Follows unit turns stage
      ((calledAt registrations unit.tree moment).map (moment, ·)) := by
  cases bound : moment.node? with
  | none =>
      rw [calledAt_dispatcher_bound _ _ _ bound]
      exact mirrors.countVisit.invokeAll_bound bound _
  | some node =>
      rw [calledAt_dispatcher_node _ _ _ (by simp [bound])]
      exact mirrors.countVisit.invokeAll fun _ => timesAt_pos_of_mem_calledAt _

/-- A dispatch that is not ended early is mirrored by the turns of its moments. -/
theorem traverse (mirrors : Mirrors progress turns stage) {cancellable : Bool}
    {moments : List Moment}
    (completed :
      ((dispatcher registrations cancellable).traverse unit moments progress).1 = false) :
    ((dispatcher registrations cancellable).traverse unit moments progress).2.Follows unit
      turns stage (moments.flatMap fun moment =>
        (calledAt registrations unit.tree moment).map (moment, ·)) := by
  induction moments generalizing progress turns stage with
  | nil => exact mirrors.followsNothing
  | cons moment rest ih =>
      rw [Dispatcher.traverse] at completed ⊢
      split at completed
      case isTrue => exact absurd completed Bool.noConfusion
      case isFalse goesOn =>
        rw [if_neg goesOn]
        have later := ih (mirrors.atMoment cancellable moment) completed
        simpa [Follows, Stage.play_append] using later

/-- Sorting by number brings the findings of the slots that did not fail into the order of
the turns. -/
theorem collected_eq (mirrors : Mirrors progress turns stage) :
    progress.collected =
      (turns.filter fun turn => !stage.failed turn.slot).flatMap Turn.reports := by
  let sound := (List.finRange registrations.length).filter fun slot => !stage.failed slot
  have distinct : sound.Nodup := (List.nodup_finRange _).filter _
  have kept : ((progress.slots.filter fun slot => !slot.faulted).flatMap (·.findings)) =
      sound.flatMap (Turn.numbered turns) := by
    rw [mirrors.slots, List.ofFn_eq_map, List.filter_map, List.flatMap_map]
    refine List.flatMap_congr fun slot member => ?_
    have notFailed : (!stage.failed slot) = true := (List.mem_filter.mp member).2
    exact if_neg (by simpa using notFailed)
  have isSound : ∀ slot, sound.contains slot = !stage.failed slot := by
    intro slot
    cases failed : stage.failed slot <;> simp [sound, failed]
  rw [collected, kept, Turn.mergeSort_eq_numberedOf (Turn.flatMap_numbered_perm turns distinct),
    Turn.map_fst_numberedOf]
  simp only [isSound]

end Mirrors

end Progress

namespace Dispatcher

variable {dispatcher : Dispatcher} {unit : SourceUnit}

/-- A traversal ends early only on a wish to end it, and only where it can be ended. -/
theorem cancelled_of_aborted {moments : List Moment} {progress : Progress}
    (aborted : (dispatcher.traverse unit moments progress).1 = true) :
    dispatcher.cancellable = true ∧
      (dispatcher.traverse unit moments progress).2.session.cancelled = true := by
  induction moments generalizing progress with
  | nil => exact absurd aborted Bool.false_ne_true
  | cons moment rest ih =>
      rw [traverse] at aborted ⊢
      split
      case isTrue ends =>
        cases moment with
        | enter node => simpa [endsBefore] using ends
        | start | exit | stop => exact absurd ends Bool.false_ne_true
      case isFalse goesOn =>
        rw [if_neg goesOn] at aborted
        exact ih aborted

/-- A dispatch is given up on a wish to end it, or it has gone through all moments. -/
theorem run_cases (idle : dispatcher.state = .idle) (session : Session) :
    ((dispatcher.run unit session).1 = some (.cancelled unit.path) ∧
      dispatcher.cancellable = true ∧ (dispatcher.run unit session).2.2.cancelled = true) ∨
    ∃ progress, dispatcher.traverse unit unit.tree.moments { slots := dispatcher.slots, session } =
        (false, progress) ∧
      dispatcher.run unit session =
        (none,
          { dispatcher with
            state := .done
            slots := progress.slots.map fun slot => { slot with findings := [] }
            found := progress.collected
            visited := progress.visited },
          progress.session) := by
  rcases traversed : dispatcher.traverse unit unit.tree.moments
    { slots := dispatcher.slots, session } with ⟨aborted, progress⟩
  rw [run, expect, if_pos idle]
  simp only [traversed]
  cases aborted with
  | true =>
      have cancelled := cancelled_of_aborted (congrArg Prod.fst traversed)
      rw [traversed] at cancelled
      exact .inl ⟨rfl, cancelled⟩
  | false => exact .inr ⟨progress, rfl, rfl⟩

end Dispatcher

namespace Registration

variable (registrations : List Registration)

/-- The turns by the schedule of a traversal, and the stage they lead to. -/
def performance (unit : SourceUnit) (session : Session) (events : List WalkEvent) :
    List (Turn registrations.length) × Stage (detectorAt registrations) :=
  (Stage.opening session).play unit (schedule registrations unit.tree events)

/-- A dispatch has gone by the schedule of a traversal: what it has left behind is what the
turns of its detectors have left behind. -/
structure Conducted (unit : SourceUnit) (before : Session) (events : List WalkEvent)
    (finished : Dispatcher) (after : Session) : Prop where
  /-- The turns are those of the schedule, in its order. -/
  inOrder : (performance registrations unit before events).1.map Turn.place =
    schedule registrations unit.tree events
  /-- A detector is not called exactly if a call at an earlier turn of it has failed. -/
  untilFailure {earlier later : List (Turn registrations.length)}
      {turn : Turn registrations.length}
      (split : (performance registrations unit before events).1 = earlier ++ turn :: later) :
    turn.outcome = .skipped ↔
      ∃ failure ∈ earlier, failure.slot = turn.slot ∧ failure.fails = true
  /-- What the detectors share is as the last call has left it. -/
  session : after = (performance registrations unit before events).2.session
  /-- What a detector remembers is as its last call has left it. -/
  slots : finished.slots = List.ofFn fun slot =>
    { detector := detectorAt registrations slot
      memory := (performance registrations unit before events).2.memory slot
      atBounds := (registrations.get slot).atBounds
      faulted := Turn.anyFails (performance registrations unit before events).1 slot }
  /-- Found is what those have reported that never fail, in the order of the turns. -/
  findings : finished.findings =
    .ok (Turn.findings (performance registrations unit before events).1)

variable {registrations} {cancellable : Bool} {unit : SourceUnit} {session : Session}

theorem failed_performance (events : List WalkEvent) (slot : Fin registrations.length) :
    (performance registrations unit session events).2.failed slot =
      Turn.anyFails (performance registrations unit session events).1 slot := by
  rw [performance, Stage.failed_play]
  rfl

/-- A dispatch that is not ended early goes by the schedule of the walk. -/
theorem conducted_of_traversed {progress : Progress} {finished : Dispatcher}
    (traversed : (dispatcher registrations cancellable).traverse unit unit.tree.moments
      { slots := (dispatcher registrations cancellable).slots, session } = (false, progress))
    (done : finished.state = .done) (found : finished.found = progress.collected)
    (slots : finished.slots = progress.slots.map fun slot => { slot with findings := [] }) :
    Conducted registrations unit session (unit.tree.walk .root) finished progress.session := by
  have mirrors : progress.Mirrors
      (performance registrations unit session (unit.tree.walk .root)).1
      (performance registrations unit session (unit.tree.walk .root)).2 := by
    have mirrored := (Progress.Mirrors.opening session cancellable).traverse
      (congrArg Prod.fst traversed)
    rw [traversed] at mirrored
    exact mirrored
  constructor
  · exact Stage.place_play
  · intro earlier later turn split
    rw [Stage.outcome_play_eq_skipped_iff split]
    simp [Stage.opening, Turn.anyFails_iff]
  · exact mirrors.session
  · rw [slots, mirrors.slots, List.map_ofFn, ← funext (failed_performance _)]
    rfl
  · rw [Dispatcher.findings, Dispatcher.expect, if_pos done, found, mirrors.collected_eq]
    simp only [failed_performance]
    rfl

/-- For every built tree, every list of registrations and whatever the detectors do, a
dispatch goes by the schedule of the traversal of the whole tree, unless it is given up on a
wish to end it. -/
theorem runs_in_order {builder : TreeBuilder} (built : builder.Built)
    (registrations : List Registration) (cancellable : Bool) :
    ∃ dispatcher, applyAll { cancellable } registrations = (none, dispatcher) ∧
      ∀ (unit : SourceUnit) (session : Session), unit.tree = builder.build →
        ((dispatcher.run unit session).1 = some (.cancelled unit.path) ∧
          cancellable = true ∧ (dispatcher.run unit session).2.2.cancelled = true) ∨
        ((dispatcher.run unit session).1 = none ∧
          ∃ events, unit.tree.IsTraversal events ∧
            Conducted registrations unit session events
              (dispatcher.run unit session).2.1 (dispatcher.run unit session).2.2) := by
  refine ⟨dispatcher registrations cancellable, applyAll_fresh registrations cancellable, ?_⟩
  intro unit session isBuilt
  have arranged : unit.tree.Arranged := isBuilt ▸ built.arranged
  have idle : (dispatcher registrations cancellable).state = .idle := rfl
  rcases Dispatcher.run_cases idle session with cancelled | ⟨progress, traversed, run⟩
  · exact .inl cancelled
  · rw [run]
    exact .inr ⟨rfl, unit.tree.walk .root, arranged.isTraversal,
      conducted_of_traversed traversed rfl rfl rfl⟩

end Registration

/-! ### A class with one method -/

/-- Logs the moments it is called at, and reports every node it enters. -/
def Detector.recorder (name : String) (kinds : List NodeKind) : Detector :=
  { key := ⟨name⟩
    kinds
    Memory := Unit
    blank := ()
    call := fun unit moment => do
      Visit.writeLog (name ++ " " ++ moment.label)
      match moment with
      | .enter node =>
          Visit.report (unit.tree.span node) "entered"
      | _ => pure () }

/-- Reports the node it enters, and fails. -/
def Detector.failing (name : String) (kinds : List NodeKind) : Detector :=
  { key := ⟨name⟩
    kinds
    Memory := Unit
    blank := ()
    call := fun unit moment =>
      match moment with
      | .enter node => do
          Visit.report (unit.tree.span node) "entered"
          throw "stuck"
      | _ => pure () }

/-- The builder of a class with one method. -/
def TreeBuilder.classWithMethod : TreeBuilder :=
  TreeCall.finish.apply <| (TreeCall.leaf .method {}).apply <|
    (TreeCall.start .class {}).apply (.new {})

theorem TreeBuilder.built_classWithMethod : TreeBuilder.classWithMethod.Built :=
  .call _ (.call _ (.call _ (.new {})))

namespace Registration

/-- One detector that fails at the class, one that lists the class twice, and one for the
exit of methods alone. -/
def mixed : List Registration :=
  [.forKinds (.failing "F" [.class, .method]), .forKinds (.recorder "R" [.class, .method, .class]),
    .forExit (.recorder "X" []) .method]

/-- The unit of the class with one method. -/
def classUnit : SourceUnit :=
  { path := "Outer.java"
    source := ""
    tree := TreeBuilder.classWithMethod.build
    table := {} }

theorem runs_in_order_mixed : ∃ dispatcher,
    applyAll { cancellable := true } mixed = (none, dispatcher) ∧
      (dispatcher.run classUnit {}).1 = none ∧
      ∃ events, classUnit.tree.IsTraversal events ∧
        Conducted mixed classUnit {} events
          (dispatcher.run classUnit {}).2.1 (dispatcher.run classUnit {}).2.2 := by
  rcases runs_in_order TreeBuilder.built_classWithMethod mixed true with
    ⟨made, registered, ordered⟩
  have isMade : made = dispatcher mixed true := by
    rw [applyAll_fresh] at registered
    exact (Prod.mk.inj registered).2.symm
  subst isMade
  have completed : ((dispatcher mixed true).run classUnit {}).1 = none := by decide +kernel
  rcases ordered classUnit {} rfl with ⟨cancelled, -⟩ | ⟨-, conducted⟩
  · rw [completed] at cancelled
    cases cancelled
  · exact ⟨_, registered, completed, conducted⟩

example : ((dispatcher mixed true).run classUnit {}).2.2.log =
    ["R start", "R enter", "R enter", "R enter", "R exit", "X exit", "R exit", "R exit",
      "R end"] := by decide +kernel

end Registration

end JavaInspect
