import JavaInspect.Proofs.Dispatch.Order

/-!
# Dispatches that are given up

Before each node is entered, a dispatch looks whether its end is wished for. Where the wish
is met for the first time, nobody is called any more and nothing is found. A dispatch that
never meets it goes through all moments. What counts is the wish at the entries alone: which
call brought it up, and whether that call failed, does not matter.
-/

namespace JavaInspect

/-- No call of a detector takes back the wish to end the traversal. -/
def Detector.NeverRevokes (detector : Detector) (unit : SourceUnit) : Prop :=
  ∀ (moment : Moment) (before : Call detector.Memory), before.session.cancelled = true →
    ((detector.call unit moment).run.run before).2.session.cancelled = true

namespace Registration

variable (registrations : List Registration)

/-! ## Definitions -/

/-- All calls at some moments, if no detector fails. -/
def callsAt (tree : Tree) (moments : List Moment) : List (Moment × Fin registrations.length) :=
  moments.flatMap fun moment => (calledAt registrations tree moment).map (moment, ·)

/-- The turns up to some event of a traversal, and the stage they lead to. -/
def performanceUpTo (unit : SourceUnit) (session : Session) (earlier : List WalkEvent) :
    List (Turn registrations.length) × Stage (detectorAt registrations) :=
  (Stage.opening session).play unit
    (callsAt registrations unit.tree (.start :: earlier.map .ofEvent))

/-- The end of a dispatch is wished for when some events of the traversal are over. -/
def WishedAfter (unit : SourceUnit) (session : Session) (earlier : List WalkEvent) : Prop :=
  (performanceUpTo registrations unit session earlier).2.session.cancelled = true

/-- The end of a dispatch is not wished for at any entry among some events. -/
def NeverWished (unit : SourceUnit) (session : Session) (events : List WalkEvent) : Prop :=
  ∀ sooner node later, events = sooner ++ .enter node :: later →
    ¬ WishedAfter registrations unit session sooner

/-- What follows some events is the first entry at which the end is wished for. -/
structure WishMetAfter (unit : SourceUnit) (session : Session) (events earlier : List WalkEvent) :
    Prop where
  entry : ∃ node later, events = earlier ++ .enter node :: later
  wished : WishedAfter registrations unit session earlier
  notSooner : NeverWished registrations unit session earlier

/-- A dispatch has been given up after some events: all calls were made up to there and none
after, and nothing is found. -/
structure GivenUp (unit : SourceUnit) (before : Session) (earlier : List WalkEvent)
    (finished : Dispatcher) (after : Session) : Prop where
  state : finished.state = .done
  findings : finished.findings = .ok []
  visited : finished.visited = (earlier.filterMap WalkEvent.entered?).length
  inOrder : (performanceUpTo registrations unit before earlier).1.map Turn.place =
    callsAt registrations unit.tree (.start :: earlier.map .ofEvent)
  session : after = (performanceUpTo registrations unit before earlier).2.session
  slots : finished.slots = List.ofFn fun slot =>
    { detector := detectorAt registrations slot
      memory := (performanceUpTo registrations unit before earlier).2.memory slot
      atBounds := (registrations.get slot).atBounds
      faulted := Turn.anyFails (performanceUpTo registrations unit before earlier).1 slot }

variable {registrations} {unit : SourceUnit} {session : Session} {cancellable : Bool}
  {earlier events : List WalkEvent} {event : WalkEvent}

theorem performanceUpTo_concat :
    performanceUpTo registrations unit session (earlier ++ [event]) =
      ((performanceUpTo registrations unit session earlier).1 ++
          ((performanceUpTo registrations unit session earlier).2.play unit
            (callsAt registrations unit.tree [.ofEvent event])).1,
        ((performanceUpTo registrations unit session earlier).2.play unit
          (callsAt registrations unit.tree [.ofEvent event])).2) := by
  simp [performanceUpTo, callsAt, ← Stage.play_append]

/-- A further event is no entry, or no entry at which the end is wished for. -/
theorem NeverWished.concat (never : NeverWished registrations unit session earlier)
    (notHere : ∀ node, event = .enter node → ¬ WishedAfter registrations unit session earlier) :
    NeverWished registrations unit session (earlier ++ [event]) := by
  intro sooner node later split
  rcases List.eq_nil_or_concat later with rfl | ⟨between, last, rfl⟩
  · obtain ⟨rfl, isEntry⟩ := List.append_inj' split rfl
    exact notHere node (List.singleton_inj.1 isEntry)
  · rw [List.concat_eq_append, ← List.cons_append, ← List.append_assoc] at split
    exact never sooner node between (List.append_inj' split rfl).1

/-! ## Up to the first entry at which the wish is met -/

end Registration

namespace Progress

open Registration

variable {registrations : List Registration} {unit : SourceUnit} {session : Session}
  {progress : Progress} {cancellable : Bool} {earlier : List WalkEvent} {moment : Moment}

/-- The progress of a dispatch when some events are over. -/
structure Reaches (progress : Progress) (registrations : List Registration) (unit : SourceUnit)
    (session : Session) (earlier : List WalkEvent) : Prop where
  mirrors : progress.Mirrors (performanceUpTo registrations unit session earlier).1
    (performanceUpTo registrations unit session earlier).2
  visited : progress.visited = (earlier.filterMap WalkEvent.entered?).length

theorem visited_invoke (index : Nat) :
    (progress.invoke unit moment index).visited = progress.visited := by
  unfold invoke
  split
  · rfl
  · split
    · rfl
    · dsimp only
      split <;> rfl

theorem visited_invokeAll (indices : List Nat) :
    (progress.invokeAll unit moment indices).visited = progress.visited := by
  induction indices generalizing progress with
  | nil => rfl
  | cons index rest ih => exact ih.trans (visited_invoke index)

namespace Reaches

theorem opening : Reaches
    (({ slots := (dispatcher registrations cancellable).slots, session } : Progress).invokeAll unit
      .start ((dispatcher registrations cancellable).calledAt unit.tree .start))
    registrations unit session [] where
  mirrors := by
    have opened : Mirrors { slots := (dispatcher registrations cancellable).slots, session } []
        (Stage.opening session) := .opening session cancellable
    have mirrored : Follows _ unit [] (Stage.opening session) _ :=
      opened.atMoment cancellable .start
    simpa [Follows, performanceUpTo, callsAt, countVisit] using mirrored
  visited := visited_invokeAll _

theorem event (reaches : progress.Reaches registrations unit session earlier)
    (cancellable : Bool) (event : WalkEvent) :
    ((progress.countVisit (.ofEvent event)).invokeAll unit (.ofEvent event)
        ((dispatcher registrations cancellable).calledAt unit.tree (.ofEvent event))).Reaches
      registrations unit session (earlier ++ [event]) where
  mirrors := by
    rw [performanceUpTo_concat]
    simpa [Follows, callsAt] using reaches.mirrors.atMoment cancellable (.ofEvent event)
  visited := by
    rw [visited_invokeAll, List.filterMap_append, List.length_append, ← reaches.visited]
    cases event <;> rfl

theorem endsBefore_iff (reaches : progress.Reaches registrations unit session earlier)
    (event : WalkEvent) :
    (dispatcher registrations cancellable).endsBefore progress.session (.ofEvent event) = true ↔
      cancellable = true ∧ (∃ node, event = .enter node) ∧
        WishedAfter registrations unit session earlier := by
  cases event with
  | enter node =>
      rw [reaches.mirrors.session]
      simp [Moment.ofEvent, Dispatcher.endsBefore, dispatcher, WishedAfter]
  | exit node => simp [Moment.ofEvent, Dispatcher.endsBefore]

/-- A dispatch ends where the wish is met for the first time, or goes through all moments. -/
theorem traverse (reaches : progress.Reaches registrations unit session earlier)
    (unmet : cancellable = true → NeverWished registrations unit session earlier)
    (rest : List WalkEvent) :
    (∃ met halted, cancellable = true ∧
      WishMetAfter registrations unit session (earlier ++ rest) met ∧
      (dispatcher registrations cancellable).traverse unit (rest.map .ofEvent ++ [.stop]) progress =
        (true, halted) ∧ halted.Reaches registrations unit session met) ∨
    ∃ completed,
      (cancellable = true → NeverWished registrations unit session (earlier ++ rest)) ∧
      (dispatcher registrations cancellable).traverse unit (rest.map .ofEvent ++ [.stop]) progress =
        (false, completed) ∧
      completed.visited = ((earlier ++ rest).filterMap WalkEvent.entered?).length := by
  induction rest generalizing progress earlier with
  | nil =>
      refine .inr ⟨_, by simpa using unmet, rfl, ?_⟩
      rw [visited_invokeAll, List.append_nil]
      exact reaches.visited
  | cons event rest ih =>
      rw [List.map_cons, List.cons_append, Dispatcher.traverse]
      split
      case isTrue ends =>
        rcases (reaches.endsBefore_iff event).1 ends with ⟨can, ⟨node, rfl⟩, wished⟩
        exact .inl ⟨earlier, progress, can, ⟨⟨node, rest, rfl⟩, wished, unmet can⟩, rfl, reaches⟩
      case isFalse goesOn =>
        have stillUnmet : cancellable = true →
            NeverWished registrations unit session (earlier ++ [event]) := by
          intro can
          exact (unmet can).concat fun node isEntry wished =>
            goesOn ((reaches.endsBefore_iff event).2 ⟨can, ⟨node, isEntry⟩, wished⟩)
        have later := ih (reaches.event cancellable event) stillUnmet
        rwa [List.append_assoc, List.singleton_append] at later

end Reaches

end Progress

namespace Registration

variable {registrations : List Registration} {unit : SourceUnit} {session : Session}
  {cancellable : Bool} {earlier events : List WalkEvent}

/-- What is left of a dispatch that is halted after some events. -/
theorem givenUp_of_reaches {halted : Progress} {finished : Dispatcher}
    (reaches : halted.Reaches registrations unit session earlier)
    (done : finished.state = .done) (found : finished.found = [])
    (visited : finished.visited = halted.visited)
    (slots : finished.slots = halted.slots.map fun slot => { slot with findings := [] }) :
    GivenUp registrations unit session earlier finished halted.session where
  state := done
  findings := by rw [Dispatcher.findings, Dispatcher.expect, if_pos done, found]
  visited := visited.trans reaches.visited
  inOrder := Stage.place_play
  session := reaches.mirrors.session
  slots := by
    have failed (slot : Fin registrations.length) :
        (performanceUpTo registrations unit session earlier).2.failed slot =
          Turn.anyFails (performanceUpTo registrations unit session earlier).1 slot := by
      rw [performanceUpTo, Stage.failed_play]
      rfl
    rw [slots, reaches.mirrors.slots, List.map_ofFn, ← funext failed]
    rfl

/-- A dispatch is given up at the first entry at which its end is wished for, or it is
completed. -/
theorem run_cases (cancellable : Bool) (unit : SourceUnit) (session : Session) :
    (∃ met, cancellable = true ∧
      WishMetAfter registrations unit session (unit.tree.walk .root) met ∧
      ((dispatcher registrations cancellable).run unit session).1 =
        some (.cancelled unit.path) ∧
      GivenUp registrations unit session met
        ((dispatcher registrations cancellable).run unit session).2.1
        ((dispatcher registrations cancellable).run unit session).2.2) ∨
    (cancellable = true → NeverWished registrations unit session (unit.tree.walk .root)) ∧
      ((dispatcher registrations cancellable).run unit session).1 = none ∧
      ((dispatcher registrations cancellable).run unit session).2.1.visited =
        ((unit.tree.walk .root).filterMap WalkEvent.entered?).length ∧
      Conducted registrations unit session (unit.tree.walk .root)
        ((dispatcher registrations cancellable).run unit session).2.1
        ((dispatcher registrations cancellable).run unit session).2.2 := by
  have idle : (dispatcher registrations cancellable).state = .idle := rfl
  have first : ∀ progress, (dispatcher registrations cancellable).traverse unit unit.tree.moments
      progress = (dispatcher registrations cancellable).traverse unit
        ((unit.tree.walk .root).map .ofEvent ++ [.stop])
        (progress.invokeAll unit .start
          ((dispatcher registrations cancellable).calledAt unit.tree .start)) :=
    fun _ => rfl
  have unmet : cancellable = true → NeverWished registrations unit session [] :=
    fun _ sooner node later split => by simp at split
  have opened := @Progress.Reaches.opening registrations unit session cancellable
  have goes := opened.traverse unmet (unit.tree.walk .root)
  rw [← first, List.nil_append] at goes
  rw [Dispatcher.run, Dispatcher.expect, if_pos idle]
  rcases goes with ⟨met, halted, can, isMet, traversed, reaches⟩ |
    ⟨completed, never, traversed, visited⟩
  · simp only [traversed]
    exact .inl ⟨met, can, isMet, rfl, givenUp_of_reaches reaches rfl rfl rfl rfl⟩
  · simp only [traversed]
    exact .inr ⟨never, rfl, visited, conducted_of_traversed traversed rfl rfl rfl⟩

theorem conducted_of_completed
    (completed : ((dispatcher registrations cancellable).run unit session).1 = none) :
    Conducted registrations unit session (unit.tree.walk .root)
      ((dispatcher registrations cancellable).run unit session).2.1
      ((dispatcher registrations cancellable).run unit session).2.2 := by
  rcases @run_cases registrations cancellable unit session with
    ⟨_, _, _, isCancelled, _⟩ | ⟨_, _, _, conducted⟩
  · rw [completed] at isCancelled
    cases isCancelled
  · exact conducted

end Registration

/-! ## Wishes that are not taken back -/

namespace Stage

variable {count : Nat} {detectors : Fin count → Detector} {stage : Stage detectors}
  {unit : SourceUnit}

theorem cancelled_take {moment : Moment} {slot : Fin count}
    (keeps : (detectors slot).NeverRevokes unit) (wished : stage.session.cancelled = true) :
    (stage.take unit moment slot).2.session.cancelled = true := by
  rw [session_take]
  split
  · exact wished
  · exact keeps moment { memory := stage.memory slot, session := stage.session } wished

theorem cancelled_play {plan : List (Moment × Fin count)}
    (keep : ∀ slot, (detectors slot).NeverRevokes unit)
    (wished : stage.session.cancelled = true) :
    (stage.play unit plan).2.session.cancelled = true := by
  induction plan generalizing stage with
  | nil => exact wished
  | cons entry rest ih => exact ih (cancelled_take (keep entry.2) wished)

end Stage

namespace Registration

variable {registrations : List Registration} {unit : SourceUnit} {session : Session}
  {earlier events : List WalkEvent}

section NeverRevoked

variable (keep : ∀ registration ∈ registrations, registration.detector.NeverRevokes unit)
include keep

theorem WishedAfter.append (wished : WishedAfter registrations unit session earlier)
    (more : List WalkEvent) : WishedAfter registrations unit session (earlier ++ more) := by
  have stillWished : ((performanceUpTo registrations unit session earlier).2.play unit
      (callsAt registrations unit.tree (more.map .ofEvent))).2.session.cancelled = true :=
    Stage.cancelled_play (fun slot => keep _ (List.get_mem registrations slot)) wished
  simpa [WishedAfter, performanceUpTo, callsAt, Stage.play_append] using stillWished

theorem wishedAfter_of_cancelled (wished : session.cancelled = true) :
    WishedAfter registrations unit session earlier := by
  have opened : (Stage.opening session : Stage (detectorAt registrations)).session.cancelled =
    true := wished
  exact Stage.cancelled_play (fun slot => keep _ (List.get_mem registrations slot)) opened

/-- What is not wished for at the last entry is not wished for at any. -/
theorem neverWished_of_lastEntry {node : NodeId} {later : List WalkEvent}
    (split : events = earlier ++ .enter node :: later) (isLast : ∀ other, .enter other ∉ later)
    (unwished : ¬ WishedAfter registrations unit session earlier) :
    NeverWished registrations unit session events := by
  intro sooner other rest otherSplit wished
  rcases List.append_eq_append_iff.1 (split.symm.trans otherSplit) with
    ⟨between, rfl, isRest⟩ | ⟨between, rfl, -⟩
  · cases between with
    | nil => exact unwished (by simpa using wished)
    | cons event between =>
        obtain ⟨-, rfl⟩ := List.cons.inj isRest
        exact isLast other (by simp)
  · exact unwished (wished.append keep between)

end NeverRevoked

/-- For every built tree, every list of registrations and whatever the detectors do: a dispatch
is given up exactly if its end is wished for when some node is about to be entered, and then
at the first such node. Otherwise it is completed, and every node was entered and left once.
If nobody takes the wish back, a wish before the dispatch always ends it, and a wish after
the last entry never does. -/
theorem given_up_or_completed {builder : TreeBuilder} (built : builder.Built)
    (registrations : List Registration) (cancellable : Bool) :
    ∃ dispatcher, applyAll { cancellable } registrations = (none, dispatcher) ∧
      ∀ (unit : SourceUnit) (session : Session), unit.tree = builder.build →
        ∃ events, unit.tree.IsTraversal events ∧
          ((dispatcher.run unit session).1 = some (.cancelled unit.path) ↔
            cancellable = true ∧ ∃ earlier node later, events = earlier ++ .enter node :: later ∧
              WishedAfter registrations unit session earlier) ∧
          ((dispatcher.run unit session).1 = some (.cancelled unit.path) →
            ∃ earlier, WishMetAfter registrations unit session events earlier ∧
              GivenUp registrations unit session earlier
                (dispatcher.run unit session).2.1 (dispatcher.run unit session).2.2) ∧
          ((dispatcher.run unit session).1 ≠ some (.cancelled unit.path) →
            (dispatcher.run unit session).1 = none ∧
              (dispatcher.run unit session).2.1.visited = unit.tree.size ∧
              Conducted registrations unit session events
                (dispatcher.run unit session).2.1 (dispatcher.run unit session).2.2) ∧
          ((∀ registration ∈ registrations, registration.detector.NeverRevokes unit) →
            (cancellable = true → session.cancelled = true →
              (dispatcher.run unit session).1 = some (.cancelled unit.path)) ∧
            ∀ earlier node later, events = earlier ++ .enter node :: later →
              (∀ other, .enter other ∉ later) →
              ¬ WishedAfter registrations unit session earlier →
              (dispatcher.run unit session).1 = none) := by
  refine ⟨dispatcher registrations cancellable, applyAll_fresh registrations cancellable, ?_⟩
  intro unit session isBuilt
  have arranged : unit.tree.Arranged := isBuilt ▸ built.arranged
  have isTraversal := arranged.isTraversal
  have rootFirst : ∃ later, unit.tree.walk .root = [] ++ .enter .root :: later :=
    ⟨_, arranged.walk_eq .root⟩
  refine ⟨unit.tree.walk .root, isTraversal, ?_⟩
  rcases @run_cases registrations cancellable unit session with
    ⟨met, can, isMet, isCancelled, givenUp⟩ | ⟨never, completed, visited, conducted⟩
  case inl =>
    obtain ⟨node, later, split⟩ := isMet.entry
    refine ⟨?_, fun _ => ⟨met, isMet, givenUp⟩, fun other => absurd isCancelled other, ?_⟩
    · exact ⟨fun _ => ⟨can, met, node, later, split, isMet.wished⟩, fun _ => isCancelled⟩
    · intro keep
      refine ⟨fun _ _ => isCancelled, ?_⟩
      intro earlier last rest lastSplit isLast unwished
      exact absurd isMet.wished
        (neverWished_of_lastEntry keep lastSplit isLast unwished met node later split)
  case inr =>
    have notCancelled : ((dispatcher registrations cancellable).run unit session).1 ≠
        some (.cancelled unit.path) := by simp [completed]
    refine ⟨?_, fun isCancelled => absurd isCancelled notCancelled, fun _ => ?_, ?_⟩
    · constructor
      · exact fun isCancelled => absurd isCancelled notCancelled
      · rintro ⟨can, earlier, node, later, split, wished⟩
        exact absurd wished (never can earlier node later split)
    · exact ⟨completed, visited.trans arranged.length_entered_walk_root, conducted⟩
    · intro keep
      refine ⟨?_, fun _ _ _ _ _ _ => completed⟩
      intro can wished
      obtain ⟨later, split⟩ := rootFirst
      exact absurd (wishedAfter_of_cancelled keep wished) (never can [] .root later split)

end Registration

/-! ### A wish in a call that fails -/

/-- Wishes for the end of the traversal when it enters a node, and fails. -/
def Detector.halting (name : String) (kinds : List NodeKind) : Detector :=
  { key := ⟨name⟩
    kinds
    Memory := Unit
    blank := ()
    call := fun _ moment =>
      match moment with
      | .enter _ => do
          Visit.cancel
          throw "halted"
      | _ => pure () }

theorem Detector.neverRevokes_halting {name : String} {kinds : List NodeKind}
    (unit : SourceUnit) : (Detector.halting name kinds).NeverRevokes unit := by
  intro moment before wished
  cases moment with
  | enter node => rfl
  | start | exit | stop => exact wished

theorem Detector.neverRevokes_recorder {name : String} {kinds : List NodeKind}
    (unit : SourceUnit) : (Detector.recorder name kinds).NeverRevokes unit := by
  intro moment before wished
  cases moment <;> exact wished

namespace Registration

/-- One detector that logs its calls before one that ends the traversal at the class. -/
def halted : List Registration :=
  [.forKinds (.recorder "R" [.class, .method]), .forKinds (.halting "H" [.class])]

theorem given_up_or_completed_halted : ∃ dispatcher,
    applyAll { cancellable := true } halted = (none, dispatcher) ∧
      (dispatcher.run classUnit {}).1 = some (.cancelled "Outer.java") ∧
      (dispatcher.run classUnit {}).2.1.visited = 2 ∧
      (dispatcher.run classUnit {}).2.2.log = ["R start", "R enter"] ∧
      (∃ events earlier, classUnit.tree.IsTraversal events ∧
        WishMetAfter halted classUnit {} events earlier ∧
        GivenUp halted classUnit {} earlier
          (dispatcher.run classUnit {}).2.1 (dispatcher.run classUnit {}).2.2) ∧
      (∀ registration ∈ halted, registration.detector.NeverRevokes classUnit) ∧
      (dispatcher.run classUnit { cancelled := true }).1 = some (.cancelled "Outer.java") := by
  rcases given_up_or_completed TreeBuilder.built_classWithMethod halted true with
    ⟨made, registered, goes⟩
  have isMade : made = dispatcher halted true := by
    rw [applyAll_fresh] at registered
    exact (Prod.mk.inj registered).2.symm
  subst isMade
  have isCancelled : ((dispatcher halted true).run classUnit {}).1 =
      some (.cancelled classUnit.path) := by decide +kernel
  have keep : ∀ registration ∈ halted, registration.detector.NeverRevokes classUnit := by
    simp [halted, detector, Detector.neverRevokes_halting, Detector.neverRevokes_recorder]
  obtain ⟨events, isTraversal, -, givenUp, -, -⟩ := goes classUnit {} rfl
  obtain ⟨_, -, -, -, -, neverRevoked⟩ := goes classUnit { cancelled := true } rfl
  obtain ⟨earlier, isMet, isGivenUp⟩ := givenUp isCancelled
  exact ⟨_, registered, isCancelled, by decide +kernel, by decide +kernel,
    ⟨events, earlier, isTraversal, isMet, isGivenUp⟩, keep, (neverRevoked keep).1 rfl rfl⟩

end Registration

end JavaInspect
