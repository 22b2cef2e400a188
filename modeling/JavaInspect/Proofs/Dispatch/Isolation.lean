import JavaInspect.Proofs.Dispatch.Solo
import Mathlib.Algebra.BigOperators.Fin

/-!
# Isolation

When a detector is called depends on its registration alone, and what its calls come to on its
solo. So its findings and its failure are the same in the company of others as alone, as long
as the dispatch is not given up; and who is not given up in company is not given up alone.
-/

namespace JavaInspect

namespace Dispatcher

/-- What a finished dispatch shows of a rule: its findings, and whether its detector failed. -/
structure Shows (finished : Dispatcher) (key : RuleKey) (found : List Finding) (failed : Bool) :
    Prop where
  findings : ∃ all, finished.findings = .ok all ∧ all.filter (·.rule = key) = found
  faulted : key ∈ finished.faultedRules ↔ failed = true

end Dispatcher

namespace Registration

/-! ## Dispatches in company -/

/-- A detector is registered in a slot under a key that no other one has, and all detectors
share no more than the semantic model and the wish for the end of the traversal. -/
structure Hosts (registrations : List Registration) (unit : SourceUnit)
    (registration : Registration) (slot : Fin registrations.length) : Prop where
  here : registrations.get slot = registration
  ownKey : ∀ other, other ≠ slot →
    (detectorAt registrations other).key ≠ registration.detector.key
  contained : ∀ other, (detectorAt registrations other).Contained unit

/-- The moments at which a detector is called, as often as it is called. -/
def ownMoments (registration : Registration) (tree : Tree) (moments : List Moment) :
    List Moment :=
  moments.flatMap fun moment => List.replicate (registration.timesAt tree moment) moment

/-- What the calls of a detector come to in a traversal with the given events, if it replies as
given. -/
def solo (registration : Registration) (unit : SourceUnit)
    (reply : Moment → registration.detector.Memory → Reply registration.detector.Memory)
    (events : List WalkEvent) : List Outcome :=
  Solo.outcomes registration.detector.key reply (some registration.detector.blank)
    (registration.ownMoments unit.tree (Moment.ofEvents events))

/-- The slot of the only registration. -/
abbrev onlySlot {registration : Registration} : Fin [registration].length := ⟨0, Nat.one_pos⟩

theorem eq_onlySlot {registration : Registration} (slot : Fin [registration].length) :
    slot = onlySlot :=
  Fin.ext (Nat.lt_one_iff.1 slot.isLt)

variable {registrations : List Registration} {unit : SourceUnit} {registration : Registration}
  {slot : Fin registrations.length} {before after : Session} {events : List WalkEvent}
  {finished : Dispatcher}

theorem count_calledAt (tree : Tree) (moment : Moment) (slot : Fin registrations.length) :
    (calledAt registrations tree moment).count slot =
      (registrations.get slot).timesAt tree moment := by
  simp [calledAt, calledAmong, List.count_flatMap, List.count_replicate, Function.comp_def,
    ← Fin.sum_univ_def]

/-- When a detector is called does not depend on the others. -/
theorem momentsOf_callsAt (tree : Tree) (moments : List Moment)
    (slot : Fin registrations.length) :
    Stage.momentsOf (callsAt registrations tree moments) slot =
      (registrations.get slot).ownMoments tree moments := by
  simp only [Stage.momentsOf, callsAt, ownMoments, List.filter_flatMap, List.map_flatMap]
  apply List.flatMap_congr
  intro moment _
  rw [List.filter_map, List.map_map, ← count_calledAt]
  simp [Function.comp_def, List.filter_beq]

namespace Hosts

/-- A detector that is registered alone is registered under a key of its own. -/
theorem alone (contained : registration.detector.Contained unit) :
    Hosts [registration] unit registration onlySlot where
  here := rfl
  ownKey other apart := absurd (eq_onlySlot other) apart
  contained other := eq_onlySlot other ▸ contained

variable (hosts : Hosts registrations unit registration slot)
  {reply : Moment → registration.detector.Memory → Reply registration.detector.Memory}
  (replies : registration.detector.RepliesBy unit reply)
  (requested : before.cache.Requested unit.table)

include hosts

theorem rule_eq_iff {turn : Turn registrations.length} {finding : Finding}
    (member : turn ∈ (performance registrations unit before events).1)
    (reported : finding ∈ turn.reports) :
    finding.rule = registration.detector.key ↔ turn.slot = slot := by
  rw [Stage.rule_of_reported member reported]
  constructor
  · intro same
    by_contra apart
    exact hosts.ownKey turn.slot apart same
  · intro same
    rw [same, detectorAt, hosts.here]

/-- The rule of the detector is among those that failed exactly if one of its calls failed. -/
theorem mem_faultedRules_iff
    (conducted : Conducted registrations unit before events finished after) :
    registration.detector.key ∈ finished.faultedRules ↔
      Turn.anyFails (performance registrations unit before events).1 slot = true := by
  simp only [Dispatcher.faultedRules, List.mem_eraseDups, conducted.slots, List.mem_map,
    List.mem_filter, List.mem_ofFn]
  constructor
  · rintro ⟨_, ⟨⟨other, rfl⟩, failed⟩, same⟩
    by_cases apart : other = slot
    · exact apart ▸ failed
    · exact absurd same (hosts.ownKey other apart)
  · intro failed
    exact ⟨_, ⟨⟨slot, rfl⟩, failed⟩, congrArg (·.detector.key) hosts.here⟩

include replies requested

/-- In a dispatch that is completed, a detector performs its solo. -/
theorem outcomesOf_performance :
    Turn.outcomesOf (performance registrations unit before events).1 slot =
      registration.solo unit reply events := by
  obtain rfl := hosts.here
  have only := fun other => (hosts.contained other).onlyConsults
  rw [performance, Stage.outcomesOf_play replies only (Stage.requested_opening requested), solo,
    ← momentsOf_callsAt]
  rfl

theorem shows (conducted : Conducted registrations unit before events finished after) :
    finished.Shows registration.detector.key
      (Outcome.found (registration.solo unit reply events))
      ((registration.solo unit reply events).any Outcome.isFailure) where
  findings := by
    refine ⟨_, conducted.findings, ?_⟩
    rw [← hosts.outcomesOf_performance replies requested]
    exact Turn.filter_findings fun turn member finding => hosts.rule_eq_iff member
  faulted := by
    rw [← hosts.outcomesOf_performance replies requested, Turn.any_isFailure_outcomesOf]
    exact hosts.mem_faultedRules_iff conducted

/-- A wish of the solo is heard in company. -/
theorem wishedAfter_of_cancels
    (cancels : Solo.cancels reply (some registration.detector.blank)
      (registration.ownMoments unit.tree (.start :: events.map .ofEvent)) = true) :
    WishedAfter registrations unit before events := by
  obtain rfl := hosts.here
  have only := fun other => (hosts.contained other).onlyConsults
  have keep := fun other => (hosts.contained other).neverRevokes
  apply Stage.cancelled_play_of_cancels replies only (Stage.requested_opening requested) keep
  rw [momentsOf_callsAt]
  exact cancels

end Hosts

theorem cancels_of_wishedAfter_alone (contained : registration.detector.Contained unit)
    {reply : Moment → registration.detector.Memory → Reply registration.detector.Memory}
    (replies : registration.detector.RepliesBy unit reply)
    (requested : before.cache.Requested unit.table) (unwished : before.cancelled = false)
    (wished : WishedAfter [registration] unit before events) :
    Solo.cancels reply (some registration.detector.blank)
      (registration.ownMoments unit.tree (.start :: events.map .ofEvent)) = true := by
  have only := fun other => ((Hosts.alone contained).contained other).onlyConsults
  have ownCalls : Stage.momentsOf (callsAt [registration] unit.tree
      (.start :: events.map .ofEvent)) onlySlot =
      registration.ownMoments unit.tree (.start :: events.map .ofEvent) :=
    momentsOf_callsAt _ _ onlySlot
  rw [← ownCalls]
  exact Stage.cancels_of_cancelled_play replies only (Stage.requested_opening requested)
    (fun entry _ => eq_onlySlot entry.2) unwished wished

/-- For every unit whose owners and supertypes do not run in circles, every detector whose
replies are concluded from answers of the semantic model, and any two lists of registrations
that hold it under a key of its own: if neither dispatch is given up, the findings of its key
and its failure are the same in both and the same as alone. -/
theorem isolated {unit : SourceUnit} (tableBuilt : unit.table.Built)
    (owners : Acyclic unit.table.Owns) (supertypes : Acyclic unit.table.Above)
    {registration : Registration} (impartial : registration.detector.Impartial unit)
    {first second : List Registration} {inFirst : Fin first.length} {inSecond : Fin second.length}
    (firstHosts : Hosts first unit registration inFirst)
    (secondHosts : Hosts second unit registration inSecond) (cancellable : Bool) :
    ∃ withFirst withSecond alone,
      applyAll { cancellable } first = (none, withFirst) ∧
      applyAll { cancellable } second = (none, withSecond) ∧
      applyAll { cancellable } [registration] = (none, alone) ∧
      ∀ beforeFirst beforeSecond beforeAlone : Session,
        beforeFirst.cache.Requested unit.table → beforeSecond.cache.Requested unit.table →
        beforeAlone.cache.Requested unit.table →
        (cancellable = true → beforeAlone.cancelled = false) →
        (withFirst.run unit beforeFirst).1 ≠ some (.cancelled unit.path) →
        (withSecond.run unit beforeSecond).1 ≠ some (.cancelled unit.path) →
          (alone.run unit beforeAlone).1 = none ∧ ∃ found failed,
            (withFirst.run unit beforeFirst).2.1.Shows registration.detector.key found failed ∧
            (withSecond.run unit beforeSecond).2.1.Shows registration.detector.key found failed ∧
            (alone.run unit beforeAlone).2.1.Shows registration.detector.key found failed := by
  have arraysEnd := tableBuilt.wellLinked.arraysEnd
  have orderly := Table.orderly_of_acyclic owners supertypes
  obtain ⟨reply, replies⟩ := impartial.replies arraysEnd orderly
  have contained : registration.detector.Contained unit := by
    rw [← firstHosts.here]
    exact firstHosts.contained inFirst
  have aloneHosts := Hosts.alone contained
  refine ⟨_, _, _, applyAll_fresh _ _, applyAll_fresh _ _, applyAll_fresh _ _, ?_⟩
  intro beforeFirst beforeSecond beforeAlone firstRequested secondRequested aloneRequested unwished
    firstGoes secondGoes
  rcases @run_cases first cancellable unit beforeFirst with
    ⟨_, _, _, isCancelled, _⟩ | ⟨never, _, _, firstConducted⟩
  · exact absurd isCancelled firstGoes
  rcases @run_cases second cancellable unit beforeSecond with
    ⟨_, _, _, isCancelled, _⟩ | ⟨_, _, _, secondConducted⟩
  · exact absurd isCancelled secondGoes
  rcases @run_cases [registration] cancellable unit beforeAlone with
    ⟨met, can, isMet, _, _⟩ | ⟨_, completed, _, aloneConducted⟩
  · -- The wish that would end the dispatch alone is met in company, too.
    obtain ⟨node, later, split⟩ := isMet.entry
    have cancels := cancels_of_wishedAfter_alone contained replies aloneRequested
      (unwished can) isMet.wished
    exact absurd (firstHosts.wishedAfter_of_cancels replies firstRequested cancels)
      (never can met node later split)
  · exact ⟨completed, _, _, firstHosts.shows replies firstRequested firstConducted,
      secondHosts.shows replies secondRequested secondConducted,
      aloneHosts.shows replies aloneRequested aloneConducted⟩

end Registration

/-! ### A detector that asks for supertypes -/

/-- Reports at every node that it enters how many supertypes a type has, and how many nodes it
has entered before. -/
def Detector.census (name : String) (kinds : List NodeKind) (type : BindingId) : Detector :=
  { key := ⟨name⟩
    kinds
    Memory := Nat
    blank := 0
    call := fun unit moment =>
      match moment with
      | .enter node => do
          let answer ← Visit.query ((Request.superTypes type).ask unit.table)
          let entered := (← get).memory
          modify fun call => { call with memory := entered + 1 }
          Visit.report (unit.tree.span node) (message answer entered)
      | _ => pure () }
where
  message (answer : Answer) (entered : Nat) : String :=
    let count :=
      match answer with
      | .types views => views.length
      | _ => 0
    toString count ++ " supertypes, after " ++ toString entered

namespace Detector

variable {name : String} {kinds : List NodeKind} (unit : SourceUnit)

theorem impartial_census {type : BindingId} : (census name kinds type).Impartial unit := by
  let inquiry (moment : Moment) (entered : Nat) : Inquiry (Reply Nat) :=
    match moment with
    | .enter node => .ask (.superTypes type) fun answer =>
        .conclude { memory := entered + 1
                    reports := [{ span := unit.tree.span node
                                  message := census.message answer entered }] }
    | _ => .conclude { memory := entered }
  refine ⟨inquiry, ?_⟩
  intro moment before _ fresh
  obtain ⟨memory, session, reports⟩ := before
  subst fresh
  cases moment with
  | enter node => exact ⟨rfl, rfl, rfl, (Bool.or_false _).symm⟩
  | start | exit | stop => exact ⟨rfl, rfl, rfl, (Bool.or_false _).symm⟩

theorem contained_census {type : BindingId} : (census name kinds type).Contained unit where
  onlyConsults moment before requested := by
    cases moment with
    | enter node => exact ⟨_, Cache.Consulted.refl.ask (.superTypes type)⟩
    | start | exit | stop => exact ⟨[], .refl⟩
  neverRevokes moment before wished := by
    cases moment <;> exact wished

theorem contained_failing : (failing name kinds).Contained unit where
  onlyConsults moment before _ := ⟨[], by cases moment <;> exact .refl⟩
  neverRevokes moment before wished := by
    cases moment <;> exact wished

end Detector

namespace Registration

/-- The class with one method, and the channels behind it. -/
def channelUnit : SourceUnit := { classUnit with table := Table.channels }

/-- A detector that asks for supertypes. -/
def census : Registration := .forKinds (.census "C" [.class, .method] ⟨6⟩)

/-- The detector behind one that fails at the class. -/
def censusBehindFailure : List Registration :=
  [.forKinds (.failing "F" [.class]), census]

/-- The detector before one that asks for the same and one that fails at the method. -/
def censusInCrowd : List Registration :=
  [census, .forKinds (.census "D" [.method, .class] ⟨6⟩), .forKinds (.failing "F" [.method])]

theorem isolated_census : ∃ withFirst withSecond alone,
    applyAll { cancellable := true } censusBehindFailure = (none, withFirst) ∧
      applyAll { cancellable := true } censusInCrowd = (none, withSecond) ∧
      applyAll { cancellable := true } [census] = (none, alone) ∧
      (alone.run channelUnit {}).1 = none ∧ ∃ found failed,
        (withFirst.run channelUnit {}).2.1.Shows ⟨"C"⟩ found failed ∧
        (withSecond.run channelUnit {}).2.1.Shows ⟨"C"⟩ found failed ∧
        (alone.run channelUnit {}).2.1.Shows ⟨"C"⟩ found failed ∧
        found.map (·.message) = ["5 supertypes, after 0", "5 supertypes, after 1"] := by
  have ofUnit : channelUnit.table = Table.channels := by rw [channelUnit]
  have tableBuilt : Table.channels.Built := Table.built_iff.2 ⟨Table.channelCalls, rfl⟩
  have owners := Table.acyclic_owns_channels
  have supertypes := Table.acyclic_above_channels
  rw [← ofUnit] at tableBuilt owners supertypes
  have impartial : census.detector.Impartial channelUnit := Detector.impartial_census channelUnit
  have behindFailure : Hosts censusBehindFailure channelUnit census ⟨1, by decide⟩ :=
    { here := rfl
      ownKey := by decide
      contained := fun
        | ⟨0, _⟩ => Detector.contained_failing channelUnit
        | ⟨1, _⟩ => Detector.contained_census channelUnit }
  have inCrowd : Hosts censusInCrowd channelUnit census ⟨0, by decide⟩ :=
    { here := rfl
      ownKey := by decide
      contained := fun
        | ⟨0, _⟩ | ⟨1, _⟩ => Detector.contained_census channelUnit
        | ⟨2, _⟩ => Detector.contained_failing channelUnit }
  obtain ⟨withFirst, withSecond, alone, first, second, only, same⟩ :=
    isolated tableBuilt owners supertypes impartial behindFailure inCrowd true
  obtain rfl := (Prod.mk.inj ((applyAll_fresh _ _).symm.trans first)).2
  obtain rfl := (Prod.mk.inj ((applyAll_fresh _ _).symm.trans second)).2
  obtain rfl := (Prod.mk.inj ((applyAll_fresh _ _).symm.trans only)).2
  have firstGoes : ((dispatcher censusBehindFailure true).run channelUnit {}).1 ≠
      some (.cancelled channelUnit.path) := by decide +kernel
  have secondGoes : ((dispatcher censusInCrowd true).run channelUnit {}).1 ≠
      some (.cancelled channelUnit.path) := by decide +kernel
  obtain ⟨completed, found, failed, inFirst, inSecond, byItself⟩ :=
    same {} {} {} .empty .empty .empty (fun _ => rfl) firstGoes secondGoes
  refine ⟨_, _, _, first, second, only, completed, found, failed, inFirst, inSecond, byItself, ?_⟩
  rcases @run_cases [census] true channelUnit {} with
    ⟨_, _, _, isCancelled, _⟩ | ⟨_, _, _, conducted⟩
  · rw [completed] at isCancelled
    cases isCancelled
  · obtain ⟨all, isAll, rfl⟩ := byItself.findings
    obtain rfl := Except.ok.inj (conducted.findings.symm.trans isAll)
    decide +kernel

end Registration

end JavaInspect
