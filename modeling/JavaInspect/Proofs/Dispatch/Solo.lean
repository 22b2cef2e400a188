import JavaInspect.Proofs.Dispatch.Cancellation
import JavaInspect.Proofs.Semantics.Consultations

/-!
# Solos

A detector whose calls are concluded from what it remembers and from answers to requests has
a solo: what its calls come to is determined by the unit, without a cache, a session or
others. Whoever else is called between its calls, and whatever they ask, report or fail at,
the detector performs its solo.
-/

namespace JavaInspect

/-! ## Detectors that consult the semantic model -/

/-- What a call of a detector changes in the cache, it changes by consultations. -/
def Detector.OnlyConsults (detector : Detector) (unit : SourceUnit) : Prop :=
  ∀ (moment : Moment) (before : Call detector.Memory),
    before.session.cache.Requested unit.table →
      ∃ made, before.session.cache.Consulted unit.table made
        ((detector.call unit moment).run.run before).2.session.cache

namespace Stage

variable {count : Nat} {detectors : Fin count → Detector}

/-- The consultations at the turns of a plan, in their order. -/
inductive Consults (unit : SourceUnit) :
    Stage detectors → List (Moment × Fin count) → List Consultation → Prop where
  | nil (stage : Stage detectors) : Consults unit stage [] []
  | cons {stage : Stage detectors} {moment : Moment} {slot : Fin count}
      {rest : List (Moment × Fin count)} {made more : List Consultation}
      (here : stage.session.cache.Consulted unit.table made
        (stage.take unit moment slot).2.session.cache)
      (later : Consults unit (stage.take unit moment slot).2 rest more) :
      Consults unit stage ((moment, slot) :: rest) (made ++ more)

variable {unit : SourceUnit} {stage : Stage detectors} {moment : Moment} {slot : Fin count}
  {plan : List (Moment × Fin count)} {made : List Consultation}

theorem Consults.consulted (consults : stage.Consults unit plan made) :
    stage.session.cache.Consulted unit.table made (stage.play unit plan).2.session.cache := by
  induction consults with
  | nil stage => exact .refl
  | cons here _ ih => exact here.trans ih

theorem requested_opening {session : Session} (requested : session.cache.Requested unit.table) :
    (Stage.opening session : Stage detectors).session.cache.Requested unit.table :=
  requested

section OnlyConsults

variable (only : ∀ slot, (detectors slot).OnlyConsults unit)
  (requested : stage.session.cache.Requested unit.table)

include only requested

theorem consulted_take (moment : Moment) (slot : Fin count) :
    ∃ made, stage.session.cache.Consulted unit.table made
      (stage.take unit moment slot).2.session.cache := by
  rw [session_take]
  split
  · exact ⟨[], .refl⟩
  · exact only slot moment { memory := stage.memory slot, session := stage.session } requested

theorem requested_take (moment : Moment) (slot : Fin count) :
    (stage.take unit moment slot).2.session.cache.Requested unit.table := by
  rcases consulted_take only requested moment slot with ⟨made, consulted⟩
  exact requested.later consulted

theorem exists_consults (plan : List (Moment × Fin count)) :
    ∃ made, stage.Consults unit plan made := by
  induction plan generalizing stage with
  | nil => exact ⟨[], .nil stage⟩
  | cons entry rest ih =>
      rcases consulted_take only requested entry.1 entry.2 with ⟨made, here⟩
      rcases ih (requested_take only requested entry.1 entry.2) with ⟨more, later⟩
      exact ⟨made ++ more, .cons here later⟩

end OnlyConsults

end Stage

/-! ## Replies -/

/-- What a call of a detector comes to, apart from the cache and the log. -/
structure Reply (Memory : Type) where
  result : Except String Unit := .ok ()
  memory : Memory
  reports : List Report := []
  /-- Whether the end of the traversal is wished for. -/
  cancels : Bool := false

namespace Reply

variable {Memory : Type} (reply : Reply Memory)

/-- What the turn comes to at which a detector with the given key gives the reply. -/
def outcome (key : RuleKey) : Outcome :=
  match reply.result with
  | .ok () => .reported (reply.reports.map (·.finding key))
  | .error reason => .failed reason

/-- What the detector remembers for its next call; after a failure there is none. -/
def left : Option Memory :=
  match reply.result with
  | .ok () => some reply.memory
  | .error _ => none

/-- A call comes to a reply. -/
structure Given (before : Call Memory) (after : Except String Unit × Call Memory) : Prop where
  result : after.1 = reply.result
  memory : after.2.memory = reply.memory
  reports : after.2.reports = reply.reports
  cancelled : after.2.session.cancelled = (before.session.cancelled || reply.cancels)

end Reply

namespace Detector

variable (detector : Detector) (unit : SourceUnit)

/-- What a detector shares with others it changes only by consulting the semantic model and
by wishing for the end of the traversal. -/
structure Contained : Prop where
  onlyConsults : detector.OnlyConsults unit
  neverRevokes : detector.NeverRevokes unit

/-- The replies of a detector depend only on the moment and on what it remembers. -/
def RepliesBy (reply : Moment → detector.Memory → Reply detector.Memory) : Prop :=
  ∀ (moment : Moment) (before : Call detector.Memory),
    before.session.cache.Requested unit.table → before.reports = [] →
      (reply moment before.memory).Given before ((detector.call unit moment).run.run before)

/-- The replies of a detector are concluded from what it remembers and from answers of the
semantic model, which it asks through the shared cache. -/
def Impartial : Prop :=
  ∃ inquiry : Moment → detector.Memory → Inquiry (Reply detector.Memory),
    ∀ (moment : Moment) (before : Call detector.Memory),
      before.session.cache.Requested unit.table → before.reports = [] →
        (((inquiry moment before.memory).run unit.table before.session.cache).1).Given before
          ((detector.call unit moment).run.run before)

variable {detector unit}

theorem Impartial.replies (arraysEnd : unit.table.ArraysEnd) (orderly : unit.table.Orderly)
    (impartial : detector.Impartial unit) : ∃ reply, detector.RepliesBy unit reply := by
  rcases impartial with ⟨inquiry, given⟩
  refine ⟨fun moment memory => (inquiry moment memory).conclusion unit.table, ?_⟩
  intro moment before requested fresh
  show ((inquiry moment before.memory).conclusion unit.table).Given before _
  rw [← (inquiry moment before.memory).run_eq_conclusion arraysEnd orderly requested]
  exact given moment before requested fresh

end Detector

/-! ## Solos -/

namespace Solo

variable {Memory : Type} (key : RuleKey) (reply : Moment → Memory → Reply Memory)

/-- What the calls of a detector come to, if it is called at some moments and replies as
given. A detector that has failed remembers nothing and is not called. -/
def outcomes : Option Memory → List Moment → List Outcome
  | _, [] => []
  | none, _ :: rest => .skipped :: outcomes none rest
  | some memory, moment :: rest =>
      (reply moment memory).outcome key :: outcomes (reply moment memory).left rest

/-- Whether the end of the traversal is wished for at one of the calls. -/
def cancels : Option Memory → List Moment → Bool
  | _, [] => false
  | none, _ :: _ => false
  | some memory, moment :: rest =>
      (reply moment memory).cancels || cancels (reply moment memory).left rest

theorem cancels_none {moments : List Moment} : cancels reply none moments = false := by
  cases moments <;> rfl

end Solo

namespace Outcome

/-- What was reported, unless the call failed. -/
def reports : Outcome → List Finding
  | .reported findings => findings
  | .skipped | .failed _ => []

/-- Whether the call failed. -/
def isFailure : Outcome → Bool
  | .failed _ => true
  | .skipped | .reported _ => false

/-- What is found of a detector whose turns came to some outcomes. -/
def found (outcomes : List Outcome) : List Finding :=
  if outcomes.any isFailure then [] else outcomes.flatMap reports

end Outcome

namespace Turn

variable {count : Nat} {turns : List (Turn count)} {slot : Fin count}

/-- What the turns of one detector have come to. -/
def outcomesOf (turns : List (Turn count)) (slot : Fin count) : List Outcome :=
  (turns.filter (·.slot == slot)).map (·.outcome)

theorem outcomesOf_cons_self {turn : Turn count} {rest : List (Turn count)}
    (own : turn.slot = slot) :
    outcomesOf (turn :: rest) slot = turn.outcome :: outcomesOf rest slot := by
  simp [outcomesOf, own]

theorem outcomesOf_cons_of_ne {turn : Turn count} {rest : List (Turn count)}
    (apart : turn.slot ≠ slot) : outcomesOf (turn :: rest) slot = outcomesOf rest slot := by
  simp [outcomesOf, apart]

theorem any_isFailure_outcomesOf :
    (outcomesOf turns slot).any Outcome.isFailure = anyFails turns slot := by
  rw [outcomesOf, List.any_map, List.any_filter]
  rfl

/-- If a rule is reported in the turns of one slot alone, its findings are theirs. -/
theorem filter_flatMap_reports {key : RuleKey} (considered : Turn count → Bool)
    (own : ∀ turn ∈ turns, ∀ finding ∈ turn.reports, finding.rule = key ↔ turn.slot = slot) :
    ((turns.filter considered).flatMap reports).filter (·.rule = key) =
      (turns.filter fun turn => turn.slot == slot && considered turn).flatMap reports := by
  induction turns with
  | nil => rfl
  | cons turn rest ih =>
      have rules := own turn List.mem_cons_self
      have later := ih fun other member => own other (List.mem_cons_of_mem _ member)
      have here : turn.reports.filter (·.rule = key) =
          if turn.slot = slot then turn.reports else [] := by
        split
        case isTrue same =>
          exact List.filter_eq_self.2 fun finding reported =>
            decide_eq_true ((rules finding reported).2 same)
        case isFalse apart =>
          exact List.filter_eq_nil_iff.2 fun finding reported same =>
            apart ((rules finding reported).1 (of_decide_eq_true same))
      cases isConsidered : considered turn with
      | false => simp [isConsidered, later]
      | true =>
          rw [List.filter_cons_of_pos isConsidered, List.flatMap_cons, List.filter_append, here,
            later]
          by_cases same : turn.slot = slot <;> simp [same, isConsidered]

/-- The findings of a rule that one slot alone reports are those of the slot. -/
theorem filter_findings {key : RuleKey}
    (own : ∀ turn ∈ turns, ∀ finding ∈ turn.reports, finding.rule = key ↔ turn.slot = slot) :
    (findings turns).filter (·.rule = key) = Outcome.found (outcomesOf turns slot) := by
  have considered : (turns.filter fun turn => turn.slot == slot && !anyFails turns turn.slot) =
      turns.filter fun turn => turn.slot == slot && !anyFails turns slot := by
    apply List.filter_congr
    intro turn _
    by_cases same : turn.slot = slot
    · rw [same]
    · rw [beq_false_of_ne same, Bool.false_and, Bool.false_and]
  rw [findings, filter_flatMap_reports _ own, considered, Outcome.found, any_isFailure_outcomesOf]
  cases anyFails turns slot with
  | true => simp
  | false =>
      rw [outcomesOf, List.flatMap_map]
      simp only [Bool.not_false, Bool.and_true, Bool.false_eq_true, if_false]
      rfl

end Turn

/-! ## Turns in company -/

namespace Stage

variable {count : Nat}

/-- The moments at which a plan calls one detector. -/
def momentsOf (plan : List (Moment × Fin count)) (slot : Fin count) : List Moment :=
  (plan.filter (·.2 == slot)).map (·.1)

theorem momentsOf_cons_self {moment : Moment} {slot : Fin count}
    {rest : List (Moment × Fin count)} :
    momentsOf ((moment, slot) :: rest) slot = moment :: momentsOf rest slot := by
  simp [momentsOf]

theorem momentsOf_cons_of_ne {moment : Moment} {slot other : Fin count}
    {rest : List (Moment × Fin count)} (apart : other ≠ slot) :
    momentsOf ((moment, other) :: rest) slot = momentsOf rest slot := by
  simp [momentsOf, apart]

variable {detectors : Fin count → Detector} {unit : SourceUnit} {stage : Stage detectors}
  {moment : Moment} {slot other : Fin count} {plan : List (Moment × Fin count)}

/-- What a detector remembers, unless it has failed. -/
def standing (stage : Stage detectors) (slot : Fin count) : Option (detectors slot).Memory :=
  if stage.failed slot then none else some (stage.memory slot)

/-- The turn of another detector changes nothing of what a detector remembers. -/
theorem standing_take_of_ne (apart : other ≠ slot) :
    (stage.take unit moment other).2.standing slot = stage.standing slot := by
  have memory : (stage.take unit moment other).2.memory slot = stage.memory slot := by
    unfold take
    split
    · rfl
    · dsimp only
      split <;> exact Function.update_of_ne (Ne.symm apart) _ _
  rw [standing, standing, failed_take, memory, beq_false_of_ne apart, Bool.false_and, Bool.or_false]

theorem take_of_standing_none (fallen : stage.standing slot = none) :
    stage.take unit moment slot = ({ moment, slot, outcome := .skipped }, stage) := by
  apply take_of_failed
  by_contra sound
  rw [standing, if_neg sound] at fallen
  cases fallen

/-- What is reported at a turn carries the key of its detector. -/
theorem rule_of_reported {turn : Turn count} (member : turn ∈ (stage.play unit plan).1)
    {finding : Finding} (reported : finding ∈ turn.reports) :
    finding.rule = (detectors turn.slot).key := by
  induction plan generalizing stage with
  | nil => simp [play] at member
  | cons entry rest ih =>
      rw [play_cons] at member
      rcases List.mem_cons.1 member with rfl | later
      · rw [slot_take]
        unfold take at reported
        split at reported
        · simp [Turn.reports] at reported
        · dsimp only at reported
          split at reported
          · obtain ⟨report, -, rfl⟩ := List.mem_map.1 reported
            rfl
          · simp [Turn.reports] at reported
      · exact ih later

section Replies

variable {reply : Moment → (detectors slot).Memory → Reply (detectors slot).Memory}
  (replies : (detectors slot).RepliesBy unit reply)
  (only : ∀ slot, (detectors slot).OnlyConsults unit)
  (requested : stage.session.cache.Requested unit.table)

include replies requested

/-- At its turn a detector gives its reply. -/
theorem take_of_standing {memory : (detectors slot).Memory}
    (stands : stage.standing slot = some memory) :
    (stage.take unit moment slot).1.outcome =
        (reply moment memory).outcome (detectors slot).key ∧
      (stage.take unit moment slot).2.standing slot = (reply moment memory).left ∧
      (stage.take unit moment slot).2.session.cancelled =
        (stage.session.cancelled || (reply moment memory).cancels) := by
  have sound : stage.failed slot = false := by
    cases failed : stage.failed slot with
    | false => rfl
    | true => simp [standing, failed] at stands
  obtain rfl : stage.memory slot = memory := by simpa [standing, sound] using stands
  have given := replies moment { memory := stage.memory slot, session := stage.session } requested
    rfl
  rcases called : stage.call unit moment slot with ⟨result, call⟩
  have isCall : ((detectors slot).call unit moment).run.run
    { memory := stage.memory slot, session := stage.session } = (result, call) := called
  rw [isCall] at given
  have isResult : (reply moment (stage.memory slot)).result = result := given.result.symm
  cases result with
  | ok done =>
      rw [take_of_reported sound called, Reply.outcome, Reply.left, isResult]
      refine ⟨?_, ?_, given.cancelled⟩
      · exact congrArg (fun reports : List Report =>
          Outcome.reported (reports.map (·.finding (detectors slot).key))) given.reports
      · simpa [standing, sound] using given.memory
  | error reason =>
      rw [take_of_error sound called, Reply.outcome, Reply.left, isResult]
      exact ⟨rfl, by simp [standing], given.cancelled⟩

include only

/-- In company a detector performs its solo. -/
theorem outcomesOf_play :
    Turn.outcomesOf (stage.play unit plan).1 slot =
      Solo.outcomes (detectors slot).key reply (stage.standing slot) (momentsOf plan slot) := by
  induction plan generalizing stage with
  | nil => simp [play, Turn.outcomesOf, momentsOf, Solo.outcomes]
  | cons entry rest ih =>
      obtain ⟨moment, turned⟩ := entry
      have later := ih (requested_take only requested moment turned)
      rw [play_cons]
      by_cases own : turned = slot
      · subst own
        rw [Turn.outcomesOf_cons_self slot_take, momentsOf_cons_self, later]
        cases stands : stage.standing turned with
        | none => rw [take_of_standing_none stands, stands, Solo.outcomes]
        | some memory =>
            obtain ⟨outcome, left, -⟩ := take_of_standing replies requested stands
            rw [outcome, left, Solo.outcomes]
      · have apart : (stage.take unit moment turned).1.slot ≠ slot := by rwa [slot_take]
        rw [Turn.outcomesOf_cons_of_ne apart, momentsOf_cons_of_ne own, later,
          standing_take_of_ne own]

/-- A wish of its solo is heard in company. -/
theorem cancelled_play_of_cancels (keep : ∀ slot, (detectors slot).NeverRevokes unit)
    (wished : Solo.cancels reply (stage.standing slot) (momentsOf plan slot) = true) :
    (stage.play unit plan).2.session.cancelled = true := by
  induction plan generalizing stage with
  | nil => simp [momentsOf, Solo.cancels] at wished
  | cons entry rest ih =>
      obtain ⟨moment, turned⟩ := entry
      have later := ih (requested_take only requested moment turned)
      rw [play_cons]
      by_cases own : turned = slot
      · subst own
        rw [momentsOf_cons_self] at wished
        cases stands : stage.standing turned with
        | none => simp [stands, Solo.cancels_none] at wished
        | some memory =>
            obtain ⟨-, left, cancelled⟩ := take_of_standing replies requested stands
            rw [stands, Solo.cancels, Bool.or_eq_true] at wished
            rcases wished with here | afterwards
            · apply cancelled_play keep
              rw [cancelled, here, Bool.or_true]
            · exact later (left ▸ afterwards)
      · rw [momentsOf_cons_of_ne own] at wished
        exact later (by rwa [standing_take_of_ne own])

/-- Alone, only a wish of its solo is heard. -/
theorem cancels_of_cancelled_play (alone : ∀ entry ∈ plan, entry.2 = slot)
    (unwished : stage.session.cancelled = false)
    (wished : (stage.play unit plan).2.session.cancelled = true) :
    Solo.cancels reply (stage.standing slot) (momentsOf plan slot) = true := by
  induction plan generalizing stage with
  | nil => exact absurd wished (by simp [play, unwished])
  | cons entry rest ih =>
      obtain ⟨moment, turned⟩ := entry
      obtain rfl : turned = slot := alone _ List.mem_cons_self
      have aloneLater : ∀ entry ∈ rest, entry.2 = turned :=
        fun entry member => alone entry (List.mem_cons_of_mem _ member)
      have later := ih (requested_take only requested moment turned) aloneLater
      rw [momentsOf_cons_self]
      rw [play_cons] at wished
      cases stands : stage.standing turned with
      | none =>
          rw [take_of_standing_none stands] at wished later
          have cancels := later unwished wished
          rw [stands, Solo.cancels_none] at cancels
          cases cancels
      | some memory =>
          obtain ⟨-, left, cancelled⟩ := take_of_standing replies requested stands
          rw [Solo.cancels, Bool.or_eq_true]
          cases here : (reply moment memory).cancels with
          | true => exact .inl rfl
          | false =>
              rw [unwished, here, Bool.or_false] at cancelled
              exact .inr (left ▸ later cancelled wished)

end Replies

end Stage

end JavaInspect
