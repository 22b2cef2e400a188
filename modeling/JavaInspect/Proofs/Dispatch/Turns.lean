import JavaInspect.Detector
import Mathlib.Logic.Function.Basic

/-!
# Turns

Detectors that share a session take turns. At its turn a detector is called with the memory
its last call has left, unless one of its calls has failed; what a turn has come to is
kept. Nothing is said here of numbers, of tables or of dropping findings: this is the
account that a dispatch is held to.
-/

namespace JavaInspect

/-- What a turn has come to. -/
inductive Outcome where
  /-- The detector had failed before and was not called. -/
  | skipped
  | reported (findings : List Finding)
  | failed (reason : String)
deriving DecidableEq, Repr

/-- The turn of one of `count` detectors at a moment. -/
structure Turn (count : Nat) where
  moment : Moment
  slot : Fin count
  outcome : Outcome
deriving DecidableEq, Repr

namespace Turn

variable {count : Nat}

/-- Whose turn it was, and when. -/
def place (turn : Turn count) : Moment × Fin count := (turn.moment, turn.slot)

/-- What was reported at a turn that did not fail. -/
def reports (turn : Turn count) : List Finding :=
  match turn.outcome with
  | .reported findings => findings
  | .skipped | .failed _ => []

/-- Whether the detector was called and failed. -/
def fails (turn : Turn count) : Bool :=
  match turn.outcome with
  | .failed _ => true
  | .skipped | .reported _ => false

/-- Whether one of the turns of a detector failed. -/
def anyFails (turns : List (Turn count)) (slot : Fin count) : Bool :=
  turns.any fun turn => turn.slot == slot && turn.fails

/-- What the detectors have reported that never fail, in the order of their turns. -/
def findings (turns : List (Turn count)) : List Finding :=
  (turns.filter fun turn => !anyFails turns turn.slot).flatMap reports

@[simp] theorem anyFails_cons {turn : Turn count} {rest : List (Turn count)} {slot : Fin count} :
    anyFails (turn :: rest) slot = (turn.slot == slot && turn.fails || anyFails rest slot) := by
  simp [anyFails]

theorem anyFails_iff {turns : List (Turn count)} {slot : Fin count} :
    anyFails turns slot = true ↔ ∃ turn ∈ turns, turn.slot = slot ∧ turn.fails = true := by
  simp [anyFails]

end Turn

/-- The detectors between two turns. -/
structure Stage {count : Nat} (detectors : Fin count → Detector) where
  memory : (slot : Fin count) → (detectors slot).Memory
  /-- Whether a call of the detector has failed. -/
  failed : Fin count → Bool
  session : Session

namespace Stage

variable {count : Nat} {detectors : Fin count → Detector}

/-- The detectors before the first turn. -/
def opening (session : Session) : Stage detectors :=
  { memory := fun slot => (detectors slot).blank
    failed := fun _ => false
    session }

variable (unit : SourceUnit)

/-- The call of a detector at its turn. -/
def call (stage : Stage detectors) (moment : Moment) (slot : Fin count) :
    Except String Unit × Call (detectors slot).Memory :=
  ((detectors slot).call unit moment).run.run
    { memory := stage.memory slot, session := stage.session }

/-- One detector takes its turn. -/
def take (stage : Stage detectors) (moment : Moment) (slot : Fin count) :
    Turn count × Stage detectors :=
  if stage.failed slot then ({ moment, slot, outcome := .skipped }, stage)
  else
    let (outcome, call) := stage.call unit moment slot
    let stage :=
      { stage with
        memory := Function.update stage.memory slot call.memory
        session := call.session }
    match outcome with
    | .ok () =>
        ({ moment, slot, outcome := .reported (call.findings (detectors slot).key) }, stage)
    | .error reason =>
        ({ moment, slot, outcome := .failed reason },
          { stage with failed := Function.update stage.failed slot true })

/-- The detectors take their turns by a schedule. -/
def play (stage : Stage detectors) :
    List (Moment × Fin count) → List (Turn count) × Stage detectors
  | [] => ([], stage)
  | (moment, slot) :: rest =>
      let (turn, stage) := stage.take unit moment slot
      let (turns, stage) := stage.play rest
      (turn :: turns, stage)

variable {unit} {stage : Stage detectors} {moment : Moment} {slot other : Fin count}

theorem take_of_failed (failed : stage.failed slot = true) :
    stage.take unit moment slot = ({ moment, slot, outcome := .skipped }, stage) := by
  simp [take, failed]

theorem take_of_reported {call : Call (detectors slot).Memory} (sound : stage.failed slot = false)
    (called : stage.call unit moment slot = (.ok (), call)) :
    stage.take unit moment slot =
      ({ moment, slot, outcome := .reported (call.findings (detectors slot).key) },
        { stage with
          memory := Function.update stage.memory slot call.memory
          session := call.session }) := by
  simp [take, sound, called]

theorem take_of_error {call : Call (detectors slot).Memory} {reason : String}
    (sound : stage.failed slot = false)
    (called : stage.call unit moment slot = (.error reason, call)) :
    stage.take unit moment slot =
      ({ moment, slot, outcome := .failed reason },
        { memory := Function.update stage.memory slot call.memory
          failed := Function.update stage.failed slot true
          session := call.session }) := by
  simp [take, sound, called]

@[simp] theorem place_take : (stage.take unit moment slot).1.place = (moment, slot) := by
  unfold take
  split
  · rfl
  · split
    split <;> rfl

@[simp] theorem slot_take : (stage.take unit moment slot).1.slot = slot := by
  have place : (stage.take unit moment slot).1.place = (moment, slot) := place_take
  exact congrArg Prod.snd place

/-- A turn is skipped exactly if its detector has failed before. -/
theorem outcome_take_eq_skipped_iff :
    (stage.take unit moment slot).1.outcome = .skipped ↔ stage.failed slot = true := by
  unfold take
  split
  case isTrue failed => simp [failed]
  case isFalse sound =>
    split
    split <;> simp [sound]

/-- A turn makes no detector fail but its own, and that exactly if the call fails. -/
theorem failed_take :
    (stage.take unit moment slot).2.failed other =
      (stage.failed other || (slot == other && (stage.take unit moment slot).1.fails)) := by
  unfold take
  split
  case isTrue failed => simp [Turn.fails]
  case isFalse sound =>
    split
    split
    · simp [Turn.fails]
    · by_cases same : other = slot
      · subst same
        simp [Turn.fails]
      · simp [Turn.fails, same, Ne.symm same]

/-- What is shared is as the call has left it, also when it fails. -/
theorem session_take : (stage.take unit moment slot).2.session =
    if stage.failed slot then stage.session else (stage.call unit moment slot).2.session := by
  unfold take
  split
  · rfl
  · dsimp only
    split <;> rfl

variable {plan later : List (Moment × Fin count)}

theorem play_cons {rest : List (Moment × Fin count)} :
    stage.play unit ((moment, slot) :: rest) =
      ((stage.take unit moment slot).1 :: ((stage.take unit moment slot).2.play unit rest).1,
        ((stage.take unit moment slot).2.play unit rest).2) := rfl

/-- The turns are those of the schedule, in its order. -/
theorem place_play : (stage.play unit plan).1.map Turn.place = plan := by
  induction plan generalizing stage with
  | nil => rfl
  | cons entry rest ih => simp [play, ih]

theorem play_append : stage.play unit (plan ++ later) =
    ((stage.play unit plan).1 ++ ((stage.play unit plan).2.play unit later).1,
      ((stage.play unit plan).2.play unit later).2) := by
  induction plan generalizing stage with
  | nil => rfl
  | cons entry rest ih => simp [play, ih]

/-- After its turns a detector has failed if it had before or if one of them failed. -/
theorem failed_play : (stage.play unit plan).2.failed slot =
    (stage.failed slot || Turn.anyFails (stage.play unit plan).1 slot) := by
  induction plan generalizing stage with
  | nil => simp [play, Turn.anyFails]
  | cons entry rest ih => simp [play, ih, failed_take, Bool.or_assoc, Bool.beq_comm]

/-- A turn is skipped exactly if an earlier turn of the same detector failed. -/
theorem outcome_play_eq_skipped_iff {earlier after : List (Turn count)} {turn : Turn count}
    (split : (stage.play unit plan).1 = earlier ++ turn :: after) :
    turn.outcome = .skipped ↔
      stage.failed turn.slot = true ∨ Turn.anyFails earlier turn.slot = true := by
  induction plan generalizing stage earlier with
  | nil => simp [play] at split
  | cons entry rest ih =>
      obtain ⟨moment, slot⟩ := entry
      rw [play_cons] at split
      cases earlier with
      | nil =>
          obtain ⟨here, -⟩ := List.cons.inj split
          rw [← here, outcome_take_eq_skipped_iff]
          simp [Turn.anyFails]
      | cons first earlier =>
          obtain ⟨here, split⟩ := List.cons.inj split
          rw [ih split, failed_take, ← here]
          simp [or_assoc]

end Stage

end JavaInspect
