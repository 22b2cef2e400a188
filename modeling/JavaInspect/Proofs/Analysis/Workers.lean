import Mathlib.Algebra.BigOperators.Fin
import Mathlib.Algebra.Order.BigOperators.Group.Finset
import Mathlib.Logic.Relation

/-!
# Works that go on at once

Work is done on many items at once, each in steps of its own; the steps of different items
follow each other in any order. All that the works share is a wish for their end. A step is told
of it and may raise it, and so may somebody outside at any time, but nobody takes it back. As
long as nobody has raised it, the work on each item goes on as it would alone.
-/

namespace JavaInspect

universe u

/-- A kind of work that is done on items in steps. -/
structure Work (Item Outcome : Type) where
  State : Type u
  /-- The state before the first step. -/
  opening : State
  /-- A step is told whether the end is wished for, and says whether it wishes for it. -/
  step : Item → Bool → State → State × Bool
  /-- What the work has come to, once it is over. -/
  outcome? : State → Option Outcome
  /-- No more steps than this are left. -/
  left : Item → State → Nat
  left_step : ∀ {item wished state}, outcome? state = none →
    left item (step item wished state).1 < left item state

namespace Work

variable {Item Outcome : Type} (work : Work.{u} Item Outcome)

/-- The work on an item takes a step while nobody wishes for its end. -/
def Advances (item : Item) (state next : work.State) : Prop :=
  work.outcome? state = none ∧ work.step item false state = (next, false)

/-- What the work on an item comes to if it is done alone and nobody wishes for its end. -/
def ComesTo (item : Item) (outcome : Outcome) : Prop :=
  ∃ state, Relation.ReflTransGen (work.Advances item) work.opening state ∧
    work.outcome? state = some outcome

/-- Nobody who works on an item ever wishes for the end, as is seen from what always holds. -/
structure Quiet (item : Item) (holds : work.State → Prop) : Prop where
  opening : holds work.opening
  step : ∀ state, work.outcome? state = none → holds state →
    holds (work.step item false state).1 ∧ (work.step item false state).2 = false

variable {work} {item : Item} {state next : work.State}

/-- What every step keeps is kept by the whole work. -/
theorem eq_of_advances {Value : Type} {measure : work.State → Value}
    (keeps : ∀ state next, work.Advances item state next → measure next = measure state)
    (advances : Relation.ReflTransGen (work.Advances item) state next) :
    measure next = measure state := by
  induction advances with
  | refl => rfl
  | tail _ last ih => exact (keeps _ _ last).trans ih

end Work

/-- The works on items, and whether somebody wishes for their end. -/
structure Pool {Item Outcome : Type} (work : Work.{u} Item Outcome) (items : List Item) where
  states : Fin items.length → work.State
  wished : Bool

namespace Pool

variable {Item Outcome : Type} {work : Work.{u} Item Outcome} {items : List Item}
  {pool later : Pool work items} {outcomes : List Outcome}

/-- No work has begun. -/
def opening (work : Work.{u} Item Outcome) (items : List Item) (wished : Bool) :
    Pool work items :=
  { states := fun _ => work.opening, wished }

/-- One of the works takes a step. -/
def after (pool : Pool work items) (index : Fin items.length) : Pool work items :=
  let (state, wishes) := work.step (items.get index) pool.wished (pool.states index)
  { states := Function.update pool.states index state
    wished := pool.wished || wishes }

/-- What may happen next. -/
inductive Step : Pool work items → Pool work items → Prop where
  | work {pool : Pool work items} (index : Fin items.length)
      (goesOn : work.outcome? (pool.states index) = none) : Step pool (pool.after index)
  /-- Somebody outside wishes for the end. -/
  | wish {pool : Pool work items} (unwished : pool.wished = false) :
      Step pool { pool with wished := true }

/-- All works are over and have come to these outcomes. -/
def Finishes (pool : Pool work items) (outcomes : List Outcome) : Prop :=
  (List.ofFn fun index => work.outcome? (pool.states index)) = outcomes.map some

/-- The works on items were done, in whatever order of their steps, and nobody has wished for
their end. -/
def Completes (work : Work.{u} Item Outcome) (items : List Item) (wished : Bool)
    (outcomes : List Outcome) : Prop :=
  ∃ pool, Relation.ReflTransGen Step (opening work items wished) pool ∧ pool.wished = false ∧
    pool.Finishes outcomes

/-! ## Every work goes on as it would alone -/

theorem wished_of_step (step : Step pool later) (unwished : later.wished = false) :
    pool.wished = false := by
  cases step with
  | work index goesOn => exact (Bool.or_eq_false_iff.1 unwished).1
  | wish _ => cases unwished

/-- While nobody wishes for the end, a step is a step of one of the works alone. -/
theorem advances_of_step (step : Step pool later) (unwished : later.wished = false)
    (index : Fin items.length) :
    Relation.ReflTransGen (work.Advances (items.get index)) (pool.states index)
      (later.states index) := by
  have before := wished_of_step step unwished
  cases step with
  | wish _ => cases unwished
  | work taken goesOn =>
      by_cases same : index = taken
      · subst same
        have isStep : (pool.after index).states index =
            (work.step (items.get index) false (pool.states index)).1 := by
          simp [after, before]
        have quiet : (work.step (items.get index) false (pool.states index)).2 = false := by
          have wishes := (Bool.or_eq_false_iff.1 unwished).2
          rwa [before] at wishes
        rw [isStep]
        exact .single ⟨goesOn, Prod.ext rfl quiet⟩
      · have unchanged : (pool.after taken).states index = pool.states index := by
          simp [after, same]
        rw [unchanged]

theorem advances_of_reaches (reaches : Relation.ReflTransGen Step pool later)
    (unwished : later.wished = false) (index : Fin items.length) :
    Relation.ReflTransGen (work.Advances (items.get index)) (pool.states index)
      (later.states index) := by
  induction reaches with
  | refl => exact .refl
  | tail _ last ih =>
      have sooner := ih (wished_of_step last unwished)
      exact sooner.trans (advances_of_step last unwished index)

theorem wished_of_reaches (reaches : Relation.ReflTransGen Step pool later)
    (unwished : later.wished = false) : pool.wished = false := by
  induction reaches with
  | refl => exact unwished
  | tail _ last ih => exact ih (wished_of_step last unwished)

/-- In whatever order the steps follow each other, each work comes to what it comes to alone. -/
theorem comesTo_of_completes {wished : Bool} (completes : Completes work items wished outcomes) :
    wished = false ∧ List.Forall₂ work.ComesTo items outcomes := by
  obtain ⟨pool, reaches, unwished, finishes⟩ := completes
  constructor
  · exact wished_of_reaches reaches unwished
  · have lengths : items.length = outcomes.length := by
      simpa using congrArg List.length finishes
    rw [List.forall₂_iff_get]
    constructor
    · exact lengths
    · intro index inItems inOutcomes
      have atIndex := congrArg (·[index]?) finishes
      simp only [List.getElem?_ofFn, inItems, dite_true, List.getElem?_map,
        List.getElem?_eq_getElem inOutcomes, Option.map_some, Option.some.injEq] at atIndex
      exact ⟨_, advances_of_reaches reaches unwished ⟨index, inItems⟩, atIndex⟩

/-! ## No work goes on for ever -/

/-- No more steps than this are left for all works. -/
def left (pool : Pool work items) : Nat :=
  ∑ index, work.left (items.get index) (pool.states index) + if pool.wished then 0 else 1

theorem left_after {index : Fin items.length} (goesOn : work.outcome? (pool.states index) = none) :
    (pool.after index).left < pool.left := by
  have others : ∑ other, work.left (items.get other) ((pool.after index).states other) <
      ∑ other, work.left (items.get other) (pool.states other) := by
    apply Finset.sum_lt_sum
    · intro other _
      by_cases same : other = index
      · subst same
        simpa [after] using Nat.le_of_lt (work.left_step goesOn)
      · simp [after, same]
    · exact ⟨index, Finset.mem_univ index, by simpa [after] using work.left_step goesOn⟩
  have wish : (if (pool.after index).wished then 0 else 1) ≤ if pool.wished then 0 else 1 := by
    cases wished : pool.wished with
    | true => simp [after, wished]
    | false => split <;> simp
  exact Nat.add_lt_add_of_lt_of_le others wish

theorem left_lt_of_step (step : Step pool later) : later.left < pool.left := by
  cases step with
  | work index goesOn => exact left_after goesOn
  | wish unwished => simp [left, unwished]

/-- There is no endless sequence of steps. -/
theorem wellFounded_step : WellFounded fun later pool : Pool work items => Step pool later :=
  Subrelation.wf left_lt_of_step (measure left).wf

/-- Where no work can take a step, all are over. -/
theorem finishes_or_exists_unfinished (pool : Pool work items) :
    (∃ outcomes, pool.Finishes outcomes) ∨ ∃ index, work.outcome? (pool.states index) = none := by
  by_cases unfinished : ∃ index, work.outcome? (pool.states index) = none
  · exact .inr unfinished
  · left
    have ended : ∀ index, ∃ outcome, work.outcome? (pool.states index) = some outcome := by
      intro index
      exact Option.ne_none_iff_exists'.1 fun none => unfinished ⟨index, none⟩
    choose outcomeOf isOutcome using ended
    refine ⟨List.ofFn outcomeOf, ?_⟩
    simp [Finishes, List.map_ofFn, isOutcome, Function.comp_def]

theorem finishes_or_exists_step (pool : Pool work items) :
    (∃ outcomes, pool.Finishes outcomes) ∨ ∃ later, Step pool later := by
  cases finishes_or_exists_unfinished pool with
  | inl finishes => exact .inl finishes
  | inr unfinished =>
      obtain ⟨index, goesOn⟩ := unfinished
      exact .inr ⟨_, .work index goesOn⟩

/-- If nobody wishes for the end, the works can be done. -/
theorem exists_completes {holds : Item → work.State → Prop}
    (quiet : ∀ item ∈ items, work.Quiet item (holds item)) :
    ∃ outcomes, Completes work items false outcomes := by
  suffices finish : ∀ pool : Pool work items, pool.wished = false →
      (∀ index, holds (items.get index) (pool.states index)) →
      ∃ later outcomes, Relation.ReflTransGen Step pool later ∧ later.wished = false ∧
        later.Finishes outcomes by
    obtain ⟨later, outcomes, completes⟩ := finish (opening work items false) rfl
      fun index => (quiet _ (List.get_mem items index)).opening
    exact ⟨outcomes, later, completes⟩
  intro pool
  induction pool using wellFounded_step.induction with
  | _ pool ih =>
    intro unwished held
    obtain ⟨outcomes, finishes⟩ | ⟨index, goesOn⟩ := finishes_or_exists_unfinished pool
    · exact ⟨pool, outcomes, .refl, unwished, finishes⟩
    · have ⟨stillHolds, silent⟩ :=
        (quiet _ (List.get_mem items index)).step _ goesOn (held index)
      have step : Step pool (pool.after index) := .work index goesOn
      have stillUnwished : (pool.after index).wished = false := by
        simpa [after, unwished] using silent
      have stillHeld : ∀ other, holds (items.get other) ((pool.after index).states other) := by
        intro other
        by_cases same : other = index
        · subst same
          simpa [after, unwished] using stillHolds
        · simpa [after, same] using held other
      obtain ⟨later, outcomes, reaches, rest⟩ := ih _ step stillUnwished stillHeld
      exact ⟨later, outcomes, .head step reaches, rest⟩

end Pool

/-! ## Work that is done at once -/

namespace Work

variable {Item Outcome : Type}

/-- Work that takes one step on each item and shares nothing. -/
def inOneStep (result : Item → Outcome) : Work.{0} Item Outcome where
  State := Option Outcome
  opening := none
  step item _ _ := (some (result item), false)
  outcome? := id
  left _ state := if state.isNone then 1 else 0
  left_step := by
    intro item wished state none
    simp_all

theorem comesTo_inOneStep {result : Item → Outcome} {item : Item} {outcome : Outcome}
    (comes : (inOneStep result).ComesTo item outcome) : outcome = result item := by
  obtain ⟨state, advances, ended⟩ := comes
  cases advances with
  | refl => cases ended
  | tail _ last =>
      obtain ⟨-, isNext⟩ := last
      cases isNext
      exact (Option.some.inj ended).symm

end Work

end JavaInspect
