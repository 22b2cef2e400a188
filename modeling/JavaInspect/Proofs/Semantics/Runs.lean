import JavaInspect.Proofs.Semantics.Moves

/-!
# Runs

Queries change the cache in a few ways only: they ask for the facade of a binding, count an
answer that was remembered, remember an answer, or report that declarations run in a
circle. A run is a sequence of such steps together with the facades that it asked for. Every
query performs a run, whatever the cache that it starts from.
-/

namespace JavaInspect

open Relation Cache Query

/-- Asking for a facade of a binding. -/
inductive Ask where
  | type (binding : BindingId)
  | symbol (binding : BindingId)
deriving DecidableEq, Repr

/-- Whether a fault says that declarations run in a circle. -/
def SemanticFault.IsCycle : SemanticFault → Prop
  | .ownerCycle .. | .supertypeCycle .. => True
  | .identityViolation .. | .capacityExceeded .. => False

namespace Cache

/-- One step of a query and the facades that it asks for. The first fault may be taken out at
any time. -/
inductive Step (table : Table) (before : Cache) : List Ask → Cache → Prop where
  | type (binding : BindingId) :
      Step table before ((before.asked table binding).map .type) (typeOf table binding before).2
  | symbol (binding : BindingId) :
      Step table before [.symbol binding] (symbolOf table binding before).2
  | hit : Step table before [] before.noteHit
  | remember (symbol : SymbolId) {change : SymbolFacade → SymbolFacade}
      (keepsView : ∀ facade, (change facade).view = facade.view) :
      Step table before [] (before.modifySymbol symbol change)
  | report {fault : SemanticFault} (isCycle : fault.IsCycle) :
      Step table before [] (before.recordFault fault)
  | takeFault : Step table before [] (Query.takeFault before).2

/-- Steps one after another and all facades that they ask for. -/
inductive Run (table : Table) (before : Cache) : List Ask → Cache → Prop where
  | refl : Run table before [] before
  | tail {asks more : List Ask} {middle after : Cache} (run : Run table before asks middle)
      (step : Step table middle more after) : Run table before (asks ++ more) after

variable {table : Table} {before middle after : Cache} {asks more : List Ask}

theorem Step.run (step : Step table before asks after) : Run table before asks after :=
  .tail .refl step

theorem Run.trans (first : Run table before asks middle) (second : Run table middle more after) :
    Run table before (asks ++ more) after := by
  induction second with
  | refl => rwa [List.append_nil]
  | tail _ step ih => exact List.append_assoc .. ▸ .tail ih step

/-- A run leads from one cache to another. -/
def Ran (table : Table) (before after : Cache) : Prop :=
  ∃ asks, Run table before asks after

theorem Step.ran (step : Step table before asks after) : Ran table before after :=
  ⟨asks, step.run⟩

instance : IsPreorder Cache (Ran table) where
  refl _ := ⟨[], .refl⟩
  trans _ _ _ first second := by
    rcases first with ⟨asks, run⟩
    rcases second with ⟨more, runOn⟩
    exact ⟨asks ++ more, run.trans runOn⟩

end Cache

namespace Query

variable {Answer : Type} {table : Table} {query : Query Answer} {before after : Cache}
  {symbol : SymbolId}

/-! ## Walks along owners -/

section Walks

theorem ran_symbolOf {binding : BindingId} : Follows (Ran table) (symbolOf table binding) :=
  fun _ => (Step.symbol binding).ran

theorem ran_noteHit : Follows (Ran table) noteHit :=
  fun _ => Step.hit.ran

theorem ran_remember {change : SymbolFacade → SymbolFacade}
    (keepsView : ∀ facade, (change facade).view = facade.view) :
    Follows (Ran table) (modifySymbol symbol change) :=
  fun _ => (Step.remember symbol keepsView).ran

theorem ran_report {fault : SemanticFault} (isCycle : fault.IsCycle) :
    Follows (Ran table) (recordFault fault) :=
  fun _ => (Step.report isCycle).ran

theorem ran_reportOwnerCycle : Follows (Ran table) (reportOwnerCycle symbol) :=
  Follows.readSymbol.bind fun _ => ran_report trivial

theorem ran_enclosingStep {start : SymbolId} {seen : List SymbolId}
    {goOn : Query (Option SymbolId)} (ran : Follows (Ran table) goOn) :
    Follows (Ran table) (enclosingStep start symbol seen goOn) :=
  .ite (ran_reportOwnerCycle.bind fun _ => .pure) (Follows.readSymbol.bind fun _ => .ite .pure ran)

theorem ran_enclosingAlong {start : SymbolId} {seen : List SymbolId} {owners : List BindingId} :
    Follows (Ran table) (enclosingAlong table start symbol seen owners) := by
  induction owners generalizing symbol seen with
  | nil => exact ran_enclosingStep .pure
  | cons _ _ ih => exact ran_enclosingStep (ran_symbolOf.bind fun _ => ih)

theorem ran_enclosingClass : Follows (Ran table) (enclosingClass table symbol) :=
  Follows.readSymbol.bind fun _ => ran_enclosingAlong

theorem ran_outermostStep {seen : List SymbolId} {found : Option SymbolId}
    {goOn : Option SymbolId → Query (Option (Option SymbolId))}
    (ran : ∀ found, Follows (Ran table) (goOn found)) :
    Follows (Ran table) (outermostStep symbol seen found goOn) :=
  Follows.readSymbol.bind fun _ => .ite .pure (.ite .pure (ran _))

theorem ran_outermostAlong {seen : List SymbolId} {found : Option SymbolId}
    {owners : List BindingId} :
    Follows (Ran table) (outermostAlong table symbol seen found owners) := by
  induction owners generalizing symbol seen found with
  | nil => exact ran_outermostStep fun _ => .pure
  | cons _ _ ih => exact ran_outermostStep fun _ => ran_symbolOf.bind fun _ => ih

theorem ran_outermostClass : Follows (Ran table) (outermostClass table symbol) := by
  refine Follows.bind Follows.readSymbol fun facade => ?_
  cases facade.outermost with
  | some answer => exact ran_noteHit.bind fun _ => .pure
  | none =>
      refine Follows.bind ran_outermostAlong fun outermost => ?_
      cases outermost with
      | some answer =>
          refine Follows.bind (ran_remember ?_) fun _ => .pure
          exact fun _ => rfl
      | none => exact ran_reportOwnerCycle.bind fun _ => .pure

end Walks

/-! ## Requests -/

/-- Moves are made in runs. -/
theorem ran_of_moves (moves : Moves table before after) : Ran table before after := by
  induction moves with
  | refl => exact refl_of _ _
  | tail _ move ih =>
      refine trans_of _ ih ?_
      cases move with
      | type binding => exact (Step.type binding).ran
      | symbol binding => exact (Step.symbol binding).ran
      | hit => exact Step.hit.ran
      | remember symbol keepsView _ => exact (Step.remember symbol keepsView).ran
      | supertypeCycle binding name =>
          have isCycle : (SemanticFault.supertypeCycle binding name).IsCycle := trivial
          exact (Step.report isCycle).ran
      | enclosing binding => exact (ran_symbolOf.bind fun _ => ran_enclosingClass) _
      | outermost binding => exact (ran_symbolOf.bind fun _ => ran_outermostClass) _
      | takeFault => exact Step.takeFault.ran

/-- From every cache, a query performs a run. -/
def Performs (table : Table) (query : Query Answer) : Prop :=
  ∀ before, ∃ asks, Run table before asks (query before).2

theorem Performs.of_moves (moves : Follows (Moves table) query) : Performs table query :=
  fun before => ran_of_moves (moves before)

end Query

end JavaInspect
