import JavaInspect.Proofs.Semantics.Collecting

/-!
# The search for supertypes

A visit marks a symbol, collects what is above it, and remembers the list with the mark
taken away again. The marked symbols are the path from where the search began, so that
a marked symbol that is met again is on a cycle. Each level of the search makes the path
longer; as the path never holds a binding twice, the search ends on its own.
-/

namespace JavaInspect

open Relation Cache

namespace Query

variable {table : Table} {before : Cache} {binding : BindingId} {symbol : SymbolId}
  {path : List BindingId} {left right : SymbolId → Query (List TypeId)}

/-! ## Marking -/

/-- Begin to compute the supertypes of a symbol. -/
def opening (facade : SymbolFacade) : SymbolFacade :=
  { facade with linearizing := true }

/-- Remember the supertypes of a symbol. -/
def closing (types : List TypeId) (facade : SymbolFacade) : SymbolFacade :=
  { facade with linearizing := false, superTypes := some types }

theorem leavesFacade_opening : ∀ facade : SymbolFacade, (opening facade).binding = facade.binding :=
  fun _ => rfl

theorem leavesFacade_closing (types : List TypeId) :
    ∀ facade : SymbolFacade, (closing types facade).binding = facade.binding :=
  fun _ => rfl

/-- Marking a symbol leaves the cache valid. -/
theorem valid_opening (valid : before.Valid table) (isShown : before.ShowsSymbol symbol binding) :
    (before.modifySymbol symbol opening).Valid table := by
  have keeps : Keeps before (before.modifySymbol symbol opening) :=
    keeps_modifySymbol leavesFacade_opening
  have describes := valid.describesSymbol isShown
  have stillDescribes : before.DescribesSymbol table binding (opening (before.symbol symbol)) :=
    { describes with }
  exact
    { toValidTypes := valid.toValidTypes.of_same keeps rfl rfl
      toValidSymbols := validSymbols_modifySymbol valid leavesFacade_opening isShown stillDescribes
      reported := by
        intro noFault other finished
        apply valid.reported noFault other
        exact (marked_modifySymbol_iff valid leavesFacade_opening isShown Iff.rfl).1 finished }

theorem open_opening (valid : before.Valid table) (isShown : before.ShowsSymbol symbol binding)
    (opened : ∀ other, before.Open other ↔ other ∈ path) (other : BindingId) :
    (before.modifySymbol symbol opening).Open other ↔ other ∈ binding :: path := by
  rw [Open, marked_modifySymbol valid leavesFacade_opening isShown, List.mem_cons, ← opened other]
  split
  case isTrue same => simp [same, opening]
  case isFalse different => simp [different, Open]

theorem finished_closing {types : List TypeId} (valid : before.Valid table)
    (isShown : before.ShowsSymbol symbol binding) (other : BindingId) :
    (before.modifySymbol symbol (closing types)).Finished other ↔
      other = binding ∨ before.Finished other := by
  rw [Finished, marked_modifySymbol valid (leavesFacade_closing types) isShown]
  split
  case isTrue same => simp [same, closing]
  case isFalse different => simp [different, Finished]

/-- Remembering the right list leaves the cache valid. -/
theorem valid_closing {types : List TypeId} (valid : before.Valid table)
    (isShown : before.ShowsSymbol symbol binding)
    (settled : ∀ upper, table.Above binding upper → Settled before upper)
    (shown : Grounded table.Above binding →
      before.ShowsTypes types ((table.lineage binding).map some)) :
    (before.modifySymbol symbol (closing types)).Valid table := by
  have keeps : Keeps before (before.modifySymbol symbol (closing types)) :=
    keeps_modifySymbol (leavesFacade_closing types)
  have describes := valid.describesSymbol isShown
  have stillDescribes :
      before.DescribesSymbol table binding (closing types (before.symbol symbol)) :=
    { describes with
      superTypes := by
        intro _ isSame grounded
        cases isSame
        exact shown grounded }
  exact
    { toValidTypes := valid.toValidTypes.of_same keeps rfl rfl
      toValidSymbols := validSymbols_modifySymbol valid (leavesFacade_closing types) isShown
        stillDescribes
      reported := by
        intro noFault other finished
        rcases (finished_closing valid isShown other).1 finished with rfl | finished
        · -- Without a fault all parents are finished, and so no cycle is reached from them.
          apply Grounded.of_next
          intro upper above
          rcases settled upper above with finished | faulty
          · exact valid.reported noFault upper finished
          · rw [show before.fault = none from noFault] at faulty
            cases faulty
        · exact valid.reported noFault other finished }

/-- A visit that has collected what is above the binding has found its supertypes. -/
theorem found_closing {middle : Cache} {types : List TypeId} (valid : before.Valid table)
    (isShown : before.ShowsSymbol symbol binding)
    (opened : ∀ other, before.Open other ↔ other ∈ path) (notOpen : binding ∉ path)
    (linearized : Linearized table binding (before.modifySymbol symbol opening) types middle) :
    Found table binding before types (middle.modifySymbol symbol (closing types)) := by
  have keepsOpening : Keeps before (before.modifySymbol symbol opening) :=
    keeps_modifySymbol leavesFacade_opening
  have keepsClosing : Keeps middle (middle.modifySymbol symbol (closing types)) :=
    keeps_modifySymbol (leavesFacade_closing types)
  have leads := linearized.leads
  have middleShown : middle.ShowsSymbol symbol binding :=
    leads.toKeeps.showsSymbol (keepsOpening.showsSymbol isShown)
  have middleOpened (other : BindingId) : middle.Open other ↔ other ∈ binding :: path :=
    (leads.stillOpen other).trans (open_opening valid isShown opened other)
  constructor
  case leads =>
    constructor
    case toGrows =>
      constructor
      case toKeeps => exact (keepsOpening.trans leads.toKeeps).trans keepsClosing
      case stillOpen =>
        intro other
        rw [Open, marked_modifySymbol leads.valid (leavesFacade_closing types) middleShown, opened]
        split
        case isTrue same => simp [same, closing, notOpen]
        case isFalse different =>
          refine (middleOpened other).trans ?_
          simp [different]
      case finished =>
        intro other finished
        have stillFinished : (before.modifySymbol symbol opening).Finished other :=
          (marked_modifySymbol_iff valid leavesFacade_opening isShown Iff.rfl).2 finished
        exact (finished_closing leads.valid middleShown other).2
          (.inr (leads.finished other stillFinished))
      case fault => exact leads.fault
      case blamed => exact leads.blamed
    case valid =>
      exact valid_closing leads.valid middleShown linearized.settled linearized.shown
  case settled => exact .inl ((finished_closing leads.valid middleShown binding).2 (.inl rfl))
  case shown =>
    intro grounded
    exact keepsClosing.showsTypes (linearized.shown grounded)

/-! ## Visits -/

theorem agree_visitSuperTypes (arraysEnd : table.ArraysEnd) (valid : before.Valid table)
    (isShown : before.ShowsSymbol symbol binding)
    (opened : ∀ other, before.Open other ↔ other ∈ path)
    (below : ∀ lower ∈ path, TransGen table.Above lower binding)
    (searches : binding ∉ path → SearchesAbove table binding (binding :: path) left right) :
    Agree (visitSuperTypes table left symbol) (visitSuperTypes table right symbol) before
      (Found table binding before) := by
  have describes := valid.describesSymbol isShown
  rw [visitSuperTypes, visitSuperTypes]
  apply Agree.readSymbol
  cases remembered : (before.symbol symbol).superTypes with
  | some types =>
      have finished : before.Finished binding := ⟨symbol, isShown, by simp [remembered]⟩
      apply (Agree.of_ensures (Yields.noteHit valid)).bind
      intro _ _ found
      rcases found with ⟨leads, rfl⟩
      apply Agree.pure
      refine ⟨leads, .inl (leads.finished binding finished), ?_⟩
      intro grounded
      exact leads.toKeeps.showsTypes (describes.superTypes types remembered grounded)
  | none =>
      cases marked : (before.symbol symbol).linearizing with
      | true =>
          have isOpen : before.Open binding := ⟨symbol, isShown, marked⟩
          have cycle := below binding ((opened binding).1 isOpen)
          have isBlamed : table.CycleAbove binding
              (.supertypeCycle (before.symbol symbol).binding (before.symbol symbol).name) := by
            rw [describes.binding, describes.name]
            exact ⟨binding, rfl, .refl, cycle⟩
          apply (Agree.of_ensures (Yields.recordFault valid isBlamed)).bind
          intro _ _ found
          rcases found with ⟨leads, rfl⟩
          apply Agree.pure
          refine ⟨leads, .inr isSome_recordFault, ?_⟩
          intro grounded
          exact absurd cycle grounded.noCycle
      | false =>
          have notOpen : binding ∉ path := by
            intro onPath
            have isOpen := (opened binding).2 onPath
            rw [Open, valid.marked_iff isShown, marked] at isOpen
            cases isOpen
          apply Agree.modifySymbol
          have linearized := agree_linearize arraysEnd (valid_opening valid isShown)
            (open_opening valid isShown opened) (searches notOpen) describes.binding
            describes.recovered
          apply linearized.bind
          intro types middle linearized
          apply Agree.modifySymbol
          exact Agree.pure (found_closing valid isShown opened notOpen linearized)

/-! ## The whole search -/

/-- A search that may go deep enough ends before it reaches its bound: what would be
done below the bound does not matter. -/
theorem agree_superTypesWithin (arraysEnd : table.ArraysEnd)
    (left right : SymbolId → Query (List TypeId)) {depth : Nat}
    (valid : before.Valid table) (isShown : before.ShowsSymbol symbol binding)
    (opened : ∀ other, before.Open other ↔ other ∈ path) (distinct : path.Nodup)
    (below : ∀ lower ∈ path, TransGen table.Above lower binding)
    (enough : table.size < depth + path.length) :
    Agree (superTypesWithin table left depth symbol) (superTypesWithin table right depth symbol)
      before (Found table binding before) := by
  -- The path has grown by one binding for each level that was used up.
  induction depth generalizing before binding symbol path with
  | zero =>
      have few := table.length_le_of_below distinct below
      omega
  | succ depth ih =>
      rw [superTypesWithin, superTypesWithin]
      apply agree_visitSuperTypes arraysEnd valid isShown opened below
      intro notOpen upper upperSymbol cache above cacheValid upperShown stillOpened
      have longer : (binding :: path).Nodup := List.nodup_cons.2 ⟨notOpen, distinct⟩
      apply ih cacheValid upperShown stillOpened longer (Table.below_cons above below)
      simp only [List.length_cons]
      omega

/-- No supertypes are being computed. -/
def Idle (cache : Cache) : Prop :=
  ∀ binding, ¬ cache.Open binding

theorem Idle.empty : Idle {} := by
  intro binding found
  rcases found with ⟨symbol, isShown, -⟩
  simp [ShowsSymbol] at isShown

theorem Idle.later {blame : SemanticFault → Prop} {after : Cache} (idle : Idle before)
    (grows : Grows blame before after) : Idle after :=
  fun binding isOpen => idle binding ((grows.stillOpen binding).1 isOpen)

/-- What lies below the depth that a search starts with is never asked for. -/
theorem agree_superTypes (arraysEnd : table.ArraysEnd) (valid : before.Valid table)
    (idle : Idle before) (isShown : before.ShowsSymbol symbol binding) {depth : Nat}
    (enough : table.size < depth) (left right : SymbolId → Query (List TypeId)) :
    Agree (superTypesWithin table left depth symbol) (superTypesWithin table right depth symbol)
      before (Found table binding before) := by
  have opened (other : BindingId) : before.Open other ↔ other ∈ [] := by
    simpa using idle other
  apply agree_superTypesWithin arraysEnd left right valid isShown opened List.nodup_nil
  · simp
  · simpa using enough

theorem found_superTypes (arraysEnd : table.ArraysEnd) (valid : before.Valid table)
    (idle : Idle before) (isShown : before.ShowsSymbol symbol binding) :
    Ensures (superTypes table symbol) before (Found table binding before) :=
  have enough : table.size < table.size + 2 := by omega
  (agree_superTypes arraysEnd valid idle isShown enough _ fun _ => return []).2

end Query

end JavaInspect
