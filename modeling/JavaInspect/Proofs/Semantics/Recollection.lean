import JavaInspect.Proofs.Semantics.Circles
import JavaInspect.Proofs.Semantics.Moves

/-!
# What contexts remember about owners

Whatever the table is like, a context has one symbol facade for every binding that it was asked
for, and what it remembers about an outermost type is what the way outwards leads to. Every move
keeps that, and walks along owners end in one of two ways: they find what they look for, or they
report a circle that there is.
-/

namespace JavaInspect

open Relation Cache Query

/-! ## Asking for types -/

namespace Cache

/-- Only type facades have been made, and no circle of owners is reported. -/
structure SameSymbols (before after : Cache) : Prop extends Keeps before after where
  symbols : after.symbols = before.symbols
  symbolIndex : after.symbolIndex = before.symbolIndex
  fault : ∀ binding name, after.fault = some (.ownerCycle binding name) →
    before.fault = some (.ownerCycle binding name)

instance : IsPreorder Cache SameSymbols where
  refl _ := ⟨.refl, rfl, rfl, fun _ _ => id⟩
  trans _ _ _ first second :=
    ⟨first.toKeeps.trans second.toKeeps, second.symbols.trans first.symbols,
      second.symbolIndex.trans first.symbolIndex,
      fun binding name isFault => first.fault binding name (second.fault binding name isFault)⟩

theorem sameSymbols_pushType (cache : Cache) (binding : BindingId) (facade : TypeFacade) :
    SameSymbols cache (cache.pushType binding facade).2 := by
  have keeps : Keeps cache (cache.withType binding facade) := keeps_withType
  rw [pushType]
  split
  case h_1 known _ =>
    refine ⟨⟨keeps.type, keeps.symbol⟩, rfl, rfl, fun other name isFault => ?_⟩
    rcases fault_recordFault isFault with earlier | isNew
    · exact earlier
    · cases isNew
  case h_2 => exact ⟨keeps, rfl, rfl, fun _ _ => id⟩

end Cache

namespace Query

variable {table : Table} {binding : BindingId} {inside : List BindingId}

theorem sameSymbols_typeAlong : Follows SameSymbols (typeAlong table binding inside) := by
  have hit : Follows SameSymbols noteHit := fun _ => ⟨keeps_noteHit, rfl, rfl, fun _ _ => id⟩
  have miss : Follows SameSymbols noteMiss := fun _ => ⟨keeps_noteMiss, rfl, rfl, fun _ _ => id⟩
  have unknown : ∀ binding, Follows SameSymbols (modify (·.bindUnknown binding)) := fun _ _ =>
    ⟨keeps_bindUnknown, rfl, rfl, fun _ _ => id⟩
  have push : ∀ binding facade, Follows SameSymbols
      (modifyGet (·.pushType binding facade) : Query TypeId) := fun binding facade before =>
    sameSymbols_pushType before binding facade
  -- The induction goes down the component types, which may contain each other.
  induction inside generalizing binding with
  | nil =>
      rw [typeAlong.eq_def]
      refine Follows.bind Follows.get fun cache => ?_
      cases cache.typeIndex.lookup binding with
      | some type => exact hit.bind fun _ => .pure
      | none =>
          refine miss.bind fun _ => ?_
          cases table.facadeKind? binding with
          | none => exact (unknown binding).bind fun _ => .pure
          | some kind => exact Follows.pure.bind fun _ => push _ _
  | cons component rest ih =>
      rw [typeAlong.eq_def]
      refine Follows.bind Follows.get fun cache => ?_
      cases cache.typeIndex.lookup binding with
      | some type => exact hit.bind fun _ => .pure
      | none =>
          refine miss.bind fun _ => ?_
          cases table.facadeKind? binding with
          | none => exact (unknown binding).bind fun _ => .pure
          | some kind => exact ih.map.bind fun _ => push _ _

theorem sameSymbols_typeOf : Follows SameSymbols (typeOf table binding) :=
  sameSymbols_typeAlong

end Query

/-! ## What is remembered -/

namespace Cache

variable (cache : Cache) (table : Table)

/-- Symbol facades show what the table says, one for every binding; a remembered outermost type is
the one that the owners lead to; and owners run in a circle where that is the fault. -/
structure Recalls : Prop where
  symbol : ∀ symbol, symbol.index < cache.symbols.size →
    ∃ binding, (cache.symbol symbol).view = table.symbolView binding ∧
      cache.symbolIndex.lookup binding = some symbol
  symbolIndex : ∀ binding symbol, cache.symbolIndex.lookup binding = some symbol →
    cache.ShowsSymbol symbol binding
  outermost : ∀ symbol answer, symbol.index < cache.symbols.size →
    (cache.symbol symbol).outermost = some answer →
      ∃ shown, Option.Rel cache.ShowsSymbol answer shown ∧
        table.LastType none (cache.symbol symbol).binding shown
  fault : ∀ binding name, cache.fault = some (.ownerCycle binding name) →
    table.RunsInCircle binding

variable {cache table} {before middle after : Cache} {symbol other : SymbolId}
  {binding : BindingId}

/-- A change that leaves alone what a reading of the facades looks at does not show there. -/
theorem read_modifySymbol {Reading : Type} (read : SymbolFacade → Reading)
    {change : SymbolFacade → SymbolFacade} (same : ∀ facade, read (change facade) = read facade)
    (inside : other.index < cache.symbols.size) :
    read ((cache.modifySymbol symbol change).symbol other) = read (cache.symbol other) := by
  by_cases isChanged : other = symbol
  · rw [isChanged, symbol_modifySymbol (isChanged ▸ inside), same]
  · rw [symbol_modifySymbol_of_ne isChanged]

namespace Recalls

theorem empty : Recalls {} table where
  symbol _ inside := by simp at inside
  symbolIndex _ _ found := by simp at found
  outermost _ _ inside := by simp at inside
  fault _ _ isFault := by simp at isFault

theorem lookup (recalls : cache.Recalls table) (isShown : cache.ShowsSymbol symbol binding) :
    cache.symbolIndex.lookup binding = some symbol := by
  rcases recalls.symbol symbol isShown.1 with ⟨found, view, indexed⟩
  have sameBinding : found = binding :=
    (congrArg SymbolView.binding view).symm.trans isShown.2
  exact sameBinding ▸ indexed

theorem view (recalls : cache.Recalls table) (isShown : cache.ShowsSymbol symbol binding) :
    (cache.symbol symbol).view = table.symbolView binding := by
  rcases recalls.symbol symbol isShown.1 with ⟨found, view, -⟩
  have sameBinding : found = binding :=
    (congrArg SymbolView.binding view).symm.trans isShown.2
  exact sameBinding ▸ view

theorem kind (recalls : cache.Recalls table) (isShown : cache.ShowsSymbol symbol binding) :
    (cache.symbol symbol).kind = (table.entry binding).kind :=
  congrArg SymbolView.kind (recalls.view isShown)

theorem name (recalls : cache.Recalls table) (isShown : cache.ShowsSymbol symbol binding) :
    (cache.symbol symbol).name = (table.entry binding).name :=
  congrArg SymbolView.name (recalls.view isShown)

theorem symbol_eq (recalls : cache.Recalls table) (isShown : cache.ShowsSymbol symbol binding)
    (otherShown : cache.ShowsSymbol other binding) : symbol = other :=
  Option.some.inj ((recalls.lookup isShown).symm.trans (recalls.lookup otherShown))

theorem biUnique (recalls : cache.Recalls table) : Relator.BiUnique cache.ShowsSymbol :=
  ⟨fun _ _ _ isShown otherShown => recalls.symbol_eq isShown otherShown,
    fun _ _ _ isShown otherShown => isShown.2.symm.trans otherShown.2⟩

/-- A change of what is not said about symbols. -/
theorem of_same (recalls : before.Recalls table) (keeps : Keeps before after)
    (size : after.symbols.size = before.symbols.size)
    (view : ∀ symbol, symbol.index < before.symbols.size →
      (after.symbol symbol).view = (before.symbol symbol).view)
    (outermost : ∀ symbol, symbol.index < before.symbols.size →
      (after.symbol symbol).outermost = (before.symbol symbol).outermost)
    (symbolIndex : after.symbolIndex = before.symbolIndex)
    (fault : ∀ binding name, after.fault = some (.ownerCycle binding name) →
      table.RunsInCircle binding) : after.Recalls table where
  symbol symbol inside := by
    rw [size] at inside
    rw [view symbol inside, symbolIndex]
    exact recalls.symbol symbol inside
  symbolIndex binding symbol found :=
    keeps.showsSymbol (recalls.symbolIndex binding symbol (symbolIndex ▸ found))
  outermost symbol answer inside remembered := by
    rw [size] at inside
    rw [outermost symbol inside] at remembered
    rw [(keeps.symbol symbol inside).2]
    rcases recalls.outermost symbol answer inside remembered with ⟨shown, isShown, last⟩
    exact ⟨shown, optionRel_imp (fun _ _ => keeps.showsSymbol) isShown, last⟩
  fault := fault

theorem sameSymbols (recalls : before.Recalls table) (same : SameSymbols before after) :
    after.Recalls table := by
  refine recalls.of_same same.toKeeps (by rw [same.symbols]) ?_ ?_ same.symbolIndex ?_
  · exact fun _ _ => by rw [Cache.symbol, same.symbols, Cache.symbol]
  · exact fun _ _ => by rw [Cache.symbol, same.symbols, Cache.symbol]
  · exact fun binding name isFault => recalls.fault binding name (same.fault binding name isFault)

theorem noteHit (recalls : before.Recalls table) : before.noteHit.Recalls table :=
  recalls.sameSymbols ⟨keeps_noteHit, rfl, rfl, fun _ _ => id⟩

theorem recordFault (recalls : before.Recalls table) {fault : SemanticFault}
    (circles : ∀ binding name, fault = .ownerCycle binding name → table.RunsInCircle binding) :
    (before.recordFault fault).Recalls table := by
  refine recalls.of_same keeps_recordFault rfl (fun _ _ => rfl) (fun _ _ => rfl) rfl ?_
  intro binding name isFault
  rcases fault_recordFault isFault with earlier | isNew
  · exact recalls.fault binding name earlier
  · exact circles binding name isNew.symm

/-- A new facade remembers nothing. -/
theorem withSymbol (recalls : before.Recalls table)
    (isNew : before.symbolIndex.lookup binding = none) :
    (before.noteMiss.withSymbol binding (newSymbol table binding)).Recalls table where
  symbol _ := forall_withSymbol (fun other facade => facade.view = table.symbolView other) isNew
    recalls.symbol rfl
  symbolIndex _ _ := showsSymbol_withSymbol recalls.symbolIndex rfl
  outermost symbol answer inside remembered := by
    rcases old_or_new inside with old | rfl
    · rw [symbol_withSymbol_old old] at remembered ⊢
      rcases recalls.outermost symbol answer old remembered with ⟨shown, isShown, last⟩
      exact ⟨shown, optionRel_imp (fun _ _ => keeps_withSymbol.showsSymbol) isShown, last⟩
    · rw [symbol_withSymbol_new] at remembered
      cases remembered
  fault := recalls.fault

/-- Remembering the outermost type. -/
theorem remember (recalls : before.Recalls table) (isShown : before.ShowsSymbol symbol binding)
    {answer : Option SymbolId} {shown : Option BindingId}
    (answerShown : Option.Rel before.ShowsSymbol answer shown)
    (last : table.LastType none binding shown) :
    (before.modifySymbol symbol fun facade =>
      { facade with outermost := some answer }).Recalls table := by
  have keeps : Keeps before
      (before.modifySymbol symbol fun facade => { facade with outermost := some answer }) :=
    keeps_modifySymbol fun _ => rfl
  have size : (before.modifySymbol symbol fun facade =>
      { facade with outermost := some answer }).symbols.size = before.symbols.size := by
    simp [modifySymbol]
  refine ⟨?_, ?_, ?_, recalls.fault⟩
  · intro other inside
    rw [size] at inside
    rcases recalls.symbol other inside with ⟨found, view, indexed⟩
    have same : ((before.modifySymbol symbol fun facade =>
        { facade with outermost := some answer }).symbol other).view = (before.symbol other).view :=
      read_modifySymbol SymbolFacade.view (fun _ => rfl) inside
    exact ⟨found, same.trans view, indexed⟩
  · exact fun other symbol found => keeps.showsSymbol (recalls.symbolIndex other symbol found)
  · intro other remembered inside isRemembered
    rw [size] at inside
    rw [(keeps.symbol other inside).2]
    have still : ∀ {answer : Option SymbolId} {shown : Option BindingId},
        Option.Rel before.ShowsSymbol answer shown → Option.Rel (before.modifySymbol symbol
          fun facade => { facade with outermost := some _ }).ShowsSymbol answer shown :=
      optionRel_imp fun _ _ => keeps.showsSymbol
    by_cases same : other = symbol
    · subst same
      rw [symbol_modifySymbol inside] at isRemembered
      obtain rfl := Option.some.inj isRemembered
      exact ⟨shown, still answerShown, isShown.2 ▸ last⟩
    · rw [symbol_modifySymbol_of_ne same] at isRemembered
      rcases recalls.outermost other remembered inside isRemembered with ⟨shown, isShown, last⟩
      exact ⟨shown, still isShown, last⟩

end Recalls

end Cache

end JavaInspect
