import JavaInspect.Proofs.Semantics.Search

/-!
# What is remembered about a symbol

The interfaces, the members and the annotations of a symbol are computed once. A query
yields what the table determines, whether it computes the answer or finds it remembered.
-/

namespace JavaInspect

open Relation Cache

namespace Query

variable {Answer : Type} {table : Table} {blame : SemanticFault → Prop} {before : Cache}
  {binding : BindingId} {symbol : SymbolId}

/-- A remembered answer may be given again when it is the one that would be computed,
and when remembering it touches neither marks nor supertypes. -/
theorem Yields.memoized {slot : SymbolFacade → Option Answer}
    {store : Answer → SymbolFacade → SymbolFacade} {compute : SymbolFacade → Query Answer}
    {meaning : Answer → Cache → Prop}
    (stable : ∀ {answer before after}, Keeps before after → meaning answer before →
      meaning answer after)
    (keepsBinding : ∀ answer facade, (store answer facade).binding = facade.binding)
    (keepsMark : ∀ answer facade, (store answer facade).linearizing = facade.linearizing)
    (keepsSuperTypes : ∀ answer facade, (store answer facade).superTypes = facade.superTypes)
    (stored : ∀ answer cache facade, meaning answer cache →
      DescribesSymbol cache table binding facade →
        DescribesSymbol cache table binding (store answer facade))
    (valid : before.Valid table) (isShown : before.ShowsSymbol symbol binding)
    (recalled : ∀ answer, slot (before.symbol symbol) = some answer → meaning answer before)
    (computed : Yields table blame (compute (before.symbol symbol)) before meaning) :
    Yields table blame (Query.memoized slot store compute symbol) before meaning := by
  rw [Query.memoized]
  apply Yields.readSymbol
  cases remembered : slot (before.symbol symbol) with
  | some answer =>
      apply (Yields.noteHit valid).bind
      intro _ _ leads same
      subst same
      exact .pure leads.valid (stable leads.toKeeps (recalled answer remembered))
  | none =>
      apply computed.bind
      intro answer middle leads holds
      have middleShown := leads.toKeeps.showsSymbol isShown
      have describes := stored answer middle _ holds (leads.valid.describesSymbol middleShown)
      have remembers : Leads table blame middle (middle.modifySymbol symbol (store answer)) :=
        leads_modifySymbol leads.valid (keepsBinding answer) (keepsMark answer)
          (keepsSuperTypes answer) middleShown describes
      exact ⟨remembers, stable remembers.toKeeps holds⟩

theorem yields_interfaces (arraysEnd : table.ArraysEnd) (valid : before.Valid table)
    (isShown : before.ShowsSymbol symbol binding) :
    Yields table blame (interfaces table symbol) before fun types after =>
      after.ShowsTypes types (table.interfaceTypes binding) := by
  have describes := valid.describesSymbol isShown
  rw [interfaces]
  apply Yields.memoized
  case valid => exact valid
  case isShown => exact isShown
  case recalled => exact describes.interfaces
  case computed =>
    rw [describes.binding, describes.recovered, Table.interfaceTypes]
    split
    · exact .pure valid .nil
    · exact yields_typesOf arraysEnd valid
  case stable => exact fun keeps => keeps.showsTypes
  case stored =>
    intro types cache facade isShown describes
    exact { describes with
      interfaces := by
        intro _ isSame
        cases isSame
        exact isShown }
  all_goals exact fun _ _ => rfl

theorem yields_memberSymbols (valid : before.Valid table)
    (isShown : before.ShowsSymbol symbol binding) :
    Yields table blame (memberSymbols table symbol) before fun members after =>
      after.ShowsSymbols members (table.distinctMembers binding) := by
  have describes := valid.describesSymbol isShown
  rw [memberSymbols]
  apply Yields.memoized
  case valid => exact valid
  case isShown => exact isShown
  case recalled => exact describes.members
  case computed =>
    rw [describes.binding, describes.recovered, Table.distinctMembers]
    split
    · exact .pure valid .nil
    · apply (yields_symbolsOf valid).map
      intro members after leads isShown
      exact rel_eraseDups leads.valid.biUnique_showsSymbol isShown
  case stable => exact fun keeps => keeps.showsSymbols
  case stored =>
    intro members cache facade isShown describes
    exact { describes with
      members := by
        intro _ isSame
        cases isSame
        exact isShown }
  all_goals exact fun _ _ => rfl

theorem yields_annotationOf (arraysEnd : table.ArraysEnd) (valid : before.Valid table) :
    Yields table blame (annotationOf table binding) before fun use after =>
      after.ShowsAnnotation table use binding := by
  rw [annotationOf]
  apply (yields_typeOf arraysEnd valid).bind
  intro type after leads isShown
  by_cases known : table.isKnown binding
  · rw [Table.known?, if_pos known] at isShown
    rw [leads.valid.isUnknown_eq_false isShown]
    exact .pure leads.valid ⟨known, isShown⟩
  · rw [Table.known?, if_neg known] at isShown
    obtain rfl := (leads.valid.eq_unknown_iff isShown).2 rfl
    exact .pure leads.valid ⟨known, rfl⟩

theorem yields_metadata (arraysEnd : table.ArraysEnd) (valid : before.Valid table)
    (isShown : before.ShowsSymbol symbol binding) :
    Yields table blame (metadata table symbol) before fun annotations after =>
      List.Forall₂ (after.ShowsAnnotation table) annotations (table.annotationTypes binding) := by
  have describes := valid.describesSymbol isShown
  rw [metadata]
  apply Yields.memoized
  case valid => exact valid
  case isShown => exact isShown
  case recalled => exact describes.metadata
  case computed =>
    rw [describes.binding, describes.recovered, Table.annotationTypes]
    split
    · exact .pure valid .nil
    · exact .mapM (fun cache => cache.ShowsAnnotation table) (fun keeps => keeps.showsAnnotation)
        valid fun _ _ _ leads => yields_annotationOf arraysEnd leads.valid
  case stable => exact fun keeps isShown => isShown.imp fun _ _ => keeps.showsAnnotation
  case stored =>
    intro annotations cache facade isShown describes
    exact { describes with
      metadata := by
        intro _ isSame
        cases isSame
        exact isShown }
  all_goals exact fun _ _ => rfl

end Query

end JavaInspect
