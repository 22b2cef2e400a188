import JavaInspect.Proofs.Semantics.Outcome

/-!
# Facades are canonical

Asking for the facade of a binding yields the one facade that shows it. For type
facades this needs that no array contains itself.
-/

namespace JavaInspect

open Relation Cache

namespace Table

variable {table : Table} {binding other : BindingId}

/-- An array type is linked to its component type. -/
abbrev Contains (table : Table) : BindingId → BindingId → Prop :=
  Links table.component?

/-- No array type contains itself. -/
def ArraysEnd (table : Table) : Prop :=
  ∀ binding, Grounded table.Contains binding

theorem inTable_of_component (hasComponent : (table.component? binding).isSome) :
    binding.index < table.size := by
  by_contra outside
  simp [component?, facadeKind?, entry_of_outside outside] at hasComponent

theorem components_eq (arraysEnd : table.ArraysEnd) : table.components binding =
    match table.component? binding with
    | none => []
    | some component => component :: table.components component :=
  chain_eq (arraysEnd binding) fun _ => inTable_of_component

theorem known?_of_noFacade (noKind : table.facadeKind? binding = none) :
    table.known? binding = none := by
  rw [known?, isKnown, noKind]
  rfl

end Table

namespace Cache

/-- The bindings whose type facades are asked for along an array: those inside it are asked
for only when the array itself is new. -/
def askedAlong (cache : Cache) (binding : BindingId) : List BindingId → List BindingId
  | [] => [binding]
  | component :: rest =>
      if (cache.typeIndex.lookup binding).isSome then [binding]
      else binding :: cache.askedAlong component rest

/-- The bindings whose type facades are asked for together with that of a binding. -/
def asked (cache : Cache) (table : Table) (binding : BindingId) : List BindingId :=
  cache.askedAlong binding (table.components binding)

/-- What asking for the type facades of bindings makes of a cache: the index gains those of
them that it lacked, each once and at the cost of one miss, and nothing but type facades
changes. -/
structure TypesGrow (table : Table) (asked : List BindingId) (before after : Cache) : Prop
    extends Keeps before after where
  valid : after.ValidTypes table
  symbols : after.symbols = before.symbols
  symbolIndex : after.symbolIndex = before.symbolIndex
  fault : after.fault = before.fault
  indexed : ∀ binding, (after.typeIndex.lookup binding).isSome ↔
    binding ∈ asked ∨ (before.typeIndex.lookup binding).isSome
  distinct : (before.typeIndex.map Prod.fst).Nodup → (after.typeIndex.map Prod.fst).Nodup
  misses : after.misses + before.typeIndex.length = before.misses + after.typeIndex.length

variable {table : Table} {before middle : Cache} {binding other : BindingId}
  {asked inside : List BindingId} {facade : TypeFacade}

theorem isSome_lookup_iff {Value : Type} {index : List (BindingId × Value)} :
    (index.lookup binding).isSome ↔ binding ∈ index.map Prod.fst := by
  simp [List.lookup_isSome_iff]

theorem isSome_lookup_insert {Value : Type} {index : List (BindingId × Value)} {value : Value} :
    (((binding, value) :: index).lookup other).isSome ↔
      other = binding ∨ (index.lookup other).isSome := by
  rw [isSome_lookup_iff, isSome_lookup_iff, List.map_cons, List.mem_cons]

/-- An index stays without duplicates when it gains a new key. -/
theorem nodup_insert {Value : Type} {index : List (BindingId × Value)} {value : Value}
    (isNew : index.lookup binding = none) (unique : (index.map Prod.fst).Nodup) :
    (((binding, value) :: index).map Prod.fst).Nodup := by
  refine List.nodup_cons.2 ⟨?_, unique⟩
  rw [← isSome_lookup_iff, isNew]
  exact Bool.false_ne_true

theorem askedAlong_noteMiss :
    before.noteMiss.askedAlong binding inside = before.askedAlong binding inside := by
  induction inside generalizing binding with
  | nil => rfl
  | cons component rest ih => rw [askedAlong, askedAlong, ih]; rfl

theorem asked_of_found (found : (before.typeIndex.lookup binding).isSome) :
    before.asked table binding = [binding] := by
  rw [Cache.asked]
  cases table.components binding with
  | nil => rfl
  | cons component rest => rw [askedAlong, if_pos found]

theorem self_mem_asked : binding ∈ before.asked table binding := by
  rw [Cache.asked, askedAlong.eq_def]
  split
  · exact List.mem_cons_self
  · split <;> exact List.mem_cons_self

/-- Only a binding and what it contains are asked for. -/
theorem contains_of_asked (arraysEnd : table.ArraysEnd)
    (isAsked : other ∈ before.asked table binding) :
    ReflTransGen table.Contains binding other := by
  induction arraysEnd binding with
  | intro binding _ ih =>
      rw [Cache.asked, Table.components_eq arraysEnd] at isAsked
      cases isComponent : table.component? binding with
      | none =>
          rw [isComponent] at isAsked
          obtain rfl := List.mem_singleton.1 isAsked
          exact .refl
      | some component =>
          simp only [isComponent, askedAlong] at isAsked
          split at isAsked
          · obtain rfl := List.mem_singleton.1 isAsked
            exact .refl
          · rcases List.mem_cons.1 isAsked with rfl | within
            · exact .refl
            · exact .head isComponent (ih component isComponent within)

namespace TypesGrow

theorem refl (valid : before.ValidTypes table) : TypesGrow table [] before before where
  toKeeps := .refl
  valid := valid
  symbols := rfl
  symbolIndex := rfl
  fault := rfl
  indexed := by simp
  distinct unique := unique
  misses := rfl

theorem noteHit (valid : before.ValidTypes table)
    (found : (before.typeIndex.lookup binding).isSome) :
    TypesGrow table [binding] before before.noteHit where
  toKeeps := keeps_noteHit
  valid := valid.of_same keeps_noteHit rfl rfl
  symbols := rfl
  symbolIndex := rfl
  fault := rfl
  indexed other := by
    simp only [Cache.noteHit, List.mem_singleton]
    constructor
    · exact .inr
    · rintro (rfl | already)
      · exact found
      · exact already
  distinct unique := unique
  misses := rfl

theorem bindUnknown (valid : before.ValidTypes table)
    (isNew : before.typeIndex.lookup binding = none) (unknown : table.known? binding = none) :
    TypesGrow table [binding] before (before.noteMiss.bindUnknown binding) where
  toKeeps := keeps_noteMiss.trans keeps_bindUnknown
  valid := validTypes_bindUnknown (valid.of_same keeps_noteMiss rfl rfl) isNew unknown
  symbols := rfl
  symbolIndex := rfl
  fault := rfl
  indexed other := by
    rw [List.mem_singleton]
    exact isSome_lookup_insert
  distinct := nodup_insert isNew
  misses := Nat.add_right_comm before.misses 1 before.typeIndex.length

/-- The facade of an array is made after those of what is inside. -/
theorem withType (grows : TypesGrow table asked before.noteMiss middle)
    (isNew : middle.typeIndex.lookup binding = none)
    (describes : middle.DescribesType table binding facade) :
    TypesGrow table (binding :: asked) before (middle.withType binding facade) where
  toKeeps := keeps_noteMiss.trans (grows.toKeeps.trans keeps_withType)
  valid := validTypes_withType grows.valid isNew describes
  symbols := grows.symbols
  symbolIndex := grows.symbolIndex
  fault := grows.fault
  indexed other := by
    rw [List.mem_cons, or_assoc]
    exact isSome_lookup_insert.trans (or_congr_right (grows.indexed other))
  distinct unique := nodup_insert isNew (grows.distinct unique)
  misses := by
    have balanced := grows.misses
    simp only [Cache.noteMiss, Cache.withType, List.length_cons] at balanced ⊢
    omega

end TypesGrow

end Cache

namespace Query

variable {table : Table} {blame : SemanticFault → Prop} {before : Cache} {binding : BindingId}

/-! ## Type facades -/

theorem ensures_pushType {facade : TypeFacade} {claim : TypeId → Cache → Prop}
    (isNew : before.typeIndex.lookup binding = none)
    (holds : claim ⟨before.types.size⟩ (before.withType binding facade)) :
    Ensures (modifyGet (·.pushType binding facade)) before claim := by
  show claim (before.pushType binding facade).1 (before.pushType binding facade).2
  rw [pushType_of_new isNew]
  exact holds

/-- The facade of a binding is in the index, which grows by what is asked for. -/
theorem typeOf_grows (arraysEnd : table.ArraysEnd) (valid : before.ValidTypes table)
    (binding : BindingId) :
    Ensures (typeOf table binding) before fun type after =>
      after.typeIndex.lookup binding = some type ∧
        TypesGrow table (before.asked table binding) before after := by
  -- The induction goes down the component types.
  induction arraysEnd binding generalizing before with
  | intro binding _ ih =>
      rw [typeOf, typeAlong.eq_def]
      apply Ensures.get
      cases found : before.typeIndex.lookup binding with
      | some type =>
          have isFound : (before.typeIndex.lookup binding).isSome := Option.isSome_of_eq_some found
          rw [asked_of_found isFound]
          exact ⟨found, .noteHit valid isFound⟩
      | none =>
          have missed : Ensures noteMiss before fun _ after => after = before.noteMiss := rfl
          apply missed.bind
          intro _ _ same
          subst same
          have isNew : before.noteMiss.typeIndex.lookup binding = none := found
          have started : TypesGrow table [] before.noteMiss before.noteMiss :=
            .refl (valid.of_same keeps_noteMiss rfl rfl)
          rw [Cache.asked, Table.components_eq arraysEnd]
          cases isKind : table.facadeKind? binding with
          | none =>
              have noComponent : table.component? binding = none := by
                rw [Table.component?, isKind, if_neg (by decide)]
              rw [noComponent]
              exact ⟨lookup_insert.trans (if_pos rfl),
                .bindUnknown valid found (table.known?_of_noFacade isKind)⟩
          | some kind =>
              cases isComponent : table.component? binding with
              | none =>
                  simp only [pure_bind]
                  apply ensures_pushType isNew
                  refine ⟨lookup_insert.trans (if_pos rfl), started.withType isNew ?_⟩
                  refine ⟨rfl, rfl, rfl, isKind, ?_⟩
                  rw [isComponent]
                  exact .none
              | some component =>
                  simp only [bind_map_left]
                  apply (ih component isComponent started.valid).bind
                  intro element middle outcome
                  rcases outcome with ⟨indexed, grows⟩
                  -- The component does not contain the array, which is therefore still new.
                  have stillNew : middle.typeIndex.lookup binding = none := by
                    rw [← Option.not_isSome_iff_eq_none, grows.indexed binding]
                    rintro (isAsked | already)
                    · have back := contains_of_asked arraysEnd isAsked
                      exact (arraysEnd binding).noCycle (TransGen.head' isComponent back)
                    · rw [isNew] at already
                      cases already
                  have isAsked :
                      before.askedAlong binding (component :: table.components component) =
                      binding :: before.noteMiss.asked table component := by
                    rw [askedAlong, found, if_neg (by decide), Cache.asked, askedAlong_noteMiss]
                  rw [isAsked]
                  apply ensures_pushType stillNew
                  refine ⟨lookup_insert.trans (if_pos rfl), grows.withType stillNew ?_⟩
                  refine ⟨rfl, rfl, rfl, isKind, ?_⟩
                  rw [isComponent]
                  exact .some (grows.valid.typeIndex component element indexed)

/-- The facade of a binding shows it. -/
theorem yields_typeOf (arraysEnd : table.ArraysEnd) (valid : before.Valid table) :
    Yields table blame (typeOf table binding) before fun type after =>
      after.ShowsType type (table.known? binding) := by
  rcases typeOf_grows arraysEnd valid.toValidTypes binding with ⟨indexed, grows⟩
  exact ⟨leads_of_validTypes valid grows.toKeeps grows.valid grows.symbols grows.symbolIndex
    grows.fault, grows.valid.typeIndex binding _ indexed⟩

theorem yields_typesOf {bindings : List BindingId} (arraysEnd : table.ArraysEnd)
    (valid : before.Valid table) :
    Yields table blame (typesOf table bindings) before fun types after =>
      after.ShowsTypes types (bindings.map table.known?) := by
  have asked := Yields.mapM (fun cache type binding => cache.ShowsType type (table.known? binding))
    (fun keeps => keeps.showsType) valid
    fun binding (_ : binding ∈ bindings) middle (leads : Leads table blame before middle) =>
      yields_typeOf arraysEnd leads.valid
  apply asked.imp
  intro types after _ isShown
  exact List.forall₂_map_right_iff.2 isShown

theorem yields_resolveType {name : String} (arraysEnd : table.ArraysEnd)
    (valid : before.Valid table) :
    Yields table blame (resolveType table name) before fun type after =>
      after.ShowsType type ((table.resolveType name).bind table.known?) := by
  rw [resolveType]
  cases table.resolveType name with
  | none => exact .pure valid ⟨valid.unknown.1, by rw [valid.unknown.2]; rfl⟩
  | some binding => exact yields_typeOf arraysEnd valid

/-! ## Symbol facades -/

theorem symbolOf_of_found {symbol : SymbolId}
    (found : before.symbolIndex.lookup binding = some symbol) :
    symbolOf table binding before = (symbol, before.noteHit) := by
  rw [symbolOf, get_bind_apply, found]
  rfl

theorem symbolOf_of_new (isNew : before.symbolIndex.lookup binding = none) :
    symbolOf table binding before =
      (⟨before.symbols.size⟩, before.noteMiss.withSymbol binding (newSymbol table binding)) := by
  rw [symbolOf, get_bind_apply, isNew]
  exact pushSymbol_of_new isNew

theorem yields_symbolOf (valid : before.Valid table) :
    Yields table blame (symbolOf table binding) before fun symbol after =>
      after.ShowsSymbol symbol binding := by
  rw [Yields, Ensures]
  cases found : before.symbolIndex.lookup binding with
  | some symbol =>
      rw [symbolOf_of_found found]
      have leads : Leads table blame before before.noteHit := leads_noteHit valid
      exact ⟨leads, leads.valid.symbolIndex binding symbol found⟩
  | none =>
      rw [symbolOf_of_new found]
      have missed : Leads table blame before before.noteMiss := leads_noteMiss valid
      have leads := missed.trans (leads_withSymbol missed.valid found)
      exact ⟨leads, leads.valid.symbolIndex binding _ (lookup_insert.trans (if_pos rfl))⟩

theorem yields_symbolsOf {bindings : List BindingId} (valid : before.Valid table) :
    Yields table blame (bindings.mapM (symbolOf table)) before fun symbols after =>
      after.ShowsSymbols symbols bindings :=
  .mapM Cache.ShowsSymbol (fun keeps => keeps.showsSymbol) valid
    fun _ _ _ leads => yields_symbolOf leads.valid

end Query

end JavaInspect
