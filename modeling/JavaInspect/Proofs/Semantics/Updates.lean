import JavaInspect.Proofs.Semantics.Validity

/-!
# Changes of a valid cache

Each way in which a query changes the cache keeps it valid and lets it only grow.
-/

namespace JavaInspect

namespace Cache

variable {table : Table} {cache before after : Cache} {blame : SemanticFault → Prop}
  {type : TypeId} {symbol other : SymbolId} {binding : BindingId}

/-! ## What stays the same -/

theorem ValidTypes.of_same (valid : before.ValidTypes table) (keeps : Keeps before after)
    (types : after.types = before.types) (typeIndex : after.typeIndex = before.typeIndex) :
    after.ValidTypes table where
  unknown := by
    rw [Cache.type, types]
    exact valid.unknown
  type type inside different := by
    rw [types] at inside
    rcases valid.type type inside different with ⟨binding, describes, indexed⟩
    rw [(keeps.type type inside).2, typeIndex]
    exact ⟨binding, keeps.describesType describes, indexed⟩
  typeIndex binding type found := keeps.showsType (valid.typeIndex binding type (typeIndex ▸ found))

theorem ValidSymbols.of_same (valid : before.ValidSymbols table) (keeps : Keeps before after)
    (symbols : after.symbols = before.symbols)
    (symbolIndex : after.symbolIndex = before.symbolIndex) :
    after.ValidSymbols table where
  symbol symbol inside := by
    rw [symbols] at inside
    rcases valid.symbol symbol inside with ⟨binding, describes, indexed⟩
    rw [Cache.symbol, symbols, symbolIndex]
    exact ⟨binding, keeps.describesSymbol describes, indexed⟩
  symbolIndex binding symbol found :=
    keeps.showsSymbol (valid.symbolIndex binding symbol (symbolIndex ▸ found))

/-- A change that leaves the symbol facades alone. -/
theorem Grows.of_sameSymbols (keeps : Keeps before after) (symbols : after.symbols = before.symbols)
    (fault : after.fault = before.fault) : Grows blame before after where
  toKeeps := keeps
  stillOpen binding := by simp [Open, Marked, ShowsSymbol, Cache.symbol, symbols]
  finished binding finished := by
    simpa [Finished, Marked, ShowsSymbol, Cache.symbol, symbols] using finished
  fault _ isFault := fault ▸ isFault
  blamed _ isFault := .inl (fault ▸ isFault)

/-- A change of the type facades. -/
theorem leads_of_validTypes (valid : before.Valid table) (keeps : Keeps before after)
    (validTypes : after.ValidTypes table) (symbols : after.symbols = before.symbols)
    (symbolIndex : after.symbolIndex = before.symbolIndex) (fault : after.fault = before.fault) :
    Leads table blame before after where
  toGrows := .of_sameSymbols keeps symbols fault
  valid :=
    { toValidTypes := validTypes
      toValidSymbols := valid.toValidSymbols.of_same keeps symbols symbolIndex
      reported := by
        intro noFault binding finished
        apply valid.reported (fault ▸ noFault) binding
        simpa [Finished, Marked, ShowsSymbol, Cache.symbol, symbols] using finished }

theorem keeps_noteHit : Keeps cache cache.noteHit := .of_same rfl rfl

theorem keeps_noteMiss : Keeps cache cache.noteMiss := .of_same rfl rfl

theorem leads_noteHit (valid : cache.Valid table) : Leads table blame cache cache.noteHit :=
  leads_of_validTypes valid keeps_noteHit (valid.toValidTypes.of_same keeps_noteHit rfl rfl) rfl rfl
    rfl

theorem leads_noteMiss (valid : cache.Valid table) : Leads table blame cache cache.noteMiss :=
  leads_of_validTypes valid keeps_noteMiss (valid.toValidTypes.of_same keeps_noteMiss rfl rfl) rfl
    rfl rfl

/-! ## New facades -/

/-- Looking up in an index with a new key. -/
theorem lookup_insert {Value : Type} {index : List (BindingId × Value)} {key sought : BindingId}
    {value : Value} : ((key, value) :: index).lookup sought =
      if sought = key then some value else index.lookup sought := by
  rw [List.lookup_cons]
  by_cases same : sought = key
  · simp [same]
  · simp [same, beq_eq_false_iff_ne.2 same]

/-- The key of what is already found is not new. -/
theorem lookup_insert_of_found {Value : Type} {index : List (BindingId × Value)}
    {key sought : BindingId} {value old : Value} (isNew : index.lookup key = none)
    (found : index.lookup sought = some old) :
    ((key, value) :: index).lookup sought = some old := by
  rw [lookup_insert]
  split
  case isTrue same =>
    rw [same, isNew] at found
    cases found
  case isFalse => exact found

theorem keeps_bindUnknown : Keeps cache (cache.bindUnknown binding) := .of_same rfl rfl

theorem validTypes_bindUnknown (valid : cache.ValidTypes table)
    (isNew : cache.typeIndex.lookup binding = none)
    (unknown : table.known? binding = none) : (cache.bindUnknown binding).ValidTypes table where
  unknown := valid.unknown
  type type inside different := by
    rcases valid.type type inside different with ⟨other, describes, indexed⟩
    exact ⟨other, keeps_bindUnknown.describesType describes, lookup_insert_of_found isNew indexed⟩
  typeIndex other type found := by
    rw [bindUnknown, lookup_insert] at found
    split at found
    case isTrue same =>
      obtain rfl := Option.some.inj found
      rw [same, unknown]
      refine ⟨valid.unknown.1, ?_⟩
      have blank : (cache.bindUnknown binding).type .unknown = {} := valid.unknown.2
      rw [blank]
    case isFalse => exact keeps_bindUnknown.showsType (valid.typeIndex other type found)

section PushType

variable {facade : TypeFacade}

/-- The cache with a further type facade. -/
def withType (cache : Cache) (binding : BindingId) (facade : TypeFacade) : Cache :=
  { cache with
    types := cache.types.push facade
    typeIndex := (binding, ⟨cache.types.size⟩) :: cache.typeIndex }

theorem pushType_of_new (isNew : cache.typeIndex.lookup binding = none) :
    cache.pushType binding facade = (⟨cache.types.size⟩, cache.withType binding facade) := by
  rw [pushType, isNew]
  rfl

theorem keeps_withType : Keeps cache (cache.withType binding facade) where
  type type inside := by
    refine ⟨by simpa [withType] using Nat.lt_succ_of_lt inside, ?_⟩
    simp only [Cache.type, withType, Array.getElem?_push_lt inside,
      Array.getElem?_eq_getElem inside]
  symbol _ inside := ⟨inside, rfl⟩

theorem type_withType : (cache.withType binding facade).type ⟨cache.types.size⟩ = facade := by
  simp [Cache.type, withType]

theorem validTypes_withType (valid : cache.ValidTypes table)
    (isNew : cache.typeIndex.lookup binding = none)
    (describes : cache.DescribesType table binding facade) :
    (cache.withType binding facade).ValidTypes table where
  unknown := by
    rcases valid.unknown with ⟨inside, blank⟩
    rcases keeps_withType.type .unknown inside with ⟨stillInside, same⟩
    exact ⟨Nat.lt_of_le_of_lt (Nat.zero_le _) stillInside, same.trans blank⟩
  type type inside different := by
    by_cases old : type.index < cache.types.size
    · rcases valid.type type old different with ⟨other, describes, indexed⟩
      rw [(keeps_withType.type type old).2]
      exact ⟨other, keeps_withType.describesType describes, lookup_insert_of_found isNew indexed⟩
    · obtain rfl : type = ⟨cache.types.size⟩ := by
        have isLast : type.index = cache.types.size := by
          simp only [withType, Array.size_push] at inside
          omega
        cases type
        exact congrArg TypeId.mk isLast
      rw [type_withType]
      refine ⟨binding, keeps_withType.describesType describes, ?_⟩
      rw [withType, lookup_insert, if_pos rfl]
  typeIndex other type found := by
    rw [withType, lookup_insert] at found
    split at found
    case isTrue same =>
      obtain rfl := Option.some.inj found
      have known : table.known? binding = some binding := by
        rw [Table.known?, Table.isKnown, describes.kind]
        rfl
      rw [same, known]
      exact ⟨by simp [withType], by rw [type_withType, describes.binding]⟩
    case isFalse => exact keeps_withType.showsType (valid.typeIndex other type found)

end PushType

section PushSymbol

/-- The first facade of a symbol: nothing is remembered yet. -/
def newSymbol (table : Table) (binding : BindingId) : SymbolFacade :=
  { binding
    kind := (table.entry binding).kind
    name := (table.entry binding).name
    recovered := (table.entry binding).recovered }

theorem describesSymbol_newSymbol :
    cache.DescribesSymbol table binding (newSymbol table binding) := by
  constructor <;> simp [newSymbol]

/-- The cache with a further symbol facade. -/
def withSymbol (cache : Cache) (binding : BindingId) (facade : SymbolFacade) : Cache :=
  { cache with
    symbols := cache.symbols.push facade
    symbolIndex := (binding, ⟨cache.symbols.size⟩) :: cache.symbolIndex }

theorem pushSymbol_of_new {facade : SymbolFacade}
    (isNew : cache.symbolIndex.lookup binding = none) :
    cache.pushSymbol binding facade = (⟨cache.symbols.size⟩, cache.withSymbol binding facade) := by
  rw [pushSymbol, isNew]
  rfl

theorem symbol_withSymbol_old {facade : SymbolFacade} (inside : symbol.index < cache.symbols.size) :
    (cache.withSymbol binding facade).symbol symbol = cache.symbol symbol := by
  simp only [Cache.symbol, withSymbol, Array.getElem?_push_lt inside,
    Array.getElem?_eq_getElem inside]

theorem symbol_withSymbol_new {facade : SymbolFacade} :
    (cache.withSymbol binding facade).symbol ⟨cache.symbols.size⟩ = facade := by
  simp [Cache.symbol, withSymbol]

theorem keeps_withSymbol {facade : SymbolFacade} :
    Keeps cache (cache.withSymbol binding facade) where
  type _ inside := ⟨inside, rfl⟩
  symbol symbol inside := by
    rw [symbol_withSymbol_old inside]
    exact ⟨by simpa [withSymbol] using Nat.lt_succ_of_lt inside, rfl⟩

/-- A symbol of the grown cache is an old one or the new one. -/
theorem old_or_new {facade : SymbolFacade}
    (inside : symbol.index < (cache.withSymbol binding facade).symbols.size) :
    symbol.index < cache.symbols.size ∨ symbol = ⟨cache.symbols.size⟩ := by
  by_cases old : symbol.index < cache.symbols.size
  · exact .inl old
  · right
    have isLast : symbol.index = cache.symbols.size := by
      simp only [withSymbol, Array.size_push] at inside
      omega
    cases symbol
    exact congrArg SymbolId.mk isLast

/-- What holds of all old symbol facades and of the new one holds of all. -/
theorem forall_withSymbol {facade : SymbolFacade} (holds : BindingId → SymbolFacade → Prop)
    (isNew : cache.symbolIndex.lookup binding = none)
    (old : ∀ symbol, symbol.index < cache.symbols.size →
      ∃ other, holds other (cache.symbol symbol) ∧ cache.symbolIndex.lookup other = some symbol)
    (new : holds binding facade)
    (inside : symbol.index < (cache.withSymbol binding facade).symbols.size) :
    ∃ other, holds other ((cache.withSymbol binding facade).symbol symbol) ∧
      (cache.withSymbol binding facade).symbolIndex.lookup other = some symbol := by
  rcases old_or_new inside with isOld | rfl
  · rcases old symbol isOld with ⟨other, holdsOld, indexed⟩
    rw [symbol_withSymbol_old isOld]
    exact ⟨other, holdsOld, lookup_insert_of_found isNew indexed⟩
  · rw [symbol_withSymbol_new]
    exact ⟨binding, new, lookup_insert.trans (if_pos rfl)⟩

/-- When the old index leads to what shows its keys, the new one does. -/
theorem showsSymbol_withSymbol {facade : SymbolFacade} {shown : BindingId}
    (old : ∀ other symbol, cache.symbolIndex.lookup other = some symbol →
      cache.ShowsSymbol symbol other)
    (isOwn : facade.binding = binding)
    (found : (cache.withSymbol binding facade).symbolIndex.lookup shown = some symbol) :
    (cache.withSymbol binding facade).ShowsSymbol symbol shown := by
  rw [withSymbol, lookup_insert] at found
  split at found
  case isTrue same =>
    obtain rfl := Option.some.inj found
    refine ⟨by simp [withSymbol], ?_⟩
    rw [symbol_withSymbol_new, same, isOwn]
  case isFalse => exact keeps_withSymbol.showsSymbol (old shown symbol found)

/-- The new symbol is not marked, and the old ones keep their marks. -/
theorem marked_withSymbol_iff {mark : SymbolFacade → Prop} {shown : BindingId}
    (unmarked : ¬ mark (newSymbol table binding)) :
    (cache.withSymbol binding (newSymbol table binding)).Marked mark shown ↔
      cache.Marked mark shown := by
  constructor
  · intro found
    rcases found with ⟨symbol, ⟨inside, sameBinding⟩, marked⟩
    rcases old_or_new inside with old | rfl
    · rw [symbol_withSymbol_old old] at sameBinding marked
      exact ⟨symbol, ⟨old, sameBinding⟩, marked⟩
    · rw [symbol_withSymbol_new] at marked
      exact absurd marked unmarked
  · intro found
    rcases found with ⟨symbol, isShown, marked⟩
    refine ⟨symbol, keeps_withSymbol.showsSymbol isShown, ?_⟩
    rw [symbol_withSymbol_old isShown.1]
    exact marked

theorem leads_withSymbol (valid : cache.Valid table)
    (isNew : cache.symbolIndex.lookup binding = none) :
    Leads table blame cache (cache.withSymbol binding (newSymbol table binding)) where
  toKeeps := keeps_withSymbol
  stillOpen _ := marked_withSymbol_iff (by simp [newSymbol])
  finished _ := (marked_withSymbol_iff (by simp [newSymbol])).2
  fault _ isFault := isFault
  blamed _ isFault := .inl isFault
  valid :=
    { toValidTypes := valid.toValidTypes.of_same keeps_withSymbol rfl rfl
      symbol := fun symbol inside =>
        forall_withSymbol _ isNew
          (fun symbol inside => (valid.symbol symbol inside).imp fun _ describes =>
            describes.imp_left keeps_withSymbol.describesSymbol)
          describesSymbol_newSymbol inside
      symbolIndex := fun _ _ => showsSymbol_withSymbol valid.symbolIndex rfl
      reported := by
        intro noFault other finished
        have wasFinished := (marked_withSymbol_iff (by simp [newSymbol])).1 finished
        exact valid.reported noFault other wasFinished }

end PushSymbol

/-! ## Changed facades -/

section ModifySymbol

variable {change : SymbolFacade → SymbolFacade}

theorem symbol_modifySymbol (inside : symbol.index < cache.symbols.size) :
    (cache.modifySymbol symbol change).symbol symbol = change (cache.symbol symbol) := by
  simp [Cache.symbol, modifySymbol, Array.getElem_modify, inside]

theorem symbol_modifySymbol_of_ne (different : other ≠ symbol) :
    (cache.modifySymbol symbol change).symbol other = cache.symbol other := by
  have differentIndex : symbol.index ≠ other.index := by
    intro same
    cases symbol
    cases other
    exact different (congrArg SymbolId.mk same.symm)
  simp [Cache.symbol, modifySymbol, Array.getElem?_modify, differentIndex]

theorem keeps_modifySymbol (keepsBinding : ∀ facade, (change facade).binding = facade.binding) :
    Keeps cache (cache.modifySymbol symbol change) where
  type _ inside := ⟨inside, rfl⟩
  symbol other inside := by
    refine ⟨by simpa [modifySymbol] using inside, ?_⟩
    by_cases same : other = symbol
    · subst same
      rw [symbol_modifySymbol inside, keepsBinding]
    · rw [symbol_modifySymbol_of_ne same]

/-- A changed facade has to describe its binding; all others still do. -/
theorem validSymbols_modifySymbol (valid : cache.Valid table)
    (keepsBinding : ∀ facade, (change facade).binding = facade.binding)
    (isShown : cache.ShowsSymbol symbol binding)
    (describes : cache.DescribesSymbol table binding (change (cache.symbol symbol))) :
    (cache.modifySymbol symbol change).ValidSymbols table where
  symbol other inside := by
    have keeps : Keeps cache (cache.modifySymbol symbol change) := keeps_modifySymbol keepsBinding
    have old : other.index < cache.symbols.size := by simpa [modifySymbol] using inside
    by_cases same : other = symbol
    · subst same
      rw [symbol_modifySymbol old]
      exact ⟨binding, keeps.describesSymbol describes, valid.lookup_symbolIndex isShown⟩
    · rcases valid.symbol other old with ⟨binding, otherDescribes, indexed⟩
      rw [symbol_modifySymbol_of_ne same]
      exact ⟨binding, keeps.describesSymbol otherDescribes, indexed⟩
  symbolIndex other symbol found :=
    (keeps_modifySymbol keepsBinding).showsSymbol (valid.symbolIndex other symbol found)

/-- A change decides on the mark of the one binding that its facade shows. -/
theorem marked_modifySymbol {mark : SymbolFacade → Prop} {shown : BindingId}
    (valid : cache.Valid table)
    (keepsBinding : ∀ facade, (change facade).binding = facade.binding)
    (isShown : cache.ShowsSymbol symbol binding) :
    (cache.modifySymbol symbol change).Marked mark shown ↔
      if shown = binding then mark (change (cache.symbol symbol)) else cache.Marked mark shown := by
  have keeps : Keeps cache (cache.modifySymbol symbol change) := keeps_modifySymbol keepsBinding
  have otherSymbol {other : SymbolId} (otherShown : cache.ShowsSymbol other shown)
      (different : shown ≠ binding) : other ≠ symbol := by
    intro same
    subst same
    exact different (otherShown.2.symm.trans isShown.2)
  constructor
  · intro found
    rcases found with ⟨other, ⟨inside, sameBinding⟩, marked⟩
    have old : other.index < cache.symbols.size := by simpa [modifySymbol] using inside
    have otherShown : cache.ShowsSymbol other shown :=
      ⟨old, (keeps.symbol other old).2 ▸ sameBinding⟩
    split
    case isTrue same =>
      obtain rfl := valid.symbol_eq isShown (same ▸ otherShown)
      rwa [symbol_modifySymbol old] at marked
    case isFalse different =>
      rw [symbol_modifySymbol_of_ne (otherSymbol otherShown different)] at marked
      exact ⟨other, otherShown, marked⟩
  · split
    case isTrue same =>
      intro marked
      refine ⟨symbol, same ▸ keeps.showsSymbol isShown, ?_⟩
      rwa [symbol_modifySymbol isShown.1]
    case isFalse different =>
      intro found
      rcases found with ⟨other, otherShown, marked⟩
      refine ⟨other, keeps.showsSymbol otherShown, ?_⟩
      rwa [symbol_modifySymbol_of_ne (otherSymbol otherShown different)]

/-- Marks that a change keeps are kept in the whole cache. -/
theorem marked_modifySymbol_iff {mark : SymbolFacade → Prop} {shown : BindingId}
    (valid : cache.Valid table)
    (keepsBinding : ∀ facade, (change facade).binding = facade.binding)
    (isShown : cache.ShowsSymbol symbol binding)
    (keepsMark : mark (change (cache.symbol symbol)) ↔ mark (cache.symbol symbol)) :
    (cache.modifySymbol symbol change).Marked mark shown ↔ cache.Marked mark shown := by
  rw [marked_modifySymbol valid keepsBinding isShown]
  split
  case isTrue same => rw [same, valid.marked_iff isShown, keepsMark]
  case isFalse => rfl

/-- A change that touches neither marks nor supertypes. -/
theorem leads_modifySymbol (valid : cache.Valid table)
    (keepsBinding : ∀ facade, (change facade).binding = facade.binding)
    (keepsMark : ∀ facade, (change facade).linearizing = facade.linearizing)
    (keepsSuperTypes : ∀ facade, (change facade).superTypes = facade.superTypes)
    (isShown : cache.ShowsSymbol symbol binding)
    (describes : cache.DescribesSymbol table binding (change (cache.symbol symbol))) :
    Leads table blame cache (cache.modifySymbol symbol change) := by
  have sameFinished (other : BindingId) :
      (cache.modifySymbol symbol change).Finished other ↔ cache.Finished other :=
    marked_modifySymbol_iff valid keepsBinding isShown (by rw [keepsSuperTypes])
  exact
    { toKeeps := keeps_modifySymbol keepsBinding
      stillOpen := fun _ => marked_modifySymbol_iff valid keepsBinding isShown (by rw [keepsMark])
      finished := fun other => (sameFinished other).2
      fault := fun _ isFault => isFault
      blamed := fun _ isFault => .inl isFault
      valid :=
        { toValidTypes := valid.toValidTypes.of_same (keeps_modifySymbol keepsBinding) rfl rfl
          toValidSymbols := validSymbols_modifySymbol valid keepsBinding isShown describes
          reported := fun noFault other finished =>
            valid.reported noFault other ((sameFinished other).1 finished) } }

end ModifySymbol

/-! ## Faults -/

theorem keeps_recordFault {fault : SemanticFault} : Keeps cache (cache.recordFault fault) :=
  .of_same rfl rfl

/-- The first fault is an earlier one or the reported one. -/
theorem fault_recordFault {fault later : SemanticFault}
    (isFault : (cache.recordFault fault).fault = some later) :
    cache.fault = some later ∨ later = fault := by
  cases isEarlier : cache.fault with
  | none =>
      simp only [recordFault, isEarlier, Option.none_or, Option.some.injEq] at isFault
      exact .inr isFault.symm
  | some earlier =>
      simp only [recordFault, isEarlier, Option.some_or] at isFault
      exact .inl isFault

theorem leads_recordFault (valid : cache.Valid table) {fault : SemanticFault}
    (isBlamed : blame fault) :
    Leads table blame cache (cache.recordFault fault) where
  toKeeps := keeps_recordFault
  stillOpen _ := Iff.rfl
  finished _ finished := finished
  fault earlier isEarlier := by simp [recordFault, isEarlier]
  blamed later isLater := by
    rcases fault_recordFault isLater with isEarlier | rfl
    · exact .inl isEarlier
    · exact .inr isBlamed
  valid :=
    { toValidTypes := valid.toValidTypes.of_same keeps_recordFault rfl rfl
      toValidSymbols := valid.toValidSymbols.of_same keeps_recordFault rfl rfl
      reported := by
        intro noFault
        cases isEarlier : cache.fault <;> simp [recordFault, isEarlier] at noFault }

theorem isSome_recordFault {fault : SemanticFault} : (cache.recordFault fault).fault.isSome := by
  cases isEarlier : cache.fault <;> simp [recordFault, isEarlier]

end Cache

end JavaInspect
