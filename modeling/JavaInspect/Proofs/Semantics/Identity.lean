import JavaInspect.Proofs.Semantics.Histories
import JavaInspect.Proofs.Semantics.Runs
import Mathlib.Data.Finset.Card

/-!
# The identity of facades

A context makes one facade for every binding that it is asked for. The account of a run says
how the facades, the indexes and the counter of misses go together with what was asked for;
every step keeps it. What facades show is then read off the table.
-/

namespace JavaInspect

open Cache Query

namespace Cache

/-- The bindings that were asked for as types. -/
def askedTypes (asks : List Ask) : Finset BindingId :=
  (asks.filterMap fun | .type binding => some binding | .symbol _ => none).toFinset

/-- The bindings that were asked for as symbols. -/
def askedSymbols (asks : List Ask) : Finset BindingId :=
  (asks.filterMap fun | .type _ => none | .symbol binding => some binding).toFinset

variable (cache : Cache) (table : Table) (asks : List Ask)

/-- A type facade shows what the table answers about a binding. -/
structure AnswersFor (shown : BindingId) (facade : TypeFacade) : Prop where
  binding : facade.binding = some shown
  name : facade.name = (table.entry shown).name
  qualifiedName : facade.qualifiedName = (table.entry shown).qualifiedName
  kind : some facade.kind = (table.entry shown).typeKind
  resolved : (table.entry shown).recovered = false
  element : Option.Rel (fun type component => cache.ShowsType type (table.known? component))
    facade.element (table.entry shown).element

/-- The facades of a cache are canonical for what was asked for. -/
structure Canonical : Prop where
  unknown : 0 < cache.types.size ∧ cache.type .unknown = {}
  /-- Every other type facade is that of a known type that was asked for. -/
  type : ∀ type, type.index < cache.types.size → type ≠ .unknown →
    ∃ binding ∈ askedTypes asks, table.isKnown binding ∧
      cache.AnswersFor table binding (cache.type type)
  oneType : ∀ binding ∈ askedTypes asks, table.isKnown binding →
    ∃! type, cache.ShowsType type (some binding)
  sameType : ∀ type other, type.index < cache.types.size → other.index < cache.types.size →
    (type = other ↔ (cache.type type).binding = (cache.type other).binding)
  symbol : ∀ symbol, symbol.index < cache.symbols.size →
    ∃ binding ∈ askedSymbols asks, cache.viewSymbol symbol = table.symbolView binding
  oneSymbol : ∀ binding ∈ askedSymbols asks, ∃! symbol, cache.ShowsSymbol symbol binding
  identity : ∀ binding first second,
    cache.fault ≠ some (.identityViolation binding first second)
  misses : cache.misses = (askedTypes asks).card + (askedSymbols asks).card

/-! ## The account of a run -/

/-- How facades, indexes and misses go together with what was asked for. -/
structure Accounted : Prop extends ValidTypes cache table where
  typeAsked : ∀ binding, (cache.typeIndex.lookup binding).isSome ↔ .type binding ∈ asks
  distinctTypes : (cache.typeIndex.map Prod.fst).Nodup
  symbol : ∀ symbol, symbol.index < cache.symbols.size →
    ∃ binding, (cache.symbol symbol).view = table.symbolView binding ∧
      cache.symbolIndex.lookup binding = some symbol
  symbolIndex : ∀ binding symbol, cache.symbolIndex.lookup binding = some symbol →
    cache.ShowsSymbol symbol binding
  symbolAsked : ∀ binding, (cache.symbolIndex.lookup binding).isSome ↔ .symbol binding ∈ asks
  distinctSymbols : (cache.symbolIndex.map Prod.fst).Nodup
  misses : cache.misses = cache.typeIndex.length + cache.symbolIndex.length
  fault : ∀ fault, cache.fault = some fault → fault.IsCycle

variable {cache table asks} {before after : Cache} {more : List Ask} {binding : BindingId}

namespace Accounted

theorem empty : Accounted {} table [] where
  toValidTypes := Valid.empty.toValidTypes
  typeAsked := by simp
  distinctTypes := .nil
  symbol _ inside := by simp at inside
  symbolIndex _ _ found := by simp at found
  symbolAsked := by simp
  distinctSymbols := .nil
  misses := rfl
  fault _ isFault := by simp at isFault

/-- A change of what is remembered, of the hits or of the fault. -/
theorem of_same (accounted : before.Accounted table asks) (keeps : Keeps before after)
    (types : after.types = before.types) (typeIndex : after.typeIndex = before.typeIndex)
    (size : after.symbols.size = before.symbols.size)
    (view : ∀ symbol, symbol.index < before.symbols.size →
      (after.symbol symbol).view = (before.symbol symbol).view)
    (symbolIndex : after.symbolIndex = before.symbolIndex) (misses : after.misses = before.misses)
    (fault : ∀ fault, after.fault = some fault → fault.IsCycle) : after.Accounted table asks where
  toValidTypes := accounted.toValidTypes.of_same keeps types typeIndex
  typeAsked := typeIndex ▸ accounted.typeAsked
  distinctTypes := typeIndex ▸ accounted.distinctTypes
  symbol symbol inside := by
    rw [size] at inside
    rw [view symbol inside, symbolIndex]
    exact accounted.symbol symbol inside
  symbolIndex binding symbol found :=
    keeps.showsSymbol (accounted.symbolIndex binding symbol (symbolIndex ▸ found))
  symbolAsked := symbolIndex ▸ accounted.symbolAsked
  distinctSymbols := symbolIndex ▸ accounted.distinctSymbols
  misses := by rw [misses, accounted.misses, typeIndex, symbolIndex]
  fault := fault

theorem noteHit (accounted : before.Accounted table asks) :
    before.noteHit.Accounted table asks :=
  accounted.of_same keeps_noteHit rfl rfl rfl (fun _ _ => rfl) rfl rfl accounted.fault

/-- Asking again for what was asked for changes nothing. -/
theorem again (accounted : before.Accounted table asks) {ask : Ask} (asked : ask ∈ asks) :
    before.Accounted table (asks ++ [ask]) where
  toValidTypes := accounted.toValidTypes
  typeAsked binding := by
    rw [accounted.typeAsked binding, List.mem_append, List.mem_singleton]
    exact ⟨.inl, fun isAsked => isAsked.elim id (· ▸ asked)⟩
  distinctTypes := accounted.distinctTypes
  symbol := accounted.symbol
  symbolIndex := accounted.symbolIndex
  symbolAsked binding := by
    rw [accounted.symbolAsked binding, List.mem_append, List.mem_singleton]
    exact ⟨.inl, fun isAsked => isAsked.elim id (· ▸ asked)⟩
  distinctSymbols := accounted.distinctSymbols
  misses := accounted.misses
  fault := accounted.fault

/-- Asking for the type facades of bindings. -/
theorem typesGrow {asked : List BindingId} (accounted : before.Accounted table asks)
    (grows : TypesGrow table asked before after) :
    after.Accounted table (asks ++ asked.map .type) where
  toValidTypes := grows.valid
  typeAsked binding := by
    rw [grows.indexed binding, accounted.typeAsked binding]
    simp [or_comm]
  distinctTypes := grows.distinct accounted.distinctTypes
  symbol symbol inside := by
    rw [grows.symbols] at inside
    rw [Cache.symbol, grows.symbols, grows.symbolIndex]
    exact accounted.symbol symbol inside
  symbolIndex binding symbol found :=
    grows.toKeeps.showsSymbol (accounted.symbolIndex binding symbol (grows.symbolIndex ▸ found))
  symbolAsked binding := by
    rw [grows.symbolIndex, accounted.symbolAsked binding]
    simp
  distinctSymbols := grows.symbolIndex ▸ accounted.distinctSymbols
  misses := by
    have balanced := grows.misses
    have balancedBefore := accounted.misses
    rw [grows.symbolIndex]
    omega
  fault := grows.fault ▸ accounted.fault

/-- Adding the symbol facade of a binding that has none, at the cost of one miss. -/
theorem withSymbol (accounted : before.Accounted table asks)
    (isNew : before.symbolIndex.lookup binding = none) :
    (before.noteMiss.withSymbol binding (newSymbol table binding)).Accounted table
      (asks ++ [.symbol binding]) where
  toValidTypes := accounted.toValidTypes.of_same (keeps_noteMiss.trans keeps_withSymbol) rfl rfl
  typeAsked other := (accounted.typeAsked other).trans (by simp)
  distinctTypes := accounted.distinctTypes
  symbol _ := forall_withSymbol (fun other facade => facade.view = table.symbolView other) isNew
    accounted.symbol rfl
  symbolIndex _ _ := showsSymbol_withSymbol accounted.symbolIndex rfl
  symbolAsked other := isSome_lookup_insert.trans <|
    (or_congr_right (accounted.symbolAsked other)).trans (by simp [or_comm])
  distinctSymbols := nodup_insert isNew accounted.distinctSymbols
  misses := congrArg Nat.succ accounted.misses
  fault := accounted.fault

/-! ## Every step keeps the account -/

theorem step (accounted : before.Accounted table asks) (arraysEnd : table.ArraysEnd)
    (step : Step table before more after) :
    Keeps before after ∧ after.Accounted table (asks ++ more) := by
  cases step with
  | type binding =>
      have grows := (typeOf_grows arraysEnd accounted.toValidTypes binding).2
      exact ⟨grows.toKeeps, accounted.typesGrow grows⟩
  | symbol binding =>
      cases found : before.symbolIndex.lookup binding with
      | some symbol =>
          rw [symbolOf_of_found found]
          have asked := (accounted.symbolAsked binding).1 (Option.isSome_of_eq_some found)
          exact ⟨keeps_noteHit, accounted.noteHit.again asked⟩
      | none =>
          rw [symbolOf_of_new found]
          exact ⟨keeps_noteMiss.trans keeps_withSymbol, accounted.withSymbol found⟩
  | hit =>
      rw [List.append_nil]
      exact ⟨keeps_noteHit, accounted.noteHit⟩
  | @remember symbol change keepsView =>
      rw [List.append_nil]
      have keeps : Keeps before (before.modifySymbol symbol change) :=
        keeps_modifySymbol fun facade => congrArg SymbolView.binding (keepsView facade)
      refine ⟨keeps, ?_⟩
      refine accounted.of_same keeps rfl rfl (by simp [modifySymbol]) ?_ rfl rfl accounted.fault
      intro other inside
      by_cases same : other = symbol
      · subst same
        rw [symbol_modifySymbol inside, keepsView]
      · rw [symbol_modifySymbol_of_ne same]
  | report isCycle =>
      rw [List.append_nil]
      refine ⟨keeps_recordFault, ?_⟩
      refine accounted.of_same keeps_recordFault rfl rfl rfl (fun _ _ => rfl) rfl rfl ?_
      intro fault isFault
      rcases fault_recordFault isFault with earlier | rfl
      · exact accounted.fault fault earlier
      · exact isCycle
  | takeFault =>
      rw [List.append_nil]
      refine ⟨.of_same rfl rfl, ?_⟩
      refine accounted.of_same (.of_same rfl rfl) rfl rfl rfl (fun _ _ => rfl) rfl rfl ?_
      intro fault isFault
      cases isFault

/-- Every run keeps the account. -/
theorem run (accounted : before.Accounted table asks) (arraysEnd : table.ArraysEnd)
    (run : Run table before more after) :
    Keeps before after ∧ after.Accounted table (asks ++ more) := by
  induction run with
  | refl => exact ⟨.refl, (List.append_nil asks).symm ▸ accounted⟩
  | tail _ step ih =>
      rcases ih with ⟨keeps, accountedSoFar⟩
      rcases accountedSoFar.step arraysEnd step with ⟨keepsOn, accountedNow⟩
      exact ⟨keeps.trans keepsOn, List.append_assoc .. ▸ accountedNow⟩

/-- What was asked for does not depend on how a run is read. -/
theorem mem_asks_iff (first : cache.Accounted table asks) (second : cache.Accounted table more)
    (ask : Ask) : ask ∈ asks ↔ ask ∈ more := by
  cases ask with
  | type binding => rw [← first.typeAsked, second.typeAsked]
  | symbol binding => rw [← first.symbolAsked, second.symbolAsked]

/-- Every run of a new context has its account. -/
theorem of_run (arraysEnd : table.ArraysEnd) (run : Run table {} asks cache) :
    cache.Accounted table asks :=
  (empty.run arraysEnd run).2

/-! ## What an account says -/

theorem mem_askedTypes : binding ∈ askedTypes asks ↔ .type binding ∈ asks := by
  simp only [askedTypes, List.mem_toFinset, List.mem_filterMap]
  constructor
  · rintro ⟨ask, asked, isSame⟩
    cases ask <;> simp_all
  · exact fun asked => ⟨_, asked, rfl⟩

theorem mem_askedSymbols : binding ∈ askedSymbols asks ↔ .symbol binding ∈ asks := by
  simp only [askedSymbols, List.mem_toFinset, List.mem_filterMap]
  constructor
  · rintro ⟨ask, asked, isSame⟩
    cases ask <;> simp_all
  · exact fun asked => ⟨_, asked, rfl⟩

/-- An index without duplicates has as many keys as entries. -/
theorem card_eq_length {Value : Type} {index : List (BindingId × Value)}
    {asked : Finset BindingId} (distinct : (index.map Prod.fst).Nodup)
    (isIndexed : ∀ binding, (index.lookup binding).isSome ↔ binding ∈ asked) :
    asked.card = index.length := by
  have sameKeys : asked = (index.map Prod.fst).toFinset := by
    ext binding
    rw [← isIndexed, isSome_lookup_iff, List.mem_toFinset]
  rw [sameKeys, List.toFinset_card_of_nodup distinct, List.length_map]

/-- The answers about a known type are what its facade shows. -/
theorem answersFor_of_describes (linked : table.WellLinked) {facade : TypeFacade}
    (describes : cache.DescribesType table binding facade) :
    cache.AnswersFor table binding facade := by
  rcases Table.facadeKind?_eq_some_iff.1 describes.kind with ⟨isKind, -, resolved⟩
  refine ⟨describes.binding, describes.name, describes.qualifiedName, isKind.symm, resolved, ?_⟩
  have sameElement : table.component? binding = (table.entry binding).element := by
    rw [Table.component?, describes.kind]
    cases isElement : (table.entry binding).element with
    | none => exact ite_self none
    | some component =>
        rw [← isKind, linked.componentOfArray binding component isElement, if_pos rfl]
  exact sameElement ▸ describes.element

theorem canonical (linked : table.WellLinked) (accounted : cache.Accounted table asks) :
    cache.Canonical table asks where
  unknown := accounted.unknown
  type type inside different := by
    rcases accounted.type type inside different with ⟨binding, describes, indexed⟩
    refine ⟨binding, ?_, ?_, answersFor_of_describes linked describes⟩
    · rw [mem_askedTypes, ← accounted.typeAsked, indexed]
      rfl
    · rw [Table.isKnown, describes.kind]
      rfl
  oneType binding asked known := by
    rw [mem_askedTypes, ← accounted.typeAsked, Option.isSome_iff_exists] at asked
    rcases asked with ⟨type, indexed⟩
    have isShown := accounted.typeIndex binding type indexed
    rw [Table.known?, if_pos known] at isShown
    exact ⟨type, isShown, fun _ otherShown => accounted.toValidTypes.type_eq otherShown isShown⟩
  sameType type other inside otherInside :=
    ⟨fun same => same ▸ rfl, fun same =>
      accounted.toValidTypes.type_eq ⟨inside, same⟩ ⟨otherInside, rfl⟩⟩
  symbol symbol inside := by
    rcases accounted.symbol symbol inside with ⟨binding, sameView, indexed⟩
    refine ⟨binding, ?_, sameView⟩
    rw [mem_askedSymbols, ← accounted.symbolAsked, indexed]
    rfl
  oneSymbol binding asked := by
    rw [mem_askedSymbols, ← accounted.symbolAsked, Option.isSome_iff_exists] at asked
    rcases asked with ⟨symbol, indexed⟩
    refine ⟨symbol, accounted.symbolIndex binding symbol indexed, ?_⟩
    intro other isShown
    rcases accounted.symbol other isShown.1 with ⟨shown, sameView, otherIndexed⟩
    have sameBinding : shown = binding :=
      (congrArg SymbolView.binding sameView).symm.trans isShown.2
    rw [sameBinding, indexed] at otherIndexed
    exact (Option.some.inj otherIndexed).symm
  identity binding first second isFault := accounted.fault _ isFault
  misses := by
    have types := card_eq_length accounted.distinctTypes fun binding =>
      (accounted.typeAsked binding).trans mem_askedTypes.symm
    have symbols := card_eq_length accounted.distinctSymbols fun binding =>
      (accounted.symbolAsked binding).trans mem_askedSymbols.symm
    rw [accounted.misses, types, symbols]

end Accounted

end Cache

namespace Use

variable {table : Table} {before : Cache}

/-! ## Uses of a context -/

theorem performs (use : Use) : Performs table (use.perform table) :=
  .of_moves use.moves

/-- Uses perform a run. -/
theorem run_after (uses : List Use) : ∃ asks, Run table before asks (after table before uses) := by
  induction uses generalizing before with
  | nil => exact ⟨[], .refl⟩
  | cons use uses ih =>
      rcases use.performs before with ⟨asks, run⟩
      rcases ih with ⟨more, runOn⟩
      exact ⟨asks ++ more, run.trans runOn⟩

/-- What a use always asks for is asked for in a run of all uses. -/
theorem exists_run_asking {uses : List Use} {use : Use} {ask : Ask} (member : use ∈ uses)
    (asks : ∀ middle, ∃ some, Step table middle some (use.perform table middle).2 ∧ ask ∈ some) :
    ∃ all, Run table before all (after table before uses) ∧ ask ∈ all := by
  induction uses generalizing before with
  | nil => cases member
  | cons first uses ih =>
      rcases List.mem_cons.1 member with rfl | later
      · rcases asks before with ⟨some, step, asked⟩
        rcases run_after uses with ⟨more, runOn⟩
        exact ⟨some ++ more, step.run.trans runOn, List.mem_append_left more asked⟩
      · rcases first.performs before with ⟨some, run⟩
        rcases ih later with ⟨more, runOn, asked⟩
        exact ⟨some ++ more, run.trans runOn, List.mem_append_right some asked⟩

/-- What a use always asks for is asked for in every run that the uses can be read as. -/
theorem asked_of_mem (arraysEnd : table.ArraysEnd) {uses : List Use} {use : Use} {ask : Ask}
    (asks : ∀ middle, ∃ some, Step table middle some (use.perform table middle).2 ∧ ask ∈ some)
    {all : List Ask} (run : Run table {} all (after table {} uses)) (member : use ∈ uses) :
    ask ∈ all := by
  rcases exists_run_asking member asks with ⟨some, runSome, asked⟩
  exact ((Accounted.of_run arraysEnd runSome).mem_asks_iff (.of_run arraysEnd run) ask).1 asked

/-- A facade that was handed out earlier equals one that is handed out later when both show
the same known type, or are unknown. -/
theorem typeOf_eq_iff (arraysEnd : table.ArraysEnd) {asks : List Ask}
    (accounted : before.Accounted table asks) (first second : BindingId) (later : List Use) :
    (typeOf table first before).1 =
        (typeOf table second (after table (typeOf table first before).2 later)).1 ↔
      table.known? first = table.known? second := by
  have handedOut := (accounted.step arraysEnd (.type first)).2
  rcases run_after later with ⟨more, runOn⟩
  rcases handedOut.run arraysEnd runOn with ⟨keeps, accountedLater⟩
  rcases accountedLater.step arraysEnd (.type second) with ⟨keepsOn, accountedLast⟩
  have firstIndexed := (typeOf_grows arraysEnd accounted.toValidTypes first).1
  have firstShown := keepsOn.showsType <| keeps.showsType <|
    handedOut.typeIndex first _ firstIndexed
  have secondIndexed := (typeOf_grows arraysEnd accountedLater.toValidTypes second).1
  have secondShown := accountedLast.typeIndex second _ secondIndexed
  constructor
  · intro same
    rw [← same] at secondShown
    exact firstShown.2.symm.trans secondShown.2
  · intro same
    rw [same] at firstShown
    exact accountedLast.toValidTypes.type_eq firstShown secondShown

/-- Whatever is done with a context over a built table is a run; the facades that a run makes
are canonical for the bindings that it asked for, also when faults were taken out on the way;
and facades that are handed out at different times are equal when they show the same known
type, or are unknown. -/
theorem facades_canonical (built : table.Built) :
    (∀ uses, ∃ asks, Run table {} asks (after table {} uses)) ∧
    (∀ asks cache, Run table {} asks cache → cache.Canonical table asks) ∧
    (∀ uses asks, Run table {} asks (after table {} uses) → ∀ binding,
      (.ask (.typeOf binding) ∈ uses → binding ∈ askedTypes asks) ∧
        (.ask (.symbol binding) ∈ uses → binding ∈ askedSymbols asks)) ∧
    ∀ uses first second later,
      (typeOf table first (after table {} uses)).1 =
          (typeOf table second
            (after table (typeOf table first (after table {} uses)).2 later)).1 ↔
        table.known? first = table.known? second := by
  have arraysEnd := built.wellLinked.arraysEnd
  refine ⟨run_after, ?_, ?_, ?_⟩
  · exact fun asks cache run => (Accounted.of_run arraysEnd run).canonical built.wellLinked
  · intro uses asks run binding
    rw [Accounted.mem_askedTypes, Accounted.mem_askedSymbols]
    constructor
    · exact asked_of_mem arraysEnd
        (fun _ => ⟨_, .type binding, List.mem_map_of_mem self_mem_asked⟩) run
    · exact asked_of_mem arraysEnd (fun _ => ⟨_, .symbol binding, List.mem_cons_self⟩) run
  · intro uses
    rcases run_after uses with ⟨asks, run⟩
    exact typeOf_eq_iff arraysEnd (.of_run arraysEnd run)

theorem facades_canonical_channels :
    let uses : List Use :=
      [.ask (.typeOf ⟨9⟩), .ask (.superTypes ⟨6⟩), .takeFault, .ask (.typeOf ⟨7⟩),
        .ask (.symbol ⟨11⟩)]
    let cache := after Table.channels {} uses
    (∃ asks, cache.Canonical Table.channels asks ∧ ⟨9⟩ ∈ askedTypes asks ∧
      ⟨7⟩ ∈ askedTypes asks ∧ ⟨11⟩ ∈ askedSymbols asks) ∧
    (typeOf Table.channels ⟨9⟩ cache).1 =
      (typeOf Table.channels ⟨9⟩
        (after Table.channels (typeOf Table.channels ⟨9⟩ cache).2 [.ask (.symbol ⟨5⟩)])).1 ∧
    (typeOf Table.channels ⟨8⟩ cache).1 ≠
      (typeOf Table.channels ⟨9⟩
        (after Table.channels (typeOf Table.channels ⟨8⟩ cache).2 [.takeFault])).1 := by
  intro uses cache
  have built : Table.channels.Built := Table.built_iff.2 ⟨_, rfl⟩
  obtain ⟨runs, canonical, asked, sameType⟩ := facades_canonical built
  rcases runs uses with ⟨asks, run⟩
  refine ⟨⟨asks, canonical asks cache run, ?_, ?_, ?_⟩, (sameType uses ⟨9⟩ ⟨9⟩ _).2 rfl, ?_⟩
  · exact (asked uses asks run ⟨9⟩).1 (by simp [uses])
  · exact (asked uses asks run ⟨7⟩).1 (by simp [uses])
  · exact (asked uses asks run ⟨11⟩).2 (by simp [uses])
  · intro same
    have sameKnown := (sameType uses ⟨8⟩ ⟨9⟩ _).1 same
    exact absurd sameKnown (by decide +kernel)

end Use

end JavaInspect
