import JavaInspect.Proofs.Semantics.Histories

/-!
# The supertypes of a type

What a search for supertypes answers, after any history of requests, in a table that
calls have built: the plain recursion where no cycle is reached, all that supertype steps
lead to where no circle exists at all, and a fault just when a cycle is reached. A search is made
once, so that checks of one type agree with each other, whether or not a cycle is reached.
-/

namespace JavaInspect

open Relation Cache

namespace Query

variable {table : Table} {binding : BindingId}

/-- The supertypes of a binding after a history of requests, and the cache that is left
behind. -/
def superTypesAfter (table : Table) (history : List Request) (binding : BindingId) :
    List TypeId × Cache :=
  (symbolOf table binding >>= superTypes table) (Request.cacheAfter table history)

theorem found_superTypesAfter (arraysEnd : table.ArraysEnd) (history : List Request)
    (binding : BindingId) :
    Found table binding (Request.cacheAfter table history)
      (superTypesAfter table history binding).1 (superTypesAfter table history binding).2 := by
  have idle := Request.idle_cacheAfter arraysEnd history
  have shown : Yields table (table.CycleAbove binding) (symbolOf table binding)
      (Request.cacheAfter table history) fun symbol after => after.ShowsSymbol symbol binding :=
    yields_symbolOf (Request.valid_cacheAfter arraysEnd history)
  rcases shown with ⟨leads, isShown⟩
  have found := found_superTypes arraysEnd leads.valid (idle.later leads.toGrows) isShown
  exact
    { leads := leads.trans found.leads
      settled := found.settled
      shown := found.shown }

/-! ## The order of supertypes -/

/-- The supertypes of a binding from which no cycle is reached are those of the plain
recursion, in its order. -/
theorem superTypes_recursion (built : table.Built) (unique : table.HasUniqueRoot)
    (history : List Request) (binding : BindingId)
    (noCycle : ∀ upper, ReflTransGen table.Above binding upper →
      ¬ TransGen table.Above upper upper) :
    table.ListsAbove table.lineage binding ∧
      ∀ lists, table.ListsAbove lists binding →
        (superTypesAfter table history binding).2.ShowsTypes
          (superTypesAfter table history binding).1 ((lists binding).map some) := by
  have grounded := Table.grounded_of_noCycle noCycle
  refine ⟨Table.listsAbove_lineage unique grounded, ?_⟩
  intro lists obeys
  have found := found_superTypesAfter built.wellLinked.arraysEnd history binding
  rw [obeys.eq_lineage unique grounded]
  exact found.shown grounded

/-- The channels and, beside them, cycles: an interface above itself, a cycle through a
superclass and interfaces, one that a recovered class breaks, and types below them. -/
def tangled : Table := Table.build (Table.channelCalls ++
  [ .declareType "Loop" .interface,
    .declareType "Knot" .class,
    .declareType "Rope" .class,
    .declareType "Ring" .interface,
    .declareType "Cut" .class,
    .declareType "Gone" .class,
    .declareType "Net" .class,
    .declareType "Web" .class,
    .addInterface ⟨13⟩ ⟨13⟩,
    .setSuperclass ⟨14⟩ ⟨15⟩,
    .addInterface ⟨15⟩ ⟨2⟩,
    .addInterface ⟨15⟩ ⟨16⟩,
    .addInterface ⟨16⟩ ⟨14⟩,
    .setSuperclass ⟨17⟩ ⟨18⟩,
    .setSuperclass ⟨18⟩ ⟨17⟩,
    .markRecovered ⟨18⟩,
    .setSuperclass ⟨19⟩ ⟨6⟩,
    .addInterface ⟨19⟩ ⟨15⟩,
    .setSuperclass ⟨20⟩ ⟨6⟩,
    .addInterface ⟨20⟩ ⟨19⟩ ])

theorem built_tangled : tangled.Built :=
  Table.built_iff.2 ⟨_, rfl⟩

theorem superTypes_recursion_tangled :
    (superTypesAfter tangled [.superTypes ⟨20⟩, .superTypes ⟨5⟩, .metadata ⟨5⟩] ⟨6⟩).2.ShowsTypes
      (superTypesAfter tangled [.superTypes ⟨20⟩, .superTypes ⟨5⟩, .metadata ⟨5⟩] ⟨6⟩).1
      [some ⟨5⟩, some ⟨3⟩, some ⟨2⟩, some ⟨4⟩, some ⟨1⟩] := by
  have unique : tangled.HasUniqueRoot := by decide +kernel
  have ends : endsWithin tangled.linearParents 5 ⟨6⟩ := by decide +kernel
  have grounded : Grounded tangled.Above ⟨6⟩ := .of_endsWithin (fun _ _ above => above) ends
  have recursion := superTypes_recursion built_tangled unique
    [.superTypes ⟨20⟩, .superTypes ⟨5⟩, .metadata ⟨5⟩] ⟨6⟩
    fun _ path => (grounded.reached path).noCycle
  rcases recursion with ⟨obeys, isShown⟩
  have inOrder : tangled.lineage ⟨6⟩ = [⟨5⟩, ⟨3⟩, ⟨2⟩, ⟨4⟩, ⟨1⟩] := by decide +kernel
  have shown := isShown tangled.lineage obeys
  rw [inOrder] at shown
  exact shown

/-! ## Reachable supertypes -/

theorem nodup_of_showsTypes {cache : Cache} {types : List TypeId} {shown : List BindingId}
    (valid : cache.Valid table) (isShown : cache.ShowsTypes types (shown.map some))
    (distinct : shown.Nodup) : types.Nodup := by
  have unique := valid.biUnique_showsType
  exact (List.rel_nodup unique isShown).2 (distinct.map (Option.some_injective BindingId))

theorem unknown_notMem_of_showsTypes {cache : Cache} {types : List TypeId}
    {shown : List BindingId} (valid : cache.Valid table)
    (isShown : cache.ShowsTypes types (shown.map some)) : TypeId.unknown ∉ types := by
  have unknownShown : cache.ShowsType .unknown none := by
    rw [ShowsType, valid.unknown.2]
    exact ⟨valid.unknown.1, rfl⟩
  have sameMember := List.rel_mem valid.biUnique_showsType unknownShown isShown
  simp [sameMember]

/-- In a table whose supertype steps run in no circle, and whose root has nothing above it,
the supertypes of a binding are exactly the types that one or more steps lead to: each is
listed once, the unknown type and the binding itself are not, and the root is the last. -/
theorem superTypes_reachable (built : table.Built) (unique : table.HasUniqueRoot)
    (bare : table.HasBareRoot) (acyclic : Acyclic table.StepsTo) (history : List Request)
    (binding : BindingId) :
    ∃ above : List BindingId,
      (superTypesAfter table history binding).2.ShowsTypes
        (superTypesAfter table history binding).1 (above.map some) ∧
      (∀ upper, upper ∈ above ↔ TransGen table.StepsTo binding upper) ∧
      above.Nodup ∧ (superTypesAfter table history binding).1.Nodup ∧
      TypeId.unknown ∉ (superTypesAfter table history binding).1 ∧
      binding ∉ above ∧
      ∀ root ∈ above, table.isRoot root → above.getLast? = some root := by
  have linked := built.wellLinked
  have grounded : Grounded table.Above binding := Table.grounded_of_acyclic acyclic
  have found := found_superTypesAfter linked.arraysEnd history binding
  have isShown := found.shown grounded
  have valid := found.leads.valid
  have reached (upper : BindingId) :
      upper ∈ table.lineage binding ↔ TransGen table.StepsTo binding upper :=
    Table.mem_lineage_iff linked unique bare acyclic
  have distinct := Table.nodup_lineage unique grounded
  refine ⟨table.lineage binding, isShown, reached, distinct,
    nodup_of_showsTypes valid isShown distinct, unknown_notMem_of_showsTypes valid isShown, ?_, ?_⟩
  · intro member
    exact acyclic binding ((reached binding).1 member)
  · intro root member isRoot
    exact Table.getLast?_lineage unique grounded member isRoot

theorem superTypes_reachable_channels :
    ∃ above : List BindingId,
      (superTypesAfter Table.channels [.superTypes ⟨5⟩, .typeOf ⟨9⟩] ⟨6⟩).2.ShowsTypes
        (superTypesAfter Table.channels [.superTypes ⟨5⟩, .typeOf ⟨9⟩] ⟨6⟩).1 (above.map some) ∧
      ⟨2⟩ ∈ above ∧ ⟨7⟩ ∉ above ∧ above.getLast? = some ⟨1⟩ := by
  have built : Table.channels.Built := Table.built_iff.2 ⟨_, rfl⟩
  have unique : Table.channels.HasUniqueRoot := by decide +kernel
  have bare : Table.channels.HasBareRoot := by decide +kernel
  have acyclic : Acyclic Table.channels.StepsTo :=
    Table.acyclic_of_bindings Table.channels.stepsFrom (fun _ _ => Table.mem_stepsFrom_iff.2)
      (fun _ _ => Table.StepsTo.inTable) (by decide +kernel)
  obtain ⟨above, isShown, reached, -, -, -, -, isLast⟩ :=
    superTypes_reachable built unique bare acyclic [.superTypes ⟨5⟩, .typeOf ⟨9⟩] ⟨6⟩
  have toPipe : Table.channels.StepsTo ⟨6⟩ ⟨5⟩ := by decide +kernel
  have toSource : Table.channels.StepsTo ⟨5⟩ ⟨3⟩ := by decide +kernel
  have toChannel : Table.channels.StepsTo ⟨3⟩ ⟨2⟩ := by decide +kernel
  have toRoot : Table.channels.StepsTo ⟨5⟩ ⟨1⟩ := by decide +kernel
  refine ⟨above, isShown, ?_, ?_, ?_⟩
  · exact (reached ⟨2⟩).2 (.head toPipe (.head toSource (.single toChannel)))
  · intro listed
    rcases TransGen.tail'_iff.1 ((reached ⟨7⟩).1 listed) with ⟨_, -, -, known, -⟩
    exact absurd known (by decide +kernel)
  · apply isLast ⟨1⟩ _ (by decide +kernel)
    exact (reached ⟨1⟩).2 (.head toPipe (.single toRoot))

/-! ## Faults -/

/-- What lies below the first levels of a search is itself a search. -/
theorem superTypesWithin_add {beyond : SymbolId → Query (List TypeId)} (extra depth : Nat) :
    superTypesWithin table beyond (extra + depth) =
      superTypesWithin table (superTypesWithin table beyond extra) depth := by
  induction depth with
  | zero => rfl
  | succ depth ih => rw [← Nat.add_assoc, superTypesWithin, superTypesWithin, ih]

/-- A search that may go deeper than the table is large does not depend on how deep it may
go. -/
theorem superTypesWithin_eq_superTypes {before : Cache} {symbol : SymbolId} {depth : Nat}
    (arraysEnd : table.ArraysEnd) (valid : before.Valid table) (idle : Idle before)
    (isShown : before.ShowsSymbol symbol binding) (enough : table.size < depth)
    (beyond : SymbolId → Query (List TypeId)) :
    superTypesWithin table beyond depth symbol before = superTypes table symbol before := by
  obtain ⟨extra, rfl⟩ : ∃ extra, depth = extra + (table.size + 1) :=
    Nat.exists_eq_add_of_le' enough
  have oneMore : table.size + 2 = 1 + (table.size + 1) := Nat.add_comm (table.size + 1) 1
  have agree (left right : SymbolId → Query (List TypeId)) :=
    agree_superTypes arraysEnd valid idle isShown (Nat.lt_succ_self table.size) left right
  rw [superTypes, oneMore, superTypesWithin_add extra, superTypesWithin_add 1]
  exact (agree _ _).1

/-- In an idle cache no symbol is marked. -/
theorem Idle.linearizing_eq_false {cache : Cache} (idle : Idle cache) (symbol : SymbolId) :
    (cache.symbol symbol).linearizing = false := by
  by_cases inside : symbol.index < cache.symbols.size
  · rw [← Bool.not_eq_true]
    intro marked
    exact idle _ ⟨symbol, ⟨inside, rfl⟩, marked⟩
  · have absent : cache.symbols[symbol.index]? = none :=
      Array.getElem?_eq_none (Nat.not_lt.1 inside)
    rw [Cache.symbol, absent]
    rfl

section AfterHistories

variable (arraysEnd : table.ArraysEnd) (history : List Request)

include arraysEnd in
theorem superTypesWithin_cacheAfter {depth : Nat} (enough : table.size < depth)
    (beyond : SymbolId → Query (List TypeId)) :
    (symbolOf table binding >>= superTypesWithin table beyond depth)
        (Request.cacheAfter table history) =
      superTypesAfter table history binding := by
  have idle := Request.idle_cacheAfter arraysEnd history
  have shown : Yields table (table.CycleAbove binding) (symbolOf table binding)
      (Request.cacheAfter table history) fun symbol after => after.ShowsSymbol symbol binding :=
    yields_symbolOf (Request.valid_cacheAfter arraysEnd history)
  rcases shown with ⟨leads, isShown⟩
  exact superTypesWithin_eq_superTypes arraysEnd leads.valid (idle.later leads.toGrows) isShown
    enough beyond

include arraysEnd in
/-- A new fault is a supertype cycle that is reached from the binding. -/
theorem cycleAbove_of_newFault {fault : SemanticFault}
    (noFault : (Request.cacheAfter table history).fault = none)
    (isFault : (superTypesAfter table history binding).2.fault = some fault) :
    table.CycleAbove binding fault := by
  have found := found_superTypesAfter arraysEnd history binding
  rcases found.leads.blamed fault isFault with already | isBlamed
  · cases noFault.symm.trans already
  · exact isBlamed

include arraysEnd in
/-- Without a fault the binding is finished, and so no cycle is reached from it. -/
theorem grounded_of_faultless
    (noFault : (superTypesAfter table history binding).2.fault = none) :
    Grounded table.Above binding := by
  have found := found_superTypesAfter arraysEnd history binding
  rcases found.settled with finished | faulty
  · exact found.leads.valid.reported noFault binding finished
  · rw [noFault] at faulty
    cases faulty

include arraysEnd in
/-- A search adds a fault just when a cycle is reached from the binding. -/
theorem faultless_iff : (superTypesAfter table history binding).2.fault = none ↔
    (Request.cacheAfter table history).fault = none ∧
      ∀ cyclic, ReflTransGen table.Above binding cyclic → ¬ TransGen table.Above cyclic cyclic := by
  have grows := (found_superTypesAfter arraysEnd history binding).leads.toGrows
  constructor
  · intro noFault
    constructor
    · cases isFault : (Request.cacheAfter table history).fault with
      | none => rfl
      | some fault => cases noFault.symm.trans (grows.fault fault isFault)
    · intro cyclic path
      exact ((grounded_of_faultless arraysEnd history noFault).reached path).noCycle
  · rintro ⟨noFault, noCycle⟩
    cases isFault : (superTypesAfter table history binding).2.fault with
    | none => rfl
    | some fault =>
        rcases cycleAbove_of_newFault arraysEnd history noFault isFault with
          ⟨cyclic, -, path, cycle⟩
        exact absurd cycle (noCycle cyclic path)

end AfterHistories

section NewCache

variable (arraysEnd : table.ArraysEnd)

include arraysEnd in
theorem superTypesWithin_eq_superTypesAfter {depth : Nat} (enough : table.size < depth)
    (beyond : SymbolId → Query (List TypeId)) :
    (symbolOf table binding >>= superTypesWithin table beyond depth) {} =
      superTypesAfter table [] binding :=
  superTypesWithin_cacheAfter arraysEnd [] enough beyond

include arraysEnd in
/-- A fault is a supertype cycle that is reached from the binding. -/
theorem cycleAbove_of_fault {fault : SemanticFault}
    (isFault : (superTypesAfter table [] binding).2.fault = some fault) :
    table.CycleAbove binding fault :=
  cycleAbove_of_newFault arraysEnd [] rfl isFault

include arraysEnd in
theorem fault_iff_cycle :
    (∃ cyclic name,
        (superTypesAfter table [] binding).2.fault = some (.supertypeCycle cyclic name)) ↔
      ∃ cyclic, ReflTransGen table.Above binding cyclic ∧ TransGen table.Above cyclic cyclic := by
  constructor
  · intro faulty
    rcases faulty with ⟨cyclic, name, isFault⟩
    rcases cycleAbove_of_fault arraysEnd isFault with ⟨_, ⟨⟩, path, cycle⟩
    exact ⟨cyclic, path, cycle⟩
  · intro reached
    rcases reached with ⟨cyclic, path, cycle⟩
    cases isFault : (superTypesAfter table [] binding).2.fault with
    | none =>
        have grounded := grounded_of_faultless arraysEnd [] isFault
        exact absurd cycle (grounded.reached path).noCycle
    | some fault =>
        rcases cycleAbove_of_fault arraysEnd isFault with ⟨blamed, rfl, -, -⟩
        exact ⟨blamed, _, rfl⟩

end NewCache

/-- On a new cache a search for supertypes ends on its own: it never gets as deep as the
table is large. It reports a fault just when a cycle is reached from the binding, and the
fault names a binding on such a cycle. No symbol is left marked. -/
theorem superTypes_cycle (built : table.Built) (binding : BindingId) :
    (∀ beyond depth, table.size < depth →
      (symbolOf table binding >>= superTypesWithin table beyond depth) {} =
        superTypesAfter table [] binding) ∧
    ((∃ cyclic name,
        (superTypesAfter table [] binding).2.fault = some (.supertypeCycle cyclic name)) ↔
      ∃ cyclic, ReflTransGen table.Above binding cyclic ∧ TransGen table.Above cyclic cyclic) ∧
    (∀ cyclic name,
      (superTypesAfter table [] binding).2.fault = some (.supertypeCycle cyclic name) →
        name = (table.entry cyclic).name ∧ ReflTransGen table.Above binding cyclic ∧
          TransGen table.Above cyclic cyclic) ∧
    ∀ symbol, ((superTypesAfter table [] binding).2.symbol symbol).linearizing = false := by
  have arraysEnd := built.wellLinked.arraysEnd
  refine ⟨?_, fault_iff_cycle arraysEnd, ?_, ?_⟩
  · intro beyond depth enough
    exact superTypesWithin_eq_superTypesAfter arraysEnd enough beyond
  · intro cyclic name isFault
    rcases cycleAbove_of_fault arraysEnd isFault with ⟨_, ⟨⟩, path, cycle⟩
    exact ⟨rfl, path, cycle⟩
  · have found := found_superTypesAfter arraysEnd [] binding
    exact (Idle.empty.later found.leads.toGrows).linearizing_eq_false

theorem superTypes_cycle_tangled :
    (∃ cyclic name,
      (superTypesAfter tangled [] ⟨20⟩).2.fault = some (.supertypeCycle cyclic name)) ∧
    (∀ symbol, ((superTypesAfter tangled [] ⟨20⟩).2.symbol symbol).linearizing = false) ∧
    ¬ ∃ cyclic name,
      (superTypesAfter tangled [] ⟨17⟩).2.fault = some (.supertypeCycle cyclic name) := by
  rcases superTypes_cycle built_tangled ⟨20⟩ with ⟨-, isFault, -, unmarked⟩
  rcases superTypes_cycle built_tangled ⟨17⟩ with ⟨-, cutFault, -, -⟩
  refine ⟨isFault.2 ⟨⟨15⟩, ?_, ?_⟩, unmarked, ?_⟩
  · have toNet : tangled.Above ⟨20⟩ ⟨19⟩ := by decide +kernel
    have toRope : tangled.Above ⟨19⟩ ⟨15⟩ := by decide +kernel
    exact .head toNet (.single toRope)
  · have toRing : tangled.Above ⟨15⟩ ⟨16⟩ := by decide +kernel
    have toKnot : tangled.Above ⟨16⟩ ⟨14⟩ := by decide +kernel
    have toRope : tangled.Above ⟨14⟩ ⟨15⟩ := by decide +kernel
    exact .head toRing (.head toKnot (.single toRope))
  · intro cutIsFaulty
    rcases cutFault.1 cutIsFaulty with ⟨cyclic, path, cycle⟩
    have ends : endsWithin tangled.linearParents 5 ⟨17⟩ := by decide +kernel
    have grounded : Grounded tangled.Above ⟨17⟩ := .of_endsWithin (fun _ _ above => above) ends
    exact (grounded.reached path).noCycle cycle

/-! ## Repeated searches -/

section Repetition

variable {before : Cache} {symbol : SymbolId} {type : TypeId}

theorem typeSymbol_of_isReference (valid : before.Valid table)
    (isShown : before.ShowsType type (some binding)) (reference : table.isReference binding) :
    typeSymbol table type before = (some <$> symbolOf table binding) before := by
  have isKind := (valid.describesType isShown).kind
  have isDeclared : (before.type type).kind.isDeclared ∨ (before.type type).kind = .array := by
    rw [Table.isReference, isKind] at reference
    cases kind : (before.type type).kind <;> simp [kind, TypeKind.isDeclared] at reference ⊢
  rw [typeSymbol, get_bind_apply]
  simp only [isShown.2]
  rw [if_pos (by simpa using isDeclared)]

theorem visitSuperTypes_of_remembered {search : SymbolId → Query (List TypeId)}
    {types : List TypeId} (remembered : (before.symbol symbol).superTypes = some types) :
    visitSuperTypes table search symbol before = (types, before.noteHit) := by
  rw [visitSuperTypes, readSymbol_bind_apply, remembered]
  rfl

/-- The last thing that a search does is to remember what it has found. -/
theorem visitSuperTypes_of_unmarked {search : SymbolId → Query (List TypeId)}
    (forgotten : (before.symbol symbol).superTypes = none)
    (unmarked : (before.symbol symbol).linearizing = false) :
    ∃ (types : List TypeId) (middle : Cache), visitSuperTypes table search symbol before =
      (types, middle.modifySymbol symbol (closing types)) := by
  rw [visitSuperTypes, readSymbol_bind_apply, forgotten, unmarked]
  exact ⟨_, _, rfl⟩

section Settling

variable (arraysEnd : table.ArraysEnd) (valid : before.Valid table) (idle : Idle before)

include arraysEnd valid idle

/-- What a search has found is remembered, on a cycle too. -/
theorem remembers_superTypes (isShown : before.ShowsSymbol symbol binding) :
    ((superTypes table symbol before).2.symbol symbol).superTypes =
      some (superTypes table symbol before).1 := by
  have leads := (found_superTypes arraysEnd valid idle isShown).leads
  have stillShown := leads.toKeeps.showsSymbol isShown
  rw [superTypes, superTypesWithin] at stillShown ⊢
  cases remembered : (before.symbol symbol).superTypes with
  | some types =>
      rw [visitSuperTypes_of_remembered remembered]
      exact remembered
  | none =>
      obtain ⟨types, middle, visited⟩ :=
        visitSuperTypes_of_unmarked remembered (idle.linearizing_eq_false symbol)
      rw [visited] at stillShown ⊢
      have inside : symbol.index < middle.symbols.size := by
        simpa [Cache.modifySymbol] using stillShown.1
      rw [symbol_modifySymbol inside]
      rfl

/-- The supertypes of a type are searched once. -/
theorem superTypesOf_again (isShown : before.ShowsType type (some binding))
    (reference : table.isReference binding) :
    superTypesOf table type (superTypesOf table type before).2 =
      ((superTypesOf table type before).1, (superTypesOf table type before).2.noteHit.noteHit) := by
  have asked {cache : Cache} (valid : cache.Valid table)
      (isShown : cache.ShowsType type (some binding)) : superTypesOf table type cache =
        superTypes table (symbolOf table binding cache).1 (symbolOf table binding cache).2 := by
    rw [superTypesOf, bind_apply, typeSymbol_of_isReference valid isShown reference]
    rfl
  have shown : Yields table (table.CycleAbove binding) (symbolOf table binding) before
      fun symbol after => after.ShowsSymbol symbol binding := yields_symbolOf valid
  obtain ⟨leads, symbolShown⟩ := shown
  have stillIdle := idle.later leads.toGrows
  have remembered := remembers_superTypes arraysEnd leads.valid stillIdle symbolShown
  have leadsOn := (found_superTypes arraysEnd leads.valid stillIdle symbolShown).leads
  rw [← asked valid isShown] at remembered leadsOn
  generalize superTypesOf table type before = found at remembered leadsOn ⊢
  have stillShown := leadsOn.toKeeps.showsType (leads.toKeeps.showsType isShown)
  have indexed := leadsOn.valid.lookup_symbolIndex (leadsOn.toKeeps.showsSymbol symbolShown)
  rw [asked leadsOn.valid stillShown, symbolOf_of_found indexed, superTypes, superTypesWithin]
  exact visitSuperTypes_of_remembered remembered

end Settling

/-- What a check of a known type against a name comes to. -/
theorem isSubtypeOf_of_showsType (valid : before.Valid table)
    (isShown : before.ShowsType type (some binding)) (name : String) :
    isSubtypeOf table type name before =
      if table.isNamed (some binding) name then (true, before)
      else if !table.isReference binding then (false, before)
      else if name == rootTypeName then (true, before)
      else
        ((superTypesOf table type before).1.any ((superTypesOf table type before).2.isNamed · name),
          (superTypesOf table type before).2) := by
  rw [isSubtypeOf, isUnknown_eq valid isShown]
  simp only [Option.isNone_some, Bool.false_eq_true, if_false]
  rw [get_bind_apply, isNamed_eq valid isShown]
  cases table.isNamed (some binding) name with
  | true => rfl
  | false =>
      simp only [Bool.false_eq_true, if_false]
      rw [get_bind_apply, isReference_eq valid isShown]
      cases table.isReference binding with
      | false => rfl
      | true => cases name == rootTypeName <;> rfl

section Checks

variable (arraysEnd : table.ArraysEnd) (valid : before.Valid table) (idle : Idle before)
  (isShown : before.ShowsType type (some binding))

include arraysEnd valid idle isShown

/-- A check leaves the answers to the checks of the same type as they are. -/
theorem check_settles (name other : String) :
    (isSubtypeOf table type other (isSubtypeOf table type name before).2).1 =
      (isSubtypeOf table type other before).1 := by
  obtain ⟨leads, -⟩ := yields_superTypesOf arraysEnd valid idle isShown
  have stillShown := leads.toKeeps.showsType isShown
  rw [isSubtypeOf_of_showsType valid isShown name]
  split
  · rfl
  split
  · rfl
  case isFalse.isFalse isReference =>
    have reference : table.isReference binding := by simpa using isReference
    split
    · rfl
    · -- The search was made, and so the next one finds its result.
      rw [isSubtypeOf_of_showsType leads.valid stillShown, isSubtypeOf_of_showsType valid isShown,
        superTypesOf_again arraysEnd valid idle isShown reference]
      split
      · rfl
      split <;> rfl

/-- Checks of one type one after the other answer what each of them would answer first. -/
theorem anyM_isSubtypeOf (names : List String) :
    (names.anyM (isSubtypeOf table type) before).1 =
      names.any fun name => (isSubtypeOf table type name before).1 := by
  induction names generalizing before with
  | nil => rfl
  | cons name names ih =>
      have check : Yields table (table.CycleAboveType (some binding))
          (isSubtypeOf table type name) before _ := yields_isSubtypeOf arraysEnd valid idle isShown
      have leads := check.1
      have rest := ih leads.valid (idle.later leads.toGrows) (leads.toKeeps.showsType isShown)
      simp only [check_settles arraysEnd valid idle isShown] at rest
      rw [List.any_cons, ← rest, List.anyM, bind_apply]
      cases (isSubtypeOf table type name before).1 <;> rfl

end Checks

end Repetition

end Query

end JavaInspect
