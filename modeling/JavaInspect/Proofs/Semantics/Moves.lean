import JavaInspect.Proofs.Semantics.Requests

/-!
# Moves

Queries change the cache in a few ways only: they ask for the facade of a binding, count an
answer that was remembered, remember an answer, report that a type is its own supertype, or
walk along owners. What every such move keeps, every query keeps, whatever the cache that it
starts from.
-/

namespace JavaInspect

open Relation Cache Query

namespace SymbolFacade

/-- What a symbol facade tells of its declaration, apart from what it remembers. -/
def view (facade : SymbolFacade) : SymbolView :=
  { binding := facade.binding
    kind := facade.kind
    name := facade.name
    recovered := facade.recovered }

end SymbolFacade

namespace Cache

/-- What queries are made of. A walk along owners is one move: it alone decides what is
remembered about the outermost type. The first fault may be taken out at any time. -/
inductive Move (table : Table) (before : Cache) : Cache → Prop where
  | type (binding : BindingId) : Move table before (typeOf table binding before).2
  | symbol (binding : BindingId) : Move table before (symbolOf table binding before).2
  | hit : Move table before before.noteHit
  | remember (symbol : SymbolId) {change : SymbolFacade → SymbolFacade}
      (keepsView : ∀ facade, (change facade).view = facade.view)
      (keepsOutermost : ∀ facade, (change facade).outermost = facade.outermost) :
      Move table before (before.modifySymbol symbol change)
  | supertypeCycle (binding : BindingId) (name : String) :
      Move table before (before.recordFault (.supertypeCycle binding name))
  | enclosing (binding : BindingId) :
      Move table before ((symbolOf table binding >>= enclosingClass table) before).2
  | outermost (binding : BindingId) :
      Move table before ((symbolOf table binding >>= outermostClass table) before).2
  | takeFault : Move table before (Query.takeFault before).2

/-- Moves one after another. -/
abbrev Moves (table : Table) : Cache → Cache → Prop := ReflTransGen (Move table)

end Cache

namespace Query

variable {Answer Next Item : Type} {table : Table} {query : Query Answer}
  {next : Answer → Query Next} {binding : BindingId} {symbol : SymbolId} {type : TypeId}

/-! ## Queries that keep to a relation -/

/-- From every cache, a query leads to one that it is related to. -/
def Follows (related : Cache → Cache → Prop) (query : Query Answer) : Prop :=
  ∀ before, related before (query before).2

namespace Follows

variable {related : Cache → Cache → Prop} [IsPreorder Cache related]

theorem pure {answer : Answer} : Follows related (Pure.pure answer : Query Answer) :=
  fun before => refl_of related before

theorem bind (first : Follows related query) (second : ∀ answer, Follows related (next answer)) :
    Follows related (query >>= next) :=
  fun before => trans_of related (first before) (second (query before).1 (query before).2)

omit [IsPreorder Cache related] in
theorem map {change : Answer → Next} (follows : Follows related query) :
    Follows related (change <$> query) :=
  follows

theorem get : Follows related (MonadState.get : Query Cache) :=
  fun before => refl_of related before

theorem readSymbol : Follows related (Query.readSymbol symbol) :=
  fun before => refl_of related before

omit [IsPreorder Cache related] in
theorem ite {condition : Prop} [Decidable condition] {other : Query Answer}
    (yes : Follows related query) (no : Follows related other) :
    Follows related (if condition then query else other) := by
  split
  · exact yes
  · exact no

theorem mapM {ask : Item → Query Answer} {items : List Item}
    (follows : ∀ item, Follows related (ask item)) : Follows related (items.mapM ask) := by
  induction items with
  | nil => exact .pure
  | cons item items ih =>
      rw [List.mapM_cons]
      exact (follows item).bind fun _ => ih.bind fun _ => .pure

theorem foldlM {ask : Answer → Item → Query Answer} {items : List Item} {start : Answer}
    (follows : ∀ answer item, Follows related (ask answer item)) :
    Follows related (items.foldlM ask start) := by
  induction items generalizing start with
  | nil => exact .pure
  | cons item items ih =>
      rw [List.foldlM_cons]
      exact (follows start item).bind fun _ => ih

theorem anyM {ask : Item → Query Bool} {items : List Item}
    (follows : ∀ item, Follows related (ask item)) : Follows related (items.anyM ask) := by
  induction items with
  | nil => exact .pure
  | cons item items ih =>
      rw [List.anyM]
      apply (follows item).bind
      intro holds
      cases holds with
      | true => exact .pure
      | false => exact ih

end Follows

instance {table : Table} : IsPreorder Cache (Moves table) where
  refl _ := .refl
  trans _ _ _ := .trans

namespace Follows

/-! ## Single moves -/

theorem of_move (move : ∀ before, Move table before (query before).2) :
    Follows (Moves table) query :=
  fun before => .single (move before)

theorem typeOf : Follows (Moves table) (Query.typeOf table binding) :=
  .of_move fun _ => .type binding

theorem symbolOf : Follows (Moves table) (Query.symbolOf table binding) :=
  .of_move fun _ => .symbol binding

theorem noteHit : Follows (Moves table) Query.noteHit :=
  .of_move fun _ => .hit

theorem modifySymbol {change : SymbolFacade → SymbolFacade}
    (keepsView : ∀ facade, (change facade).view = facade.view)
    (keepsOutermost : ∀ facade, (change facade).outermost = facade.outermost) :
    Follows (Moves table) (Query.modifySymbol symbol change) :=
  .of_move fun _ => .remember symbol keepsView keepsOutermost

theorem supertypeCycle {name : String} :
    Follows (Moves table) (Query.recordFault (.supertypeCycle binding name)) :=
  .of_move fun _ => .supertypeCycle binding name

theorem enclosingClass :
    Follows (Moves table) (Query.symbolOf table binding >>= Query.enclosingClass table) :=
  .of_move fun _ => .enclosing binding

theorem outermostClass :
    Follows (Moves table) (Query.symbolOf table binding >>= Query.outermostClass table) :=
  .of_move fun _ => .outermost binding

theorem takeFault : Follows (Moves table) Query.takeFault :=
  .of_move fun _ => .takeFault

theorem memoized {slot : SymbolFacade → Option Answer}
    {store : Answer → SymbolFacade → SymbolFacade} {compute : SymbolFacade → Query Answer}
    (keepsView : ∀ answer facade, (store answer facade).view = facade.view)
    (keepsOutermost : ∀ answer facade, (store answer facade).outermost = facade.outermost)
    (computes : ∀ facade, Follows (Moves table) (compute facade)) :
    Follows (Moves table) (Query.memoized slot store compute symbol) := by
  refine bind readSymbol fun facade => ?_
  cases slot facade with
  | some answer => exact noteHit.bind fun _ => .pure
  | none =>
      exact (computes facade).bind fun answer =>
        (modifySymbol (keepsView answer) (keepsOutermost answer)).bind fun _ => .pure

/-! ## Types and declarations -/

theorem resolveType {name : String} : Follows (Moves table) (Query.resolveType table name) := by
  rw [Query.resolveType]
  split
  · exact typeOf
  · exact .pure

theorem typesOf {bindings : List BindingId} :
    Follows (Moves table) (Query.typesOf table bindings) :=
  .mapM fun _ => typeOf

theorem owner : Follows (Moves table) (Query.owner table symbol) := by
  refine bind readSymbol fun facade => ?_
  cases (table.entry facade.binding).owner with
  | some binding => exact symbolOf.map
  | none => exact .pure

theorem declaredType : Follows (Moves table) (Query.declaredType table symbol) := by
  refine bind readSymbol fun facade => ?_
  cases facade.kind with
  | type => exact typeOf
  | package => exact .pure
  | method | «variable» =>
      dsimp only
      split
      · exact typeOf
      · exact .pure

theorem returnType : Follows (Moves table) (Query.returnType table symbol) :=
  readSymbol.bind fun _ => .ite declaredType .pure

theorem parameterTypes : Follows (Moves table) (Query.parameterTypes table symbol) :=
  readSymbol.bind fun _ => .ite typesOf .pure

theorem isVarargs : Follows (Moves table) (Query.isVarargs table symbol) :=
  readSymbol.bind fun _ => .pure

theorem isConstructor : Follows (Moves table) (Query.isConstructor table symbol) :=
  readSymbol.bind fun _ => .pure

theorem metadata : Follows (Moves table) (Query.metadata table symbol) := by
  refine memoized ?_ ?_ ?_
  · exact fun _ _ => rfl
  · exact fun _ _ => rfl
  · exact fun _ => .ite .pure (.mapM fun _ => typeOf.bind fun _ => .ite .pure .pure)

/-! ## Supertypes and members -/

section SuperTypes

variable {ancestorsOf : SymbolId → Query (List TypeId)}

theorem addWithAncestors {line : Linearization}
    (moves : ∀ symbol, Follows (Moves table) (ancestorsOf symbol)) :
    Follows (Moves table) (Query.addWithAncestors table ancestorsOf line binding) :=
  typeOf.bind fun _ => .ite .pure <| symbolOf.bind fun symbol =>
    (moves symbol).bind fun _ => get.bind fun _ => .pure

theorem addSuperclass (moves : ∀ symbol, Follows (Moves table) (ancestorsOf symbol)) :
    Follows (Moves table) (Query.addSuperclass table ancestorsOf binding) := by
  rw [Query.addSuperclass]
  split
  · exact addWithAncestors moves
  · exact .ite (resolveType.bind fun _ => get.bind fun _ => .pure) .pure

theorem linearize {facade : SymbolFacade}
    (moves : ∀ symbol, Follows (Moves table) (ancestorsOf symbol)) :
    Follows (Moves table) (Query.linearize table ancestorsOf facade) :=
  .ite .pure <| (addSuperclass moves).bind fun _ =>
    (foldlM fun _ _ => addWithAncestors moves).bind fun _ => .pure

theorem visitSuperTypes (moves : ∀ symbol, Follows (Moves table) (ancestorsOf symbol)) :
    Follows (Moves table) (Query.visitSuperTypes table ancestorsOf symbol) := by
  refine bind readSymbol fun facade => ?_
  cases facade.superTypes with
  | some types => exact noteHit.bind fun _ => .pure
  | none =>
      refine ite (supertypeCycle.bind fun _ => .pure) ?_
      refine bind (modifySymbol ?_ ?_) fun _ => (linearize moves).bind fun _ =>
        bind (modifySymbol ?_ ?_) fun _ => .pure
      · exact fun _ => rfl
      · exact fun _ => rfl
      · exact fun _ => rfl
      · exact fun _ => rfl

/-- The search makes moves down to every depth. -/
theorem superTypesWithin {beyond : SymbolId → Query (List TypeId)}
    (moves : ∀ symbol, Follows (Moves table) (beyond symbol)) (depth : Nat) (symbol : SymbolId) :
    Follows (Moves table) (Query.superTypesWithin table beyond depth symbol) := by
  induction depth generalizing symbol with
  | zero => exact moves symbol
  | succ depth ih => exact visitSuperTypes ih

theorem superTypes : Follows (Moves table) (Query.superTypes table symbol) :=
  superTypesWithin (fun _ => .pure) _ symbol

end SuperTypes

theorem superClass : Follows (Moves table) (Query.superClass table symbol) := by
  refine bind readSymbol fun facade => ?_
  refine ite .pure ?_
  cases table.kindOf facade.binding with
  | interface | annotationType | array => exact resolveType.map
  | «class» | enum | record =>
      dsimp only
      split
      · exact typeOf.map
      · exact .pure
  | primitive | typeVariable | unknown => exact .pure

theorem interfaces : Follows (Moves table) (Query.interfaces table symbol) := by
  refine memoized ?_ ?_ ?_
  · exact fun _ _ => rfl
  · exact fun _ _ => rfl
  · exact fun _ => .ite .pure typesOf

theorem memberSymbols : Follows (Moves table) (Query.memberSymbols table symbol) := by
  refine memoized ?_ ?_ ?_
  · exact fun _ _ => rfl
  · exact fun _ _ => rfl
  · exact fun _ => .ite .pure (mapM fun _ => symbolOf).map

theorem lookupMember {name : String} :
    Follows (Moves table) (Query.lookupMember table symbol name) :=
  memberSymbols.bind fun _ => get.bind fun _ => .pure

/-! ## Subtypes -/

theorem typeSymbol : Follows (Moves table) (Query.typeSymbol table type) := by
  refine bind get fun cache => ?_
  dsimp only
  split
  · exact .ite symbolOf.map .pure
  · exact .pure

theorem superTypesOf : Follows (Moves table) (Query.superTypesOf table type) := by
  apply typeSymbol.bind
  intro symbol
  cases symbol with
  | some symbol => exact superTypes
  | none => exact .pure

theorem isSubtypeOf {name : String} : Follows (Moves table) (Query.isSubtypeOf table type name) :=
  .ite .pure <| get.bind fun _ => .ite .pure <| get.bind fun _ => .ite .pure <| .ite .pure <|
    superTypesOf.bind fun _ => get.bind fun _ => .pure

theorem isSubtypeOfType {other : TypeId} :
    Follows (Moves table) (Query.isSubtypeOfType table type other) :=
  .ite .pure <| .ite .pure <| get.bind fun _ => .ite .pure <| get.bind fun _ => .ite .pure <|
    superTypesOf.bind fun _ => .pure

/-! ## Matchers -/

section Matchers

variable {matcher : MethodMatcher} {tree : Tree} {node : NodeId}

theorem matchesOwner : Follows (Moves table) (matcher.matchesOwner table type) := by
  refine ite .pure ?_
  cases matcher.ownerMatch with
  | strict => exact get.bind fun _ => .pure
  | inherited => exact anyM fun _ => isSubtypeOf

theorem matchesName : Follows (Moves table) (matcher.matchesName table symbol) := by
  apply isConstructor.bind
  intro isConstructor
  cases matcher.name with
  | «constructor» | any => exact .pure
  | oneOf names => exact readSymbol.bind fun _ => .pure

theorem declaresParameters {names : List String} :
    Follows (Moves table) (MethodMatcher.declaresParameters table names symbol) :=
  parameterTypes.bind fun _ => get.bind fun _ => .pure

theorem matchesParameters : Follows (Moves table) (matcher.matchesParameters table symbol) := by
  rw [MethodMatcher.matchesParameters]
  cases matcher.parameters with
  | any => exact .pure
  | exact names => exact declaresParameters
  | variadic names => exact isVarargs.bind fun _ => .ite declaresParameters .pure

theorem matchesSymbol : Follows (Moves table) (matcher.matchesSymbol table symbol) := by
  refine bind readSymbol fun facade => ?_
  refine ite .pure ?_
  apply owner.bind
  intro declaring
  cases declaring with
  | none => exact .pure
  | some declaring =>
      exact readSymbol.bind fun _ => .ite .pure <| typeOf.bind fun _ => .ite .pure <|
        matchesOwner.bind fun _ => .ite .pure <| matchesName.bind fun _ => .ite .pure
          matchesParameters

theorem matchesBinding {binding : Option BindingId} :
    Follows (Moves table) (matcher.matchesBinding table binding) := by
  cases binding with
  | some binding => exact symbolOf.bind fun _ => matchesSymbol
  | none => exact .pure

theorem matchesNode : Follows (Moves table) (matcher.matchesNode table tree node) :=
  .ite (.ite matchesBinding .pure) (.ite matchesBinding .pure)

theorem anyMatchesNode {set : MatcherSet} :
    Follows (Moves table) (set.matchesNode table tree node) :=
  anyM fun _ => matchesNode

end Matchers

/-! ## Requests -/

theorem viewed {view : Cache → Answer → JavaInspect.Answer} (moves : Follows (Moves table) query) :
    Follows (Moves table) (Request.viewed query view) :=
  moves.bind fun _ => get.bind fun _ => .pure

/-- Every request makes moves. -/
theorem ask (request : Request) : Follows (Moves table) (request.ask table) := by
  cases request with
  | typeOf binding => exact typeOf.viewed
  | symbol binding => exact symbolOf.viewed
  | resolveType name => exact resolveType.viewed
  | superTypes binding => exact (symbolOf.bind fun _ => superTypes).viewed
  | superClass binding => exact (symbolOf.bind fun _ => superClass).viewed
  | interfaces binding => exact (symbolOf.bind fun _ => interfaces).viewed
  | memberSymbols binding => exact (symbolOf.bind fun _ => memberSymbols).viewed
  | lookupMember binding name => exact (symbolOf.bind fun _ => lookupMember).viewed
  | metadata binding => exact (symbolOf.bind fun _ => metadata).viewed
  | owner binding => exact (symbolOf.bind fun _ => owner).viewed
  | declaredType binding => exact (symbolOf.bind fun _ => declaredType).viewed
  | returnType binding => exact (symbolOf.bind fun _ => returnType).viewed
  | parameterTypes binding => exact (symbolOf.bind fun _ => parameterTypes).viewed
  | enclosingClass binding => exact enclosingClass.viewed
  | outermostClass binding => exact outermostClass.viewed
  | typeSymbol binding => exact (typeOf.bind fun _ => typeSymbol).viewed
  | isSubtypeOf binding name => exact (typeOf.bind fun _ => isSubtypeOf).viewed
  | isSubtypeOfType binding other =>
      exact (typeOf.bind fun _ => typeOf.bind fun _ => isSubtypeOfType).viewed
  | matchesBinding matcher binding => exact matchesBinding.viewed
  | matchesNode set tree node => exact anyMatchesNode.viewed

end Follows

end Query

/-! ## Uses of a context -/

/-- What is done with a context: a request is made, or the first fault is taken out. -/
inductive Use where
  | ask (request : Request)
  | takeFault

namespace Use

variable (table : Table)

/-- What a use does, without its answer. -/
def perform : Use → Query Unit
  | .ask request => discard (request.ask table)
  | .takeFault => discard Query.takeFault

/-- The cache after several uses. -/
def after (before : Cache) (uses : List Use) : Cache :=
  (uses.forM (perform table) before).2

variable {table} {before : Cache}

theorem moves (use : Use) : Follows (Moves table) (use.perform table) := by
  cases use with
  | ask request => exact (Follows.ask request).map
  | takeFault => exact Follows.takeFault.map

theorem moves_after (uses : List Use) : Moves table before (after table before uses) := by
  induction uses generalizing before with
  | nil => exact .refl
  | cons use uses ih => exact (use.moves before).trans ih

end Use

end JavaInspect
