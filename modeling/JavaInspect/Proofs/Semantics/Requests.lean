import JavaInspect.Proofs.Semantics.Declarations
import JavaInspect.Proofs.Semantics.Enclosing
import JavaInspect.Proofs.Semantics.Matching
import JavaInspect.Proofs.Semantics.Views

/-!
# Requests

Everything that may be asked about bindings through one cache, with the answers read as
views. Every request leads from a valid cache to a valid one. Where neither owners nor
supertypes run in a circle, its answer is a function of the table alone.
-/

namespace JavaInspect

open Cache Query

/-- A question about bindings, names or nodes. -/
inductive Request where
  | typeOf (binding : BindingId)
  | symbol (binding : BindingId)
  | resolveType (name : String)
  | superTypes (binding : BindingId)
  | superClass (binding : BindingId)
  | interfaces (binding : BindingId)
  | memberSymbols (binding : BindingId)
  | lookupMember (binding : BindingId) (name : String)
  | metadata (binding : BindingId)
  | owner (binding : BindingId)
  | declaredType (binding : BindingId)
  | returnType (binding : BindingId)
  | parameterTypes (binding : BindingId)
  | enclosingClass (binding : BindingId)
  | outermostClass (binding : BindingId)
  | typeSymbol (binding : BindingId)
  | isSubtypeOf (binding : BindingId) (name : String)
  | isSubtypeOfType (binding other : BindingId)
  | matchesBinding (matcher : MethodMatcher) (binding : Option BindingId)
  | matchesNode (set : MatcherSet) (tree : Tree) (node : NodeId)

/-- An answer, read as views. -/
inductive Answer where
  | type (view : TypeView)
  | optionalType (view : Option TypeView)
  | types (views : List TypeView)
  | symbol (view : SymbolView)
  | optionalSymbol (view : Option SymbolView)
  | symbols (views : List SymbolView)
  | annotations (views : List AnnotationView)
  | decision (holds : Bool)
deriving DecidableEq, Repr

namespace Request

variable (table : Table)

/-- The answer of a query as it is read right after. -/
def viewed {Facade : Type} (query : Query Facade) (view : Cache → Facade → Answer) :
    Query Answer := do
  let facade ← query
  return view (← get) facade

/-- Ask for types, symbols and the like through the cache. -/
def ask : Request → Query Answer
  | .typeOf binding =>
      viewed (Query.typeOf table binding) fun cache type => .type (cache.viewType type)
  | .symbol binding =>
      viewed (symbolOf table binding) fun cache symbol => .symbol (cache.viewSymbol symbol)
  | .resolveType name =>
      viewed (Query.resolveType table name) fun cache type => .type (cache.viewType type)
  | .superTypes binding =>
      viewed (symbolOf table binding >>= Query.superTypes table) fun cache types =>
        .types (types.map cache.viewType)
  | .superClass binding =>
      viewed (symbolOf table binding >>= Query.superClass table) fun cache type =>
        .optionalType (type.map cache.viewType)
  | .interfaces binding =>
      viewed (symbolOf table binding >>= Query.interfaces table) fun cache types =>
        .types (types.map cache.viewType)
  | .memberSymbols binding =>
      viewed (symbolOf table binding >>= Query.memberSymbols table) fun cache members =>
        .symbols (members.map cache.viewSymbol)
  | .lookupMember binding name =>
      viewed (symbolOf table binding >>= fun symbol => Query.lookupMember table symbol name)
        fun cache members => .symbols (members.map cache.viewSymbol)
  | .metadata binding =>
      viewed (symbolOf table binding >>= Query.metadata table) fun cache annotations =>
        .annotations (annotations.map cache.viewUse)
  | .owner binding =>
      viewed (symbolOf table binding >>= Query.owner table) fun cache owner =>
        .optionalSymbol (owner.map cache.viewSymbol)
  | .declaredType binding =>
      viewed (symbolOf table binding >>= Query.declaredType table) fun cache type =>
        .type (cache.viewType type)
  | .returnType binding =>
      viewed (symbolOf table binding >>= Query.returnType table) fun cache type =>
        .type (cache.viewType type)
  | .parameterTypes binding =>
      viewed (symbolOf table binding >>= Query.parameterTypes table) fun cache types =>
        .types (types.map cache.viewType)
  | .enclosingClass binding =>
      viewed (symbolOf table binding >>= Query.enclosingClass table) fun cache type =>
        .optionalSymbol (type.map cache.viewSymbol)
  | .outermostClass binding =>
      viewed (symbolOf table binding >>= Query.outermostClass table) fun cache type =>
        .optionalSymbol (type.map cache.viewSymbol)
  | .typeSymbol binding =>
      viewed (Query.typeOf table binding >>= Query.typeSymbol table) fun cache symbol =>
        .optionalSymbol (symbol.map cache.viewSymbol)
  | .isSubtypeOf binding name =>
      viewed (Query.typeOf table binding >>= fun type => Query.isSubtypeOf table type name)
        fun _ holds => .decision holds
  | .isSubtypeOfType binding other =>
      viewed (do
          let type ← Query.typeOf table binding
          let other ← Query.typeOf table other
          Query.isSubtypeOfType table type other)
        fun _ holds => .decision holds
  | .matchesBinding matcher binding =>
      viewed (matcher.matchesBinding table binding) fun _ holds => .decision holds
  | .matchesNode set tree node =>
      viewed (set.matchesNode table tree node) fun _ holds => .decision holds

/-- The answer that the table determines. -/
def meaning : Request → Answer
  | .typeOf binding => .type (table.typeView (table.known? binding))
  | .symbol binding => .symbol (table.symbolView binding)
  | .resolveType name => .type (table.typeView (table.resolvedType name))
  | .superTypes binding =>
      .types ((table.lineage binding).map fun type => table.typeView (some type))
  | .superClass binding => .optionalType ((table.superclassType binding).map table.typeView)
  | .interfaces binding => .types ((table.interfaceTypes binding).map table.typeView)
  | .memberSymbols binding => .symbols ((table.distinctMembers binding).map table.symbolView)
  | .lookupMember binding name => .symbols ((table.membersNamed binding name).map table.symbolView)
  | .metadata binding => .annotations ((table.annotationTypes binding).map table.annotationView)
  | .owner binding => .optionalSymbol ((table.entry binding).owner.map table.symbolView)
  | .declaredType binding => .type (table.typeView (table.declaredTypeOf binding))
  | .returnType binding => .type (table.typeView (table.returnTypeOf binding))
  | .parameterTypes binding => .types ((table.parameterTypesOf binding).map table.typeView)
  | .enclosingClass binding => .optionalSymbol ((table.enclosing binding).map table.symbolView)
  | .outermostClass binding => .optionalSymbol ((table.outermost binding).map table.symbolView)
  | .typeSymbol binding =>
      .optionalSymbol (((table.known? binding).filter table.isReference).map table.symbolView)
  | .isSubtypeOf binding name => .decision (table.isBelowName (table.known? binding) name)
  | .isSubtypeOfType binding other =>
      .decision (table.isBelow (table.known? binding) (table.known? other))
  | .matchesBinding matcher binding => .decision (binding.any (matcher.describes table))
  | .matchesNode set tree node =>
      .decision (set.matchers.any fun matcher => matcher.describesNode table tree node)

/-- A cycle that a request can come upon, as the fault that it would report. -/
def Touches : Request → SemanticFault → Prop
  | .superTypes binding => table.CycleAbove binding
  | .enclosingClass binding | .outermostClass binding => table.CircleOf binding
  | .isSubtypeOf binding _ | .isSubtypeOfType binding _ =>
      table.CycleAboveType (table.known? binding)
  | .matchesBinding _ binding =>
      table.CycleAboveType (binding.bind fun binding => (table.entry binding).owner)
  | .matchesNode _ tree node => table.CycleAboveType (MethodMatcher.ownerAt table tree node)
  | .typeOf _ | .symbol _ | .resolveType _ | .superClass _ | .interfaces _ | .memberSymbols _
  | .lookupMember _ _ | .metadata _ | .owner _ | .declaredType _ | .returnType _
  | .parameterTypes _ | .typeSymbol _ => fun _ => False

end Request

namespace Table

variable (table : Table)

/-- Neither owners nor supertypes run in a circle. -/
structure Orderly : Prop where
  owners : ∀ binding, Grounded table.Owns binding
  supertypes : ∀ binding, Grounded table.Above binding

/-- A fault that is due to a cycle of owners or supertypes. -/
def Explains (fault : SemanticFault) : Prop :=
  ∃ binding, table.CircleOf binding fault ∨ table.CycleAbove binding fault

variable {table}

theorem Orderly.explainsNothing (orderly : table.Orderly) (fault : SemanticFault) :
    ¬ table.Explains fault := by
  intro found
  rcases found with ⟨binding, ⟨-, circle⟩ | ⟨cyclic, -, -, returns⟩⟩
  · exact not_grounded_of_circle circle (orderly.owners binding)
  · exact (orderly.supertypes cyclic).noCycle returns

end Table

theorem Table.Orderly.isGroundedType {table : Table} (orderly : table.Orderly)
    (type : Option BindingId) : table.IsGroundedType type :=
  fun binding _ => orderly.supertypes binding

namespace Request

variable {table : Table} {blame : SemanticFault → Prop} {before : Cache} {binding : BindingId}

/-! ## Where requests start -/

section Starts

variable {Facade : Type} {holds : Facade → Cache → Prop}

/-- Asking a symbol starts with its facade. -/
theorem yields_onSymbol {query : SymbolId → Query Facade} (valid : before.Valid table)
    (idle : Idle before)
    (asked : ∀ symbol middle, middle.Valid table → Idle middle → middle.ShowsSymbol symbol binding →
      Yields table blame (query symbol) middle holds) :
    Yields table blame (symbolOf table binding >>= query) before holds := by
  apply (yields_symbolOf valid).bind
  intro symbol middle leads isShown
  exact asked symbol middle leads.valid (idle.later leads.toGrows) isShown

/-- Asking a type starts with its facade. -/
theorem yields_onType {query : TypeId → Query Facade} (arraysEnd : table.ArraysEnd)
    (valid : before.Valid table) (idle : Idle before)
    (asked : ∀ type middle, middle.Valid table → Idle middle →
      middle.ShowsType type (table.known? binding) →
      Yields table blame (query type) middle holds) :
    Yields table blame (Query.typeOf table binding >>= query) before holds := by
  apply (yields_typeOf arraysEnd valid).bind
  intro type middle leads isShown
  exact asked type middle leads.valid (idle.later leads.toGrows) isShown

end Starts

/-! ## How answers are read -/

section Readings

variable {condition : Prop}

theorem yields_viewed {Facade : Type} {query : Query Facade} {holds : Facade → Cache → Prop}
    {view : Cache → Facade → Answer} {expected : Answer}
    (yields : Yields table blame query before fun facade after =>
      condition → holds facade after)
    (seen : ∀ facade after, after.Valid table → holds facade after →
      view after facade = expected) :
    Yields table blame (viewed query view) before fun answer _ =>
      condition → answer = expected := by
  apply yields.bind
  intro facade after leads isShown
  apply Yields.get
  exact .pure leads.valid fun given => seen facade after leads.valid (isShown given)

theorem yields_type {query : Query TypeId} {shown : Option BindingId}
    (yields : Yields table blame query before fun type after =>
      condition → after.ShowsType type shown) :
    Yields table blame (viewed query fun cache type => .type (cache.viewType type))
      before fun answer _ => condition → answer = .type (table.typeView shown) := by
  apply yields_viewed yields
  intro type after valid isShown
  rw [valid.viewType_eq type shown isShown]

theorem yields_optionalType {query : Query (Option TypeId)} {shown : Option (Option BindingId)}
    (yields : Yields table blame query before fun type after =>
      condition → Option.Rel after.ShowsType type shown) :
    Yields table blame
      (viewed query fun cache type => .optionalType (type.map cache.viewType)) before
      fun answer _ => condition → answer = .optionalType (shown.map table.typeView) := by
  apply yields_viewed yields
  intro type after valid isShown
  rw [option_view_eq valid.viewType_eq isShown]

theorem yields_types {query : Query (List TypeId)} {shown : List (Option BindingId)}
    (yields : Yields table blame query before fun types after =>
      condition → after.ShowsTypes types shown) :
    Yields table blame
      (viewed query fun cache types => .types (types.map cache.viewType)) before
      fun answer _ => condition → answer = .types (shown.map table.typeView) := by
  apply yields_viewed yields
  intro types after valid isShown
  rw [map_view_eq valid.viewType_eq isShown]

theorem yields_optionalSymbol {query : Query (Option SymbolId)} {shown : Option BindingId}
    (yields : Yields table blame query before fun symbol after =>
      condition → Option.Rel after.ShowsSymbol symbol shown) :
    Yields table blame
      (viewed query fun cache symbol => .optionalSymbol (symbol.map cache.viewSymbol)) before
      fun answer _ => condition → answer = .optionalSymbol (shown.map table.symbolView) := by
  apply yields_viewed yields
  intro symbol after valid isShown
  rw [option_view_eq valid.viewSymbol_eq isShown]

theorem yields_symbols {query : Query (List SymbolId)} {shown : List BindingId}
    (yields : Yields table blame query before fun symbols after =>
      condition → after.ShowsSymbols symbols shown) :
    Yields table blame
      (viewed query fun cache symbols => .symbols (symbols.map cache.viewSymbol)) before
      fun answer _ => condition → answer = .symbols (shown.map table.symbolView) := by
  apply yields_viewed yields
  intro symbols after valid isShown
  rw [map_view_eq valid.viewSymbol_eq isShown]

theorem yields_decision {query : Query Bool} {holds : Bool}
    (yields : Yields table blame query before fun answer _ =>
      condition → answer = holds) :
    Yields table blame (viewed query fun _ holds => .decision holds) before
      fun answer _ => condition → answer = .decision holds := by
  apply yields_viewed yields
  intro answer after _ isAnswer
  rw [isAnswer]

end Readings

/-! ## Decisions -/

section Decisions

variable (arraysEnd : table.ArraysEnd) (valid : before.Valid table) (idle : Idle before)

include arraysEnd valid idle

theorem yields_ask_isSubtypeOf (binding : BindingId) (name : String) :
    Yields table ((isSubtypeOf binding name).Touches table) ((isSubtypeOf binding name).ask table)
      before fun answer _ =>
      table.IsGroundedType (table.known? binding) →
        answer = (isSubtypeOf binding name).meaning table := by
  apply yields_decision
  apply yields_onType arraysEnd valid idle
  intro type middle valid idle isShown
  exact yields_isSubtypeOf arraysEnd valid idle isShown

theorem yields_ask_isSubtypeOfType (binding other : BindingId) :
    Yields table ((isSubtypeOfType binding other).Touches table)
      ((isSubtypeOfType binding other).ask table) before fun answer _ =>
      table.IsGroundedType (table.known? binding) →
        answer = (isSubtypeOfType binding other).meaning table := by
  apply yields_decision
  apply yields_onType arraysEnd valid idle
  intro type middle valid idle isShown
  apply (yields_typeOf arraysEnd valid).bind
  intro otherType later leads otherIsShown
  have typeShown := leads.toKeeps.showsType isShown
  exact yields_isSubtypeOfType arraysEnd leads.valid (idle.later leads.toGrows) typeShown
    otherIsShown

theorem yields_ask_matchesBinding (matcher : MethodMatcher) (binding : Option BindingId) :
    Yields table ((matchesBinding matcher binding).Touches table)
      ((matchesBinding matcher binding).ask table) before fun answer _ =>
        table.IsGroundedType (binding.bind fun binding => (table.entry binding).owner) →
          answer = (matchesBinding matcher binding).meaning table :=
  yields_decision (matcher.yields_matchesBinding arraysEnd valid idle)

end Decisions

/-! ## All requests -/

/-- Every request keeps a valid cache valid, reports only a cycle that it touches, and an
orderly table determines its answer. -/
theorem yields_ask_touching (arraysEnd : table.ArraysEnd) (valid : before.Valid table)
    (idle : Idle before) (request : Request) :
    Yields table (request.Touches table) (request.ask table) before fun answer _ =>
      table.Orderly → answer = request.meaning table := by
  cases request with
  | typeOf binding =>
      exact yields_type (yields_typeOf arraysEnd valid).always
  | symbol binding =>
      apply yields_viewed (yields_symbolOf valid).always
      intro symbol after valid isShown
      rw [valid.viewSymbol_eq symbol binding isShown, meaning]
  | resolveType name =>
      exact yields_type (yields_resolveType arraysEnd valid).always
  | superTypes binding =>
      have sameViews : (table.lineage binding).map (fun type => table.typeView (some type)) =
          ((table.lineage binding).map some).map table.typeView := by
        rw [List.map_map]
        rfl
      rw [meaning, sameViews]
      apply yields_types
      apply yields_onSymbol valid idle
      intro symbol middle valid idle isShown
      apply (yields_superTypes arraysEnd valid idle isShown).imp
      intro types after _ typesShown orderly
      exact typesShown (orderly.supertypes binding)
  | superClass binding =>
      apply yields_optionalType
      apply yields_onSymbol valid idle
      intro symbol middle valid _ isShown
      exact (yields_superClass arraysEnd valid isShown).always
  | interfaces binding =>
      apply yields_types
      apply yields_onSymbol valid idle
      intro symbol middle valid _ isShown
      exact (yields_interfaces arraysEnd valid isShown).always
  | memberSymbols binding =>
      apply yields_symbols
      apply yields_onSymbol valid idle
      intro symbol middle valid _ isShown
      exact (yields_memberSymbols valid isShown).always
  | lookupMember binding name =>
      apply yields_symbols
      apply yields_onSymbol valid idle
      intro symbol middle valid _ isShown
      exact (yields_lookupMember valid isShown).always
  | metadata binding =>
      have asked : Yields table ((Request.metadata binding).Touches table)
          (symbolOf table binding >>= Query.metadata table) before fun annotations after =>
            List.Forall₂ (after.ShowsAnnotation table) annotations
              (table.annotationTypes binding) :=
        yields_onSymbol valid idle fun symbol middle valid _ isShown =>
          yields_metadata arraysEnd valid isShown
      apply yields_viewed asked.always
      intro annotations after valid isShown
      rw [map_view_eq valid.viewUse_eq isShown, meaning]
  | owner binding =>
      apply yields_optionalSymbol
      apply yields_onSymbol valid idle
      intro symbol middle valid _ isShown
      exact (yields_owner valid isShown).always
  | declaredType binding =>
      apply yields_type
      apply yields_onSymbol valid idle
      intro symbol middle valid _ isShown
      exact (yields_declaredType arraysEnd valid isShown).always
  | returnType binding =>
      apply yields_type
      apply yields_onSymbol valid idle
      intro symbol middle valid _ isShown
      exact (yields_returnType arraysEnd valid isShown).always
  | parameterTypes binding =>
      apply yields_types
      apply yields_onSymbol valid idle
      intro symbol middle valid _ isShown
      exact (yields_parameterTypes arraysEnd valid isShown).always
  | enclosingClass binding =>
      apply yields_optionalSymbol
      apply yields_onSymbol valid idle
      intro symbol middle valid _ isShown
      apply (yields_enclosingClass valid isShown).imp
      intro answer after _ answerShown orderly
      exact answerShown (orderly.owners binding)
  | outermostClass binding =>
      apply yields_optionalSymbol
      apply yields_onSymbol valid idle
      intro symbol middle valid _ isShown
      apply (yields_outermostClass valid isShown).imp
      intro answer after _ answerShown orderly
      exact answerShown (orderly.owners binding)
  | typeSymbol binding =>
      apply yields_optionalSymbol
      apply yields_onType arraysEnd valid idle
      intro type middle valid _ isShown
      exact (yields_typeSymbol valid isShown).always
  | isSubtypeOf binding name =>
      apply (yields_ask_isSubtypeOf arraysEnd valid idle binding name).imp
      exact fun _ _ _ isAnswer orderly => isAnswer (orderly.isGroundedType _)
  | isSubtypeOfType binding other =>
      apply (yields_ask_isSubtypeOfType arraysEnd valid idle binding other).imp
      exact fun _ _ _ isAnswer orderly => isAnswer (orderly.isGroundedType _)
  | matchesBinding matcher binding =>
      apply (yields_ask_matchesBinding arraysEnd valid idle matcher binding).imp
      exact fun _ _ _ isAnswer orderly => isAnswer (orderly.isGroundedType _)
  | matchesNode set tree node =>
      apply yields_decision
      apply (set.yields_matchesNode arraysEnd valid idle).imp
      intro answer after _ isAnswer orderly
      exact isAnswer (orderly.isGroundedType _)

/-- What a request touches is a cycle of the table. -/
theorem explains_of_touches {request : Request} (fault : SemanticFault)
    (touches : request.Touches table fault) : table.Explains fault := by
  cases request with
  | superTypes binding => exact ⟨binding, .inr touches⟩
  | enclosingClass binding | outermostClass binding => exact ⟨binding, .inl touches⟩
  | isSubtypeOf | isSubtypeOfType | matchesBinding | matchesNode =>
      rcases touches with ⟨binding, -, cycle⟩
      exact ⟨binding, .inr cycle⟩
  | typeOf | symbol | resolveType | superClass | interfaces | memberSymbols | lookupMember
  | metadata | owner | declaredType | returnType | parameterTypes | typeSymbol =>
      exact touches.elim

theorem yields_ask (arraysEnd : table.ArraysEnd) (valid : before.Valid table) (idle : Idle before)
    (request : Request) :
    Yields table table.Explains (request.ask table) before fun answer _ =>
      table.Orderly → answer = request.meaning table :=
  (request.yields_ask_touching arraysEnd valid idle).blameMore explains_of_touches

end Request

end JavaInspect
