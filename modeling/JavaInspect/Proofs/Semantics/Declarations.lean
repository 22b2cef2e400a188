import JavaInspect.Proofs.Semantics.Members

/-!
# What is read off a declaration

Queries that only read the entry of a binding and make the facades of what it names.
-/

namespace JavaInspect

open Cache

namespace Table

variable (table : Table)

/-- The type that a name resolves to, when it is known. -/
def resolvedType (name : String) : Option BindingId :=
  (table.resolveType name).bind table.known?

/-- The superclass of a type: the unknown type for what is unresolved, the root for
interfaces and arrays. -/
def superclassType (binding : BindingId) : Option (Option BindingId) :=
  if (table.entry binding).recovered then some none
  else
    match table.kindOf binding with
    | .interface | .annotationType | .array => some (table.resolvedType rootTypeName)
    | .class | .enum | .record => (table.entry binding).superclass.map table.known?
    | .primitive | .typeVariable | .unknown => some none

/-- The type of a declaration, when it is known. -/
def declaredTypeOf (binding : BindingId) : Option BindingId :=
  match (table.entry binding).kind with
  | .type => table.known? binding
  | .method | .variable => (table.entry binding).declaredType.bind table.known?
  | .package => none

/-- The result type of a method, when it is known. -/
def returnTypeOf (binding : BindingId) : Option BindingId :=
  if (table.entry binding).kind == .method then table.declaredTypeOf binding else none

/-- The parameter types of a method. -/
def parameterTypesOf (binding : BindingId) : List (Option BindingId) :=
  if (table.entry binding).kind == .method then
    (table.entry binding).parameters.map table.known?
  else []

/-- The members of the given simple name. -/
def membersNamed (binding : BindingId) (name : String) : List BindingId :=
  (table.distinctMembers binding).filter fun member => (table.entry member).name == name

end Table

namespace Query

variable {table : Table} {blame : SemanticFault → Prop} {before : Cache} {binding : BindingId}
  {symbol : SymbolId}

theorem showsUnknown (valid : before.Valid table) : before.ShowsType .unknown none :=
  ⟨valid.unknown.1, by rw [valid.unknown.2]⟩

/-- The type of an optional binding. -/
theorem yields_typeOf? {binding : Option BindingId} (arraysEnd : table.ArraysEnd)
    (valid : before.Valid table) :
    Yields table blame (match binding with
      | some binding => typeOf table binding
      | none => pure .unknown) before fun type after =>
        after.ShowsType type (binding.bind table.known?) := by
  cases binding with
  | none => exact .pure valid (showsUnknown valid)
  | some binding => exact yields_typeOf arraysEnd valid

theorem yields_superClass (arraysEnd : table.ArraysEnd) (valid : before.Valid table)
    (isShown : before.ShowsSymbol symbol binding) :
    Yields table blame (superClass table symbol) before fun answer after =>
      Option.Rel after.ShowsType answer (table.superclassType binding) := by
  have describes := valid.describesSymbol isShown
  rw [superClass]
  apply Yields.readSymbol
  rw [describes.recovered, describes.binding, Table.superclassType]
  cases (table.entry binding).recovered with
  | true => exact .pure valid (.some (showsUnknown valid))
  | false =>
      simp only [Bool.false_eq_true, if_false]
      cases table.kindOf binding with
      | interface | annotationType | array =>
          apply (yields_resolveType arraysEnd valid).map
          intro type after _ isShown
          exact .some isShown
      | «class» | enum | record =>
          cases (table.entry binding).superclass with
          | none => exact .pure valid .none
          | some superclass =>
              apply (yields_typeOf arraysEnd valid).map
              intro type after _ isShown
              exact .some isShown
      | primitive | typeVariable | unknown =>
          exact .pure valid (.some (showsUnknown valid))

theorem yields_declaredType (arraysEnd : table.ArraysEnd) (valid : before.Valid table)
    (isShown : before.ShowsSymbol symbol binding) :
    Yields table blame (declaredType table symbol) before fun type after =>
      after.ShowsType type (table.declaredTypeOf binding) := by
  have describes := valid.describesSymbol isShown
  rw [declaredType]
  apply Yields.readSymbol
  rw [describes.kind, describes.binding, Table.declaredTypeOf]
  cases (table.entry binding).kind with
  | type => exact yields_typeOf arraysEnd valid
  | method | «variable» => exact yields_typeOf? arraysEnd valid
  | package => exact .pure valid (showsUnknown valid)

theorem yields_returnType (arraysEnd : table.ArraysEnd) (valid : before.Valid table)
    (isShown : before.ShowsSymbol symbol binding) :
    Yields table blame (returnType table symbol) before fun type after =>
      after.ShowsType type (table.returnTypeOf binding) := by
  have describes := valid.describesSymbol isShown
  rw [returnType]
  apply Yields.readSymbol
  rw [describes.kind, Table.returnTypeOf]
  split
  · exact yields_declaredType arraysEnd valid isShown
  · exact .pure valid (showsUnknown valid)

theorem yields_parameterTypes (arraysEnd : table.ArraysEnd) (valid : before.Valid table)
    (isShown : before.ShowsSymbol symbol binding) :
    Yields table blame (parameterTypes table symbol) before fun types after =>
      after.ShowsTypes types (table.parameterTypesOf binding) := by
  have describes := valid.describesSymbol isShown
  rw [parameterTypes]
  apply Yields.readSymbol
  rw [describes.kind, describes.binding, Table.parameterTypesOf]
  split
  · exact yields_typesOf arraysEnd valid
  · exact .pure valid .nil

theorem yields_isVarargs (valid : before.Valid table)
    (isShown : before.ShowsSymbol symbol binding) :
    Yields table blame (isVarargs table symbol) before fun answer _ =>
      answer = ((table.entry binding).kind == .method && (table.entry binding).varargs) := by
  have describes := valid.describesSymbol isShown
  rw [isVarargs]
  apply Yields.readSymbol
  rw [describes.kind, describes.binding]
  exact .pure valid rfl

theorem yields_isConstructor (valid : before.Valid table)
    (isShown : before.ShowsSymbol symbol binding) :
    Yields table blame (isConstructor table symbol) before fun answer _ =>
      answer = ((table.entry binding).kind == .method && (table.entry binding).isConstructor) := by
  have describes := valid.describesSymbol isShown
  rw [isConstructor]
  apply Yields.readSymbol
  rw [describes.kind, describes.binding]
  exact .pure valid rfl

theorem yields_owner (valid : before.Valid table) (isShown : before.ShowsSymbol symbol binding) :
    Yields table blame (owner table symbol) before fun answer after =>
      Option.Rel after.ShowsSymbol answer (table.entry binding).owner := by
  have describes := valid.describesSymbol isShown
  rw [owner]
  apply Yields.readSymbol
  rw [describes.binding]
  cases (table.entry binding).owner with
  | none => exact .pure valid .none
  | some owner =>
      apply (yields_symbolOf valid).map
      intro symbol after _ isShown
      exact .some isShown

theorem yields_lookupMember {name : String} (valid : before.Valid table)
    (isShown : before.ShowsSymbol symbol binding) :
    Yields table blame (lookupMember table symbol name) before fun members after =>
      after.ShowsSymbols members (table.membersNamed binding name) := by
  rw [lookupMember]
  apply (yields_memberSymbols valid isShown).bind
  intro members after leads membersShown
  apply Yields.get
  apply Yields.pure leads.valid
  apply List.rel_filter _ membersShown
  intro member shown memberShown
  simp only [(leads.valid.describesSymbol memberShown).name]

end Query

end JavaInspect
