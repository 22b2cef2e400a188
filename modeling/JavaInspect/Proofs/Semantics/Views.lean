import JavaInspect.Proofs.Semantics.Subtyping

/-!
# Views

A facade is read without its index: as the binding behind it and the names, kinds and
flags that it shows. In a valid cache the view of a facade is determined by its binding.
-/

namespace JavaInspect

open Cache

/-- What a type facade tells. -/
structure TypeView where
  binding : Option BindingId
  name : String
  qualifiedName : String
  kind : TypeKind
  /-- The binding of the component type of an array. -/
  component : Option (Option BindingId)
deriving DecidableEq, Repr

/-- What a symbol facade tells. -/
structure SymbolView where
  binding : BindingId
  kind : BindingKind
  name : String
  recovered : Bool
deriving DecidableEq, Repr

/-- What an annotation tells. -/
inductive AnnotationView where
  | resolved (type : TypeView)
  | unresolved (token : String)
deriving DecidableEq, Repr

namespace Cache

variable (cache : Cache)

/-- The view of a type facade. -/
def viewType (type : TypeId) : TypeView :=
  let facade := cache.type type
  { binding := facade.binding
    name := facade.name
    qualifiedName := facade.qualifiedName
    kind := facade.kind
    component := facade.element.map fun element => (cache.type element).binding }

/-- The view of a symbol facade. -/
def viewSymbol (symbol : SymbolId) : SymbolView :=
  let facade := cache.symbol symbol
  { binding := facade.binding
    kind := facade.kind
    name := facade.name
    recovered := facade.recovered }

/-- The view of an annotation. -/
def viewUse : AnnotationUse → AnnotationView
  | .resolved type => .resolved (cache.viewType type)
  | .unresolved token => .unresolved token

end Cache

namespace Table

variable (table : Table)

/-- The view of a known type, or of the unknown one. -/
def typeView : Option BindingId → TypeView
  | none =>
      { binding := none
        name := unknownTypeName
        qualifiedName := unknownTypeName
        kind := .unknown
        component := none }
  | some binding =>
      { binding := some binding
        name := (table.entry binding).name
        qualifiedName := (table.entry binding).qualifiedName
        kind := (table.facadeKind? binding).getD .unknown
        component := (table.component? binding).map table.known? }

/-- The view of a declaration. -/
def symbolView (binding : BindingId) : SymbolView :=
  { binding
    kind := (table.entry binding).kind
    name := (table.entry binding).name
    recovered := (table.entry binding).recovered }

/-- The view of an annotation with the given type. -/
def annotationView (binding : BindingId) : AnnotationView :=
  if table.isKnown binding then .resolved (table.typeView (some binding))
  else .unresolved (table.entry binding).qualifiedName

end Table

variable {table : Table} {cache : Cache}

/-- Corresponding items have the same views. -/
theorem map_view_eq {Facade Shown View : Type} {isShown : Facade → Shown → Prop}
    {view : Facade → View} {expected : Shown → View}
    (same : ∀ facade shown, isShown facade shown → view facade = expected shown)
    {facades : List Facade} {shown : List Shown} (areShown : List.Forall₂ isShown facades shown) :
    facades.map view = shown.map expected := by
  induction areShown with
  | nil => rfl
  | cons firstShown _ ih => rw [List.map_cons, List.map_cons, same _ _ firstShown, ih]

theorem option_view_eq {Facade Shown View : Type} {isShown : Facade → Shown → Prop}
    {view : Facade → View} {expected : Shown → View}
    (same : ∀ facade shown, isShown facade shown → view facade = expected shown)
    {facade : Option Facade} {shown : Option Shown} (areShown : Option.Rel isShown facade shown) :
    facade.map view = shown.map expected := by
  cases areShown with
  | none => rfl
  | some isShown => rw [Option.map_some, Option.map_some, same _ _ isShown]

namespace Cache.Valid

theorem viewType_eq (valid : cache.Valid table) (type : TypeId) (shown : Option BindingId)
    (isShown : cache.ShowsType type shown) : cache.viewType type = table.typeView shown := by
  cases shown with
  | none =>
      obtain rfl := (valid.eq_unknown_iff isShown).2 rfl
      rw [viewType, valid.unknown.2]
      rfl
  | some binding =>
      have describes := valid.describesType isShown
      have sameComponent := option_view_eq (fun _ _ isShown => isShown.2) describes.element
      rw [viewType, Table.typeView, describes.binding, describes.name, describes.qualifiedName,
        describes.kind, sameComponent]
      rfl

theorem viewSymbol_eq (valid : cache.Valid table) (symbol : SymbolId) (binding : BindingId)
    (isShown : cache.ShowsSymbol symbol binding) :
    cache.viewSymbol symbol = table.symbolView binding := by
  have describes := valid.describesSymbol isShown
  rw [viewSymbol, Table.symbolView, describes.binding, describes.kind, describes.name,
    describes.recovered]

theorem viewUse_eq (valid : cache.Valid table) (use : AnnotationUse) (binding : BindingId)
    (isShown : cache.ShowsAnnotation table use binding) :
    cache.viewUse use = table.annotationView binding := by
  rw [viewUse.eq_def, Table.annotationView]
  cases use with
  | resolved type =>
      rw [if_pos isShown.1]
      exact congrArg _ (valid.viewType_eq type (some binding) isShown.2)
  | unresolved token =>
      rw [if_neg isShown.1]
      exact congrArg _ isShown.2

end Cache.Valid

end JavaInspect
