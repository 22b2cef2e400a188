import JavaInspect.Proofs.Semantics.Search
import JavaInspect.Semantics.Subtype

/-!
# Subtype checks

Both checks ask for the supertypes of a type only when its name does not decide. Where no
cycle is above the type, they answer what its lineage says.
-/

namespace JavaInspect

open Cache

namespace Table

variable (table : Table)

/-- Declared types and arrays. -/
def isReference (type : BindingId) : Bool :=
  match table.facadeKind? type with
  | none | some .primitive | some .typeVariable | some .unknown => false
  | some _ => true

/-- Whether a type is known and has the given qualified name. -/
def isNamed (type : Option BindingId) (name : String) : Bool :=
  type.any fun type => (table.entry type).qualifiedName == name

/-- The supertypes of a type; none for what has no declaration. -/
def typesAbove (type : Option BindingId) : List BindingId :=
  ((type.filter table.isReference).map table.lineage).getD []

/-- Whether a type is, or is below, a type of the given qualified name. -/
def isBelowName (type : Option BindingId) (name : String) : Bool :=
  table.isNamed type name ||
    (type.any table.isReference &&
      (name == rootTypeName || (table.typesAbove type).any fun above =>
        table.isNamed (some above) name))

/-- Whether a type is, or is below, another type. -/
def isBelow (type other : Option BindingId) : Bool :=
  type.isSome && other.isSome &&
    (type == other ||
      (type.any table.isReference &&
        (table.isNamed other rootTypeName || other.any (table.typesAbove type).contains)))

/-- No cycle is above a type. -/
def IsGroundedType (type : Option BindingId) : Prop :=
  ∀ binding, type = some binding → Grounded table.Above binding

/-- A supertype cycle above a type. -/
def CycleAboveType (type : Option BindingId) (fault : SemanticFault) : Prop :=
  ∃ binding, type = some binding ∧ table.CycleAbove binding fault

end Table

namespace Query

variable {table : Table} {blame : SemanticFault → Prop} {before : Cache} {binding : BindingId}
  {symbol : SymbolId} {type other : TypeId} {shown otherShown : Option BindingId}

/-! ## What a facade says -/

theorem isUnknown_eq (valid : before.Valid table) (isShown : before.ShowsType type shown) :
    type.isUnknown = shown.isNone := by
  cases shown with
  | none =>
      obtain rfl := (valid.eq_unknown_iff isShown).2 rfl
      rfl
  | some binding => exact valid.isUnknown_eq_false isShown

theorem isNamed_eq (valid : before.Valid table) (isShown : before.ShowsType type shown)
    (name : String) : before.isNamed type name = table.isNamed shown name := by
  rw [Cache.isNamed, isUnknown_eq valid isShown]
  cases shown with
  | none => rfl
  | some binding =>
      rw [(valid.describesType isShown).qualifiedName]
      rfl

theorem isReference_eq (valid : before.Valid table)
    (isShown : before.ShowsType type (some binding)) :
    before.isReference type = table.isReference binding := by
  have isKind := (valid.describesType isShown).kind
  rw [Cache.isReference, Table.isReference, isKind]
  cases (before.type type).kind <;> rfl

/-! ## Supertypes of types -/

theorem yields_superTypes (arraysEnd : table.ArraysEnd) (valid : before.Valid table)
    (idle : Idle before) (isShown : before.ShowsSymbol symbol binding) :
    Yields table (table.CycleAbove binding) (superTypes table symbol) before fun types after =>
      Grounded table.Above binding →
        after.ShowsTypes types ((table.lineage binding).map some) := by
  have found := found_superTypes arraysEnd valid idle isShown
  exact ⟨found.leads, found.shown⟩

theorem yields_typeSymbol (valid : before.Valid table) (isShown : before.ShowsType type shown) :
    Yields table blame (typeSymbol table type) before fun answer after =>
      Option.Rel after.ShowsSymbol answer (shown.filter table.isReference) := by
  rw [typeSymbol]
  apply Yields.get
  simp only [isShown.2]
  cases shown with
  | none => exact .pure valid .none
  | some binding =>
      have isKind := (valid.describesType isShown).kind
      rw [Option.filter_some, Table.isReference, isKind]
      cases (before.type type).kind with
      | primitive | typeVariable | unknown => exact .pure valid .none
      | «class» | interface | enum | record | annotationType | array =>
          apply (yields_symbolOf valid).map
          intro symbol after _ isShown
          exact .some isShown

theorem yields_superTypesOf (arraysEnd : table.ArraysEnd) (valid : before.Valid table)
    (idle : Idle before) (isShown : before.ShowsType type shown) :
    Yields table (table.CycleAboveType shown) (superTypesOf table type) before fun types after =>
      table.IsGroundedType shown → after.ShowsTypes types ((table.typesAbove shown).map some) := by
  rw [superTypesOf]
  apply (yields_typeSymbol valid isShown).bind
  intro answer middle leads isDeclared
  rw [Table.typesAbove]
  cases filtered : shown.filter table.isReference with
  | none =>
      rw [filtered] at isDeclared
      cases isDeclared
      exact .pure leads.valid fun _ => .nil
  | some binding =>
      obtain rfl : shown = some binding := (Option.filter_eq_some_iff.1 filtered).1
      rw [filtered] at isDeclared
      cases isDeclared with
      | some symbolShown =>
          have stillIdle := idle.later leads.toGrows
          have supers := yields_superTypes arraysEnd leads.valid stillIdle symbolShown
          apply (supers.blameMore fun fault cycle => ⟨binding, rfl, cycle⟩).imp
          intro types after _ typesShown grounded
          exact typesShown (grounded binding rfl)

/-! ## The two checks -/

theorem any_isNamed {types : List TypeId} {above : List BindingId} (valid : before.Valid table)
    (isShown : before.ShowsTypes types (above.map some)) (name : String) :
    types.any (before.isNamed · name) = above.any fun type => table.isNamed (some type) name := by
  induction above generalizing types with
  | nil =>
      obtain rfl := List.forall₂_nil_right_iff.1 isShown
      rfl
  | cons type above ih =>
      rcases List.forall₂_cons_right_iff.1 isShown with ⟨first, rest, firstShown, restShown, rfl⟩
      rw [List.any_cons, List.any_cons, isNamed_eq valid firstShown, ih restShown]

theorem contains_eq {types : List TypeId} {above : List BindingId} (valid : before.Valid table)
    (isShown : before.ShowsTypes types (above.map some))
    (otherIsShown : before.ShowsType other (some binding)) :
    types.contains other = above.contains binding := by
  have sameMember := List.rel_mem valid.biUnique_showsType otherIsShown isShown
  rw [Bool.eq_iff_iff, List.contains_iff_mem, List.contains_iff_mem]
  simpa using sameMember

theorem yields_isSubtypeOf {name : String} (arraysEnd : table.ArraysEnd)
    (valid : before.Valid table) (idle : Idle before) (isShown : before.ShowsType type shown) :
    Yields table (table.CycleAboveType shown) (isSubtypeOf table type name) before
      fun answer _ => table.IsGroundedType shown → answer = table.isBelowName shown name := by
  rw [isSubtypeOf, isUnknown_eq valid isShown]
  cases shown with
  | none => exact .pure valid fun _ => rfl
  | some binding =>
      apply Yields.get
      rw [isNamed_eq valid isShown, Table.isBelowName]
      cases table.isNamed (some binding) name with
      | true => exact .pure valid fun _ => rfl
      | false =>
          apply Yields.get
          rw [isReference_eq valid isShown, Option.any_some]
          cases table.isReference binding with
          | false => exact .pure valid fun _ => rfl
          | true =>
              cases name == rootTypeName with
              | true => exact .pure valid fun _ => rfl
              | false =>
                  apply (yields_superTypesOf arraysEnd valid idle isShown).bind
                  intro types after leads typesShown
                  apply Yields.get
                  apply Yields.pure leads.valid
                  intro grounded
                  rw [any_isNamed leads.valid (typesShown grounded)]
                  rfl

theorem yields_isSubtypeOfType (arraysEnd : table.ArraysEnd)
    (valid : before.Valid table) (idle : Idle before) (isShown : before.ShowsType type shown)
    (otherIsShown : before.ShowsType other otherShown) :
    Yields table (table.CycleAboveType shown) (isSubtypeOfType table type other) before
      fun answer _ => table.IsGroundedType shown → answer = table.isBelow shown otherShown := by
  rw [isSubtypeOfType, isUnknown_eq valid isShown, isUnknown_eq valid otherIsShown]
  cases shown with
  | none => exact .pure valid fun _ => rfl
  | some binding =>
      cases otherShown with
      | none => exact .pure valid fun _ => rfl
      | some otherBinding =>
          have same : type = other ↔ binding = otherBinding := by
            constructor
            · intro same
              subst same
              exact Option.some.inj (isShown.2.symm.trans otherIsShown.2)
            · intro same
              subst same
              exact valid.type_eq isShown otherIsShown
          have sameTest : (type == other) = (some binding == some otherBinding) := by
            rw [Bool.eq_iff_iff, beq_iff_eq, beq_iff_eq, same, Option.some.injEq]
          simp only [Option.isNone_some, Bool.or_self, Bool.false_eq_true, if_false, sameTest,
            Table.isBelow, Option.isSome_some, Bool.and_self, Bool.true_and]
          cases some binding == some otherBinding with
          | true => exact .pure valid fun _ => rfl
          | false =>
              apply Yields.get
              rw [isReference_eq valid isShown, Option.any_some]
              cases table.isReference binding with
              | false => exact .pure valid fun _ => rfl
              | true =>
                  apply Yields.get
                  rw [isNamed_eq valid otherIsShown]
                  cases table.isNamed (some otherBinding) rootTypeName with
                  | true => exact .pure valid fun _ => rfl
                  | false =>
                      apply (yields_superTypesOf arraysEnd valid idle isShown).bind
                      intro types after leads typesShown
                      apply Yields.pure leads.valid
                      intro grounded
                      have otherStillShown := leads.toKeeps.showsType otherIsShown
                      rw [contains_eq leads.valid (typesShown grounded) otherStillShown]
                      rfl

end Query

end JavaInspect
