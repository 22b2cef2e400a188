import JavaInspect.Proofs.Semantics.Histories
import Mathlib.Order.Defs.Unbundled

/-!
# The subtype order

The two subtype checks are pieced together from a test for the same type, the root as a
special case, the kind of the type and its lineage. Here they are read as one relation on
bindings. Where the supertypes do not run in a circle and the one root has nothing above it,
this relation orders the reference types, and the check by name agrees with it.
-/

namespace JavaInspect

open Relation Cache

namespace Table

variable {table : Table} {lower middle upper : BindingId} {name : String}

/-! ## The relation -/

/-- A type is a subtype of itself, and a reference type also of the root and of all types
above it. -/
def SubtypeOf (table : Table) (lower upper : BindingId) : Prop :=
  lower = upper ∨
    table.isReference lower ∧ (table.isRoot upper ∨ TransGen table.Above lower upper)

/-- A type is below a name: a reference type below that of the root, or a known type that is a
subtype of a known one with this name. -/
def SubtypeOfName (table : Table) (lower : BindingId) (name : String) : Prop :=
  (table.isReference lower ∧ name = rootTypeName) ∨
    ∃ upper, (table.entry upper).qualifiedName = name ∧
      table.isKnown lower ∧ table.isKnown upper ∧ table.SubtypeOf lower upper

theorem isKnown_of_isReference (reference : table.isReference lower) : table.isKnown lower := by
  rw [isReference] at reference
  rw [isKnown]
  cases isKind : table.facadeKind? lower with
  | none => simp [isKind] at reference
  | some kind => rfl

theorem known?_of_isKnown (known : table.isKnown lower) : table.known? lower = some lower :=
  if_pos known

theorem known?_of_not_isKnown (unknown : ¬ table.isKnown lower) : table.known? lower = none :=
  if_neg unknown

theorem isRoot_of_resolvedType (linked : table.WellLinked)
    (resolved : table.resolvedType rootTypeName = some upper) :
    table.isKnown upper ∧ table.isRoot upper := by
  rcases Option.bind_eq_some_iff.1 resolved with ⟨root, isResolved, shown⟩
  rw [known?, Option.ite_none_right_eq_some] at shown
  rcases shown with ⟨known, same⟩
  obtain rfl := Option.some.inj same
  exact ⟨known, beq_iff_eq.2 (linked.qualifiedName_of_resolveType isResolved)⟩

theorem typesAbove_of_isReference (reference : table.isReference lower) :
    table.typesAbove (some lower) = table.lineage lower := by
  rw [typesAbove, Option.filter_some, if_pos reference]
  rfl

/-- The check against a type decides the relation between known types. -/
theorem isBelow_iff (linked : table.WellLinked) (grounded : Grounded table.Above lower) :
    table.isBelow (table.known? lower) (table.known? upper) ↔
      table.isKnown lower ∧ table.isKnown upper ∧ table.SubtypeOf lower upper := by
  by_cases lowerKnown : table.isKnown lower
  swap
  · simp [known?_of_not_isKnown lowerKnown, isBelow, lowerKnown]
  by_cases upperKnown : table.isKnown upper
  swap
  · simp [known?_of_not_isKnown upperKnown, isBelow, upperKnown]
  rw [known?_of_isKnown lowerKnown, known?_of_isKnown upperKnown, isBelow, SubtypeOf]
  simp only [Option.isSome_some, Bool.and_self, Bool.true_and, Bool.or_eq_true, beq_iff_eq,
    Option.some.injEq, Bool.and_eq_true, Option.any_some, lowerKnown, upperKnown, true_and]
  refine or_congr_right (and_congr_right fun reference => ?_)
  rw [typesAbove_of_isReference reference, List.contains_iff_mem]
  -- The root is decided by its name, whether the lineage holds it or not.
  apply or_congr_right'
  intro notNamed
  exact mem_lineage_iff_above linked grounded (Bool.eq_false_iff.2 notNamed)

/-- The check against a name asks for a known type of this name, or for the root. -/
theorem isBelowName_iff (linked : table.WellLinked) (grounded : Grounded table.Above lower) :
    table.isBelowName (table.known? lower) name ↔ table.SubtypeOfName lower name := by
  rw [SubtypeOfName]
  by_cases known : table.isKnown lower
  swap
  · have noReference : ¬ table.isReference lower := fun reference =>
      known (isKnown_of_isReference reference)
    simp [known?_of_not_isKnown known, isBelowName, isNamed, known, noReference]
  rw [known?_of_isKnown known, isBelowName]
  simp only [Bool.or_eq_true, Bool.and_eq_true, Option.any_some, isNamed, beq_iff_eq,
    List.any_eq_true]
  constructor
  · rintro (ownName | ⟨reference, isRootName | ⟨upper, inLineage, isName⟩⟩)
    · exact .inr ⟨lower, ownName, known, known, .inl rfl⟩
    · exact .inl ⟨reference, isRootName⟩
    · rw [typesAbove_of_isReference reference] at inLineage
      refine .inr ⟨upper, isName, known, isKnown_of_mem_lineage inLineage, .inr ⟨reference, ?_⟩⟩
      apply Classical.or_iff_not_imp_left.2
      intro notRoot
      exact (mem_lineage_iff_above linked grounded (Bool.eq_false_iff.2 notRoot)).1 inLineage
  · rintro (⟨reference, isRootName⟩ | ⟨upper, isName, -, -, rfl | ⟨reference, isRoot | path⟩⟩)
    · exact .inr ⟨reference, .inl isRootName⟩
    · exact .inl isName
    · exact .inr ⟨reference, .inl (isName.symm.trans (beq_iff_eq.1 isRoot))⟩
    · refine .inr ⟨reference, Classical.or_iff_not_imp_left.2 fun notRootName => ?_⟩
      have notRoot : table.isRoot upper = false := by
        rw [Table.isRoot, isName]
        exact beq_false_of_ne notRootName
      rw [typesAbove_of_isReference reference]
      exact ⟨upper, (mem_lineage_iff_above linked grounded notRoot).2 path, isName⟩

theorem isKnown_of_declaredTypeOf (isDeclared : table.declaredTypeOf lower = some upper) :
    table.isKnown upper := by
  have isKnown_of_known? {written : BindingId} (isShown : table.known? written = some upper) :
      table.isKnown upper := by
    rw [known?, Option.ite_none_right_eq_some, Option.some.injEq] at isShown
    exact isShown.2 ▸ isShown.1
  rw [declaredTypeOf] at isDeclared
  split at isDeclared
  · exact isKnown_of_known? isDeclared
  · obtain ⟨written, -, isShown⟩ := Option.bind_eq_some_iff.1 isDeclared
    exact isKnown_of_known? isShown
  · obtain ⟨written, -, isShown⟩ := Option.bind_eq_some_iff.1 isDeclared
    exact isKnown_of_known? isShown
  · cases isDeclared

/-- The check of a declared type against a name asks for a type that is known. -/
theorem isBelowName_declaredTypeOf_iff (linked : table.WellLinked)
    (grounded : ∀ binding, Grounded table.Above binding) :
    table.isBelowName (table.declaredTypeOf lower) name = true ↔
      ∃ type, table.declaredTypeOf lower = some type ∧ table.SubtypeOfName type name := by
  cases isDeclared : table.declaredTypeOf lower with
  | none => simp [isBelowName, isNamed]
  | some type =>
      have isShown := known?_of_isKnown (isKnown_of_declaredTypeOf isDeclared)
      rw [← isShown, isBelowName_iff linked (grounded type)]
      simp [isShown]

/-! ## The order -/

section Order

variable (unique : table.HasUniqueRoot) (bare : table.HasBareRoot)

include bare in
/-- Nothing is above the root. -/
theorem not_above_of_isRoot (known : table.isKnown lower) (isRoot : table.isRoot lower) :
    ¬ TransGen table.Above lower upper := by
  intro path
  rcases TransGen.head'_iff.1 path with ⟨next, above, -⟩
  rcases bare lower known isRoot with ⟨noSuperclass, noInterfaces⟩
  rcases above_iff.1 above with ⟨-, isSuperclass | isInterface, -⟩
  · rw [linearSuperclass?, noSuperclass] at isSuperclass
    split at isSuperclass <;> cases isSuperclass
  · rw [noInterfaces] at isInterface
    cases isInterface

include bare in
theorem SubtypeOf.trans (middleKnown : table.isKnown middle)
    (first : table.SubtypeOf lower middle) (second : table.SubtypeOf middle upper) :
    table.SubtypeOf lower upper := by
  rcases first with rfl | ⟨reference, toMiddle⟩
  · exact second
  · rcases second with rfl | ⟨-, isRoot | onward⟩
    · exact .inr ⟨reference, toMiddle⟩
    · exact .inr ⟨reference, .inl isRoot⟩
    · rcases toMiddle with isRoot | path
      · exact absurd onward (not_above_of_isRoot bare middleKnown isRoot)
      · exact .inr ⟨reference, .inr (path.trans onward)⟩

include unique bare in
theorem SubtypeOf.antisymm (acyclic : Acyclic table.Above) (lowerKnown : table.isKnown lower)
    (upperKnown : table.isKnown upper) (up : table.SubtypeOf lower upper)
    (down : table.SubtypeOf upper lower) : lower = upper := by
  rcases up with rfl | ⟨-, upperRoot | path⟩
  · rfl
  · rcases down with rfl | ⟨-, lowerRoot | back⟩
    · rfl
    · exact unique lower upper lowerKnown upperKnown lowerRoot upperRoot
    · exact absurd back (not_above_of_isRoot bare upperKnown upperRoot)
  · rcases down with rfl | ⟨-, lowerRoot | back⟩
    · rfl
    · exact absurd path (not_above_of_isRoot bare lowerKnown lowerRoot)
    · exact absurd (path.trans back) (acyclic lower)

end Order

end Table

namespace Request

variable {table : Table} {history : List Request} {lower upper : BindingId} {name : String}

/-- A request is granted after a history when it is answered with yes. -/
def Granted (table : Table) (history : List Request) (request : Request) : Prop :=
  (request.ask table (cacheAfter table history)).1 = .decision true

instance (request : Request) : Decidable (Granted table history request) :=
  inferInstanceAs (Decidable (_ = _))

section Decisions

variable (linked : table.WellLinked) (acyclic : Acyclic table.Above)

include acyclic in
theorem grounded_of_acyclic_above (binding : BindingId) : Grounded table.Above binding :=
  Table.grounded_of_noCycle fun finish _ => acyclic finish

include linked acyclic

theorem granted_isSubtypeOfType_iff : Granted table history (.isSubtypeOfType lower upper) ↔
    table.isKnown lower ∧ table.isKnown upper ∧ table.SubtypeOf lower upper := by
  have answered := (yields_ask_isSubtypeOfType linked.arraysEnd
    (valid_cacheAfter linked.arraysEnd history) (idle_cacheAfter linked.arraysEnd history)
    lower upper).2 fun binding _ => grounded_of_acyclic_above acyclic binding
  rw [Granted, answered, meaning, Answer.decision.injEq]
  exact Table.isBelow_iff linked (grounded_of_acyclic_above acyclic lower)

theorem granted_isSubtypeOf_iff :
    Granted table history (.isSubtypeOf lower name) ↔ table.SubtypeOfName lower name := by
  have answered := (yields_ask_isSubtypeOf linked.arraysEnd
    (valid_cacheAfter linked.arraysEnd history) (idle_cacheAfter linked.arraysEnd history)
    lower name).2 fun binding _ => grounded_of_acyclic_above acyclic binding
  rw [Granted, answered, meaning, Answer.decision.injEq]
  exact Table.isBelowName_iff linked (grounded_of_acyclic_above acyclic lower)

end Decisions

/-- In a built table without supertype cycles, in which nothing is above the one root, the
check against a type orders the reference types with the root as the greatest one. What is
not a known type is related to nothing. The check against a name agrees with it. The answers
do not depend on what was asked before. -/
theorem subtypes_ordered (built : table.Built) (unique : table.HasUniqueRoot)
    (bare : table.HasBareRoot) (acyclic : Acyclic table.Above) (history : List Request) :
    IsPartialOrder {type // table.isReference type}
      (fun lower upper => Granted table history (.isSubtypeOfType lower upper)) ∧
    (∀ root, table.resolvedType rootTypeName = some root → ∀ type, table.isReference type →
      Granted table history (.isSubtypeOfType type root)) ∧
    (∀ lower upper, Granted table history (.isSubtypeOfType lower upper) →
      table.isKnown lower ∧ table.isKnown upper) ∧
    (∀ type name, Granted table history (.isSubtypeOf type name) ↔
      (table.isReference type ∧ name = rootTypeName) ∨
        ∃ upper, (table.entry upper).qualifiedName = name ∧
          Granted table history (.isSubtypeOfType type upper)) ∧
    ∀ other lower upper name,
      (Granted table history (.isSubtypeOfType lower upper) ↔
        Granted table other (.isSubtypeOfType lower upper)) ∧
      (Granted table history (.isSubtypeOf lower name) ↔
        Granted table other (.isSubtypeOf lower name)) := by
  have linked := built.wellLinked
  have byType {history : List Request} {lower upper : BindingId} :
      Granted table history (.isSubtypeOfType lower upper) ↔
        table.isKnown lower ∧ table.isKnown upper ∧ table.SubtypeOf lower upper :=
    granted_isSubtypeOfType_iff linked acyclic
  refine ⟨?order, ?root, ?unknown, ?byName, ?history⟩
  case order =>
    have known (type : {type // table.isReference type}) : table.isKnown type.1 :=
      Table.isKnown_of_isReference type.2
    refine { refl := ?_, trans := ?_, antisymm := ?_ }
    · exact fun type => byType.2 ⟨known type, known type, .inl rfl⟩
    · intro lower middle upper first second
      exact byType.2 ⟨known lower, known upper,
        (byType.1 first).2.2.trans bare (known middle) (byType.1 second).2.2⟩
    · intro lower upper up down
      exact Subtype.ext <|
        (byType.1 up).2.2.antisymm unique bare acyclic (known lower) (known upper)
          (byType.1 down).2.2
  case root =>
    intro root resolved type reference
    rcases Table.isRoot_of_resolvedType linked resolved with ⟨known, isRoot⟩
    exact byType.2 ⟨Table.isKnown_of_isReference reference, known, .inr ⟨reference, .inl isRoot⟩⟩
  case unknown => exact fun lower upper granted => ⟨(byType.1 granted).1, (byType.1 granted).2.1⟩
  case byName =>
    intro type name
    simp only [granted_isSubtypeOf_iff linked acyclic, byType, Table.SubtypeOfName]
  case history =>
    intro other lower upper name
    simp only [granted_isSubtypeOf_iff linked acyclic, byType, and_self]

theorem subtypes_ordered_channels :
    let history : List Request := [.superTypes ⟨12⟩, .typeOf ⟨9⟩]
    IsPartialOrder {type // Table.channels.isReference type}
      (fun lower upper => Granted Table.channels history (.isSubtypeOfType lower upper)) ∧
    Granted Table.channels history (.isSubtypeOfType ⟨9⟩ ⟨1⟩) ∧
    ¬ Granted Table.channels history (.isSubtypeOfType ⟨6⟩ ⟨7⟩) ∧
    Granted Table.channels history (.isSubtypeOf ⟨6⟩ "Channel") := by
  intro history
  have built : Table.channels.Built := Table.built_iff.2 ⟨_, rfl⟩
  have unique : Table.channels.HasUniqueRoot := by decide +kernel
  have bare : Table.channels.HasBareRoot := by decide +kernel
  obtain ⟨order, root, unknown, byName, -⟩ :=
    subtypes_ordered built unique bare Table.acyclic_above_channels history
  refine ⟨order, root ⟨1⟩ (by decide +kernel) ⟨9⟩ (by decide +kernel), ?_, ?_⟩
  · intro granted
    exact absurd (unknown ⟨6⟩ ⟨7⟩ granted).2 (by decide +kernel)
  · exact (byName ⟨6⟩ "Channel").2 (.inr ⟨⟨2⟩, by decide +kernel, by decide +kernel⟩)

end Request

end JavaInspect
