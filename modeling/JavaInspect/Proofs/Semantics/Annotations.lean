import JavaInspect.Proofs.Semantics.Declarations
import JavaInspect.Proofs.Semantics.Subtyping
import JavaInspect.Proofs.Text.Cutting
import JavaInspect.Semantics.Annotated

/-!
# Recognising annotations

There are two views of the annotations of a declaration: those of its symbol, by the types that
the table knows, and those of its node, by the names that they were written by. What is asked
about them is decided by the table and the tree, whatever was asked before.
-/

namespace JavaInspect

open Cache

/-! ## Annotated declarations -/

/-- A declaration carries an annotation of known type with the given qualified name. -/
def Table.Carries (table : Table) (declared : BindingId) (name : String) : Prop :=
  ∃ type ∈ table.annotationTypes declared,
    table.isKnown type ∧ (table.entry type).qualifiedName = name

namespace SourceUnit

variable (unit : SourceUnit)

/-- An annotation in the tree has no type, or one that is not known. -/
def IsUnresolvedUse (mark : NodeId) : Prop :=
  ∀ type, unit.tree.binding mark = some type → ¬ unit.table.isKnown type

/-- A node is written by a name with the given ending. -/
def IsWrittenBy (node : NodeId) (tail : String) : Prop :=
  ∃ before, unit.tree.name node = some (before ++ tail)

/-- The symbol of a node carries an annotation of the given qualified name. -/
def IsMarked (node : NodeId) (name : String) : Prop :=
  ∃ declared, unit.tree.binding node = some declared ∧ unit.table.Carries declared name

/-- An annotation of a node is unresolved and written by a name with the given ending. -/
def HasUnresolvedUse (node : NodeId) (tail : String) : Prop :=
  ∃ mark ∈ unit.tree.annotations node, unit.IsUnresolvedUse mark ∧ unit.IsWrittenBy mark tail

/-- A node is annotated by its symbol or by what is written. -/
def IsAnnotated (node : NodeId) (name tail : String) : Prop :=
  unit.IsMarked node name ∨ unit.HasUnresolvedUse node tail

end SourceUnit

/-! ## What metadata show -/

/-- Among related items one passes exactly if what it is related to does. -/
theorem any_iff_exists {Facade Shown : Type} {isShown : Facade → Shown → Prop}
    {test : Facade → Bool} {holds : Shown → Prop}
    (same : ∀ facade shown, isShown facade shown → (test facade = true ↔ holds shown))
    {facades : List Facade} {shown : List Shown} (areShown : List.Forall₂ isShown facades shown) :
    facades.any test = true ↔ ∃ item ∈ shown, holds item := by
  induction areShown with
  | nil => simp
  | cons firstShown _ ih => simp [same _ _ firstShown, ih]

section Metadata

variable {table : Table} {cache : Cache} {type declared : BindingId} {name : String}
  {names : List String} {use : AnnotationUse} {annotations : List AnnotationUse}

theorem AnnotationUse.is_iff (valid : cache.Valid table)
    (isShown : cache.ShowsAnnotation table use type) : use.is cache name = true ↔
      table.isKnown type ∧ (table.entry type).qualifiedName = name := by
  cases use with
  | resolved facade =>
      rw [AnnotationUse.is, Query.isNamed_eq valid isShown.2]
      simp [Table.isNamed, isShown.1]
  | unresolved token =>
      have unknown : ¬ table.isKnown type = true := isShown.1
      simp [AnnotationUse.is, unknown]

theorem Metadata.isAnnotatedWith_iff (valid : cache.Valid table)
    (areShown : List.Forall₂ (cache.ShowsAnnotation table) annotations
      (table.annotationTypes declared)) :
    Metadata.isAnnotatedWith cache annotations name = true ↔ table.Carries declared name := by
  have same (use : AnnotationUse) (type : BindingId)
      (isShown : cache.ShowsAnnotation table use type) : use.is cache name = true ↔
        table.isKnown type ∧ (table.entry type).qualifiedName = name :=
    AnnotationUse.is_iff valid isShown
  exact any_iff_exists same areShown

theorem Metadata.isAnnotatedWithAny_iff (valid : cache.Valid table)
    (areShown : List.Forall₂ (cache.ShowsAnnotation table) annotations
      (table.annotationTypes declared)) :
    Metadata.isAnnotatedWithAny cache annotations names = true ↔
      ∃ name ∈ names, table.Carries declared name := by
  have same (use : AnnotationUse) (type : BindingId)
      (isShown : cache.ShowsAnnotation table use type) :
      (names.any fun name => use.is cache name) = true ↔
        ∃ name ∈ names, table.isKnown type ∧ (table.entry type).qualifiedName = name := by
    rw [List.any_eq_true]
    exact exists_congr fun name => and_congr_right fun _ => AnnotationUse.is_iff valid isShown
  rw [Metadata.isAnnotatedWithAny, any_iff_exists same areShown]
  simp only [Table.Carries]
  constructor
  · rintro ⟨type, carried, name, listed, isName⟩
    exact ⟨name, listed, type, carried, isName⟩
  · rintro ⟨name, listed, type, carried, isName⟩
    exact ⟨type, carried, name, listed, isName⟩

end Metadata

/-! ## Queries that decide -/

namespace Query

variable {Item : Type} {table : Table} {blame : SemanticFault → Prop} {before : Cache}

/-- A query answers whether something holds. -/
abbrev Decides (table : Table) (blame : SemanticFault → Prop) (query : Query Bool) (before : Cache)
    (holds : Prop) : Prop :=
  Yields table blame query before fun answer _ => answer = true ↔ holds

/-- Asking for any item decides whether there is one. -/
theorem Decides.anyM {ask : Item → Query Bool} {holds : Item → Prop} {items : List Item}
    (valid : before.Valid table)
    (asked : ∀ item ∈ items, ∀ middle, Leads table blame before middle →
      Decides table blame (ask item) middle (holds item)) :
    Decides table blame (items.anyM ask) before (∃ item ∈ items, holds item) := by
  classical
  have answered : ∀ item ∈ items, ∀ middle, Leads table blame before middle →
      Yields table blame (ask item) middle fun answer _ =>
        True → answer = decide (holds item) := by
    intro item member middle leads
    apply (asked item member middle leads).imp
    intro answer after _ decided _
    rw [Bool.eq_iff_iff, decided, decide_eq_true_iff]
  apply (Yields.anyM valid answered).imp
  intro answer after _ same
  simp [same trivial]

variable {unit : SourceUnit} {node mark : NodeId} {name tail : String}

theorem nameEndsWith_iff : nameEndsWith unit node tail = true ↔ unit.IsWrittenBy node tail := by
  rw [nameEndsWith, SourceUnit.IsWrittenBy]
  cases unit.tree.name node with
  | none => simp
  | some written => simp [Text.endsWith_iff]

variable (arraysEnd : unit.table.ArraysEnd) (valid : before.Valid unit.table)
include arraysEnd valid

theorem decides_isMarkedBy :
    Decides unit.table blame (isMarkedBy unit node name) before (unit.IsMarked node name) := by
  rw [isMarkedBy, SourceUnit.IsMarked]
  cases unit.tree.binding node with
  | none => exact .pure valid (by simp)
  | some declared =>
      apply (yields_symbolOf valid).bind
      intro symbol middle leads isShown
      apply (yields_metadata arraysEnd leads.valid isShown).bind
      intro annotations after leadsOn areShown
      apply Yields.get
      apply Yields.pure leadsOn.valid
      rw [Metadata.isAnnotatedWith_iff leadsOn.valid areShown]
      simp

theorem decides_isUnresolvedUse :
    Decides unit.table blame (isUnresolvedUse unit mark) before (unit.IsUnresolvedUse mark) := by
  rw [isUnresolvedUse, SourceUnit.IsUnresolvedUse]
  cases unit.tree.binding mark with
  | none => exact .pure valid (by simp)
  | some type =>
      apply (yields_typeOf arraysEnd valid).bind
      intro facade after leads isShown
      apply Yields.pure leads.valid
      rw [isUnknown_eq leads.valid isShown]
      simp [Table.known?]

theorem decides_hasUnresolvedUse :
    Decides unit.table blame (hasUnresolvedUse unit node tail) before
      (unit.HasUnresolvedUse node tail) := by
  rw [hasUnresolvedUse]
  apply Decides.anyM valid
  intro mark _ middle leads
  apply (decides_isUnresolvedUse arraysEnd leads.valid).bind
  intro unresolved after leadsOn decided
  apply Yields.pure leadsOn.valid
  rw [Bool.and_eq_true, decided, nameEndsWith_iff]

theorem decides_isAnnotated :
    Decides unit.table blame (isAnnotated unit node name tail) before
      (unit.IsAnnotated node name tail) := by
  rw [isAnnotated]
  apply (decides_isMarkedBy arraysEnd valid).bind
  intro marked after leads decided
  cases marked with
  | true => exact .pure leads.valid (iff_of_true rfl (.inl (decided.1 rfl)))
  | false =>
      have notMarked : ¬ unit.IsMarked node name := by simp [← decided]
      apply (decides_hasUnresolvedUse arraysEnd leads.valid).imp
      intro answer _ _ unresolved
      rw [unresolved, SourceUnit.IsAnnotated, or_iff_right notMarked]

end Query

end JavaInspect
