import JavaInspect.Library.Loading
import JavaInspect.Proofs.Binding.Calls

/-!
# Loaded class paths

The table of a class path is typed, whatever types it lists and however they refer to each
other.
-/

namespace JavaInspect

namespace Table

variable {table middle after : Table} {binding type owner : BindingId}

namespace Typed

theorem setSuperclass (typed : table.Typed) (isType : table.Holds .type type) :
    (table.setSuperclass binding type).Typed :=
  typed.modify (fun _ => rfl) (fun _ => rfl) <| by
    rintro _ ⟨⟩
    exact isType

theorem addInterface (typed : table.Typed) : (table.addInterface binding type).Typed :=
  typed.modify (fun _ => rfl) (fun _ => rfl)
    (typed.superclass binding)

theorem annotate (typed : table.Typed) : (table.annotate binding type).Typed :=
  typed.modify (fun _ => rfl) (fun _ => rfl)
    (typed.superclass binding)

theorem setVarargs (typed : table.Typed) {varargs : Bool} :
    (table.setVarargs binding varargs).Typed :=
  typed.modify (fun _ => rfl) (fun _ => rfl)
    (typed.superclass binding)

end Typed

/-- A typed table with all the bindings of another. -/
structure Furthers (before after : Table) : Prop where
  size_le : before.size ≤ after.size
  typed : after.Typed

namespace Furthers

theorem trans (first : table.Furthers middle) (second : middle.Furthers after) :
    table.Furthers after :=
  ⟨Nat.le_trans first.size_le second.size_le, second.typed⟩

theorem foldl {Item : Type} {change : Table → Item → Table} (typed : table.Typed)
    (inTable : owner.index < table.size)
    (step : ∀ (table : Table) item, table.Typed → owner.index < table.size →
      table.Furthers (change table item)) (items : List Item) :
    table.Furthers (items.foldl change table) := by
  induction items generalizing table with
  | nil => exact ⟨Nat.le_refl _, typed⟩
  | cons item items ih =>
      have first := step table item typed inTable
      exact first.trans (ih first.typed (Nat.lt_of_lt_of_le inTable first.size_le))

end Furthers

theorem Refers.furthers {answer : BindingId × Table} (refers : table.Refers answer) :
    table.Furthers answer.2 :=
  ⟨refers.grows.size_le, refers.typed⟩

namespace Typed

theorem furthers_linkSuperclass (typed : table.Typed) (name : String) :
    table.Furthers (linkSuperclass owner table name) := by
  have superclass := typed.refers_typeReference name
  exact superclass.furthers.trans
    ⟨Nat.le_of_eq size_modify.symm, superclass.typed.setSuperclass superclass.isType⟩

theorem furthers_linkInterface (typed : table.Typed) (owner : BindingId) (name : String) :
    table.Furthers (linkInterface owner table name) := by
  have interface := typed.refers_typeReference name
  exact interface.furthers.trans ⟨Nat.le_of_eq size_modify.symm, interface.typed.addInterface⟩

theorem furthers_annotateByName (typed : table.Typed) (owner : BindingId) (name : String) :
    table.Furthers (annotateByName owner table name) := by
  have annotation := typed.refers_typeReference name
  exact annotation.furthers.trans ⟨Nat.le_of_eq size_modify.symm, annotation.typed.annotate⟩

theorem furthers_typeReferences (typed : table.Typed) (names : List String) :
    table.Furthers (table.typeReferences names).2 := by
  induction names generalizing table with
  | nil => exact ⟨Nat.le_refl _, typed⟩
  | cons name names ih =>
      have first := (typed.refers_typeReference name).furthers
      exact first.trans (ih first.typed)

theorem furthers_loadField (typed : table.Typed) (inTable : owner.index < table.size)
    (field : LibraryField) : table.Furthers (loadField owner table field) := by
  have type := typed.refers_typeReference field.type
  have added := type.typed.addsMember_declareField field.name
    (Nat.lt_of_lt_of_le inTable type.grows.size_le) type.isType
  exact type.furthers.trans ⟨added.grows.size_le, added.typed⟩

theorem furthers_setVarargs (typed : table.Typed) (binding : BindingId) (varargs : Bool) :
    table.Furthers (table.setVarargs binding varargs) :=
  ⟨Nat.le_of_eq size_modify.symm, typed.setVarargs⟩

theorem furthers_loadConstructor (typed : table.Typed) (inTable : owner.index < table.size)
    (constructor : LibraryConstructor) : table.Furthers (loadConstructor owner table constructor) := by
  have parameters := typed.furthers_typeReferences constructor.parameters
  have added := parameters.typed.addsMember_declareConstructor
    (table.typeReferences constructor.parameters).1 (Nat.lt_of_lt_of_le inTable parameters.size_le)
  exact (parameters.trans ⟨added.grows.size_le, added.typed⟩).trans (added.typed.furthers_setVarargs _ _)

theorem furthers_loadMethod (typed : table.Typed) (inTable : owner.index < table.size)
    (method : LibraryMethod) : table.Furthers (loadMethod owner table method) := by
  have parameters := typed.furthers_typeReferences method.parameters
  rw [loadMethod]
  generalize table.typeReferences method.parameters = answer at parameters ⊢
  rcases answer with ⟨parameterTypes, middle⟩
  have result := parameters.typed.refers_typeReference (method.returns.getD "void")
  simp only
  generalize middle.typeReference (method.returns.getD "void") = answer at result ⊢
  rcases answer with ⟨resultType, later⟩
  have stays : owner.index < later.size :=
    Nat.lt_of_lt_of_le inTable (Nat.le_trans parameters.size_le result.grows.size_le)
  have added := result.typed.addsMember_declareMethod method.name parameterTypes
    (some resultType) stays <| by
      rintro _ ⟨⟩
      exact result.isType
  have declared : table.Furthers (later.declareMethod owner method.name parameterTypes
      (some resultType)).2 :=
    (parameters.trans result.furthers).trans ⟨added.grows.size_le, added.typed⟩
  have flagged := declared.trans (declared.typed.furthers_setVarargs
    (later.declareMethod owner method.name parameterTypes (some resultType)).1 method.varargs)
  exact flagged.trans (.foldl flagged.typed (Nat.lt_of_lt_of_le inTable flagged.size_le)
    (fun _ name typed _ => typed.furthers_annotateByName _ name) _)

theorem furthers_superclass (typed : table.Typed) (owner : BindingId) (name : Option String) :
    table.Furthers (match name with
      | some name => Table.linkSuperclass owner table name
      | none => table) := by
  split
  · exact typed.furthers_linkSuperclass _
  · exact ⟨Nat.le_refl _, typed⟩

theorem furthers_linkLibraryType (typed : table.Typed) (inTable : owner.index < table.size)
    (type : LibraryType) : table.Furthers (table.linkLibraryType type owner) := by
  have stays : ∀ {later : Table}, table.Furthers later → owner.index < later.size :=
    fun furthers => Nat.lt_of_lt_of_le inTable furthers.size_le
  rw [linkLibraryType]
  have superclass := typed.furthers_superclass owner type.superclass?
  have interfaces := superclass.trans (.foldl superclass.typed (stays superclass)
    (fun _ name typed _ => typed.furthers_linkInterface owner name) type.interfaces)
  have annotations := interfaces.trans (.foldl interfaces.typed (stays interfaces)
    (fun _ name typed _ => typed.furthers_annotateByName owner name) type.annotations)
  have fields := annotations.trans (.foldl annotations.typed (stays annotations)
    (fun _ field typed inTable => typed.furthers_loadField inTable field) type.fields)
  have constructors := fields.trans (.foldl fields.typed (stays fields)
    (fun _ constructor typed inTable => typed.furthers_loadConstructor inTable constructor)
    type.constructors)
  exact constructors.trans (.foldl constructors.typed (stays constructors)
    (fun _ method typed inTable => typed.furthers_loadMethod inTable method) type.methods)

end Typed

theorem Names.furthers {outer : Option BindingId} {answer : BindingId × Table}
    (typed : table.Typed) (names : Names outer table answer) :
    table.Furthers answer.2 ∧ answer.2.Holds .type answer.1 := by
  rcases names with ⟨same, known⟩ | added
  · rw [same]
    refine ⟨⟨Nat.le_refl _, typed⟩, typed.indexed _ ?_⟩
    rw [indexed]
    simp only [List.mem_append]
    exact .inl (.inl (.inl known))
  · exact ⟨⟨added.grows.size_le, added.typed⟩, added.isType⟩

theorem Typed.declareLibraryTypes (typed : table.Typed) (types : List LibraryType) :
    table.Furthers (table.declareLibraryTypes types).2 ∧
      ∀ binding ∈ (table.declareLibraryTypes types).1,
        binding.index < (table.declareLibraryTypes types).2.size := by
  induction types generalizing table with
  | nil => exact ⟨⟨Nat.le_refl _, typed⟩, by simp [Table.declareLibraryTypes]⟩
  | cons type types ih =>
      rcases (typed.names_declareType type.name type.kind.typeKind).furthers typed with
        ⟨first, isType⟩
      rcases ih first.typed with ⟨others, inTable⟩
      refine ⟨first.trans others, fun binding isListed => ?_⟩
      rcases List.mem_cons.1 isListed with rfl | later
      · exact Nat.lt_of_lt_of_le isType.1 others.size_le
      · exact inTable binding later

/-- The table of a class path is typed. -/
theorem typed_load (path : ClassPath) : (load {} path).Typed := by
  rw [load]
  have declared := Typed.empty.declareLibraryTypes path.types
  generalize Table.declareLibraryTypes {} path.types = answer at declared ⊢
  rcases answer with ⟨bindings, table⟩
  rcases declared with ⟨⟨-, typed⟩, inTable⟩
  have listed : ∀ item ∈ path.types.zip bindings, item.2.index < table.size :=
    fun item isItem => inTable _ (List.of_mem_zip isItem).2
  clear inTable
  simp only
  generalize path.types.zip bindings = items at listed
  induction items generalizing table with
  | nil => exact typed
  | cons item items ih =>
      have linked := typed.furthers_linkLibraryType (listed item List.mem_cons_self) item.1
      exact ih _ linked.typed fun other later =>
        Nat.lt_of_lt_of_le (listed other (List.mem_cons_of_mem _ later)) linked.size_le

end Table

end JavaInspect
