import JavaInspect.Proofs.Binding.Grounded

/-!
# Built tables

A table is built from the empty one by calls that declare bindings and link them.
A call looks only at bindings that were handed out earlier; the bindings that it
merely stores may be any. What every built table has in common is shown here: a
type is registered under its qualified name, and an array is younger than its
component type.
-/

namespace JavaInspect

/-- A call that builds a table. -/
inductive TableCall where
  | package (name : String)
  | declareType (qualifiedName : String) (kind : TypeKind)
  | declareNestedType (outer : BindingId) (name : String) (kind : TypeKind)
  | declareLocalType (owner : BindingId) (name : String) (kind : TypeKind)
  | unresolvedType (token : String)
  | primitive (name : String)
  | arrayOf (element : BindingId)
  | setSuperclass (type superclass : BindingId)
  | addInterface (type interface : BindingId)
  | annotate (target type : BindingId)
  | declareMethod (owner : BindingId) (name : String) (parameters : List BindingId)
      (result : Option BindingId)
  | declareConstructor (owner : BindingId) (parameters : List BindingId)
  | setVarargs (method : BindingId) (varargs : Bool)
  | declareField (owner : BindingId) (name : String) (type : BindingId)
  | declareVariable (owner : BindingId) (name : String) (type : BindingId)
  | markRecovered (binding : BindingId)
  | hideType (qualifiedName : String)
  | typeReference (name : String)

namespace TableCall

/-- The table after a call. -/
def apply (table : Table) : TableCall → Table
  | .package name => (table.package name).2
  | .declareType qualifiedName kind => (table.declareType qualifiedName kind).2
  | .declareNestedType outer name kind => (table.declareNestedType outer name kind).2
  | .declareLocalType owner name kind => (table.declareLocalType owner name kind).2
  | .unresolvedType token => (table.unresolvedType token).2
  | .primitive name => (table.primitive name).2
  | .arrayOf element => (table.arrayOf element).2
  | .setSuperclass type superclass => table.setSuperclass type superclass
  | .addInterface type interface => table.addInterface type interface
  | .annotate target type => table.annotate target type
  | .declareMethod owner name parameters result =>
      (table.declareMethod owner name parameters result).2
  | .declareConstructor owner parameters => (table.declareConstructor owner parameters).2
  | .setVarargs method varargs => table.setVarargs method varargs
  | .declareField owner name type => (table.declareField owner name type).2
  | .declareVariable owner name type => (table.declareVariable owner name type).2
  | .markRecovered binding => table.markRecovered binding
  | .hideType qualifiedName => table.hideType qualifiedName
  | .typeReference name => (table.typeReference name).2

/-- The bindings whose entries a call reads or changes. -/
def subjects : TableCall → List BindingId
  | .declareNestedType outer _ _ => [outer]
  | .arrayOf element => [element]
  | .setSuperclass type _ | .addInterface type _ => [type]
  | .annotate target _ => [target]
  | .declareMethod owner _ _ _ | .declareConstructor owner _ | .declareField owner _ _ => [owner]
  | .setVarargs method _ => [method]
  | .markRecovered binding => [binding]
  | _ => []

end TableCall

namespace Table

/-- The tables that calls build from the empty one. -/
inductive Built : Table → Prop where
  | empty : Built {}
  | call {table : Table} (call : TableCall) (built : Built table)
      (handedOut : ∀ subject ∈ call.subjects, subject.index < table.size) :
      Built (call.apply table)

/-- The table that calls build one after another; a call on a binding that was not handed
out changes nothing. -/
def build (calls : List TableCall) : Table :=
  calls.foldl (fun table call =>
    if ∀ subject ∈ call.subjects, subject.index < table.size then call.apply table
    else table) {}

variable {table : Table} {binding other : BindingId} {entry : Entry}

theorem build_concat {calls : List TableCall} {call : TableCall} : build (calls ++ [call]) =
    if ∀ subject ∈ call.subjects, subject.index < (build calls).size then
      call.apply (build calls)
    else build calls := by
  rw [build, List.foldl_concat]
  rfl

theorem built_iff : table.Built ↔ ∃ calls, build calls = table := by
  constructor
  · intro built
    induction built with
    | empty => exact ⟨[], rfl⟩
    | call call _ handedOut ih =>
        rcases ih with ⟨calls, rfl⟩
        exact ⟨calls ++ [call], build_concat.trans (if_pos handedOut)⟩
  · intro found
    rcases found with ⟨calls, rfl⟩
    induction calls using List.reverseRecOn with
    | nil => exact .empty
    | append_singleton calls call ih =>
        rw [build_concat]
        split
        case isTrue handedOut => exact .call call ih handedOut
        case isFalse => exact ih

@[simp] theorem size_push : (table.push entry).2.size = table.size + 1 := by
  simp [push, size]

@[simp] theorem size_modify {change : Entry → Entry} :
    (table.modify binding change).size = table.size := by
  simp [modify, size]

@[simp] theorem fst_push : (table.push entry).1 = ⟨table.size⟩ := rfl

theorem entry_push_old (old : other.index < table.size) :
    (table.push entry).2.entry other = table.entry other := by
  simp only [Table.entry, push, size] at old ⊢
  rw [Array.getElem?_push_lt old, Array.getElem?_eq_getElem old]

@[simp] theorem entry_push_new : (table.push entry).2.entry ⟨table.size⟩ = entry := by
  simp [Table.entry, push, size]

/-- A projection that a change of an entry keeps is kept by the whole table. -/
theorem proj_entry_modify {Shown : Type} {change : Entry → Entry} (shows : Entry → Shown)
    (keeps : ∀ entry, shows (change entry) = shows entry) :
    shows ((table.modify binding change).entry other) = shows (table.entry other) := by
  simp only [Table.entry, modify, Array.getElem?_modify]
  by_cases same : binding.index = other.index
  · cases table.entries[other.index]? <;> simp [same, keeps]
  · simp [same]

theorem entry_push : (table.push entry).2.entry binding =
    if binding = ⟨table.size⟩ then entry else table.entry binding := by
  split
  case isTrue isNew => exact isNew ▸ entry_push_new
  case isFalse notNew =>
    have apart : binding.index ≠ table.size := fun equal => notNew (congrArg BindingId.mk equal)
    rcases Nat.lt_or_gt_of_ne apart with old | outside
    · exact entry_push_old old
    · rw [entry_of_outside (Nat.not_lt.2 (Nat.le_of_lt outside)), entry_of_outside]
      rw [size_push]
      omega

theorem entry_modify_of_ne {change : Entry → Entry} (apart : other ≠ binding) :
    (table.modify binding change).entry other = table.entry other := by
  have differs : binding.index ≠ other.index := fun same =>
    apart (congrArg BindingId.mk same.symm)
  simp [Table.entry, modify, Array.getElem?_modify, differs]

theorem entry_modify {change : Entry → Entry} (inTable : binding.index < table.size) :
    (table.modify binding change).entry other =
      if other = binding then change (table.entry binding) else table.entry other := by
  split
  case isTrue same =>
    replace inTable : binding.index < table.entries.size := inTable
    simp only [Table.entry, modify, same, Array.getElem?_modify]
    simp [inTable]
  case isFalse apart => exact entry_modify_of_ne apart

@[simp] theorem qualifiedName_addMember {member : BindingId} :
    ((table.addMember binding member).entry other).qualifiedName =
      (table.entry other).qualifiedName :=
  proj_entry_modify Entry.qualifiedName fun _ => rfl

theorem index_lt_of_entry {Shown : Type} (shows : Entry → Option Shown)
    (blank : shows {} = none) {shown : Shown} (isShown : shows (table.entry binding) = some shown) :
    binding.index < table.size := by
  by_contra outside
  have absent : table.entries[binding.index]? = none :=
    Array.getElem?_eq_none (Nat.not_lt.1 outside)
  simp [Table.entry, absent, blank] at isShown

/-- The bindings that the indexes of a table hand out again. -/
def indexed (table : Table) : List BindingId :=
  table.types.map (·.2) ++ table.primitives.map (·.2) ++ table.unresolved.map (·.2) ++
    table.arrays.map (·.2)

/-- What all built tables have in common. -/
structure WellLinked (table : Table) : Prop where
  indexed : ∀ binding ∈ table.indexed, binding.index < table.size
  /-- A type is registered under its qualified name. -/
  named : ∀ name type, (name, type) ∈ table.types → (table.entry type).qualifiedName = name
  /-- An array is younger than its component type. -/
  componentOlder : ∀ array component, (table.entry array).element = some component →
    component.index < array.index
  /-- Only arrays have component types. -/
  componentOfArray : ∀ array component, (table.entry array).element = some component →
    (table.entry array).typeKind = some .array

namespace WellLinked

theorem empty : WellLinked {} where
  indexed := by simp [Table.indexed]
  named := by simp
  componentOlder := by simp [Table.entry]
  componentOfArray := by simp [Table.entry]

theorem type_lt (linked : table.WellLinked) {name : String}
    (registered : (name, binding) ∈ table.types) :
    binding.index < table.size := by
  apply linked.indexed
  simp only [Table.indexed, List.mem_append, List.mem_map]
  exact .inl (.inl (.inl ⟨_, registered, rfl⟩))

/-- A binding of the table with an appended entry is an old one or the appended one. -/
theorem old_or_pushed (inTable : other.index < (table.push entry).2.size) :
    other.index < table.size ∨ other = ⟨table.size⟩ := by
  rw [size_push] at inTable
  cases other
  simp only [BindingId.mk.injEq] at inTable ⊢
  omega

/-- Appending an entry keeps the promises when only the entry of an array names a component
type, and an older one. -/
theorem push (linked : table.WellLinked)
    (allowed : ∀ component, entry.element = some component →
      component.index < table.size ∧ entry.typeKind = some .array) :
    (table.push entry).2.WellLinked where
  indexed := by
    intro binding isIndexed
    have inTable := linked.indexed binding isIndexed
    simp only [size_push]
    omega
  named := by
    intro name type registered
    rw [entry_push_old (linked.type_lt registered)]
    exact linked.named name type registered
  componentOlder := by
    intro array component isElement
    rcases old_or_pushed (index_lt_of_entry Entry.element rfl isElement) with old | rfl
    · rw [entry_push_old old] at isElement
      exact linked.componentOlder array component isElement
    · rw [entry_push_new] at isElement
      exact (allowed component isElement).1
  componentOfArray := by
    intro array component isElement
    rcases old_or_pushed (index_lt_of_entry Entry.element rfl isElement) with old | rfl
    · rw [entry_push_old old] at isElement ⊢
      exact linked.componentOfArray array component isElement
    · rw [entry_push_new] at isElement ⊢
      exact (allowed component isElement).2

/-- A change that keeps qualified names, kinds and component types keeps the promises. -/
theorem modify (linked : table.WellLinked) {change : Entry → Entry}
    (keepsName : ∀ entry, (change entry).qualifiedName = entry.qualifiedName)
    (keepsKind : ∀ entry, (change entry).typeKind = entry.typeKind)
    (keepsElement : ∀ entry, (change entry).element = entry.element) :
    (table.modify binding change).WellLinked where
  indexed := by
    intro other isIndexed
    rw [size_modify]
    exact linked.indexed other isIndexed
  named := by
    intro name type registered
    rw [proj_entry_modify Entry.qualifiedName keepsName]
    exact linked.named name type registered
  componentOlder := by
    intro array component isElement
    rw [proj_entry_modify Entry.element keepsElement] at isElement
    exact linked.componentOlder array component isElement
  componentOfArray := by
    intro array component isElement
    rw [proj_entry_modify Entry.element keepsElement] at isElement
    rw [proj_entry_modify Entry.typeKind keepsKind]
    exact linked.componentOfArray array component isElement

/-- The indexes may hand out any binding of the table; a type is registered under
its own qualified name. -/
theorem reindex {changed : Table} (linked : table.WellLinked)
    (sameEntries : changed.entries = table.entries)
    (indexed : ∀ binding ∈ changed.indexed, binding ∈ table.indexed ∨ binding.index < table.size)
    (named : ∀ name type, (name, type) ∈ changed.types →
      (name, type) ∈ table.types ∨ (table.entry type).qualifiedName = name) :
    changed.WellLinked where
  indexed := by
    intro binding isIndexed
    simp only [size, sameEntries]
    rcases indexed binding isIndexed with old | inTable
    · exact linked.indexed binding old
    · exact inTable
  named := by
    intro name type registered
    simp only [Table.entry, sameEntries]
    rcases named name type registered with old | isNamed
    · exact linked.named name type old
    · exact isNamed
  componentOlder := by
    intro array component isElement
    simp only [Table.entry, sameEntries] at isElement
    exact linked.componentOlder array component isElement
  componentOfArray := by
    intro array component isElement
    simp only [Table.entry, sameEntries] at isElement ⊢
    exact linked.componentOfArray array component isElement

/-- A type may be registered under its qualified name. -/
theorem register (linked : table.WellLinked) {type : BindingId} {name : String}
    (inTable : type.index < table.size) (named : (table.entry type).qualifiedName = name) :
    { table with types := (name, type) :: table.types }.WellLinked := by
  refine linked.reindex rfl ?_ ?_
  · intro binding isIndexed
    simp only [Table.indexed, List.map_cons, List.cons_append, List.mem_cons] at isIndexed
    rcases isIndexed with rfl | old
    · exact .inr inTable
    · exact .inl old
  · intro name other registered
    rcases List.mem_cons.1 registered with isNew | old
    · rcases Prod.mk.inj isNew with ⟨rfl, rfl⟩
      exact .inr named
    · exact .inl old

theorem package (linked : table.WellLinked) (name : String) :
    (table.package name).2.WellLinked := by
  rw [Table.package]
  split
  · exact linked
  · exact (linked.push (by simp)).reindex rfl (fun _ => .inl) fun _ _ => .inl

theorem packageOf (linked : table.WellLinked) (name : String) :
    (table.packageOf name).2.WellLinked := by
  rw [Table.packageOf]
  split
  · exact linked.package _
  · exact linked

theorem declareType (linked : table.WellLinked) (qualifiedName : String) (kind : TypeKind) :
    (table.declareType qualifiedName kind).2.WellLinked := by
  rw [Table.declareType]
  split
  · exact linked
  · exact ((linked.packageOf qualifiedName).push (by simp)).register (by simp) (by simp)

theorem addMember (linked : table.WellLinked) (owner member : BindingId) :
    (table.addMember owner member).WellLinked :=
  linked.modify (fun _ => rfl) (fun _ => rfl) fun _ => rfl

theorem declareNestedType (linked : table.WellLinked) (outer : BindingId) (name : String)
    (kind : TypeKind) : (table.declareNestedType outer name kind).2.WellLinked := by
  rw [Table.declareNestedType]
  split
  · exact linked
  · refine ((linked.push (by simp)).addMember outer _).register ?_ ?_
    · simp [Table.addMember]
    · rw [qualifiedName_addMember]
      simp

/-- An index hands out again only bindings of the table. -/
theorem lookup_lt (linked : table.WellLinked) {Key : Type} [BEq Key] [LawfulBEq Key]
    {index : List (Key × BindingId)} {key : Key}
    (isIndex : ∀ binding ∈ index.map (·.2), binding ∈ table.indexed)
    (found : index.lookup key = some binding) : binding.index < table.size := by
  rcases List.lookup_eq_some_iff.1 found with ⟨before, after, rfl, -⟩
  exact linked.indexed binding (isIndex binding (by simp))

end WellLinked

/-- A call that hands out a binding of the grown table. -/
structure HandsOut (answer : BindingId × Table) : Prop where
  linked : answer.2.WellLinked
  inTable : answer.1.index < answer.2.size

namespace WellLinked

/-- Calls that hand out a new binding and keep it in an index other than that of the
named types. -/
theorem handOutNew {changed : Table} (linked : table.WellLinked)
    (allowed : ∀ component, entry.element = some component →
      component.index < table.size ∧ entry.typeKind = some .array)
    (pushed : changed.entries = (table.push entry).2.entries)
    (sameTypes : changed.types = table.types)
    (indexed : ∀ binding ∈ changed.indexed, binding ∈ table.indexed ∨ binding = ⟨table.size⟩) :
    HandsOut (⟨table.size⟩, changed) where
  linked := by
    refine (linked.push allowed).reindex pushed ?_ ?_
    · intro binding isIndexed
      rcases indexed binding isIndexed with old | rfl
      · exact .inl old
      · exact .inr (by simp)
    · intro name type registered
      exact .inl (sameTypes ▸ registered)
  inTable := by
    simp only [size, pushed]
    exact Nat.lt_of_lt_of_eq (Nat.lt_succ_self _) size_push.symm

theorem unresolvedType (linked : table.WellLinked) (token : String) :
    HandsOut (table.unresolvedType token) := by
  rw [Table.unresolvedType]
  cases found : table.unresolved.lookup token with
  | some known =>
      have inTable := linked.lookup_lt (by simp +contextual [Table.indexed]) found
      exact ⟨linked, inTable⟩
  | none =>
      refine linked.handOutNew (by simp) rfl rfl ?_
      intro binding isIndexed
      simp only [Table.indexed, List.map_cons, List.mem_append, List.mem_cons]
        at isIndexed ⊢
      tauto

theorem primitive (linked : table.WellLinked) (name : String) :
    HandsOut (table.primitive name) := by
  rw [Table.primitive]
  cases found : table.primitives.lookup name with
  | some known =>
      have inTable := linked.lookup_lt (by simp +contextual [Table.indexed]) found
      exact ⟨linked, inTable⟩
  | none =>
      refine linked.handOutNew (by simp) rfl rfl ?_
      intro binding isIndexed
      simp only [Table.indexed, List.map_cons, List.mem_append, List.mem_cons]
        at isIndexed ⊢
      tauto

theorem arrayOf (linked : table.WellLinked) {element : BindingId}
    (inTable : element.index < table.size) : HandsOut (table.arrayOf element) := by
  rw [Table.arrayOf]
  cases found : table.arrays.lookup element with
  | some known =>
      have inTable := linked.lookup_lt (by simp +contextual [Table.indexed]) found
      exact ⟨linked, inTable⟩
  | none =>
      refine linked.handOutNew ?_ rfl rfl ?_
      · intro component isSame
        cases isSame
        exact ⟨inTable, rfl⟩
      · intro binding isIndexed
        simp only [Table.indexed, List.map_cons, List.mem_append, List.mem_cons]
          at isIndexed ⊢
        tauto

theorem arrayOfDepth (linked : table.WellLinked) {element : BindingId}
    (inTable : element.index < table.size) (depth : Nat) :
    HandsOut (table.arrayOfDepth element depth) := by
  induction depth with
  | zero => exact ⟨linked, inTable⟩
  | succ depth ih => exact ih.linked.arrayOf ih.inTable

theorem namedReference (linked : table.WellLinked) (name : String) :
    HandsOut (table.namedReference name) := by
  rw [Table.namedReference]
  split
  · exact linked.primitive name
  · cases found : table.lookupType name with
    | some known =>
        have inTable := linked.lookup_lt (by simp +contextual [Table.indexed]) found
        exact ⟨linked, inTable⟩
    | none => exact linked.unresolvedType name

theorem typeReference (linked : table.WellLinked) (name : String) :
    HandsOut (table.typeReference name) := by
  rw [Table.typeReference]
  cases splitDimensions name with
  | mk base depth =>
      have element := linked.namedReference base
      exact element.linked.arrayOfDepth element.inTable depth

theorem declareVariable (linked : table.WellLinked) (owner : BindingId) (name : String)
    (type : BindingId) : (table.declareVariable owner name type).2.WellLinked :=
  linked.push (by simp)

/-- Every call keeps the promises. -/
theorem call (linked : table.WellLinked) (call : TableCall)
    (handedOut : ∀ subject ∈ call.subjects, subject.index < table.size) :
    (call.apply table).WellLinked := by
  cases call with
  | package name => exact linked.package name
  | declareType qualifiedName kind => exact linked.declareType qualifiedName kind
  | declareNestedType outer name kind => exact linked.declareNestedType outer name kind
  | declareLocalType owner name kind => exact linked.push (by simp)
  | unresolvedType token => exact (linked.unresolvedType token).linked
  | primitive name => exact (linked.primitive name).linked
  | arrayOf element =>
      exact (linked.arrayOf (handedOut element (by simp [TableCall.subjects]))).linked
  | declareMethod owner name parameters result => exact (linked.push (by simp)).addMember owner _
  | declareConstructor owner parameters => exact (linked.push (by simp)).addMember owner _
  | declareField owner name type => exact (linked.declareVariable owner name type).addMember owner _
  | declareVariable owner name type => exact linked.declareVariable owner name type
  | hideType qualifiedName => exact linked.reindex rfl (fun _ => .inl) fun _ _ => .inl
  | typeReference name => exact (linked.typeReference name).linked
  | setSuperclass | addInterface | annotate | setVarargs | markRecovered =>
      exact linked.modify (fun _ => rfl) (fun _ => rfl) fun _ => rfl

end WellLinked

theorem Built.wellLinked (built : table.Built) : table.WellLinked := by
  induction built with
  | empty => exact .empty
  | call call _ handedOut ih => exact ih.call call handedOut

/-- What a name resolves to has that name. -/
theorem WellLinked.qualifiedName_of_resolveType (linked : table.WellLinked) {name : String}
    (resolved : table.resolveType name = some binding) :
    (table.entry binding).qualifiedName = name := by
  rw [Table.resolveType, Table.lookupType] at resolved
  split at resolved
  · cases resolved
  · rcases List.lookup_eq_some_iff.1 resolved with ⟨before, after, isTypes, -⟩
    exact linked.named name binding (isTypes ▸ by simp)

end Table

end JavaInspect
