import JavaInspect.Proofs.Java.Units
import JavaInspect.Proofs.Semantics.Enclosing

/-!
# What lowering yields

For every class path and every compilation unit without syntax errors lowering yields a tree in
which every node is closed, spans are nested, and bindings go with the kinds of their nodes. Where
distinct type declarations have distinct bindings, the type of each lists what its member nodes
declare, and calls, instance creations and field accesses are bound to what they name.
-/

namespace JavaInspect

theorem NodeKind.not_bears_type {kind : NodeKind} (isMember : kind.declaresMember)
    (noType : kind.isTypeDeclaration = false) : ¬ kind.bears .type := by
  cases kind <;> first | cases isMember; done | cases noType; done | decide

namespace Tree

variable {tree : Tree} {base : Nat} {type : BindingId}

/-- The type declarations of a tree. -/
def typeDeclarations (tree : Tree) : List NodeId :=
  ((List.range tree.size).map NodeId.mk).filter fun node => (tree.kind node).isTypeDeclaration

/-- Every type declaration has a binding of its own, which is none of the first ones. -/
structure Distinguishes (tree : Tree) (base : Nat) : Prop where
  distinct : (tree.typeDeclarations.map tree.binding).Nodup
  isNew : ∀ node ∈ tree.typeDeclarations, ∀ type ∈ tree.binding node, base ≤ type.index

instance : Decidable (tree.Distinguishes base) :=
  decidable_of_iff ((tree.typeDeclarations.map tree.binding).Nodup ∧
      ∀ node ∈ tree.typeDeclarations, ∀ type ∈ tree.binding node, base ≤ type.index)
    ⟨fun ⟨distinct, isNew⟩ => ⟨distinct, isNew⟩,
      fun distinguishes => ⟨distinguishes.distinct, distinguishes.isNew⟩⟩

theorem typeMarks_eq : tree.typeMarks type =
    (tree.typeDeclarations.map tree.binding).count (some type) := by
  rw [typeDeclarations, List.count, List.countP_map, List.countP_filter, List.countP_map]
  refine List.countP_congr fun index _ => ?_
  simp [marks, and_comm]

/-- The innermost type declaration around a member is the one that has it. -/
theorem Arranged.enclosingType_of_member {node member : NodeId} (arranged : tree.Arranged)
    (isDeclaration : (tree.kind node).isTypeDeclaration)
    (isMember : member ∈ tree.declaredMembers node) : tree.enclosingType member = some node := by
  have isChild : member ∈ tree.children node := List.mem_of_mem_filter (List.mem_of_mem_filter isMember)
  rw [enclosingType, ancestors_of_parent (arranged.parent_of_child isChild)
    (arranged.childAbove isChild).1]
  exact List.find?_cons_of_pos isDeclaration

/-- A binding of a call, of an instance creation or of a field access is one of what the node
names. -/
structure BindsCall (table : Table) (tree : Tree) (node : NodeId) (binding : BindingId) : Prop where
  invocation : tree.kind node = .methodInvocation → tree.CallsMethod table node binding
  creation : tree.kind node = .newClass → tree.CreatesInstance table node binding
  constructorCall : tree.kind node = .constructorCall → tree.CallsConstructor table node binding
  select : tree.kind node = .memberSelect → tree.SelectsField table node binding

end Tree

namespace Java

open Phrase

variable {root : Phrase} {base : Nat} {scope : List Nat} {news : List NodeId} {table : Table}
  {before after : Lowering}

namespace Lowering

/-- What all passes over a unit leave behind, over the bindings of a class path. -/
def lowered (table : Table) (source : Source) (root : Phrase) : Lowering :=
  (StateT.run (Lower.lowerAll source root) (.ofRoot table root)).2

/-- A state in which nothing is open or in scope, and with a tree whose spans are nested and whose
bindings go with the kinds of their nodes. -/
structure WellFormed (state : Lowering) : Prop where
  opened : state.builder.opened = []
  scopes : state.scopes = []
  classes : state.classes = []
  methods : state.methods = []
  methodTypeParameters : state.methodTypeParameters = []
  nested : ∀ node parent, state.tree.parent node = some parent →
    covers (state.tree.span parent) (state.tree.span node)
  fits : ∀ node, (state.tree.data node).Fits state.table

namespace Progress

variable (advances : Advances root table.size scope [] news (.ofRoot table root) after)
include advances

/-- Nothing is open or in scope when a unit has been lowered. -/
theorem wellFormed : after.WellFormed where
  opened := advances.opened
  scopes := List.eq_nil_of_length_eq_zero advances.scopes.1
  classes := advances.classes
  methods := advances.methods
  methodTypeParameters := advances.methodTypeParameters
  nested := advances.sound.inside
  fits := advances.sound.fits

/-- Types share bindings only if nodes do. -/
theorem unmixed (distinguishes : after.tree.Distinguishes table.size) :
    Unmixed root table.size after.declared := by
  have counted : ∀ type, (typeLog root after.declared).count type ≤
      (after.tree.typeDeclarations.map after.tree.binding).count (some type) := by
    intro type
    have balance := advances.balance type
    rw [Tree.typeMarks_eq, Tree.typeMarks_eq, List.count_nil,
      show typeLog root (Lowering.ofRoot table root).declared = [] from rfl, List.count_nil] at balance
    omega
  refine ⟨List.nodup_iff_count_le_one.2 fun type => Nat.le_trans (counted type)
    (List.nodup_iff_count_le_one.1 distinguishes.distinct _), fun type isLogged => ?_⟩
  have isMarked := List.count_pos_iff.1
    (Nat.lt_of_lt_of_le (List.count_pos_iff.2 isLogged) (counted type))
  rcases List.mem_map.1 isMarked with ⟨node, isDeclaration, isBinding⟩
  exact distinguishes.isNew node isDeclaration type isBinding

/-- All nodes are closed, and what is bound is bound to what it names. -/
theorem bound (distinguishes : after.tree.Distinguishes table.size) (node : NodeId) :
    after.tree.Bound after.table node := by
  have sound := advances.sound
  by_cases isRoot : node = .root
  · refine .of_plain ?_
    rw [isRoot, sound.rooted.isUnit]
    rfl
  by_cases inside : node.index < after.tree.size
  · refine sound.bound (advances.unmixed distinguishes) node inside ⟨isRoot, ?_⟩
    rw [advances.opened]
    exact List.not_mem_nil
  · refine .of_plain ?_
    rw [Tree.kind, Tree.data_of_outside (Nat.not_lt.1 inside)]
    rfl

/-- Members that are no types lie in the type that they are bound as members of. -/
theorem enclosing_member (distinguishes : after.tree.Distinguishes table.size) {node member : NodeId}
    (isDeclaration : (after.tree.kind node).isTypeDeclaration)
    (isMember : member ∈ after.tree.declaredMembers node)
    (noType : (after.tree.kind member).isTypeDeclaration = false) :
    after.tree.enclosingType member = some node ∧
      ∃ binding type, after.tree.binding member = some binding ∧
        after.tree.binding node = some type ∧ after.table.enclosing binding = some type := by
  have sound := advances.sound
  rcases (advances.bound distinguishes node).members isDeclaration with
    ⟨type, isBinding, isType, fields, implicit, lists, -⟩
  have isListed := lists.mem_iff.2 (List.mem_append_left _ (List.mem_map_of_mem isMember))
  rcases List.mem_map.1 isListed with ⟨binding, isIn, same⟩
  have bears := ((sound.fits member).binding binding same.symm).2
  refine ⟨sound.rooted.arranged.enclosingType_of_member isDeclaration isMember, binding, type,
    same.symm, isBinding, Table.enclosing_of_owner (fun isType => ?_)
      (sound.consistent.typed.memberOwner type binding isIn) isType.2⟩
  rw [isType] at bears
  exact absurd bears (NodeKind.not_bears_type (List.mem_filter.1 isMember).2 noType)

end Progress

/-! ## Results -/

/-- A source text that was read as a phrase is lowered under the header of that phrase. -/
theorem ofPhrase_eq (text : String) (root : Phrase) : ofPhrase table text root =
    lowered table ⟨text.toList, .read text.toList root⟩ root := rfl

section Results

variable (path : ClassPath) (source : Source) (unit : root.Grammatical)
include unit

/-- Whatever is opened while a unit is lowered is closed, spans are nested, and every node carries
bindings of the table that go with its kind. -/
theorem wellFormed_lowered : (lowered (.load {} path) source root).WellFormed := by
  rcases Lower.advances_lowerAll unit (Table.typed_load path) source with ⟨news, advances⟩
  exact advances.wellFormed

variable (distinguishes :
  (lowered (.load {} path) source root).tree.Distinguishes (Table.load {} path).size)
include distinguishes

/-- The type that a type declaration is bound to lists what its member nodes declare, each once, and
for a record what it declares by itself. -/
theorem listsMembers_lowered (node : NodeId)
    (isDeclaration : ((lowered (.load {} path) source root).tree.kind node).isTypeDeclaration) :
    ∃ type, (lowered (.load {} path) source root).tree.binding node = some type ∧
      (lowered (.load {} path) source root).tree.ListsMembers
        (lowered (.load {} path) source root).table node type ∧
      ((lowered (.load {} path) source root).table.entry type).members.Nodup := by
  rcases Lower.advances_lowerAll unit (Table.typed_load path) source with ⟨news, advances⟩
  rcases (advances.bound distinguishes node).members isDeclaration with ⟨type, isBinding, -, lists⟩
  exact ⟨type, isBinding, lists, advances.sound.consistent.typed.membersNodup type⟩

/-- Calls are bound to methods that their receivers or the types around them have, instance creations
and constructor calls to constructors of the types that they name, and field accesses to fields that
their receivers have. -/
theorem bindsCalls_lowered (node : NodeId) (binding : BindingId)
    (isBinding : (lowered (.load {} path) source root).tree.binding node = some binding) :
    (lowered (.load {} path) source root).tree.BindsCall
      (lowered (.load {} path) source root).table node binding := by
  rcases Lower.advances_lowerAll unit (Table.typed_load path) source with ⟨news, advances⟩
  have bound := advances.bound distinguishes node
  exact ⟨fun is => bound.invocation is binding isBinding, fun is => bound.creation is binding isBinding,
    fun is => bound.constructorCall is binding isBinding, fun is => bound.select is binding isBinding⟩

end Results

/-! ## A lowered unit -/

/-- A class with a constructor, and an anonymous class below it with two fields. -/
def classText : String :=
  "class A { A() { } A f(A x) { return x.f(new A() { int y, z; }); } }"

/-- A record with a constructor that is declared without parameters. -/
def recordText : String := "record R(R c) { R { } R f() { return new R(c); } }"

-- What the kernel evaluates of a text stands in one lemma, since each evaluation lowers the text.

theorem lowers_classText : (parse classText.toList).Grammatical ∧
    (ofText (.load {} {}) classText).tree.Distinguishes (Table.load {} {}).size ∧
    (ofText (.load {} {}) classText).tree.kind ⟨10⟩ = .methodInvocation ∧
    (ofText (.load {} {}) classText).tree.binding ⟨10⟩ = some ⟨3⟩ := by
  decide +kernel

theorem wellFormed_classText : (parse classText.toList).Grammatical ∧
    (ofText (.load {} {}) classText).WellFormed :=
  ⟨lowers_classText.1, wellFormed_lowered {} _ lowers_classText.1⟩

theorem lowers_recordText : (parse recordText.toList).Grammatical ∧
    (ofText (.load {} {}) recordText).tree.Distinguishes (Table.load {} {}).size ∧
    ((ofText (.load {} {}) recordText).tree.kind ⟨1⟩).isTypeDeclaration := by
  decide +kernel

theorem listsMembers_recordText : (parse recordText.toList).Grammatical ∧
    (ofText (.load {} {}) recordText).tree.Distinguishes (Table.load {} {}).size ∧
    ((ofText (.load {} {}) recordText).tree.kind ⟨1⟩).isTypeDeclaration ∧
    ∃ type, (ofText (.load {} {}) recordText).tree.binding ⟨1⟩ = some type ∧
      (ofText (.load {} {}) recordText).tree.ListsMembers (ofText (.load {} {}) recordText).table ⟨1⟩
        type ∧ ((ofText (.load {} {}) recordText).table.entry type).members.Nodup := by
  rcases lowers_recordText with ⟨unit, distinguishes, isDeclaration⟩
  exact ⟨unit, distinguishes, isDeclaration,
    listsMembers_lowered {} _ unit distinguishes ⟨1⟩ isDeclaration⟩

theorem bindsCalls_classText : (parse classText.toList).Grammatical ∧
    (ofText (.load {} {}) classText).tree.Distinguishes (Table.load {} {}).size ∧
    (ofText (.load {} {}) classText).tree.kind ⟨10⟩ = .methodInvocation ∧
    (ofText (.load {} {}) classText).tree.binding ⟨10⟩ = some ⟨3⟩ ∧
    (ofText (.load {} {}) classText).tree.BindsCall (ofText (.load {} {}) classText).table ⟨10⟩
      ⟨3⟩ := by
  rcases lowers_classText with ⟨unit, distinguishes, isInvocation, isBinding⟩
  exact ⟨unit, distinguishes, isInvocation, isBinding,
    bindsCalls_lowered {} _ unit distinguishes ⟨10⟩ ⟨3⟩ isBinding⟩

/-! ## Shared bindings -/

/-- Two type declarations at different places of the text have one binding only if it is listed
under a qualified name. Local and anonymous classes share theirs with no other declaration. -/
theorem named_of_shared_lowered (path : ClassPath) (source : Source) (unit : root.Grammatical)
    {first second : NodeId} {type : BindingId}
    (isType : ((lowered (.load {} path) source root).tree.kind first).isTypeDeclaration)
    (otherIsType : ((lowered (.load {} path) source root).tree.kind second).isTypeDeclaration)
    (isBinding : (lowered (.load {} path) source root).tree.binding first = some type)
    (otherIsBinding : (lowered (.load {} path) source root).tree.binding second = some type)
    (apart : (lowered (.load {} path) source root).tree.span second ≠
      (lowered (.load {} path) source root).tree.span first) :
    type ∈ (lowered (.load {} path) source root).table.named := by
  rcases Lower.advances_lowerAll unit (Table.typed_load path) source with ⟨news, advances⟩
  by_contra notListed
  exact apart (advances.sound.separated.span_eq_of_shared unit isType otherIsType isBinding
    otherIsBinding notListed)

/-- Two local classes of one name, in blocks of their own, with a nested class each. The qualified
name of a local class is its simple name, so both nested classes are `L.N`. -/
def namesakesText : String :=
  "class A { void f() { class L { class N { int x; } } } void g() { class L { class N { int y; } } } }"

theorem lowers_namesakesText : (parse namesakesText.toList).Grammatical ∧
    ((ofText (.load {} {}) namesakesText).tree.kind ⟨6⟩).isTypeDeclaration ∧
    ((ofText (.load {} {}) namesakesText).tree.kind ⟨12⟩).isTypeDeclaration ∧
    (ofText (.load {} {}) namesakesText).tree.binding ⟨6⟩ = some ⟨6⟩ ∧
    (ofText (.load {} {}) namesakesText).tree.binding ⟨12⟩ = some ⟨6⟩ ∧
    (ofText (.load {} {}) namesakesText).tree.span ⟨12⟩ ≠
      (ofText (.load {} {}) namesakesText).tree.span ⟨6⟩ ∧
    ((ofText (.load {} {}) namesakesText).tree.typeDeclarations.map fun node =>
      ((ofText (.load {} {}) namesakesText).tree.parent node,
        (ofText (.load {} {}) namesakesText).tree.name node)).Nodup ∧
    ¬ ((ofText (.load {} {}) namesakesText).tree.typeDeclarations.map
      (ofText (.load {} {}) namesakesText).tree.binding).Nodup := by
  decide +kernel

theorem named_namesakesText : (parse namesakesText.toList).Grammatical ∧
    (ofText (.load {} {}) namesakesText).tree.span ⟨12⟩ ≠
      (ofText (.load {} {}) namesakesText).tree.span ⟨6⟩ ∧
    ⟨6⟩ ∈ (ofText (.load {} {}) namesakesText).table.named := by
  rcases lowers_namesakesText with ⟨unit, isType, otherIsType, isBinding, otherIsBinding, apart, -⟩
  exact ⟨unit, apart,
    named_of_shared_lowered {} _ unit isType otherIsType isBinding otherIsBinding apart⟩

/-- Declarations without a common body can share a binding, also where no body declares a name
twice. -/
theorem merges_namesakesText : (parse namesakesText.toList).Grammatical ∧
    ((ofText (.load {} {}) namesakesText).tree.typeDeclarations.map fun node =>
      ((ofText (.load {} {}) namesakesText).tree.parent node,
        (ofText (.load {} {}) namesakesText).tree.name node)).Nodup ∧
    ¬ ((ofText (.load {} {}) namesakesText).tree.typeDeclarations.map
      (ofText (.load {} {}) namesakesText).tree.binding).Nodup := by
  rcases lowers_namesakesText with ⟨unit, -, -, -, -, -, named, merged⟩
  exact ⟨unit, named, merged⟩

/-! ## Local types -/

/-- Every local type has a declaration, and no node that comes before it mentions the type, other
than those around it. -/
theorem announces_lowered (path : ClassPath) (source : Source) (unit : root.Grammatical)
    {name : String} {type : BindingId}
    (isLocal : (name, type) ∈ (lowered (.load {} path) source root).localTypes) :
    ∃ node, (lowered (.load {} path) source root).tree.Announces type node := by
  rcases Lower.advances_lowerAll unit (Table.typed_load path) source with ⟨news, advances⟩
  exact advances.sound.announced _ isLocal

/-- A local class in the block of one method, and its name in the parameter list of the next. -/
def strayText : String := "class A { void f() { class L { } } void g(L p) { } }"

theorem lowers_strayText : ("L", ⟨6⟩) ∈ (ofText (.load {} {}) strayText).localTypes ∧
    (parse strayText.toList).Grammatical ∧
    (ofText (.load {} {}) strayText).tree.kind ⟨5⟩ = .class ∧
    (ofText (.load {} {}) strayText).tree.parent ⟨5⟩ = some ⟨4⟩ ∧
    (ofText (.load {} {}) strayText).tree.kind ⟨4⟩ = .block ∧
    ⟨4⟩ ∉ (ofText (.load {} {}) strayText).tree.ancestors ⟨8⟩ ∧
    (ofText (.load {} {}) strayText).tree.kind ⟨8⟩ = .parameter ∧
    (ofText (.load {} {}) strayText).tree.typeBinding ⟨8⟩ =
      (ofText (.load {} {}) strayText).tree.binding ⟨5⟩ ∧
    ((ofText (.load {} {}) strayText).tree.binding ⟨6⟩).map (fun method =>
      ((ofText (.load {} {}) strayText).table.entry method).parameters.map some) ≠
        some [(ofText (.load {} {}) strayText).tree.typeBinding ⟨8⟩] := by
  decide +kernel

theorem announces_strayText : (parse strayText.toList).Grammatical ∧
    ("L", ⟨6⟩) ∈ (ofText (.load {} {}) strayText).localTypes ∧
    ∃ node, (ofText (.load {} {}) strayText).tree.Announces ⟨6⟩ node := by
  rcases lowers_strayText with ⟨isLocal, unit, -⟩
  exact ⟨unit, isLocal, announces_lowered {} _ unit isLocal⟩

/-- What comes after the block of a local type can mention the type. The parameter of the tree has
it, and the parameter type of the method is another one. -/
theorem leaks_strayText : (parse strayText.toList).Grammatical ∧
    (ofText (.load {} {}) strayText).tree.kind ⟨5⟩ = .class ∧
    (ofText (.load {} {}) strayText).tree.parent ⟨5⟩ = some ⟨4⟩ ∧
    (ofText (.load {} {}) strayText).tree.kind ⟨4⟩ = .block ∧
    ⟨4⟩ ∉ (ofText (.load {} {}) strayText).tree.ancestors ⟨8⟩ ∧
    (ofText (.load {} {}) strayText).tree.kind ⟨8⟩ = .parameter ∧
    (ofText (.load {} {}) strayText).tree.typeBinding ⟨8⟩ =
      (ofText (.load {} {}) strayText).tree.binding ⟨5⟩ ∧
    ((ofText (.load {} {}) strayText).tree.binding ⟨6⟩).map (fun method =>
      ((ofText (.load {} {}) strayText).table.entry method).parameters.map some) ≠
        some [(ofText (.load {} {}) strayText).tree.typeBinding ⟨8⟩] := by
  rcases lowers_strayText with ⟨-, leaks⟩
  exact leaks

/-! ## Members and the types around them -/

section Members

variable (path : ClassPath) (source : Source) (unit : root.Grammatical)
  (distinguishes :
    (lowered (.load {} path) source root).tree.Distinguishes (Table.load {} path).size)
include unit distinguishes

/-- Tree and bindings agree on the type that a field, constant, method or constructor is a member
of. -/
theorem enclosing_member_lowered {node member : NodeId}
    (isDeclaration : ((lowered (.load {} path) source root).tree.kind node).isTypeDeclaration)
    (isMember : member ∈ (lowered (.load {} path) source root).tree.declaredMembers node)
    (noType : ((lowered (.load {} path) source root).tree.kind member).isTypeDeclaration = false) :
    (lowered (.load {} path) source root).tree.enclosingType member = some node ∧
      ∃ binding type, (lowered (.load {} path) source root).tree.binding member = some binding ∧
        (lowered (.load {} path) source root).tree.binding node = some type ∧
        (lowered (.load {} path) source root).table.enclosing binding = some type := by
  rcases Lower.advances_lowerAll unit (Table.typed_load path) source with ⟨news, advances⟩
  exact advances.enclosing_member distinguishes isDeclaration isMember noType

end Members

/-- An anonymous class with an initializer, in which a variable is declared. -/
def initializerText : String := "class A { Object f() { return new Object() { { int x; } }; } }"

theorem lowers_initializerText :
    (ofText (.load {} {}) initializerText).tree.Distinguishes (Table.load {} {}).size ∧
    ((ofText (.load {} {}) initializerText).tree.kind ⟨1⟩).isTypeDeclaration ∧
    ⟨2⟩ ∈ (ofText (.load {} {}) initializerText).tree.declaredMembers ⟨1⟩ ∧
    ((ofText (.load {} {}) initializerText).tree.kind ⟨2⟩).isTypeDeclaration = false ∧
    (parse initializerText.toList).Grammatical ∧
    (ofText (.load {} {}) initializerText).tree.kind ⟨10⟩ = .variable ∧
    (ofText (.load {} {}) initializerText).tree.enclosingType ⟨10⟩ = some ⟨8⟩ ∧
    ((ofText (.load {} {}) initializerText).tree.binding ⟨10⟩).bind
        (ofText (.load {} {}) initializerText).table.enclosing =
      (ofText (.load {} {}) initializerText).tree.binding ⟨1⟩ ∧
    (ofText (.load {} {}) initializerText).tree.binding ⟨1⟩ ≠
      (ofText (.load {} {}) initializerText).tree.binding ⟨8⟩ := by
  decide +kernel

theorem enclosing_initializerText : (parse initializerText.toList).Grammatical ∧
    (ofText (.load {} {}) initializerText).tree.Distinguishes (Table.load {} {}).size ∧
    (ofText (.load {} {}) initializerText).tree.enclosingType ⟨2⟩ = some ⟨1⟩ ∧
      ∃ binding type, (ofText (.load {} {}) initializerText).tree.binding ⟨2⟩ = some binding ∧
        (ofText (.load {} {}) initializerText).tree.binding ⟨1⟩ = some type ∧
        (ofText (.load {} {}) initializerText).table.enclosing binding = some type := by
  rcases lowers_initializerText with ⟨distinguishes, isDeclaration, isMember, noType, unit, -⟩
  exact ⟨unit, distinguishes,
    enclosing_member_lowered {} _ unit distinguishes isDeclaration isMember noType⟩

/-- Tree and bindings can disagree on what is no member: the variable lies in the anonymous class,
and belongs to the method around that class. -/
theorem disagrees_initializerText : (parse initializerText.toList).Grammatical ∧
    (ofText (.load {} {}) initializerText).tree.kind ⟨10⟩ = .variable ∧
    (ofText (.load {} {}) initializerText).tree.enclosingType ⟨10⟩ = some ⟨8⟩ ∧
    ((ofText (.load {} {}) initializerText).tree.binding ⟨10⟩).bind
        (ofText (.load {} {}) initializerText).table.enclosing =
      (ofText (.load {} {}) initializerText).tree.binding ⟨1⟩ ∧
    (ofText (.load {} {}) initializerText).tree.binding ⟨1⟩ ≠
      (ofText (.load {} {}) initializerText).tree.binding ⟨8⟩ := by
  rcases lowers_initializerText with ⟨-, -, -, -, disagrees⟩
  exact disagrees

/-! ## Identifiers -/

section Identifiers

variable (path : ClassPath) (source : Source) (unit : root.Grammatical)
  (distinguishes :
    (lowered (.load {} path) source root).tree.Distinguishes (Table.load {} path).size)
include unit distinguishes

/-- An identifier that is bound to a variable has its name. That is a field which one of the types
around the identifier has, or else it is no field at all. -/
theorem denotesVariable_lowered {node : NodeId} {meaning : BindingId}
    (isIdentifier : (lowered (.load {} path) source root).tree.kind node = .identifier)
    (isBinding : (lowered (.load {} path) source root).tree.binding node = some meaning)
    (isVariable : ((lowered (.load {} path) source root).table.entry meaning).kind = .variable) :
    (lowered (.load {} path) source root).tree.DenotesVariable
      (lowered (.load {} path) source root).table node meaning := by
  rcases Lower.advances_lowerAll unit (Table.typed_load path) source with ⟨news, advances⟩
  exact ((advances.bound distinguishes node).identifier isIdentifier meaning isBinding).2 isVariable

end Identifiers

/-- An anonymous class in a method, with a field that has the name of the method's parameter. -/
def shadowText : String :=
  "class A { void f(int x) { Object o = new Object() { long x; long g() { return x; } }; } }"

theorem lowers_shadowText :
    (ofText (.load {} {}) shadowText).tree.Distinguishes (Table.load {} {}).size ∧
    (ofText (.load {} {}) shadowText).tree.kind ⟨15⟩ = .identifier ∧
    (ofText (.load {} {}) shadowText).tree.binding ⟨15⟩ = some ⟨5⟩ ∧
    ((ofText (.load {} {}) shadowText).table.entry ⟨5⟩).kind = .variable ∧
    (parse shadowText.toList).Grammatical ∧
    (ofText (.load {} {}) shadowText).tree.enclosingType ⟨15⟩ = some ⟨9⟩ ∧
    ⟨10⟩ ∈ (ofText (.load {} {}) shadowText).tree.declaredMembers ⟨9⟩ ∧
    (ofText (.load {} {}) shadowText).tree.kind ⟨10⟩ = .variable ∧
    (ofText (.load {} {}) shadowText).tree.name ⟨10⟩ =
      (ofText (.load {} {}) shadowText).tree.name ⟨15⟩ ∧
    (ofText (.load {} {}) shadowText).tree.kind ⟨4⟩ = .parameter ∧
    ⟨9⟩ ∉ (ofText (.load {} {}) shadowText).tree.ancestors ⟨4⟩ ∧
    (ofText (.load {} {}) shadowText).tree.binding ⟨15⟩ =
      (ofText (.load {} {}) shadowText).tree.binding ⟨4⟩ ∧
    (ofText (.load {} {}) shadowText).tree.binding ⟨15⟩ ≠
      (ofText (.load {} {}) shadowText).tree.binding ⟨10⟩ := by
  decide +kernel

theorem denotesVariable_shadowText : (parse shadowText.toList).Grammatical ∧
    (ofText (.load {} {}) shadowText).tree.Distinguishes (Table.load {} {}).size ∧
    (ofText (.load {} {}) shadowText).tree.DenotesVariable (ofText (.load {} {}) shadowText).table
      ⟨15⟩ ⟨5⟩ := by
  rcases lowers_shadowText with ⟨distinguishes, isIdentifier, isBinding, isVariable, unit, -⟩
  exact ⟨unit, distinguishes,
    denotesVariable_lowered {} _ unit distinguishes isIdentifier isBinding isVariable⟩

/-- A local variable or parameter hides a field also where the class of the field lies further
inside: the identifier in the anonymous class is bound to the parameter around that class. -/
theorem hides_shadowText : (parse shadowText.toList).Grammatical ∧
    (ofText (.load {} {}) shadowText).tree.enclosingType ⟨15⟩ = some ⟨9⟩ ∧
    ⟨10⟩ ∈ (ofText (.load {} {}) shadowText).tree.declaredMembers ⟨9⟩ ∧
    (ofText (.load {} {}) shadowText).tree.kind ⟨10⟩ = .variable ∧
    (ofText (.load {} {}) shadowText).tree.name ⟨10⟩ =
      (ofText (.load {} {}) shadowText).tree.name ⟨15⟩ ∧
    (ofText (.load {} {}) shadowText).tree.kind ⟨4⟩ = .parameter ∧
    ⟨9⟩ ∉ (ofText (.load {} {}) shadowText).tree.ancestors ⟨4⟩ ∧
    (ofText (.load {} {}) shadowText).tree.binding ⟨15⟩ =
      (ofText (.load {} {}) shadowText).tree.binding ⟨4⟩ ∧
    (ofText (.load {} {}) shadowText).tree.binding ⟨15⟩ ≠
      (ofText (.load {} {}) shadowText).tree.binding ⟨10⟩ := by
  rcases lowers_shadowText with ⟨-, -, -, -, hides⟩
  exact hides

end Lowering

end Java

end JavaInspect
