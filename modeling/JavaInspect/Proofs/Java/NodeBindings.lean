import JavaInspect.Binding.Lookup
import JavaInspect.Proofs.Binding.Growth
import JavaInspect.Proofs.Java.Records
import JavaInspect.Proofs.Java.Phrases
import JavaInspect.Proofs.Tree.Building
import Mathlib.Data.List.Find
import Mathlib.Logic.Relation

/-!
# What the bindings of nodes mean

Which bindings a node of each kind may carry, and what it says about the table that a node
carries one: a call is bound to a method that takes its arguments and that the receiver has,
and a type declaration is bound to a type whose members are those of the declaration.
-/

namespace JavaInspect

/-! ## Which bindings a node may carry -/

namespace NodeKind

/-- The kinds of bindings that nodes of a kind may carry. -/
def bears (kind : NodeKind) (binding : BindingKind) : Bool :=
  match kind with
  | .class | .interface | .enum | .record | .annotationType | .annotationUse => binding == .type
  | .method | .constructor | .methodInvocation | .newClass | .constructorCall => binding == .method
  | .variable | .parameter | .memberSelect => binding == .variable
  | .identifier => binding == .variable || binding == .type
  | _ => false

/-- Kinds of nodes that declare members of a type. -/
def declaresMember (kind : NodeKind) : Bool :=
  kind == .variable || kind.isMethodLike || kind.isTypeDeclaration

/-- Kinds of nodes whose bindings say nothing but what they are. -/
def isPlain (kind : NodeKind) : Bool :=
  !kind.isTypeDeclaration && kind != .methodInvocation && kind != .newClass &&
    kind != .constructorCall && kind != .memberSelect && kind != .identifier

theorem noType_of_plain {kind : NodeKind} (plain : kind.isPlain) : kind.isTypeDeclaration = false := by
  cases kind <;> first | rfl | cases plain

end NodeKind

/-- A node has its name inside its span, and carries bindings of the table that go with its
kind. -/
structure NodeData.Fits (table : Table) (data : NodeData) : Prop where
  name : ∀ span, data.nameSpan = some span → Java.Phrase.covers data.span span
  binding : ∀ binding, data.binding = some binding →
    binding.index < table.size ∧ data.kind.bears (table.entry binding).kind
  typeBinding : ∀ type, data.typeBinding = some type → table.Holds .type type

/-! ## What bindings say about the table -/

namespace Table

variable {table later : Table}

/-- Types above a type: itself, or what it inherits from. -/
def Reaches (table : Table) : BindingId → BindingId → Prop :=
  Relation.ReflTransGen fun below above => above ∈ table.parents below

/-- Whether a method or constructor takes a number of arguments: as many as it has parameters,
or at least all but the last when the last one takes any number. -/
def Takes (table : Table) (callable : BindingId) (count : Nat) : Prop :=
  (table.entry callable).parameters.length = count ∨
    ((table.entry callable).varargs ∧ (table.entry callable).parameters.length ≤ count + 1)

theorem takes_of_accepts {callable : BindingId} {count : Nat}
    (accepts : (table.entry callable).accepts count) : table.Takes callable count := by
  simp only [Entry.accepts, Bool.or_eq_true, Bool.and_eq_true, beq_iff_eq, decide_eq_true_eq]
    at accepts
  exact accepts.imp_right fun ⟨⟨varargs, _⟩, enough⟩ => ⟨varargs, enough⟩

/-- Entries of the table that a later one has not changed. -/
def Keeps (table later : Table) : Prop :=
  ∀ binding, binding.index < table.size → later.entry binding = table.entry binding

theorem Keeps.entry_eq {binding : BindingId} (keeps : table.Keeps later)
    (notBlank : table.entry binding ≠ {}) : later.entry binding = table.entry binding := by
  refine keeps binding ?_
  by_contra outside
  exact notBlank (entry_of_outside outside)

theorem Keeps.reaches {below above : BindingId} (keeps : table.Keeps later)
    (reaches : table.Reaches below above) : later.Reaches below above := by
  refine Relation.ReflTransGen.mono (fun below above isParent => ?_) _ _ reaches
  rwa [parents, keeps.entry_eq]
  intro blank
  rw [parents, blank] at isParent
  cases isParent

end Table

namespace Tree

variable {tree : Tree} {table : Table} {node : NodeId}

/-- A call is bound to a method that takes its arguments. The receiver has the method, or one of
the types around the call. -/
structure CallsMethod (table : Table) (tree : Tree) (node : NodeId) (method : BindingId) : Prop where
  isMethod : table.Holds .method method
  noConstructor : (table.entry method).isConstructor = false
  name : tree.name node = some (table.entry method).name
  arguments : table.Takes method (tree.arguments node).length
  owner : ∃ owner, (table.entry method).owner = some owner ∧
    match tree.receiver node with
    | some receiver => ∃ type, tree.typeBinding receiver = some type ∧ table.Reaches type owner
    | none => ∃ around ∈ tree.ancestors node, (tree.kind around).isTypeDeclaration ∧
        ∃ type, tree.binding around = some type ∧ table.Reaches type owner
  typeBinding : tree.typeBinding node = (table.entry method).declaredType

/-- An instance creation is bound to a constructor of the created type. -/
structure CreatesInstance (table : Table) (tree : Tree) (node : NodeId) (constructor : BindingId) :
    Prop where
  isConstructor : (table.entry constructor).isConstructor
  arguments : table.Takes constructor (tree.arguments node).length
  owner : ∃ type, tree.typeBinding node = some type ∧ (table.entry constructor).owner = some type

/-- An explicit constructor call is bound to a constructor of the class around it, or of its
superclass when the call says so. -/
structure CallsConstructor (table : Table) (tree : Tree) (node : NodeId) (constructor : BindingId) :
    Prop where
  isConstructor : (table.entry constructor).isConstructor
  arguments : table.Takes constructor (tree.arguments node).length
  owner : ∃ around type owner, tree.enclosingType node = some around ∧
    tree.binding around = some type ∧ (table.entry constructor).owner = some owner ∧
    if tree.name node = some "super" then (table.entry type).superclass = some owner
    else owner = type

/-- A field access is bound to a field of that name that the receiver has. -/
structure SelectsField (table : Table) (tree : Tree) (node : NodeId) (field : BindingId) : Prop where
  isField : table.Holds .variable field
  name : tree.name node = some (table.entry field).name
  owner : ∃ receiver type owner, tree.receiver node = some receiver ∧
    tree.typeBinding receiver = some type ∧ (table.entry field).owner = some owner ∧
    table.Reaches type owner
  typeBinding : tree.typeBinding node = (table.entry field).declaredType

/-- A variable is a field that one of the types around a node has, or no type has it as a member. -/
def InReach (table : Table) (tree : Tree) (node : NodeId) (meaning : BindingId) : Prop :=
  (∃ around ∈ tree.ancestors node, (tree.kind around).isTypeDeclaration ∧
    ∃ type owner, tree.binding around = some type ∧ (table.entry meaning).owner = some owner ∧
      table.Reaches type owner) ∨
  ∀ type, meaning ∉ (table.entry type).members

/-- An identifier is bound to a variable of its name, which is in reach. -/
structure DenotesVariable (table : Table) (tree : Tree) (node : NodeId) (meaning : BindingId) :
    Prop where
  name : tree.name node = some (table.entry meaning).name
  inReach : tree.InReach table node meaning

/-- The member nodes of a type declaration that declare something. -/
def declaredMembers (tree : Tree) (node : NodeId) : List NodeId :=
  (tree.members node).filter (tree.kind · |>.declaresMember)

/-- The bindings of the constructors that a type declaration has. -/
def declaredConstructors (tree : Tree) (node : NodeId) : List BindingId :=
  ((tree.declaredMembers node).filter (tree.kind · == .constructor)).filterMap tree.binding

/-- A type declaration is bound to a type that lists what its member nodes declare. A record
lists besides what it declares by itself. -/
def ListsMembers (table : Table) (tree : Tree) (node : NodeId) (type : BindingId) : Prop :=
  ∃ fields implicit,
    ((table.entry type).members.map some).Perm
      ((tree.declaredMembers node).map tree.binding ++ (fields ++ implicit).map some) ∧
    if tree.kind node = .record then
      (tree.parameters node).map tree.binding = fields.map some ∧
        table.Completes type fields (tree.declaredConstructors node) implicit
    else fields = [] ∧ implicit = []

/-- The bindings of a node mean what its kind says. -/
structure Bound (table : Table) (tree : Tree) (node : NodeId) : Prop where
  invocation : tree.kind node = .methodInvocation → ∀ method, tree.binding node = some method →
    tree.CallsMethod table node method
  creation : tree.kind node = .newClass → ∀ constructor, tree.binding node = some constructor →
    tree.CreatesInstance table node constructor
  constructorCall : tree.kind node = .constructorCall → ∀ constructor,
    tree.binding node = some constructor → tree.CallsConstructor table node constructor
  select : tree.kind node = .memberSelect → ∀ field, tree.binding node = some field →
    tree.SelectsField table node field
  identifier : tree.kind node = .identifier → ∀ binding, tree.binding node = some binding →
    binding.index < table.size ∧
      ((table.entry binding).kind = .variable → tree.DenotesVariable table node binding)
  members : (tree.kind node).isTypeDeclaration → ∃ type, tree.binding node = some type ∧
    table.Holds .type type ∧ tree.ListsMembers table node type

/-- A node without a binding, other than a type declaration. -/
theorem Bound.of_unbound (noType : (tree.kind node).isTypeDeclaration = false)
    (unbound : tree.binding node = none) : tree.Bound table node := by
  constructor
  case members =>
    intro isType
    rw [noType] at isType
    cases isType
  all_goals
    intro _ _ found
    rw [unbound] at found
    cases found

theorem Bound.of_plain (plain : (tree.kind node).isPlain) : tree.Bound table node := by
  constructor <;> intro is <;> simp_all [NodeKind.isPlain]

theorem Bound.of_invocation (is : tree.kind node = .methodInvocation)
    (calls : ∀ method, tree.binding node = some method → tree.CallsMethod table node method) :
    tree.Bound table node := by
  constructor <;> rw [is]
  case invocation => exact fun _ => calls
  all_goals exact nofun

theorem Bound.of_creation (is : tree.kind node = .newClass)
    (creates : ∀ constructor, tree.binding node = some constructor →
      tree.CreatesInstance table node constructor) : tree.Bound table node := by
  constructor <;> rw [is]
  case creation => exact fun _ => creates
  all_goals exact nofun

theorem Bound.of_constructorCall (is : tree.kind node = .constructorCall)
    (calls : ∀ constructor, tree.binding node = some constructor →
      tree.CallsConstructor table node constructor) : tree.Bound table node := by
  constructor <;> rw [is]
  case constructorCall => exact fun _ => calls
  all_goals exact nofun

theorem Bound.of_select (is : tree.kind node = .memberSelect)
    (selects : ∀ field, tree.binding node = some field → tree.SelectsField table node field) :
    tree.Bound table node := by
  constructor <;> rw [is]
  case select => exact fun _ => selects
  all_goals exact nofun

theorem Bound.of_identifier (is : tree.kind node = .identifier)
    (denotes : ∀ binding, tree.binding node = some binding → binding.index < table.size ∧
      ((table.entry binding).kind = .variable → tree.DenotesVariable table node binding)) :
    tree.Bound table node := by
  constructor <;> rw [is]
  case identifier => exact fun _ => denotes
  all_goals exact nofun

theorem Bound.of_members {type : BindingId} (is : (tree.kind node).isTypeDeclaration)
    (isBinding : tree.binding node = some type) (isType : table.Holds .type type)
    (lists : tree.ListsMembers table node type) : tree.Bound table node := by
  constructor
  case members => exact fun _ => ⟨type, isBinding, isType, lists⟩
  all_goals
    intro isOther
    rw [isOther] at is
    cases is

/-! ## Where bindings go on to mean the same -/

/-- Two trees agree on a node, on what is two levels below it, and on what is around it. -/
structure Agrees (tree later : Tree) (node : NodeId) : Prop where
  here : later.data node = tree.data node
  below : ∀ child ∈ tree.children node, later.data child = tree.data child
  deeper : ∀ child ∈ tree.children node, ∀ inner ∈ tree.children child,
    later.data inner = tree.data inner
  ancestors : later.ancestors node = tree.ancestors node
  kind : ∀ around ∈ tree.ancestors node, later.kind around = tree.kind around
  binding : ∀ around ∈ tree.ancestors node, (tree.kind around).isTypeDeclaration →
    later.binding around = tree.binding around

namespace Agrees

variable {tree later : Tree} {node child : NodeId} (agrees : tree.Agrees later node)
include agrees

theorem children : later.children node = tree.children node := by
  rw [Tree.children, agrees.here, Tree.children]

theorem find (read : NodeData → Bool) :
    (later.children node).find? (read <| later.data ·) =
      (tree.children node).find? (read <| tree.data ·) := by
  rw [agrees.children]
  exact List.find?_congr fun child isChild => by rw [agrees.below child isChild]

theorem filter (read : NodeData → Bool) :
    (later.children node).filter (read <| later.data ·) =
      (tree.children node).filter (read <| tree.data ·) := by
  rw [agrees.children]
  exact List.filter_congr fun child isChild => by rw [agrees.below child isChild]

theorem receiver : later.receiver node = tree.receiver node :=
  agrees.find (·.role == .receiver)

theorem arguments : later.arguments node = tree.arguments node := by
  unfold Tree.arguments Tree.childOfKind
  rw [show (later.children node).find? (later.kind · == .arguments) =
    (tree.children node).find? (tree.kind · == .arguments) from
      agrees.find (·.kind == .arguments)]
  split
  case h_1 list found =>
    rw [Tree.children, agrees.below list (List.mem_of_find?_eq_some found), Tree.children]
  case h_2 => rfl

theorem parameters : later.parameters node = tree.parameters node ∧
    (later.parameters node).map later.binding = (tree.parameters node).map tree.binding := by
  have sameList : later.parameterList node = tree.parameterList node :=
    agrees.find (·.kind == .parameters)
  unfold Tree.parameters
  rw [sameList]
  split
  case h_1 list found =>
    have isChild : list ∈ tree.children node := List.mem_of_find?_eq_some found
    have sameChildren : later.children list = tree.children list := by
      rw [Tree.children, agrees.below list isChild, Tree.children]
    have same : (later.children list).filter (later.kind · == .parameter) =
        (tree.children list).filter (tree.kind · == .parameter) := by
      rw [sameChildren]
      refine List.filter_congr fun inner isInner => ?_
      rw [Tree.kind, agrees.deeper list isChild inner isInner, Tree.kind]
    refine ⟨same, ?_⟩
    rw [same]
    refine List.map_congr_left fun inner isInner => ?_
    rw [Tree.binding, agrees.deeper list isChild inner (List.mem_of_mem_filter isInner), Tree.binding]
  case h_2 => exact ⟨rfl, rfl⟩

theorem declaredMembers : later.declaredMembers node = tree.declaredMembers node ∧
    (later.declaredMembers node).map later.binding =
      (tree.declaredMembers node).map tree.binding := by
  have sameMembers : later.members node = tree.members node := agrees.filter (·.role == .member)
  have isChild : ∀ member ∈ tree.members node, member ∈ tree.children node :=
    fun member isMember => List.mem_of_mem_filter isMember
  have same : later.declaredMembers node = tree.declaredMembers node := by
    unfold Tree.declaredMembers
    rw [sameMembers]
    refine List.filter_congr fun member isMember => ?_
    rw [Tree.kind, agrees.below member (isChild member isMember), Tree.kind]
  refine ⟨same, ?_⟩
  rw [same]
  refine List.map_congr_left fun member isMember => ?_
  rw [Tree.binding, agrees.below member (isChild member (List.mem_of_mem_filter isMember)),
    Tree.binding]

theorem declaredConstructors : later.declaredConstructors node = tree.declaredConstructors node := by
  have below : ∀ member ∈ tree.declaredMembers node, later.data member = tree.data member :=
    fun member isMember => agrees.below member
      (List.mem_of_mem_filter (List.mem_of_mem_filter isMember))
  unfold Tree.declaredConstructors
  rw [agrees.declaredMembers.1]
  have same : (tree.declaredMembers node).filter (later.kind · == .constructor) =
      (tree.declaredMembers node).filter (tree.kind · == .constructor) :=
    List.filter_congr fun member isMember => by rw [Tree.kind, below member isMember, Tree.kind]
  rw [same]
  refine List.filterMap_congr fun member isMember => ?_
  rw [Tree.binding, below member (List.mem_of_mem_filter isMember), Tree.binding]

theorem enclosingType : later.enclosingType node = tree.enclosingType node := by
  unfold Tree.enclosingType
  rw [agrees.ancestors]
  exact List.find?_congr fun around isAround => by rw [agrees.kind around isAround]

end Agrees

/-- What is in reach stays in reach when the same nodes are around. -/
theorem InReach.congr {later : Tree} {laterTable : Table} {changed : BindingId → Prop}
    {meaning : BindingId} (inReach : tree.InReach table node meaning)
    (ancestors : later.ancestors node = tree.ancestors node)
    (kind : ∀ around ∈ tree.ancestors node, later.kind around = tree.kind around)
    (binding : ∀ around ∈ tree.ancestors node, (tree.kind around).isTypeDeclaration →
      later.binding around = tree.binding around)
    (grows : table.Grows changed laterTable) (keeps : table.Keeps laterTable)
    (inTable : meaning.index < table.size) : later.InReach laterTable node meaning := by
  rcases inReach with ⟨around, isAround, isType, type, owner, isBinding, isOwner, reaches⟩ | unlisted
  · refine .inl ⟨around, ancestors ▸ isAround, ?_, type, owner, ?_, ?_, keeps.reaches reaches⟩
    · rw [kind around isAround, isType]
    · rw [binding around isAround isType, isBinding]
    · rw [keeps meaning inTable, isOwner]
  · exact .inr fun type isMember => (grows.members type meaning isMember).elim (unlisted type)
      (Nat.not_le.2 inTable)

namespace Bound

variable {later : Tree} {laterTable : Table} {changed : BindingId → Prop}
  (agrees : tree.Agrees later node) (grows : table.Grows changed laterTable)
  (keeps : table.Keeps laterTable)

section

include agrees grows keeps

theorem callsMethod {method : BindingId} (calls : tree.CallsMethod table node method) :
    later.CallsMethod laterTable node method := by
  have sameEntry := keeps method calls.isMethod.1
  have sameName : later.name node = tree.name node := by rw [Tree.name, agrees.here, Tree.name]
  have sameType : later.typeBinding node = tree.typeBinding node := by
    rw [Tree.typeBinding, agrees.here, Tree.typeBinding]
  rcases calls.owner with ⟨owner, isOwner, reached⟩
  refine ⟨⟨grows.lt calls.isMethod.1, ?_⟩, ?_, ?_, ?_, ⟨owner, ?_, ?_⟩, ?_⟩
  · rw [sameEntry, calls.isMethod.2]
  · rw [sameEntry, calls.noConstructor]
  · rw [sameName, sameEntry, calls.name]
  · rw [Table.Takes, sameEntry, agrees.arguments]
    exact calls.arguments
  · rw [sameEntry, isOwner]
  · rw [agrees.receiver]
    split at reached
    case h_1 receiver found =>
      rcases reached with ⟨type, isType, reaches⟩
      refine ⟨type, ?_, keeps.reaches reaches⟩
      rw [Tree.typeBinding, agrees.below receiver (List.mem_of_find?_eq_some found)]
      exact isType
    case h_2 =>
      rcases reached with ⟨around, isAround, isType, type, isBinding, reaches⟩
      refine ⟨around, agrees.ancestors ▸ isAround, ?_, type, ?_, keeps.reaches reaches⟩
      · rw [agrees.kind around isAround, isType]
      · rw [agrees.binding around isAround isType, isBinding]
  · rw [sameType, sameEntry, calls.typeBinding]

theorem selectsField {field : BindingId} (selects : tree.SelectsField table node field) :
    later.SelectsField laterTable node field := by
  have sameEntry := keeps field selects.isField.1
  rcases selects.owner with ⟨receiver, type, owner, found, isType, isOwner, reaches⟩
  refine ⟨⟨grows.lt selects.isField.1, ?_⟩, ?_,
    ⟨receiver, type, owner, ?_, ?_, ?_, keeps.reaches reaches⟩, ?_⟩
  · rw [sameEntry, selects.isField.2]
  · rw [Tree.name, agrees.here, sameEntry]
    exact selects.name
  · rw [agrees.receiver, found]
  · rw [Tree.typeBinding, agrees.below receiver (List.mem_of_find?_eq_some found)]
    exact isType
  · rw [sameEntry, isOwner]
  · rw [Tree.typeBinding, agrees.here, sameEntry]
    exact selects.typeBinding

theorem denotesVariable {meaning : BindingId} (inTable : meaning.index < table.size)
    (denotes : tree.DenotesVariable table node meaning) :
    later.DenotesVariable laterTable node meaning := by
  refine ⟨?_, denotes.inReach.congr agrees.ancestors agrees.kind agrees.binding grows keeps inTable⟩
  rw [Tree.name, agrees.here, keeps meaning inTable]
  exact denotes.name

end

section

include agrees keeps

theorem createsInstance {constructor : BindingId}
    (creates : tree.CreatesInstance table node constructor) :
    later.CreatesInstance laterTable node constructor := by
  have sameEntry : laterTable.entry constructor = table.entry constructor := by
    refine keeps.entry_eq fun blank => ?_
    have isConstructor := creates.isConstructor
    rw [blank] at isConstructor
    cases isConstructor
  refine ⟨?_, ?_, ?_⟩
  · rw [sameEntry, creates.isConstructor]
  · rw [Table.Takes, sameEntry, agrees.arguments]
    exact creates.arguments
  · rw [Tree.typeBinding, agrees.here, sameEntry]
    exact creates.owner

theorem callsConstructor {constructor : BindingId}
    (calls : tree.CallsConstructor table node constructor) :
    later.CallsConstructor laterTable node constructor := by
  have sameEntry : laterTable.entry constructor = table.entry constructor := by
    refine keeps.entry_eq fun blank => ?_
    have isConstructor := calls.isConstructor
    rw [blank] at isConstructor
    cases isConstructor
  refine ⟨?_, ?_, ?_⟩
  · rw [sameEntry, calls.isConstructor]
  · rw [Table.Takes, sameEntry, agrees.arguments]
    exact calls.arguments
  · rcases calls.owner with ⟨around, type, owner, isAround, isBinding, isOwner, belongs⟩
    have isAncestor : around ∈ tree.ancestors node := List.mem_of_find?_eq_some isAround
    have isType : (tree.kind around).isTypeDeclaration := by
      simpa using List.find?_some isAround
    refine ⟨around, type, owner, ?_, ?_, ?_, ?_⟩
    · rw [agrees.enclosingType, isAround]
    · rw [agrees.binding around isAncestor isType, isBinding]
    · rw [sameEntry, isOwner]
    · rw [Tree.name, agrees.here]
      change if tree.name node = some "super" then _ else _
      split at belongs
      case isTrue isSuper =>
        rw [if_pos isSuper, keeps.entry_eq, belongs]
        intro blank
        rw [blank] at belongs
        cases belongs
      case isFalse notSuper =>
        rw [if_neg notSuper]
        exact belongs

theorem listsMembers {type : BindingId} (typed : table.Typed) (isType : table.Holds .type type)
    (lists : tree.ListsMembers table node type) : later.ListsMembers laterTable node type := by
  have sameKind : later.kind node = tree.kind node := by rw [Tree.kind, agrees.here, Tree.kind]
  have sameEntry := keeps type isType.1
  rcases lists with ⟨fields, implicit, listed, rest⟩
  have sameMember : ∀ member, some member ∈ (tree.declaredMembers node).map tree.binding ++
      (fields ++ implicit).map some → laterTable.entry member = table.entry member := by
    intro member isListed
    rcases List.mem_map.1 (listed.symm.subset isListed) with ⟨other, isMember, same⟩
    exact Option.some.inj same ▸ keeps other (typed.memberInTable type other isMember)
  refine ⟨fields, implicit, ?_, ?_⟩
  · rw [sameEntry, agrees.declaredMembers.2]
    exact listed
  · rw [sameKind]
    split at rest
    case isTrue isRecord =>
      rw [if_pos isRecord, agrees.parameters.2, agrees.declaredConstructors]
      refine ⟨rest.1, rest.2.congr (congrArg Entry.name sameEntry) ?_ ?_ ?_⟩
      · exact fun field isField => sameMember field (by simp [isField])
      · exact fun member isImplicit => sameMember member (by simp [isImplicit])
      · intro constructor isConstructor
        rcases List.mem_filterMap.1 isConstructor with ⟨member, isMember, isBinding⟩
        refine sameMember constructor (List.mem_append_left _ ?_)
        exact List.mem_map.2 ⟨member, List.mem_of_mem_filter isMember, isBinding⟩
    case isFalse noRecord =>
      rw [if_neg noRecord]
      exact rest

end

/-- What bindings mean does not depend on what is added to the tree elsewhere and to the table. -/
theorem congr (bound : tree.Bound table node) (agrees : tree.Agrees later node)
    (typed : table.Typed) (grows : table.Grows changed laterTable) (keeps : table.Keeps laterTable) :
    later.Bound laterTable node := by
  have sameKind : later.kind node = tree.kind node := by rw [Tree.kind, agrees.here, Tree.kind]
  have sameBinding : later.binding node = tree.binding node := by
    rw [Tree.binding, agrees.here, Tree.binding]
  constructor <;> rw [sameKind, sameBinding]
  case invocation =>
    exact fun is method found => callsMethod agrees grows keeps (bound.invocation is method found)
  case creation =>
    exact fun is constructor found => createsInstance agrees keeps (bound.creation is constructor found)
  case constructorCall =>
    exact fun is constructor found =>
      callsConstructor agrees keeps (bound.constructorCall is constructor found)
  case select =>
    exact fun is field found => selectsField agrees grows keeps (bound.select is field found)
  case identifier =>
    intro is binding found
    rcases bound.identifier is binding found with ⟨inTable, denotes⟩
    refine ⟨grows.lt inTable, fun isVariable => ?_⟩
    exact denotesVariable agrees grows keeps inTable (denotes (keeps binding inTable ▸ isVariable))
  case members =>
    intro isType
    rcases bound.members isType with ⟨type, found, holds, lists⟩
    refine ⟨type, found, ⟨grows.lt holds.1, ?_⟩, listsMembers agrees keeps typed holds lists⟩
    rw [keeps type holds.1, holds.2]

end Bound

end Tree

end JavaInspect
