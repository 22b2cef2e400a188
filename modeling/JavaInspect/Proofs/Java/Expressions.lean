import JavaInspect.Proofs.Java.Lookups
import JavaInspect.Proofs.Java.Stepping

/-!
# Lowering names, literals and calls

Identifiers, literals and the like become single nodes that refer to what is in scope. A call is
bound when its receiver has a static type that has the method, or when one of the classes around has
it; the arguments that are counted are the children of its argument list.
-/

namespace JavaInspect.Java

open Phrase Lowering

variable {root phrase inner name : Phrase} {base depth : Nat} {scope : List Nat}
  {due : List BindingId} {opened news : List NodeId} {node : NodeId} {data : NodeData}
  {below views : List NodeData} {before middle after : Lowering} {source : Source} {role : Role}
  {nodeKind : NodeKind} {binding type owner : BindingId} {step : Lower.Step}

/-- A variable is a field that one of the classes in scope has, or is no member of any type. -/
def Lowering.Offers (state : Lowering) (meaning : BindingId) : Prop :=
  (∃ scope ∈ state.classes, ∃ owner, (state.table.entry meaning).owner = some owner ∧
    state.table.Reaches scope.binding owner) ∨
  ∀ type, meaning ∉ (state.table.entry type).members

namespace Lowering.Builds

/-- What a reading finds first among the children of a node. -/
theorem find_child (builds : Builds root base scope due opened node data below before after)
    (read : NodeData → Bool) :
    ((after.tree.children node).find? fun child => read (after.tree.data child)).map after.tree.data =
      below.find? read := by
  rw [← builds.isBelow, List.find?_map, Tree.children, builds.isData]
  rfl

theorem arguments_length (builds : Builds root base scope due opened node data below before after) :
    (after.tree.arguments node).length =
      ((below.find? (·.kind == .arguments)).map (·.children.length)).getD 0 := by
  rw [← builds.find_child]
  unfold Tree.arguments
  split
  case h_1 list found =>
    replace found : (after.tree.children node).find? (fun child =>
      (after.tree.data child).kind == .arguments) = some list := found
    rw [found]
    rfl
  case h_2 notFound =>
    replace notFound : (after.tree.children node).find? (fun child =>
      (after.tree.data child).kind == .arguments) = none := notFound
    rw [notFound]
    rfl

/-- A class in scope is that of a type declaration around an open node. -/
theorem class_around {scope_ : ClassScope}
    (opens : Opens root base scope due node data below before after)
    (noType : data.kind.isTypeDeclaration = false) (isScope : scope_ ∈ after.classes) :
    ∃ around ∈ after.tree.ancestors node, (after.tree.kind around).isTypeDeclaration ∧
      after.tree.binding around = some scope_.binding := by
  rcases (opens.sound.classes scope_ isScope).2 with ⟨around, isOpen, isType, isBinding⟩
  refine ⟨around, ?_, isType, isBinding⟩
  rw [opens.sound.rooted.ancestors_eq opens.opened]
  rw [opens.opened] at isOpen
  rcases List.mem_cons.1 isOpen with rfl | further
  · rw [Tree.kind, opens.isData, noType] at isType
    cases isType
  · exact List.mem_append_left _ further

/-- A class in scope is that of a type declaration around a node that has been closed. -/
theorem class_beside {scope_ : ClassScope}
    (makes : Makes root base scope due node data below before after)
    (isScope : scope_ ∈ after.classes) :
    ∃ around ∈ after.tree.ancestors node, (after.tree.kind around).isTypeDeclaration ∧
      after.tree.binding around = some scope_.binding := by
  rcases (makes.sound.classes scope_ isScope).2 with ⟨around, isOpen, isType, isBinding⟩
  have sameCurrent : after.builder.current = before.builder.current := by
    rw [TreeBuilder.current, TreeBuilder.current, makes.opened, List.nil_append]
  refine ⟨around, ?_, isType, isBinding⟩
  rw [makes.sound.rooted.ancestors_inside]
  · exact List.mem_append_left _ isOpen
  · rw [sameCurrent]
    exact Nat.lt_of_lt_of_le makes.start.rooted.current_inside makes.isNew.1
  · rw [sameCurrent, Tree.parent, makes.isData, makes.isParent]

/-- An identifier is completed. If it is bound to a variable, that has its name and is in scope. -/
theorem identify (makes : Makes root base scope due node data below before after)
    (isKind : data.kind = .identifier) (change : NodeData → NodeData)
    (completing : NodeData.Completing change)
    (denotes : Unmixed root base after.declared → ∀ meaning, (change data).binding = some meaning →
      (after.table.entry meaning).kind = .variable →
        (change data).name = some (after.table.entry meaning).name ∧ after.Offers meaning)
    (fits : (change data).Fits after.table) :
    Makes root base scope due node (change data) below before
      { after with builder := after.builder.modify node change } := by
  refine makes.update change completing (fun isType => ?_) (.inr fun unmixed => ?_) fits
  · rw [isKind] at isType
    cases isType
  have isData : (after.builder.modify node change).build.data node = change data := by
    rw [TreeBuilder.data_build_modify makes.isNew.2, if_pos rfl]
    exact congrArg change makes.isData
  refine .of_identifier ?_ fun meaning isBinding => ?_
  · rw [Tree.kind, isData, (completing data).1, isKind]
  rw [Tree.binding, isData] at isBinding
  have inTable := (fits.binding meaning isBinding).1
  refine ⟨inTable, fun isVariable => ?_⟩
  rcases denotes unmixed meaning isBinding isVariable with ⟨isName, offers⟩
  have inReach : after.tree.InReach after.table node meaning := by
    rcases offers with ⟨scope_, isScope, owner, isOwner, reaches⟩ | unlisted
    · rcases makes.class_beside isScope with ⟨around, isAround, isType, isClass⟩
      exact .inl ⟨around, isAround, isType, scope_.binding, owner, isClass, isOwner, reaches⟩
    · exact .inr unlisted
  refine ⟨by rw [Tree.name, isData, isName], inReach.congr ?_ ?_ ?_
    (@Table.Grows.refl _ fun _ => False) (fun _ _ => rfl) inTable⟩
  · exact Tree.ancestors_congr fun _ _ =>
      TreeBuilder.read_build_modify NodeData.parent fun data => (completing data).2.2.1
  · exact fun around _ => TreeBuilder.read_build_modify NodeData.kind fun data => (completing data).1
  · intro around isAround _
    rw [Tree.binding, TreeBuilder.data_build_modify makes.isNew.2, if_neg, Tree.binding]
    rintro rfl
    exact Nat.lt_irrefl _ (Tree.index_lt_of_mem_ancestors isAround)

/-- Where the class in scope is that of the innermost type declaration, it is around an open node. -/
theorem enclosing_class (opens : Opens root base scope due node data below before after)
    (noType : data.kind.isTypeDeclaration = false) (homed : before.Homed) :
    ∃ around scope, after.tree.enclosingType node = some around ∧ after.classes.head? = some scope ∧
      after.tree.binding around = some scope.binding := by
  rcases opens.homed noType homed with ⟨around, scope, isFirst, isScope, isBinding⟩
  refine ⟨around, scope, ?_, isScope, isBinding⟩
  have notNode : (after.tree.kind node).isTypeDeclaration = false := by
    rw [Tree.kind, opens.isData, noType]
  rw [opens.opened, List.singleton_append, List.find?_cons_of_neg (by simp [notNode])] at isFirst
  rw [Tree.enclosingType, opens.sound.rooted.ancestors_eq opens.opened]
  change (before.builder.opened ++ [NodeId.root]).find? _ = some around
  rw [List.find?_append, isFirst]
  rfl

/-- A local name has been brought into scope. -/
theorem addLocal {name : String} {meaning : Local} {state : Lowering}
    (builds : Builds root base scope due opened node data below before after)
    (knows : Knows root base after.table after.declared name meaning)
    (added : state = match after.scopes with
      | [] => after
      | scope :: scopes => { after with scopes := ((name, meaning) :: scope) :: scopes }) :
    Builds root base scope due opened node data below before state := by
  have progress := builds.toProgress.addLocal knows added
  cases isScope : after.scopes with
  | nil =>
      rw [isScope] at added
      exact added ▸ builds
  | cons first rest =>
      rw [isScope] at added
      subst added
      exact { builds with toProgress := progress }

end Lowering.Builds

/-- The arguments of a call are counted among the children of its node. -/
theorem Argues.length_eq (before after : List NodeData) (argues : Argues phrase views)
    (noUse : phrase.construct.isAnnotationUse = false)
    (notBefore : ∀ view ∈ before, view.kind ≠ .arguments)
    (notAfter : ∀ view ∈ after, view.kind ≠ .arguments) :
    (((before ++ views ++ after).find? (·.kind == .arguments)).map (·.children.length)).getD 0 =
      Phrase.argumentCount (phrase.part? .arguments) := by
  have absent : ∀ {others : List NodeData}, (∀ view ∈ others, view.kind ≠ .arguments) →
      others.find? (·.kind == .arguments) = none := by
    intro others none
    simpa [List.find?_eq_none] using none
  rw [← argues.count noUse, List.find?_append, List.find?_append, absent notBefore, absent notAfter,
    Option.none_or, Option.or_none]
  cases views with
  | nil => rfl
  | cons view rest =>
      rw [List.find?_cons_of_pos]
      · rfl
      · simpa using (argues.plain view List.mem_cons_self).1

/-- What is known about the receiver of a call or field access, and its static type. -/
def Receives (object : Option Phrase) (receiver : Option BindingId) (views : List NodeData) : Prop :=
  match object with
  | none => receiver = none ∧ views = []
  | some _ => ∃ view, views = [view] ∧ view.role = .receiver ∧ view.kind ≠ .arguments ∧
      receiver = view.typeBinding

theorem Lowering.Builds.receiver_eq {object : Option Phrase} {receiver : Option BindingId}
    {others : List NodeData}
    (builds : Builds root base scope due opened node data below before after)
    (split : below = views ++ others) (receives : Receives object receiver views)
    (plain : ∀ view ∈ others, view.role ≠ .receiver) :
    if object.isSome then ∃ found, after.tree.receiver node = some found ∧
      after.tree.typeBinding found = receiver
    else after.tree.receiver node = none := by
  have isFirst := builds.find_child (·.role == .receiver)
  have absent : others.find? (·.role == .receiver) = none := by
    simpa [List.find?_eq_none] using plain
  rw [split, List.find?_append, absent, Option.or_none] at isFirst
  cases object with
  | none =>
      rw [receives.2] at isFirst
      exact Option.map_eq_none_iff.1 isFirst
  | some _ =>
      rcases receives with ⟨view, rfl, isRole, -, rfl⟩
      rw [List.find?_cons_of_pos (by simp [isRole])] at isFirst
      rcases Option.map_eq_some_iff.1 isFirst with ⟨found, isFound, rfl⟩
      exact ⟨found, isFound, rfl⟩

theorem Receives.not_arguments {object : Option Phrase} {receiver : Option BindingId}
    (receives : Receives object receiver views) : ∀ view ∈ views, view.kind ≠ .arguments := by
  cases object with
  | none =>
      rw [receives.2]
      simp
  | some _ =>
      rcases receives with ⟨view, rfl, -, notArguments, -⟩
      simpa using notArguments

theorem Argues.not_receiver (argues : Argues phrase views) : ∀ view ∈ views, view.role ≠ .receiver :=
  fun view isView => by
    rw [(argues.plain view isView).2]
    nofun

/-- A call is bound to a method that its receiver has, or a class around. -/
theorem Lowering.Builds.callsMethod {receiver : Option BindingId} {received : List NodeData}
    {name : String} {method : BindingId}
    (opens : Opens root base scope due node data ([] ++ received ++ views) before after)
    (noType : data.kind.isTypeDeclaration = false) (isName : data.name = some name)
    (isTyped : data.typeBinding = (after.table.entry method).declaredType)
    (receives : Receives (phrase.part? .object) receiver received) (argues : Argues phrase views)
    (noUse : phrase.construct.isAnnotationUse = false)
    (hasMethod : after.table.HasMethod type name
      (Phrase.argumentCount (phrase.part? .arguments)) method)
    (ofType : if (phrase.part? .object).isSome then receiver = some type
      else ∃ scope ∈ after.classes, scope.binding = type) :
    after.tree.CallsMethod after.table node method := by
  rcases hasMethod.owner with ⟨owner, isOwner, reaches⟩
  refine ⟨hasMethod.isMethod, hasMethod.noConstructor, ?_, ?_, ⟨owner, isOwner, ?_⟩, ?_⟩
  · rw [Tree.name, opens.isData, isName, hasMethod.name]
  · have counted := argues.length_eq received [] noUse receives.not_arguments (by simp)
    rw [opens.arguments_length, ← List.append_nil ([] ++ received ++ views), List.nil_append, counted]
    exact hasMethod.takes
  · have isReceiver := opens.receiver_eq rfl receives argues.not_receiver
    cases isObject : phrase.part? .object with
    | none =>
        simp only [isObject, Option.isSome_none, Bool.false_eq_true, if_false] at isReceiver ofType
        rcases ofType with ⟨scope, isScope, rfl⟩
        rcases opens.class_around noType isScope with ⟨around, isAround, isType, isBinding⟩
        rw [isReceiver]
        exact ⟨around, isAround, isType, scope.binding, isBinding, reaches⟩
    | some object =>
        simp only [isObject, Option.isSome_some, if_true] at isReceiver ofType
        rcases isReceiver with ⟨found, isFound, isTyped⟩
        rw [isFound]
        exact ⟨type, isTyped.trans ofType, reaches⟩
  · rw [Tree.typeBinding, opens.isData, isTyped]

/-- A field access is bound to a field that its receiver has. -/
theorem Lowering.Builds.selectsField {object : Option Phrase} {name : String} {field : BindingId}
    (opens : Opens root base scope due node data below before after) (split : below = views)
    (isName : data.name = some name)
    (isTyped : data.typeBinding = (after.table.entry field).declaredType)
    (receives : Receives object (some type) views) (hasField : after.table.HasField type name field) :
    after.tree.SelectsField after.table node field := by
  rcases hasField.owner with ⟨owner, isOwner, reaches⟩
  refine ⟨hasField.isField, ?_, ?_, ?_⟩
  · rw [Tree.name, opens.isData, isName, hasField.name]
  · have isReceiver := opens.receiver_eq (split.trans (List.append_nil _).symm) receives (by simp)
    cases object with
    | none => cases receives.1
    | some object =>
        simp only [Option.isSome_some, if_true] at isReceiver
        rcases isReceiver with ⟨receiver, isFound, isTyped⟩
        exact ⟨receiver, type, owner, isFound, isTyped, isOwner, reaches⟩
  · rw [Tree.typeBinding, opens.isData, isTyped]

/-- A phrase has become a single node of a kind in a role. -/
def Becomes (root : Phrase) (base : Nat) (phrase : Phrase) (kind : NodeKind) (role : Role)
    (before : Lowering) (node : NodeId) (after : Lowering) : Prop :=
  ∃ data views, Makes root base phrase.numbers [] node data views before after ∧
    data.kind = kind ∧ data.role = role

theorem Becomes.popScope {kind : NodeKind} (becomes : Becomes root base phrase kind role
      { before with scopes := [] :: before.scopes } node after) :
    Becomes root base phrase kind role before node { after with scopes := after.scopes.tail } := by
  rcases becomes with ⟨data, views, makes, isKind, isRole⟩
  exact ⟨data, views, makes.popScope, isKind, isRole⟩

/-- The class that a constructor call with a keyword names: that in scope, or its superclass. -/
def Targets (keyword : Option String) (state : Lowering) (type : BindingId) : Prop :=
  ∃ scope, state.classes.head? = some scope ∧
    if keyword = some "super" then (state.table.entry scope.binding).superclass = some type
    else type = scope.binding

/-- An explicit constructor call is bound to a constructor of the class that it names. -/
theorem Lowering.Builds.callsConstructor {named : Lowering} {constructor : BindingId}
    (opens : Opens root base scope due node data below before after) (split : below = views)
    (noType : data.kind.isTypeDeclaration = false) (homed : before.Homed)
    (isClass : ∀ scope ∈ named.classes, scope.binding.index < named.table.size)
    (argues : Argues phrase views) (noUse : phrase.construct.isAnnotationUse = false)
    (hasConstructor : after.table.HasConstructor type
      (Phrase.argumentCount (phrase.part? .arguments)) constructor)
    (targets : Targets data.name named type) (sameClasses : after.classes = named.classes)
    (keeps : named.table.Keeps after.table) :
    after.tree.CallsConstructor after.table node constructor := by
  rcases opens.enclosing_class noType homed with ⟨around, scope, isAround, isScope, isBinding⟩
  rcases targets with ⟨scope', isScope', belongs⟩
  obtain rfl := Option.some.inj (isScope.symm.trans (sameClasses ▸ isScope'))
  refine ⟨hasConstructor.isConstructor, ?_, around, scope.binding, type, isAround, isBinding,
    hasConstructor.owner, ?_⟩
  · have counted := argues.length_eq [] [] noUse (by simp) (by simp)
    rw [opens.arguments_length, split, ← List.append_nil views, ← List.nil_append views, counted]
    exact hasConstructor.takes
  · rw [Tree.name, opens.isData, keeps scope.binding (isClass scope (List.mem_of_mem_head? isScope'))]
    exact belongs

namespace Lower

/-! ## Leaves -/

/-- A call on the table that adds a binding. -/
theorem adds_bind {entry : Entry} {call : Table → BindingId × Table}
    (adds : Table.Adds entry before.table (call before.table)) :
    Ensures (bind call) before fun answer after =>
      before.Widens after ∧ Table.Adds entry before.table (answer, after.table) :=
  ⟨⟨_, rfl, adds.toWidens⟩, adds⟩

/-- A new variable has the name and the type that it was declared with. -/
theorem knows_declareVariable {table later : Table} {declared : Declared} {name : String}
    (typed : table.Typed) (isType : table.Holds .type type)
    (adds : Table.Adds
      { kind := .variable, name, qualifiedName := name, owner := some owner,
        declaredType := some type }
      table (binding, later)) :
    Knows root base later declared name { binding, type } where
  isVariable := adds.holds
  isType := adds.grows.holds isType
  unlisted := adds.unlisted typed rfl
  isNamed _ := congrArg Entry.name adds.entry

theorem holds_receiverType {name : String} (readable : before.Readable) :
    Ensures (receiverType? source role name) before fun answer after => after = before ∧
      ∀ type, answer = some type → before.table.Holds .type type := by
  unfold receiverType?
  refine .ite (fun _ => ?_) fun _ => ⟨rfl, nofun⟩
  exact ⟨rfl, fun type found => readable.lookupSimple found⟩

theorem holds_literalType {construct : Construct} {text : String} (readable : before.Readable) :
    Ensures (literalType? construct text) before fun answer after => before.Widens after ∧
      ∀ type, answer = some type → after.table.Holds .type type := by
  have primitive : ∀ name, Ensures (do
      return some (← bind (·.primitive name))) before fun answer after => before.Widens after ∧
        ∀ type, answer = some type → after.table.Holds .type type :=
    fun name => (refers_bind (readable.typed.refers_primitive name)).bind fun type after refers =>
      .pure ⟨refers.1, by
        rintro _ ⟨⟩
        exact refers.2⟩
  unfold literalType?
  split
  case h_1 =>
    exact (refers_bind (readable.typed.refers_typeReference _)).bind fun type after refers =>
      .pure ⟨refers.1, by
        rintro _ ⟨⟩
        exact refers.2⟩
  case h_2 | h_3 | h_4 | h_6 => exact primitive _
  case h_5 => exact .pure ⟨.refl readable, nofun⟩

section Identifiers

variable (makes : Makes root base scope due node data below before after)
  (isKind : data.kind = .identifier)
include makes isKind

theorem identified_setName (unbound : data.binding = none) (room : covers data.span name.span)
    (text : String) : Ensures (updateTree (·.setName node text name.span)) after fun _ =>
      Completes root base scope due [] node
        { data with name := some text, nameSpan := some name.span } below before after := by
  refine ⟨⟨_, rfl⟩, makes.identify isKind
    (fun data => { data with name := some text, nameSpan := some name.span })
    (fun _ => ⟨rfl, rfl, rfl, rfl⟩) ?_ ⟨?_, makes.fits.binding, makes.fits.typeBinding⟩⟩
  · intro _ meaning isBinding
    rw [unbound] at isBinding
    cases isBinding
  · rintro _ ⟨⟩
    exact room

theorem identified_setText (unbound : data.binding = none) (text : String) :
    Ensures (updateTree (·.setText node text)) after fun _ =>
      Completes root base scope due [] node { data with text := some text } below before after := by
  refine ⟨⟨_, rfl⟩, makes.identify isKind (fun data => { data with text := some text })
    (fun _ => ⟨rfl, rfl, rfl, rfl⟩) ?_ ⟨makes.fits.name, makes.fits.binding, makes.fits.typeBinding⟩⟩
  intro _ meaning isBinding
  rw [unbound] at isBinding
  cases isBinding

theorem identified_setBinding
    (fits : binding.index < after.table.size ∧ data.kind.bears (after.table.entry binding).kind)
    (meant : Unmixed root base after.declared → (after.table.entry binding).kind = .variable →
      data.name = some (after.table.entry binding).name ∧ after.Offers binding) :
    Ensures (setBinding node binding) after fun _ => Completes root base scope due [] node
      { data with binding := some binding } below before after := by
  refine ⟨⟨_, rfl⟩, makes.identify isKind (fun data => { data with binding := some binding })
    (fun _ => ⟨rfl, rfl, rfl, rfl⟩) ?_ ⟨makes.fits.name, ?_, makes.fits.typeBinding⟩⟩
  · rintro unmixed _ ⟨⟩
    exact meant unmixed
  · rintro _ ⟨⟩
    exact fits

theorem identified_setTypeBinding (isType : after.table.Holds .type type)
    (meant : ∀ meaning, data.binding = some meaning → Unmixed root base after.declared →
      (after.table.entry meaning).kind = .variable →
        data.name = some (after.table.entry meaning).name ∧ after.Offers meaning) :
    Ensures (setTypeBinding node type) after fun _ => Completes root base scope due [] node
      { data with typeBinding := some type } below before after := by
  refine ⟨⟨_, rfl⟩, makes.identify isKind (fun data => { data with typeBinding := some type })
    (fun _ => ⟨rfl, rfl, rfl, rfl⟩) (fun unmixed meaning isBinding => meant meaning isBinding unmixed)
    ⟨makes.fits.name, makes.fits.binding, ?_⟩⟩
  rintro _ ⟨⟩
  exact isType

theorem identified_setReference
    (fits : binding.index < after.table.size ∧ data.kind.bears (after.table.entry binding).kind)
    (meant : Unmixed root base after.declared → (after.table.entry binding).kind = .variable →
      data.name = some (after.table.entry binding).name ∧ after.Offers binding) :
    Ensures (setReference node binding) after fun _ => Completes root base scope due [] node
      { data with
        binding := some binding
        typeBinding := (after.table.entry binding).declaredType.or data.typeBinding }
      below before after := by
  refine (identified_setBinding makes isKind fits meant).bind ?_
  rintro _ _ ⟨⟨builder, rfl⟩, bound⟩
  refine .step ?_
  split
  case h_1 type found =>
    replace found : (after.table.entry binding).declaredType = some type := found
    have isType := makes.sound.consistent.typed.declaredType binding type found
    rw [found]
    refine identified_setTypeBinding bound isKind isType ?_
    rintro _ ⟨⟩
    exact meant
  case h_2 absent =>
    cases found : (after.table.entry binding).declaredType with
    | none => exact ⟨⟨_, rfl⟩, bound⟩
    | some type => exact (absent type found).elim

end Identifiers

section Leaves

variable (sound : Sound root base before)
  (room : covers (before.tree.span before.builder.current) phrase.span)
include sound room

theorem becomes_lowerIdentifier :
    Ensures (lowerIdentifier source phrase role) before
      (Becomes root base phrase .identifier role before) := by
  have bears : ∀ {state : Lowering} {binding : BindingId} {kind : BindingKind},
      state.table.Holds kind binding → NodeKind.identifier.bears kind →
        binding.index < state.table.size ∧
          NodeKind.identifier.bears (state.table.entry binding).kind := by
    rintro state binding kind ⟨inTable, rfl⟩ bears
    exact ⟨inTable, bears⟩
  refine (makes_leaf phrase.numbers sound room rfl).bind fun node _ makes => ?_
  refine (identified_setName makes rfl rfl (covers_refl _) (source.textOf phrase)).bind ?_
  rintro _ _ ⟨-, makes⟩
  refine (identified_setText makes rfl rfl (source.textOf phrase)).bind ?_
  rintro _ state ⟨-, makes⟩
  have typed := makes.sound.consistent.typed
  refine .get ?_
  -- What is in scope as a local name comes first, then fields, and then the types of receivers.
  split
  case h_1 meaning found =>
    rcases List.exists_of_findSome?_eq_some found with ⟨scope, isScope, found⟩
    rcases List.lookup_eq_some_iff.1 found with ⟨_, _, split, -⟩
    have knows : Knows root base state.table state.declared (source.textOf phrase) meaning :=
      makes.sound.locals scope isScope _ (split ▸ List.mem_append_right _ List.mem_cons_self)
    have meant : Unmixed root base state.declared →
        (state.table.entry meaning.binding).kind = .variable →
          some (source.textOf phrase) = some (state.table.entry meaning.binding).name ∧
            state.Offers meaning.binding :=
      fun unmixed _ => ⟨congrArg some (knows.isNamed unmixed).symm, .inr knows.unlisted⟩
    refine (identified_setBinding makes rfl (bears knows.isVariable rfl) meant).bind ?_
    rintro _ _ ⟨⟨_, rfl⟩, makes⟩
    refine (identified_setTypeBinding makes rfl knows.isType ?_).bind fun _ _ ⟨_, makes⟩ =>
      .pure ⟨_, _, makes, rfl, rfl⟩
    rintro _ ⟨⟩
    exact meant
  case h_2 =>
    split
    case h_1 field found =>
      rcases List.exists_of_findSome?_eq_some found with ⟨scope, isScope, found⟩
      have hasField := typed.findField found
      have meant : Unmixed root base state.declared → (state.table.entry field).kind = .variable →
          some (source.textOf phrase) = some (state.table.entry field).name ∧ state.Offers field :=
        fun _ _ => ⟨congrArg some hasField.name.symm, .inl ⟨scope, isScope, hasField.owner⟩⟩
      exact (identified_setReference makes rfl (bears hasField.isField rfl) meant).bind
        fun _ _ ⟨_, makes⟩ => .pure ⟨_, _, makes, rfl, rfl⟩
    case h_2 =>
      refine (holds_receiverType makes.sound.readable).bind ?_
      rintro answer state ⟨rfl, isType⟩
      split
      case h_2 => exact .pure ⟨_, _, makes, rfl, rfl⟩
      case h_1 type =>
        have holds := isType type rfl
        have meant : Unmixed root base state.declared → (state.table.entry type).kind = .variable →
            some (source.textOf phrase) = some (state.table.entry type).name ∧ state.Offers type := by
          intro _ isVariable
          rw [holds.2] at isVariable
          cases isVariable
        refine (identified_setBinding makes rfl (bears holds rfl) meant).bind ?_
        rintro _ _ ⟨⟨_, rfl⟩, makes⟩
        refine (identified_setTypeBinding makes rfl holds ?_).bind fun _ _ ⟨_, makes⟩ =>
          .pure ⟨_, _, makes, rfl, rfl⟩
        rintro _ ⟨⟩
        exact meant

theorem becomes_lowerLiteral (unit : root.Grammatical) :
    Ensures (lowerLiteral source phrase role) before
      (Becomes root base phrase .literal role before) := by
  refine (makes_leaf phrase.numbers sound room rfl).bind fun node _ makes => ?_
  refine (completes_setText makes (.inr rfl) (source.textOf phrase)).bind ?_
  rintro _ state ⟨-, makes⟩
  refine (holds_literalType makes.sound.readable).bind ?_
  rintro answer widened ⟨widens, isType⟩
  have makes := makes.widen unit widens
  split
  case h_2 => exact .pure ⟨_, _, makes, rfl, rfl⟩
  case h_1 type =>
    exact (completes_setTypeBinding makes (.inr rfl) (isType type rfl)).bind fun _ _ ⟨_, makes⟩ =>
      .pure ⟨_, _, makes, rfl, rfl⟩

theorem becomes_lowerThis :
    Ensures (lowerThis phrase role) before (Becomes root base phrase .this role before) := by
  refine (makes_leaf phrase.numbers sound room rfl).bind fun node middle makes => .step ?_
  suffices typed : Ensures ((middle.classes.head?.map (·.binding)).forM (setTypeBinding node)) middle
      fun _ after => Becomes root base phrase .this role before node after from
    typed.bind fun _ _ becomes => .pure becomes
  refine .optionForM (fun type found => ?_) fun _ => ⟨_, _, makes, rfl, rfl⟩
  rcases Option.map_eq_some_iff.1 found with ⟨scope, isFirst, rfl⟩
  have isType := (makes.sound.classes scope (List.mem_of_mem_head? isFirst)).1
  exact (completes_setTypeBinding makes (.inr rfl) isType).imp fun _ _ ⟨_, makes⟩ =>
    ⟨_, _, makes, rfl, rfl⟩

theorem becomes_lowerSuper :
    Ensures (lowerSuper phrase role) before (Becomes root base phrase .super role before) := by
  refine (makes_leaf phrase.numbers sound room rfl).bind fun node middle makes => .step ?_
  split
  case h_2 => exact .pure ⟨_, _, makes, rfl, rfl⟩
  case h_1 type _ =>
    suffices typed : Ensures ((middle.table.entry type).superclass.forM (setTypeBinding node)) middle
        fun _ after => Becomes root base phrase .super role before node after from
      .step (typed.bind fun _ _ becomes => .pure becomes)
    refine .optionForM (fun above found => ?_) fun _ => ⟨_, _, makes, rfl, rfl⟩
    have isType := makes.sound.consistent.typed.superclass type above found
    exact (completes_setTypeBinding makes (.inr rfl) isType).imp fun _ _ ⟨_, makes⟩ =>
      ⟨_, _, makes, rfl, rfl⟩

end Leaves

theorem targets_calledClass (keyword : String) :
    Ensures (calledClass? keyword) before fun target after => after = before ∧
      ∀ type, target = some type → Targets (some keyword) before type := by
  refine .step ?_
  split
  case h_2 => exact ⟨rfl, nofun⟩
  case h_1 type found =>
    rcases Option.map_eq_some_iff.1 found with ⟨scope, isFirst, rfl⟩
    refine .ite (fun isSuper => ?_) fun notSuper => ?_
    · refine .step ⟨rfl, fun type found => ⟨scope, isFirst, ?_⟩⟩
      rw [if_pos (congrArg some (beq_iff_eq.1 isSuper))]
      exact found
    · refine ⟨rfl, fun type found => ⟨scope, isFirst, ?_⟩⟩
      rw [if_neg (fun isSuper => notSuper (beq_iff_eq.2 (Option.some.inj isSuper)))]
      exact (Option.some.inj found).symm

/-! ## Local names -/

theorem annotations_subset : numbersOf phrase.annotations ⊆ phrase.numbers := by
  intro number isNumber
  refine numbersOf_subset (fun use isUse => ?_) isNumber
  rcases mem_annotations isUse with ⟨list, isList, -, inList, -⟩
  exact mem_all_trans (mem_all_of_part isList) (mem_all_of_part inList)

theorem makes_addLocal {name : String} {meaning : Local}
    (makes : Makes root base scope due node data below before after)
    (knows : Knows root base after.table after.declared name meaning) :
    Ensures (addLocal name meaning) after fun _ later =>
      Makes root base scope due node data below before later :=
  makes.addLocal knows rfl

theorem mem_parts_of_slots {slots : List Slot} :
    ∀ part ∈ slots.map phrase.part?, ∀ found ∈ part, found ∈ phrase.parts := by
  intro part isPart found isFound
  rcases List.mem_map.1 isPart with ⟨slot, -, rfl⟩
  exact mem_parts_of_slot isFound

/-- An open node of a kind without further meaning is closed. -/
theorem becomes_finish (opens : Opens root base phrase.numbers [] node data below before after)
    (isKind : data.kind = nodeKind) (plain : nodeKind.isPlain) (isRole : data.role = role) :
    Ensures (do
      finish
      return node) after (Becomes root base phrase nodeKind role before) :=
  (makes_finish opens fun _ => opens.bound_of_plain (by rw [isKind]; exact plain)).bind
    fun _ _ ⟨_, makes⟩ => .pure ⟨_, _, makes, isKind, isRole⟩

section Calls

variable (unit : root.Grammatical) (handles : Handles root base step depth)
  (inRoot : phrase ∈ root.all) (low : phrase.height ≤ depth + 1)
include unit handles inRoot low

/-- A parameter or variable is declared and comes into scope when its node is complete. -/
theorem becomes_lowerLocal (sound : Sound root base before)
    (room : covers (before.tree.span before.builder.current) phrase.span)
    (isName : covers phrase.span name.span) (isType : before.table.Holds .type type)
    (isLocal : nodeKind = .variable ∨ nodeKind = .parameter) :
    Ensures (lowerLocal source step nodeKind phrase name type role) before
      (Becomes root base phrase nodeKind role before) := by
  have plain : nodeKind.isPlain ∧ nodeKind.isTypeDeclaration = false ∧ nodeKind.bears .variable := by
    rcases isLocal with rfl | rfl <;> exact ⟨rfl, rfl, rfl⟩
  refine (widens_currentOwner sound.readable).bind fun owner owned widens => ?_
  have owned_readable := widens.readable sound.readable
  refine (adds_bind (owned_readable.typed.adds_declareVariable owner (source.textOf name)
    (widens.holds isType))).bind ?_
  rintro binding declared ⟨further, adds⟩
  have knows : Knows root base declared.table declared.declared (source.textOf name)
    { binding, type } := knows_declareVariable owned_readable.typed (widens.holds isType) adds
  have first : Advances root base phrase.numbers [] [] before declared :=
    .of_widens unit sound (widens.trans further)
  have sameBuilder : declared.builder = before.builder := (widens.trans further).builder_eq
  refine (opens_start phrase.numbers first.sound ?_).bind ?_
  · rw [Lowering.tree, sameBuilder]
    exact room
  rintro node _ ⟨⟨_, rfl⟩, opens⟩
  replace opens := opens.prepend sound first
  refine (completes_setName opens (.inl List.mem_cons_self) isName (source.textOf name)).bind ?_
  rintro _ _ ⟨⟨_, rfl⟩, opens⟩
  have holds := knows.isVariable
  refine (completes_setBinding opens (.inl List.mem_cons_self) plain.2.1
    ⟨holds.1, holds.2 ▸ plain.2.2⟩).bind ?_
  rintro _ _ ⟨⟨_, rfl⟩, opens⟩
  refine (completes_setTypeBinding opens (.inl List.mem_cons_self) knows.isType).bind ?_
  rintro _ _ ⟨⟨_, rfl⟩, opens⟩
  refine (opens_lowerModifiers unit handles inRoot low opens (covers_refl _) annotations_subset).bind ?_
  rintro _ modified ⟨_, _, _, _, advances, opens, -⟩
  refine (makes_finish opens fun _ => opens.bound_of_plain plain.1).bind ?_
  rintro _ _ ⟨⟨_, rfl⟩, makes⟩
  exact (makes_addLocal makes (knows.grows advances.grows advances.of_append)).bind
    fun _ _ makes => .pure ⟨_, _, makes, rfl, rfl⟩

/-! ## Calls and field accesses -/

/-- The receiver of an open node is lowered. -/
theorem opens_lowerReceiver
    (opens : Opens root base phrase.numbers due node data below before middle)
    (room : covers data.span phrase.span) :
    Ensures (lowerReceiver step (phrase.part? .object)) middle fun receiver after => ∃ news views,
      Advances root base phrase.numbers [] news middle after ∧
        Receives (phrase.part? .object) receiver views ∧
        Opens root base phrase.numbers due node { data with children := data.children ++ news }
          (below ++ views) before after := by
  unfold lowerReceiver
  cases isObject : phrase.part? .object with
  | none => exact .pure ⟨[], [], .refl opens.sound, ⟨rfl, rfl⟩, by simpa using opens⟩
  | some object =>
      have isPart := mem_parts_of_slot isObject
      have isExpression := (unit.shaped phrase inRoot).receiver object isObject
      have places : middle.Places object := by
        refine ⟨?_, ?_, ?_⟩ <;> cases is : object.construct <;> simp_all [Construct.isExpression,
          Construct.isTypeBody, Construct.isOfConstructor]
      refine (handles.inside opens (mem_all_trans inRoot (mem_all_of_part isPart))
        (Nat.le_of_lt_succ (Nat.lt_of_lt_of_le (height_lt_of_part isPart) low)) places
        (covers_trans room (unit.nested phrase inRoot object isPart))
        (numbers_sublist (mem_all_of_part isPart)).subset .receiver).bind ?_
      rintro answer after ⟨news, handled, opens⟩
      rcases handled.answers isExpression with ⟨receiver, rfl, rfl⟩
      have noUse : object.construct.isAnnotationUse = false := by
        cases is : object.construct <;> simp_all [Construct.isExpression, Construct.isAnnotationUse]
      refine ⟨_, _, handled.advances.drop (numbers_sublist (mem_all_of_part isPart)).subset, ?_, opens⟩
      exact ⟨_, rfl, handled.yields.roles noUse _ (List.mem_singleton_self _),
        (handled.yields.kinds _ (List.mem_singleton_self _)).1, rfl⟩

theorem becomes_lowerInvocation (isCall : phrase.construct = .methodInvocation)
    (sound : Sound root base before)
    (room : covers (before.tree.span before.builder.current) phrase.span) :
    Ensures (lowerInvocation source step phrase role) before
      (Becomes root base phrase .methodInvocation role before) := by
  have shaped := unit.shaped phrase inRoot
  obtain ⟨name, isName⟩ := Option.isSome_iff_exists.1 (shaped.named (by rw [isCall]; rfl))
  have noUse : phrase.construct.isAnnotationUse = false := by rw [isCall]; rfl
  unfold lowerInvocation
  rw [isName]
  refine (opens_start phrase.numbers sound room).bind fun node _ ⟨_, opens⟩ => ?_
  refine (completes_setName opens (.inl List.mem_cons_self)
    (unit.nested phrase inRoot name (mem_parts_of_slot isName)) (source.textOf name)).bind ?_
  rintro _ _ ⟨-, opens⟩
  refine (opens_lowerReceiver unit handles inRoot low opens (covers_refl _)).bind ?_
  rintro receiver _ ⟨received, receivedViews, -, receives, opens⟩
  refine (opens_lowerArguments unit handles inRoot low opens (covers_refl _)).bind ?_
  rintro _ argued ⟨arguments, argumentViews, -, argues, opens⟩
  refine .get ?_
  have typed := opens.sound.consistent.typed
  have ends : ∀ {data after}, Opens root base phrase.numbers [] node data
      ([] ++ receivedViews ++ argumentViews) before after → data.kind = .methodInvocation →
      data.role = role → (Unmixed root base after.declared → after.tree.Bound after.table node) →
      Ensures (do
        finish
        return node) after (Becomes root base phrase .methodInvocation role before) :=
    fun opens isKind isRole bound => (makes_finish opens bound).bind fun _ _ ⟨_, makes⟩ =>
      .pure ⟨_, _, makes, isKind, isRole⟩
  split
  case h_2 =>
    refine ends opens rfl rfl fun _ => .of_invocation (congrArg NodeData.kind opens.isData) ?_
    intro method found
    rw [Tree.binding, opens.isData] at found
    cases found
  case h_1 method found =>
    have hasMethod : ∃ type, argued.table.HasMethod type (source.textOf name)
        (Phrase.argumentCount (phrase.part? .arguments)) method ∧
          if (phrase.part? .object).isSome then receiver = some type
          else ∃ scope ∈ argued.classes, scope.binding = type := by
      unfold calledMethod? at found
      split at found
      case isTrue hasReceiver =>
        rcases Option.bind_eq_some_iff.1 found with ⟨type, isReceiver, found⟩
        exact ⟨type, typed.findMethod found, by rw [if_pos hasReceiver, isReceiver]⟩
      case isFalse noReceiver =>
        rcases List.exists_of_findSome?_eq_some found with ⟨scope, isScope, found⟩
        refine ⟨scope.binding, typed.findMethod found, ?_⟩
        rw [if_neg noReceiver]
        exact ⟨scope, isScope, rfl⟩
    rcases hasMethod with ⟨type, hasMethod, ofType⟩
    refine (completes_setReference opens (.inl List.mem_cons_self) rfl
      ⟨hasMethod.isMethod.1, by rw [hasMethod.isMethod.2]; rfl⟩).bind ?_
    rintro _ _ ⟨⟨builder, rfl⟩, opens⟩
    refine ends opens rfl rfl fun _ => .of_invocation (congrArg NodeData.kind opens.isData) ?_
    intro other found
    obtain rfl : other = method := by
      rw [Tree.binding, opens.isData] at found
      exact (Option.some.inj found).symm
    exact opens.callsMethod rfl rfl Option.or_none receives argues noUse hasMethod ofType

/-- The receiver of an open member selection is lowered, and the selection is bound to a field of the
receiver's type, if it has one. -/
theorem becomes_boundField {named : Lowering} (field : Option Phrase)
    (opens : Opens root base phrase.numbers [] node data [] before named)
    (isKind : data.kind = .memberSelect) (isRole : data.role = role)
    (isSpan : data.span = phrase.span) (noBinding : data.binding = none)
    (noType : data.typeBinding = none)
    (isName : ∀ name, field = some name → data.name = some (source.textOf name)) :
    Ensures (do
      let receiver ← lowerReceiver step (phrase.part? .object)
      let table := (← get).table
      if let (some receiver, some field) := (receiver, field) then
        if let some found := table.findField receiver (source.textOf field) then
          setReference node found
      finish
      return node) named (Becomes root base phrase .memberSelect role before) := by
  refine (opens_lowerReceiver unit handles inRoot low opens (isSpan ▸ covers_refl _)).bind ?_
  rintro receiver state ⟨received, views, -, receives, opens⟩
  refine .get ?_
  have ends : ∀ {data views after}, Opens root base phrase.numbers [] node data views before after →
      data.kind = .memberSelect → data.role = role →
      (∀ field, after.tree.binding node = some field →
        after.tree.SelectsField after.table node field) →
      Ensures (do
        finish
        return node) after (Becomes root base phrase .memberSelect role before) := by
    intro data views after opens isKind isRole selects
    have isSelect : after.tree.kind node = .memberSelect := by rw [Tree.kind, opens.isData, isKind]
    refine (makes_finish opens fun _ => .of_select isSelect selects).bind ?_
    rintro _ _ ⟨_, makes⟩
    exact .pure ⟨_, _, makes, isKind, isRole⟩
  have unbound : Ensures (do
      finish
      return node) state (Becomes root base phrase .memberSelect role before) := by
    refine ends opens isKind isRole fun field found => ?_
    rw [Tree.binding, opens.isData] at found
    cases noBinding.symm.trans found
  dsimp only
  split
  case h_2 => exact unbound
  case h_1 type name same =>
    obtain ⟨rfl, rfl⟩ := Prod.mk.inj same
    split
    case h_2 => exact unbound
    case h_1 found isFound =>
      have hasField := opens.sound.consistent.typed.findField isFound
      refine (completes_setReference opens (.inl List.mem_cons_self) ?_
        ⟨hasField.isField.1, ?_⟩).bind ?_
      · rw [isKind]
        rfl
      · rw [isKind, hasField.isField.2]
        rfl
      rintro _ _ ⟨⟨builder, rfl⟩, opens⟩
      refine ends opens isKind isRole fun other isOther => ?_
      obtain rfl : other = found := by
        rw [Tree.binding, opens.isData] at isOther
        exact (Option.some.inj isOther).symm
      exact opens.selectsField (List.nil_append _) (isName name rfl)
        ((congrArg _ noType).trans Option.or_none) receives hasField

/-- A field access becomes a member selection. -/
theorem becomes_lowerFieldAccess
    (sound : Sound root base before)
    (room : covers (before.tree.span before.builder.current) phrase.span) :
    Ensures (lowerFieldAccess source step phrase role) before
      (Becomes root base phrase .memberSelect role before) := by
  unfold lowerFieldAccess
  refine (opens_start phrase.numbers sound room).bind ?_
  rintro node _ ⟨-, opens⟩
  dsimp only
  cases isField : phrase.part? .field with
  | none =>
      refine becomes_boundField unit handles inRoot low none opens rfl rfl rfl rfl rfl ?_
      rintro _ ⟨⟩
  | some name =>
      refine (completes_setName opens (.inl List.mem_cons_self)
        (unit.nested phrase inRoot name (mem_parts_of_slot isField)) (source.textOf name)).bind ?_
      rintro _ _ ⟨-, opens⟩
      refine becomes_boundField unit handles inRoot low (some name) opens rfl rfl rfl rfl rfl ?_
      rintro _ ⟨⟩
      rfl

/-- The arguments of an open constructor call are lowered, and the call is bound to a constructor of
the class that it names, if that has one. -/
theorem becomes_boundConstructor {named : Lowering} (target : Option BindingId)
    (noUse : phrase.construct.isAnnotationUse = false) (homed : before.Homed)
    (opens : Opens root base phrase.numbers [] node data [] before named)
    (isKind : data.kind = .constructorCall) (isRole : data.role = role)
    (isSpan : data.span = phrase.span) (noBinding : data.binding = none)
    (targets : ∀ type, target = some type → Targets data.name named type) :
    Ensures (do
      lowerArguments step (phrase.part? .arguments)
      let table := (← get).table
      let arity := Phrase.argumentCount (phrase.part? .arguments)
      if let some constructor := target.bind (table.findConstructor · arity) then
        setBinding node constructor
      finish
      return node) named (Becomes root base phrase .constructorCall role before) := by
  have isClass : ∀ scope ∈ named.classes, scope.binding.index < named.table.size :=
    fun scope isScope => (opens.sound.classes scope isScope).1.1
  refine (opens_lowerArguments unit handles inRoot low opens (isSpan ▸ covers_refl _)).bind ?_
  rintro _ state ⟨arguments, views, advances, argues, opens⟩
  refine .get ?_
  have ends : ∀ {data below after}, Opens root base phrase.numbers [] node data below before after →
      data.kind = .constructorCall → data.role = role →
      (Unmixed root base after.declared → ∀ constructor,
        after.tree.binding node = some constructor →
          after.tree.CallsConstructor after.table node constructor) →
      Ensures (do
        finish
        return node) after (Becomes root base phrase .constructorCall role before) := by
    intro data below after opens isKind isRole calls
    have isCall : after.tree.kind node = .constructorCall := by
      rw [Tree.kind, opens.isData, isKind]
    refine (makes_finish opens fun unmixed => .of_constructorCall isCall (calls unmixed)).bind ?_
    rintro _ _ ⟨_, makes⟩
    exact .pure ⟨_, _, makes, isKind, isRole⟩
  dsimp only
  split
  case h_2 =>
    refine ends opens isKind isRole fun _ constructor found => ?_
    rw [Tree.binding, opens.isData] at found
    cases noBinding.symm.trans found
  case h_1 constructor found =>
    rcases Option.bind_eq_some_iff.1 found with ⟨type, isTarget, found⟩
    have hasConstructor := opens.sound.consistent.typed.findConstructor found
    refine (completes_setBinding opens (.inl List.mem_cons_self) ?_
      ⟨hasConstructor.isMethod.1, ?_⟩).bind ?_
    · rw [isKind]
      rfl
    · rw [isKind, hasConstructor.isMethod.2]
      rfl
    rintro _ _ ⟨⟨builder, rfl⟩, opens⟩
    refine ends opens isKind isRole fun unmixed other isOther => ?_
    obtain rfl : other = constructor := by
      rw [Tree.binding, opens.isData] at isOther
      exact (Option.some.inj isOther).symm
    refine opens.callsConstructor (List.nil_append _) ?_ homed isClass argues noUse hasConstructor
      (targets type isTarget) advances.classes (advances.keeps unmixed)
    rw [isKind]
    rfl

/-- An explicit constructor call is bound to a constructor of the class around it, or of its
superclass. -/
theorem becomes_lowerConstructorCall (noUse : phrase.construct.isAnnotationUse = false)
    (homed : before.Homed) (sound : Sound root base before)
    (room : covers (before.tree.span before.builder.current) phrase.span) :
    Ensures (lowerConstructorCall source step phrase role) before
      (Becomes root base phrase .constructorCall role before) := by
  unfold lowerConstructorCall
  refine (opens_start phrase.numbers sound room).bind ?_
  rintro node _ ⟨-, opens⟩
  dsimp only
  cases isKeyword : phrase.part? .constructor with
  | none =>
      refine becomes_boundConstructor unit handles inRoot low none noUse homed opens rfl rfl rfl rfl ?_
      rintro _ ⟨⟩
  | some keyword =>
      refine (completes_setName opens (.inl List.mem_cons_self)
        (unit.nested phrase inRoot keyword (mem_parts_of_slot isKeyword)) (source.textOf keyword)).bind ?_
      rintro _ named ⟨-, opens⟩
      refine (targets_calledClass (source.textOf keyword)).bind ?_
      rintro target _ ⟨rfl, targets⟩
      exact becomes_boundConstructor unit handles inRoot low target noUse homed opens rfl rfl rfl rfl
        targets

/-! ## Operators, casts and statements -/

/-- A part that may be missing is lowered. -/
theorem opens_part? {part : Option Phrase}
    (opens : Opens root base phrase.numbers due node data below before middle)
    (room : covers data.span phrase.span) (isPart : ∀ found ∈ part, found ∈ phrase.parts)
    (places : ∀ found ∈ part, middle.Places found) (role : Role) :
    Ensures (part.forM fun part => do
      let _ ← step part role) middle fun _ after => ∃ news views,
        Opens root base phrase.numbers due node { data with children := data.children ++ news }
          (below ++ views) before after := by
  refine .optionForM (fun found isFound => ?_) fun _ => ⟨[], [], by simpa using opens⟩
  have inside := isPart found isFound
  refine (handles.inside opens (mem_all_trans inRoot (mem_all_of_part inside))
    (Nat.le_of_lt_succ (Nat.lt_of_lt_of_le (height_lt_of_part inside) low)) (places found isFound)
    (covers_trans room (unit.nested phrase inRoot found inside))
    (numbers_sublist (mem_all_of_part inside)).subset role).bind ?_
  rintro _ after ⟨news, -, opens⟩
  exact .pure ⟨news, _, opens⟩

/-- Parts of a phrase without bodies are lowered one after the other. -/
theorem opens_parts? {parts : List (Option Phrase)} (ordinary : phrase.construct.isOrdinary)
    (opens : Opens root base phrase.numbers due node data below before middle)
    (room : covers data.span phrase.span)
    (areParts : ∀ part ∈ parts, ∀ found ∈ part, found ∈ phrase.parts) (role : Role) :
    Ensures (parts.forM fun part => part.forM fun part => do
      let _ ← step part role) middle fun _ after => ∃ news views,
        Opens root base phrase.numbers due node { data with children := data.children ++ news }
          (below ++ views) before after := by
  refine (Ensures.forM (fun rest after => (∀ part ∈ rest, ∀ found ∈ part, found ∈ phrase.parts) ∧
    ∃ news views, Opens root base phrase.numbers due node
      { data with children := data.children ++ news } (below ++ views) before after)
    ⟨areParts, [], [], by simpa using opens⟩ ?_).imp fun _ _ result => result.2
  rintro part rest current ⟨areParts, news, views, opens⟩
  have isPart := areParts part List.mem_cons_self
  refine (opens_part? unit handles inRoot low opens room isPart
    (fun found isFound => .of_ordinary unit inRoot ordinary (isPart found isFound) _) role).imp ?_
  rintro _ after ⟨more, moreViews, opens⟩
  refine ⟨fun part isPart => areParts part (List.mem_cons_of_mem _ isPart), news ++ more,
    views ++ moreViews, ?_⟩
  rw [← List.append_assoc, ← List.append_assoc]
  exact opens

theorem becomes_lowerBinary (ordinary : phrase.construct.isOrdinary) (sound : Sound root base before)
    (room : covers (before.tree.span before.builder.current) phrase.span) :
    Ensures (lowerBinary source step phrase role) before
      (Becomes root base phrase .binary role before) := by
  have rest : ∀ {node data after}, Opens root base phrase.numbers [] node data [] before after →
      data.kind = .binary → data.role = role → data.span = phrase.span →
      Ensures (do
        [phrase.part? .left, phrase.part? .right].forM fun operand =>
          operand.forM fun operand => do
            let _ ← step operand .operand
        finish
        return node) after (Becomes root base phrase .binary role before) := by
    intro node data after opens isKind isRole isSpan
    refine (opens_parts? unit handles inRoot low ordinary opens (isSpan ▸ covers_refl _)
      (@mem_parts_of_slots phrase [.left, .right]) .operand).bind ?_
    rintro _ lowered ⟨news, views, opens⟩
    exact becomes_finish opens isKind rfl isRole
  refine (opens_start phrase.numbers sound room).bind fun node _ ⟨_, opens⟩ => ?_
  dsimp only
  split
  case h_2 => exact rest opens rfl rfl rfl
  case h_1 operator _ =>
    refine (completes_setText opens (.inl List.mem_cons_self) (source.textOf operator)).bind ?_
    rintro _ _ ⟨-, opens⟩
    refine .ite (fun _ => ?_) fun _ => rest opens rfl rfl rfl
    refine (refers_bind (opens.sound.consistent.typed.refers_primitive "boolean")).bind ?_
    rintro type _ ⟨widens, isType⟩
    refine (completes_setTypeBinding (opens.widen unit widens) (.inl List.mem_cons_self) isType).bind ?_
    rintro _ _ ⟨-, opens⟩
    exact rest opens rfl rfl rfl

theorem becomes_lowerUnary (ordinary : phrase.construct.isOrdinary) (sound : Sound root base before)
    (room : covers (before.tree.span before.builder.current) phrase.span) :
    Ensures (lowerUnary source step phrase role) before
      (Becomes root base phrase .unary role before) := by
  have rest : ∀ {node data after}, Opens root base phrase.numbers [] node data [] before after →
      data.kind = .unary → data.role = role → data.span = phrase.span →
      Ensures (do
        (phrase.part? .operand).forM fun operand => do
          let _ ← step operand .operand
        finish
        return node) after (Becomes root base phrase .unary role before) := by
    intro node data after opens isKind isRole isSpan
    refine (opens_part? unit handles inRoot low opens (isSpan ▸ covers_refl _)
      (fun _ isFound => mem_parts_of_slot isFound)
      (fun _ isFound => .of_ordinary unit inRoot ordinary (mem_parts_of_slot isFound) _) .operand).bind ?_
    rintro _ lowered ⟨news, views, opens⟩
    exact becomes_finish opens isKind rfl isRole
  refine (opens_start phrase.numbers sound room).bind fun node _ ⟨_, opens⟩ => ?_
  dsimp only
  split
  case h_2 => exact rest opens rfl rfl rfl
  case h_1 operator _ =>
    refine (completes_setText opens (.inl List.mem_cons_self) (source.textOf operator)).bind ?_
    rintro _ _ ⟨-, opens⟩
    exact rest opens rfl rfl rfl

theorem becomes_lowerParts (sound : Sound root base before)
    (room : covers (before.tree.span before.builder.current) phrase.span) (plain : nodeKind.isPlain)
    (places : ∀ part ∈ phrase.namedParts, before.Places part) :
    Ensures (lowerParts step nodeKind phrase role) before
      (Becomes root base phrase nodeKind role before) :=
  (makes_lowerParts unit handles inRoot low sound room plain places role).imp
    fun _ _ ⟨_, _, makes, _⟩ => ⟨_, _, makes, rfl, rfl⟩

theorem becomes_lowerCast (ordinary : phrase.construct.isOrdinary) (sound : Sound root base before)
    (room : covers (before.tree.span before.builder.current) phrase.span) :
    Ensures (lowerCast source step phrase role) before
      (Becomes root base phrase .other role before) := by
  refine (becomes_lowerParts unit handles inRoot low sound room rfl fun part isNamed =>
    .of_ordinary unit inRoot ordinary (mem_parts_of_named isNamed) _).bind ?_
  rintro node lowered ⟨data, views, makes, isKind, isRole⟩
  dsimp only
  split
  case h_2 => exact .pure ⟨data, views, makes, isKind, isRole⟩
  case h_1 written _ =>
    refine (refers_resolveType makes.sound.readable written).bind fun type widened refers => ?_
    refine (completes_setTypeBinding (makes.widen unit refers.1) (.inr ?_) refers.2).bind ?_
    · rw [isKind]
      rfl
    exact fun _ _ ⟨_, makes⟩ => .pure ⟨_, _, makes, isKind, isRole⟩

end Calls

end Lower

end JavaInspect.Java
