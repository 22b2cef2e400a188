import JavaInspect.Proofs.Java.Classes

/-!
# Lowering fields, constants and methods

What a type declares besides types. Each becomes a node that carries the binding it was declared
with; a declaration of several fields becomes one node for each of them.
-/

namespace JavaInspect.Java

open Phrase Lowering

variable {root phrase declarator name : Phrase} {base depth : Nat} {scope : List Nat}
  {opened news : List NodeId} {node : NodeId} {data : NodeData} {views : List NodeData}
  {before middle after : Lowering} {source : Source} {role : Role} {nodeKind : NodeKind}
  {type : BindingId} {step : Lower.Step} {isField : Bool}

/-- A phrase has become a node with the binding that it was declared with, if it was. -/
def Carries (root : Phrase) (base : Nat) (phrase : Phrase) (kind : NodeKind) (role : Role)
    (before : Lowering) (node : NodeId) (after : Lowering) : Prop :=
  ∃ data views, Makes root base phrase.numbers [] node data views before after ∧
    data.kind = kind ∧ data.role = role ∧
    ∀ binding, before.declared.lookup phrase.number = some binding → data.binding = some binding

/-- A declarator has become a node. That of a field carries the binding it was declared with. -/
def BecomesVariable (root : Phrase) (base : Nat) (phrase declarator : Phrase) (isField : Bool)
    (role : Role) (before : Lowering) (node : NodeId) (after : Lowering) : Prop :=
  ∃ data views, Makes root base (numbersOf phrase.annotations ++ declarator.numbers) [] node data
    views before after ∧ data.kind = .variable ∧ data.role = role ∧
    (isField → ∀ field, before.declared.lookup declarator.number = some field →
      data.binding = some field)

namespace Lower

/-! ## Declarators -/

/-- A declarator of a field has the binding it was declared with; a local variable has a new one. -/
theorem widens_declaratorBinding (inRoot : declarator ∈ root.all)
    (isDeclarator : declarator.construct = .variableDeclarator) (sound : Sound root base before)
    (isType : before.table.Holds .type type) :
    Ensures (declaratorBinding source declarator name isField type) before fun binding after =>
      before.Widens after ∧ after.table.Holds .variable binding ∧
        (isField → ∀ field, before.declared.lookup declarator.number = some field →
          binding = field) ∧
        (¬ isField → Knows root base after.table after.declared (source.textOf name)
          { binding, type }) := by
  have declareNew : Ensures (do
      let owner ← currentOwner source
      bind (·.declareVariable owner (source.textOf name) type)) before fun binding after =>
        before.Widens after ∧
          Knows root base after.table after.declared (source.textOf name) { binding, type } := by
    refine (widens_currentOwner sound.readable).bind fun owner middle widens => ?_
    have readable := widens.readable sound.readable
    exact (adds_bind (readable.typed.adds_declareVariable owner (source.textOf name)
      (widens.holds isType))).imp fun _ _ ⟨further, adds⟩ =>
        ⟨widens.trans further, knows_declareVariable readable.typed (widens.holds isType) adds⟩
  refine .step ?_
  rw [show (declared? declarator before).1 = before.declared.lookup declarator.number from rfl]
  cases found : before.declared.lookup declarator.number with
  | none =>
      exact declareNew.imp fun _ _ ⟨widens, knows⟩ => ⟨widens, knows.isVariable, nofun, fun _ => knows⟩
  | some field =>
      refine .ite (fun is => ?_) fun isLocal => ?_
      · have fits := sound.consistent.fit declarator inRoot field found
        have isVariable := fits.kind
        rw [isDeclarator] at isVariable
        refine .pure ⟨.refl sound.readable, ⟨fits.inTable, (Option.some.inj isVariable).symm⟩, ?_,
          fun isLocal => (isLocal is).elim⟩
        rintro _ _ ⟨⟩
        rfl
      · exact declareNew.imp fun _ _ ⟨widens, knows⟩ =>
          ⟨widens, knows.isVariable, fun is => (isLocal is).elim, fun _ => knows⟩

section

variable (unit : root.Grammatical) (handles : Handles root base step depth)
  (inRoot : phrase ∈ root.all) (low : phrase.height ≤ depth + 1)
include unit handles inRoot low

/-- A declarator becomes a node that spans the whole declaration. -/
theorem makes_lowerDeclarator (isPart : declarator ∈ phrase.partsIn .declarator)
    (sound : Sound root base before)
    (room : covers (before.tree.span before.builder.current) phrase.span)
    (isType : before.table.Holds .type type) :
    Ensures (lowerDeclarator source step phrase declarator type isField role) before
      fun answer after => ∃ node, answer = some node ∧
        BecomesVariable root base phrase declarator isField role before node after := by
  have inPhrase := mem_all_of_part (mem_parts_of_partsIn isPart)
  have declaratorInRoot := mem_all_trans inRoot inPhrase
  have shaped := unit.shaped declarator declaratorInRoot
  have isDeclarator := (unit.shaped phrase inRoot).declarators declarator isPart
  unfold lowerDeclarator
  split
  case h_1 noName =>
    have isNamed := shaped.named (by rw [isDeclarator]; rfl)
    rw [noName] at isNamed
    cases isNamed
  case h_2 name isName =>
    have nameInside := mem_all_trans inPhrase (mem_all_of_part (mem_parts_of_slot isName))
    refine (refers_declaratorType sound.readable isType declarator).bind ?_
    rintro type typed ⟨widens, isType⟩
    have same : typed.declared.lookup declarator.number =
        before.declared.lookup declarator.number := by
      rcases widens with ⟨_, rfl, -⟩
      rfl
    refine (widens_declaratorBinding declaratorInRoot isDeclarator (sound.widens unit widens)
      isType).bind ?_
    rintro binding bound ⟨further, isVariable, isDeclared, knows⟩
    rw [same] at isDeclared
    have widened := widens.trans further
    have first : Advances root base (numbersOf phrase.annotations ++ declarator.numbers) [] []
      before bound := .of_widens unit sound widened
    replace isType := further.holds isType
    refine (opens_start (numbersOf phrase.annotations ++ declarator.numbers) first.sound
      (first.room sound room)).bind ?_
    rintro node _ ⟨⟨_, rfl⟩, opens⟩
    replace opens := opens.prepend sound first
    refine (completes_setName opens (.inl List.mem_cons_self)
      (unit.covers_of_mem_all inRoot nameInside) (source.textOf name)).bind ?_
    rintro _ _ ⟨⟨_, rfl⟩, opens⟩
    refine (completes_setBinding opens (.inl List.mem_cons_self) rfl
      ⟨isVariable.1, by rw [isVariable.2]; rfl⟩).bind ?_
    rintro _ _ ⟨⟨_, rfl⟩, opens⟩
    refine (completes_setTypeBinding opens (.inl List.mem_cons_self) isType).bind ?_
    rintro _ _ ⟨⟨_, rfl⟩, opens⟩
    refine (opens_lowerModifiers unit handles inRoot low opens (covers_refl _)
      (List.subset_append_left _ _)).bind ?_
    rintro _ modified ⟨_, _, _, _, annotated, opens, -⟩
    replace knows := fun isLocal => (knows isLocal).grows annotated.grows annotated.of_append
    refine .via (fun _ after => ∃ data views,
      Opens root base (numbersOf phrase.annotations ++ declarator.numbers) [] node data views
        before after ∧ data.kind = .variable ∧ data.role = role ∧ data.binding = some binding ∧
        (¬ isField → Knows root base after.table after.declared (source.textOf name)
          { binding, type }))
      (.optionForM (fun value isValue => ?_) fun _ => ⟨_, _, opens, rfl, rfl, rfl, knows⟩) ?_
    · have isPart := mem_parts_of_slot isValue
      have inside := mem_all_trans inPhrase (mem_all_of_part isPart)
      refine (handles.inside opens (mem_all_trans inRoot inside) (Nat.le_of_lt_succ
        (Nat.lt_of_lt_of_le (Nat.lt_of_lt_of_le (height_lt_of_part isPart)
          (height_le_of_mem_all inPhrase)) low))
        (.of_ordinary unit declaratorInRoot (by rw [isDeclarator]; rfl) isPart _)
        (unit.covers_of_mem_all inRoot inside) (List.subset_append_of_subset_right _
          (numbers_sublist (mem_all_of_part isPart)).subset) .initializer).bind ?_
      rintro _ after ⟨_, handled, opens⟩
      exact .pure ⟨_, _, opens, rfl, rfl, rfl, fun isLocal =>
        (knows isLocal).grows handled.advances.grows handled.advances.of_append⟩
    rintro _ after ⟨data, views, opens, isKind, isRole, isBinding, knows⟩
    refine (makes_finish opens fun _ => opens.bound_of_plain (by rw [isKind]; rfl)).bind ?_
    rintro _ _ ⟨⟨_, rfl⟩, makes⟩
    have ends : ∀ {later}, Makes root base (numbersOf phrase.annotations ++ declarator.numbers) []
        node data views before later → Ensures (pure (some node)) later fun answer after =>
          ∃ node, answer = some node ∧
            BecomesVariable root base phrase declarator isField role before node after :=
      fun makes => ⟨node, rfl, data, views, makes, isKind, isRole, fun is field found => by
        rw [isBinding, isDeclared is field found]⟩
    refine .ite (fun isLocal => ?_) fun _ => ends makes
    exact (makes_addLocal makes (knows (by simpa using isLocal))).bind fun _ _ makes => ends makes

/-- A declaration of fields or local variables becomes a node for each of its declarators. -/
theorem advances_lowerVariables (sound : Sound root base before)
    (room : covers (before.tree.span before.builder.current) phrase.span) :
    Ensures (lowerVariables source step phrase isField role) before fun _ after => ∃ news,
      Advances root base phrase.numbers [] news before after ∧
        (∀ view ∈ news.map after.tree.data, view.kind = .variable ∧ view.role = role) ∧
        (isField → List.Forall₂ (Stands before.declared) (phrase.partsIn .declarator)
          (news.map after.tree.data)) := by
  refine (refers_resolveTypeOrRoot sound.readable _).bind ?_
  rintro type typed ⟨widens, isType⟩
  have first : Advances root base phrase.numbers [] [] before typed := .of_widens unit sound widens
  have sameDeclared : typed.declared = before.declared := by
    rcases widens with ⟨_, rfl, -⟩
    rfl
  have phraseNumbered := numbered_of_mem unit.numbered inRoot
  have numbered : (numbersOf (phrase.partsIn .declarator)).Nodup :=
    ((allOf_sublist List.filter_sublist).map _).nodup (numbered_parts phraseNumbered)
  refine (Ensures.filterMapM (fun rest _ middle => ∃ done news,
    phrase.partsIn .declarator = done ++ rest ∧
    Advances root base (numbersOf phrase.annotations ++ numbersOf done) [] news typed middle ∧
    (∀ view ∈ news.map middle.tree.data, view.kind = .variable ∧ view.role = role) ∧
    (isField → List.Forall₂ (Stands before.declared) done (news.map middle.tree.data)))
    ⟨[], [], rfl, .refl first.sound, by simp, fun _ => .nil⟩ ?_).bind ?_
  · rintro declarator rest _ middle ⟨done, news, split, advances, plain, stands⟩
    have isListed : declarator ∈ phrase.partsIn .declarator := by simp [split]
    have isPart := mem_parts_of_partsIn isListed
    have isDeclarator := (unit.shaped phrase inRoot).declarators declarator isListed
    have sameLookup : middle.declared.lookup declarator.number =
        before.declared.lookup declarator.number := by
      rw [← sameDeclared]
      refine advances.lookup_eq fun isNumber => ?_
      rcases List.mem_append.1 isNumber with inUses | inDone
      · exact number_not_mem_annotations phraseNumbered isPart (by rw [isDeclarator]; nofun)
          (mem_numbers mem_all_self) inUses
      · rcases List.mem_map.1 inDone with ⟨inner, inside, same⟩
        rw [split] at numbered
        exact number_ne_of_append numbered inside (mem_allOf_of_mem List.mem_cons_self) same
    refine (makes_lowerDeclarator unit handles inRoot low isListed advances.sound
      (advances.room first.sound (first.room sound room)) (advances.grows.holds isType)).imp ?_
    rintro answer after ⟨node, -, data, views, makes, isKind, isRole, isBinding⟩
    have sameViews := advances.views_eq makes.toProgress first.sound.rooted.current_inside
    refine ⟨done ++ [declarator], news ++ [node], by simp [split], ?_, ?_, fun is => ?_⟩
    · refine (advances.imp ?_ fun _ => Nat.le_refl _).trans
        (makes.toProgress.imp ?_ fun _ => Nat.le_refl _)
      all_goals
        intro number isNumber
        simp only [List.mem_append, numbersOf, allOf_append, allOf_cons, allOf_nil, List.append_nil,
          List.map_append] at isNumber ⊢
        tauto
    · rw [List.map_append, sameViews, List.map_singleton, makes.isData]
      exact List.forall_mem_append.2 ⟨plain, by simp [isKind, isRole]⟩
    · rw [List.map_append, sameViews, List.map_singleton, makes.isData]
      refine List.rel_append (stands is) (.cons ⟨?_, ?_⟩ .nil)
      · rw [← sameLookup]
        exact isBinding is
      · rw [isKind, isDeclarator]
        decide
  · rintro _ after ⟨done, news, split, advances, plain, stands⟩
    rw [List.append_nil] at split
    rw [← split] at stands
    refine .pure ⟨news, first.trans (advances.imp ?_ fun _ => Nat.le_refl _), plain, stands⟩
    rw [← split]
    refine List.append_subset.2 ⟨annotations_subset, fun _ => numbersOf_subset ?_⟩
    exact fun declarator isPart => mem_all_of_part (mem_parts_of_partsIn isPart)

/-! ## Nodes that stand for declarations -/

/-- A declaration is open as a node with the binding that it was declared with. -/
def Stating (root : Phrase) (base : Nat) (phrase : Phrase) (kind : NodeKind) (role : Role)
    (before : Lowering) (node : NodeId) (after : Lowering) : Prop :=
  ∃ builder data, after = { before with builder } ∧
    Opens root base phrase.numbers [] node data [] before after ∧ data.kind = kind ∧
      data.role = role ∧ data.span = phrase.span ∧
      ∀ binding, before.declared.lookup phrase.number = some binding → data.binding = some binding

omit handles low in
/-- The node of a declaration is opened, named and bound. -/
theorem stating_start {Answer : Type} {rest : NodeId → Option BindingId → Lower Answer}
    {attach : NodeId → BindingId → Lower Unit} {claim : Answer → Lowering → Prop}
    (plain : nodeKind.isPlain) (sound : Sound root base before)
    (room : covers (before.tree.span before.builder.current) phrase.span)
    (bears : ∀ kind, phrase.construct.declares? = some kind → nodeKind.bears kind)
    (attaches : ∀ {node data middle binding},
      Opens root base phrase.numbers [] node data [] before middle →
      data.kind.isTypeDeclaration = false →
      (binding.index < middle.table.size ∧ data.kind.bears (middle.table.entry binding).kind) →
        Ensures (attach node binding) middle fun _ after => ∃ builder typeBinding,
          after = { middle with builder } ∧ Opens root base phrase.numbers [] node
            { data with binding := some binding, typeBinding } [] before after)
    (goesOn : ∀ node declared after, Stating root base phrase nodeKind role before node after →
      Ensures (rest node declared) after claim) :
    Ensures (do
      let node ← start nodeKind phrase role
      (phrase.part? .name).forM (setName source node)
      let declared ← declared? phrase
      declared.forM (attach node)
      rest node declared) before claim := by
  have noType : nodeKind.isTypeDeclaration = false := by
    cases nodeKind <;> first | rfl | cases plain
  refine (opens_start phrase.numbers sound room).bind ?_
  rintro node _ ⟨⟨_, rfl⟩, opens⟩
  refine .via (fun _ after => ∃ builder data, after = { before with builder } ∧
    Opens root base phrase.numbers [] node data [] before after ∧ data.kind = nodeKind ∧
      data.role = role ∧ data.span = phrase.span)
    (.optionForM (fun name isName => ?_) fun _ => ⟨_, _, rfl, opens, rfl, rfl, rfl⟩) ?_
  · refine (completes_setName opens (.inl List.mem_cons_self)
      (unit.nested phrase inRoot name (mem_parts_of_slot isName)) (source.textOf name)).imp ?_
    rintro _ _ ⟨⟨_, rfl⟩, opens⟩
    exact ⟨_, _, rfl, opens, rfl, rfl, rfl⟩
  rintro _ _ ⟨builder, data, rfl, opens, isKind, isRole, isSpan⟩
  refine .step ?_
  rw [show (declared? phrase { before with builder }).1 =
    before.declared.lookup phrase.number from rfl]
  refine .via (fun _ after => Stating root base phrase nodeKind role before node after)
    (.optionForM (fun binding found => ?_) fun absent => ?_) fun _ after => goesOn node _ after
  · have fits := opens.sound.consistent.fit phrase inRoot binding found
    refine (attaches opens (isKind ▸ noType) ⟨fits.inTable, isKind ▸ bears _ fits.kind⟩).imp ?_
    rintro _ _ ⟨builder, typeBinding, rfl, opens⟩
    exact ⟨_, _, rfl, opens, isKind, isRole, isSpan, fun other isOther => found ▸ isOther⟩
  · refine ⟨_, _, rfl, opens, isKind, isRole, isSpan, fun binding found => ?_⟩
    rw [absent] at found
    cases found

/-! ## Constants -/

/-- A constant of an enum becomes a node, and so does the class of its body. -/
theorem carries_lowerConstant (isConstant : phrase.construct = .enumConstant)
    (sound : Sound root base before)
    (room : covers (before.tree.span before.builder.current) phrase.span) :
    Ensures (lowerConstant source step phrase role) before
      (Carries root base phrase .variable role before) := by
  have noType : ¬ phrase.declaresType := by
    rw [declaresType, isConstant]
    exact Bool.false_ne_true
  have noUse : phrase.construct.isAnnotationUse = false := by rw [isConstant]; rfl
  refine stating_start unit inRoot rfl sound room ?_ ?_ ?_
  · rw [isConstant]
    rintro _ ⟨⟩
    rfl
  · intro node data middle binding opens isPlain fits
    refine (completes_setBinding opens (.inl List.mem_cons_self) isPlain fits).imp ?_
    rintro _ _ ⟨⟨_, rfl⟩, opens⟩
    exact ⟨_, _, rfl, opens⟩
  rintro node _ _ ⟨builder, data, rfl, opens, isKind, isRole, isSpan, isBinding⟩
  refine .step ?_
  rw [show (currentClass? { before with builder }).1 = before.classes.head?.map (·.binding) from rfl]
  have isType : ∀ above, before.classes.head?.map (·.binding) = some above →
      before.table.Holds .type above := by
    intro above found
    rcases Option.map_eq_some_iff.1 found with ⟨scope, isScope, rfl⟩
    exact (sound.classes scope (List.mem_of_mem_head? isScope)).1
  refine .via (fun _ after => Stating root base phrase .variable role before node after)
    (.optionForM (fun type found => ?_)
      fun _ => ⟨_, _, rfl, opens, isKind, isRole, isSpan, isBinding⟩) ?_
  · refine (completes_setTypeBinding opens (.inl List.mem_cons_self) (isType type found)).bind ?_
    rintro _ _ ⟨⟨_, rfl⟩, opens⟩
    refine (completes_addModifier opens (.inl List.mem_cons_self) .static).bind ?_
    rintro _ _ ⟨⟨_, rfl⟩, opens⟩
    refine (completes_addModifier opens (.inl List.mem_cons_self) .final).imp ?_
    rintro _ _ ⟨⟨_, rfl⟩, opens⟩
    exact ⟨_, _, rfl, opens, isKind, isRole, isSpan, isBinding⟩
  rintro _ _ ⟨builder, data, rfl, opens, isKind, isRole, isSpan, isBinding⟩
  refine (opens_lowerModifiers unit handles inRoot low opens (isSpan ▸ covers_refl _)
    annotations_subset).bind ?_
  rintro _ modified ⟨_, modifiers, _, _, annotated, opens, -⟩
  refine (opens_lowerArguments unit handles inRoot low opens (isSpan ▸ covers_refl _)).bind ?_
  rintro _ argued ⟨_, _, argued, -, opens⟩
  refine .via (fun _ after => ∃ data views,
    Opens root base phrase.numbers [] node data views before after ∧ data.kind = .variable ∧
      data.role = role ∧
      ∀ binding, before.declared.lookup phrase.number = some binding → data.binding = some binding)
    (.optionForM (fun body isBody => ?_) fun _ => ⟨_, _, opens, isKind, isRole, isBinding⟩) ?_
  · have isPart := mem_parts_of_slot isBody
    refine (becomes_lowerAnonymousClass unit handles inRoot isPart
      (Nat.le_trans (Nat.le_of_lt (height_lt_of_part isPart)) low)
      ((unit.shaped phrase inRoot).body (.inr isConstant) body isBody) noType opens.sound
      (opens.room (isSpan ▸ unit.nested phrase inRoot body isPart)) fun above found =>
        argued.grows.holds (annotated.grows.holds (isType above found))).imp ?_
    rintro _ after ⟨_, _, _, makes, -, -⟩
    exact ⟨_, _, opens.within makes.toProgress (numbers_sublist (mem_all_of_part isPart)).subset,
      isKind, isRole, isBinding⟩
  rintro _ after ⟨data, views, opens, isKind, isRole, isBinding⟩
  refine (makes_finish opens fun _ => opens.bound_of_plain (by rw [isKind]; rfl)).bind ?_
  rintro _ _ ⟨-, makes⟩
  exact .pure ⟨data, views, makes, isKind, isRole, isBinding⟩

/-! ## Methods -/

omit unit handles inRoot low in
theorem Ensures.inMethod {Answer : Type} {method : BindingId} {action : Lower Answer}
    {claim : Answer → Lowering → Prop}
    (inside : Ensures action { before with methods := method :: before.methods }
      fun answer after => claim answer { after with methods := after.methods.tail }) :
    Ensures (inMethod (some method) action) before claim :=
  inside

omit unit handles inRoot low in
/-- Something is lowered inside a method, with its type parameters and a scope of its own. -/
theorem advances_inMethod {action : Lower Unit} (names : List String) (method : Option BindingId)
    (sound : Sound root base before)
    (inside : ∀ methodTypeParameters methods scopes,
      Sound root base { before with methodTypeParameters, methods, scopes } →
        Ensures action { before with methodTypeParameters, methods, scopes } fun _ after =>
          ∃ news, Advances root base scope [] news
            { before with methodTypeParameters, methods, scopes } after) :
    Ensures (withTypeParameters names (inMethod method (inScope action))) before fun _ after =>
      ∃ news, Advances root base scope [] news before after := by
  have fresh : ∀ methodTypeParameters methods, Sound root base
      { before with methodTypeParameters, methods, scopes := [] :: before.scopes } :=
    fun _ _ => sound.rescope (fun _ => id) (List.forall_mem_cons.2 ⟨by simp, sound.locals⟩)
  refine Ensures.withTypeParameters ?_
  cases method with
  | none =>
      refine Ensures.inScope ((inside _ _ _ (fresh _ _)).imp ?_)
      rintro _ after ⟨news, advances⟩
      exact ⟨news, advances.popScope.popTypeParameters⟩
  | some method =>
      refine Ensures.inMethod (Ensures.inScope ((inside _ _ _ (fresh _ _)).imp ?_))
      rintro _ after ⟨news, advances⟩
      exact ⟨news, advances.popScope.popMethod.popTypeParameters⟩

omit handles low in
/-- A method body stands where it can be lowered; that of a constructor does where the class around
it is in scope. -/
theorem places_body (isMethod : phrase.construct.declares? = some .method)
    (homed : phrase.construct.isOfConstructor → before.Homed) {body : Phrase}
    (isPart : body ∈ phrase.parts) : before.Places body := by
  cases is : phrase.construct <;> rw [is] at isMethod <;> cases isMethod
  case constructorDeclaration =>
    have fits := (unit.shaped phrase inRoot).home body isPart
    refine ⟨?_, ?_, fun _ => homed (by rw [is]; rfl)⟩ <;> cases isBody : body.construct <;>
      simp_all [Construct.fitsIn, Construct.isTypeBody]
  all_goals exact .of_ordinary unit inRoot (by rw [is]; rfl) isPart _

/-- A method or constructor becomes a node that carries the binding it was declared with. -/
theorem carries_lowerMethod (isMethod : phrase.construct.declares? = some .method)
    (isKind : nodeKind = .method ∨ nodeKind = .constructor)
    (homed : phrase.construct.isOfConstructor → before.Homed) (sound : Sound root base before)
    (room : covers (before.tree.span before.builder.current) phrase.span) :
    Ensures (lowerMethod source step phrase nodeKind role) before
      (Carries root base phrase nodeKind role before) := by
  have plain : nodeKind.isPlain := by rcases isKind with rfl | rfl <;> rfl
  have noType : nodeKind.isTypeDeclaration = false := by rcases isKind with rfl | rfl <;> rfl
  refine stating_start unit inRoot plain sound room ?_ ?_ ?_
  · rw [isMethod]
    rintro _ ⟨⟩
    rcases isKind with rfl | rfl <;> rfl
  · intro node data middle binding opens isPlain fits
    refine (completes_setReference opens (.inl List.mem_cons_self) isPlain fits).imp ?_
    rintro _ _ ⟨⟨_, rfl⟩, opens⟩
    exact ⟨_, _, rfl, opens⟩
  rintro node _ _ ⟨builder, data, rfl, opens, isKind, isRole, isSpan, isBinding⟩
  refine (opens_lowerModifiers unit handles inRoot low opens (isSpan ▸ covers_refl _)
    annotations_subset).bind ?_
  rintro _ modified ⟨_, _, _, _, -, opens, -⟩
  have room : covers (modified.tree.span modified.builder.current) phrase.span :=
    opens.room (isSpan ▸ covers_refl _)
  have stillHomed := fun is => opens.homed (isKind ▸ noType) (homed is)
  refine .via (fun _ after => ∃ news, Advances root base phrase.numbers [] news modified after)
    (advances_inMethod _ _ opens.sound ?_) ?_
  · intro methodTypeParameters methods scopes entered
    refine (lined_lowerParameterList unit inRoot entered room
      fun parameter isParameter isLow middle sound room => names_lowerParameter unit handles
        isParameter (Nat.le_trans isLow low) sound room).bind ?_
    rintro _ middle ⟨listed, first, -⟩
    have first : Advances root base phrase.numbers [] listed _ middle :=
      first.imp (fun _ => numbersOf_subset fun list isList =>
        mem_all_of_part (mem_parts_of_slot (Option.mem_toList.1 isList))) fun _ => Nat.le_refl _
    refine .optionForM (fun body isBody => ?_) fun _ => ⟨listed, first⟩
    have isPart := mem_parts_of_slot isBody
    refine (handles body (mem_all_trans inRoot (mem_all_of_part isPart))
      (Nat.le_of_lt_succ (Nat.lt_of_lt_of_le (height_lt_of_part isPart) low)) .body middle
      first.sound ⟨places_body unit inRoot isMethod
        (fun is => first.homed entered.toSteady (by simp) (stillHomed is)) isPart,
        first.room entered (covers_trans room (unit.nested phrase inRoot body isPart))⟩).bind ?_
    rintro _ after ⟨news, handled⟩
    exact .pure ⟨listed ++ news, first.trans
      (handled.advances.drop (numbers_sublist (mem_all_of_part isPart)).subset)⟩
  · rintro _ after ⟨news, advances⟩
    have opens := opens.within advances (List.Subset.refl _)
    refine (makes_finish opens fun _ => opens.bound_of_plain (isKind ▸ plain)).bind ?_
    rintro _ _ ⟨-, makes⟩
    exact .pure ⟨_, _, makes, isKind, isRole, isBinding⟩

end

end Lower

end JavaInspect.Java
