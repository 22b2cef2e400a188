import JavaInspect.Java.Lowering.Declarations
import JavaInspect.Proofs.Java.Progress

/-!
# Lowering the parts of a phrase

A phrase is lowered with a step that lowers its parts. What is asked of the step is what lowering
itself turns out to do: the nodes of a part are added to the current node, in the role that was asked
for, and those of a member of a body carry the bindings that the member was declared with.
-/

namespace JavaInspect.Java

open Phrase Lowering

/-- What belongs to a constructor: its declaration, its body, and a call of another one. -/
def Construct.isOfConstructor : Construct → Bool
  | .constructorDeclaration | .constructorBody | .explicitConstructorInvocation => true
  | _ => false

/-- Constructs that hold no body of a type and nothing that belongs to a constructor. -/
def Construct.isOrdinary : Construct → Bool
  | .classDeclaration | .interfaceDeclaration | .enumDeclaration | .recordDeclaration
  | .annotationTypeDeclaration | .enumConstant | .objectCreationExpression | .classBody | .enumBody
  | .enumBodyDeclarations | .constructorDeclaration | .constructorBody => false
  | _ => true

namespace Lowering

/-- The innermost open type declaration is that of the innermost class in scope. -/
def Homed (state : Lowering) : Prop :=
  ∃ node scope,
    state.builder.opened.find? (fun node => (state.tree.kind node).isTypeDeclaration) = some node ∧
      state.classes.head? = some scope ∧ state.tree.binding node = some scope.binding

/-- Whether a phrase stands where it can be lowered: no body of a type does, and what belongs to a
constructor does where the class around it is in scope. -/
structure Places (state : Lowering) (phrase : Phrase) : Prop where
  noTypeBody : phrase.construct.isTypeBody = false
  noRest : phrase.construct ≠ .enumBodyDeclarations
  homed : phrase.construct.isOfConstructor → state.Homed

/-- Whether a phrase can be lowered inside the current node. -/
structure Admits (state : Lowering) (phrase : Phrase) : Prop extends Places state phrase where
  room : covers (state.tree.span state.builder.current) phrase.span

/-- All local types have been announced, except for one that no node mentions yet. -/
def Awaits (state : Lowering) (type : BindingId) : Prop :=
  ∀ entry ∈ state.localTypes, (∃ node, state.tree.Announces entry.2 node) ∨
    entry.2 = type ∧ ∀ node, ¬ state.tree.Mentions type node

/-- A node for a phrase with nothing said about it. -/
abbrev fresh (state : Lowering) (kind : NodeKind) (phrase : Phrase) (role : Role) : NodeData :=
  { kind, span := phrase.span, role, parent := some state.builder.current }

end Lowering

/-- The types for which nodes are due when a phrase is lowered. -/
def due (declared : Declared) (phrase : Phrase) : List BindingId :=
  if (declared.lookup phrase.number).isSome then typesOf declared [phrase] else []

/-- A node that declares what a phrase does. -/
structure Stands (declared : Declared) (phrase : Phrase) (view : NodeData) : Prop where
  binding : ∀ binding, declared.lookup phrase.number = some binding → view.binding = some binding
  isConstructor : view.kind = .constructor ↔ phrase.construct.isConstructor

/-- What the nodes are like that a phrase becomes. -/
structure Yields (phrase : Phrase) (role : Role) (declared : Declared) (views : List NodeData) :
    Prop where
  kinds : ∀ view ∈ views, view.kind ≠ .arguments ∧ view.kind ≠ .parameters
  roles : phrase.construct.isAnnotationUse = false → ∀ view ∈ views, view.role = role
  comment : phrase.isComment → views = []
  members : phrase.construct.isBodyPart → List.Forall₂ (Stands declared) phrase.declarations
    (views.filter (·.kind.declaresMember))

/-- What the node of the arguments of a call is like: it has a child for each of them. -/
structure Argues (phrase : Phrase) (views : List NodeData) : Prop where
  plain : ∀ view ∈ views, view.kind = .arguments ∧ view.role = .plain
  count : phrase.construct.isAnnotationUse = false →
    (views.head?.map (·.children.length)).getD 0 = Phrase.argumentCount (phrase.part? .arguments)

/-- A phrase has been lowered to new nodes. -/
structure Handled (root : Phrase) (base : Nat) (phrase : Phrase) (role : Role) (before : Lowering)
    (answer : Option NodeId) (news : List NodeId) (after : Lowering) : Prop where
  advances : Advances root base phrase.numbers (due before.declared phrase) news before after
  answers : phrase.construct.isExpression → ∃ node, answer = some node ∧ news = [node]
  yields : Yields phrase role before.declared (news.map after.tree.data)

/-- A step that lowers what stands where it can be lowered, down to a depth. -/
def Handles (root : Phrase) (base : Nat) (step : Lower.Step) (depth : Nat) : Prop :=
  ∀ phrase ∈ root.all, phrase.height ≤ depth → ∀ (role : Role) (before : Lowering),
    Sound root base before → before.Admits phrase →
      Lower.Ensures (step phrase role) before fun answer after =>
        ∃ news, Handled root base phrase role before answer news after

variable {root phrase inner name : Phrase} {base depth : Nat} {scope narrow : List Nat}
  {due further : List BindingId} {opened news : List NodeId} {node : NodeId} {data : NodeData}
  {below : List NodeData} {before middle after : Lowering} {source : Source} {role : Role}
  {nodeKind : NodeKind} {binding type : BindingId} {step : Lower.Step}

/-! ## Where phrases stand -/

theorem Construct.not_restricted {inner outer : Construct} (fits : inner.fitsIn outer)
    (ordinary : outer.isOrdinary) : inner.isTypeBody = false ∧ inner ≠ .enumBodyDeclarations ∧
      inner.isOfConstructor = false := by
  cases inner
  case classBody =>
    simp only [fitsIn, List.contains_cons, List.contains_nil, Bool.or_eq_true, beq_iff_eq,
      Bool.or_false] at fits
    rcases fits with rfl | rfl | rfl | rfl <;> cases ordinary
  case interfaceBody | annotationTypeBody | enumBody | enumBodyDeclarations | constructorBody |
      explicitConstructorInvocation =>
    simp only [fitsIn, beq_iff_eq] at fits
    subst fits
    cases ordinary
  case constructorDeclaration =>
    simp only [fitsIn, Bool.or_eq_true, beq_iff_eq] at fits
    rcases fits with rfl | rfl <;> cases ordinary
  all_goals exact ⟨rfl, nofun, rfl⟩

namespace Lowering

theorem Places.of_ordinary {part : Phrase} (unit : root.Grammatical) (inRoot : phrase ∈ root.all)
    (ordinary : phrase.construct.isOrdinary) (isPart : part ∈ phrase.parts) (state : Lowering) :
    state.Places part := by
  have restricted := Construct.not_restricted ((unit.shaped phrase inRoot).home part isPart) ordinary
  refine ⟨restricted.1, restricted.2.1, fun isOf => ?_⟩
  rw [restricted.2.2] at isOf
  cases isOf

theorem Sound.awaits (sound : Sound root base before) : before.Awaits type :=
  fun entry isLocal => .inl (sound.announced entry isLocal)

theorem Places.imp {part : Phrase} (places : before.Places part) (homed : before.Homed → after.Homed) :
    after.Places part :=
  ⟨places.noTypeBody, places.noRest, fun isOf => homed (places.homed isOf)⟩

/-- The class in scope is that of the same node as long as no type declaration is opened. -/
theorem Progress.homed (progress : Progress root base scope due opened news before after)
    (start : Steady root base before)
    (noTypes : ∀ node ∈ opened, (after.tree.kind node).isTypeDeclaration = false)
    (homed : before.Homed) : after.Homed := by
  rcases homed with ⟨node, scope, isFirst, isScope, isBinding⟩
  have old := start.rooted.openedInside node (List.mem_of_find?_eq_some isFirst)
  refine ⟨node, scope, ?_, progress.classes ▸ isScope, (progress.extended.binding old).trans isBinding⟩
  have notOpened : opened.find? (fun node => (after.tree.kind node).isTypeDeclaration) = none := by
    simpa [List.find?_eq_none] using noTypes
  rw [progress.opened, List.find?_append, notOpened, Option.none_or, ← isFirst]
  exact List.find?_congr fun other isOpen => by
    rw [progress.extended.kind (start.rooted.openedInside other isOpen)]

/-- There is as much room in the current node as before. -/
theorem Progress.room (advances : Advances root base scope due news before after)
    (start : Sound root base before)
    (room : covers (before.tree.span before.builder.current) inner.span) :
    covers (after.tree.span after.builder.current) inner.span := by
  have current : after.builder.current = before.builder.current := by
    rw [TreeBuilder.current, TreeBuilder.current, advances.opened, List.nil_append]
  have sameSpan : after.tree.span before.builder.current = before.tree.span before.builder.current :=
    advances.extended.read NodeData.span (fun _ _ => rfl) start.rooted.current_inside
  rw [current, sameSpan]
  exact room

namespace Builds

theorem homed (opens : Opens root base scope due node data below before after)
    (noType : data.kind.isTypeDeclaration = false) (homed : before.Homed) : after.Homed := by
  refine opens.toProgress.homed opens.start (fun other isNode => ?_) homed
  obtain rfl := List.mem_singleton.1 isNode
  rw [Tree.kind, opens.isData, noType]

theorem room (opens : Opens root base scope due node data below before after)
    (room : covers data.span inner.span) :
    covers (after.tree.span after.builder.current) inner.span := by
  have isCurrent : after.builder.current = node := by
    rw [TreeBuilder.current, opens.opened]
    rfl
  rw [isCurrent, Tree.span, opens.isData]
  exact room

theorem fits (builds : Builds root base scope due opened node data below before after) :
    data.Fits after.table :=
  builds.isData ▸ builds.sound.fits node

/-- Nothing is asked of the bindings of an open node, or of one of a kind without further meaning. -/
theorem free_bound (builds : Builds root base scope due opened node data below before after)
    {change : NodeData → NodeData} (free : node ∈ opened ∨ data.kind.isPlain)
    (sameKind : ∀ data, (change data).kind = data.kind) :
    node ∈ opened ∨ (Unmixed root base after.declared →
      (after.builder.modify node change).build.Bound after.table node) := by
  refine free.imp_right fun plain _ => .of_plain ?_
  rw [Tree.kind, TreeBuilder.read_build_modify NodeData.kind sameKind]
  exact builds.isData ▸ plain

theorem bound_of_plain (builds : Builds root base scope due opened node data below before after)
    (plain : data.kind.isPlain) : after.tree.Bound after.table node := by
  refine .of_plain ?_
  rw [Tree.kind, builds.isData]
  exact plain

/-- The table has been added to. -/
theorem widen (builds : Builds root base scope due opened node data below before middle)
    (unit : root.Grammatical) (widens : middle.Widens after) :
    Builds root base scope due opened node data below before after := by
  have sound := builds.sound.widens unit widens
  rcases widens with ⟨table, rfl, widens⟩
  exact { builds with sound := sound, grows := builds.grows.trans widens.grows.none }

/-- Part of an open node is lowered, and it does not matter what was due. -/
theorem within (opens : Opens root base scope due node data below before middle)
    (advances : Advances root base narrow further news middle after) (subset : narrow ⊆ scope) :
    Opens root base scope due node { data with children := data.children ++ news }
      (below ++ news.map after.tree.data) before after :=
  (opens.inner (advances.drop subset)).imp (List.Subset.refl _) fun type => by
    rw [List.append_nil]

end Builds

end Lowering

/-! ## Single steps on a node -/

namespace Lower

namespace Ensures

/-- Two steps, with what is claimed in between. -/
theorem via {Answer Next : Type} {action : Lower Answer} {next : Answer → Lower Next}
    {final : Next → Lowering → Prop} (claim : Answer → Lowering → Prop)
    (first : Ensures action before claim)
    (second : ∀ answer middle, claim answer middle → Ensures (next answer) middle final) :
    Ensures (action >>= next) before final :=
  first.bind second

theorem optionForM {Item : Type} {item : Option Item} {action : Item → Lower PUnit}
    {claim : PUnit → Lowering → Prop}
    (present : ∀ found, item = some found → Ensures (action found) before claim)
    (absent : item = none → claim ⟨⟩ before) : Ensures (item.forM action) before claim := by
  cases item with
  | none => exact absent rfl
  | some found => exact present found rfl

theorem inScope {Answer : Type} {action : Lower Answer} {claim : Answer → Lowering → Prop}
    (inside : Ensures action { before with scopes := [] :: before.scopes }
      fun answer after => claim answer { after with scopes := after.scopes.tail }) :
    Ensures (inScope action) before claim :=
  inside

end Ensures

/-- A node has been completed; besides the tree all is as before. -/
def Completes (root : Phrase) (base : Nat) (scope : List Nat) (due : List BindingId)
    (opened : List NodeId) (node : NodeId) (data : NodeData) (below : List NodeData)
    (before after later : Lowering) : Prop :=
  (∃ builder, later = { after with builder }) ∧
    Builds root base scope due opened node data below before later

theorem opens_fresh (scope : List Nat) (sound : Sound root base before)
    (room : covers (before.tree.span before.builder.current) phrase.span) :
    Opens root base scope [] ⟨before.tree.size⟩ (before.fresh nodeKind phrase role) [] before
      { before with
        builder := before.builder.place nodeKind phrase.span fun data => { data with role } } :=
  Builds.place sound.toSteady (fun data => { data with role }) (fun _ => ⟨rfl, rfl, rfl, rfl⟩) room
    ⟨nofun, nofun, nofun⟩ nofun (fun type => by rw [List.count_nil]; exact Nat.zero_le _)
    fun entry isLocal => (sound.announced entry isLocal).imp fun _ => sound.rooted.announces_place

theorem opens_start (scope : List Nat) (sound : Sound root base before)
    (room : covers (before.tree.span before.builder.current) phrase.span) :
    Ensures (start nodeKind phrase role) before fun node => Completes root base scope [] [node] node
      (before.fresh nodeKind phrase role) [] before before :=
  ⟨⟨_, rfl⟩, opens_fresh scope sound room⟩

/-- A node for a type declaration, which has its binding from the start. -/
abbrev declaring (state : Lowering) (kind : NodeKind) (phrase : Phrase) (role : Role)
    (type : BindingId) : Lowering :=
  { state with
    builder := state.builder.place kind phrase.span
      fun data => { data with role, binding := some type, typeBinding := some type } }

theorem ensures_startType {Answer : Type} {rest : NodeId → Lower Answer}
    {claim : Answer → Lowering → Prop}
    (goesOn : Ensures (rest ⟨before.tree.size⟩) (declaring before nodeKind phrase role type) claim) :
    Ensures (do
      let node ← start nodeKind phrase role
      setBinding node type
      setTypeBinding node type
      rest node) before claim := by
  have same : (((before.builder.start nodeKind phrase.span).2.setRole ⟨before.tree.size⟩ role).setBinding
      ⟨before.tree.size⟩ type).setTypeBinding ⟨before.tree.size⟩ type =
        before.builder.place nodeKind phrase.span
          fun data => { data with role, binding := some type, typeBinding := some type } := by
    rw [TreeBuilder.setTypeBinding, TreeBuilder.setBinding, TreeBuilder.setRole,
      TreeBuilder.modify_modify, TreeBuilder.modify_modify]
    rfl
  unfold declaring at goesOn
  rw [← same] at goesOn
  exact goesOn

/-- A type declaration is bound to its type as soon as its node is opened. -/
theorem opens_declaring (scope : List Nat) (steady : Steady root base before)
    (room : covers (before.tree.span before.builder.current) phrase.span)
    (isDeclaration : nodeKind.isTypeDeclaration) (isType : before.table.Holds .type type)
    (begins : Begins root before phrase.span type) (awaited : before.Awaits type) :
    Opens root base scope [type] ⟨before.tree.size⟩
      { before.fresh nodeKind phrase role with binding := some type, typeBinding := some type } []
        before (declaring before nodeKind phrase role type) := by
  have bears : nodeKind.bears .type := by
    cases nodeKind <;> first | rfl | cases isDeclaration
  refine Builds.place steady
    (fun data => { data with role, binding := some type, typeBinding := some type })
    (fun _ => ⟨rfl, rfl, rfl, rfl⟩) room ⟨nofun, ?_, ?_⟩ ?_ (fun other => ?_) fun entry isLocal => ?_
  · rintro _ ⟨⟩
    exact ⟨isType.1, isType.2 ▸ bears⟩
  · rintro _ ⟨⟩
    exact isType
  · rintro - _ ⟨⟩
    exact begins
  · rw [isDeclaration, List.count_singleton]
    simp
  · rcases awaited entry isLocal with ⟨node, announced⟩ | ⟨rfl, unmentioned⟩
    · exact ⟨node, steady.rooted.announces_place announced⟩
    · exact ⟨_, steady.rooted.announces_new isDeclaration (fun _ => rfl) (fun _ => rfl) unmentioned⟩

section Updates

variable (builds : Builds root base scope due opened node data below before after)
  (free : node ∈ opened ∨ data.kind.isPlain)
include builds free

theorem completes_setName (room : covers data.span name.span) (text : String) :
    Ensures (updateTree (·.setName node text name.span)) after fun _ => Completes root base scope due
      opened node { data with name := some text, nameSpan := some name.span } below before after :=
  ⟨⟨_, rfl⟩, builds.update
    (fun data => { data with name := some text, nameSpan := some name.span })
    (fun _ => ⟨rfl, rfl, rfl, rfl⟩) (fun _ => rfl) (builds.free_bound free (fun _ => rfl)) ⟨by
      rintro _ ⟨⟩
      exact room, builds.fits.binding, builds.fits.typeBinding⟩⟩

theorem completes_setText (text : String) :
    Ensures (updateTree (·.setText node text)) after fun _ => Completes root base scope due opened
      node { data with text := some text } below before after :=
  ⟨⟨_, rfl⟩, builds.update (fun data => { data with text := some text })
    (fun _ => ⟨rfl, rfl, rfl, rfl⟩) (fun _ => rfl) (builds.free_bound free (fun _ => rfl))
    ⟨builds.fits.name, builds.fits.binding, builds.fits.typeBinding⟩⟩

theorem completes_addModifier (modifier : Modifier) :
    Ensures (updateTree (·.addModifier node modifier)) after fun _ => Completes root base scope due
      opened node { data with modifiers := data.modifiers ++ [modifier] } below before after :=
  ⟨⟨_, rfl⟩, builds.update (fun data => { data with modifiers := data.modifiers ++ [modifier] })
    (fun _ => ⟨rfl, rfl, rfl, rfl⟩) (fun _ => rfl) (builds.free_bound free (fun _ => rfl))
    ⟨builds.fits.name, builds.fits.binding, builds.fits.typeBinding⟩⟩

theorem completes_setBinding (noType : data.kind.isTypeDeclaration = false)
    (fits : binding.index < after.table.size ∧ data.kind.bears (after.table.entry binding).kind) :
    Ensures (setBinding node binding) after fun _ => Completes root base scope due opened node
      { data with binding := some binding } below before after :=
  ⟨⟨_, rfl⟩, builds.update (fun data => { data with binding := some binding })
    (fun _ => ⟨rfl, rfl, rfl, rfl⟩) (fun isType => by rw [noType] at isType; cases isType)
    (builds.free_bound free (fun _ => rfl))
    ⟨builds.fits.name, by
      rintro _ ⟨⟩
      exact fits, builds.fits.typeBinding⟩⟩

theorem completes_setTypeBinding (isType : after.table.Holds .type type) :
    Ensures (setTypeBinding node type) after fun _ => Completes root base scope due opened node
      { data with typeBinding := some type } below before after :=
  ⟨⟨_, rfl⟩, builds.update (fun data => { data with typeBinding := some type })
    (fun _ => ⟨rfl, rfl, rfl, rfl⟩) (fun _ => rfl) (builds.free_bound free (fun _ => rfl))
    ⟨builds.fits.name, builds.fits.binding, by
      rintro _ ⟨⟩
      exact isType⟩⟩

/-- A node that refers to a method or field has its declared type. -/
theorem completes_setReference (noType : data.kind.isTypeDeclaration = false)
    (fits : binding.index < after.table.size ∧ data.kind.bears (after.table.entry binding).kind) :
    Ensures (setReference node binding) after fun _ => Completes root base scope due opened node
      { data with
        binding := some binding
        typeBinding := (after.table.entry binding).declaredType.or data.typeBinding }
      below before after := by
  refine (completes_setBinding builds free noType fits).bind ?_
  rintro _ _ ⟨⟨builder, rfl⟩, bound⟩
  refine .step ?_
  split
  case h_1 type found =>
    replace found : (after.table.entry binding).declaredType = some type := found
    have isType := builds.sound.consistent.typed.declaredType binding type found
    rw [found]
    exact completes_setTypeBinding bound free isType
  case h_2 absent =>
    cases found : (after.table.entry binding).declaredType with
    | none => exact ⟨⟨_, rfl⟩, bound⟩
    | some type => exact (absent type found).elim

end Updates

theorem makes_leaf (scope : List Nat) (sound : Sound root base before)
    (room : covers (before.tree.span before.builder.current) phrase.span)
    (noType : nodeKind.isTypeDeclaration = false) :
    Ensures (leaf nodeKind phrase role) before fun node after =>
      Makes root base scope [] node (before.fresh nodeKind phrase role) [] before after := by
  have opens : Opens root base scope [] _ (before.fresh nodeKind phrase role) [] before _ :=
    opens_fresh scope sound room
  refine opens.close fun _ => .of_unbound ?_ ?_
  · rw [Tree.kind, opens.isData, noType]
  · rw [Tree.binding, opens.isData]

theorem makes_finish (opens : Opens root base scope due node data below before after)
    (bound : Unmixed root base after.declared → after.tree.Bound after.table node) :
    Ensures finish after fun _ => Completes root base scope due [] node data below before after :=
  ⟨⟨_, rfl⟩, opens.close bound⟩

end Lower

/-! ## Parts, arguments and annotations -/

section Parts

variable (unit : root.Grammatical) (handles : Handles root base step depth)

/-- A part of an open node is lowered by the step. -/
theorem Handles.inside (handles : Handles root base step depth)
    (opens : Opens root base scope due node data below before middle)
    (inRoot : inner ∈ root.all) (low : inner.height ≤ depth) (places : middle.Places inner)
    (room : covers data.span inner.span) (subset : inner.numbers ⊆ scope) (role : Role) :
    Lower.Ensures (step inner role) middle fun answer after =>
      ∃ news, Handled root base inner role middle answer news after ∧
        Opens root base scope due node { data with children := data.children ++ news }
          (below ++ news.map after.tree.data) before after := by
  refine (handles inner inRoot low role middle opens.sound ⟨places, opens.room room⟩).imp ?_
  rintro answer after ⟨news, handled⟩
  exact ⟨news, handled, opens.within handled.advances subset⟩

namespace Lower

include unit handles

/-- A phrase that becomes a node with a child for every part that has one. -/
theorem makes_lowerParts (inRoot : phrase ∈ root.all) (low : phrase.height ≤ depth + 1)
    (sound : Sound root base before)
    (room : covers (before.tree.span before.builder.current) phrase.span)
    (plain : nodeKind.isPlain) (places : ∀ part ∈ phrase.namedParts, before.Places part) (role : Role) :
    Ensures (lowerParts step nodeKind phrase role) before fun node after => ∃ news views,
      Makes root base phrase.numbers [] node
        { before.fresh nodeKind phrase role with children := news } views before after ∧
      (phrase.construct = .argumentList → news.length = Phrase.argumentCount (some phrase)) := by
  have noType : nodeKind.isTypeDeclaration = false := by
    cases nodeKind <;> first | rfl | cases plain
  refine (opens_start phrase.numbers sound room).bind fun node opened ⟨_, opens⟩ => ?_
  have parts : Ensures (phrase.namedParts.forM fun part => do
      let _ ← step part .plain) opened fun _ after => ∃ news views,
        Opens root base phrase.numbers [] node
          { before.fresh nodeKind phrase role with children := news } views before after ∧
        (phrase.construct = .argumentList → news.length = Phrase.argumentCount (some phrase)) := by
    refine (Ensures.forM (fun rest after => ∃ done news views, phrase.namedParts = done ++ rest ∧
        Opens root base phrase.numbers [] node
          { before.fresh nodeKind phrase role with children := news } views before after ∧
        (phrase.construct = .argumentList → news.length = (done.filter (!·.isComment)).length))
      ⟨[], [], [], rfl, opens, fun _ => rfl⟩ ?_).imp ?_
    rotate_left
    · rintro _ after ⟨done, news, views, split, opens, counted⟩
      refine ⟨news, views, opens, ?_⟩
      rw [Phrase.argumentCount, split, List.append_nil]
      exact counted
    rintro part rest middle ⟨done, news, views, split, opens, counted⟩
    have isNamed : part ∈ phrase.namedParts := by simp [split]
    have isPart := mem_parts_of_named isNamed
    have inRootToo := mem_all_trans inRoot (mem_all_of_part isPart)
    refine (handles.inside opens inRootToo (Nat.le_of_lt_succ (Nat.lt_of_lt_of_le
      (height_lt_of_part isPart) low)) ((places part isNamed).imp (opens.homed noType))
      (unit.nested phrase inRoot part isPart) (numbers_sublist (mem_all_of_part isPart)).subset
      .plain).bind ?_
    rintro answer after ⟨more, handled, opens⟩
    refine .pure ⟨done ++ [part], news ++ more, _, by simp [split], opens, fun isList => ?_⟩
    rw [List.length_append, counted isList, List.filter_append, List.length_append]
    congr 1
    cases isComment : part.isComment with
    | true =>
        have none : more = [] := List.map_eq_nil_iff.1 (handled.yields.comment isComment)
        simp [none, isComment]
    | false =>
        have isExpression := ((unit.shaped phrase inRoot).arguments isList part isNamed).resolve_left
          (by rw [isComment]; exact Bool.false_ne_true)
        rcases handled.answers isExpression with ⟨node, -, rfl⟩
        simp [isComment]
  refine parts.bind fun _ after ⟨news, views, opens, counted⟩ => ?_
  exact (makes_finish opens fun _ => opens.bound_of_plain plain).bind fun _ later ⟨_, makes⟩ =>
    .pure ⟨news, views, makes, counted⟩

/-- The argument list of an open node is lowered. -/
theorem opens_lowerArguments (inRoot : phrase ∈ root.all) (low : phrase.height ≤ depth + 1)
    (opens : Opens root base phrase.numbers due node data below before middle)
    (room : covers data.span phrase.span) :
    Ensures (lowerArguments step (phrase.part? .arguments)) middle fun _ after => ∃ news views,
      Advances root base phrase.numbers [] news middle after ∧ Argues phrase views ∧
        Opens root base phrase.numbers due node { data with children := data.children ++ news }
          (below ++ views) before after := by
  unfold lowerArguments
  split
  case h_2 noList =>
    have absent : phrase.part? .arguments = none := by
      cases found : phrase.part? .arguments with
      | none => rfl
      | some list => exact (noList list found).elim
    refine .pure ⟨[], [], .refl opens.sound, ⟨by simp, fun _ => by rw [absent]; rfl⟩, ?_⟩
    simpa using opens
  case h_1 list isList =>
    have isPart := mem_parts_of_slot isList
    have listInRoot := mem_all_trans inRoot (mem_all_of_part isPart)
    have isConstruct := (unit.shaped phrase inRoot).argumentLists list isList
    have ordinary : list.construct.isOrdinary := by
      rw [isConstruct]
      split <;> rfl
    refine (makes_lowerParts unit handles listInRoot
      (Nat.le_trans (Nat.le_of_lt (height_lt_of_part isPart)) low) opens.sound
      (opens.room (covers_trans room (unit.nested phrase inRoot list isPart))) rfl
      (fun part isNamed => .of_ordinary unit listInRoot ordinary (mem_parts_of_named isNamed) _)
      .plain).bind ?_
    rintro node after ⟨news, views, makes, counted⟩
    have advances := makes.toProgress.imp (numbers_sublist (mem_all_of_part isPart)).subset
      (fun _ => Nat.le_refl _)
    refine .pure ⟨[node], [after.tree.data node], advances, ?_,
      opens.within advances (List.Subset.refl _)⟩
    rw [makes.isData]
    refine ⟨fun view isView => ?_, fun noUse => ?_⟩
    · obtain rfl := List.mem_singleton.1 isView
      exact ⟨rfl, rfl⟩
    · rw [noUse] at isConstruct
      rw [isList]
      exact counted isConstruct

/-- An annotation is bound to its type. -/
theorem makes_lowerAnnotationUse (inRoot : phrase ∈ root.all) (low : phrase.height ≤ depth + 1)
    (sound : Sound root base before)
    (room : covers (before.tree.span before.builder.current) phrase.span) :
    Ensures (lowerAnnotationUse source step phrase) before fun node after => ∃ data views,
      Makes root base phrase.numbers [] node data views before after ∧ data.kind = .annotationUse ∧
        data.role = .plain := by
  have rest : ∀ node data middle, data.kind = .annotationUse → data.role = .plain →
      data.span = phrase.span → Opens root base phrase.numbers [] node data [] before middle →
      Ensures (do
        lowerArguments step (phrase.part? .arguments)
        finish
        return node) middle fun node after => ∃ data views,
          Makes root base phrase.numbers [] node data views before after ∧
            data.kind = .annotationUse ∧ data.role = .plain := by
    intro node data middle isKind isRole isSpan opens
    refine (opens_lowerArguments unit handles inRoot low opens (isSpan ▸ covers_refl _)).bind ?_
    rintro _ after ⟨news, views, -, -, opens⟩
    refine (makes_finish opens fun _ => opens.bound_of_plain ?_).bind fun _ later ⟨_, makes⟩ =>
      .pure ⟨_, _, makes, isKind, isRole⟩
    rw [show NodeData.kind _ = .annotationUse from isKind]
    rfl
  refine (opens_start phrase.numbers sound room).bind fun node middle ⟨_, opens⟩ => ?_
  dsimp only
  split
  case h_2 => exact rest node _ middle rfl rfl rfl opens
  case h_1 name isName =>
    have isPart := mem_parts_of_slot isName
    refine (refers_resolveTypeName opens.sound.readable _).bind fun type widened refers => ?_
    have opens := opens.widen unit refers.1
    refine (completes_setName opens (.inl List.mem_cons_self)
      (unit.nested phrase inRoot name isPart) _).bind ?_
    rintro _ _ ⟨⟨_, rfl⟩, opens⟩
    refine (completes_setBinding opens (.inl List.mem_cons_self) rfl
      ⟨refers.2.1, by rw [refers.2.2]; rfl⟩).bind ?_
    rintro _ _ ⟨⟨_, rfl⟩, opens⟩
    refine (completes_setTypeBinding opens (.inl List.mem_cons_self) refers.2).bind ?_
    rintro _ _ ⟨-, opens⟩
    exact rest node _ _ rfl rfl rfl opens

/-- The modifiers and annotations of a declaration become part of its open node. -/
theorem opens_lowerModifiers (inRoot : phrase ∈ root.all) (low : phrase.height ≤ depth + 1)
    (opens : Opens root base scope due node data below before middle)
    (room : covers data.span phrase.span) (subset : numbersOf phrase.annotations ⊆ scope) :
    Ensures (lowerModifiers source step node phrase) middle fun _ after =>
      ∃ builder modifiers news views,
        Advances root base (numbersOf phrase.annotations) [] news { middle with builder } after ∧
        Opens root base scope due node
          { data with modifiers, children := data.children ++ news } (below ++ views) before after ∧
        ∀ view ∈ views, view.kind = .annotationUse ∧ view.role = .plain := by
  have keywords : Ensures ((phrase.modifiers source.text).forM fun modifier =>
      updateTree (·.addModifier node modifier)) middle fun _ after =>
        ∃ builder modifiers, after = { middle with builder } ∧
          Opens root base scope due node { data with modifiers } below before after := by
    refine .forM (fun _ after => ∃ builder modifiers, after = { middle with builder } ∧
      Opens root base scope due node { data with modifiers } below before after)
      ⟨_, _, rfl, opens⟩ ?_
    rintro modifier rest _ ⟨builder, modifiers, rfl, opens⟩
    refine (completes_addModifier opens (.inl List.mem_cons_self) modifier).imp ?_
    rintro _ _ ⟨⟨later, rfl⟩, opens⟩
    exact ⟨later, _, rfl, opens⟩
  refine keywords.bind ?_
  rintro _ _ ⟨builder, modifiers, rfl, opens⟩
  refine (Ensures.forM (fun rest after => ∃ done news views, phrase.annotations = done ++ rest ∧
    Advances root base (numbersOf phrase.annotations) [] news { middle with builder } after ∧
      Opens root base scope due node
        { data with modifiers, children := data.children ++ news } (below ++ views) before after ∧
      ∀ view ∈ views, view.kind = .annotationUse ∧ view.role = .plain)
    ⟨[], [], [], rfl, .refl opens.sound, by simpa using opens, by simp⟩ ?_).imp ?_
  · rintro use rest current ⟨done, news, views, split, advances, opens, plain⟩
    have isUse : use ∈ phrase.annotations := by simp [split]
    rcases mem_annotations isUse with ⟨list, isList, -, inList, -⟩
    have inside := mem_all_trans (mem_all_of_part isList) (mem_all_of_part inList)
    have isLow := Nat.lt_trans (height_lt_of_part inList) (height_lt_of_part isList)
    refine (makes_lowerAnnotationUse unit handles (mem_all_trans inRoot inside)
      (Nat.le_trans (Nat.le_of_lt isLow) low) opens.sound
      (opens.room (covers_trans room (unit.covers_of_mem_all inRoot inside)))).bind ?_
    rintro child after ⟨childData, childBelow, makes, isKind, isRole⟩
    have narrow : use.numbers ⊆ numbersOf phrase.annotations :=
      ((all_sublist_allOf isUse).map _).subset
    have further := makes.toProgress.imp narrow fun _ => Nat.le_refl _
    have opens := opens.within further subset
    refine .pure ⟨done ++ [use], news ++ [child], views ++ [after.tree.data child], by simp [split],
      advances.trans further, ?_, ?_⟩
    · rw [← List.append_assoc, ← List.append_assoc]
      exact opens
    · intro view isView
      rcases List.mem_append.1 isView with old | isNew
      · exact plain view old
      · obtain rfl := List.mem_singleton.1 isNew
        rw [makes.isData]
        exact ⟨isKind, isRole⟩
  · rintro _ after ⟨_, news, views, -, advances, opens, plain⟩
    exact ⟨builder, modifiers, news, views, advances, opens, plain⟩

end Lower

end Parts

end JavaInspect.Java
