import JavaInspect.Proofs.Java.Soundness

/-!
# Progress of lowering

What lowering part of the current node does: new nodes are added to the current one, whatever was
in scope is in scope again, and only numbers of the part are declared. For every type that came to
be declared a node is built, either by the same step or by one that is still due.
-/

namespace JavaInspect.Java.Lowering

open Phrase

variable {root : Phrase} {base : Nat} {scope wider : List Nat} {due further : List BindingId}
  {opened news more : List NodeId} {node child : NodeId} {data : NodeData}
  {below : List NodeData} {before middle after : Lowering} {members : List Phrase} {span : Span}
  {nodeKind : NodeKind}
  {change : NodeData → NodeData} {type : BindingId}

/-- Nodes have been added to the current one, and `opened` are open inside it. The types that were
due to get a node, or that were declared on the way, have one. -/
structure Progress (root : Phrase) (base : Nat) (scope : List Nat) (due : List BindingId)
    (opened news : List NodeId) (before after : Lowering) : Prop where
  sound : Sound root base after
  classes : after.classes = before.classes
  methods : after.methods = before.methods
  methodTypeParameters : after.methodTypeParameters = before.methodTypeParameters
  scopes : after.scopes.length = before.scopes.length ∧ after.scopes.tail = before.scopes.tail
  opened : after.builder.opened = opened ++ before.builder.opened
  extended : before.builder.Extends after.builder news
  grows : before.table.Grows (fun _ => ¬ Unmixed root base after.declared) after.table
  declared : ∃ new : Declared, after.declared = new ++ before.declared ∧
    ∀ entry ∈ new, entry.1 ∈ scope
  balance : ∀ type, (typeLog root after.declared).count type + before.tree.typeMarks type +
    due.count type ≤ after.tree.typeMarks type + (typeLog root before.declared).count type

/-- The current node is the same before and after. -/
abbrev Advances (root : Phrase) (base : Nat) (scope : List Nat) (due : List BindingId)
    (news : List NodeId) : Lowering → Lowering → Prop :=
  Progress root base scope due [] news

namespace Progress

theorem of_append (progress : Progress root base scope due opened news before after)
    (unmixed : Unmixed root base after.declared) : Unmixed root base before.declared := by
  rcases progress.declared with ⟨new, isNew, -⟩
  exact .of_append (isNew ▸ unmixed)

/-- Where no types share a binding, old bindings mean what they meant. -/
theorem keeps (progress : Progress root base scope due opened news before after)
    (unmixed : Unmixed root base after.declared) : before.table.Keeps after.table :=
  fun binding old => progress.grows.same binding old fun mixed => mixed unmixed

/-- What is not in scope is declared as it was. -/
theorem lookup_eq (progress : Progress root base scope due opened news before after) {number : Nat}
    (absent : number ∉ scope) : after.declared.lookup number = before.declared.lookup number := by
  rcases progress.declared with ⟨new, isNew, inScope⟩
  rw [isNew, Declared.lookup_append_of_not_mem]
  intro isNumber
  rcases List.mem_map.1 isNumber with ⟨entry, isEntry, rfl⟩
  exact absent (inScope entry isEntry)

theorem refl (sound : Sound root base before) : Advances root base scope [] [] before before where
  sound := sound
  classes := rfl
  methods := rfl
  methodTypeParameters := rfl
  scopes := ⟨rfl, rfl⟩
  opened := rfl
  extended := .refl
  grows := .refl
  declared := ⟨[], rfl, nofun⟩
  balance type := by rw [List.count_nil]; omega

/-- More may be declared, and less may be due. -/
theorem imp (progress : Progress root base scope due opened news before after)
    (subset : scope ⊆ wider) (less : ∀ type, further.count type ≤ due.count type) :
    Progress root base wider further opened news before after :=
  { progress with
    declared := by
      rcases progress.declared with ⟨new, isNew, inScope⟩
      exact ⟨new, isNew, fun entry isEntry => subset (inScope entry isEntry)⟩
    balance := fun type => Nat.le_trans (Nat.add_le_add_left (less type) _) (progress.balance type) }

theorem drop (progress : Progress root base scope due opened news before after) (subset : scope ⊆ wider) :
    Progress root base wider [] opened news before after :=
  progress.imp subset fun _ => by rw [List.count_nil]; exact Nat.zero_le _

theorem andThen (first : Advances root base scope due news before middle)
    (second : Progress root base scope further opened more middle after) :
    Progress root base scope (due ++ further) opened (news ++ more) before after where
  sound := second.sound
  classes := second.classes.trans first.classes
  methods := second.methods.trans first.methods
  methodTypeParameters := second.methodTypeParameters.trans first.methodTypeParameters
  scopes := ⟨second.scopes.1.trans first.scopes.1, second.scopes.2.trans first.scopes.2⟩
  opened := by rw [second.opened, first.opened, List.nil_append]
  extended := first.extended.trans second.extended first.opened
  grows := (first.grows.imp fun _ _ mixed unmixed => mixed (second.of_append unmixed)).trans
    second.grows
  declared := by
    rcases first.declared with ⟨new, isNew, inScope⟩
    rcases second.declared with ⟨newer, isNewer, inScopeNewer⟩
    refine ⟨newer ++ new, by rw [isNewer, isNew, List.append_assoc], fun entry isEntry => ?_⟩
    exact (List.mem_append.1 isEntry).elim (inScopeNewer entry) (inScope entry)
  balance type := by
    have sooner := first.balance type
    have later := second.balance type
    rw [List.count_append]
    omega

/-- The same within one scope, where it does not matter what else was due. -/
theorem trans (first : Advances root base scope [] news before middle)
    (second : Progress root base scope [] opened more middle after) :
    Progress root base scope [] opened (news ++ more) before after :=
  first.andThen second

/-- What has been added to the current node stays as it is when more is added. -/
theorem views_eq (first : Advances root base scope due news before middle)
    (second : Progress root base wider further opened more middle after)
    (inside : before.builder.current.index < before.tree.size) :
    news.map after.tree.data = news.map middle.tree.data := by
  refine List.map_congr_left fun node isNew => ?_
  have above := first.extended.isNew node isNew
  refine second.extended.same node above.2 ?_
  rintro rfl
  have isCurrent : middle.builder.current = before.builder.current := by
    rw [TreeBuilder.current, TreeBuilder.current, first.opened, List.nil_append]
  rw [isCurrent] at above
  exact Nat.not_lt.2 above.1 inside

/-! ## Steps that leave the tree alone -/

/-- Only the table was added to. -/
theorem of_widens (unit : root.Grammatical) (sound : Sound root base before)
    (widens : before.Widens after) : Advances root base scope [] [] before after := by
  have later := sound.widens unit widens
  rcases widens with ⟨table, rfl, widens⟩
  exact { refl sound with sound := later, grows := widens.grows.none }

/-- The types in some members have been introduced, and nodes are still due for them. -/
theorem afterIntroduces (introduces : Introduces root base members before middle)
    (progress : Progress root base scope (due ++ typesOf middle.declared members) opened news
      middle after) (subset : numbersOf members ⊆ scope) :
    Progress root base scope due opened news before after := by
  have logged := introduces.logged
  have grows := introduces.grows
  rcases introduces.declared with ⟨new, isNew, inMembers⟩
  rcases introduces.state with ⟨table, declared, localTypes, rfl⟩
  refine { progress with grows := ?_, declared := ?_, balance := fun type => ?_ }
  · exact (grows.imp fun _ _ mixed unmixed => mixed (progress.of_append unmixed)).trans progress.grows
  · rcases progress.declared with ⟨newer, isNewer, inScope⟩
    dsimp only at isNew isNewer
    refine ⟨newer ++ new, by rw [isNewer, isNew, List.append_assoc], fun entry isEntry => ?_⟩
    exact (List.mem_append.1 isEntry).elim (inScope entry)
      fun isOld => subset (inMembers entry isOld)
  · have balance : _ + before.tree.typeMarks type + _ ≤ _ := progress.balance type
    rw [logged, List.count_append, List.count_append, List.count_reverse] at balance
    omega

/-- A local name has been brought into scope. -/
theorem addLocal {name : String} {meaning : Local} {state : Lowering}
    (progress : Progress root base scope due opened news before after)
    (knows : Knows root base after.table after.declared name meaning)
    (added : state = match after.scopes with
      | [] => after
      | scope :: scopes => { after with scopes := ((name, meaning) :: scope) :: scopes }) :
    Progress root base scope due opened news before state := by
  cases isScope : after.scopes with
  | nil =>
      rw [isScope] at added
      exact added ▸ progress
  | cons first rest =>
      rw [isScope] at added
      subst added
      have scopes := progress.scopes
      have sound := progress.sound
      rw [isScope] at scopes
      refine { progress with
        sound := sound.rescope (fun _ => id) (List.forall_mem_cons.2 ⟨?_, fun scope isIn => ?_⟩)
        scopes := ⟨scopes.1, scopes.2⟩ }
      · refine List.forall_mem_cons.2 ⟨knows, ?_⟩
        exact sound.locals first (isScope ▸ List.mem_cons_self)
      · exact sound.locals scope (isScope ▸ List.mem_cons_of_mem _ isIn)

/-! ## Steps with more in scope -/

theorem popScope (progress : Progress root base scope due opened news
      { before with scopes := [] :: before.scopes } after) :
    Progress root base scope due opened news before { after with scopes := after.scopes.tail } := by
  have scopes : after.scopes.tail = before.scopes := progress.scopes.2
  refine { progress with sound := ?_, scopes := ⟨congrArg _ scopes, congrArg _ scopes⟩ }
  exact progress.sound.rescope (fun _ => id)
    fun scope isScope => progress.sound.locals scope (List.mem_of_mem_tail isScope)

theorem popMethod {method : BindingId} (progress : Progress root base scope due opened news
      { before with methods := method :: before.methods } after) :
    Progress root base scope due opened news before { after with methods := after.methods.tail } :=
  { progress with
    sound := progress.sound.rescope (fun _ => id) progress.sound.locals
    methods := congrArg List.tail progress.methods }

theorem popTypeParameters {names : List String} (progress : Progress root base scope due opened news
      { before with methodTypeParameters := names :: before.methodTypeParameters } after) :
    Progress root base scope due opened news before
      { after with methodTypeParameters := after.methodTypeParameters.tail } :=
  { progress with
    sound := progress.sound.rescope (fun _ => id) progress.sound.locals
    methodTypeParameters := congrArg List.tail progress.methodTypeParameters }

theorem popClass {class_ : ClassScope} (progress : Progress root base scope due opened news
      { before with classes := class_ :: before.classes } after) :
    Progress root base scope due opened news before { after with classes := after.classes.tail } :=
  { progress with
    sound := progress.sound.rescope (fun _ isScope => List.mem_of_mem_tail isScope)
      progress.sound.locals
    classes := congrArg List.tail progress.classes }

end Progress

/-! ## Single nodes -/

/-- One node has been added, and its data and those of its children are known. It may still be
open. -/
structure Builds (root : Phrase) (base : Nat) (scope : List Nat) (due : List BindingId)
    (opened : List NodeId) (node : NodeId) (data : NodeData) (below : List NodeData)
    (before after : Lowering) : Prop
    extends Progress root base scope due opened [node] before after where
  start : Steady root base before
  isData : after.tree.data node = data
  isParent : data.parent = some before.builder.current
  isBelow : data.children.map after.tree.data = below

/-- A new node is open. -/
abbrev Opens (root : Phrase) (base : Nat) (scope : List Nat) (due : List BindingId) (node : NodeId) :
    NodeData → List NodeData → Lowering → Lowering → Prop :=
  Builds root base scope due [node] node

/-- A new node is complete. -/
abbrev Makes (root : Phrase) (base : Nat) (scope : List Nat) (due : List BindingId) (node : NodeId) :
    NodeData → List NodeData → Lowering → Lowering → Prop :=
  Builds root base scope due [] node

namespace Builds

theorem isNew (builds : Builds root base scope due opened node data below before after) :
    before.tree.size ≤ node.index ∧ node.index < after.tree.size :=
  builds.extended.isNew node (List.mem_singleton_self _)

theorem above (builds : Builds root base scope due opened node data below before after)
    (isChild : child ∈ data.children) :
    node.index < child.index ∧ child.index < after.tree.size := by
  refine builds.sound.rooted.arranged.childAbove ?_
  rw [Tree.children, show after.builder.build.data node = data from builds.isData]
  exact isChild

/-- Steps that add no node to the current one may come first. -/
theorem prepend (start : Sound root base before)
    (first : Advances root base scope [] [] before middle)
    (second : Builds root base scope due opened node data below middle after) :
    Builds root base scope due opened node data below before after where
  start := start.toSteady
  toProgress := first.andThen second.toProgress
  isData := second.isData
  isParent := by
    rw [second.isParent, TreeBuilder.current, TreeBuilder.current, first.opened, List.nil_append]
  isBelow := second.isBelow

theorem imp (builds : Builds root base scope due opened node data below before after)
    (subset : scope ⊆ wider) (less : ∀ type, further.count type ≤ due.count type) :
    Builds root base wider further opened node data below before after :=
  { builds with toProgress := builds.toProgress.imp subset less }

/-- The parent of the new node is not closed. -/
theorem parent_not_closed (builds : Builds root base scope due opened node data below before after) :
    ¬ after.builder.Closed before.builder.current := by
  intro closed
  have isOpen := builds.opened
  unfold TreeBuilder.current at closed
  cases found : before.builder.opened with
  | nil => exact closed.1 (by rw [found]; rfl)
  | cons first rest =>
      refine closed.2 ?_
      rw [isOpen, found]
      exact List.mem_append_right _ List.mem_cons_self

/-- The new node may be completed while it is open, or with bindings that mean what its kind says. -/
theorem update (builds : Builds root base scope due opened node data below before after)
    (change : NodeData → NodeData) (completing : NodeData.Completing change)
    (sameBinding : data.kind.isTypeDeclaration → (change data).binding = data.binding)
    (bound : node ∈ opened ∨ (Unmixed root base after.declared →
      (after.builder.modify node change).build.Bound after.table node))
    (fits : (change data).Fits after.table) :
    Builds root base scope due opened node (change data) below before
      { after with builder := after.builder.modify node change } := by
  have inside := builds.isNew.2
  have isData : after.builder.build.data node = data := builds.isData
  have isKind : after.tree.kind node = data.kind := congrArg NodeData.kind isData
  have isParent : after.tree.parent node = some before.builder.current := by
    rw [Tree.parent, isData, builds.isParent]
  have around : ∀ other, node.index < other.index → other.index < after.tree.size →
      node ∈ after.tree.ancestors other := by
    intro other isLater otherInside
    rcases builds.extended.within builds.start.rooted.arranged builds.sound.rooted.arranged
      (Nat.le_trans builds.isNew.1 (Nat.le_of_lt isLater)) otherInside with ⟨new, isNew, isAround⟩
    obtain rfl := List.mem_singleton.1 isNew
    refine isAround.resolve_left ?_
    rintro rfl
    exact Nat.lt_irrefl _ isLater
  have sound : Sound root base { after with builder := after.builder.modify node change } := by
    refine builds.sound.modify completing inside isParent builds.parent_not_closed ?_ ?_ around ?_
    · rw [isKind, Tree.binding, isData]
      exact sameBinding
    · intro closed
      refine bound.resolve_left fun isOpen => closed.2 ?_
      rw [builds.opened]
      exact List.mem_append_left _ isOpen
    · rw [isData]
      exact fits
  have sameMarks : ∀ type, (after.builder.modify node change).build.typeMarks type =
      after.tree.typeMarks type := by
    intro type
    refine Tree.typeMarks_congr TreeBuilder.size_build_modify fun other _ => ?_
    unfold Tree.marks Tree.kind Tree.binding
    rw [TreeBuilder.data_build_modify inside]
    split
    case isFalse => rfl
    case isTrue isNode =>
      subst isNode
      rw [isData, (completing data).1]
      cases isType : data.kind.isTypeDeclaration with
      | false => rfl
      | true => rw [sameBinding isType]
  refine ⟨{ builds.toProgress with
    sound := sound
    extended := builds.extended.modify builds.isNew.1 builds.start.rooted.current_inside
    balance := fun type => ?_ }, builds.start, ?_, ?_, ?_⟩
  · change _ ≤ (after.builder.modify node change).build.typeMarks type + _
    rw [sameMarks]
    exact builds.balance type
  · change (after.builder.modify node change).build.data node = _
    rw [TreeBuilder.data_build_modify inside, if_pos rfl, isData]
  · rw [(completing data).2.2.1, builds.isParent]
  · rw [(completing data).2.2.2, ← builds.isBelow]
    refine List.map_congr_left fun child isChild => ?_
    change (after.builder.modify node change).build.data child = _
    rw [TreeBuilder.data_build_modify inside, if_neg]
    rintro rfl
    exact Nat.lt_irrefl _ (builds.above isChild).1

/-- A node is opened with what is known about it from the start. -/
theorem place (steady : Steady root base before) (change : NodeData → NodeData)
    (completing : NodeData.Completing change)
    (room : covers (before.tree.span before.builder.current) span)
    (fits : (change { kind := nodeKind, span, parent := some before.builder.current }).Fits before.table)
    (stems : nodeKind.isTypeDeclaration → ∀ type,
      (change { kind := nodeKind, span, parent := some before.builder.current }).binding = some type →
        Begins root before span type)
    (marked : ∀ type, due.count type ≤ if nodeKind.isTypeDeclaration &&
      (change { kind := nodeKind, span, parent := some before.builder.current }).binding == some type
        then 1 else 0)
    (announced : ∀ entry ∈ before.localTypes, ∃ node,
      (before.builder.place nodeKind span change).build.Announces entry.2 node) :
    Opens root base scope due ⟨before.tree.size⟩
      (change { kind := nodeKind, span, parent := some before.builder.current }) [] before
      { before with builder := before.builder.place nodeKind span change } := by
  have isData : (before.builder.place nodeKind span change).build.data ⟨before.tree.size⟩ =
    change { kind := nodeKind, span, parent := some before.builder.current } :=
      steady.rooted.data_place_new
  have extended : TreeBuilder.Extends before.builder (before.builder.place nodeKind span change)
    [⟨before.tree.size⟩] := steady.rooted.extends_place
  refine ⟨{
    sound := ⟨steady.place completing room fits stems, announced⟩
    classes := rfl
    methods := rfl
    methodTypeParameters := rfl
    scopes := ⟨rfl, rfl⟩
    opened := rfl
    extended := extended
    grows := .refl
    declared := ⟨[], rfl, nofun⟩
    balance := fun type => ?_ }, steady, isData, (completing _).2.2.1, by rw [(completing _).2.2.2]; rfl⟩
  have counted : (before.builder.place nodeKind span change).build.typeMarks type =
      before.tree.typeMarks type +
        if (before.builder.place nodeKind span change).build.marks type ⟨before.tree.size⟩ then 1
        else 0 := by
    refine Tree.typeMarks_succ TreeBuilder.size_place fun node old => ?_
    rw [Tree.marks, extended.kind old, extended.binding old, Tree.marks]
  rw [Tree.marks, Tree.kind, Tree.binding, isData, (completing _).1] at counted
  dsimp only at counted
  change (typeLog root before.declared).count type + _ + _ ≤
    (before.builder.place nodeKind span change).build.typeMarks type + _
  rw [counted]
  have := marked type
  omega

/-- Part of an open node is lowered. -/
theorem inner (opens : Opens root base scope due node data below before middle)
    (advances : Advances root base scope further news middle after) :
    Opens root base scope (due ++ further) node { data with children := data.children ++ news }
      (below ++ news.map after.tree.data) before after := by
  have isCurrent : middle.builder.current = node := by
    rw [TreeBuilder.current, opens.opened]
    rfl
  refine ⟨⟨advances.sound, advances.classes.trans opens.classes,
    advances.methods.trans opens.methods,
    advances.methodTypeParameters.trans opens.methodTypeParameters,
    ⟨advances.scopes.1.trans opens.scopes.1, advances.scopes.2.trans opens.scopes.2⟩,
    ?_, ?_, ?_, ?_, fun type => ?_⟩, opens.start, ?_, opens.isParent, ?_⟩
  · rw [advances.opened, opens.opened, List.nil_append]
  · exact opens.extended.inner advances.extended (isCurrent ▸ opens.isNew.1)
      opens.start.rooted.current_inside
  · exact (opens.grows.imp fun _ _ mixed unmixed => mixed (advances.of_append unmixed)).trans
      advances.grows
  · rcases opens.declared with ⟨new, isNew, inScope⟩
    rcases advances.declared with ⟨newer, isNewer, inScopeNewer⟩
    refine ⟨newer ++ new, by rw [isNewer, isNew, List.append_assoc], fun entry isEntry => ?_⟩
    exact (List.mem_append.1 isEntry).elim (inScopeNewer entry) (inScope entry)
  · have sooner := opens.balance type
    have later := advances.balance type
    rw [List.count_append]
    omega
  · have changed := advances.extended.current
    rw [isCurrent] at changed
    exact changed.trans (by rw [opens.isData])
  · rw [List.map_append, ← opens.isBelow]
    congr 1
    refine List.map_congr_left fun child isChild => ?_
    have above := opens.above isChild
    refine advances.extended.same child above.2 ?_
    rintro rfl
    rw [isCurrent] at above
    exact Nat.lt_irrefl _ above.1

/-- The node is closed. -/
theorem close (opens : Opens root base scope due node data below before after)
    (bound : Unmixed root base after.declared → after.tree.Bound after.table node) :
    Makes root base scope due node data below before
      { after with builder := after.builder.finish.2 } := by
  have sameTree : after.builder.finish.2.build = after.tree := TreeBuilder.build_finish
  have opened : after.builder.finish.2.opened = before.builder.opened := by
    rw [TreeBuilder.finish, opens.opened]
    rfl
  have sound : Sound root base { after with builder := after.builder.finish.2 } := by
    refine opens.sound.finish opens.opened (fun scope isScope => ?_) bound
    rw [opens.classes] at isScope
    rcases (opens.start.classes scope isScope).2 with ⟨around, isOpen, isType, isBinding⟩
    have old := opens.start.rooted.openedInside around isOpen
    exact ⟨around, isOpen, (opens.extended.kind old).symm ▸ isType,
      (opens.extended.binding old).trans isBinding⟩
  have extended := opens.extended
  refine ⟨{ opens.toProgress with sound := sound, opened := opened, extended := ?_, balance := ?_ },
    opens.start, ?_, opens.isParent, ?_⟩
  · constructor
    all_goals simp only [sameTree]
    exacts [extended.size_le, extended.isNew, extended.same, extended.current]
  · simp only [Lowering.tree, sameTree]
    exact opens.balance
  · simp only [Lowering.tree, sameTree]
    exact opens.isData
  · simp only [Lowering.tree, sameTree]
    exact opens.isBelow

theorem popScope (builds : Builds root base scope due opened node data below
      { before with scopes := [] :: before.scopes } after) :
    Builds root base scope due opened node data below before
      { after with scopes := after.scopes.tail } where
  toProgress := builds.toProgress.popScope
  start := builds.start.rescope (fun _ => id)
    fun scope isScope => builds.start.locals scope (List.mem_cons_of_mem _ isScope)
  isData := builds.isData
  isParent := builds.isParent
  isBelow := builds.isBelow

end Builds

end JavaInspect.Java.Lowering
