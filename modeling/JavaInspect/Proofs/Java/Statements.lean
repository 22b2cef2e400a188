import JavaInspect.Java.Lowering
import JavaInspect.Proofs.Java.Values

/-!
# Lowering instance creations and statements

An instance creation is bound before the body of its anonymous class is lowered, and what the body
declares does not change which constructors the created type has. The statements here declare a
variable or hold an expression.
-/

namespace JavaInspect

namespace Table

variable {table later : Table} {type constructor : BindingId} {arity : Nat}

theorem HasConstructor.congr (has : table.HasConstructor type arity constructor)
    (size_le : table.size ≤ later.size) (keeps : table.Keeps later) :
    later.HasConstructor type arity constructor := by
  have same := keeps constructor has.isMethod.1
  exact ⟨⟨Nat.lt_of_lt_of_le has.isMethod.1 size_le, same ▸ has.isMethod.2⟩,
    same ▸ has.isConstructor, by rw [Takes, same]; exact has.takes, same ▸ has.owner⟩

end Table

namespace Java

open Phrase Lowering

variable {root phrase body : Phrase} {base depth : Nat} {scope : List Nat} {owed : List BindingId}
  {node child : NodeId} {data : NodeData} {views others : List NodeData}
  {before middle after : Lowering} {source : Source} {role : Role} {nodeKind : NodeKind}
  {type constructor : BindingId} {step : Lower.Step}

/-! ## Instance creations -/

/-- An instance creation is bound to a constructor that the created type has. -/
theorem Lowering.Builds.createsInstance
    (opens : Opens root base scope owed node data (views ++ others) before after)
    (isTyped : data.typeBinding = some type) (argues : Argues phrase views)
    (noUse : phrase.construct.isAnnotationUse = false)
    (noArguments : ∀ view ∈ others, view.kind ≠ .arguments)
    (hasConstructor : after.table.HasConstructor type
      (Phrase.argumentCount (phrase.part? .arguments)) constructor) :
    after.tree.CreatesInstance after.table node constructor := by
  refine ⟨hasConstructor.isConstructor, ?_, type, ?_, hasConstructor.owner⟩
  · have counted := argues.length_eq [] others noUse (by simp) noArguments
    rw [List.nil_append] at counted
    rw [opens.arguments_length, counted]
    exact hasConstructor.takes
  · rw [Tree.typeBinding, opens.isData, isTyped]

/-- An instance creation is open. If it is bound, then to a constructor of the created type. -/
structure Creates (root : Phrase) (base : Nat) (phrase : Phrase) (role : Role) (node : NodeId)
    (data : NodeData) (views : List NodeData) (before after : Lowering) : Prop where
  opens : Opens root base phrase.numbers [] node data views before after
  isKind : data.kind = .newClass
  isRole : data.role = role
  isSpan : data.span = phrase.span
  bound : Unmixed root base after.declared → ∀ constructor, data.binding = some constructor →
    ∃ type, data.typeBinding = some type ∧ after.table.HasConstructor type
      (Phrase.argumentCount (phrase.part? .arguments)) constructor

namespace Creates

/-- The body of the class is lowered. -/
theorem within {news : List NodeId} (creates : Creates root base phrase role node data views before middle)
    (advances : Advances root base scope owed news middle after) (subset : scope ⊆ phrase.numbers) :
    Creates root base phrase role node { data with children := data.children ++ news }
      (views ++ news.map after.tree.data) before after where
  opens := creates.opens.within advances subset
  isKind := creates.isKind
  isRole := creates.isRole
  isSpan := creates.isSpan
  bound unmixed constructor isBinding := by
    rcases creates.bound (advances.of_append unmixed) constructor isBinding with ⟨type, isTyped, has⟩
    exact ⟨type, isTyped, has.congr advances.grows.size_le (advances.keeps unmixed)⟩

end Creates

namespace Lower

section

variable (unit : root.Grammatical) (handles : Handles root base step depth)
  (inRoot : phrase ∈ root.all) (low : phrase.height ≤ depth + 1)

/-- The constructor that an instance creation calls is one of the created type. -/
theorem creates_findConstructor
    (creates : Creates root base phrase role node data views before middle)
    (isType : middle.table.Holds .type type) (noBinding : data.binding = none) :
    Ensures (do
      setTypeBinding node type
      let table := (← get).table
      (table.findConstructor type (Phrase.argumentCount (phrase.part? .arguments))).forM
        (setBinding node)) middle fun _ after => (∃ builder, after = { middle with builder }) ∧
          ∃ data, Creates root base phrase role node data views before after := by
  have isKind := creates.isKind
  refine (completes_setTypeBinding creates.opens (.inl List.mem_cons_self) isType).bind ?_
  rintro _ _ ⟨⟨builder, rfl⟩, opens⟩
  refine .get (.optionForM (fun constructor found => ?_) fun _ => ?_)
  · have hasConstructor := opens.sound.consistent.typed.findConstructor found
    refine (completes_setBinding opens (.inl List.mem_cons_self) (by rw [isKind]; rfl)
      ⟨hasConstructor.isMethod.1, by rw [isKind, hasConstructor.isMethod.2]; rfl⟩).imp ?_
    rintro _ _ ⟨⟨builder, rfl⟩, opens⟩
    exact ⟨⟨_, rfl⟩, _, opens, isKind, creates.isRole, creates.isSpan,
      fun _ other isOther => ⟨type, rfl, Option.some.inj isOther ▸ hasConstructor⟩⟩
  · exact ⟨⟨_, rfl⟩, _, opens, isKind, creates.isRole, creates.isSpan,
      fun _ other isOther => by cases noBinding.symm.trans isOther⟩

include unit handles inRoot low

/-- The arguments of an open instance creation are lowered, it is bound to a constructor of the created
type, if that has one, and the body of an anonymous class is lowered inside it. -/
theorem becomes_boundCreation {named : Lowering} (created : Option BindingId)
    (noType : ¬ phrase.declaresType) (noUse : phrase.construct.isAnnotationUse = false)
    (opens : Opens root base phrase.numbers [] node data [] before named)
    (isKind : data.kind = .newClass) (isRole : data.role = role)
    (isSpan : data.span = phrase.span) (noBinding : data.binding = none)
    (isType : ∀ type, created = some type → named.table.Holds .type type) :
    Ensures (do
      lowerArguments step (phrase.part? .arguments)
      created.forM fun type => do
        setTypeBinding node type
        let table := (← get).table
        (table.findConstructor type (Phrase.argumentCount (phrase.part? .arguments))).forM
          (setBinding node)
      (phrase.namedParts.find? (·.construct == .classBody)).forM fun body =>
        lowerAnonymousClass source step body created
      finish
      return node) named (Becomes root base phrase .newClass role before) := by
  refine (opens_lowerArguments unit handles inRoot low opens (isSpan ▸ covers_refl _)).bind ?_
  rintro _ argued ⟨_, views, advances, argues, opens⟩
  replace isType := fun type found => advances.grows.holds (isType type found)
  have creates : Creates root base phrase role node _ views before argued :=
    ⟨opens, isKind, isRole, isSpan, fun _ other isOther => by cases noBinding.symm.trans isOther⟩
  refine .via (fun _ after => (∃ builder, after = { argued with builder }) ∧
      ∃ data, Creates root base phrase role node data views before after)
    (.optionForM (fun type found =>
      creates_findConstructor creates (isType type found) noBinding)
      fun _ => ⟨⟨_, rfl⟩, _, creates⟩) ?_
  rintro _ _ ⟨⟨builder, rfl⟩, data, creates⟩
  refine .via (fun _ after => ∃ data others, (∀ view ∈ others, view.kind ≠ .arguments) ∧
      Creates root base phrase role node data (views ++ others) before after)
    (.optionForM (fun body isBody => ?_)
      fun _ => ⟨data, [], by simp, by rwa [List.append_nil]⟩) ?_
  · have isPart := mem_parts_of_named (List.mem_of_find?_eq_some isBody)
    have isClassBody : body.construct = .classBody := by
      simpa using List.find?_some isBody
    refine (becomes_lowerAnonymousClass unit handles inRoot isPart
      (Nat.le_trans (Nat.le_of_lt (height_lt_of_part isPart)) low) (by rw [isClassBody]; rfl) noType
      creates.opens.sound
      (creates.opens.room (creates.isSpan ▸ unit.nested phrase inRoot body isPart)) isType).imp ?_
    rintro _ after ⟨child, _, _, makes, isClass, -⟩
    refine ⟨_, [child].map after.tree.data, ?_,
      creates.within makes.toProgress (numbers_sublist (mem_all_of_part isPart)).subset⟩
    simp [makes.isData, isClass]
  rintro _ after ⟨data, others, noArguments, creates⟩
  have isCall : after.tree.kind node = .newClass := by
    rw [Tree.kind, creates.opens.isData, creates.isKind]
  refine (makes_finish creates.opens fun unmixed => .of_creation isCall
    fun constructor isBinding => ?_).bind ?_
  · rw [Tree.binding, creates.opens.isData] at isBinding
    rcases creates.bound unmixed constructor isBinding with ⟨type, isTyped, hasConstructor⟩
    exact creates.opens.createsInstance isTyped argues noUse noArguments hasConstructor
  · rintro _ _ ⟨_, makes⟩
    exact .pure ⟨_, _, makes, creates.isKind, creates.isRole⟩

/-- An instance creation becomes a node that is bound to a constructor of the created type, and the
body of an anonymous class becomes a node inside it. -/
theorem becomes_lowerNew (isCreation : phrase.construct = .objectCreationExpression)
    (sound : Sound root base before)
    (room : covers (before.tree.span before.builder.current) phrase.span) :
    Ensures (lowerNew source step phrase role) before
      (Becomes root base phrase .newClass role before) := by
  have noType : ¬ phrase.declaresType := by
    rw [declaresType, isCreation]
    decide
  have noUse : phrase.construct.isAnnotationUse = false := by rw [isCreation]; rfl
  refine (opens_start phrase.numbers sound room).bind ?_
  rintro node _ ⟨-, opens⟩
  dsimp only
  cases isWritten : phrase.part? .type with
  | none =>
      refine becomes_boundCreation unit handles inRoot low none noType noUse opens rfl rfl rfl rfl ?_
      rintro _ ⟨⟩
  | some written =>
      refine (completes_setName opens (.inl List.mem_cons_self)
        (unit.nested phrase inRoot written (mem_parts_of_slot isWritten)) _).bind ?_
      rintro _ _ ⟨-, opens⟩
      refine (refers_resolveType opens.sound.readable written).bind fun type _ refers => ?_
      exact becomes_boundCreation unit handles inRoot low (some type) noType noUse
        (opens.widen unit refers.1) rfl rfl rfl rfl fun _ found => Option.some.inj found ▸ refers.2

/-! ## Statements -/

/-- The variable of an enhanced `for` statement is in scope while the statement is lowered. -/
theorem becomes_lowerEnhancedFor (ordinary : phrase.construct.isOrdinary)
    (sound : Sound root base before)
    (room : covers (before.tree.span before.builder.current) phrase.span) :
    Ensures (lowerEnhancedFor source step phrase role) before
      (Becomes root base phrase .other role before) := by
  refine Ensures.inScope (.imp ?_ fun _ _ becomes => Becomes.popScope becomes)
  have entered : Sound root base { before with scopes := [] :: before.scopes } :=
    sound.rescope (fun _ => id) (List.forall_mem_cons.2 ⟨by simp, sound.locals⟩)
  have rest : ∀ {node data views before after},
      Opens root base phrase.numbers [] node data views before after →
      data.kind = .other → data.role = role → data.span = phrase.span →
      Ensures (do
        [phrase.part? .value, phrase.part? .body].forM fun part =>
          part.forM fun part => do
            let _ ← step part .plain
        finish
        return node) after (Becomes root base phrase .other role before) := by
    intro node data views before after opens isKind isRole isSpan
    refine (opens_parts? unit handles inRoot low ordinary opens (isSpan ▸ covers_refl _)
      (@mem_parts_of_slots phrase [.value, .body]) .plain).bind ?_
    rintro _ lowered ⟨news, views, opens⟩
    exact becomes_finish opens isKind rfl isRole
  refine (opens_start phrase.numbers entered room).bind fun node _ ⟨_, opens⟩ => ?_
  dsimp only
  split
  case h_2 => exact rest opens rfl rfl rfl
  case h_1 written name found =>
    have isName : phrase.part? .name = some name := (Prod.mk.inj found).2
    refine (refers_resolveType opens.sound.readable written).bind fun type _ refers => ?_
    replace opens := opens.widen unit refers.1
    refine (becomes_lowerLocal unit handles inRoot low opens.sound (opens.room (covers_refl _))
      (unit.nested phrase inRoot name (mem_parts_of_slot isName)) refers.2 (.inl rfl)).bind ?_
    rintro child _ ⟨_, _, makes, -, -⟩
    exact rest (opens.within makes.toProgress (List.Subset.refl _)) rfl rfl rfl

/-- The parameter of a `catch` clause becomes a variable, if it has a name. -/
theorem becomes_lowerCatchParameter (sound : Sound root base before)
    (room : covers (before.tree.span before.builder.current) phrase.span) :
    Ensures (lowerCatchParameter source step phrase role) before fun answer after =>
      (answer = none ∧ after = before) ∨
        ∃ node, answer = some node ∧ Becomes root base phrase .variable role before node after := by
  unfold lowerCatchParameter
  split
  case h_1 => exact .pure (.inl ⟨rfl, rfl⟩)
  case h_2 name isName =>
    refine (refers_resolveTypeOrRoot sound.readable _).bind fun type typed refers => ?_
    have first : Advances root base phrase.numbers [] [] before typed :=
      .of_widens unit sound refers.1
    refine (becomes_lowerLocal unit handles inRoot low first.sound (first.room sound room)
      (unit.nested phrase inRoot name (mem_parts_of_slot isName)) refers.2 (.inl rfl)).bind ?_
    rintro node _ ⟨data, views, makes, isKind, isRole⟩
    exact .pure (.inr ⟨node, rfl, data, views, makes.prepend sound first, isKind, isRole⟩)

/-- A statement that holds at most one expression. -/
theorem becomes_lowerExpressionStatement (ordinary : phrase.construct.isOrdinary)
    (plain : nodeKind.isPlain) (sound : Sound root base before)
    (room : covers (before.tree.span before.builder.current) phrase.span) :
    Ensures (lowerExpressionStatement step nodeKind phrase role) before
      (Becomes root base phrase nodeKind role before) := by
  refine (opens_start phrase.numbers sound room).bind fun node _ ⟨_, opens⟩ => ?_
  refine (opens_part? unit handles inRoot low opens (covers_refl _)
    (fun _ isFound => mem_parts_of_content isFound)
    (fun _ isFound => .of_ordinary unit inRoot ordinary (mem_parts_of_content isFound) _)
    .expression).bind ?_
  rintro _ lowered ⟨news, views, opens⟩
  exact becomes_finish opens rfl plain rfl

end

end Lower

end Java

end JavaInspect
