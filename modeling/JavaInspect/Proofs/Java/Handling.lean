import JavaInspect.Proofs.Java.Statements

/-!
# Lowering phrases

Whatever stands where it can be lowered becomes nodes that carry the bindings it was declared with.
The induction is on the depth down to which phrases are lowered: a phrase is lowered with a step for
its parts, which are less deep.
-/

namespace JavaInspect.Java

open Phrase Lowering

variable {root phrase inner part : Phrase} {base depth : Nat} {node : NodeId} {data : NodeData}
  {news : List NodeId} {views : List NodeData} {before after : Lowering} {source : Source}
  {role : Role} {nodeKind : NodeKind} {kind : TypeKind} {declared : Declared} {step : Lower.Step}
  {answer : Option NodeId}

/-- Constructs that declare no type and no member of one. -/
def Construct.isInert (construct : Construct) : Bool :=
  construct.typeKind?.isNone &&
    (!construct.isBodyPart || construct == .block || construct == .staticInitializer ||
      construct == .comment)

/-- Constructs of which one node of a kind becomes, which is no list and declares no member. -/
def Construct.isInertAs (construct : Construct) (nodeKind : NodeKind) : Bool :=
  construct.isInert && construct != .comment &&
    (nodeKind != .arguments && nodeKind != .parameters) &&
    (!construct.isBodyPart || !nodeKind.declaresMember)

theorem due_eq_nil (noType : ¬ phrase.declaresType) : due declared phrase = [] := by
  rw [due, typesOf, List.flatMap_singleton, types_eq_nil noType]
  simp

theorem not_declaresType_of_inert (inert : phrase.construct.isInert) : ¬ phrase.declaresType := by
  intro isType
  rw [Construct.isInert, Bool.and_eq_true, Option.isNone_iff_eq_none] at inert
  rw [declaresType, inert.1] at isType
  cases isType

theorem declarations_of_inert (inert : phrase.construct.isInert)
    (isBodyPart : phrase.construct.isBodyPart) : phrase.declarations = [] := by
  rw [declarations, if_neg (not_declaresType_of_inert inert), values]
  rw [Construct.isInert, isBodyPart] at inert
  cases is : phrase.construct <;> rw [is] at inert <;> first | rfl | cases inert

/-! ## What becomes of a phrase -/

namespace Handled

/-- Nothing becomes of what leaves no trace in the tree. -/
theorem of_silent (sound : Sound root base before) (inert : phrase.construct.isInert)
    (noExpression : phrase.construct.isExpression = false) :
    Handled root base phrase role before none [] before where
  advances := by
    rw [due_eq_nil (not_declaresType_of_inert inert)]
    exact (Progress.refl sound).imp (List.nil_subset _) fun _ => Nat.le_refl _
  answers is := by rw [noExpression] at is; cases is
  yields := ⟨by simp, by simp, by simp, fun isBodyPart => by
    rw [declarations_of_inert inert isBodyPart]
    exact .nil⟩

/-- A phrase has become a single node. -/
theorem of_makes (makes : Makes root base phrase.numbers (due before.declared phrase) node data views
      before after) (noList : data.kind ≠ .arguments ∧ data.kind ≠ .parameters)
    (isRole : phrase.construct.isAnnotationUse = false → data.role = role)
    (noComment : phrase.isComment = false)
    (members : phrase.construct.isBodyPart → List.Forall₂ (Stands before.declared) phrase.declarations
      ([data].filter (·.kind.declaresMember))) :
    Handled root base phrase role before (some node) [node] after where
  advances := makes.toProgress
  answers _ := ⟨node, rfl, rfl⟩
  yields := by
    rw [List.map_singleton, makes.isData]
    refine ⟨by simpa using noList, fun noUse => by simpa using isRole noUse, fun is => ?_, members⟩
    rw [noComment] at is
    cases is

theorem of_becomes (becomes : Becomes root base phrase nodeKind role before node after)
    (apt : phrase.construct.isInertAs nodeKind) :
    Handled root base phrase role before (some node) [node] after := by
  rcases becomes with ⟨data, views, makes, rfl, isRole⟩
  simp only [Construct.isInertAs, Bool.and_eq_true, Bool.or_eq_true, bne_iff_ne, Bool.not_eq_true']
    at apt
  obtain ⟨⟨⟨inert, noComment⟩, noList⟩, noMember⟩ := apt
  rw [← due_eq_nil (not_declaresType_of_inert inert)] at makes
  refine of_makes makes noList (fun _ => isRole) (by simpa [isComment] using noComment)
    fun isBodyPart => ?_
  rw [declarations_of_inert inert isBodyPart, List.filter_singleton,
    noMember.resolve_left (by simp [isBodyPart])]
  exact .nil

/-- A phrase that declares itself has become a node with its binding. -/
theorem of_carries (carries : Carries root base phrase nodeKind role before node after)
    (noType : ¬ phrase.declaresType) (noComment : phrase.isComment = false)
    (noList : nodeKind ≠ .arguments ∧ nodeKind ≠ .parameters) (isMember : nodeKind.declaresMember)
    (itself : phrase.values = [phrase])
    (isConstructor : nodeKind = .constructor ↔ phrase.construct.isConstructor) :
    Handled root base phrase role before (some node) [node] after := by
  rcases carries with ⟨data, views, makes, rfl, isRole, isBinding⟩
  rw [← due_eq_nil noType] at makes
  refine of_makes makes noList (fun _ => isRole) noComment fun _ => ?_
  rw [declarations, if_neg noType, itself, List.filter_singleton, isMember]
  exact .cons ⟨isBinding, isConstructor⟩ .nil

/-- Parentheses leave no trace of their own. -/
theorem of_parenthesized (unit : root.Grammatical) (inRoot : phrase ∈ root.all)
    (isParenthesized : phrase.construct = .parenthesizedExpression)
    (isContent : phrase.content? = some inner)
    (handled : Handled root base inner role before answer news after) :
    Handled root base phrase role before answer news after := by
  have isExpression : inner.construct.isExpression := by
    simpa [isContent] using (unit.shaped phrase inRoot).parenthesized isParenthesized
  have noUse : inner.construct.isAnnotationUse = false := by
    cases is : inner.construct <;> rw [is] at isExpression <;> first | rfl | cases isExpression
  refine ⟨?_, fun _ => handled.answers isExpression, handled.yields.kinds,
    fun _ => handled.yields.roles noUse, fun isComment => ?_, fun isBodyPart => ?_⟩
  · rw [due_eq_nil (not_declaresType_of_inert (by rw [isParenthesized]; rfl))]
    exact handled.advances.drop
      (numbers_sublist (mem_all_of_part (mem_parts_of_content isContent))).subset
  · rw [Phrase.isComment, isParenthesized] at isComment
    cases isComment
  · rw [isParenthesized] at isBodyPart
    cases isBodyPart

end Handled

namespace Lower

section

variable (unit : root.Grammatical) (handles : Handles root base step depth)
  (inRoot : phrase ∈ root.all) (low : phrase.height ≤ depth + 1) (sound : Sound root base before)
  (admits : before.Admits phrase)
include unit handles inRoot low sound admits

/-- A phrase becomes a node with a child for every part that has one, where the parts see names of
their own. -/
theorem becomes_inScope (plain : nodeKind.isPlain)
    (places : ∀ part ∈ phrase.namedParts, before.Places part) :
    Ensures (inScope (lowerParts step nodeKind phrase role)) before
      (Becomes root base phrase nodeKind role before) := by
  have entered : Sound root base { before with scopes := [] :: before.scopes } :=
    sound.rescope (fun _ => id) (List.forall_mem_cons.2 ⟨by simp, sound.locals⟩)
  exact Ensures.inScope ((becomes_lowerParts unit handles inRoot low entered admits.room plain
    fun part isNamed => (places part isNamed).imp id).imp fun _ _ becomes => becomes.popScope)

omit handles low sound admits in
/-- The call of another constructor stands in the body of a constructor. -/
theorem places_constructorBody (isBody : phrase.construct = .constructorBody) (homed : before.Homed)
    (isPart : part ∈ phrase.parts) : before.Places part := by
  have fits := (unit.shaped phrase inRoot).home part isPart
  refine ⟨?_, ?_, fun _ => homed⟩ <;> cases is : part.construct <;>
    simp_all [Construct.fitsIn, Construct.isTypeBody]

/-- A declared type becomes a node that is bound to it. -/
theorem handled_lowerTypeDeclaration (isKind : phrase.construct.typeKind? = some kind) :
    Ensures (some <$> lowerTypeDeclaration source step phrase kind role) before fun answer after =>
      ∃ news, Handled root base phrase role before answer news after := by
  refine Ensures.map ((makes_lowerTypeDeclaration unit handles inRoot low isKind sound
    admits.room).imp ?_)
  rintro node after ⟨data, views, makes, isNode, isRole, isBinding⟩
  have isType : phrase.declaresType := by rw [declaresType, isKind]; rfl
  have isDeclaration : data.kind.isTypeDeclaration := by
    rw [isNode]
    cases kind <;> rfl
  have noConstructor : phrase.construct.isConstructor = false := by
    cases is : phrase.construct <;> rw [is] at isKind <;> first | rfl | cases isKind
  refine ⟨[node], .of_makes makes ?_ (fun _ => isRole) ?_ fun _ => ?_⟩
  · rw [isNode]
    cases kind <;> decide
  · have noComment : phrase.construct ≠ .comment := fun is => by rw [is] at isKind; cases isKind
    simpa [isComment] using noComment
  · rw [declarations, if_pos isType, List.filter_singleton, NodeKind.declaresMember, isDeclaration,
      Bool.or_true]
    refine .cons ⟨isBinding, ?_⟩ .nil
    rw [noConstructor, isNode]
    cases kind <;> decide

/-- A declaration of fields becomes a node for each field. -/
theorem handled_fields (isFields : phrase.construct = .fieldDeclaration ∨
      phrase.construct = .constantDeclaration) :
    Ensures (lowerVariables source step phrase true role) before fun answer after =>
      ∃ news, Handled root base phrase role before answer news after := by
  refine (advances_lowerVariables unit handles inRoot low sound admits.room).imp ?_
  rintro answer after ⟨news, advances, kinds, stands⟩
  have noType : ¬ phrase.declaresType := by
    rw [declaresType]
    rcases isFields with is | is <;> rw [is] <;> exact Bool.false_ne_true
  have declared : phrase.declarations = phrase.partsIn .declarator := by
    rw [declarations, if_neg noType, values]
    rcases isFields with is | is <;> rw [is]
  refine ⟨news, by rwa [due_eq_nil noType], fun is => ?_, fun view isView => ?_,
    fun _ view isView => (kinds view isView).2, fun is => ?_, fun _ => ?_⟩
  · rcases isFields with isField | isField <;> rw [isField] at is <;> cases is
  · rw [(kinds view isView).1]
    decide
  · rw [isComment] at is
    rcases isFields with isField | isField <;> rw [isField] at is <;> cases is
  · rw [declared, List.filter_eq_self.2 fun view isView => by rw [(kinds view isView).1]; rfl]
    exact stands rfl

/-- A declaration of local variables becomes a node for each of them. -/
theorem handled_locals (isLocals : phrase.construct = .localVariableDeclaration) :
    Ensures (lowerVariables source step phrase false role) before fun answer after =>
      ∃ news, Handled root base phrase role before answer news after := by
  refine (advances_lowerVariables unit handles inRoot low sound admits.room).imp ?_
  rintro answer after ⟨news, advances, kinds, -⟩
  refine ⟨news, ?_, fun is => ?_, fun view isView => ?_, fun _ view isView => (kinds view isView).2,
    fun is => ?_, fun is => ?_⟩
  · rwa [due_eq_nil (not_declaresType_of_inert (by rw [isLocals]; rfl))]
  · rw [isLocals] at is
    cases is
  · rw [(kinds view isView).1]
    decide
  · rw [isComment, isLocals] at is
    cases is
  · rw [isLocals] at is
    cases is

omit unit handles inRoot low sound admits in
/-- Constants, methods and constructors become nodes that carry their bindings. -/
theorem handled_carries {action : Lower NodeId}
    (carries : Ensures action before (Carries root base phrase nodeKind role before))
    (itself : phrase.values = [phrase]) (noType : phrase.construct.typeKind? = none)
    (noComment : phrase.construct ≠ .comment) (isMember : nodeKind.declaresMember)
    (noList : nodeKind ≠ .arguments ∧ nodeKind ≠ .parameters)
    (isConstructor : nodeKind = .constructor ↔ phrase.construct.isConstructor) :
    Ensures (some <$> action) before fun answer after =>
      ∃ news, Handled root base phrase role before answer news after :=
  Ensures.map (carries.imp fun node _ carries => ⟨[node], .of_carries carries
    (by rw [declaresType, noType]; exact Bool.false_ne_true) (by simpa [isComment] using noComment)
    noList isMember
    itself isConstructor⟩)

/-- A phrase is lowered with a step that lowers what is less deep. -/
theorem handled_lowerWith :
    Ensures (lowerWith source step phrase role) before fun answer after =>
      ∃ news, Handled root base phrase role before answer news after := by
  have room := admits.room
  have single : ∀ {nodeKind} {action : Lower NodeId}, phrase.construct.isInertAs nodeKind →
      Ensures action before (Becomes root base phrase nodeKind role before) →
      Ensures (some <$> action) before fun answer after =>
        ∃ news, Handled root base phrase role before answer news after :=
    fun apt becomes => Ensures.map (becomes.imp fun node _ becomes => ⟨[node], .of_becomes becomes apt⟩)
  have ordinaryParts : phrase.construct.isOrdinary → ∀ part ∈ phrase.namedParts, before.Places part :=
    fun ordinary part isNamed => .of_ordinary unit inRoot ordinary (mem_parts_of_named isNamed) _
  have homed := admits.homed
  unfold lowerWith
  cases is : phrase.construct
  case comment | token | modifiers | typeIdentifier | scopedTypeIdentifier | genericType | arrayType |
      integralType | floatingPointType | booleanType | voidType | typeArguments | typeParameters |
      dimensions | annotatedType =>
    exact .pure ⟨[], .of_silent sound (by rw [is]; rfl) (by rw [is]; rfl)⟩
  case parenthesizedExpression =>
    dsimp only
    split
    case h_1 inner isContent =>
      have isPart := mem_parts_of_content isContent
      refine (handles inner (mem_all_trans inRoot (mem_all_of_part isPart))
        (Nat.le_of_lt_succ (Nat.lt_of_lt_of_le (height_lt_of_part isPart) low)) role before sound
        ⟨.of_ordinary unit inRoot (by rw [is]; rfl) isPart _,
          covers_trans room (unit.nested phrase inRoot inner isPart)⟩).imp ?_
      rintro answer after ⟨news, handled⟩
      exact ⟨news, handled.of_parenthesized unit inRoot is isContent⟩
    case h_2 noContent =>
      have := (unit.shaped phrase inRoot).parenthesized is
      rw [noContent] at this
      cases this
  case classDeclaration | interfaceDeclaration | enumDeclaration | recordDeclaration |
      annotationTypeDeclaration =>
    exact handled_lowerTypeDeclaration unit handles inRoot low sound admits (by rw [is]; rfl)
  case fieldDeclaration => exact handled_fields unit handles inRoot low sound admits (.inl is)
  case constantDeclaration => exact handled_fields unit handles inRoot low sound admits (.inr is)
  case localVariableDeclaration => exact handled_locals unit handles inRoot low sound admits is
  case methodDeclaration | annotationElementDeclaration =>
    exact handled_carries
      (carries_lowerMethod unit handles inRoot low (by rw [is]; rfl) (.inl rfl) homed sound room)
      (by rw [values, is]) (by rw [is]; rfl) (by rw [is]; decide) rfl (by decide)
      (by rw [is]; decide)
  case constructorDeclaration | compactConstructorDeclaration =>
    exact handled_carries
      (carries_lowerMethod unit handles inRoot low (by rw [is]; rfl) (.inr rfl) homed sound room)
      (by rw [values, is]) (by rw [is]; rfl) (by rw [is]; decide) rfl (by decide)
      (by rw [is]; exact ⟨fun _ => rfl, fun _ => rfl⟩)
  case enumConstant =>
    exact handled_carries
      (carries_lowerConstant unit handles inRoot low is sound room)
      (by rw [values, is]) (by rw [is]; rfl) (by rw [is]; decide) rfl (by decide)
      (by rw [is]; decide)
  case block =>
    exact single (by rw [is]; rfl) (becomes_inScope unit handles inRoot low sound admits rfl
      (ordinaryParts (by rw [is]; rfl)))
  case constructorBody =>
    exact single (by rw [is]; rfl) (becomes_inScope unit handles inRoot low sound admits rfl
      fun part isNamed => places_constructorBody unit inRoot is (homed (by rw [is]; rfl))
        (mem_parts_of_named isNamed))
  case expressionStatement | returnStatement =>
    exact single (by rw [is]; rfl) (becomes_lowerExpressionStatement unit handles inRoot low
      (by rw [is]; rfl) rfl sound room)
  case methodInvocation =>
    exact single (by rw [is]; rfl) (becomes_lowerInvocation unit handles inRoot low is sound room)
  case objectCreationExpression =>
    exact single (by rw [is]; rfl) (becomes_lowerNew unit handles inRoot low is sound room)
  case explicitConstructorInvocation =>
    exact single (by rw [is]; rfl) (becomes_lowerConstructorCall unit handles inRoot low
      (by rw [is]; rfl) (homed (by rw [is]; rfl)) sound room)
  case fieldAccess =>
    exact single (by rw [is]; rfl) (becomes_lowerFieldAccess unit handles inRoot low sound room)
  case identifier => exact single (by rw [is]; rfl) (becomes_lowerIdentifier sound room)
  case this => exact single (by rw [is]; rfl) (becomes_lowerThis sound room)
  case super => exact single (by rw [is]; rfl) (becomes_lowerSuper sound room)
  case stringLiteral | characterLiteral | integerLiteral | floatingPointLiteral | booleanLiteral |
      nullLiteral =>
    exact single (by rw [is]; rfl) (becomes_lowerLiteral sound room unit)
  case binaryExpression =>
    exact single (by rw [is]; rfl) (becomes_lowerBinary unit handles inRoot low (by rw [is]; rfl)
      sound room)
  case unaryExpression =>
    exact single (by rw [is]; rfl) (becomes_lowerUnary unit handles inRoot low (by rw [is]; rfl)
      sound room)
  case castExpression =>
    exact single (by rw [is]; rfl) (becomes_lowerCast unit handles inRoot low (by rw [is]; rfl)
      sound room)
  case annotationMarker | annotationWithArguments =>
    refine Ensures.map ((makes_lowerAnnotationUse unit handles inRoot low sound room).imp ?_)
    rintro node after ⟨data, views, makes, isKind, -⟩
    rw [← due_eq_nil (not_declaresType_of_inert (by rw [is]; rfl))] at makes
    exact ⟨[node], .of_makes makes (by rw [isKind]; decide)
      (fun noUse => by rw [is] at noUse; cases noUse)
      (by rw [isComment, is]; rfl) fun isBodyPart => by rw [is] at isBodyPart; cases isBodyPart⟩
  case enhancedForStatement =>
    exact single (by rw [is]; rfl) (becomes_lowerEnhancedFor unit handles inRoot low
      (by rw [is]; rfl) sound room)
  case catchFormalParameter =>
    refine (becomes_lowerCatchParameter unit handles inRoot low sound room).imp ?_
    rintro _ after (⟨rfl, rfl⟩ | ⟨node, rfl, becomes⟩)
    · exact ⟨[], .of_silent sound (by rw [is]; rfl) (by rw [is]; rfl)⟩
    · exact ⟨[node], .of_becomes becomes (by rw [is]; rfl)⟩
  case catchClause | forStatement | tryWithResourcesStatement | lambdaExpression |
      switchBlockStatementGroup =>
    exact single (by rw [is]; rfl) (becomes_inScope unit handles inRoot low sound admits rfl
      (ordinaryParts (by rw [is]; rfl)))
  case classBody | interfaceBody | annotationTypeBody | enumBody =>
    have noTypeBody := admits.noTypeBody
    rw [is] at noTypeBody
    cases noTypeBody
  case enumBodyDeclarations => exact absurd is admits.noRest
  all_goals
    exact single (by rw [is]; rfl) (becomes_lowerParts unit handles inRoot low sound room rfl
      (ordinaryParts (by rw [is]; rfl)))

end

/-- What stands where it can be lowered is lowered down to any depth. -/
theorem handles_lower (unit : root.Grammatical) (source : Source) (depth : Nat) :
    Handles root base (lower source depth) depth := by
  induction depth with
  | zero => exact fun phrase _ low => absurd low (Nat.not_le_of_lt height_pos)
  | succ depth ih =>
      exact fun phrase inRoot low role before sound admits =>
        handled_lowerWith unit ih inRoot low sound admits

end Lower

end JavaInspect.Java
