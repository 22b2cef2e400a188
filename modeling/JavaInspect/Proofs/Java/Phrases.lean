import JavaInspect.Java.Header
import JavaInspect.Java.Lowering.Members
import Mathlib.Data.List.Nodup

/-!
# Phrases of a compilation unit

What lowering relies on in the phrases of a source text: every phrase has a number of its
own, parts lie inside the phrase around them, and the grammar says which constructs stand
where. The numbers tell subtrees apart, so what is found out about one phrase stays as it is
while another is lowered.
-/

namespace JavaInspect.Java

/-! ## What the grammar promises -/

namespace Construct

/-- Expressions, `super` in front of a dot included. -/
def isExpression : Construct → Bool
  | .assignmentExpression | .binaryExpression | .instanceofExpression | .lambdaExpression
  | .ternaryExpression | .updateExpression | .unaryExpression | .castExpression
  | .switchExpression | .parenthesizedExpression | .methodInvocation
  | .objectCreationExpression | .fieldAccess | .arrayAccess | .methodReference
  | .arrayCreationExpression | .classLiteral | .templateExpression | .this | .super
  | .identifier | .integerLiteral | .floatingPointLiteral | .stringLiteral
  | .characterLiteral | .booleanLiteral | .nullLiteral => true
  | _ => false

/-- Bodies of type declarations. -/
def isTypeBody : Construct → Bool
  | .classBody | .interfaceBody | .annotationTypeBody | .enumBody => true
  | _ => false

/-- What stands in the body of a type declaration. -/
def isBodyPart : Construct → Bool
  | .fieldDeclaration | .constantDeclaration | .methodDeclaration | .constructorDeclaration
  | .compactConstructorDeclaration | .annotationElementDeclaration | .enumConstant
  | .classDeclaration | .interfaceDeclaration | .enumDeclaration | .recordDeclaration
  | .annotationTypeDeclaration | .block | .staticInitializer | .enumBodyDeclarations
  | .comment => true
  | _ => false

/-- Constructs that always have a name. -/
def hasName : Construct → Bool
  | .classDeclaration | .interfaceDeclaration | .enumDeclaration | .recordDeclaration
  | .annotationTypeDeclaration | .methodDeclaration | .annotationElementDeclaration
  | .enumConstant | .variableDeclarator | .methodInvocation => true
  | _ => false

/-- Where the bodies of types and what belongs to constructors may stand. -/
def fitsIn (inner outer : Construct) : Bool :=
  match inner with
  | .classBody => [.classDeclaration, .recordDeclaration, .enumConstant,
      .objectCreationExpression].contains outer
  | .interfaceBody => outer == .interfaceDeclaration
  | .annotationTypeBody => outer == .annotationTypeDeclaration
  | .enumBody => outer == .enumDeclaration
  | .enumBodyDeclarations => outer == .enumBody
  | .constructorDeclaration => outer == .classBody || outer == .enumBodyDeclarations
  | .constructorBody => outer == .constructorDeclaration
  | .explicitConstructorInvocation => outer == .constructorBody
  | _ => true

end Construct

namespace Phrase

/-- Whether a phrase declares a type by name. -/
def declaresType (phrase : Phrase) : Bool := phrase.construct.typeKind?.isSome

/-- What the grammar promises about a phrase and its parts. -/
structure Shaped (phrase : Phrase) : Prop where
  named : phrase.construct.hasName → (phrase.part? .name).isSome
  declarators : ∀ part ∈ phrase.partsIn .declarator, part.construct = .variableDeclarator
  body : phrase.declaresType ∨ phrase.construct = .enumConstant →
    ∀ part ∈ phrase.part? .body, part.construct.isTypeBody
  bodyParts : phrase.construct.isTypeBody ∨ phrase.construct = .enumBodyDeclarations →
    ∀ part ∈ phrase.namedParts, part.construct.isBodyPart
  argumentLists : ∀ part ∈ phrase.part? .arguments, part.construct =
    if phrase.construct.isAnnotationUse then .annotationArgumentList else .argumentList
  arguments : phrase.construct = .argumentList →
    ∀ part ∈ phrase.namedParts, part.isComment ∨ part.construct.isExpression
  parenthesized : phrase.construct = .parenthesizedExpression →
    phrase.content?.any (·.construct.isExpression)
  receiver : ∀ part ∈ phrase.part? .object, part.construct.isExpression
  home : ∀ part ∈ phrase.parts, part.construct.fitsIn phrase.construct

instance (phrase : Phrase) : Decidable phrase.Shaped :=
  decidable_of_iff
    ((phrase.construct.hasName → (phrase.part? .name).isSome) ∧
      (∀ part ∈ phrase.partsIn .declarator, part.construct = .variableDeclarator) ∧
      (phrase.declaresType ∨ phrase.construct = .enumConstant →
        ∀ part ∈ phrase.part? .body, part.construct.isTypeBody) ∧
      (phrase.construct.isTypeBody ∨ phrase.construct = .enumBodyDeclarations →
        ∀ part ∈ phrase.namedParts, part.construct.isBodyPart) ∧
      (∀ part ∈ phrase.part? .arguments, part.construct =
        if phrase.construct.isAnnotationUse then .annotationArgumentList else .argumentList) ∧
      (phrase.construct = .argumentList →
        ∀ part ∈ phrase.namedParts, part.isComment ∨ part.construct.isExpression) ∧
      (phrase.construct = .parenthesizedExpression →
        phrase.content?.any (·.construct.isExpression)) ∧
      (∀ part ∈ phrase.part? .object, part.construct.isExpression) ∧
      ∀ part ∈ phrase.parts, part.construct.fitsIn phrase.construct)
    ⟨fun ⟨named, declarators, body, bodyParts, argumentLists, arguments, parenthesized, receiver,
        home⟩ =>
      ⟨named, declarators, body, bodyParts, argumentLists, arguments, parenthesized, receiver,
        home⟩,
     fun shaped =>
      ⟨shaped.named, shaped.declarators, shaped.body, shaped.bodyParts, shaped.argumentLists,
        shaped.arguments, shaped.parenthesized, shaped.receiver, shaped.home⟩⟩

/-- The numbers of a phrase and of all below it. -/
def numbers (phrase : Phrase) : List Nat := phrase.all.map (·.number)

/-- The numbers of phrases and of all below them. -/
def numbersOf (phrases : List Phrase) : List Nat := (allOf phrases).map (·.number)

/-- A compilation unit without syntax errors. Its phrases are told apart by their numbers,
their spans are nested, and they have the shapes of the grammar. -/
structure Grammatical (root : Phrase) : Prop where
  program : root.construct = .program
  numbered : root.numbers.Nodup
  nested : ∀ phrase ∈ root.all, ∀ part ∈ phrase.parts, covers phrase.span part.span
  shaped : ∀ phrase ∈ root.all, phrase.Shaped

instance (root : Phrase) : Decidable root.Grammatical :=
  decidable_of_iff
    (root.construct = .program ∧ root.numbers.Nodup ∧
      (∀ phrase ∈ root.all, ∀ part ∈ phrase.parts, covers phrase.span part.span) ∧
      ∀ phrase ∈ root.all, phrase.Shaped)
    ⟨fun ⟨program, numbered, nested, shaped⟩ => ⟨program, numbered, nested, shaped⟩,
     fun unit => ⟨unit.program, unit.numbered, unit.nested, unit.shaped⟩⟩

/-! ## Subtrees -/

variable {phrase part inner outer deepest : Phrase} {phrases others : List Phrase}

theorem all_eq : phrase.all = phrase :: allOf phrase.parts := by
  cases phrase
  rw [all]
  rfl

@[simp] theorem allOf_nil : allOf [] = [] := by rw [allOf]

@[simp] theorem allOf_cons : allOf (phrase :: phrases) = phrase.all ++ allOf phrases := by
  rw [allOf]

theorem allOf_eq : allOf phrases = phrases.flatMap all := by
  induction phrases with
  | nil => simp
  | cons phrase phrases ih => simp [ih]

@[simp] theorem allOf_append : allOf (phrases ++ others) = allOf phrases ++ allOf others := by
  simp [allOf_eq]

theorem mem_allOf : inner ∈ allOf phrases ↔ ∃ phrase ∈ phrases, inner ∈ phrase.all := by
  simp [allOf_eq]

theorem mem_all : inner ∈ phrase.all ↔ inner = phrase ∨ inner ∈ allOf phrase.parts := by
  rw [all_eq, List.mem_cons]

theorem mem_all_self : phrase ∈ phrase.all := mem_all.2 (.inl rfl)

theorem mem_allOf_of_mem (member : phrase ∈ phrases) : phrase ∈ allOf phrases :=
  mem_allOf.2 ⟨phrase, member, mem_all_self⟩

theorem mem_all_of_part (isPart : part ∈ phrase.parts) : part ∈ phrase.all :=
  mem_all.2 (.inr (mem_allOf_of_mem isPart))

theorem allOf_sublist (sublist : phrases.Sublist others) :
    (allOf phrases).Sublist (allOf others) := by
  induction sublist with
  | slnil => exact .refl _
  | cons phrase _ ih => exact allOf_cons ▸ ih.trans (List.sublist_append_right _ _)
  | cons_cons phrase _ ih =>
      rw [allOf_cons, allOf_cons]
      exact (List.Sublist.refl _).append ih

theorem sublist_allOf : phrases.Sublist (allOf phrases) := by
  induction phrases with
  | nil => exact .slnil
  | cons phrase phrases ih =>
      rw [allOf_cons, all_eq, List.cons_append]
      exact (ih.trans (List.sublist_append_right _ _)).cons_cons _

theorem all_sublist_allOf (member : phrase ∈ phrases) : phrase.all.Sublist (allOf phrases) := by
  simpa using allOf_sublist (List.singleton_sublist.2 member)

theorem allOf_parts_sublist : (allOf phrase.parts).Sublist phrase.all :=
  all_eq ▸ List.sublist_cons_self _ _

mutual

/-- What lies below a phrase is listed where the phrase is. -/
theorem all_sublist_all : ∀ {outer : Phrase}, inner ∈ outer.all → inner.all.Sublist outer.all
  | .node number construct slot span parts, inside => by
      rcases mem_all.1 inside with rfl | below
      · exact .refl _
      · exact (all_sublist_allOf_of_mem below).trans allOf_parts_sublist

theorem all_sublist_allOf_of_mem :
    ∀ {phrases : List Phrase}, inner ∈ allOf phrases → inner.all.Sublist (allOf phrases)
  | [], inside => by simp at inside
  | first :: rest, inside => by
      rw [allOf_cons] at inside ⊢
      rcases List.mem_append.1 inside with here | later
      · exact (all_sublist_all here).trans (List.sublist_append_left _ _)
      · exact (all_sublist_allOf_of_mem later).trans (List.sublist_append_right _ _)

end

theorem mem_all_trans (outside : inner ∈ outer.all) (inside : deepest ∈ inner.all) :
    deepest ∈ outer.all :=
  (all_sublist_all outside).subset inside

theorem mem_all_of_mem_allOf (inOuter : ∀ phrase ∈ phrases, phrase ∈ outer.all)
    (inside : inner ∈ allOf phrases) : inner ∈ outer.all := by
  rcases mem_allOf.1 inside with ⟨phrase, isPhrase, inPhrase⟩
  exact mem_all_trans (inOuter phrase isPhrase) inPhrase

theorem mem_numbers (inside : inner ∈ outer.all) : inner.number ∈ outer.numbers :=
  List.mem_map_of_mem inside

theorem numbers_sublist (inside : inner ∈ outer.all) : inner.numbers.Sublist outer.numbers :=
  (all_sublist_all inside).map _

theorem numbers_subset (inside : inner ∈ outer.all) {number : Nat}
    (isNumber : number ∈ inner.numbers) : number ∈ outer.numbers :=
  (numbers_sublist inside).subset isNumber

@[simp] theorem numbersOf_cons :
    numbersOf (phrase :: phrases) = phrase.numbers ++ numbersOf phrases := by
  simp [numbersOf, numbers]

@[simp] theorem numbersOf_nil : numbersOf [] = [] := by simp [numbersOf]

theorem numbersOf_subset (all : ∀ phrase ∈ phrases, phrase ∈ outer.all) {number : Nat}
    (isNumber : number ∈ numbersOf phrases) : number ∈ outer.numbers := by
  simp only [numbersOf, List.mem_map, mem_allOf] at isNumber
  rcases isNumber with ⟨inner, ⟨phrase, member, inside⟩, rfl⟩
  exact mem_numbers (mem_all_trans (all phrase member) inside)

/-! ## Heights -/

theorem height_eq : phrase.height = heightAll phrase.parts + 1 := by
  cases phrase
  rw [height]
  rfl

theorem height_le_heightAll (member : phrase ∈ phrases) : phrase.height ≤ heightAll phrases := by
  induction phrases with
  | nil => cases member
  | cons first rest ih =>
      rw [heightAll]
      rcases List.mem_cons.1 member with rfl | later
      · exact Nat.le_max_left _ _
      · exact Nat.le_trans (ih later) (Nat.le_max_right _ _)

theorem height_lt_of_part (isPart : part ∈ phrase.parts) : part.height < phrase.height := by
  rw [@height_eq phrase]
  exact Nat.lt_succ_of_le (height_le_heightAll isPart)

theorem height_pos : 0 < phrase.height := by
  rw [height_eq]
  exact Nat.succ_pos _

/-- What holds of a phrase and goes on to the parts of those it holds of holds of all
below. -/
theorem all_induction {motive : Phrase → Prop} (here : motive outer)
    (goesOn : ∀ inner ∈ outer.all, motive inner → ∀ part ∈ inner.parts, motive part)
    (inside : deepest ∈ outer.all) : motive deepest := by
  generalize level : outer.height = height
  induction height using Nat.strongRecOn generalizing outer with
  | ind height ih =>
      rcases mem_all.1 inside with rfl | below
      · exact here
      · rcases mem_allOf.1 below with ⟨part, isPart, inPart⟩
        have partInside := mem_all_of_part isPart
        refine ih part.height (level ▸ height_lt_of_part isPart)
          (goesOn outer mem_all_self here part isPart) ?_ inPart rfl
        exact fun inner inInner => goesOn inner (mem_all_trans partInside inInner)

theorem height_le_of_mem_all (inside : inner ∈ outer.all) : inner.height ≤ outer.height :=
  all_induction (motive := fun phrase => phrase.height ≤ outer.height) (Nat.le_refl _)
    (fun _ _ low _ isPart => Nat.le_trans (Nat.le_of_lt (height_lt_of_part isPart)) low) inside

theorem height_lt_of_mem_allOf (below : inner ∈ allOf outer.parts) :
    inner.height < outer.height := by
  rcases mem_allOf.1 below with ⟨part, isPart, inside⟩
  exact Nat.lt_of_le_of_lt (height_le_of_mem_all inside) (height_lt_of_part isPart)

theorem covers_refl (span : Span) : covers span span := by simp [covers]

theorem covers_trans {first second third : Span} (above : covers first second)
    (below : covers second third) : covers first third := by
  simp only [covers, Bool.and_eq_true, decide_eq_true_eq] at *
  omega

/-! ## Phrases with numbers of their own -/

section Numbered

variable {root around other : Phrase}

/-- Of several phrases with numbers of their own only one holds a number. -/
theorem eq_of_number (numbered : (numbersOf phrases).Nodup) (first : phrase ∈ phrases)
    (second : other ∈ phrases) {number : Nat} (inFirst : number ∈ phrase.numbers)
    (inSecond : number ∈ other.numbers) : phrase = other := by
  induction phrases with
  | nil => cases first
  | cons head rest ih =>
      rw [numbersOf_cons, List.nodup_append] at numbered
      have inRest : ∀ later ∈ rest, number ∈ later.numbers → number ∈ numbersOf rest :=
        fun later isLater isNumber =>
          ((all_sublist_allOf isLater).map _).subset isNumber
      rcases List.mem_cons.1 first with rfl | laterFirst <;>
        rcases List.mem_cons.1 second with rfl | laterSecond
      · rfl
      · exact absurd rfl (numbered.2.2 _ inFirst _ (inRest other laterSecond inSecond))
      · exact absurd rfl (numbered.2.2 _ inSecond _ (inRest phrase laterFirst inFirst))
      · exact ih numbered.2.1 laterFirst laterSecond

/-- What is inside some phrases has other numbers than what is inside those after them. -/
theorem number_ne_of_append (numbered : (numbersOf (phrases ++ others)).Nodup)
    (first : inner ∈ allOf phrases) (second : deepest ∈ allOf others) :
    inner.number ≠ deepest.number := by
  intro same
  rw [numbersOf, allOf_append, List.map_append, List.nodup_append] at numbered
  exact numbered.2.2 _ (List.mem_map_of_mem first) _ (List.mem_map_of_mem second) same

theorem numbered_of_mem (numbered : root.numbers.Nodup) (inside : phrase ∈ root.all) :
    phrase.numbers.Nodup :=
  (numbers_sublist inside).nodup numbered

theorem numbered_parts (numbered : phrase.numbers.Nodup) : (numbersOf phrase.parts).Nodup :=
  (allOf_parts_sublist.map _).nodup numbered

theorem number_not_mem_parts (numbered : phrase.numbers.Nodup) :
    phrase.number ∉ numbersOf phrase.parts := by
  rw [numbers, all_eq, List.map_cons, List.nodup_cons] at numbered
  exact numbered.1

theorem eq_of_number_eq (numbered : root.numbers.Nodup) (first : phrase ∈ root.all)
    (second : other ∈ root.all) (same : phrase.number = other.number) : phrase = other :=
  List.inj_on_of_nodup_map numbered first second same

/-- A phrase is a part of one phrase only. -/
theorem parent_unique (numbered : root.numbers.Nodup) (first : around ∈ root.all)
    (second : other ∈ root.all) (inFirst : part ∈ around.parts) (inSecond : part ∈ other.parts) :
    around = other := by
  generalize level : root.height = height
  induction height using Nat.strongRecOn generalizing root with
  | ind height ih =>
      -- A part of the whole is no part of anything further down.
      have apart : ∀ {deep : Phrase}, deep ∈ allOf root.parts → part ∈ deep.parts →
          part ∉ root.parts := by
        intro deep below isPart partOfRoot
        rcases mem_allOf.1 below with ⟨top, isTop, inTop⟩
        have partInTop := mem_all_trans inTop (mem_all_of_part isPart)
        obtain rfl := eq_of_number (numbered_parts numbered) partOfRoot isTop
          (mem_numbers mem_all_self) (mem_numbers partInTop)
        exact absurd (height_lt_of_part isPart) (Nat.not_lt.2 (height_le_of_mem_all inTop))
      rcases mem_all.1 first with rfl | first <;> rcases mem_all.1 second with rfl | second
      · rfl
      · exact absurd inFirst (apart second inSecond)
      · exact absurd inSecond (apart first inFirst)
      · rcases mem_allOf.1 first with ⟨top, isTop, inTop⟩
        rcases mem_allOf.1 second with ⟨top', isTop', inTop'⟩
        obtain rfl := eq_of_number (numbered_parts numbered) isTop isTop'
          (mem_numbers (mem_all_trans inTop (mem_all_of_part inFirst)))
          (mem_numbers (mem_all_trans inTop' (mem_all_of_part inSecond)))
        exact ih top.height (level ▸ height_lt_of_part isTop)
          (numbered_of_mem numbered (mem_all_of_part isTop)) inTop inTop' rfl

end Numbered

/-- In a unit without syntax errors a phrase covers all that it holds. -/
theorem Grammatical.covers_of_mem_all {root : Phrase} (unit : root.Grammatical)
    (inRoot : outer ∈ root.all) (inside : inner ∈ outer.all) : covers outer.span inner.span :=
  all_induction (motive := fun phrase => covers outer.span phrase.span) (covers_refl _)
    (fun around inOuter above part isPart =>
      covers_trans above (unit.nested around (mem_all_trans inRoot inOuter) part isPart)) inside

/-! ## Parts -/

variable {slot : Slot} {test : Phrase → Bool}

theorem mem_parts_of_named (member : part ∈ phrase.namedParts) : part ∈ phrase.parts :=
  List.mem_of_mem_filter member

theorem mem_parts_of_slot (found : phrase.part? slot = some part) : part ∈ phrase.parts :=
  List.mem_of_find?_eq_some found

theorem slot_of_part (found : phrase.part? slot = some part) : part.slot = some slot := by
  simpa using List.find?_some found

theorem mem_parts_of_partsIn (member : part ∈ phrase.partsIn slot) : part ∈ phrase.parts :=
  List.mem_of_mem_filter member

theorem mem_named_of_find (found : phrase.namedParts.find? test = some part) :
    part ∈ phrase.namedParts :=
  List.mem_of_find?_eq_some found

theorem mem_parts_of_content (found : phrase.content? = some part) : part ∈ phrase.parts :=
  mem_parts_of_named (mem_named_of_find found)

theorem mem_annotations {use : Phrase} (isUse : use ∈ phrase.annotations) :
    ∃ list ∈ phrase.parts, list.construct = .modifiers ∧ use ∈ list.parts ∧
      use.construct.isAnnotationUse := by
  rcases List.mem_filter.1 isUse with ⟨isUse, isAnnotation⟩
  rcases List.mem_flatMap.1 isUse with ⟨list, isList, inList⟩
  rcases List.mem_filter.1 isList with ⟨isNamed, isModifiers⟩
  exact ⟨list, mem_parts_of_named isNamed, by simpa using isModifiers, mem_parts_of_named inList,
    isAnnotation⟩

/-! ## Members -/

theorem members_eq {body : Phrase} : body.members = body.namedParts.flatMap fun part =>
    if part.construct == .enumBodyDeclarations then part.namedParts else [part] := rfl

/-- The members of a body are listed among its parts in the same order. -/
theorem allOf_members_sublist {body : Phrase} :
    (allOf body.members).Sublist (allOf body.parts) := by
  have named : (allOf body.namedParts).Sublist (allOf body.parts) :=
    allOf_sublist List.filter_sublist
  refine .trans ?_ named
  rw [members_eq]
  induction body.namedParts with
  | nil => exact .refl _
  | cons part parts ih =>
      rw [List.flatMap_cons, allOf_append, allOf_cons]
      refine .append ?_ ih
      split
      · exact (allOf_sublist List.filter_sublist).trans allOf_parts_sublist
      · simp

theorem mem_all_of_member {body member : Phrase} (isMember : member ∈ body.members) :
    member ∈ body.all :=
  mem_all.2 (.inr (allOf_members_sublist.subset (mem_allOf_of_mem isMember)))

theorem height_lt_of_member {body member : Phrase} (isMember : member ∈ body.members) :
    member.height < body.height := by
  rw [members_eq] at isMember
  rcases List.mem_flatMap.1 isMember with ⟨part, isPart, inside⟩
  have below := height_lt_of_part (mem_parts_of_named isPart)
  split at inside
  · exact Nat.lt_trans (height_lt_of_part (mem_parts_of_named inside)) below
  · obtain rfl := List.mem_singleton.1 inside
    exact below

end Phrase

end JavaInspect.Java
