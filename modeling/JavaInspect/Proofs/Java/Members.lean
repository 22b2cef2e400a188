import JavaInspect.Proofs.Java.Expressions
import Mathlib.Data.List.Forall2

/-!
# Lowering the members of a body

The members of a body are lowered one after the other. What one of them declares is inside it, so
each finds for itself what was declared for it when the body was linked.
-/

namespace JavaInspect.Java

open Phrase Lowering

variable {root phrase body member : Phrase} {base depth : Nat} {scope : List Nat}
  {news : List NodeId} {views : List NodeData} {before middle after : Lowering} {source : Source}
  {role : Role} {step : Lower.Step} {declared later : Declared} {members rest phrases : List Phrase}

/-! ## What is due and what stands -/

/-- Declarations that a phrase and what is below it are looked up in with the same results. -/
def SameBelow (declared later : Declared) (phrase : Phrase) : Prop :=
  ∀ number ∈ phrase.numbers, later.lookup number = declared.lookup number

theorem due_congr (same : SameBelow declared later phrase) : due later phrase = due declared phrase := by
  have sameTypes : typesOf later [phrase] = typesOf declared [phrase] := by
    refine List.filterMap_congr fun type isType => same type.number ?_
    rw [List.flatMap_singleton] at isType
    exact mem_numbers (mem_all_of_mem_types isType)
  rw [due, due, same phrase.number (mem_numbers mem_all_self), sameTypes]

theorem Stands.congr {view : NodeData} (stands : Stands declared phrase view)
    (same : later.lookup phrase.number = declared.lookup phrase.number) :
    Stands later phrase view :=
  ⟨fun binding found => stands.binding binding (same ▸ found), stands.isConstructor⟩

/-- What is due for all members together. -/
theorem flatMap_due (allDeclared : AllDeclared declared (members.flatMap types)) :
    members.flatMap (due declared) = typesOf declared members := by
  induction members with
  | nil => rfl
  | cons member members ih =>
      have rest := ih fun phrase isIn => allDeclared phrase (by
        rw [List.flatMap_cons]
        exact List.mem_append_right _ isIn)
      have first : due declared member = typesOf declared [member] := by
        unfold due
        split
        case isTrue => rfl
        case isFalse absent =>
          rw [typesOf, List.flatMap_singleton]
          by_cases isType : member.declaresType
          case neg => rw [types_eq_nil isType, List.filterMap_nil]
          case pos =>
            refine (absent (allDeclared member ?_)).elim
            rw [List.flatMap_cons]
            exact List.mem_append_left _ (mem_types_self isType)
      rw [List.flatMap_cons, rest, first, typesOf, typesOf, typesOf, List.flatMap_singleton,
        List.flatMap_cons, List.filterMap_append]

theorem Stands.bindings (stands : List.Forall₂ (Stands declared) phrases views)
    (allDeclared : AllDeclared declared phrases) :
    views.map (·.binding) = phrases.map fun phrase => declared.lookup phrase.number := by
  induction stands with
  | nil => rfl
  | @cons phrase view phrases views first rest ih =>
      rw [List.map_cons, List.map_cons, ih fun phrase isIn => allDeclared phrase (by simp [isIn])]
      rcases Option.isSome_iff_exists.1 (allDeclared phrase List.mem_cons_self) with ⟨binding, found⟩
      rw [found, first.binding binding found]

theorem Stands.constructors (stands : List.Forall₂ (Stands declared) phrases views)
    (allDeclared : AllDeclared declared phrases) :
    (views.filter (·.kind == .constructor)).filterMap (·.binding) =
      (phrases.filter (·.construct.isConstructor)).filterMap
        fun phrase => declared.lookup phrase.number := by
  induction stands with
  | nil => rfl
  | @cons phrase view phrases views first rest ih =>
      have same := ih fun phrase isIn => allDeclared phrase (by simp [isIn])
      rcases Option.isSome_iff_exists.1 (allDeclared phrase List.mem_cons_self) with ⟨binding, found⟩
      by_cases isConstructor : phrase.construct.isConstructor
      · have isKind : (view.kind == .constructor) = true := by
          simpa using first.isConstructor.2 isConstructor
        simp only [List.filter_cons, isKind, isConstructor, if_true, List.filterMap_cons, found,
          first.binding binding found, same]
      · have noKind : ¬ (view.kind == .constructor) = true := by
          simpa using fun isKind => isConstructor (first.isConstructor.1 isKind)
        simp only [List.filter_cons, noKind, isConstructor, if_false, same, Bool.false_eq_true]

/-! ## Members of a body -/

/-- What the nodes of the members of a body are like. -/
structure Lists (declared : Declared) (members : List Phrase) (views : List NodeData) : Prop where
  plain : ∀ view ∈ views, view.role = .member ∧ view.kind ≠ .arguments ∧ view.kind ≠ .parameters
  stands : List.Forall₂ (Stands declared) (members.flatMap declarations)
    (views.filter (·.kind.declaresMember))

namespace Lower

theorem bodyPart_of_member (unit : root.Grammatical) (inRoot : body ∈ root.all)
    (isTypeBody : body.construct.isTypeBody) (isMember : member ∈ body.members) :
    member.construct.isBodyPart ∧ member.construct ≠ .enumBodyDeclarations := by
  rw [members_eq] at isMember
  rcases List.mem_flatMap.1 isMember with ⟨part, isNamed, inside⟩
  have isPart := mem_parts_of_named isNamed
  have partInRoot := mem_all_trans inRoot (mem_all_of_part isPart)
  split at inside
  case isTrue isRest =>
    have isRest : part.construct = .enumBodyDeclarations := by simpa using isRest
    refine ⟨(unit.shaped part partInRoot).bodyParts (.inr isRest) member inside, fun again => ?_⟩
    have fits := (unit.shaped part partInRoot).home member (mem_parts_of_named inside)
    rw [again, isRest] at fits
    cases fits
  case isFalse notRest =>
    obtain rfl := List.mem_singleton.1 inside
    exact ⟨(unit.shaped body inRoot).bodyParts (.inl isTypeBody) member isNamed, by simpa using notRest⟩

theorem places_member (unit : root.Grammatical) (inRoot : body ∈ root.all)
    (isTypeBody : body.construct.isTypeBody) (isMember : member ∈ body.members)
    (homed : before.Homed) : before.Places member := by
  rcases bodyPart_of_member unit inRoot isTypeBody isMember with ⟨isBodyPart, notRest⟩
  refine ⟨?_, notRest, fun _ => homed⟩
  cases is : member.construct <;> simp_all [Construct.isBodyPart, Construct.isTypeBody]

/-- Phrases are lowered one after the other. What is declared for one of them is declared inside it,
so each finds what was declared for it at the start. -/
theorem advances_forM {one : Phrase → Lower PUnit} {phrases : List Phrase}
    (listed : List Phrase → List NodeData → Prop) (numbered : (numbersOf phrases).Nodup)
    (sound : Sound root base before) (start : listed [] [])
    (goesOn : ∀ phrase ∈ phrases, ∀ done views middle,
      (∃ scope due news, Advances root base scope due news before middle) →
      SameBelow before.declared middle.declared phrase → listed done views →
        Ensures (one phrase) middle fun _ after => ∃ more,
          Advances root base phrase.numbers (due middle.declared phrase) more middle after ∧
            listed (done ++ [phrase]) (views ++ more.map after.tree.data)) :
    Ensures (phrases.forM one) before fun _ after => ∃ news,
      Advances root base (numbersOf phrases) (phrases.flatMap (due before.declared)) news before
        after ∧ listed phrases (news.map after.tree.data) := by
  refine (Ensures.forM (fun rest after => ∃ done news, phrases = done ++ rest ∧
    Advances root base (numbersOf done) (done.flatMap (due before.declared)) news before after ∧
      listed done (news.map after.tree.data)) ⟨[], [], rfl, .refl sound, start⟩ ?_).imp ?_
  rotate_left
  · rintro _ after ⟨done, news, split, advances, lists⟩
    rw [List.append_nil] at split
    exact ⟨news, split ▸ advances, split ▸ lists⟩
  rintro phrase rest middle ⟨done, news, split, advances, lists⟩
  have same : SameBelow before.declared middle.declared phrase := by
    intro number isNumber
    refine advances.lookup_eq fun isOld => ?_
    rcases List.mem_map.1 isNumber with ⟨inner, inside, rfl⟩
    rcases List.mem_map.1 isOld with ⟨other, isOther, same⟩
    rw [split] at numbered
    exact number_ne_of_append numbered isOther
      (mem_allOf.2 ⟨phrase, List.mem_cons_self, inside⟩) same
  refine (goesOn phrase (by simp [split]) done _ middle ⟨_, _, _, advances⟩ same lists).imp ?_
  rintro _ after ⟨more, handled, lists⟩
  refine ⟨done ++ [phrase], news ++ more, by simp [split], ?_, ?_⟩
  · rw [List.flatMap_append, List.flatMap_singleton, ← due_congr same]
    refine (advances.imp ?_ fun _ => Nat.le_refl _).andThen
      (handled.imp ?_ fun _ => Nat.le_refl _)
    · exact ((allOf_sublist (List.sublist_append_left done [phrase])).map _).subset
    · exact ((all_sublist_allOf (List.mem_append_right _ List.mem_cons_self)).map _).subset
  · rwa [List.map_append, advances.views_eq handled sound.rooted.current_inside]

/-- The members of a body are lowered to nodes with the bindings that they were declared with. -/
theorem advances_lowerMembers (unit : root.Grammatical) (handles : Handles root base step depth)
    (inRoot : body ∈ root.all) (low : body.height ≤ depth + 1)
    (isTypeBody : body.construct.isTypeBody) (sound : Sound root base before)
    (room : covers (before.tree.span before.builder.current) body.span) (homed : before.Homed) :
    Ensures (lowerMembers step body) before fun _ after => ∃ news,
      Advances root base (numbersOf body.members) (body.members.flatMap (due before.declared)) news
        before after ∧ Lists before.declared body.members (news.map after.tree.data) := by
  have numbered : (numbersOf body.members).Nodup :=
    ((allOf_members_sublist.trans allOf_parts_sublist).map _).nodup
      (numbered_of_mem unit.numbered inRoot)
  refine advances_forM (Lists before.declared) numbered sound ⟨by simp, .nil⟩ ?_
  rintro member isMember done views middle ⟨_, _, _, advances⟩ same lists
  have memberInRoot := mem_all_trans inRoot (mem_all_of_member isMember)
  have bodyPart := bodyPart_of_member unit inRoot isTypeBody isMember
  have stillRoom : covers (middle.tree.span middle.builder.current) member.span :=
    advances.room sound
      (covers_trans room (unit.covers_of_mem_all inRoot (mem_all_of_member isMember)))
  have stillHomed := advances.homed sound.toSteady (by simp) homed
  refine (handles member memberInRoot (Nat.le_of_lt_succ (Nat.lt_of_lt_of_le
    (height_lt_of_member isMember) low)) .member middle advances.sound
    ⟨places_member unit inRoot isTypeBody isMember stillHomed, stillRoom⟩).bind ?_
  rintro answer after ⟨more, handled⟩
  have yields := handled.yields
  refine .pure ⟨more, handled.advances, ?_, ?_⟩
  · intro view isView
    rcases List.mem_append.1 isView with old | isNew
    · exact lists.plain view old
    · refine ⟨yields.roles ?_ view isNew, yields.kinds view isNew⟩
      have isBodyPart := bodyPart.1
      cases is : member.construct <;> simp_all [Construct.isBodyPart, Construct.isAnnotationUse]
  · rw [List.filter_append, List.flatMap_append, List.flatMap_singleton]
    refine List.rel_append lists.stands ?_
    have inside : List.Forall₂ (fun phrase view => phrase ∈ member.all ∧ Stands middle.declared phrase view)
        member.declarations ((more.map after.tree.data).filter (·.kind.declaresMember)) :=
      (List.forall₂_and_left _ _).2
        ⟨fun phrase => mem_all_of_declaration (unit.shaped member memberInRoot),
          yields.members bodyPart.1⟩
    exact inside.imp fun phrase view both =>
      both.2.congr (same phrase.number (mem_numbers both.1)).symm

end Lower

end JavaInspect.Java
