import JavaInspect.Proofs.Java.Members

/-!
# Lowering parameter lists

A parameter list becomes a node with a child for every parameter that has a name. Parameters of
methods are local names; those of a record stand for its fields and carry their bindings.
-/

namespace JavaInspect.Java

open Phrase Lowering

variable {root phrase list parameter component : Phrase} {base depth : Nat}
  {news : List NodeId} {views : List NodeData} {before middle after : Lowering} {source : Source}
  {step : Lower.Step} {declared later : Declared} {asComponent : Prop}

theorem Phrase.mem_all_of_parameterName {name : Phrase} (isName : parameter.parameterName? = some name) :
    name ∈ parameter.all := by
  unfold parameterName? at isName
  split at isName
  case h_1 => exact mem_all_of_part (mem_parts_of_slot isName)
  case h_2 =>
    rcases Option.bind_eq_some_iff.1 isName with ⟨declarator, isDeclarator, isName⟩
    exact mem_all_trans (mem_all_of_part (mem_parts_of_named (mem_named_of_find isDeclarator)))
      (mem_all_of_part (mem_parts_of_slot isName))
  case h_3 => cases isName

/-- What the node of a parameter is like. That of a component of a record has its binding. -/
def Names (asComponent : Prop) (declared : Declared) (parameter : Phrase) (view : NodeData) : Prop :=
  view.kind = .parameter ∧ (asComponent → view.binding = declared.lookup parameter.number)

/-- What the nodes of some parameters are like, of which only those with a name have one. -/
def NamesAll (asComponent : Prop) (declared : Declared) (parameters : List Phrase)
    (views : List NodeData) : Prop :=
  List.Forall₂ (Names asComponent declared) (parameters.filter (·.parameterName?.isSome)) views

theorem NamesAll.congr {parameters : List Phrase}
    (names : NamesAll asComponent declared parameters views)
    (same : ∀ parameter ∈ parameters, parameter.parameterName?.isSome →
      later.lookup parameter.number = declared.lookup parameter.number) :
    NamesAll asComponent later parameters views := by
  have inside : List.Forall₂ (fun parameter view =>
      parameter ∈ parameters.filter (·.parameterName?.isSome) ∧
        Names asComponent declared parameter view)
      (parameters.filter (·.parameterName?.isSome)) views :=
    (List.forall₂_and_left _ _).2 ⟨fun _ => id, names⟩
  refine inside.imp fun parameter view ⟨isIn, isKind, isBinding⟩ => ⟨isKind, fun is => ?_⟩
  rcases List.mem_filter.1 isIn with ⟨isIn, hasName⟩
  rw [isBinding is, same parameter isIn hasName]

theorem NamesAll.of_no_name (noName : parameter.parameterName? = none) :
    NamesAll asComponent declared [parameter] [] := by
  have none : [parameter].filter (·.parameterName?.isSome) = [] := by simp [noName]
  rw [NamesAll, none]
  exact .nil

theorem Lowering.Builds.names {scope : List Nat} {due : List BindingId} {node : NodeId}
    {data : NodeData} {name : Phrase}
    (makes : Makes root base scope due node data views before after)
    (isName : parameter.parameterName? = some name) (isKind : data.kind = .parameter)
    (isBinding : asComponent → data.binding = declared.lookup parameter.number) :
    ∃ news, Advances root base scope due news before after ∧
      NamesAll asComponent declared [parameter] (news.map after.tree.data) := by
  refine ⟨[node], makes.toProgress, ?_⟩
  have kept : [parameter].filter (·.parameterName?.isSome) = [parameter] := by simp [isName]
  rw [NamesAll, kept, List.map_singleton, makes.isData]
  exact .cons ⟨isKind, isBinding⟩ .nil

namespace Lower

/-- A parameter list becomes a node with a child for every parameter with a name. -/
theorem makes_lowerParameterList {lowerOne : Phrase → Lower Unit} (unit : root.Grammatical)
    (inRoot : list ∈ root.all) (sound : Sound root base before)
    (room : covers (before.tree.span before.builder.current) list.span)
    (one : ∀ parameter ∈ list.namedParts, ∀ middle, Sound root base middle →
      covers (middle.tree.span middle.builder.current) parameter.span →
        Ensures (lowerOne parameter) middle fun _ after => ∃ news,
          Advances root base parameter.numbers [] news middle after ∧
            NamesAll asComponent middle.declared [parameter] (news.map after.tree.data)) :
    Ensures (lowerParameterList lowerOne (some list)) before fun _ after => ∃ node data views,
      Makes root base list.numbers [] node data views before after ∧ data.kind = .parameters ∧
        data.role = .plain ∧ NamesAll asComponent before.declared list.namedParts views := by
  have numbered : (numbersOf list.namedParts).Nodup :=
    ((allOf_sublist List.filter_sublist).map _).nodup
      (numbered_parts (numbered_of_mem unit.numbered inRoot))
  refine (opens_start list.numbers sound room).bind ?_
  rintro node opened ⟨⟨_, rfl⟩, opens⟩
  -- What a parameter declares is inside it, so the others are looked up as before.
  refine (Ensures.forM (fun rest after => ∃ done news views, list.namedParts = done ++ rest ∧
      (∀ parameter ∈ rest, after.declared.lookup parameter.number =
        before.declared.lookup parameter.number) ∧
      Opens root base list.numbers [] node
        { before.fresh .parameters list .plain with children := news } views before after ∧
      NamesAll asComponent before.declared done views)
    ⟨[], [], [], rfl, fun _ _ => rfl, opens, .nil⟩ ?_).bind ?_
  · rintro parameter rest middle ⟨done, news, views, split, same, opens, names⟩
    have isNamed : parameter ∈ list.namedParts := by simp [split]
    have isPart := mem_parts_of_named isNamed
    refine (one parameter isNamed middle opens.sound
      (opens.room (unit.nested list inRoot parameter isPart))).imp ?_
    rintro _ after ⟨more, advances, namesOne⟩
    refine ⟨done ++ [parameter], news ++ more, _, by simp [split], fun later isLater => ?_,
      opens.within advances (numbers_sublist (mem_all_of_part isPart)).subset, ?_⟩
    · rw [← same later (List.mem_cons_of_mem _ isLater)]
      refine advances.lookup_eq fun isNumber => ?_
      rcases List.mem_map.1 isNumber with ⟨inner, inside, sameNumber⟩
      rw [split, List.append_cons] at numbered
      exact number_ne_of_append numbered
        (mem_allOf.2 ⟨parameter, List.mem_append_right _ List.mem_cons_self, inside⟩)
        (mem_allOf_of_mem isLater) sameNumber
    · rw [NamesAll, List.filter_append]
      refine List.rel_append names (namesOne.congr fun other isOther _ => ?_)
      obtain rfl := List.mem_singleton.1 isOther
      exact (same _ List.mem_cons_self).symm
  rintro _ after ⟨done, news, views, split, -, opens, names⟩
  rw [List.append_nil] at split
  rw [← split] at names
  refine (makes_finish opens fun _ => opens.bound_of_plain rfl).imp ?_
  rintro _ later ⟨_, makes⟩
  exact ⟨node, _, views, makes, rfl, rfl, names⟩

section One

variable (unit : root.Grammatical) (handles : Handles root base step depth)
  (inRoot : parameter ∈ root.all) (low : parameter.height ≤ depth + 1)
  (sound : Sound root base before)
  (room : covers (before.tree.span before.builder.current) parameter.span)
include unit handles inRoot low sound room

/-- A parameter of a method is lowered as a local name. -/
theorem names_lowerParameter :
    Ensures (lowerParameter source step parameter) before fun _ after => ∃ news,
      Advances root base parameter.numbers [] news before after ∧
        NamesAll False before.declared [parameter] (news.map after.tree.data) := by
  refine (isParameter_parameterParts sound.readable parameter).bind ?_
  rintro parts widened ⟨widens, isName, isType⟩
  have first : Advances root base parameter.numbers [] [] before widened :=
    .of_widens unit sound widens
  rcases parts with - | ⟨name, type, varargs⟩
  case none => exact .pure ⟨[], first, .of_no_name isName.symm⟩
  case some =>
    replace isName : parameter.parameterName? = some name := isName.symm
    refine (becomes_lowerLocal unit handles inRoot low first.sound ?_
      (unit.covers_of_mem_all inRoot (mem_all_of_parameterName isName)) (isType _ _ _ rfl)
      (.inr rfl)).bind ?_
    · rw [Lowering.tree, widens.builder_eq]
      exact room
    rintro node after ⟨data, views, makes, isKind, -⟩
    exact .pure ((makes.prepend sound first).names isName isKind False.elim)

/-- A component of a record is bound to its field. -/
theorem names_lowerComponent :
    Ensures (lowerComponent source step parameter) before fun _ after => ∃ news,
      Advances root base parameter.numbers [] news before after ∧
        NamesAll True before.declared [parameter] (news.map after.tree.data) := by
  refine (isParameter_parameterParts sound.readable parameter).bind ?_
  rintro parts widened ⟨widens, isName, isType⟩
  have first : Advances root base parameter.numbers [] [] before widened :=
    .of_widens unit sound widens
  rcases parts with - | ⟨name, type, varargs⟩
  case none => exact .pure ⟨[], first, .of_no_name isName.symm⟩
  case some =>
    replace isName : parameter.parameterName? = some name := isName.symm
    replace isType := isType _ _ _ rfl
    have isRoom : covers (widened.tree.span widened.builder.current) parameter.span := by
      rw [Lowering.tree, widens.builder_eq]
      exact room
    have same : widened.declared.lookup parameter.number =
        before.declared.lookup parameter.number := by
      rcases widens with ⟨_, rfl, -⟩
      rfl
    have ends : ∀ {node data after}, Opens root base parameter.numbers [] node data [] before after →
        data.kind = .parameter → data.span = parameter.span →
        data.binding = before.declared.lookup parameter.number →
        Ensures (do
          lowerModifiers source step node parameter
          finish) after fun _ after => ∃ news,
            Advances root base parameter.numbers [] news before after ∧
              NamesAll True before.declared [parameter] (news.map after.tree.data) := by
      intro node data after opens isKind isSpan isBinding
      refine (opens_lowerModifiers unit handles inRoot low opens (isSpan ▸ covers_refl _)
        annotations_subset).bind ?_
      rintro _ modified ⟨_, _, _, _, -, opens, -⟩
      refine (makes_finish opens fun _ => opens.bound_of_plain ?_).imp ?_
      · rw [isKind]
        rfl
      · rintro _ later ⟨-, makes⟩
        exact makes.names isName isKind fun _ => isBinding
    refine (opens_start parameter.numbers first.sound isRoom).bind ?_
    rintro node _ ⟨⟨_, rfl⟩, opens⟩
    replace isType := opens.grows.holds isType
    replace opens := opens.prepend sound first
    refine (completes_setName opens (.inl List.mem_cons_self) (unit.covers_of_mem_all inRoot
      (mem_all_of_parameterName isName)) (source.textOf name)).bind ?_
    rintro _ _ ⟨⟨_, rfl⟩, opens⟩
    refine (completes_setTypeBinding opens (.inl List.mem_cons_self) isType).bind ?_
    rintro _ _ ⟨⟨_, rfl⟩, opens⟩
    refine .step (.via (fun _ after => ∃ data,
      Opens root base parameter.numbers [] node data [] before after ∧ data.kind = .parameter ∧
        data.span = parameter.span ∧ data.binding = before.declared.lookup parameter.number)
      (.optionForM ?_ ?_) ?_)
    · intro field found
      have fits := opens.sound.consistent.fit parameter inRoot field found
      have isVariable := fits.kind
      rw [(declares_of_parameterName (isName ▸ rfl)).1] at isVariable
      refine (completes_setBinding opens (.inl List.mem_cons_self) rfl
        ⟨fits.inTable, by rw [← Option.some.inj isVariable]; rfl⟩).imp ?_
      rintro _ _ ⟨-, opens⟩
      exact ⟨_, opens, rfl, rfl, found.symm.trans same⟩
    · intro absent
      exact ⟨_, opens, rfl, rfl, absent.symm.trans same⟩
    · rintro _ after ⟨data, opens, isKind, isSpan, isBinding⟩
      exact ends opens isKind isSpan isBinding

end One

end Lower

end JavaInspect.Java
