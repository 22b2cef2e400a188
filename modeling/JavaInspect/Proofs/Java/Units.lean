import JavaInspect.Java.Frontend
import JavaInspect.Proofs.Java.Handling

/-!
# Lowered units

All passes over a compilation unit together. The types outside of bodies are declared and linked,
and then the tree is built. In the end every stack is empty again, every node is closed and carries
bindings that go with its kind, and the types of the unit share bindings only if nodes do.
-/

namespace JavaInspect.Java

open Phrase Lowering

variable {root part : Phrase} {base : Nat} {table : Table} {before after : Lowering} {source : Source}
  {nodeKind : NodeKind}

/-- A unit before any of it is lowered, over the bindings of a class path. -/
abbrev Lowering.ofRoot (table : Table) (root : Phrase) : Lowering :=
  { table, builder := .new root.span }

namespace Phrase

/-- The members of a unit are its parts. -/
theorem Grammatical.members_eq (unit : root.Grammatical) : root.members = root.namedParts := by
  have alone : ∀ part ∈ root.namedParts, (part.construct == .enumBodyDeclarations) = false := by
    intro part isNamed
    rw [beq_eq_false_iff_ne]
    intro isRest
    have fits := (unit.shaped root mem_all_self).home part (mem_parts_of_named isNamed)
    rw [isRest, unit.program] at fits
    cases fits
  rw [Phrase.members_eq]
  calc root.namedParts.flatMap _
    _ = root.namedParts.flatMap fun part => [part] :=
      List.flatMap_congr fun part isNamed => by rw [alone part isNamed]; rfl
    _ = root.namedParts := List.flatMap_singleton' _

theorem numbered_namedParts (numbered : root.numbers.Nodup) : (numbersOf root.namedParts).Nodup :=
  ((allOf_sublist List.filter_sublist).map _).nodup (numbered_parts numbered)

end Phrase

namespace Lowering

/-- A unit of which nothing has been lowered is sound. -/
theorem Sound.start (typed : table.Typed) (root : Phrase) :
    Sound root table.size (.ofRoot table root) := by
  have data : ∀ node, (Lowering.ofRoot table root).tree.data node =
      { kind := .compilationUnit, span := root.span } ∨
      (Lowering.ofRoot table root).tree.data node = {} := by
    intro node
    unfold Lowering.ofRoot Lowering.tree TreeBuilder.new TreeBuilder.build Tree.data
    cases node.index <;> simp
  refine ⟨⟨.start typed, by simp, by simp, by simp, .new, fun node parent isParent => ?_,
    fun node => ?_, fun _ node inside closed => ?_,
    ⟨_, rfl, .of_types (Nat.le_refl _) rfl rfl ⟨[], rfl, rfl⟩⟩, fun node _ type isBinding => ?_⟩,
    by simp⟩
  · rcases data node with is | is <;> rw [Tree.parent, is] at isParent <;> cases isParent
  · rcases data node with is | is <;> rw [is] <;> exact ⟨by simp, by simp, by simp⟩
  · have : node.index = 0 := by simpa [TreeBuilder.new, TreeBuilder.build, Tree.size] using inside
    exact absurd (congrArg NodeId.mk this) closed.1
  · rcases data node with is | is <;> rw [Tree.binding, is] at isBinding <;> cases isBinding

end Lowering

namespace Lower

/-- Package and import declarations become nodes without children. -/
theorem advances_lowerHeaderPart (unit : root.Grammatical) (inRoot : part ∈ root.all)
    (sound : Sound root base before)
    (room : covers (before.tree.span before.builder.current) part.span) (plain : nodeKind.isPlain) :
    Ensures (lowerHeaderPart source nodeKind part) before fun _ after => ∃ news,
      Advances root base part.numbers [] news before after := by
  refine (makes_leaf part.numbers sound room (NodeKind.noType_of_plain plain)).bind fun node _ makes => ?_
  refine .optionForM (fun name isName => ?_) fun _ => ⟨_, makes.toProgress⟩
  have isPart : name ∈ part.parts := (List.mem_filter.1 (List.mem_of_mem_head? isName)).1
  refine (completes_setName makes (.inr plain) (unit.nested part inRoot name isPart)
    (source.textOf name)).imp ?_
  rintro _ _ ⟨-, makes⟩
  exact ⟨_, makes.toProgress⟩

/-- The parts of a unit become nodes below the root. -/
theorem advances_lowerUnit (unit : root.Grammatical) (sound : Sound root base before)
    (room : covers (before.tree.span before.builder.current) root.span) :
    Ensures (lowerUnit source root) before fun _ after => ∃ news,
      Advances root base root.numbers (root.namedParts.flatMap (due before.declared)) news before
        after := by
  have subset : numbersOf root.namedParts ⊆ root.numbers := fun _ =>
    numbersOf_subset fun part isNamed => mem_all_of_part (mem_parts_of_named isNamed)
  refine (advances_forM (fun _ _ => True) (numbered_namedParts unit.numbered) sound trivial
    ?_).imp ?_
  rotate_left
  · rintro _ _ ⟨news, advances, -⟩
    exact ⟨news, advances.imp subset fun _ => Nat.le_refl _⟩
  rintro part isNamed - - middle ⟨_, _, _, advances⟩ - -
  have isPart := mem_parts_of_named isNamed
  have inRoot := mem_all_of_part isPart
  have room := advances.room sound (covers_trans room (unit.nested root mem_all_self part isPart))
  have header : ∀ {nodeKind : NodeKind}, nodeKind.isPlain → ¬ part.declaresType →
      Ensures (lowerHeaderPart source nodeKind part) middle fun _ after => ∃ more,
        Advances root base part.numbers (due middle.declared part) more middle after ∧ True := by
    intro nodeKind plain noType
    rw [due_eq_nil noType]
    refine (advances_lowerHeaderPart unit inRoot advances.sound room plain).imp ?_
    rintro _ _ ⟨more, advances⟩
    exact ⟨more, advances, trivial⟩
  split
  case h_1 isPackage => exact header rfl (by rw [declaresType, isPackage]; exact Bool.false_ne_true)
  case h_2 isImport => exact header rfl (by rw [declaresType, isImport]; exact Bool.false_ne_true)
  case h_3 =>
    refine (handles_lower unit source part.height part inRoot (Nat.le_refl _) .plain middle
      advances.sound ⟨.of_ordinary unit mem_all_self (by rw [unit.program]; rfl) isPart _, room⟩).bind ?_
    rintro _ after ⟨more, handled⟩
    exact .pure ⟨more, handled.advances, trivial⟩

/-- The types outside of bodies are declared and linked before the tree is built. -/
theorem introduces_unit (unit : root.Grammatical) (typed : table.Typed) (source : Source) :
    Ensures (do
      declareTypes source root.height root none
      linkTypes source root) (.ofRoot table root) fun _ after =>
        Introduces root table.size root.namedParts (.ofRoot table root) after ∧
          after.localTypes = [] := by
  have sound := Sound.start typed root
  rw [← unit.members_eq]
  have inRoot : ∀ member ∈ root.members, member ∈ root.all := fun member => mem_all_of_member
  have numbered : (numbersOf root.members).Nodup :=
    unit.members_eq ▸ numbered_namedParts unit.numbered
  have first : Ensures (declareTypes source root.height root none) (.ofRoot table root)
      fun _ after => ∃ new,
        DeclaresTypes root table.size none root.members new (.ofRoot table root) after ∧
          ∀ entry ∈ new, entry.2 ∈ after.table.named :=
    declaresTypes_declareTypes unit inRoot numbered
      (fun member isMember => Nat.le_of_lt (height_lt_of_member isMember)) typed
      sound.consistent.registered nofun
  refine first.bind ?_
  rintro _ middle ⟨new, declares, allListed⟩
  have noLocals : middle.localTypes = [] := by
    rcases declares.state with ⟨_, _, rfl⟩
    rfl
  refine (linksMembers_linkTypes unit inRoot numbered ⟨declares.typed, by simp [noLocals]⟩
    (declares.allFit unit.numbered inRoot sound.consistent.fit) declares.allDeclared ?_).imp
      fun _ after links => ⟨.of_linked unit inRoot numbered ⟨_, _, rfl⟩ .refl sound.consistent
        sound.readable (fun _ => .inl) declares links nofun nofun nofun sound.consistent.fit
        (.of_declares declares allListed), by
          rcases links.declares.state with ⟨_, _, rfl⟩
          exact noLocals⟩
  intro member isMember isDeclared
  rcases Option.isSome_iff_exists.1 isDeclared with ⟨type, found⟩
  rw [declares.declared, List.append_nil] at found
  have isNumber := List.mem_map_of_mem (f := Prod.fst) (Declared.mem_of_lookup found)
  rw [declares.numbers, List.mem_reverse] at isNumber
  rcases List.mem_map.1 isNumber with ⟨phrase, isType, sameNumber⟩
  have phraseInRoot := (List.mem_flatMap.1 isType).elim fun outer ⟨isOuter, inside⟩ =>
    mem_all_trans (inRoot outer isOuter) (mem_all_of_mem_types inside)
  rw [← eq_of_number_eq unit.numbered phraseInRoot (inRoot member isMember) sameNumber]
  exact declaresType_of_flatMap isType

/-- All of a unit is lowered, and every type that came to be declared has a node. -/
theorem advances_lowerAll (unit : root.Grammatical) (typed : table.Typed) (source : Source) :
    Ensures (lowerAll source root) (.ofRoot table root) fun _ after => ∃ news,
      Advances root table.size root.numbers [] news (.ofRoot table root) after := by
  have sound := Sound.start typed root
  have passes : Ensures ((do
      declareTypes source root.height root none
      linkTypes source root) >>= fun _ => lowerUnit source root) (.ofRoot table root) fun _ after =>
        ∃ news, Advances root table.size root.numbers [] news (.ofRoot table root) after := by
    refine (introduces_unit unit typed source).bind fun _ linked ⟨introduces, noLocals⟩ => ?_
    have room : covers (linked.tree.span linked.builder.current) root.span := by
      rcases introduces.state with ⟨_, _, _, rfl⟩
      exact covers_refl _
    refine (advances_lowerUnit unit (sound.introduces introduces noLocals) room).imp ?_
    rintro _ after ⟨news, advances⟩
    rw [flatMap_due introduces.allDeclared] at advances
    exact ⟨news, .afterIntroduces introduces advances fun _ => numbersOf_subset fun part isNamed =>
      mem_all_of_part (mem_parts_of_named isNamed)⟩
  exact passes

end Lower

end JavaInspect.Java
