import JavaInspect.Proofs.Java.NodeBindings

/-!
# What lookups find

A method or field that is found for a type is declared by a type that is reached from it. A
constructor is found only in the type itself.
-/

namespace JavaInspect.Table

variable {table : Table} {type above found : BindingId} {unvisited queue : List BindingId}
  {name : String} {arity : Nat}

/-- What a search comes upon is reached from where it started. -/
theorem reaches_of_mem_searchFrom (isFound : above ∈ table.searchFrom unvisited queue) :
    ∃ below ∈ queue, table.Reaches below above := by
  fun_induction searchFrom table unvisited queue with
  | case1 unvisited => cases isFound
  | case2 unvisited current queue fresh ih =>
      rcases List.mem_cons.1 isFound with rfl | later
      · exact ⟨above, List.mem_cons_self, .refl⟩
      · rcases ih later with ⟨below, isBelow, reaches⟩
        rcases List.mem_append.1 isBelow with inQueue | isParent
        · exact ⟨below, List.mem_cons_of_mem _ inQueue, reaches⟩
        · exact ⟨current, List.mem_cons_self, .head isParent reaches⟩
  | case3 unvisited current queue stale ih =>
      rcases ih isFound with ⟨below, isBelow, reaches⟩
      exact ⟨below, List.mem_cons_of_mem _ isBelow, reaches⟩

theorem reaches_of_mem_hierarchy (isAbove : above ∈ table.hierarchy type) :
    table.Reaches type above := by
  rcases reaches_of_mem_searchFrom isAbove with ⟨below, isBelow, reaches⟩
  exact List.mem_singleton.1 isBelow ▸ reaches

/-- A search finds all that it still has to visit of its queue and of what is above what it
finds. -/
theorem searchFrom_closed : (∀ start ∈ queue, start ∈ unvisited →
      start ∈ table.searchFrom unvisited queue) ∧
    ∀ below ∈ table.searchFrom unvisited queue, ∀ above ∈ table.parents below, above ∈ unvisited →
      above ∈ table.searchFrom unvisited queue := by
  fun_induction searchFrom table unvisited queue with
  | case1 unvisited => exact ⟨nofun, nofun⟩
  | case2 unvisited current queue fresh ih =>
      rcases ih with ⟨started, closed⟩
      -- What is found apart from the current type is found by the rest of the search.
      have later {other : BindingId} (isLeft : other ∈ unvisited)
          (found : other ∈ unvisited.erase current →
            other ∈ table.searchFrom (unvisited.erase current) (queue ++ table.parents current)) :
          other ∈ current :: table.searchFrom (unvisited.erase current)
            (queue ++ table.parents current) := by
        by_cases same : other = current
        · exact same ▸ List.mem_cons_self
        · exact List.mem_cons_of_mem _ (found ((List.mem_erase_of_ne same).2 isLeft))
      refine ⟨fun start inQueue isLeft => ?_, fun below isFound above isParent isLeft => ?_⟩
      · rcases List.mem_cons.1 inQueue with rfl | inQueue
        · exact List.mem_cons_self
        · exact later isLeft (started start (List.mem_append_left _ inQueue))
      · rcases List.mem_cons.1 isFound with rfl | isFound
        · exact later isLeft (started above (List.mem_append_right _ isParent))
        · exact later isLeft (closed below isFound above isParent)
  | case3 unvisited current queue stale ih =>
      refine ⟨fun start inQueue isLeft => ?_, ih.2⟩
      rcases List.mem_cons.1 inQueue with rfl | inQueue
      · exact absurd isLeft stale
      · exact ih.1 start inQueue isLeft

theorem inTable_of_mem_parents (isParent : above ∈ table.parents type) :
    type.index < table.size := by
  by_contra outside
  rw [parents, entry_of_outside outside] at isParent
  cases isParent

/-- What is reached from a type is found above it, as long as the table has it. -/
theorem mem_hierarchy_of_reaches (reaches : table.Reaches type above)
    (inTable : above.index < table.size) : above ∈ table.hierarchy type := by
  induction reaches with
  | refl => exact searchFrom_closed.1 type List.mem_cons_self (mem_bindings.2 inTable)
  | tail _ isParent ih =>
      exact searchFrom_closed.2 _ (ih (inTable_of_mem_parents isParent)) _ isParent
        (mem_bindings.2 inTable)

/-- A method that a type has. -/
structure HasMethod (table : Table) (type : BindingId) (name : String) (arity : Nat)
    (method : BindingId) : Prop where
  isMethod : table.Holds .method method
  noConstructor : (table.entry method).isConstructor = false
  name : (table.entry method).name = name
  takes : table.Takes method arity
  owner : ∃ owner, (table.entry method).owner = some owner ∧ table.Reaches type owner

/-- A field that a type has. -/
structure HasField (table : Table) (type : BindingId) (name : String) (field : BindingId) : Prop where
  isField : table.Holds .variable field
  name : (table.entry field).name = name
  owner : ∃ owner, (table.entry field).owner = some owner ∧ table.Reaches type owner

/-- A constructor of a type. -/
structure HasConstructor (table : Table) (type : BindingId) (arity : Nat) (constructor : BindingId) :
    Prop where
  isMethod : table.Holds .method constructor
  isConstructor : (table.entry constructor).isConstructor
  takes : table.Takes constructor arity
  owner : (table.entry constructor).owner = some type

namespace Typed

variable (typed : table.Typed)
include typed

theorem findMethod (isFound : table.findMethod type name arity = some found) :
    table.HasMethod type name arity found := by
  rcases List.exists_of_findSome?_eq_some isFound with ⟨above, isAbove, isFound⟩
  have isMember := List.mem_of_find?_eq_some isFound
  have accepted := List.find?_some isFound
  simp only [Bool.and_eq_true, beq_iff_eq, Bool.not_eq_true'] at accepted
  rcases accepted with ⟨⟨⟨isMethod, noConstructor⟩, isName⟩, accepts⟩
  exact ⟨⟨typed.memberInTable above found isMember, isMethod⟩, noConstructor, isName,
    takes_of_accepts accepts, above, typed.memberOwner above found isMember,
    reaches_of_mem_hierarchy isAbove⟩

theorem findField (isFound : table.findField type name = some found) :
    table.HasField type name found := by
  rcases List.exists_of_findSome?_eq_some isFound with ⟨above, isAbove, isFound⟩
  have isMember := List.mem_of_find?_eq_some isFound
  have accepted := List.find?_some isFound
  simp only [Bool.and_eq_true, beq_iff_eq] at accepted
  exact ⟨⟨typed.memberInTable above found isMember, accepted.1⟩, accepted.2, above,
    typed.memberOwner above found isMember, reaches_of_mem_hierarchy isAbove⟩

theorem findConstructor (isFound : table.findConstructor type arity = some found) :
    table.HasConstructor type arity found := by
  have isMember := List.mem_of_find?_eq_some isFound
  have accepted := List.find?_some isFound
  simp only [Bool.and_eq_true] at accepted
  exact ⟨⟨typed.memberInTable type found isMember, typed.constructor found accepted.1⟩, accepted.1,
    takes_of_accepts accepted.2, typed.memberOwner type found isMember⟩

end Typed

end JavaInspect.Table
