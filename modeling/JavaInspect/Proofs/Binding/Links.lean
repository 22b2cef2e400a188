import JavaInspect.Binding.Lookup
import JavaInspect.Proofs.Binding.Assembling

/-!
# Links to supertypes

A type links to its superclass and its interfaces. Two calls make such links, and all others leave
them as they are; so every link of an assembled table leads to a binding of the table.
-/

namespace JavaInspect

/-- The types that an entry links to: the superclass, then the interfaces. -/
def Entry.parents (entry : Entry) : List BindingId :=
  entry.superclass.toList ++ entry.interfaces

/-- The link that a call makes. -/
def TableCall.link? : TableCall → Option (BindingId × BindingId)
  | .setSuperclass type superclass => some (type, superclass)
  | .addInterface type interface => some (type, interface)
  | _ => none

namespace Table

/-- Every link leads to a binding of the table. -/
def LinksInside (table : Table) : Prop :=
  ∀ lower upper, upper ∈ table.parents lower → upper.index < table.size

variable {table : Table} {binding lower upper : BindingId} {entry : Entry} {key : Key}
  {call : TableCall} {name : String}

theorem parents_eq : table.parents binding = (table.entry binding).parents := rfl

/-! ## Calls that make no link -/

theorem parents_push (unlinked : entry.parents = []) :
    (table.push entry).2.parents binding = table.parents binding := by
  rw [parents_eq, parents_eq, entry_push]
  split
  case isTrue isNew =>
    have blank : table.entry ⟨table.size⟩ = {} := entry_of_outside (Nat.lt_irrefl _)
    rw [isNew, blank, unlinked]
    rfl
  case isFalse => rfl

theorem parents_modify {change : Entry → Entry}
    (keeps : ∀ entry, (change entry).parents = entry.parents) :
    (table.modify lower change).parents binding = table.parents binding :=
  proj_entry_modify Entry.parents keeps

theorem parents_keep : (table.keep lower key).parents binding = table.parents binding := by
  rw [parents_eq, entry_keep, parents_eq]

theorem parents_addMember :
    (table.addMember lower upper).parents binding = table.parents binding :=
  parents_modify fun _ => rfl

theorem parents_findOrPush (unlinked : entry.parents = []) :
    (table.findOrPush key entry).2.parents binding = table.parents binding := by
  rw [findOrPush]
  split
  case h_1 => rfl
  case h_2 => rw [parents_keep, parents_push unlinked]

theorem parents_package : (table.package name).2.parents binding = table.parents binding := by
  rw [package_eq]
  exact parents_findOrPush rfl

theorem parents_primitive : (table.primitive name).2.parents binding = table.parents binding := by
  rw [primitive_eq]
  exact parents_findOrPush rfl

theorem parents_unresolvedType :
    (table.unresolvedType name).2.parents binding = table.parents binding := by
  rw [unresolvedType_eq]
  exact parents_findOrPush rfl

theorem parents_arrayOf : (table.arrayOf upper).2.parents binding = table.parents binding := by
  rw [arrayOf_eq]
  exact parents_findOrPush rfl

theorem parents_packageOf : (table.packageOf name).2.parents binding = table.parents binding := by
  rw [packageOf]
  split
  case h_1 => exact parents_package
  case h_2 => rfl

theorem parents_arrayOfDepth {depth : Nat} :
    (table.arrayOfDepth upper depth).2.parents binding = table.parents binding := by
  induction depth with
  | zero => rfl
  | succ depth ih => exact parents_arrayOf.trans ih

theorem parents_namedReference :
    (table.namedReference name).2.parents binding = table.parents binding := by
  rw [namedReference]
  split
  case isTrue => exact parents_primitive
  case isFalse =>
    split
    case h_1 => rfl
    case h_2 => exact parents_unresolvedType

theorem parents_typeReference :
    (table.typeReference name).2.parents binding = table.parents binding :=
  parents_arrayOfDepth.trans parents_namedReference

theorem parents_declareType {kind : TypeKind} :
    (table.declareType name kind).2.parents binding = table.parents binding := by
  rw [declareType]
  split
  case h_1 => rfl
  case h_2 => exact (parents_push rfl).trans parents_packageOf

theorem parents_declareNestedType {kind : TypeKind} :
    (table.declareNestedType lower name kind).2.parents binding = table.parents binding := by
  rw [declareNestedType]
  split
  case h_1 => rfl
  case h_2 => exact parents_addMember.trans (parents_push rfl)

theorem parents_apply (noLink : call.link? = none) :
    (call.apply table).parents binding = table.parents binding := by
  cases call with
  | setSuperclass | addInterface => cases noLink
  | package => exact parents_package
  | unresolvedType => exact parents_unresolvedType
  | primitive => exact parents_primitive
  | arrayOf => exact parents_arrayOf
  | typeReference => exact parents_typeReference
  | declareType => exact parents_declareType
  | declareNestedType => exact parents_declareNestedType
  | declareLocalType | declareVariable => exact parents_push rfl
  | declareMethod | declareConstructor | declareField =>
      exact parents_addMember.trans (parents_push rfl)
  | annotate | setVarargs | markRecovered => exact parents_modify fun _ => rfl
  | hideType => rfl

/-! ## Where links come from -/

/-- Only the changed entry links to more, and only to what it links to after the change. -/
theorem mem_parents_modify {change : Entry → Entry}
    (isParent : upper ∈ (table.modify binding change).parents lower) :
    upper ∈ table.parents lower ∨
      lower = binding ∧ upper ∈ (change (table.entry binding)).parents := by
  by_cases isChanged : lower = binding
  · subst isChanged
    by_cases inTable : lower.index < table.size
    · rw [parents_eq, entry_modify inTable, if_pos rfl] at isParent
      exact .inr ⟨rfl, isParent⟩
    · rw [parents_eq, entry_of_outside (by simpa using inTable)] at isParent
      cases isParent
  · rw [parents_eq, entry_modify_of_ne isChanged] at isParent
    exact .inl isParent

/-- A link that there is after a call was there before, or the call has made it. -/
theorem mem_parents_apply (isParent : upper ∈ (call.apply table).parents lower) :
    upper ∈ table.parents lower ∨ call.link? = some (lower, upper) := by
  cases call with
  | setSuperclass type superclass =>
      rcases mem_parents_modify isParent with old | ⟨rfl, isParent⟩
      · exact .inl old
      · simp only [Entry.parents, Option.toList_some, List.mem_append, List.mem_singleton]
          at isParent
        rcases isParent with rfl | old
        · exact .inr rfl
        · exact .inl (List.mem_append_right _ old)
  | addInterface type interface =>
      rcases mem_parents_modify isParent with old | ⟨rfl, isParent⟩
      · exact .inl old
      · simp only [Entry.parents, ← List.append_assoc] at isParent
        rcases List.mem_append.1 isParent with old | isNew
        · exact .inl old
        · exact .inr (by simp [TableCall.link?, List.mem_singleton.1 isNew])
  | _ => exact .inl (by rwa [parents_apply rfl] at isParent)

theorem linksInside_empty : LinksInside {} := by
  simp [LinksInside, parents, Table.entry]

/-- In an assembled table every link leads to a binding of the table. -/
theorem Assembled.linksInside (assembled : table.Assembled) : table.LinksInside := by
  induction assembled with
  | refl => exact linksInside_empty
  | @tail before _ assembled called ih =>
      cases called with
      | call call fits =>
          have extended := ((retrieves_empty.later assembled).1.changes_of_fits fits).extended
          intro lower upper isParent
          refine Nat.lt_of_lt_of_le ?_ extended.size_le
          rcases mem_parents_apply isParent with old | isLink
          · exact ih lower upper old
          · refine fits upper ?_
            cases call <;> cases isLink <;> simp [TableCall.arguments]

end Table

end JavaInspect
