import JavaInspect.Proofs.Binding.Assembling
import JavaInspect.Proofs.Java.Lookups
import JavaInspect.Proofs.Semantics.SuperTypes

/-!
# Inherited members

Lookups of members and the supertypes of the semantic model go up from a type in two ways. A
lookup follows every link to a superclass or an interface. The supertypes leave out recovered and
unknown types with all that is above them and superclasses of what is no class, and they have the
root above arrays. What a lookup finds is inherited in both ways where the links are those that
supertypes follow.
-/

namespace JavaInspect

open Relation Cache Query

/-- A non-constructor method of a name that accepts a number of arguments. -/
def Entry.IsMethodFor (name : String) (arity : Nat) (entry : Entry) : Prop :=
  entry.kind = .method ∧ entry.isConstructor = false ∧ entry.name = name ∧ entry.accepts arity

instance {name : String} {arity : Nat} :
    DecidablePred (Entry.IsMethodFor name arity) := fun entry =>
  inferInstanceAs (Decidable (entry.kind = .method ∧ entry.isConstructor = false ∧
    entry.name = name ∧ entry.accepts arity))

/-- A field of a name. -/
def Entry.IsFieldNamed (name : String) (entry : Entry) : Prop :=
  entry.kind = .variable ∧ entry.name = name

instance {name : String} : DecidablePred (Entry.IsFieldNamed name) := fun entry =>
  inferInstanceAs (Decidable (entry.kind = .variable ∧ entry.name = name))

namespace Table

section Definitions

variable (table : Table) (history : List Request)

/-- Whether a type directly declares a member that is wanted. -/
def Declares (wanted : Entry → Prop) (type : BindingId) : Prop :=
  ∃ member ∈ (table.entry type).members, wanted (table.entry member)

/-- A type that the semantic model lists among the supertypes of another. -/
def IsSuperType (type upper : BindingId) : Prop :=
  ∃ listed ∈ (superTypesAfter table history type).1,
    (superTypesAfter table history type).2.ShowsType listed (some upper)

/-- The type itself or one of its supertypes. -/
def IsSameOrSuper (type upper : BindingId) : Prop :=
  upper = type ∨ table.IsSuperType history type upper

/-- The root of the reference types, which arrays above a type imply and no link leads to. -/
def OnlyImplied (type root : BindingId) : Prop :=
  (∃ array, ReflTransGen table.Above type array ∧ root ∈ table.arrayRoot array) ∧
    ¬ table.Reaches type root

/-- Every link above a type is one that supertypes follow: it leaves a resolved type for a known
one, and a class if it leads to a superclass. -/
def LinksCount (type : BindingId) : Prop :=
  ∀ lower upper, table.Reaches type lower → upper ∈ table.parents lower → table.Above lower upper

/-- A lookup answers just when a type or one of its supertypes declares what is wanted, and one of
them owns the answer. -/
structure FindsInherited (wanted : Entry → Prop) (type : BindingId) (answer : Option BindingId) :
    Prop where
  found_iff : answer ≠ none ↔
    ∃ upper, table.IsSameOrSuper history type upper ∧ table.Declares wanted upper
  owner : ∀ member, answer = some member → ∃ owner, (table.entry member).owner = some owner ∧
    table.IsSameOrSuper history type owner

/-- How the answer of a lookup goes with the supertypes of a type. -/
structure GoesWithSuperTypes (wanted : Entry → Prop) (type : BindingId)
    (answer : Option BindingId) : Prop where
  /-- What a type or one of its supertypes declares is found, except in a root that no link leads
  to. -/
  found : ∀ upper, table.IsSameOrSuper history type upper → ¬ table.OnlyImplied type upper →
    table.Declares wanted upper → answer ≠ none
  /-- What is found is wanted and declared by its owner, which links lead to. The owner is the
  type or one of its supertypes where the links to it count and it is not one of several types
  that are named like the root. -/
  owner : ∀ member, answer = some member → wanted (table.entry member) ∧
    ∃ owner, (table.entry member).owner = some owner ∧ member ∈ (table.entry owner).members ∧
      table.Reaches type owner ∧
      (ReflTransGen table.Above type owner → (table.isRoot owner → table.HasUniqueRoot) →
        table.IsSameOrSuper history type owner)
  /-- The lookup and the supertypes agree where all links count, no two types are named like the
  root, and no root that is only implied declares what is wanted. -/
  agrees : table.LinksCount type → table.HasUniqueRoot →
    (∀ root, table.OnlyImplied type root → ¬ table.Declares wanted root) →
      table.FindsInherited history wanted type answer

end Definitions

variable {table : Table} {history : List Request} {type upper : BindingId} {wanted : Entry → Prop}
  {own : BindingId → Option BindingId}

instance [DecidablePred wanted] : Decidable (table.Declares wanted type) :=
  inferInstanceAs (Decidable (∃ member ∈ (table.entry type).members, wanted (table.entry member)))

/-! ## Supertypes -/

/-- The supertypes of a type are its lineage. -/
theorem isSuperType_iff (built : table.Built) (grounded : Grounded table.Above type) :
    table.IsSuperType history type upper ↔ upper ∈ table.lineage type := by
  have found := found_superTypesAfter built.wellLinked.arraysEnd history type
  have isShown := found.shown grounded
  rw [IsSuperType]
  constructor
  · intro listed
    rcases listed with ⟨listed, isListed, listedShown⟩
    have same := List.rel_mem found.leads.valid.biUnique_showsType listedShown isShown
    simpa using same.1 isListed
  · intro member
    rcases List.mem_iff_getElem.1 member with ⟨index, inside, rfl⟩
    have sameLength := isShown.length_eq
    rw [List.length_map] at sameLength
    refine ⟨_, List.getElem_mem (sameLength ▸ inside), ?_⟩
    have shownThere := List.Forall₂.get isShown (sameLength ▸ inside) (by simpa using inside)
    simpa only [List.get_eq_getElem, List.getElem_map] using shownThere

theorem Above.isParent {lower : BindingId} (above : table.Above lower upper) :
    upper ∈ table.parents lower := by
  rcases above_iff.1 above with ⟨-, isSuperclass | isInterface, -⟩
  · have linked : (table.entry lower).superclass = some upper := by
      rw [linearSuperclass?] at isSuperclass
      split at isSuperclass <;> first | exact isSuperclass | cases isSuperclass
    simp [parents, linked]
  · exact List.mem_append_right _ isInterface

theorem reaches_of_above (path : ReflTransGen table.Above type upper) :
    table.Reaches type upper :=
  ReflTransGen.mono (fun _ _ => Above.isParent) _ _ path

theorem LinksCount.above (counts : table.LinksCount type) (reaches : table.Reaches type upper) :
    ReflTransGen table.Above type upper := by
  induction reaches with
  | refl => exact .refl
  | tail reaches isParent ih => exact ih.tail (counts _ _ reaches isParent)

/-- Links lead to a type or its supertypes, apart from a root that is only implied. -/
theorem IsSameOrSuper.reaches (built : table.Built) (grounded : Grounded table.Above type)
    (isUpper : table.IsSameOrSuper history type upper) (linked : ¬ table.OnlyImplied type upper) :
    table.Reaches type upper := by
  rcases isUpper with rfl | isSuper
  · exact .refl
  · rcases above_or_root_of_mem_lineage grounded ((isSuperType_iff built grounded).1 isSuper) with
      path | implied
    · exact reaches_of_above path.to_reflTransGen
    · by_contra unreached
      exact linked ⟨implied, unreached⟩

theorem isSameOrSuper_of_above (built : table.Built) (grounded : Grounded table.Above type)
    (path : ReflTransGen table.Above type upper)
    (unique : table.isRoot upper → table.HasUniqueRoot) :
    table.IsSameOrSuper history type upper := by
  rcases reflTransGen_iff_eq_or_transGen.1 path with same | further
  · exact .inl same
  · exact .inr ((isSuperType_iff built grounded).2 (mem_lineage_of_above grounded unique further))

/-! ## Lookups -/

theorem Declares.inTable (declares : table.Declares wanted type) : type.index < table.size := by
  rcases declares with ⟨member, isMember, -⟩
  by_contra outside
  rw [entry_of_outside outside] at isMember
  cases isMember

section Lookup

variable (finds : ∀ upper member, own upper = some member →
    member ∈ (table.entry upper).members ∧ wanted (table.entry member))
  (complete : ∀ upper, table.Declares wanted upper → own upper ≠ none)

include complete in
/-- What is declared by a type that links lead to is found. -/
theorem findSome_hierarchy_ne_none (reaches : table.Reaches type upper)
    (declares : table.Declares wanted upper) : (table.hierarchy type).findSome? own ≠ none := by
  intro isNone
  exact complete upper declares (List.findSome?_eq_none_iff.1 isNone upper
    (mem_hierarchy_of_reaches reaches declares.inTable))

include finds complete in
/-- Lookups that search a type and all that links lead to from it go with its supertypes. -/
theorem goesWithSuperTypes (built : table.Built) (acyclic : Acyclic table.Above) :
    table.GoesWithSuperTypes history wanted type ((table.hierarchy type).findSome? own) := by
  have grounded : Grounded table.Above type := grounded_of_noCycle fun cyclic _ => acyclic cyclic
  have owned : ∀ member, (table.hierarchy type).findSome? own = some member →
      wanted (table.entry member) ∧ ∃ owner, (table.entry member).owner = some owner ∧
        member ∈ (table.entry owner).members ∧ table.Reaches type owner := by
    intro member isFound
    rcases List.exists_of_findSome?_eq_some isFound with ⟨owner, isAbove, isOwn⟩
    rcases finds owner member isOwn with ⟨isMember, isWanted⟩
    exact ⟨isWanted, owner, built.listsOwn.owner owner member isMember, isMember,
      reaches_of_mem_hierarchy isAbove⟩
  refine ⟨fun upper isUpper linked declares => ?_, fun member isFound => ?_,
    fun counts unique noRoot => ⟨⟨fun isFound => ?_, fun declares => ?_⟩, fun member isFound => ?_⟩⟩
  · exact findSome_hierarchy_ne_none complete (isUpper.reaches built grounded linked) declares
  · rcases owned member isFound with ⟨isWanted, owner, isOwner, isMember, reaches⟩
    exact ⟨isWanted, owner, isOwner, isMember, reaches,
      isSameOrSuper_of_above built grounded⟩
  · rcases Option.ne_none_iff_exists'.1 isFound with ⟨member, isFound⟩
    rcases owned member isFound with ⟨isWanted, owner, -, isMember, reaches⟩
    exact ⟨owner, isSameOrSuper_of_above built grounded (counts.above reaches) fun _ => unique,
      member, isMember, isWanted⟩
  · rcases declares with ⟨upper, isUpper, declares⟩
    have linked : ¬ table.OnlyImplied type upper := fun implied => noRoot upper implied declares
    exact findSome_hierarchy_ne_none complete (isUpper.reaches built grounded linked) declares
  · rcases owned member isFound with ⟨-, owner, isOwner, -, reaches⟩
    exact ⟨owner, isOwner,
      isSameOrSuper_of_above built grounded (counts.above reaches) fun _ => unique⟩

end Lookup

variable {name : String} {arity : Nat} {member : BindingId}

theorem ownMethod?_isOwn (isOwn : table.ownMethod? upper name arity = some member) :
    member ∈ (table.entry upper).members ∧ (table.entry member).IsMethodFor name arity := by
  refine ⟨List.mem_of_find?_eq_some isOwn, ?_⟩
  have accepted := List.find?_some isOwn
  simpa [Entry.IsMethodFor, and_assoc] using accepted

theorem ownMethod?_ne_none (declares : table.Declares (Entry.IsMethodFor name arity) upper) :
    table.ownMethod? upper name arity ≠ none := by
  rcases declares with ⟨member, isMember, isMethod, noConstructor, isName, accepts⟩
  intro isNone
  have refused := List.find?_eq_none.1 isNone member isMember
  simp [isMethod, noConstructor, isName, accepts] at refused

theorem ownField?_isOwn (isOwn : table.ownField? upper name = some member) :
    member ∈ (table.entry upper).members ∧ (table.entry member).IsFieldNamed name := by
  refine ⟨List.mem_of_find?_eq_some isOwn, ?_⟩
  have accepted := List.find?_some isOwn
  simpa [Entry.IsFieldNamed] using accepted

theorem ownField?_ne_none (declares : table.Declares (Entry.IsFieldNamed name) upper) :
    table.ownField? upper name ≠ none := by
  rcases declares with ⟨member, isMember, isField, isName⟩
  intro isNone
  have refused := List.find?_eq_none.1 isNone member isMember
  simp [isField, isName] at refused

theorem acyclic_above_of_parents
    (acyclic : Acyclic fun lower upper => upper ∈ table.parents lower) :
    Acyclic table.Above := fun start returns =>
  acyclic start (TransGen.mono (fun _ _ => Above.isParent) start start returns)

/-- In a table that calls have built and whose supertypes run in no circle, lookups of methods and
of fields go with the supertypes that the semantic model answers, whatever it was asked before. -/
theorem lookups_go_with_superTypes (built : table.Built) (acyclic : Acyclic table.Above)
    (history : List Request) (type : BindingId) (name : String) :
    (∀ arity, table.GoesWithSuperTypes history (Entry.IsMethodFor name arity) type
      (table.findMethod type name arity)) ∧
    table.GoesWithSuperTypes history (Entry.IsFieldNamed name) type (table.findField type name) :=
  ⟨fun _ =>
      goesWithSuperTypes (fun _ _ => ownMethod?_isOwn) (fun _ => ownMethod?_ne_none) built acyclic,
    goesWithSuperTypes (fun _ _ => ownField?_isOwn) (fun _ => ownField?_ne_none) built acyclic⟩

/-- A raft is a hull and a port, and a hull has a method of its own and one of the root. -/
def fleetCalls : List TableCall :=
  [ .declareType "java.lang.Object" .class,
    .declareMethod ⟨1⟩ "hashCode" [] none,
    .declareType "Hull" .class,
    .declareMethod ⟨3⟩ "dock" [] none,
    .declareType "Port" .interface,
    .declareType "Raft" .class,
    .setSuperclass ⟨3⟩ ⟨1⟩,
    .setSuperclass ⟨6⟩ ⟨3⟩,
    .addInterface ⟨6⟩ ⟨5⟩ ]

def fleet : Table := build fleetCalls

set_option maxRecDepth 8000 in
theorem lookups_go_with_superTypes_fleet : (fleet.Built ∧ Acyclic fleet.Above) ∧
    fleet.FindsInherited [.superTypes ⟨3⟩] (Entry.IsMethodFor "hashCode" 0) ⟨6⟩
      (fleet.findMethod ⟨6⟩ "hashCode" 0) ∧
    fleet.findMethod ⟨6⟩ "hashCode" 0 ≠ none := by
  have built : fleet.Built := built_iff.2 ⟨_, rfl⟩
  have acyclic : Acyclic fleet.Above := acyclic_above_of_parents <|
    acyclic_of_bindings fleet.parents (fun _ _ isParent => isParent)
      (fun _ _ => inTable_of_mem_parents) (by decide)
  have goes := (lookups_go_with_superTypes built acyclic [.superTypes ⟨3⟩] ⟨6⟩ "hashCode").1 0
  have counts : ∀ lower ∈ fleet.bindings, ∀ upper ∈ fleet.parents lower,
      fleet.Above lower upper := by decide
  have toHull : fleet.Above ⟨6⟩ ⟨3⟩ := by decide
  have toRoot : fleet.Above ⟨3⟩ ⟨1⟩ := by decide
  have toTop : ReflTransGen fleet.Above ⟨6⟩ ⟨1⟩ := .head toHull (.single toRoot)
  have notImplied {root : BindingId} : ¬ fleet.OnlyImplied ⟨6⟩ root := by
    rintro ⟨⟨array, -, isRoot⟩, unreached⟩
    have resolved : fleet.resolveType rootTypeName = some ⟨1⟩ := by decide
    obtain rfl := Option.some.inj (resolved.symm.trans (mem_arrayRoot_iff.1 isRoot).2.1)
    exact unreached (reaches_of_above toTop)
  have inherited := goes.agrees
    (fun lower upper _ isParent =>
      counts lower (mem_bindings.2 (inTable_of_mem_parents isParent)) upper isParent)
    (by decide) (fun root implied => absurd implied notImplied)
  have grounded : Grounded fleet.Above ⟨6⟩ := grounded_of_noCycle fun cyclic _ => acyclic cyclic
  have isUpper : fleet.IsSameOrSuper [.superTypes ⟨3⟩] ⟨6⟩ ⟨1⟩ :=
    isSameOrSuper_of_above built grounded toTop fun _ => by decide
  exact ⟨⟨built, acyclic⟩, inherited, inherited.found_iff.2 ⟨⟨1⟩, isUpper, by decide⟩⟩

/-! ## Where lookups and supertypes differ -/

/-- Beside the fleet, a plank below a recovered wreck, a superclass of the interface, a class below
a namesake of the root that also implements the root, and an array of it. -/
def crossed : Table := build (fleetCalls ++
  [ .declareType "Wreck" .class,
    .declareMethod ⟨7⟩ "sink" [] none,
    .declareType "Plank" .class,
    .declareLocalType ⟨2⟩ "java.lang.Object" .class,
    .declareField ⟨10⟩ "flag" ⟨1⟩,
    .declareType "Deck" .class,
    .arrayOf ⟨12⟩,
    .setSuperclass ⟨9⟩ ⟨7⟩,
    .markRecovered ⟨7⟩,
    .setSuperclass ⟨5⟩ ⟨3⟩,
    .setSuperclass ⟨12⟩ ⟨10⟩,
    .addInterface ⟨12⟩ ⟨1⟩ ])

theorem built_crossed : crossed.Built := built_iff.2 ⟨_, rfl⟩

set_option maxRecDepth 8000 in
theorem acyclic_parents_crossed : Acyclic fun lower upper => upper ∈ crossed.parents lower :=
  acyclic_of_bindings crossed.parents (fun _ _ isParent => isParent)
    (fun _ _ => inTable_of_mem_parents) (by decide)

theorem grounded_crossed {type : BindingId} : Grounded crossed.Above type :=
  grounded_of_noCycle fun cyclic _ => acyclic_above_of_parents acyclic_parents_crossed cyclic

/-- What only links lead to is found although no supertype declares it. -/
theorem not_findsInherited_of_linked {answer : Option BindingId} (built : table.Built)
    (grounded : Grounded table.Above type) (isFound : answer ≠ none)
    (undeclared : ∀ upper ∈ type :: table.lineage type, ¬ table.Declares wanted upper) :
    ¬ table.FindsInherited history wanted type answer := by
  intro inherited
  rcases inherited.found_iff.1 isFound with ⟨upper, rfl | isSuper, declares⟩
  · exact undeclared upper List.mem_cons_self declares
  · exact undeclared upper (List.mem_cons_of_mem _ ((isSuperType_iff built grounded).1 isSuper))
      declares

/-- What only a supertype declares that no link leads to is not found. -/
theorem not_findsInherited_of_unlinked {root : BindingId} {name : String} {arity : Nat}
    (built : table.Built) (grounded : Grounded table.Above type)
    (noParents : table.parents type = []) (noMembers : (table.entry type).members = [])
    (isRoot : root ∈ table.lineage type)
    (declares : table.Declares (Entry.IsMethodFor name arity) root) :
    ¬ table.FindsInherited history (Entry.IsMethodFor name arity) type
      (table.findMethod type name arity) := by
  intro inherited
  have isSuper : table.IsSameOrSuper history type root :=
    .inr ((isSuperType_iff built grounded).2 isRoot)
  rcases Option.ne_none_iff_exists'.1 (inherited.found_iff.2 ⟨root, isSuper, declares⟩) with
    ⟨member, isFound⟩
  rcases List.exists_of_findSome?_eq_some isFound with ⟨owner, isAbove, isOwn⟩
  have isMember := (ownMethod?_isOwn isOwn).1
  rcases ReflTransGen.cases_head (reaches_of_mem_hierarchy isAbove) with rfl | ⟨parent, isParent, -⟩
  · rw [noMembers] at isMember
    cases isMember
  · rw [noParents] at isParent
    cases isParent

set_option maxRecDepth 8000 in
/-- Lookups find a method of a recovered superclass, one of the superclass of an interface and a
field of a namesake of the root, though no supertype declares them, and not the method of the root
that an array has as a supertype. -/
theorem lookups_differ_crossed :
    (crossed.Built ∧ Acyclic fun lower upper => upper ∈ crossed.parents lower) ∧
    (∀ type ∈ [⟨9⟩, ⟨5⟩, ⟨12⟩, ⟨13⟩], crossed.isKnown type) ∧
    ¬ crossed.FindsInherited [] (Entry.IsMethodFor "sink" 0) ⟨9⟩ (crossed.findMethod ⟨9⟩ "sink" 0) ∧
    ¬ crossed.FindsInherited [] (Entry.IsMethodFor "dock" 0) ⟨5⟩ (crossed.findMethod ⟨5⟩ "dock" 0) ∧
    ¬ crossed.FindsInherited [] (Entry.IsFieldNamed "flag") ⟨12⟩ (crossed.findField ⟨12⟩ "flag") ∧
    ¬ crossed.FindsInherited [] (Entry.IsMethodFor "hashCode" 0) ⟨13⟩
      (crossed.findMethod ⟨13⟩ "hashCode" 0) := by
  have toWreck : crossed.Reaches ⟨9⟩ ⟨7⟩ := .single (by decide)
  have toHull : crossed.Reaches ⟨5⟩ ⟨3⟩ := .single (by decide)
  have toNamesake : crossed.Reaches ⟨12⟩ ⟨10⟩ := .single (by decide)
  refine ⟨⟨built_crossed, acyclic_parents_crossed⟩, by decide, ?_, ?_, ?_, ?_⟩
  · refine not_findsInherited_of_linked built_crossed grounded_crossed ?_ (by decide)
    exact findSome_hierarchy_ne_none (fun _ => ownMethod?_ne_none) toWreck (by decide)
  · refine not_findsInherited_of_linked built_crossed grounded_crossed ?_ (by decide)
    exact findSome_hierarchy_ne_none (fun _ => ownMethod?_ne_none) toHull (by decide)
  · refine not_findsInherited_of_linked built_crossed grounded_crossed ?_ (by decide)
    exact findSome_hierarchy_ne_none (fun _ => ownField?_ne_none) toNamesake (by decide)
  · have isRoot : ⟨1⟩ ∈ crossed.lineage ⟨13⟩ := by decide
    exact not_findsInherited_of_unlinked built_crossed grounded_crossed (by decide) (by decide)
      isRoot (by decide)

end Table

end JavaInspect
