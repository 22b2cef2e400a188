import JavaInspect.Proofs.Semantics.Facades

/-!
# Collecting supertypes

A collection of supertypes stands for the bindings that were met so far: it holds the
first occurrence of each and keeps back the one that is named like the root. What is
added at the end of the bindings is added to the collection.
-/

namespace JavaInspect

open Relation Cache

namespace Cache

variable {table : Table} {cache : Cache} {type : TypeId} {types : List TypeId}
  {binding : BindingId} {bindings : List BindingId}

/-- A known type has the qualified name of its binding. -/
theorem Valid.isNamed_iff (valid : cache.Valid table)
    (isShown : cache.ShowsType type (some binding))
    {name : String} :
    (cache.type type).qualifiedName = name ↔ (table.entry binding).qualifiedName = name := by
  rw [(valid.describesType isShown).qualifiedName]

theorem Valid.isUnknown_eq_false (valid : cache.Valid table)
    (isShown : cache.ShowsType type (some binding)) : type.isUnknown = false := by
  rw [Bool.eq_false_iff, ne_eq, TypeId.isUnknown_iff, valid.eq_unknown_iff isShown]
  simp

end Cache

namespace Linearization

variable {table : Table} {cache before after : Cache} {line : Linearization} {type : TypeId}
  {types : List TypeId} {binding : BindingId} {met more : List BindingId}

/-- A collection stands for the bindings that were met so far. -/
structure StandsFor (table : Table) (cache : Cache) (line : Linearization) (met : List BindingId) :
    Prop where
  types : cache.ShowsTypes line.types ((met.filter (!table.isRoot ·)).eraseDups.map some)
  root : Option.Rel (fun type binding => cache.ShowsType type (some binding)) line.root
    (met.filter table.isRoot).getLast?

namespace StandsFor

theorem empty : StandsFor table cache {} [] :=
  ⟨.nil, .none⟩

theorem keeps (keeps : Keeps before after) (stands : StandsFor table before line met) :
    StandsFor table after line met :=
  ⟨keeps.showsTypes stands.types, optionRel_imp (fun _ _ => keeps.showsType) stands.root⟩

/-- A further type is a new root, a type that was met before, or a new type at the
end. -/
theorem add (valid : cache.Valid table) (stands : StandsFor table cache line met)
    (isShown : cache.ShowsType type (some binding)) :
    StandsFor table cache (line.add cache type) (met ++ [binding]) := by
  rw [Linearization.add, valid.isUnknown_eq_false isShown]
  simp only [Bool.false_eq_true, if_false, valid.isNamed_iff isShown]
  by_cases isRoot : (table.entry binding).qualifiedName = rootTypeName
  · have rootTrue : table.isRoot binding = true := by simp [Table.isRoot, isRoot]
    simp only [isRoot, if_true]
    constructor
    · simpa [List.filter_append, rootTrue] using stands.types
    · simpa [List.filter_append, rootTrue] using Option.Rel.some isShown
  · have rootFalse : table.isRoot binding = false := by simp [Table.isRoot, isRoot]
    simp only [isRoot, if_false]
    have metBefore : line.types.contains type ↔ binding ∈ met.filter (!table.isRoot ·) := by
      have sameMember := List.rel_mem valid.biUnique_showsType isShown stands.types
      rw [List.contains_iff_mem]
      simpa [List.mem_eraseDups] using sameMember
    have filtered : (met ++ [binding]).filter (!table.isRoot ·) =
        met.filter (!table.isRoot ·) ++ [binding] := by
      simp [List.filter_append, rootFalse]
    have sameRoots : (met ++ [binding]).filter table.isRoot = met.filter table.isRoot := by
      simp [List.filter_append, rootFalse]
    constructor
    · rw [filtered, eraseDups_concat]
      by_cases old : binding ∈ met.filter (!table.isRoot ·)
      · rw [if_pos (metBefore.2 old), if_pos old]
        exact stands.types
      · rw [if_neg (old ∘ metBefore.1), if_neg old, List.map_append]
        exact List.rel_append stands.types (.cons isShown .nil)
    · rw [sameRoots]
      split
      · exact stands.root
      · exact stands.root

theorem addAll (valid : cache.Valid table) (stands : StandsFor table cache line met)
    (isShown : cache.ShowsTypes types (more.map some)) :
    StandsFor table cache (line.addAll cache types) (met ++ more) := by
  induction more generalizing types line met with
  | nil =>
      obtain rfl := List.forall₂_nil_right_iff.1 isShown
      simpa [Linearization.addAll] using stands
  | cons binding more ih =>
      rcases List.forall₂_cons_right_iff.1 isShown with ⟨type, rest, typeShown, restShown, rfl⟩
      have added := ih (stands.add valid typeShown) restShown
      simpa [Linearization.addAll] using added

theorem finish (stands : StandsFor table cache line met) :
    cache.ShowsTypes line.finish ((table.arranged met).map some) := by
  rw [Linearization.finish, Table.arranged, List.map_append]
  apply List.rel_append stands.types
  have isRoot := stands.root
  generalize line.root = root, (met.filter table.isRoot).getLast? = last at isRoot
  cases isRoot with
  | some isShown => exact .cons isShown .nil
  | none => exact .nil

end StandsFor

end Linearization

namespace Query

variable {Answer Next : Type} {table : Table} {blame : SemanticFault → Prop} {before : Cache}
  {binding upper : BindingId} {line : Linearization}

/-! ## Two queries at once -/

/-- Two queries do the same to a cache, and the outcome satisfies a claim. -/
def Agree (left right : Query Answer) (before : Cache) (claim : Answer → Cache → Prop) : Prop :=
  left before = right before ∧ Ensures left before claim

namespace Agree

variable {left right : Query Answer} {claim weaker : Answer → Cache → Prop}
  {leftNext rightNext : Answer → Query Next} {final : Next → Cache → Prop}

theorem of_ensures (ensures : Ensures left before claim) : Agree left left before claim :=
  ⟨rfl, ensures⟩

theorem pure {answer : Answer} (holds : claim answer before) :
    Agree (Pure.pure answer) (Pure.pure answer) before claim :=
  ⟨rfl, holds⟩

theorem imp (agree : Agree left right before claim)
    (implies : ∀ answer after, claim answer after → weaker answer after) :
    Agree left right before weaker :=
  ⟨agree.1, implies _ _ agree.2⟩

theorem bind (first : Agree left right before claim)
    (second : ∀ answer middle, claim answer middle →
      Agree (leftNext answer) (rightNext answer) middle final) :
    Agree (left >>= leftNext) (right >>= rightNext) before final := by
  rcases first with ⟨same, holds⟩
  rcases second _ _ holds with ⟨sameNext, finally'⟩
  refine ⟨?_, finally'⟩
  show leftNext (left before).1 (left before).2 = rightNext (right before).1 (right before).2
  rw [← same]
  exact sameNext

theorem readSymbol {symbol : SymbolId} {leftNext rightNext : SymbolFacade → Query Next}
    (agree : Agree (leftNext (before.symbol symbol)) (rightNext (before.symbol symbol)) before
      final) :
    Agree (Query.readSymbol symbol >>= leftNext) (Query.readSymbol symbol >>= rightNext) before
      final :=
  agree

theorem modifySymbol {symbol : SymbolId} {change : SymbolFacade → SymbolFacade}
    {leftNext rightNext : Unit → Query Next}
    (agree : Agree (leftNext ()) (rightNext ()) (before.modifySymbol symbol change) final) :
    Agree (Query.modifySymbol symbol change >>= leftNext)
      (Query.modifySymbol symbol change >>= rightNext) before final :=
  agree

end Agree

/-! ## The parents of a type -/

/-- The supertypes of a binding are remembered, unless a fault is known. -/
def Settled (cache : Cache) (binding : BindingId) : Prop :=
  cache.Finished binding ∨ cache.fault.isSome

theorem Settled.later {after : Cache} (settled : Settled before binding)
    (grows : Grows blame before after) : Settled after binding := by
  rcases settled with finished | faulty
  · exact .inl (grows.finished binding finished)
  · rcases Option.isSome_iff_exists.1 faulty with ⟨fault, isFault⟩
    exact .inr (by simp [grows.fault fault isFault])

/-- What a search for the supertypes of a binding achieves. -/
structure Found (table : Table) (binding : BindingId) (before : Cache) (types : List TypeId)
    (after : Cache) : Prop where
  leads : Leads table (table.CycleAbove binding) before after
  settled : Settled after binding
  shown : Grounded table.Above binding →
    after.ShowsTypes types ((table.lineage binding).map some)

/-- Two ways to search above a binding agree and find the supertypes of its parents,
while the supertypes of the same bindings are being computed. -/
def SearchesAbove (table : Table) (binding : BindingId) (path : List BindingId)
    (left right : SymbolId → Query (List TypeId)) : Prop :=
  ∀ upper symbol cache, table.Above binding upper → cache.Valid table →
    cache.ShowsSymbol symbol upper → (∀ other, cache.Open other ↔ other ∈ path) →
    Agree (left symbol) (right symbol) cache (Found table upper cache)

/-- What is achieved by collecting the supertypes above some parents of a binding. -/
structure Collected (table : Table) (binding : BindingId) (parents : List BindingId)
    (line : Linearization) (before : Cache) (collected : Linearization) (after : Cache) :
    Prop where
  leads : Leads table (table.CycleAbove binding) before after
  settled : ∀ upper ∈ parents, table.isKnown upper → Settled after upper
  stands : ∀ met, Grounded table.Above binding → line.StandsFor table before met →
    collected.StandsFor table after (met ++ parents.flatMap (table.withLineage table.lineage))

theorem Collected.nil (valid : before.Valid table) :
    Collected table binding [] line before line before where
  leads := .refl valid
  settled _ member := by cases member
  stands met _ stands := by simpa using stands

theorem Collected.cons {middle after : Cache} {firstLine lastLine : Linearization}
    {parents : List BindingId}
    (first : Collected table binding [upper] line before firstLine middle)
    (rest : Collected table binding parents firstLine middle lastLine after) :
    Collected table binding (upper :: parents) line before lastLine after where
  leads := first.leads.trans rest.leads
  settled other member known := by
    rcases List.mem_cons.1 member with rfl | inRest
    · exact (first.settled other (by simp) known).later rest.leads.toGrows
    · exact rest.settled other inRest known
  stands met grounded stands := by
    have stands := rest.stands _ grounded (first.stands met grounded stands)
    simpa using stands

section Parents

variable {path : List BindingId} {left right : SymbolId → Query (List TypeId)}

theorem agree_addWithAncestors (arraysEnd : table.ArraysEnd) (valid : before.Valid table)
    (opened : ∀ other, before.Open other ↔ other ∈ path)
    (searches : SearchesAbove table binding path left right)
    (isParent : table.isKnown upper → table.Above binding upper) :
    Agree (addWithAncestors table left line upper) (addWithAncestors table right line upper) before
      (Collected table binding [upper] line before) := by
  rw [addWithAncestors, addWithAncestors]
  apply (Agree.of_ensures (yields_typeOf arraysEnd valid)).bind
  intro type middle found
  rcases found with ⟨leads, isShown⟩
  by_cases known : table.isKnown upper
  · have above := isParent known
    rw [Table.known?, if_pos known] at isShown
    rw [leads.valid.isUnknown_eq_false isShown]
    apply (Agree.of_ensures (yields_symbolOf leads.valid)).bind
    intro symbol ready found
    rcases found with ⟨leadsOn, symbolShown⟩
    have leadsReady : Leads table (table.CycleAbove binding) before ready := leads.trans leadsOn
    have stillOpened (other : BindingId) : ready.Open other ↔ other ∈ path :=
      (leadsReady.stillOpen other).trans (opened other)
    apply (searches upper symbol ready above leadsOn.valid symbolShown stillOpened).bind
    intro ancestors after found
    have leadsAll : Leads table (table.CycleAbove binding) before after :=
      leadsReady.trans (found.leads.imp fun _ => .of_above above)
    refine ⟨rfl, leadsAll, ?_, ?_⟩
    · intro other member _
      obtain rfl := List.mem_singleton.1 member
      exact found.settled
    · intro met grounded stands
      have typeShown : after.ShowsType type (some upper) :=
        (leadsOn.toKeeps.trans found.leads.toKeeps).showsType isShown
      have allShown : after.ShowsTypes (type :: ancestors)
          ((upper :: table.lineage upper).map some) :=
        .cons typeShown (found.shown (grounded.next above))
      have isMore : [upper].flatMap (table.withLineage table.lineage) =
          upper :: table.lineage upper := by
        simp [Table.withLineage, known]
      rw [isMore]
      exact (stands.keeps leadsAll.toKeeps).addAll leadsAll.valid allShown
  · rw [Table.known?, if_neg known] at isShown
    obtain rfl := (leads.valid.eq_unknown_iff isShown).2 rfl
    refine ⟨rfl, leads, ?_, ?_⟩
    · intro other member otherKnown
      obtain rfl := List.mem_singleton.1 member
      exact absurd otherKnown known
    · intro met _ stands
      have noMore : [upper].flatMap (table.withLineage table.lineage) = [] := by
        simp [Table.withLineage, known]
      rw [noMore, List.append_nil]
      exact stands.keeps leads.toKeeps

theorem agree_collectParents {parents : List BindingId} (arraysEnd : table.ArraysEnd)
    (valid : before.Valid table) (opened : ∀ other, before.Open other ↔ other ∈ path)
    (searches : SearchesAbove table binding path left right)
    (areParents : ∀ upper ∈ parents, table.isKnown upper → table.Above binding upper) :
    Agree (parents.foldlM (addWithAncestors table left) line)
      (parents.foldlM (addWithAncestors table right) line) before
      (Collected table binding parents line before) := by
  induction parents generalizing line before with
  | nil => exact ⟨rfl, .nil valid⟩
  | cons upper parents ih =>
      rw [List.foldlM_cons, List.foldlM_cons]
      have isParent := areParents upper List.mem_cons_self
      apply (agree_addWithAncestors arraysEnd valid opened searches isParent).bind
      intro firstLine middle first
      have stillOpened (other : BindingId) : middle.Open other ↔ other ∈ path :=
        (first.leads.stillOpen other).trans (opened other)
      have restAreParents : ∀ upper ∈ parents, table.isKnown upper → table.Above binding upper :=
        fun upper member => areParents upper (List.mem_cons_of_mem _ member)
      apply (ih first.leads.valid stillOpened restAreParents).imp
      intro lastLine after rest
      exact first.cons rest

/-- What is achieved before the interfaces are collected. -/
structure Begun (table : Table) (binding : BindingId) (before : Cache) (line : Linearization)
    (after : Cache) : Prop where
  leads : Leads table (table.CycleAbove binding) before after
  settled : ∀ upper, table.linearSuperclass? binding = some upper → table.isKnown upper →
    Settled after upper
  stands : Grounded table.Above binding → line.StandsFor table after
    ((table.linearSuperclass? binding).toList.flatMap (table.withLineage table.lineage) ++
      table.arrayRoot binding)

theorem yields_addRoot (arraysEnd : table.ArraysEnd) (valid : before.Valid table)
    (isArray : table.kindOf binding = .array) :
    Yields table blame (do
        let root ← rootType table
        return Linearization.add (← get) {} root) before fun line after =>
      line.StandsFor table after (table.arrayRoot binding) := by
  apply (yields_resolveType arraysEnd valid).bind
  intro root after leads isShown
  apply Yields.get
  apply Yields.pure leads.valid
  rw [Table.arrayRoot, isArray]
  cases resolved : table.resolveType rootTypeName with
  | none =>
      rw [resolved] at isShown
      obtain rfl := (leads.valid.eq_unknown_iff isShown).2 rfl
      exact .empty
  | some binding =>
      rw [resolved, Option.bind_some, Table.known?] at isShown
      by_cases known : table.isKnown binding
      · rw [if_pos known] at isShown
        simpa [known] using Linearization.StandsFor.empty.add leads.valid isShown
      · rw [if_neg known] at isShown
        obtain rfl := (leads.valid.eq_unknown_iff isShown).2 rfl
        have noRoot : (some binding).toList.filter table.isKnown = [] := by simp [known]
        rw [noRoot]
        exact .empty

theorem agree_addSuperclass (arraysEnd : table.ArraysEnd) (valid : before.Valid table)
    (opened : ∀ other, before.Open other ↔ other ∈ path)
    (searches : SearchesAbove table binding path left right)
    (isParent : ∀ upper, table.linearSuperclass? binding = some upper → table.isKnown upper →
      table.Above binding upper) :
    Agree (addSuperclass table left binding) (addSuperclass table right binding) before
      (Begun table binding before) := by
  rw [addSuperclass, addSuperclass]
  cases isSuperclass : table.linearSuperclass? binding with
  | some superclass =>
      have isAbove := isParent superclass isSuperclass
      apply (agree_addWithAncestors arraysEnd valid opened searches isAbove).imp
      intro line after first
      refine ⟨first.leads, ?_, ?_⟩
      · intro upper isUpper
        obtain rfl := Option.some.inj (isSuperclass.symm.trans isUpper)
        exact first.settled superclass (by simp)
      · intro grounded
        rw [isSuperclass, Table.arrayRoot_of_superclass isSuperclass, List.append_nil]
        exact first.stands [] grounded .empty
  | none =>
      by_cases isArray : table.kindOf binding = .array
      · simp only [isArray, beq_self_eq_true, if_true]
        apply (Agree.of_ensures (yields_addRoot arraysEnd valid isArray)).imp
        intro line after found
        rcases found with ⟨leads, stands⟩
        refine ⟨leads, by simp [isSuperclass], fun _ => ?_⟩
        simpa [isSuperclass] using stands
      · simp only [beq_iff_eq, isArray, if_false]
        refine ⟨rfl, .refl valid, by simp [isSuperclass], fun _ => ?_⟩
        have noRoot : table.arrayRoot binding = [] := by simp [Table.arrayRoot, isArray]
        rw [isSuperclass, noRoot]
        exact .empty

/-- What collecting all the supertypes of a binding achieves. -/
structure Linearized (table : Table) (binding : BindingId) (before : Cache) (types : List TypeId)
    (after : Cache) : Prop where
  leads : Leads table (table.CycleAbove binding) before after
  settled : ∀ upper, table.Above binding upper → Settled after upper
  shown : Grounded table.Above binding →
    after.ShowsTypes types ((table.lineage binding).map some)

theorem agree_linearize {facade : SymbolFacade} (arraysEnd : table.ArraysEnd)
    (valid : before.Valid table) (opened : ∀ other, before.Open other ↔ other ∈ path)
    (searches : SearchesAbove table binding path left right)
    (isBinding : facade.binding = binding)
    (isRecovered : facade.recovered = (table.entry binding).recovered) :
    Agree (linearize table left facade) (linearize table right facade) before
      (Linearized table binding before) := by
  subst isBinding
  rw [linearize, linearize, isRecovered]
  cases recovered : (table.entry facade.binding).recovered with
  | true =>
      refine ⟨rfl, .refl valid, ?_, ?_⟩
      · intro upper above
        rw [Table.above_iff, recovered] at above
        cases above.1
      · intro grounded
        rw [Table.lineage_eq grounded, Table.gathered, recovered]
        exact .nil
  | false =>
      have isAbove (upper : BindingId)
          (isParent : table.linearSuperclass? facade.binding = some upper ∨
            upper ∈ (table.entry facade.binding).interfaces)
          (known : table.isKnown upper) : table.Above facade.binding upper :=
        Table.above_iff.2 ⟨recovered, isParent, known⟩
      apply (agree_addSuperclass arraysEnd valid opened searches fun upper isSuperclass =>
        isAbove upper (.inl isSuperclass)).bind
      intro firstLine middle first
      have stillOpened (other : BindingId) : middle.Open other ↔ other ∈ path :=
        (first.leads.stillOpen other).trans (opened other)
      apply (agree_collectParents arraysEnd first.leads.valid stillOpened searches
        fun upper isInterface => isAbove upper (.inr isInterface)).bind
      intro lastLine after rest
      refine ⟨rfl, first.leads.trans rest.leads, ?_, ?_⟩
      · intro upper above
        rcases Table.above_iff.1 above with ⟨-, isSuperclass | isInterface, known⟩
        · exact (first.settled upper isSuperclass known).later rest.leads.toGrows
        · exact rest.settled upper isInterface known
      · intro grounded
        have stands := rest.stands _ grounded (first.stands grounded)
        rw [Table.lineage_eq grounded, Table.gathered, recovered]
        exact stands.finish

end Parents

end Query

end JavaInspect
